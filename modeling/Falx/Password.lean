import Falx.AuthModels
import Falx.GoScan
import Mathlib

/-! The stored passwords: the text that `argon2idHash` writes and `VerifyPassword` reads. -/

namespace Falx.Auth

open GoScan

structure Argon2Params where
  memory : UInt32
  iterations : UInt32
  parallelism : UInt8
  saltLen : UInt32
  keyLen : UInt32
  deriving DecidableEq

def defaultArgon2Params : Argon2Params where
  memory := 64 * 1024
  iterations := 3
  parallelism := 2
  saltLen := 16
  keyLen := 32

def argon2Version : Int := 19

abbrev Salt : Type := Vector UInt8 defaultArgon2Params.saltLen.toNat

/-- Argon2id, which makes keys of the length that is asked for, base64 without padding, whose
alphabet has no dollar sign, and the errors of `fmt.Sscanf`. -/
structure PasswordLibrary where
  idKey : (password salt : ByteArray) → (time memory : UInt32) → (threads : UInt8) →
    (keyLen : UInt32) → Vector UInt8 keyLen.toNat
  encodeToString : ByteArray → List Char
  decodeString : List Char → Except AuthError ByteArray
  decode_encode : ∀ b, decodeString (encodeToString b) = .ok b
  dollar_not_mem : ∀ b, '$' ∉ encodeToString b
  scanError : List Char → AuthError

/-- `%d` for an `int`. -/
def scanInt (cs : List Char) : Option Int :=
  match skipSpace cs with
  | none => none
  | some cs =>
    let (sign, cs) : Int × List Char := match cs with
      | '-' :: cs => (-1, cs)
      | '+' :: cs => (1, cs)
      | cs => (1, cs)
    let tok := cs.takeWhile Char.isDigit
    let v := sign * decimalValue tok
    if tok = [] ∨ v < -2 ^ 63 ∨ 2 ^ 63 ≤ v then none else some v

/-- The formats `v=%d` and `m=%d,t=%d,p=%d`. -/
def sscanVersion : List Char → Option Int
  | 'v' :: '=' :: cs => scanInt cs
  | _ => none

def sscanParams : List Char → Option (UInt32 × UInt32 × UInt8)
  | 'm' :: '=' :: cs =>
    match scanUint 32 cs with
    | some (memory, ',' :: 't' :: '=' :: cs) =>
      match scanUint 32 cs with
      | some (iterations, ',' :: 'p' :: '=' :: cs) =>
        (scanUint 8 cs).map fun r => (.ofNat memory, .ofNat iterations, .ofNat r.1)
      | _ => none
    | _ => none
  | _ => none

section Record

variable (lib : PasswordLibrary)

/-- `rand` is what `rand.Read` gives. -/
def argon2idHash (rand : Except AuthError Salt) (plaintext : ByteArray) :
    Except AuthError (List Char) :=
  let p := defaultArgon2Params
  match rand with
  | .error err => .error (.wrapped "salt generation" err)
  | .ok salt =>
    let hash := lib.idKey plaintext ⟨salt.toArray⟩ p.iterations p.memory p.parallelism p.keyLen
    let b64salt := lib.encodeToString ⟨salt.toArray⟩
    let b64hash := lib.encodeToString ⟨hash.toArray⟩
    .ok ("$argon2id$v=".toList ++ (toString argon2Version).toList ++ "$m=".toList ++
      (toString p.memory).toList ++ ",t=".toList ++ (toString p.iterations).toList ++
      ",p=".toList ++ (toString p.parallelism).toList ++ '$' :: b64salt ++ '$' :: b64hash)

def hashPassword (rand : Except AuthError Salt) (password : ByteArray) :
    Except AuthError (List Char) :=
  if password.size < 12 then .error (.new "password must be at least 12 characters")
  else if 128 < password.size then .error (.new "password exceeds maximum length")
  else argon2idHash lib rand password

def decodeHash (encoded : List Char) : Except AuthError (Argon2Params × ByteArray × ByteArray) :=
  match encoded.splitOn '$' with
  | [_, algorithm, version, params, salt, hash] =>
    if algorithm ≠ "argon2id".toList then
      .error (.new ("unsupported algorithm: " ++ String.ofList algorithm))
    else
      match sscanVersion version with
      | none => .error (.wrapped "version parse" (lib.scanError version))
      | some v =>
        if v ≠ argon2Version then
          .error (.new ("incompatible argon2 version: " ++ toString v))
        else
          match sscanParams params with
          | none => .error (.wrapped "params parse" (lib.scanError params))
          | some (memory, iterations, parallelism) =>
            match lib.decodeString salt with
            | .error err => .error (.wrapped "salt decode" err)
            | .ok salt =>
              match lib.decodeString hash with
              | .error err => .error (.wrapped "hash decode" err)
              | .ok hash =>
                .ok (⟨memory, iterations, parallelism, .ofNat salt.size, .ofNat hash.size⟩,
                  salt, hash)
  | _ => .error (.new "invalid hash format: wrong field count")

def verifyPassword (password : ByteArray) (encoded : List Char) : Except AuthError Bool :=
  match decodeHash lib encoded with
  | .error err => .error (.wrapped "decode hash" err)
  | .ok (p, salt, hash) =>
    let comparison := lib.idKey password salt p.iterations p.memory p.parallelism p.keyLen
    .ok (hash = ⟨comparison.toArray⟩)

variable {lib} {salt : Salt} {password : ByteArray} {encoded : List Char}

/-- The key of a new record. -/
def PasswordLibrary.key (lib : PasswordLibrary) (password : ByteArray) (salt : Salt) : ByteArray :=
  let p := defaultArgon2Params
  ⟨(lib.idKey password ⟨salt.toArray⟩ p.iterations p.memory p.parallelism p.keyLen).toArray⟩

section

variable (h : argon2idHash lib (.ok salt) password = .ok encoded)

include h

theorem splitOn_argon2idHash :
    encoded.splitOn '$' = [[], "argon2id".toList, "v=19".toList, "m=65536,t=3,p=2".toList,
      lib.encodeToString ⟨salt.toArray⟩, lib.encodeToString (lib.key password salt)] := by
  have hjoin : encoded = "$argon2id$v=19$m=65536,t=3,p=2".toList ++
      '$' :: lib.encodeToString ⟨salt.toArray⟩ ++
      '$' :: (lib.encodeToString (lib.key password salt) ++ []) := by
    cases h
    rw [List.append_nil]
    rfl
  rw [hjoin, List.append_assoc]
  refine .trans ?_ (List.splitOn_intercalate '$' ?_ (List.cons_ne_nil _ _))
  · rfl
  · simp only [List.forall_mem_cons, lib.dollar_not_mem, not_false_eq_true, true_and]
    decide

theorem decodeHash_argon2idHash :
    decodeHash lib encoded = .ok (defaultArgon2Params, ⟨salt.toArray⟩, lib.key password salt) := by
  have hver : sscanVersion "v=19".toList = some argon2Version := by decide
  have hparams : sscanParams "m=65536,t=3,p=2".toList = some (65536, 3, 2) := by decide
  have hsalt : (⟨salt.toArray⟩ : ByteArray).size = 16 := salt.size_toArray
  have hkey : (lib.key password salt).size = 32 := Vector.size_toArray _
  rw [decodeHash, splitOn_argon2idHash h]
  simp only [hver, hparams, lib.decode_encode, ne_eq, not_true_eq_false, if_false, hsalt, hkey]
  rfl

theorem verifyPassword_argon2idHash (other : ByteArray) :
    verifyPassword lib other encoded = .ok (lib.key password salt = lib.key other salt) := by
  rw [verifyPassword, decodeHash_argon2idHash h]
  rfl

end

theorem hashPassword_eq_ok {rand : Except AuthError Salt}
    (h : hashPassword lib rand password = .ok encoded) :
    ∃ salt, rand = .ok salt ∧ argon2idHash lib (.ok salt) password = .ok encoded := by
  rw [hashPassword] at h
  split_ifs at h
  cases rand with
  | error err => cases h
  | ok salt => exact ⟨salt, rfl, h⟩

variable (lib) in
/-- A record is read as it was written. It verifies the password it was made from and no other
with a different key, and the policy admits only passwords that get a record. -/
theorem password_round_trip (salt : Salt) (plaintext : ByteArray) :
    (∃ encoded, argon2idHash lib (.ok salt) plaintext = .ok encoded ∧
      decodeHash lib encoded =
        .ok (defaultArgon2Params, ⟨salt.toArray⟩, lib.key plaintext salt)) ∧
    (∀ rand p encoded, hashPassword lib rand p = .ok encoded →
      verifyPassword lib p encoded = .ok true) ∧
    (∀ p q encoded, hashPassword lib (.ok salt) p = .ok encoded →
      verifyPassword lib q encoded = .ok true → lib.key q salt = lib.key p salt) ∧
    ∀ password : String, validatePasswordStrength password = none →
      ∃ encoded, hashPassword lib (.ok salt) password.toUTF8 = .ok encoded := by
  refine ⟨⟨_, rfl, decodeHash_argon2idHash rfl⟩, fun rand p encoded h => ?_,
    fun p q encoded h hverify => ?_, fun password hvalid => ?_⟩
  · obtain ⟨salt, rfl, hhash⟩ := hashPassword_eq_ok h
    rw [verifyPassword_argon2idHash hhash, decide_eq_true rfl]
  · obtain ⟨_, hsalt, hhash⟩ := hashPassword_eq_ok h
    cases hsalt
    rw [verifyPassword_argon2idHash hhash] at hverify
    simpa [eq_comm] using hverify
  · have hsize : 12 ≤ password.toUTF8.size ∧ password.toUTF8.size ≤ 128 := by
      simp only [validatePasswordStrength] at hvalid
      split_ifs at hvalid with hshort hlong
      exact ⟨not_lt.mp hshort, not_lt.mp hlong⟩
    rw [hashPassword, if_neg (not_lt.mpr hsize.1), if_neg (not_lt.mpr hsize.2)]
    exact ⟨_, rfl⟩

end Record

theorem toNat_letter (u : UInt8) : (Char.ofNat (256 + u.toNat)).toNat = 256 + u.toNat := by
  have hlt := u.toNat_lt
  rw [Char.ofNat, dif_pos (.inl (by omega))]
  rfl

/-- Each byte is a letter of its own, and the key repeats the first byte of the password. -/
def letterLibrary : PasswordLibrary where
  idKey password _ _ _ _ keyLen := .replicate keyLen.toNat (password.data.toList.headD 0)
  encodeToString b := b.data.toList.map fun u => .ofNat (256 + u.toNat)
  decodeString cs := .ok ⟨(cs.map fun c => UInt8.ofNat c.toNat).toArray⟩
  decode_encode b := by simp [Function.comp_def, toNat_letter]
  dollar_not_mem b h := by
    obtain ⟨u, -, hu⟩ := List.mem_map.mp h
    have hcode := (toNat_letter u).symm.trans (congrArg Char.toNat hu)
    exact absurd hcode (by simp [Char.toNat]; omega)
  scanError _ := .new ""

theorem password_round_trip_letters : ∃ encoded,
    hashPassword letterLibrary (.ok (.replicate _ 7)) "Correct-Horse-1".toUTF8 = .ok encoded ∧
      verifyPassword letterLibrary "Correct-Horse-1".toUTF8 encoded = .ok true := by
  obtain ⟨-, hverify, -, hstrong⟩ := password_round_trip letterLibrary (.replicate _ 7) .empty
  obtain ⟨encoded, h⟩ := hstrong "Correct-Horse-1" (by decide +kernel)
  exact ⟨encoded, h, hverify _ _ _ h⟩

end Falx.Auth
