import Falx.IpcServer
import Falx.PolicyApply
import Falx.SecurityApi

/-! How long a block lasts that a caller has asked for in seconds. The expiry field carries
both durations and points in time, told apart by their size alone. -/

namespace Falx

/-- The callers of `BlockIPv4`: a call of one of them that has asked for `t` seconds and has
succeeded, at the time `now` and with the blocklist before and after. -/
inductive BlockCall (t : UInt64) (ip : NetIP) (now : UInt64) :
    BlocklistV4 → BlocklistV4 → Prop where
  | socBlock {lib env claims req s reply s' maps maps'} :
    Security.blockIP lib env claims (.ok req) s = (.ok reply, s') →
    lib.parseIP req.ip = some ip → Security.clampTTL claims.role req.ttlSeconds = t →
    env.call.now = now → s.bpfMgr = some maps → s'.bpfMgr = some maps' →
    BlockCall t ip now maps.blocklistV4 maps'.blocklistV4
  | socRedirect {lib env req s reply s' maps maps'} :
    Security.redirectIP lib env (.ok req) s = (.ok reply, s') →
    lib.parseIP req.ip = some ip → req.ttlSeconds = t →
    env.call.now = now → s.bpfMgr = some maps → s'.bpfMgr = some maps' →
    BlockCall t ip now maps.blocklistV4 maps'.blocklistV4
  | mapUpdate {lib call seq req s s'} :
    Ipc.Server.applyMapUpdate lib call seq req s = (.mapUpdateAck seq, s') →
    lib.parseIP req.srcIP = some ip → req.ttlSeconds = t → call.now = now →
    BlockCall t ip now s.blocklist s'.blocklist
  | verdict {lib v d ds env} {s : Ipc.Server} :
    Ipc.Server.verdictDecision lib v = some d → s.batch = d :: ds →
    (blockDecisions [(env, d)] s.blocklist).1 = [none] →
    d.ip = ip → v.blockDurationS = t → env.now = now →
    BlockCall t ip now s.blocklist (s.writeDecision env).blocklist
  | policyBlock {ipString actor env r f s s'} :
    Policy.Enforcer.applyRule ipString actor env r f s = (none, s') →
    r.action = .block → f.srcIP = some ip → isBlocked env.checkedAt ip s.blocklistV4 = none →
    r.ttlSeconds = t → env.call.now = now →
    BlockCall t ip now s.blocklistV4 s'.blocklistV4
  | policyRedirect {ipString actor env r f s s'} :
    Policy.Enforcer.applyRule ipString actor env r f s = (none, s') →
    r.action = .redirect → f.srcIP = some ip → r.ttlSeconds = t → env.call.now = now →
    BlockCall t ip now s.blocklistV4 s'.blocklistV4

section Writes

variable {t now : UInt64} {ip : NetIP} {m m' : BlocklistV4}

def Written (t : UInt64) (ip : NetIP) (now : UInt64) (m m' : BlocklistV4) : Prop :=
  ∃ key entry, ipv4ToUint32 ip = some key ∧ entry.expireAt = t ∧
    m' = Function.update m key (some (absoluteExpiry now entry))

variable {env : CallEnv} {entry : BlockEntry}

theorem written_of_blockIPv4 (hnow : env.now = now) (ht : entry.expireAt = t)
    (h : blockIPv4 env ip entry m = (none, m')) :
    Written t ip now m m' := by
  obtain ⟨-, -, key, hkey, heq⟩ := blockIPv4_eq_none (congrArg Prod.fst h)
  rw [h, hnow] at heq
  exact ⟨key, entry, hkey, ht, congrArg Prod.snd heq⟩

theorem written_of_blockDecisions {d : BlockDecision} (hnow : env.now = now)
    (ht : d.entry.expireAt = t) (h : (blockDecisions [(env, d)] m).1 = [none]) :
    Written t d.ip now m (blockDecisions [(env, d)] m).2 := by
  simp only [blockDecisions] at h ⊢
  cases hkey : ipv4ToUint32 d.ip with
  | none => simp [hkey] at h
  | some key =>
    cases herr : env.mapErr with
    | some e => simp [hkey, herr] at h
    | none => exact ⟨key, d.entry, hkey, ht, by rw [hnow]⟩

theorem Ipc.write_blocklist (ip : NetIP) (m : BlocklistV4) (failed : Bool) (s : Server) :
    (s.write ip m failed).blocklist = m := by
  unfold Server.write
  split <;> rfl

theorem BlockCall.written (h : BlockCall t ip now m m') : Written t ip now m m' := by
  cases h with
  | socBlock h hip ht hnow hmaps hmaps' =>
    simp only [Security.blockIP, hip, hmaps] at h
    split at h
    · cases h
    · rename_i m hcall
      cases h
      cases hmaps'
      exact written_of_blockIPv4 hnow ht hcall
  | socRedirect h hip ht hnow hmaps hmaps' =>
    simp only [Security.redirectIP, hip, hmaps] at h
    split at h
    · cases h
    · rename_i m hcall
      cases h
      cases hmaps'
      exact written_of_blockIPv4 hnow ht hcall
  | mapUpdate h hip ht hnow =>
    simp only [Ipc.Server.applyMapUpdate, hip] at h
    split_ifs at h
    · cases h
    · split at h
      · cases h
      · rename_i m hcall
        cases h
        rw [Ipc.write_blocklist]
        exact written_of_blockIPv4 hnow ht hcall
    · cases h
  | @verdict lib v d ds env s hdec hba hok hip ht hnow =>
    have hen : d.entry.expireAt = t := by
      rw [Ipc.Server.verdictDecision] at hdec
      split_ifs at hdec
      obtain ⟨ip, -, rfl⟩ := Option.map_eq_some_iff.mp hdec
      exact ht
    have hwr := written_of_blockDecisions hnow hen hok
    have hlist : (s.writeDecision env).blocklist = (blockDecisions [(env, d)] s.blocklist).2 := by
      simp only [Ipc.Server.writeDecision, hba]
      exact Ipc.write_blocklist _ _ _ _
    rwa [hlist, ← hip]
  | policyBlock h hact hsrc hnew ht hnow =>
    simp only [Policy.Enforcer.applyRule, hsrc, hact, hnew, Option.isSome_none, Bool.false_eq_true,
      if_false] at h
    split at h
    · cases h
    · rename_i m hcall
      cases h
      exact written_of_blockIPv4 hnow ht hcall
  | policyRedirect h hact hsrc ht hnow =>
    simp only [Policy.Enforcer.applyRule, hsrc, hact] at h
    split at h
    · cases h
    · rename_i m hcall
      cases h
      exact written_of_blockIPv4 hnow ht hcall

def BlockedUntil (deadline : Nat) (ip : NetIP) (m : BlocklistV4) : Prop :=
  ∀ instant : UInt64, instant.toNat < deadline →
    ∃ entry, isBlockedIPv4 instant ip m = .ok (some entry)

theorem blockedUntil_iff {key : UInt32} (hkey : ipv4ToUint32 ip = some key)
    (hen : m key = some entry) (deadline : Nat) :
    BlockedUntil deadline ip m ↔ entry.expireAt = 0 ∨ deadline ≤ entry.expireAt.toNat := by
  have hfd : ∀ instant, (∃ e, isBlockedIPv4 instant ip m = .ok (some e)) ↔
      ¬ entry.expired instant = true := by
    intro instant
    simp only [isBlockedIPv4, hkey, hen]
    by_cases hexp : entry.expired instant = true
    · simp [hexp]
    · simp [hexp]
  simp only [BlockedUntil, hfd, BlockEntry.expired_iff]
  refine ⟨fun h => ?_, fun h instant hlt => ?_⟩
  · by_contra hlate
    obtain ⟨hne, hsh⟩ := not_or.mp hlate
    exact h entry.expireAt (not_le.mp hsh) ⟨hne, le_rfl⟩
  · rintro ⟨hne, hle⟩
    rcases h with hzero | hlong
    · exact hne hzero
    · omega

theorem Written.lasts_iff (h : Written t ip now m m') (hpos : 0 < t) :
    BlockedUntil (now.toNat + t.toNat) ip m' ↔
      t < 1000000000 ∧ now.toNat + t.toNat ≤ 2 ^ 64 ∨ now = 0 := by
  obtain ⟨key, entry, hkey, ht, rfl⟩ := h
  have hlast := blockedUntil_iff (m := Function.update m key (some (absoluteExpiry now entry)))
    hkey (Function.update_self _ _ _) (now.toNat + t.toNat)
  rw [← UInt64.toNat_inj, UInt64.toNat_zero] at hlast
  have hnow64 := now.toNat_lt
  have hpos' : 0 < t.toNat := UInt64.lt_iff_toNat_lt.mp hpos
  have hzero : now = 0 ↔ now.toNat = 0 := UInt64.toNat_inj.symm
  have hsm : t < 1000000000 ↔ t.toNat < 1000000000 := UInt64.lt_iff_toNat_lt
  rw [hlast, hzero, hsm]
  by_cases hrel : t < 1000000000
  · have hsum : (absoluteExpiry now entry).expireAt.toNat = (now.toNat + t.toNat) % 2 ^ 64 := by
      rw [absoluteExpiry, ht, if_pos ⟨hpos, hrel⟩, UInt64.toNat_add]
    rw [hsm] at hrel
    omega
  · have hkept : (absoluteExpiry now entry).expireAt.toNat = t.toNat := by
      rw [absoluteExpiry, ht, if_neg fun hboth => hrel hboth.2, ht]
    rw [hsm] at hrel
    omega

theorem BlockedUntil.of_agree {deadline : Nat} (h : BlockedUntil deadline ip m)
    (hag : ∀ key, ipv4ToUint32 ip = some key → m' key = m key) : BlockedUntil deadline ip m' := by
  intro instant hlt
  have hsame : isBlockedIPv4 instant ip m' = isBlockedIPv4 instant ip m := by
    simp only [isBlockedIPv4]
    split
    · rfl
    · rename_i key hkey
      rw [hag key hkey]
  rw [hsame]
  exact h instant hlt

end Writes

/-- A duration below 10^9 seconds is kept, whichever caller has asked for it, as long as
nothing else is written to the address. -/
theorem blockCall_lasts {t now : UInt64} {ip : NetIP} {m m' later : BlocklistV4}
    (h : BlockCall t ip now m m') (hpos : 0 < t) (hrelative : t < 1000000000)
    (hwrap : now.toNat + t.toNat ≤ 2 ^ 64)
    (hlater : ∀ key, ipv4ToUint32 ip = some key → later key = m' key) :
    BlockedUntil (now.toNat + t.toNat) ip later := by
  have hla : BlockedUntil (now.toNat + t.toNat) ip m' :=
    (h.written.lasts_iff hpos).mpr (.inl ⟨hrelative, hwrap⟩)
  exact hla.of_agree hlater

def hourRule : Policy.Rule := { Policy.sshRule with ttlSeconds := 3600 }

def sshFlow : Policy.Flow := ⟨some [192, 0, 2, 1], none, 40000, 22, 6, 80, 0, 0⟩

def quietEnforcer : Policy.Enforcer := ⟨Policy.sshEngine, fun _ => none, fun _ => none, [], 0⟩

def hourBlocked : Policy.Enforcer :=
  (quietEnforcer.applyRule (fun _ => "192.0.2.1") "ai-engine"
    ⟨Ipc.quietCall, 1700000000⟩ hourRule sshFlow).2

theorem blockCall_lasts_hourRule :
    BlockedUntil 1700003600 [192, 0, 2, 1] hourBlocked.blocklistV4 := by
  have happ : quietEnforcer.applyRule (fun _ => "192.0.2.1") "ai-engine"
      ⟨Ipc.quietCall, 1700000000⟩ hourRule sshFlow = (none, hourBlocked) := rfl
  have hcall : BlockCall 3600 [192, 0, 2, 1] 1700000000 quietEnforcer.blocklistV4
      hourBlocked.blocklistV4 := .policyBlock happ rfl rfl rfl rfl rfl
  exact blockCall_lasts hcall (by decide) (by decide) (by decide) fun _ _ => rfl

namespace Security

def adminClaims : Auth.TokenClaims :=
  ⟨"u2", "root", .admin, "s2", 0, 0, "access", true, .session, Auth.rolePermissions .admin⟩

def adminBlocks (now ttlSeconds : UInt64) : SecurityCall where
  auth := .ok adminClaims
  request := .blockIP (.ok ⟨"192.0.2.1", ttlSeconds, 0, "", 0⟩)
  env := ⟨⟨true, now, none⟩, 0, none, false, none, []⟩

def nothingBlocked : SecurityState :=
  { droppedUntil 0 with bpfMgr := (droppedUntil 0).bpfMgr.map fun maps =>
      { maps with blocklistV4 := fun _ => none } }

/-- A block for 10^9 seconds is acknowledged and is over before it has begun. -/
theorem longBlock_not_lasting :
    let served := serveSecurity documentationNet (adminBlocks 1700000000 1000000000) nothingBlocked
    served.1 = .ok (.blocked "IP blocked" "192.0.2.1" 1000000000 false) ∧
      (served.2.entryV4 0xC0000201).map BlockEntry.expireAt = some 1000000000 ∧
      (served.2.bpfMgr.map fun maps => isBlockedIPv4 1700000000 [192, 0, 2, 1] maps.blocklistV4) =
        some (.ok none) := by
  refine ⟨rfl, rfl, rfl⟩

end Security

end Falx
