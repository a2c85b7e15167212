import Falx.AuthHierarchy
import Falx.AuthLockout
import Falx.AuthTwoFactor
import Falx.BanStrength
import Falx.Conformance
import Falx.CoolingAmnesty
import Falx.CounterExport
import Falx.DrainRace
import Falx.EventOrder
import Falx.ExpiryClock
import Falx.ExpirySweep
import Falx.FailsafeBound
import Falx.FrameConservation
import Falx.GeoIPv6
import Falx.HoneypotSwitch
import Falx.IpcClient
import Falx.LoginThrottle
import Falx.MapAbi
import Falx.MapPins
import Falx.MetaForwarder
import Falx.MetricsHistory
import Falx.MmdbChecked
import Falx.MmdbMetadata
import Falx.NotificationHub
import Falx.NotificationStore
import Falx.Password
import Falx.PolicyConcurrency
import Falx.PolicyConditions
import Falx.PolicyHandlers
import Falx.QrEncode
import Falx.QrSymbol
import Falx.RecoveryProbe
import Falx.RestartCooldown
import Falx.RuleEffect
import Falx.SessionTracking
import Falx.SpscRing
import Falx.StatsAggregation
import Falx.SynFlood
import Falx.TargetAgreement
import Falx.ThresholdConsistency
import Falx.ThresholdPersistence
import Falx.TotpEnrolment
import Falx.Transport
import Falx.WriterCapacity
