/-
TdSandboxed.State.CrashRecovery — crash detection, and the snapshots to
recover from (`state/crash_recovery.py`, `CrashRecoveryManager`).

* The accounts to recover are read off the keys that `SCAN` yields for
  `snapshot:*:latest`. They are collected before the process lock is taken.
* A snapshot is loaded from Redis, and from cold storage if Redis has none
  that can be read. Whether the long age limit of cold storage applies is
  decided by a second read of Redis.
* What Redis and cold storage answer is an input, and may be an exception.
  A timestamp without a zone, which raises when its age is computed, is
  left out.

The process lock and its heartbeat are modelled in `State.ProcessLock`.
-/
import TdSandboxed.State.Snapshot

namespace TdSandboxed

structure CrashIndicatorResult where
  hasCrash : Bool
  missingShutdownFlag : Bool
  staleHeartbeat : Bool
  /-- Accounts with a snapshot in Redis. -/
  orphanSnapshots : List String
  details : String
  deriving DecidableEq

structure RecoveryResult where
  recoveryMode : Bool
  accountsNeedingRecovery : List String
  indicators : CrashIndicatorResult
  deriving DecidableEq

namespace CrashRecoveryManager

/-- `SNAPSHOT_MAX_AGE_SECONDS` -/
def snapshotMaxAgeSeconds : ℚ := 3600

/-- `COLD_STORAGE_MAX_AGE_SECONDS` -/
def coldStorageMaxAgeSeconds : ℚ := 7 * 24 * 3600

/-! ## Accounts to recover -/

/-- The key of an account's snapshot. -/
def snapshotKey (a : String) : String := "snapshot:" ++ a ++ ":latest"

/-- The pattern `snapshot:*:latest`. -/
def matchesSnapshotPattern (key : String) : Bool :=
  "snapshot:".toList.isPrefixOf key.toList &&
    ":latest".toList.isSuffixOf (key.toList.drop "snapshot:".toList.length)

/-- The account of a key with three parts. -/
def accountOfKey (key : String) : Option String :=
  match key.toList.splitOn ':' with
  | [_, a, _] => some (String.ofList a)
  | _ => none

/-- `get_accounts_needing_recovery`, for all keys in Redis as `SCAN` comes
across them. -/
def getAccountsNeedingRecovery (keys : List String) : List String :=
  (keys.filter matchesSnapshotPattern).filterMap accountOfKey

/-! ## Startup -/

/-- What Redis answers in the course of `startup_sequence`. -/
structure StartupReads where
  /-- `has_clean_shutdown_flag` in `check_crash_indicators`. -/
  shutdownFlag : Bool
  lockExists : Bool
  /-- `has_clean_shutdown_flag` in `_check_stale_heartbeat`. -/
  shutdownFlagAgain : Bool
  keys : List String
  /-- `SET NX` of the process lock. -/
  lockAcquired : Bool

def checkStaleHeartbeat (r : StartupReads) : Bool := !r.lockExists && !r.shutdownFlagAgain

/-- `check_crash_indicators` -/
def checkCrashIndicators (r : StartupReads) : CrashIndicatorResult :=
  let missingShutdownFlag := !r.shutdownFlag
  let staleHeartbeat := checkStaleHeartbeat r
  let orphanSnapshots := getAccountsNeedingRecovery r.keys
  let details :=
    (if missingShutdownFlag then ["No clean shutdown flag found"] else []) ++
      (if staleHeartbeat then ["Stale heartbeat detected (lock expired)"] else []) ++
      (if orphanSnapshots.isEmpty then []
        else [s!"Found {orphanSnapshots.length} accounts with orphan snapshots"])
  { hasCrash := missingShutdownFlag && (staleHeartbeat || 0 < orphanSnapshots.length)
    missingShutdownFlag
    staleHeartbeat
    orphanSnapshots
    details := if details.isEmpty then "No crash indicators" else "; ".intercalate details }

/-- `startup_sequence` of a new manager. -/
def startupSequence (r : StartupReads) : Except String RecoveryResult :=
  let indicators := checkCrashIndicators r
  if r.lockAcquired then
    .ok { recoveryMode := indicators.hasCrash
          accountsNeedingRecovery := indicators.orphanSnapshots
          indicators }
  else .error "Another instance is already running. Cannot start engine."

/-! ## Snapshots -/

/-- What the reads of `validate_snapshot_for_recovery` come back with. A
snapshot in Redis that cannot be read counts as none. -/
structure SnapshotReads where
  redis : Except String (Option StateSnapshot)
  coldStorage : Except String (Option StateSnapshot)
  /-- The second read of Redis. -/
  redisAgain : Except String (Option StateSnapshot)
  now : ℚ

/-- `_load_account_snapshot` -/
def loadAccountSnapshot (coldStorage : Bool) (r : SnapshotReads) :
    Except String (Option StateSnapshot) := do
  match ← r.redis with
  | some s => return some s
  | none => if coldStorage then r.coldStorage else return none

/-- `validate_snapshot_for_recovery`; `coldStorage` says whether a cold
storage is configured. -/
def validateSnapshotForRecovery (computeChecksum : Checksum) (coldStorage : Bool)
    (r : SnapshotReads) : Except String (Bool × Option StateSnapshot) := do
  match ← loadAccountSnapshot coldStorage r with
  | none => return (false, none)
  | some s =>
    if !s.validateChecksum computeChecksum then return (false, none)
    let redisSnapshot ← r.redisAgain
    let maxAge :=
      if redisSnapshot.isNone && coldStorage then coldStorageMaxAgeSeconds
      else snapshotMaxAgeSeconds
    if maxAge < r.now - s.timestamp then return (false, none)
    return (true, some s)

end CrashRecoveryManager

end TdSandboxed
