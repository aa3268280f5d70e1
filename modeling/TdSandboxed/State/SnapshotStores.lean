/-
TdSandboxed.State.SnapshotStores — the two places where snapshots are kept
(`state/snapshot_service.py`, `state/cold_storage_service.py`,
`state/cold_storage_writer.py`, `state/snapshot_db_model.py`), and what
recovery reads there (`state/crash_recovery.py`).

* `SnapshotService` overwrites the hash of an account in Redis, with an hour
  to live. The accounts of a cycle are saved independently, and collecting
  or saving may fail for each of them.
* `ColdStorageService` adds a row for each account to `state_snapshots`, the
  rows of a cycle in one transaction. The columns for amounts are
  `DECIMAL(18, 2)` and those for positions `JSONB`, so what is read is not
  always what was written. What `JSONB` makes of a value is left to a
  `JsonColumn`.
* The retention policy of the table drops what is older than a week.
* A key that has expired is read as an empty hash.

Whether a transaction commits, and when Redis runs a pipeline, are inputs.
A timestamp without a zone is left out, as in `State.CrashRecovery`.
-/
import TdSandboxed.State.CrashRecovery
import TdSandboxed.State.SnapshotCodec

namespace TdSandboxed.SnapshotCodec

open Lib
open Dataset (UtcDatetime)

/-- What recovery uses of Python besides. -/
structure RecoveryLib extends StdLib where
  /-- Microseconds since some fixed time. -/
  instant : Datetime → ℤ
  instant_utc : ∀ d, instant (utc d) = d.instant
  two_le_depth : 2 ≤ depth

/-! ## Collecting -/

/-- An open position, its values as `get_positions_dict` writes them. -/
structure TrackedPosition where
  symbol : List Char
  side : List Char
  quantity : List Char
  entryPrice : List Char
  entryTime : List Char
  orderId : List Char

/-- `get_positions_dict`, for one position. -/
def TrackedPosition.toDict (p : TrackedPosition) : PyObject :=
  .dict [("symbol".toList, .str p.symbol), ("side".toList, .str p.side),
    ("volume".toList, .str p.quantity), ("entry_price".toList, .str p.entryPrice),
    ("entry_time".toList, .str p.entryTime), ("order_id".toList, .str p.orderId)]

/-- What a snapshot takes of a `RiskState`. -/
structure RiskFigures where
  currentEquity : PyDecimal
  peakEquity : PyDecimal
  dailyStartingBalance : PyDecimal

/-- What `_collect_snapshot_data` reads of an account. -/
structure AccountFigures where
  positions : List TrackedPosition
  balance : Option PyDecimal
  riskState : Option RiskFigures

/-- `bool(d)` -/
def truthy (d : PyDecimal) : Bool :=
  match d.1 with
  | .finite _ coefficient _ => coefficient ≠ 0
  | .infinity _ | .nan _ _ _ => true

theorem inRange_zero : (DecimalForm.finite false 0 0).InRange := by decide

/-- `Decimal("0")` -/
def zeroDecimal : PyDecimal := ⟨.finite false 0 0, inRange_zero⟩

variable {lib : RecoveryLib}

/-- `_collect_snapshot_data` -/
def collectSnapshotData (lib : RecoveryLib) (accountId : List Char) (now : UtcDatetime)
    (f : AccountFigures) : StateSnapshot lib.toStdLib :=
  let balance :=
    match f.balance with
    | some b => if truthy b then b else zeroDecimal
    | none => zeroDecimal
  let risk := f.riskState.getD
    { currentEquity := balance, peakEquity := balance, dailyStartingBalance := balance }
  StateSnapshot.sealed
    { accountId
      timestamp := lib.utc now
      positions := .list (f.positions.map TrackedPosition.toDict)
      pendingOrders := .list []
      accountBalance := balance
      equity := risk.currentEquity
      peakBalance := risk.peakEquity
      dailyStartingBalance := risk.dailyStartingBalance
      checksum := [] }

/-! ## The table -/

/-- The hundredths of a number, rounded away from zero in the middle. -/
def hundredths (coefficient : ℕ) (exponent : ℤ) : ℕ :=
  if -2 ≤ exponent then coefficient * 10 ^ (exponent + 2).toNat
  else (2 * coefficient + 10 ^ (-2 - exponent).toNat) / (2 * 10 ^ (-2 - exponent).toNat)

/-- A `DECIMAL(18, 2)` column. It has no negative zero and no infinity, and
refuses what has more than 16 digits before the point. -/
def money : DecimalForm → Option DecimalForm
  | .finite negative coefficient exponent =>
    let n := hundredths coefficient exponent
    if n < 10 ^ 18 then some (.finite (negative && n ≠ 0) n (-2)) else none
  | .infinity _ => none
  | .nan _ _ _ => some (.nan false false 0)

/-- `money` as decimals, written and read as `Decimal(str(_))` does. -/
def moneyColumn (unicode : UnicodeData) (d : PyDecimal) : Option PyDecimal := do
  let sent ← PyDecimal.read unicode d.str
  let stored ← money sent.1
  PyDecimal.read unicode stored.str

/-- The values that `get_positions_dict` writes. -/
def Texts : PyObject → Prop
  | .list vs => ∀ v ∈ vs, ∃ ms, v = .dict ms ∧ (ms.map Prod.fst).Nodup ∧
      ∀ m ∈ ms, ∃ text, m.2 = .str text
  | _ => False

/-- A `JSONB` column. `none` is an error of the insert. -/
structure JsonColumn where
  store : PyObject → Option PyObject
  /-- Texts are kept, and the order of keys is not. -/
  sortKeys_store : ∀ v v', Texts v → store v = some v' → v'.sortKeys = v.sortKeys

/-- What `to_snapshot` makes of the row that `from_snapshot` made. -/
def toRow (jsonb : JsonColumn) (s : StateSnapshot lib.toStdLib) :
    Option (StateSnapshot lib.toStdLib) := do
  let positions ← jsonb.store s.positions
  let pendingOrders ← jsonb.store s.pendingOrders
  let accountBalance ← moneyColumn lib.unicode s.accountBalance
  let equity ← moneyColumn lib.unicode s.equity
  let peakBalance ← moneyColumn lib.unicode s.peakBalance
  let dailyStartingBalance ← moneyColumn lib.unicode s.dailyStartingBalance
  some { s with positions, pendingOrders, accountBalance, equity, peakBalance,
                dailyStartingBalance }

/-! ## The services -/

/-- An account in a cycle of either service. -/
structure CycleReading where
  accountId : List Char
  status : List Char
  /-- When `_collect_snapshot_data` took its time and what it read, unless it
  raised. -/
  collected : Option (UtcDatetime × AccountFigures)

/-- `_get_active_account_ids` -/
def CycleReading.Active (r : CycleReading) : Prop := r.status = "active".toList

instance : DecidablePred CycleReading.Active := fun _ => inferInstanceAs (Decidable (_ = _))

def CycleReading.snapshot (lib : RecoveryLib) (r : CycleReading) :
    Option (StateSnapshot lib.toStdLib) :=
  r.collected.map fun c => collectSnapshotData lib r.accountId c.1 c.2

structure Stores (lib : RecoveryLib) where
  /-- The hash `snapshot:{account_id}:latest`, and when it expires. -/
  redis : OrderedDict (List Char) (Hash × ℤ) := .empty
  /-- `state_snapshots` -/
  rows : List (StateSnapshot lib.toStdLib) := []

/-- `SNAPSHOT_TTL_SECONDS`, in microseconds. -/
def snapshotTtl : ℤ := 3600 * 1000000

inductive StoreEvent (lib : RecoveryLib)
  /-- A cycle of `SnapshotService`. Beside an account stands when Redis ran
  its pipeline, if it did. -/
  | snapshotCycle (readings : List (CycleReading × Option UtcDatetime))
  /-- A cycle of `ColdStorageService`. -/
  | coldCycle (readings : List CycleReading) (committed : Bool)
  /-- `_save_reconciled_snapshot` -/
  | reconciled (accountId : List Char) (s : StateSnapshot lib.toStdLib) (hs : s.Buildable)
    (ran : UtcDatetime)
  /-- The retention policy drops the rows before a time. -/
  | retention (before : UtcDatetime)

namespace Stores

/-- `save_snapshot` -/
def saveSnapshot (st : Stores lib) (accountId : List Char) (s : StateSnapshot lib.toStdLib)
    (ran : UtcDatetime) : Stores lib :=
  { st with redis := st.redis.set accountId (s.toDict, ran.instant + snapshotTtl) }

/-- `_snapshot_account` -/
def snapshotAccount (st : Stores lib) (r : CycleReading × Option UtcDatetime) : Stores lib :=
  match r.1.snapshot lib, r.2 with
  | some s, some ran => st.saveSnapshot r.1.accountId s ran
  | _, _ => st

/-- `write_snapshots` -/
def writeSnapshots (jsonb : JsonColumn) (st : Stores lib)
    (snapshots : List (StateSnapshot lib.toStdLib)) (committed : Bool) : Stores lib :=
  match snapshots.mapM (toRow jsonb) with
  | some rows => if committed then { st with rows := st.rows ++ rows } else st
  | none => st

def step (jsonb : JsonColumn) (st : Stores lib) : StoreEvent lib → Stores lib
  | .snapshotCycle readings =>
    (readings.filter fun r => r.1.Active).foldl snapshotAccount st
  | .coldCycle readings committed =>
    let snapshots := (readings.filter fun r => r.Active).filterMap (·.snapshot lib)
    st.writeSnapshots jsonb snapshots committed
  | .reconciled accountId s _ ran => st.saveSnapshot accountId s.sealed ran
  | .retention before =>
    let kept := st.rows.filter fun r => decide ((before.instant : ℤ) ≤ lib.instant r.timestamp)
    { st with rows := kept }

def run (jsonb : JsonColumn) (es : List (StoreEvent lib)) : Stores lib :=
  es.foldl (step jsonb) {}

/-- `hgetall` -/
def hgetall (st : Stores lib) (accountId : List Char) (now : UtcDatetime) : Hash :=
  match st.redis.get? accountId with
  | some (data, expiry) => if now.instant < expiry then data else []
  | none => []

/-- What `get_latest_snapshot` may answer: of two rows with one time either. -/
def Latest (rows : List (StateSnapshot lib.toStdLib)) (accountId : List Char) :
    Option (StateSnapshot lib.toStdLib) → Prop
  | none => ∀ r ∈ rows, r.accountId ≠ accountId
  | some r => r ∈ rows ∧ r.accountId = accountId ∧
      ∀ r' ∈ rows, r'.accountId = accountId → lib.instant r'.timestamp ≤ lib.instant r.timestamp

end Stores

/-! ## Recovery -/

/-- When `validate_snapshot_for_recovery` reads Redis, the clock, and Redis
again. -/
structure RecoveryTimes where
  first : UtcDatetime
  now : UtcDatetime
  again : UtcDatetime
  ordered : first.instant ≤ now.instant ∧ now.instant ≤ again.instant

/-- `_load_account_snapshot`, whatever a snapshot is. -/
def loadFirst {S E : Type} (coldStorage : Bool) (redis stored : Except E (Option S)) :
    Except E (Option S) := do
  match ← redis with
  | some s => return some s
  | none => if coldStorage then stored else return none

/-- `validate_snapshot_for_recovery`, whatever a snapshot is. -/
def validateLoaded {S E : Type} (valid : S → Bool) (timestamp : S → ℚ) (coldStorage : Bool)
    (redis stored redisAgain : Except E (Option S)) (now : ℚ) : Except E (Bool × Option S) := do
  match ← loadFirst coldStorage redis stored with
  | none => return (false, none)
  | some s =>
    if !valid s then return (false, none)
    let redisSnapshot ← redisAgain
    let maxAge :=
      if redisSnapshot.isNone && coldStorage then CrashRecoveryManager.coldStorageMaxAgeSeconds
      else CrashRecoveryManager.snapshotMaxAgeSeconds
    if maxAge < now - timestamp s then return (false, none)
    return (true, some s)

theorem loadAccountSnapshot_eq_loadFirst (coldStorage : Bool)
    (r : CrashRecoveryManager.SnapshotReads) :
    CrashRecoveryManager.loadAccountSnapshot coldStorage r =
      loadFirst coldStorage r.redis r.coldStorage := by
  rw [CrashRecoveryManager.loadAccountSnapshot, loadFirst]
  cases r.redis with
  | error e => rfl
  | ok answer => cases answer <;> rfl

/-- The reads of `State.CrashRecovery` are an instance. -/
theorem validateSnapshotForRecovery_eq_validateLoaded (computeChecksum : Checksum)
    (coldStorage : Bool) (r : CrashRecoveryManager.SnapshotReads) :
    CrashRecoveryManager.validateSnapshotForRecovery computeChecksum coldStorage r =
      validateLoaded (·.validateChecksum computeChecksum) (·.timestamp) coldStorage r.redis
        r.coldStorage r.redisAgain r.now := by
  rw [CrashRecoveryManager.validateSnapshotForRecovery, validateLoaded,
    loadAccountSnapshot_eq_loadFirst]
  cases loadFirst coldStorage r.redis r.coldStorage with
  | error e => rfl
  | ok loaded => cases loaded <;> rfl

/-- Seconds of microseconds. -/
def seconds (instant : ℤ) : ℚ := instant / 1000000

/-- `validate_snapshot_for_recovery`, with cold storage; `row` is what
`get_latest_snapshot` answers. -/
def Stores.validateSnapshotForRecovery (st : Stores lib) (accountId : List Char)
    (t : RecoveryTimes) (row : Option (StateSnapshot lib.toStdLib)) :
    Except PyError (Bool × Option (StateSnapshot lib.toStdLib)) :=
  validateLoaded StateSnapshot.validateChecksum (fun s => seconds (lib.instant s.timestamp)) true
    (getSnapshot lib.toStdLib (st.hgetall accountId t.first)) (.ok row)
    (getSnapshot lib.toStdLib (st.hgetall accountId t.again)) (seconds t.now.instant)

end TdSandboxed.SnapshotCodec
