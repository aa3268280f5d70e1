/-
TdSandboxed.State.PositionReconciler — position reconciliation after a
crash (`state/position_reconciler.py`, `PositionReconciler`).

The positions of a snapshot are compared with those MT5 reports, which are
the source of truth. Each snapshot position takes the first unmatched MT5
position of its symbol, whatever its side and volume; what they differ in
is a discrepancy. Unless a discrepancy is critical, each is then corrected
in the snapshot's positions: a correction looks for the positions of its
symbol and side (and volume), and treats all it finds alike.

* A dict without symbol, side or volume is an orphan and takes nothing.
* `remove(mt5_pos)` removes the position just found, or an equal one.
* The alert and the texts for the log (`details`) are left out.
-/
import TdSandboxed.State.Snapshot

namespace TdSandboxed

/-- What the reconciler reads of an `MT5Position`. -/
structure Mt5Report where
  ticket : ℤ
  symbol : String
  side : String
  volume : Decimal
  entryPrice : Decimal
  entryTime : String
  deriving DecidableEq

inductive DiscrepancyType
  /-- In the snapshot, not in MT5. -/
  | orphanPosition
  /-- In MT5, not in the snapshot. -/
  | unknownPosition
  | volumeMismatch
  | sideMismatch
  deriving DecidableEq

def DiscrepancyType.value : DiscrepancyType → String
  | .orphanPosition => "orphan_position"
  | .unknownPosition => "unknown_position"
  | .volumeMismatch => "volume_mismatch"
  | .sideMismatch => "side_mismatch"

structure PositionDiscrepancy where
  discrepancyType : DiscrepancyType
  accountId : String
  symbol : String
  snapshotSide : Option String := none
  mt5Side : Option String := none
  snapshotVolume : Option Decimal := none
  mt5Volume : Option Decimal := none
  snapshotEntryPrice : Option Decimal := none
  mt5EntryPrice : Option Decimal := none
  deriving DecidableEq

structure ReconciliationResult where
  accountId : String
  success : Bool
  positionsVerified : ℕ := 0
  discrepancies : List PositionDiscrepancy := []
  positionsAdded : ℕ := 0
  positionsRemoved : ℕ := 0
  positionsUpdated : ℕ := 0
  requiresManualIntervention : Bool
  errorMessage : Option String := none
  deriving DecidableEq

namespace PositionReconciler

/-- `VOLUME_TOLERANCE`, in lots -/
def volumeTolerance : ℚ := 1 / 1000

def criticalOrphanThreshold : ℕ := 3

def criticalExposureDiffPercent : ℚ := 10

/-! ## Matching -/

/-- A snapshot position with all the fields that matching needs. -/
structure Held where
  symbol : String
  side : String
  volume : Decimal
  entryPrice : Option Decimal
  deriving DecidableEq

/-- `_validate_position_dict` -/
def validatePositionDict (p : PositionDict) : Option Held :=
  match p.symbol, p.side, p.volume with
  | some symbol, some side, some volume =>
    some { symbol, side, volume := volume.number, entryPrice := p.entryPrice.map (·.number) }
  | _, _, _ => none

def createInvalidDiscrepancy (a : String) (p : PositionDict) : PositionDiscrepancy :=
  { discrepancyType := .orphanPosition
    accountId := a
    symbol := p.symbol.getD "UNKNOWN"
    snapshotSide := p.side
    snapshotVolume := p.volume.map (·.number)
    snapshotEntryPrice := p.entryPrice.map (·.number) }

def createOrphanDiscrepancy (a : String) (p : Held) : PositionDiscrepancy :=
  { discrepancyType := .orphanPosition
    accountId := a
    symbol := p.symbol
    snapshotSide := some p.side
    snapshotVolume := some p.volume
    snapshotEntryPrice := p.entryPrice }

def createUnknownDiscrepancy (a : String) (m : Mt5Report) : PositionDiscrepancy :=
  { discrepancyType := .unknownPosition
    accountId := a
    symbol := m.symbol
    mt5Side := some m.side
    mt5Volume := some m.volume
    mt5EntryPrice := some m.entryPrice }

/-- `_create_volume_mismatch_discrepancy` and
`_create_side_mismatch_discrepancy` -/
def createMismatch (type : DiscrepancyType) (a : String) (p : Held) (m : Mt5Report) :
    PositionDiscrepancy :=
  { discrepancyType := type
    accountId := a
    symbol := m.symbol
    snapshotSide := some p.side
    mt5Side := some m.side
    snapshotVolume := some p.volume
    mt5Volume := some m.volume
    snapshotEntryPrice := p.entryPrice
    mt5EntryPrice := some m.entryPrice }

def volumesAgree (p : Held) (m : Mt5Report) : Bool :=
  |m.volume.value - p.volume.value| ≤ volumeTolerance

/-- What a snapshot position and the MT5 position it takes differ in. -/
def compare (a : String) (p : Held) (m : Mt5Report) : Option PositionDiscrepancy :=
  if m.side ≠ p.side then some (createMismatch .sideMismatch a p m)
  else if volumesAgree p m then none
  else some (createMismatch .volumeMismatch a p m)

/-- The first MT5 position of a symbol, and the others. -/
def takeFirst (symbol : String) : List Mt5Report → Option (Mt5Report × List Mt5Report)
  | [] => none
  | m :: ms =>
    if m.symbol = symbol then some (m, ms)
    else (takeFirst symbol ms).map fun (found, rest) => (found, m :: rest)

/-- The loop over the valid snapshot positions: the matched pairs, the
discrepancies, and the MT5 positions left. -/
def matchLoop (a : String) :
    List Held → List Mt5Report → List (Held × Mt5Report) × List PositionDiscrepancy × List Mt5Report
  | [], ms => ([], [], ms)
  | p :: ps, ms =>
    match takeFirst p.symbol ms with
    | none =>
      let (pairs, ds, rest) := matchLoop a ps ms
      (pairs, createOrphanDiscrepancy a p :: ds, rest)
    | some (m, ms) =>
      let (pairs, ds, rest) := matchLoop a ps ms
      match compare a p m with
      | none => ((p, m) :: pairs, ds, rest)
      | some d => (pairs, d :: ds, rest)

/-- `_match_positions` -/
def matchPositions (a : String) (snapshotPositions : List PositionDict)
    (mt5Positions : List Mt5Report) : List (Held × Mt5Report) × List PositionDiscrepancy :=
  let invalid := snapshotPositions.filter fun p => (validatePositionDict p).isNone
  let (pairs, ds, rest) :=
    matchLoop a (snapshotPositions.filterMap validatePositionDict) mt5Positions
  (pairs, invalid.map (createInvalidDiscrepancy a) ++ ds ++ rest.map (createUnknownDiscrepancy a))

/-! ## Critical discrepancies -/

def countOf (type : DiscrepancyType) (ds : List PositionDiscrepancy) : ℕ :=
  ds.countP fun d => d.discrepancyType = type

/-- `_calculate_total_exposure` -/
def calculateTotalExposure (ps : List PositionDict) : ℚ :=
  (ps.filterMap fun p => p.volume.map (·.number.value)).sum

/-- `_calculate_mt5_exposure` -/
def calculateMt5Exposure (ms : List Mt5Report) : ℚ := (ms.map (·.volume.value)).sum

/-- `_has_critical_discrepancies` -/
def hasCriticalDiscrepancies (ds : List PositionDiscrepancy) (snapshotPositions : List PositionDict)
    (mt5Positions : List Mt5Report) : Bool :=
  let snapshotExposure := calculateTotalExposure snapshotPositions
  let mt5Exposure := calculateMt5Exposure mt5Positions
  0 < countOf .sideMismatch ds || criticalOrphanThreshold < countOf .orphanPosition ds ||
    (0 < snapshotExposure &&
      criticalExposureDiffPercent < |mt5Exposure - snapshotExposure| / snapshotExposure * 100)

/-! ## Corrections -/

/-- `_remove_orphan_from_state`. The volumes are compared as texts; a
missing one is the text "None". -/
def removeOrphanFromState (ps : List PositionDict) (symbol : String) (side : Option String)
    (volume : Option Decimal) : List PositionDict :=
  ps.filter fun p =>
    !(p.symbol = some symbol && p.side = side && p.volume.isSome && p.volume = volume.map Decimal.str)

/-- `_add_unknown_to_state` -/
def addUnknownToState (ps : List PositionDict) (m : Mt5Report) : List PositionDict :=
  ps ++ [{ symbol := some m.symbol
           side := some m.side
           volume := some m.volume.str
           entryPrice := some m.entryPrice.str
           entryTime := some m.entryTime
           ticket := some (toString m.ticket) }]

/-- `_update_position_volume` -/
def updatePositionVolume (ps : List PositionDict) (symbol : String) (side : Option String)
    (volume : Option Decimal) : List PositionDict :=
  ps.map fun p =>
    if p.symbol = some symbol ∧ p.side = side then { p with volume := volume.map Decimal.str } else p

/-- The MT5 position that an unknown discrepancy is about. -/
def isReportOf (d : PositionDiscrepancy) (m : Mt5Report) : Bool :=
  m.symbol = d.symbol && some m.side = d.mt5Side &&
    some m.volume.value = d.mt5Volume.map Decimal.value

/-- The correction of one discrepancy. -/
def correct (mt5Positions : List Mt5Report) (ps : List PositionDict) (d : PositionDiscrepancy) :
    List PositionDict :=
  match d.discrepancyType with
  | .orphanPosition => removeOrphanFromState ps d.symbol d.snapshotSide d.snapshotVolume
  | .unknownPosition =>
    match mt5Positions.find? (isReportOf d) with
    | some m => addUnknownToState ps m
    | none => ps
  | .volumeMismatch => updatePositionVolume ps d.symbol d.mt5Side d.mt5Volume
  | .sideMismatch => ps

/-! ## Reconciliation -/

/-- What `query_positions` comes back with. -/
inductive Mt5Reply
  | positions (ms : List Mt5Report)
  | timeout
  | runtimeError (text : String)
  /-- Any other exception; it is not caught. -/
  | raises (text : String)

/-- The result for the positions MT5 has reported, and the positions saved
to Redis, if any are. -/
def reconcilePositions (a : String) (snapshotPositions : List PositionDict)
    (mt5Positions : List Mt5Report) : ReconciliationResult × Option (List PositionDict) :=
  let (pairs, ds) := matchPositions a snapshotPositions mt5Positions
  let manual := hasCriticalDiscrepancies ds snapshotPositions mt5Positions
  ({ accountId := a
     success := !manual
     positionsVerified := pairs.length
     discrepancies := ds
     positionsAdded := countOf .unknownPosition ds
     positionsRemoved := countOf .orphanPosition ds
     positionsUpdated := countOf .volumeMismatch ds
     requiresManualIntervention := manual },
   if manual then none else some (ds.foldl (correct mt5Positions) snapshotPositions))

/-- A result without a comparison. -/
def unverified (a : String) (text : String) : ReconciliationResult :=
  { accountId := a, success := false, requiresManualIntervention := true, errorMessage := some text }

/-- `reconcile_account`, with the snapshot it saves at time `now`. -/
def reconcileAccount (computeChecksum : Checksum) (now : ℚ) (a : String) (snapshot : StateSnapshot) :
    Mt5Reply → Except String (ReconciliationResult × Option StateSnapshot)
  | .timeout => .ok (unverified a "MT5 query timeout - unable to verify positions", none)
  | .runtimeError text => .ok (unverified a ("ZMQ connection error: " ++ text), none)
  | .raises text => .error text
  | .positions ms =>
    let (result, saved) := reconcilePositions a snapshot.positions ms
    .ok (result, saved.map fun ps => .sealed computeChecksum
      { snapshot.toSnapshotContent with accountId := a, timestamp := now, positions := ps })

end PositionReconciler

end TdSandboxed
