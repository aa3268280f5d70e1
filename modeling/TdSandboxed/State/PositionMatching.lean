/-
TdSandboxed.State.PositionMatching — `_match_positions` on the dicts and
decimals it is given (`state/position_reconciler.py`).

`PositionReconciler` has a snapshot's numbers read already, and subtracts
them exactly. Here a position is a dict of texts, a number is read where
the source reads it, and the volumes are subtracted and compared as
`decimal` does it. Reading and comparing may raise, and then nothing is
returned.

* The loop goes through the MT5 positions left and removes from them the
  one it stops at. `remove` takes out the first that is the same object or
  equal; objects of equal content are not told apart here.
* `==` of two positions stops at the first field that differs. The symbol
  stands before the decimals, so no signaling NaN is ever compared.
* The texts for the log (`details`) are left out.
-/
import TdSandboxed.Lib.DecimalContext
import TdSandboxed.Lib.OrderedDict
import TdSandboxed.Lib.Pairing
import TdSandboxed.State.PositionReconciler

namespace TdSandboxed.PositionMatching

open Lib

/-- A position of a snapshot. -/
abbrev PositionDict := OrderedDict String String

structure MT5Position where
  ticket : ℤ
  symbol : String
  side : String
  volume : PyDecimal
  entryPrice : PyDecimal
  entryTime : String
  currentPrice : PyDecimal
  profit : PyDecimal
  swap : PyDecimal
  commission : PyDecimal
  deriving DecidableEq

/-- `==` -/
def MT5Position.eq (m m' : MT5Position) : Bool :=
  m.ticket = m'.ticket && m.symbol = m'.symbol && m.side = m'.side &&
    m.volume.value.eq m'.volume.value && m.entryPrice.value.eq m'.entryPrice.value &&
    m.entryTime = m'.entryTime && m.currentPrice.value.eq m'.currentPrice.value &&
    m.profit.value.eq m'.profit.value && m.swap.value.eq m'.swap.value &&
    m.commission.value.eq m'.commission.value

structure PositionDiscrepancy where
  discrepancyType : DiscrepancyType
  accountId : String
  symbol : String
  snapshotSide : Option String := none
  mt5Side : Option String := none
  snapshotVolume : Option PyDecimal := none
  mt5Volume : Option PyDecimal := none
  snapshotEntryPrice : Option PyDecimal := none
  mt5EntryPrice : Option PyDecimal := none
  deriving DecidableEq

inductive PyError
  | keyError
  | valueError
  | decimal (signal : DecimalSignal)
  deriving DecidableEq

/-- `VOLUME_TOLERANCE` -/
def volumeTolerance : DecimalValue := .finite (10 ^ (-3 : ℤ))

/-! ## Reading a dict -/

/-- `position[field]` -/
def item (position : PositionDict) (field : String) : Except PyError String :=
  match position.get? field with
  | some text => .ok text
  | none => .error .keyError

/-- `_validate_position_dict` -/
def validatePositionDict (position : PositionDict) : Bool :=
  ["symbol", "side", "volume"].all fun field => (position.get? field).isSome

section
variable (unicode : UnicodeData) (accountId : String)

/-- `Decimal(text)` -/
def readDecimal (text : String) : Except PyError PyDecimal :=
  match PyDecimal.read unicode text.toList with
  | some d => .ok d
  | none => .error (.decimal .invalidOperation)

/-- `Decimal(position["volume"])` -/
def readVolume (position : PositionDict) : Except PyError PyDecimal :=
  item position "volume" >>= readDecimal unicode

/-- `Decimal(position[field]) if field in position else None` -/
def readField (position : PositionDict) (field : String) : Except PyError (Option PyDecimal) :=
  match position.get? field with
  | some text => (readDecimal unicode text).map some
  | none => .ok none

/-! ## Discrepancies -/

/-- The orphan that is made of an invalid dict. -/
def createInvalidDiscrepancy (position : PositionDict) : Except PyError PositionDiscrepancy := do
  let snapshotVolume ← readField unicode position "volume"
  let snapshotEntryPrice ← readField unicode position "entry_price"
  return { discrepancyType := .orphanPosition
           accountId
           symbol := (position.get? "symbol").getD "UNKNOWN"
           snapshotSide := position.get? "side"
           snapshotVolume
           snapshotEntryPrice }

/-- `_create_orphan_discrepancy` -/
def createOrphanDiscrepancy (position : PositionDict) : Except PyError PositionDiscrepancy := do
  let symbol ← item position "symbol"
  let side ← item position "side"
  let volume ← readVolume unicode position
  let snapshotEntryPrice ← readField unicode position "entry_price"
  return { discrepancyType := .orphanPosition
           accountId
           symbol
           snapshotSide := some side
           snapshotVolume := some volume
           snapshotEntryPrice }

/-- `_create_unknown_discrepancy` -/
def createUnknownDiscrepancy (m : MT5Position) : PositionDiscrepancy :=
  { discrepancyType := .unknownPosition
    accountId
    symbol := m.symbol
    mt5Side := some m.side
    mt5Volume := some m.volume
    mt5EntryPrice := some m.entryPrice }

/-- What the two discrepancies of a pair have in common. -/
def createMismatch (type : DiscrepancyType) (position : PositionDict) (m : MT5Position) :
    Except PyError PositionDiscrepancy := do
  let volume ← readVolume unicode position
  let side ← item position "side"
  let snapshotEntryPrice ← readField unicode position "entry_price"
  return { discrepancyType := type
           accountId
           symbol := m.symbol
           snapshotSide := some side
           mt5Side := some m.side
           snapshotVolume := some volume
           mt5Volume := some m.volume
           snapshotEntryPrice
           mt5EntryPrice := some m.entryPrice }

/-- `_create_volume_mismatch_discrepancy` -/
def createVolumeMismatchDiscrepancy := createMismatch unicode accountId .volumeMismatch

/-- `_create_side_mismatch_discrepancy` -/
def createSideMismatchDiscrepancy := createMismatch unicode accountId .sideMismatch

/-! ## Matching -/

/-- `abs(mt5_pos.volume - volume) <= VOLUME_TOLERANCE` -/
def volumesAgree (m : MT5Position) (volume : PyDecimal) : Except PyError Bool :=
  (DecimalValue.within volumeTolerance m.volume.value volume.value).mapError .decimal

/-- `mt5_unmatched.remove(mt5_pos)` -/
def remove (m : MT5Position) : List MT5Position → Except PyError (List MT5Position)
  | [] => .error .valueError
  | x :: xs => if x = m ∨ x.eq m then .ok xs else (remove m xs).map (x :: ·)

/-- The variables of the loop. -/
structure Matching where
  matchedPairs : List (PositionDict × MT5Position) := []
  discrepancies : List PositionDiscrepancy
  mt5Unmatched : List MT5Position

/-- The inner loop, through the MT5 positions that are left; `none` is
`match_found = False`. -/
def findMatch (s : Matching) (position : PositionDict) (symbol side : String) (volume : PyDecimal) :
    List MT5Position → Except PyError (Option Matching)
  | [] => .ok none
  | m :: ms =>
    if m.symbol = symbol then
      if m.side ≠ side then do
        let d ← createSideMismatchDiscrepancy unicode accountId position m
        let mt5Unmatched ← remove m s.mt5Unmatched
        return some { s with discrepancies := s.discrepancies ++ [d], mt5Unmatched }
      else do
        let agree ← volumesAgree m volume
        if agree then
          let mt5Unmatched ← remove m s.mt5Unmatched
          return some { s with matchedPairs := s.matchedPairs ++ [(position, m)], mt5Unmatched }
        else
          let d ← createVolumeMismatchDiscrepancy unicode accountId position m
          let mt5Unmatched ← remove m s.mt5Unmatched
          return some { s with discrepancies := s.discrepancies ++ [d], mt5Unmatched }
    else findMatch s position symbol side volume ms

/-- One turn of the outer loop. -/
def matchPosition (s : Matching) (position : PositionDict) : Except PyError Matching := do
  let symbol ← item position "symbol"
  let side ← item position "side"
  let volume ← readVolume unicode position
  match ← findMatch unicode accountId s position symbol side volume s.mt5Unmatched with
  | some s' => return s'
  | none =>
    let d ← createOrphanDiscrepancy unicode accountId position
    return { s with discrepancies := s.discrepancies ++ [d] }

/-- `_match_positions` -/
def matchPositions (snapshotPositions : List PositionDict) (mt5Positions : List MT5Position) :
    Except PyError (List (PositionDict × MT5Position) × List PositionDiscrepancy) := do
  let validPositions := snapshotPositions.filter validatePositionDict
  let invalidPositions := snapshotPositions.filter fun position => !validatePositionDict position
  let discrepancies ← invalidPositions.mapM (createInvalidDiscrepancy unicode accountId)
  let s ← validPositions.foldlM (matchPosition unicode accountId)
    { discrepancies, mt5Unmatched := mt5Positions }
  return (s.matchedPairs,
    s.discrepancies ++ s.mt5Unmatched.map (createUnknownDiscrepancy accountId))

end

end TdSandboxed.PositionMatching
