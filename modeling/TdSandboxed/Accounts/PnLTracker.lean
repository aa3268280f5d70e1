/-
TdSandboxed.Accounts.PnLTracker — positions and their lots
(`accounts/pnl_tracker.py`, `accounts/pnl_registry.py`).

A tracker's `_positions` is a Python dict from position id to position.
It is a list in insertion order here, with the uniqueness of its ids as a
field. `record` is the synchronous head of `on_trade_executed`, everything
before its first await; the awaits are phases of the caller.

Positions are keyed by the id of the order that opened them. A second
order for the same symbol is therefore a second position, whatever its
side: `lots_record` is the one fact about lots that every later result
uses.
-/
import Mathlib.Algebra.BigOperators.Group.List.Basic
import Mathlib.Tactic.Ring
import TdSandboxed.Adapters.ZmqModels

namespace TdSandboxed

structure Position where
  positionId : String
  symbol : String
  side : OrderSide
  volume : ℚ
  entryPrice : ℚ
  currentPrice : ℚ := 0
  unrealizedPnl : ℚ := 0
  deriving DecidableEq

def getMultiplier (_symbol : String) : ℚ := 1

namespace Position

/-- "Partial fill case: update volume". -/
def add (p : Position) (o : Order) : Position :=
  if p.positionId = o.orderId then { p with volume := p.volume + o.volume } else p

@[simp] theorem add_positionId (p : Position) (o : Order) :
    (p.add o).positionId = p.positionId := by
  unfold add
  split <;> rfl

theorem add_of_ne {p : Position} {o : Order} (h : p.positionId ≠ o.orderId) : p.add o = p := by
  simp [add, h]

theorem add_volume_of_eq {p : Position} {o : Order} (h : p.positionId = o.orderId) :
    (p.add o).volume = p.volume + o.volume := by
  simp [add, h]

def calculateUnrealizedPnl (p : Position) (currentPrice : ℚ) : ℚ :=
  match p.side with
  | .buy => (currentPrice - p.entryPrice) * p.volume * getMultiplier p.symbol
  | .sell => (p.entryPrice - currentPrice) * p.volume * getMultiplier p.symbol

/-- Mark to the price the position would be closed at. -/
def mark (p : Position) (symbol : String) (bid ask : ℚ) : Position :=
  if p.symbol = symbol then
    let markPrice := match p.side with | .buy => bid | .sell => ask
    { p with currentPrice := markPrice, unrealizedPnl := calculateUnrealizedPnl p markPrice }
  else p

@[simp] theorem mark_positionId (p : Position) (symbol : String) (bid ask : ℚ) :
    (p.mark symbol bid ask).positionId = p.positionId := by
  unfold mark
  split <;> rfl

@[simp] theorem mark_volume (p : Position) (symbol : String) (bid ask : ℚ) :
    (p.mark symbol bid ask).volume = p.volume := by
  unfold mark
  split <;> rfl

/-- What later results say of a recorded order: its symbol, side and
volume. The mark changes with every tick. -/
def key (p : Position) : String × OrderSide × ℚ := (p.symbol, p.side, p.volume)

end Position

structure PnLTracker where
  accountId : String
  balance : ℚ
  positions : List Position := []
  currentEquity : ℚ
  dailyRealizedPnl : ℚ := 0
  positions_nodup : (positions.map Position.positionId).Nodup := by simp
  deriving DecidableEq

namespace PnLTracker

def init (accountId : String) (initialBalance : ℚ) : PnLTracker :=
  { accountId, balance := initialBalance, currentEquity := initialBalance }

/-! ## Reading -/

def lots (t : PnLTracker) : ℚ := (t.positions.map Position.volume).sum

def getOpenPositionsCount (t : PnLTracker) : ℕ := t.positions.length

def getTotalExposure (t : PnLTracker) : ℚ :=
  (t.positions.map fun p => p.volume * p.entryPrice * getMultiplier p.symbol).sum

def position? (t : PnLTracker) (id : String) : Option Position :=
  t.positions.find? fun p => p.positionId = id

/-! ## Recording a fill -/

/-- A fill price of zero counts as missing, as `if order_result.fill_price`
does. -/
def fillPriceOf (r : OrderResult) : ℚ := r.fillPrice.getD 0

def newPosition (o : Order) (r : OrderResult) : Position :=
  { positionId := o.orderId, symbol := o.symbol, side := o.action, volume := o.volume,
    entryPrice := fillPriceOf r, currentPrice := fillPriceOf r }

def recalculateEquity (t : PnLTracker) : PnLTracker :=
  { t with currentEquity := t.balance + (t.positions.map Position.unrealizedPnl).sum }

theorem map_add_positionId (ps : List Position) (o : Order) :
    (ps.map (Position.add · o)).map Position.positionId = ps.map Position.positionId := by
  simp [Function.comp_def]

/-- `on_trade_executed` up to its first await. -/
def record (t : PnLTracker) (o : Order) (r : OrderResult) : PnLTracker :=
  if r.isFilled then
    recalculateEquity <|
      if h : o.orderId ∈ t.positions.map Position.positionId then
        { t with
          positions := t.positions.map (Position.add · o)
          positions_nodup := by rw [map_add_positionId]; exact t.positions_nodup }
      else
        { t with
          positions := t.positions ++ [newPosition o r]
          positions_nodup := by
            simpa [List.nodup_append, newPosition, t.positions_nodup] using h }
  else t

/-- `on_tick` up to its first await. -/
def onTick (t : PnLTracker) (symbol : String) (bid ask : ℚ) : PnLTracker :=
  if t.positions.any (·.symbol = symbol) then
    recalculateEquity
      { t with
        positions := t.positions.map (Position.mark · symbol bid ask)
        positions_nodup := by simpa [Function.comp_def] using t.positions_nodup }
  else t

/-! ## Closing and resetting -/

/-- `on_position_closed` up to its first await. The equity is recalculated
only after the trade and the balance are saved. -/
def popClosed (t : PnLTracker) (positionId : String) (realizedPnl : ℚ) : PnLTracker :=
  if positionId ∈ t.positions.map Position.positionId then
    { t with
      positions := t.positions.filter (·.positionId ≠ positionId)
      dailyRealizedPnl := t.dailyRealizedPnl + realizedPnl
      balance := t.balance + realizedPnl
      positions_nodup := t.positions_nodup.sublist (List.filter_sublist.map _) }
  else t

/-- `on_position_closed` from start to end. -/
def onPositionClosed (t : PnLTracker) (positionId : String) (realizedPnl : ℚ) : PnLTracker :=
  if positionId ∈ t.positions.map Position.positionId then
    (t.popClosed positionId realizedPnl).recalculateEquity
  else t

theorem popClosed_positions (t : PnLTracker) (id : String) (pnl : ℚ) :
    (t.popClosed id pnl).positions = t.positions.filter (·.positionId ≠ id) := by
  unfold popClosed
  split
  · rfl
  · rename_i hnot
    refine (List.filter_eq_self.mpr fun p hp => ?_).symm
    have hne : p.positionId ≠ id := fun he => hnot (he ▸ List.mem_map_of_mem hp)
    simpa using hne

theorem onPositionClosed_positions (t : PnLTracker) (id : String) (pnl : ℚ) :
    (t.onPositionClosed id pnl).positions = t.positions.filter (·.positionId ≠ id) := by
  rw [← popClosed_positions t id pnl]
  unfold onPositionClosed popClosed
  split <;> rfl

def resetDaily (t : PnLTracker) (startingBalance : ℚ) : PnLTracker :=
  { t with dailyRealizedPnl := 0, balance := startingBalance }

/-- The sum of the cached values, as in `get_pnl_metrics`. -/
def getTotalUnrealizedPnl (t : PnLTracker) : ℚ := (t.positions.map Position.unrealizedPnl).sum

/-! ## Lots -/

theorem map_add_of_not_mem {ps : List Position} {o : Order}
    (h : o.orderId ∉ ps.map Position.positionId) : ps.map (Position.add · o) = ps := by
  refine (List.map_congr_left fun p hp => ?_).trans (List.map_id ps)
  exact Position.add_of_ne fun he => h (he ▸ List.mem_map_of_mem hp)

/-- Adding a fill to the one position with its id adds its volume once. -/
theorem sum_volume_add {ps : List Position} {o : Order}
    (hnd : (ps.map Position.positionId).Nodup) (h : o.orderId ∈ ps.map Position.positionId) :
    ((ps.map (Position.add · o)).map Position.volume).sum =
      (ps.map Position.volume).sum + o.volume := by
  induction ps with
  | nil => simp at h
  | cons p ps ih =>
    simp only [List.map_cons, List.nodup_cons] at hnd
    by_cases hp : p.positionId = o.orderId
    · have hrest := map_add_of_not_mem (hp ▸ hnd.1)
      simp only [List.map_cons, hrest, List.sum_cons, Position.add_volume_of_eq hp]
      ring
    · have hmem : o.orderId ∈ ps.map Position.positionId := by
        simpa [Ne.symm hp] using h
      simp only [List.map_cons, List.sum_cons, ih hnd.2 hmem, Position.add_of_ne hp]
      ring

/-- **A recorded fill adds exactly the order's volume**, whether it opens
a position or adds to one, and whatever its side. -/
theorem lots_record (t : PnLTracker) (o : Order) {r : OrderResult} (hr : r.isFilled) :
    (t.record o r).lots = t.lots + o.volume := by
  simp only [record, hr, if_true, recalculateEquity, lots]
  split
  · rename_i h
    exact sum_volume_add t.positions_nodup h
  · simp [newPosition]

@[simp] theorem lots_onTick (t : PnLTracker) (symbol : String) (bid ask : ℚ) :
    (t.onTick symbol bid ask).lots = t.lots := by
  unfold onTick
  split
  · simp [lots, recalculateEquity, Function.comp_def]
  · rfl

@[simp] theorem lots_init (a : String) (b : ℚ) : (init a b).lots = 0 := rfl

/-! ## Looking a position up -/

/-- What the tracker knows of an order id. -/
def recorded? (t : PnLTracker) (id : String) : Option (String × OrderSide × ℚ) :=
  (t.position? id).map Position.key

@[simp] theorem recorded?_init (a : String) (b : ℚ) (id : String) :
    (init a b).recorded? id = none := rfl

theorem position?_eq_none_iff (t : PnLTracker) (id : String) :
    t.position? id = none ↔ id ∉ t.positions.map Position.positionId := by
  simp only [position?, List.find?_eq_none, decide_eq_true_eq, List.mem_map, not_exists, not_and]

theorem recorded?_record_self {t : PnLTracker} {o : Order} {r : OrderResult} (hr : r.isFilled)
    (h : t.recorded? o.orderId = none) :
    (t.record o r).recorded? o.orderId = some (o.symbol, o.action, o.volume) := by
  simp only [recorded?, Option.map_eq_none_iff] at h
  have hnot := (position?_eq_none_iff t o.orderId).mp h
  simp only [position?] at h
  simp [record, hr, hnot, recalculateEquity, recorded?, position?, h, newPosition, Position.key]

theorem find?_map_add {ps : List Position} {o : Order} {id : String} (hne : id ≠ o.orderId) :
    (ps.map (Position.add · o)).find? (fun p => p.positionId = id) =
      ps.find? fun p => p.positionId = id := by
  induction ps with
  | nil => rfl
  | cons p ps ih =>
    by_cases hp : p.positionId = id
    · have hpo : p.positionId ≠ o.orderId := hp ▸ hne
      simp [Position.add_of_ne hpo, hp]
    · simp [hp, ih]

theorem recorded?_record_of_ne {t : PnLTracker} {o : Order} {r : OrderResult} {id : String}
    (hne : id ≠ o.orderId) : (t.record o r).recorded? id = t.recorded? id := by
  unfold record
  split
  · simp only [recorded?, position?, recalculateEquity]
    split
    · rw [find?_map_add hne]
    · simp [newPosition, Ne.symm hne]
  · rfl

/-- A recorded fill changes what the tracker knows of the order, also when
its id is already there. -/
theorem recorded?_record_ne (t : PnLTracker) (o : Order) {r : OrderResult} (hr : r.isFilled) :
    (t.record o r).recorded? o.orderId ≠ t.recorded? o.orderId := by
  by_cases h : o.orderId ∈ t.positions.map Position.positionId
  · have hmap : (t.record o r).recorded? o.orderId =
        (t.position? o.orderId).map fun p => (p.add o).key := by
      simp [record, hr, h, recalculateEquity, recorded?, position?, List.find?_map,
        Function.comp_def]
    have hsome : t.position? o.orderId ≠ none := by
      rw [ne_eq, position?_eq_none_iff]
      exact not_not.mpr h
    obtain ⟨p, hp⟩ := Option.ne_none_iff_exists'.mp hsome
    have hid : p.positionId = o.orderId := by
      simpa [position?] using List.find?_some hp
    intro heq
    rw [hmap, recorded?, hp] at heq
    have hzero : o.volume = 0 := by simpa [Position.key, Position.add, hid] using heq
    exact o.volume_pos.ne' hzero
  · have hnone : t.recorded? o.orderId = none := by
      simpa [recorded?] using (position?_eq_none_iff t o.orderId).mpr h
    rw [recorded?_record_self hr hnone, hnone]
    exact Option.some_ne_none _

@[simp] theorem recorded?_onTick (t : PnLTracker) (symbol : String) (bid ask : ℚ) (id : String) :
    (t.onTick symbol bid ask).recorded? id = t.recorded? id := by
  unfold onTick
  split
  · simp only [recorded?, position?, recalculateEquity, List.find?_map, Option.map_map,
      Function.comp_def, Position.mark_positionId]
    refine Option.map_congr fun p _ => ?_
    unfold Position.mark
    split <;> rfl
  · rfl

end PnLTracker

end TdSandboxed
