/-
TdSandboxed.Accounts.EquityTheorems — what a tracker's equity is worth
(`accounts/pnl_tracker.py`).

A tracker keeps, for each position, one entry price and one cached
unrealized P&L, and says of the first that it is the "average entry
price". The history kept beside it here holds what the tracker throws
away: every fill of a position, at its price. The equity is then compared
with the balance plus what each position is worth at its volume-weighted
average fill price.

`Consistent` is the relation each operation is to restore. Four things
break it: a second fill at a price other than the mark, a tick on a
position whose entry price is no longer the average, a close that raises
between the balance and the recalculation, and a reset to another
balance. `equity_of_orderly` says that nothing else does.
-/
import Mathlib.Algebra.BigOperators.Group.List.Basic
import Mathlib.Tactic.FieldSimp
import Mathlib.Tactic.LinearCombination
import TdSandboxed.Accounts.PnLTracker
import TdSandboxed.Lib.Run

namespace TdSandboxed

/-- A call on a tracker, with what its arguments hold. The awaits after
the last write of a call change nothing, so a call that raises there is
one that completes; `positionCloseRaised` is a close whose first await
raises. -/
inductive TrackerOp
  | tradeExecuted (result : OrderResult) (order : Order)
  | tick (symbol : String) (bid ask : ℚ)
  | positionClosed (positionId : String) (realizedPnl : ℚ)
  | positionCloseRaised (positionId : String) (realizedPnl : ℚ)
  | resetDaily (startingBalance : ℚ)
  deriving DecidableEq

/-- A tracker, with the fills (price and volume) of each open position. -/
structure TrackerHistory where
  tracker : PnLTracker
  fills : String → List (ℚ × ℚ) := fun _ => []

/-- The volume-weighted average price of some fills. -/
def vwap (fills : List (ℚ × ℚ)) : ℚ :=
  (fills.map fun f => f.1 * f.2).sum / (fills.map Prod.snd).sum

/-- What a position is worth at its mark over its average fill price. -/
def Position.worth (p : Position) (fills : List (ℚ × ℚ)) : ℚ :=
  p.side.sign * (p.currentPrice - vwap fills) * p.volume * getMultiplier p.symbol

namespace TrackerHistory

def start (accountId : String) (initialBalance : ℚ) : TrackerHistory :=
  { tracker := .init accountId initialBalance }

def step (s : TrackerHistory) : TrackerOp → TrackerHistory
  | .tradeExecuted r o =>
    { tracker := s.tracker.record o r
      fills :=
        if r.isFilled then
          Function.update s.fills o.orderId
            (s.fills o.orderId ++ [(PnLTracker.fillPriceOf r, o.volume)])
        else s.fills }
  | .tick symbol bid ask => { s with tracker := s.tracker.onTick symbol bid ask }
  | .positionClosed id pnl =>
    { tracker := s.tracker.onPositionClosed id pnl, fills := Function.update s.fills id [] }
  | .positionCloseRaised id pnl =>
    { tracker := s.tracker.popClosed id pnl, fills := Function.update s.fills id [] }
  | .resetDaily balance => { s with tracker := s.tracker.resetDaily balance }

/-- Every call is enabled. -/
def next (s : TrackerHistory) (op : TrackerOp) : Option TrackerHistory := some (s.step op)

/-- The equity is the balance plus what the open positions are worth. -/
def EquityHolds (s : TrackerHistory) : Prop :=
  s.tracker.currentEquity =
    s.tracker.balance + (s.tracker.positions.map fun p => p.worth (s.fills p.positionId)).sum

/-- What a call must be for the equity to stay right: a further fill of a
position is at its mark, a tick finds entry prices that are the averages,
a close that raises realizes the cached P&L, and a reset is to the
balance the tracker has. -/
def Orderly (s : TrackerHistory) : TrackerOp → Prop
  | .tradeExecuted r o =>
    r.isFilled → ∀ p ∈ s.tracker.positions, p.positionId = o.orderId →
      PnLTracker.fillPriceOf r = p.currentPrice
  | .tick symbol _ _ =>
    ∀ p ∈ s.tracker.positions, p.symbol = symbol → p.entryPrice = vwap (s.fills p.positionId)
  | .positionClosed _ _ => True
  | .positionCloseRaised id pnl =>
    ∀ p ∈ s.tracker.positions, p.positionId = id → pnl = p.unrealizedPnl
  | .resetDaily balance => balance = s.tracker.balance

instance (s : TrackerHistory) : (op : TrackerOp) → Decidable (s.Orderly op)
  | .tradeExecuted r o =>
    inferInstanceAs <| Decidable <| r.isFilled → ∀ p ∈ s.tracker.positions,
      p.positionId = o.orderId → PnLTracker.fillPriceOf r = p.currentPrice
  | .tick symbol _ _ =>
    inferInstanceAs <| Decidable <| ∀ p ∈ s.tracker.positions,
      p.symbol = symbol → p.entryPrice = vwap (s.fills p.positionId)
  | .positionClosed _ _ => .isTrue trivial
  | .positionCloseRaised id pnl =>
    inferInstanceAs <| Decidable <| ∀ p ∈ s.tracker.positions,
      p.positionId = id → pnl = p.unrealizedPnl
  | .resetDaily balance => inferInstanceAs <| Decidable <| balance = s.tracker.balance

/-! ## The relation the calls keep -/

/-- One position agrees with its fills. -/
structure Backed (p : Position) (fills : List (ℚ × ℚ)) : Prop where
  volume : p.volume = (fills.map Prod.snd).sum
  volume_pos : 0 < p.volume
  cached : p.unrealizedPnl = p.worth fills

structure Consistent (s : TrackerHistory) : Prop where
  equity : s.tracker.currentEquity =
    s.tracker.balance + (s.tracker.positions.map Position.unrealizedPnl).sum
  backed : ∀ p ∈ s.tracker.positions, Backed p (s.fills p.positionId)
  fresh : ∀ id, id ∉ s.tracker.positions.map Position.positionId → s.fills id = []

theorem Consistent.equityHolds {s : TrackerHistory} (h : s.Consistent) : s.EquityHolds := by
  have hmap : s.tracker.positions.map Position.unrealizedPnl =
      s.tracker.positions.map fun p => p.worth (s.fills p.positionId) :=
    List.map_congr_left fun p hp => (h.backed p hp).cached
  rw [EquityHolds, h.equity, hmap]

theorem consistent_start (accountId : String) (initialBalance : ℚ) :
    (start accountId initialBalance).Consistent where
  equity := by simp [start, PnLTracker.init]
  backed := by simp [start, PnLTracker.init]
  fresh := fun _ _ => rfl

/-! ## One position -/

theorem vwap_singleton {price volume : ℚ} (h : 0 < volume) : vwap [(price, volume)] = price := by
  simp [vwap, h.ne']

/-- A first fill is marked at its own price. -/
theorem backed_newPosition (o : Order) (r : OrderResult) :
    Backed (PnLTracker.newPosition o r) [(PnLTracker.fillPriceOf r, o.volume)] where
  volume := by simp [PnLTracker.newPosition]
  volume_pos := o.volume_pos
  cached := by
    simp [PnLTracker.newPosition, Position.worth, vwap_singleton o.volume_pos]

/-- What a position is worth, without a division: at the mark over what
its fills cost. -/
theorem worth_eq {p : Position} {fills : List (ℚ × ℚ)}
    (hv : p.volume = (fills.map Prod.snd).sum) (hpos : 0 < p.volume) :
    p.worth fills =
      p.side.sign * (p.currentPrice * p.volume - (fills.map fun f => f.1 * f.2).sum) := by
  have hne : (fills.map Prod.snd).sum ≠ 0 := hv ▸ hpos.ne'
  have hcost : vwap fills * p.volume = (fills.map fun f => f.1 * f.2).sum := by
    rw [hv, vwap, div_mul_cancel₀ _ hne]
  simp only [Position.worth, getMultiplier, mul_one]
  linear_combination -p.side.sign * hcost

/-- A further fill at the mark leaves the cached value right. -/
theorem Backed.add {p : Position} {fills : List (ℚ × ℚ)} {o : Order} {price : ℚ}
    (h : Backed p fills) (hid : p.positionId = o.orderId) (hprice : price = p.currentPrice) :
    Backed (p.add o) (fills ++ [(price, o.volume)]) := by
  have hvol : (p.add o).volume = ((fills ++ [(price, o.volume)]).map Prod.snd).sum := by
    rw [Position.add_volume_of_eq hid, h.volume]
    simp
  have hpos : 0 < (p.add o).volume := by
    rw [Position.add_volume_of_eq hid]
    exact add_pos h.volume_pos o.volume_pos
  refine ⟨hvol, hpos, ?_⟩
  have hold := h.cached
  rw [worth_eq h.volume h.volume_pos] at hold
  rw [worth_eq hvol hpos]
  simp only [Position.add, hid, if_true, List.map_append, List.map_cons, List.map_nil,
    List.sum_append, List.sum_cons, List.sum_nil, add_zero]
  rw [hold, hprice]
  ring

theorem calculateUnrealizedPnl_eq (p : Position) (price : ℚ) :
    p.calculateUnrealizedPnl price =
      p.side.sign * (price - p.entryPrice) * p.volume * getMultiplier p.symbol := by
  unfold Position.calculateUnrealizedPnl
  cases p.side with
  | buy => simp [OrderSide.sign]
  | sell => simp [OrderSide.sign]

/-- A tick marks a position to its worth when the entry price is the
average. -/
theorem Backed.mark {p : Position} {fills : List (ℚ × ℚ)} (h : Backed p fills)
    {symbol : String} (bid ask : ℚ) (hentry : p.symbol = symbol → p.entryPrice = vwap fills) :
    Backed (p.mark symbol bid ask) fills := by
  by_cases hsym : p.symbol = symbol
  · refine ⟨?_, ?_, ?_⟩
    · simpa using h.volume
    · simpa using h.volume_pos
    · simp [Position.mark, hsym, calculateUnrealizedPnl_eq, Position.worth, hentry hsym]
  · simpa [Position.mark, hsym] using h

/-! ## The whole tracker -/

theorem recalculateEquity_equity (t : PnLTracker) :
    t.recalculateEquity.currentEquity =
      t.recalculateEquity.balance +
        (t.recalculateEquity.positions.map Position.unrealizedPnl).sum := rfl

theorem recalculateEquity_positions (t : PnLTracker) :
    t.recalculateEquity.positions = t.positions := rfl

/-- A fill of an id that has a position. -/
theorem Consistent.record_known {s : TrackerHistory} (h : s.Consistent) {r : OrderResult}
    {o : Order} (hr : r.isFilled) (hid : o.orderId ∈ s.tracker.positions.map Position.positionId)
    (hok : s.Orderly (.tradeExecuted r o)) : (s.step (.tradeExecuted r o)).Consistent := by
  have hpos : (s.tracker.record o r).positions = s.tracker.positions.map (Position.add · o) := by
    simp [PnLTracker.record, hr, hid, PnLTracker.recalculateEquity]
  refine ⟨?_, ?_, ?_⟩
  · simp only [step, PnLTracker.record, hr, if_true]
    exact recalculateEquity_equity _
  · intro q hq
    simp only [step, hpos, List.mem_map] at hq
    obtain ⟨p, hp, rfl⟩ := hq
    simp only [step, hr, if_true, Position.add_positionId]
    by_cases hp' : p.positionId = o.orderId
    · rw [hp', Function.update_self, ← hp']
      exact (h.backed p hp).add hp' (hok hr p hp hp')
    · rw [Function.update_of_ne hp', Position.add_of_ne hp']
      exact h.backed p hp
  · intro id hnot
    simp only [step, hpos, PnLTracker.map_add_positionId] at hnot
    have hne : id ≠ o.orderId := fun he => hnot (he ▸ hid)
    simp only [step, hr, if_true, Function.update_of_ne hne]
    exact h.fresh id hnot

/-- A fill of a new id. -/
theorem Consistent.record_new {s : TrackerHistory} (h : s.Consistent) {r : OrderResult}
    {o : Order} (hr : r.isFilled)
    (hid : o.orderId ∉ s.tracker.positions.map Position.positionId) :
    (s.step (.tradeExecuted r o)).Consistent := by
  have hpos : (s.tracker.record o r).positions =
      s.tracker.positions ++ [PnLTracker.newPosition o r] := by
    simp [PnLTracker.record, hr, hid, PnLTracker.recalculateEquity]
  refine ⟨?_, ?_, ?_⟩
  · simp only [step, PnLTracker.record, hr, if_true]
    exact recalculateEquity_equity _
  · intro q hq
    simp only [step, hpos, List.mem_append, List.mem_singleton] at hq
    simp only [step, hr, if_true]
    rcases hq with hq | rfl
    · have hne : q.positionId ≠ o.orderId := fun he => hid (he ▸ List.mem_map_of_mem hq)
      rw [Function.update_of_ne hne]
      exact h.backed q hq
    · have hself : (PnLTracker.newPosition o r).positionId = o.orderId := rfl
      rw [hself, Function.update_self, h.fresh o.orderId hid]
      exact backed_newPosition o r
  · intro id hnot
    simp only [step, hpos, List.map_append, List.mem_append, not_or] at hnot
    have hne : id ≠ o.orderId := by
      rintro rfl
      exact hnot.2 (by simp [PnLTracker.newPosition])
    simp only [step, hr, if_true, Function.update_of_ne hne]
    exact h.fresh id hnot.1

theorem Consistent.tick {s : TrackerHistory} (h : s.Consistent) {symbol : String} {bid ask : ℚ}
    (hok : s.Orderly (.tick symbol bid ask)) : (s.step (.tick symbol bid ask)).Consistent := by
  by_cases hany : s.tracker.positions.any (·.symbol = symbol)
  · have hpos : (s.tracker.onTick symbol bid ask).positions =
        s.tracker.positions.map (Position.mark · symbol bid ask) := by
      simp only [PnLTracker.onTick, hany, if_true, PnLTracker.recalculateEquity]
    refine ⟨?_, ?_, ?_⟩
    · simp only [step, PnLTracker.onTick, hany, if_true]
      exact recalculateEquity_equity _
    · intro q hq
      simp only [step, hpos, List.mem_map] at hq
      obtain ⟨p, hp, rfl⟩ := hq
      simp only [step, Position.mark_positionId]
      exact (h.backed p hp).mark bid ask (hok p hp)
    · intro id hnot
      refine h.fresh id ?_
      simpa [step, hpos, Function.comp_def] using hnot
  · have hsame : s.step (.tick symbol bid ask) = s := by
      simp only [step, PnLTracker.onTick, hany]
      rfl
    rw [hsame]
    exact h

/-- The positions and fills after a close, whether it raises or not. -/
theorem Consistent.popped {s : TrackerHistory} (h : s.Consistent) (id : String) (pnl : ℚ) :
    (∀ p ∈ (s.tracker.popClosed id pnl).positions,
      Backed p (Function.update s.fills id [] p.positionId)) ∧
    ∀ id', id' ∉ (s.tracker.popClosed id pnl).positions.map Position.positionId →
      Function.update s.fills id [] id' = [] := by
  rw [PnLTracker.popClosed_positions]
  constructor
  · intro p hp
    obtain ⟨hp, hne⟩ := List.mem_filter.mp hp
    rw [Function.update_of_ne (by simpa using hne)]
    exact h.backed p hp
  · intro id' hnot
    by_cases hid : id' = id
    · rw [hid, Function.update_self]
    · rw [Function.update_of_ne hid]
      refine h.fresh id' fun hmem => hnot ?_
      obtain ⟨p, hp, rfl⟩ := List.mem_map.mp hmem
      exact List.mem_map_of_mem (List.mem_filter.mpr ⟨hp, by simpa using hid⟩)

theorem Consistent.closed {s : TrackerHistory} (h : s.Consistent) (id : String) (pnl : ℚ) :
    (s.step (.positionClosed id pnl)).Consistent := by
  have hpop := h.popped id pnl
  by_cases hid : id ∈ s.tracker.positions.map Position.positionId
  · have htr : s.tracker.onPositionClosed id pnl =
        (s.tracker.popClosed id pnl).recalculateEquity := by
      rw [PnLTracker.onPositionClosed, if_pos hid]
    refine ⟨?_, ?_, ?_⟩
    · simp only [step, htr]
      exact recalculateEquity_equity _
    · simpa only [step, htr, recalculateEquity_positions] using hpop.1
    · simpa only [step, htr, recalculateEquity_positions] using hpop.2
  · have htr : s.tracker.onPositionClosed id pnl = s.tracker := by
      rw [PnLTracker.onPositionClosed, if_neg hid]
    have hpc : s.tracker.popClosed id pnl = s.tracker := by
      rw [PnLTracker.popClosed, if_neg hid]
    rw [hpc] at hpop
    refine ⟨?_, ?_, ?_⟩
    · simpa only [step, htr] using h.equity
    · simpa only [step, htr] using hpop.1
    · simpa only [step, htr] using hpop.2

/-- Taking the one position with an id out of a list takes its cached P&L
out of the sum. -/
theorem sum_filter_ne {ps : List Position} {id : String} {pnl : ℚ}
    (hnd : (ps.map Position.positionId).Nodup) (hid : id ∈ ps.map Position.positionId)
    (hpnl : ∀ p ∈ ps, p.positionId = id → pnl = p.unrealizedPnl) :
    ((ps.filter (·.positionId ≠ id)).map Position.unrealizedPnl).sum + pnl =
      (ps.map Position.unrealizedPnl).sum := by
  induction ps with
  | nil => simp at hid
  | cons p ps ih =>
    rw [List.map_cons, List.nodup_cons] at hnd
    by_cases hp : p.positionId = id
    · have hrest : ps.filter (·.positionId ≠ id) = ps := by
        refine List.filter_eq_self.mpr fun q hq => ?_
        have hne : q.positionId ≠ id := fun he =>
          hnd.1 (hp ▸ he ▸ List.mem_map_of_mem hq)
        simpa using hne
      rw [List.filter_cons_of_neg (by simpa using hp), hrest, List.map_cons, List.sum_cons,
        hpnl p List.mem_cons_self hp, add_comm]
    · have hmem : id ∈ ps.map Position.positionId := by simpa [Ne.symm hp] using hid
      have htail := ih hnd.2 hmem fun q hq => hpnl q (List.mem_cons_of_mem _ hq)
      rw [List.filter_cons_of_pos (by simpa using hp), List.map_cons, List.map_cons, List.sum_cons,
        List.sum_cons, ← htail, add_assoc]

theorem Consistent.closeRaised {s : TrackerHistory} (h : s.Consistent) {id : String} {pnl : ℚ}
    (hok : s.Orderly (.positionCloseRaised id pnl)) :
    (s.step (.positionCloseRaised id pnl)).Consistent := by
  have hpop := h.popped id pnl
  refine ⟨?_, by simpa only [step] using hpop.1, by simpa only [step] using hpop.2⟩
  by_cases hid : id ∈ s.tracker.positions.map Position.positionId
  · have hsum := sum_filter_ne s.tracker.positions_nodup hid hok
    have heq := h.equity
    rw [← hsum] at heq
    simp only [step, PnLTracker.popClosed, hid, if_true]
    rw [heq]
    ring
  · simpa only [step, PnLTracker.popClosed, hid, if_false] using h.equity

/-- **Step.** An orderly call keeps the tracker and its history
consistent. -/
theorem Consistent.step {s : TrackerHistory} (h : s.Consistent) {op : TrackerOp}
    (hok : s.Orderly op) : (s.step op).Consistent := by
  cases op with
  | tradeExecuted r o =>
    by_cases hr : r.isFilled
    · by_cases hid : o.orderId ∈ s.tracker.positions.map Position.positionId
      · exact h.record_known hr hid hok
      · exact h.record_new hr hid
    · have hsame : s.step (.tradeExecuted r o) = s := by
        simp only [TrackerHistory.step, PnLTracker.record, hr]
        rfl
      rw [hsame]
      exact h
  | tick symbol bid ask => exact h.tick hok
  | positionClosed id pnl => exact h.closed id pnl
  | positionCloseRaised id pnl => exact h.closeRaised hok
  | resetDaily balance =>
    obtain rfl : balance = s.tracker.balance := hok
    exact ⟨h.equity, h.backed, h.fresh⟩

/-- **Every run of orderly calls ends with the right equity.** -/
theorem equity_of_orderly {accountId : String} {initialBalance : ℚ} {ops : List TrackerOp}
    {s : TrackerHistory}
    (h : Lib.RunWhere next Orderly (start accountId initialBalance) ops s) : s.EquityHolds := by
  refine Consistent.equityHolds (h.invariant_state Consistent (consistent_start _ _) ?_)
  intro t op u ht hok hu
  obtain rfl : t.step op = u := Option.some.inj hu
  exact ht.step hok

/-- A filled result of `a` at a price. -/
def filledAt (price : ℚ) : OrderResult :=
  { orderId := "a", status := .filled, fillPrice := some price }

/-- Such a run, with a further fill, a reset and a close. -/
theorem equity_of_orderly_scaled :
    ∃ s : TrackerHistory, s.EquityHolds ∧ s.tracker.currentEquity = 100015 := by
  obtain ⟨s, hrun, hs⟩ := Lib.RunWhere.exists_of_checked next Orderly (start "ftmo-001" 100000)
    [.tradeExecuted (filledAt 100) orderA, .tradeExecuted (filledAt 100) orderA,
      .tick "XAUUSD" 110 111, .resetDaily 100000, .tradeExecuted (filledAt 110) orderA,
      .positionClosed "a" 15]
    (fun s => s.tracker.currentEquity = 100015) (by decide +kernel) (by decide +kernel)
  exact ⟨s, equity_of_orderly hrun, by simpa using hs⟩

/-- Bought at 100 and again at 110 under one order id, and marked at 110:
the tracker gains 20, the two lots 10. -/
theorem second_fill_counts_twice :
    ∃ s : TrackerHistory, Lib.Run next (start "ftmo-001" 100000)
      [.tradeExecuted (filledAt 100) orderA, .tradeExecuted (filledAt 110) orderA,
        .tick "XAUUSD" 110 111] s ∧ ¬ s.EquityHolds := by
  refine ⟨_, .of_exec rfl, ?_⟩
  unfold EquityHolds
  decide +kernel

end TrackerHistory

end TdSandboxed
