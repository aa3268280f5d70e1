/-
TdSandboxed.State.DailyPnLTheorems — what the daily P&L is once the
positions of a crash are closed.

Every close adds what it realizes, so the field is right at the end exactly
when it was right at the start: when it held the realized P&L of the trades
closed since the trading day started. The recalculator sums the trades since
a boundary of its own and adds the unrealized P&L. `settles_iff` says when
that is right: where the boundary is the start of the day, exactly when the
open positions were worth nothing.

When no risk manager exists yet, the recalculator writes nothing, and what
Redis holds counts.
-/
import TdSandboxed.Config.SessionDays
import TdSandboxed.State.DailyPnLRecalculator

namespace TdSandboxed

namespace RecoveredBooks

variable {a : String} {s : RecoveredBooks}

/-- The daily P&L in the account's risk state. -/
def dailyPnl (a : String) (s : RecoveredBooks) : ℚ := (s.registry.riskState a).dailyPnl

/-! ## One call -/

theorem riskState_updateManager (f : RiskState → RiskState) (r : RiskRegistry) :
    (RiskRegistry.updateManager f r a {}).1.riskState a = f (r.riskState a) := by
  have hman := @RiskRegistry.updateManager_managers f r a {} fun _ => rfl
  rw [RiskRegistry.riskState, hman, Option.getD_some]

theorem dailyPnl_recordTrade (st : RiskState) (pnl : ℚ) :
    (st.recordTrade pnl).dailyPnl = st.dailyPnl + pnl := by
  simp only [RiskState.recordTrade]
  split <;> rfl

@[simp] theorem dailyPnl_updateEquity : (s.updateEquity a).dailyPnl a = s.dailyPnl a := by
  simp only [dailyPnl, updateEquity, RiskRegistry.updateAccountEquity, riskState_updateManager]
  rfl

/-- **Step.** A call adds what it realizes to the daily P&L. -/
theorem dailyPnl_step (op : LaterOp) : (s.step a op).dailyPnl a = s.dailyPnl a + s.realizedBy op := by
  cases op with
  | tick symbol bid ask =>
    simp only [step, realizedBy, add_zero]
    split
    · rw [dailyPnl_updateEquity]
      rfl
    · rfl
  | tradeExecuted r o =>
    simp only [step, realizedBy, add_zero]
    split
    · rw [dailyPnl_updateEquity]
      rfl
    · rfl
  | positionClosed id pnl =>
    simp only [step, realizedBy]
    split
    · rw [dailyPnl_updateEquity]
      simp only [dailyPnl, RiskRegistry.recordAccountTrade, riskState_updateManager,
        dailyPnl_recordTrade]
    · rw [add_zero]

/-- **Run.** Along any calls the daily P&L grows by what they realize. -/
theorem dailyPnl_run (ops : List LaterOp) :
    (s.run a ops).dailyPnl a = s.dailyPnl a + s.realizedAlong a ops := by
  induction ops generalizing s with
  | nil => simp [run, realizedAlong]
  | cons op ops ih =>
    have hrest := @ih (s.step a op)
    rw [dailyPnl_step] at hrest
    simp only [run, List.foldl_cons, realizedAlong] at hrest ⊢
    rw [hrest, add_assoc]

/-! ## Closing everything -/

theorem positions_closed (id : String) (pnl : ℚ) :
    (s.step a (.positionClosed id pnl)).tracker.positions =
      s.tracker.positions.filter (·.positionId ≠ id) := by
  rw [← PnLTracker.onPositionClosed_positions _ id pnl]
  simp only [step]
  split
  · rfl
  · rename_i hid
    rw [PnLTracker.onPositionClosed, if_neg hid]

/-- Closing the positions with some ids leaves the others. -/
theorem positions_run_closes (ids : List String) :
    (s.run a (ids.map fun id => .positionClosed id 0)).tracker.positions =
      s.tracker.positions.filter (·.positionId ∉ ids) := by
  induction ids generalizing s with
  | nil => simp [run]
  | cons id ids ih =>
    have hrest := @ih (s.step a (.positionClosed id 0))
    rw [positions_closed, List.filter_filter] at hrest
    simp only [run, List.map_cons, List.foldl_cons] at hrest ⊢
    rw [hrest]
    refine List.filter_congr fun p _ => ?_
    by_cases hp : p.positionId = id <;> simp [hp]

/-- The open positions can be closed. -/
theorem exists_run_flat (s : RecoveredBooks) : ∃ ops, (s.run a ops).tracker.positions = [] := by
  refine ⟨_, (positions_run_closes (s.tracker.positions.map Position.positionId)).trans ?_⟩
  refine List.filter_eq_nil_iff.mpr fun p hp => ?_
  simpa using ⟨p, hp, rfl⟩

/-- The daily P&L is `total` plus what was realized later, whenever all
positions are closed. -/
def Settles (a : String) (s : RecoveredBooks) (total : ℚ) : Prop :=
  ∀ ops, (s.run a ops).tracker.positions = [] →
    (s.run a ops).dailyPnl a = total + s.realizedAlong a ops

/-- It settles exactly where it starts. -/
theorem settles_iff_dailyPnl (total : ℚ) : s.Settles a total ↔ s.dailyPnl a = total := by
  constructor
  · intro h
    obtain ⟨ops, hops⟩ := exists_run_flat (a := a) s
    have heq := h ops hops
    rw [dailyPnl_run] at heq
    exact add_right_cancel heq
  · rintro rfl ops -
    exact dailyPnl_run ops

end RecoveredBooks

namespace DailyPnLRecalculator

variable {c : SessionSources} {a : String} {snapshotDailyPnl now balance : ℚ}

/-- The books of an account after a successful recalculation was applied.
Without a tracker none of its positions is known, and a later tracker
starts without any. -/
def recovered (c : SessionSources) (r : RiskRegistry) (a : String) (snapshotDailyPnl : ℚ) (now : ℤ)
    (trades : List TradeRecord) (tracker : Option PnLTracker) (balance : ℚ) (save : WriteReply)
    (expire : Option String) : RecoveredBooks :=
  { tracker := tracker.getD (.init a balance)
    registry :=
      (applyRecalculation r a
        (recalculateDailyPnl c a snapshotDailyPnl now (.ok trades) tracker) save expire).1 }

/-- What the trades of an account that were closed since an instant
realized. -/
def realizedSince (a : String) (since : ℤ) (trades : List TradeRecord) : ℚ :=
  (trades.map fun t =>
    if t.accountId = a ∧ t.status = "closed" ∧ ∃ exit ∈ t.exitTime, since ≤ exit then
      t.pnlDollars.getD 0
    else 0).sum

/-- The query sums what was realized since the boundary that it is given. -/
theorem query_eq (a : String) (boundary : ℤ) (trades : List TradeRecord) :
    (queryRealizedPnl a boundary trades).1 = realizedSince a boundary trades := by
  simp only [queryRealizedPnl, sumPnl, closedSince, realizedSince]
  induction trades with
  | nil => rfl
  | cons t trades ih =>
    rw [List.map_cons, List.sum_cons, ← ih, List.filter_cons]
    have hexit : t.exitTime.any (boundary ≤ ·) = true ↔ ∃ exit ∈ t.exitTime, boundary ≤ exit := by
      cases t.exitTime <;> simp
    by_cases ht : t.accountId = a ∧ t.status = "closed" ∧ ∃ exit ∈ t.exitTime, boundary ≤ exit
    · rw [if_pos ht, if_pos (by simpa only [hexit, decide_eq_true_eq] using ht)]
      cases hpnl : t.pnlDollars with
      | none => simp [hpnl]
      | some pnl => simp [hpnl]
    · rw [if_neg ht, if_neg (by simpa only [hexit, decide_eq_true_eq] using ht), zero_add]

/-- With a risk manager the realized and the unrealized P&L are written,
also when the copy in Redis fails. -/
theorem dailyPnl_recovered_of_manager {r : RiskRegistry} {st : RiskState}
    (hm : r.managers a = some st) (now : ℤ) (trades : List TradeRecord)
    (tracker : Option PnLTracker) (save : WriteReply) (expire : Option String) :
    (recovered c r a snapshotDailyPnl now trades tracker balance save expire).dailyPnl a =
      realizedSince a (getDayBoundary c a now) trades + getUnrealizedPnl tracker := by
  simp only [recovered, RecoveredBooks.dailyPnl, applyRecalculation, recalculateDailyPnl,
    updateRiskState, RiskRegistry.getRiskState, hm, RiskRegistry.riskState,
    RiskRegistry.saveRiskState_managers, Function.update_self, Option.getD_some, query_eq]
  split <;> rfl

/-- Without one nothing is written. -/
theorem dailyPnl_recovered_of_none {r : RiskRegistry} (hm : r.managers a = none) (now : ℤ)
    (trades : List TradeRecord) (tracker : Option PnLTracker) (save : WriteReply)
    (expire : Option String) :
    (recovered c r a snapshotDailyPnl now trades tracker balance save expire).dailyPnl a =
      ((r.stored a).getD {}).dailyPnl := by
  simp only [recovered, RecoveredBooks.dailyPnl, applyRecalculation, recalculateDailyPnl,
    updateRiskState, RiskRegistry.getRiskState, hm, RiskRegistry.riskState, Option.getD_none]

/-- When the recalculation leaves the right value behind, if the trading day
started at `dayStart`: the open positions are worth what the query misses
by its own boundary, or there is no manager to write to and Redis has the
realized P&L. -/
def LeavesRealized (c : SessionSources) (r : RiskRegistry) (a : String) (now dayStart : ℤ)
    (trades : List TradeRecord) (tracker : Option PnLTracker) : Prop :=
  match r.managers a with
  | some _ =>
    getUnrealizedPnl tracker =
      realizedSince a dayStart trades - realizedSince a (getDayBoundary c a now) trades
  | none => ((r.stored a).getD {}).dailyPnl = realizedSince a dayStart trades

/-- The sources of an account without a firm: its day is that of UTC. -/
def utcSources : SessionSources := { zoneInfo := fun _ => ZoneTable.utc.zone }

theorem utcSources_dayStart {now dayStart : ℤ}
    (h : getDayBoundary utcSources "ftmo-001" now = dayStart) :
    (resolveSession utcSources "ftmo-001").IsDayStart utcSources.zoneInfo now dayStart := by
  subst h
  exact @SessionConfig.isDayStart_of_clear (fun _ => .utc) _
    (SessionConfig.clearResets_fixed rfl) now

/-- One lot bought at 100 and marked at 150, when the engine crashed. -/
def profitTracker : PnLTracker :=
  ((PnLTracker.init "ftmo-001" 100000).record orderA
    { orderId := "a", status := .filled, fillPrice := some 100 }).onTick "XAUUSD" 150 151

end DailyPnLRecalculator

end TdSandboxed
