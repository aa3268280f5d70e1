/-
TdSandboxed.Orders.ExecutionTheorems — how calls end, and what the tracker
knows afterwards.

A call is settled when its order is in a terminal state, and for a call
that raises in ERROR, with a reason, while the exception that propagates is
the one that occurred. The tracker agrees with the broker when its position
under every key is the net volume reported.

`settled_of_regular` says that both hold in every interleaving of calls
whose steps are `Regular`. What a step must avoid is listed there, case by
case; `second_entry_unsettled` breaks both with two entries in a row.
-/
import Mathlib.Tactic.Ring
import TdSandboxed.Orders.ExecutionService

namespace TdSandboxed

open Lib Lib.TaskSystem

namespace ExecutionCall

/-- How a call is to end. -/
def Settled (c : ExecutionCall) : Prop :=
  match c.phase with
  | .finished (some o) none _ => o.state.isTerminal
  | .finished (some o) (some x) original =>
    o.state = .error ∧ o.rejectionReason.isSome ∧ original = some x
  | .finished none raised original => original = raised
  | _ => True

/-- The steps that keep calls settled and the tracker right: order ids are
new; a result is no partial fill; an entry fills where there is no
position, and a close fills where there is one of the other side and of
the order's volume; a send that raises or times out filled nothing; no
audit write fails; and no call is cancelled once it has started. -/
def Regular (s : ExecutionState) (_i : ℕ) (c : ExecutionCall) (e : ExecutionEvent) : Prop :=
  match c.phase, e with
  | .created, .start orderId => orderId ∉ s.shared.pendingOrderIds
  | .sending o, .reply r _ =>
    r.status ≠ .partiallyFilled ∧
      (r.isFilled →
        if o.isCloseOrder then
          ∃ p ∈ s.shared.positions.positions o.key, p.side ≠ o.action ∧ p.quantity = o.volume
        else s.shared.positions.positions o.key = none)
  | .sending _, .timeout executed | .sending _, .fail _ executed => executed = 0
  | .sending _, .cancel _ | .auditing _, .auditFail _ | .auditing _, .cancel _ => False
  | _, _ => True

instance (s : ExecutionState) (i : ℕ) (c : ExecutionCall) (e : ExecutionEvent) :
    Decidable (Regular s i c e) := by
  unfold Regular
  split <;> infer_instance

/-- What is known of a call under way. -/
def Orderly (c : ExecutionCall) : Prop :=
  match c.phase with
  | .sending o => o.state = .submitted
  | .auditing o => o.state = .filled
  | _ => c.Settled

end ExecutionCall

namespace ExecutionService

/-- The tracker has what the broker reported, under every key. -/
def Agrees (s : ExecutionService) : Prop := ∀ key, s.positions.net key = s.reported key

@[simp] theorem discard_positions (s : ExecutionService) (o : InternalOrder) :
    (s.discard o).positions = s.positions := rfl

@[simp] theorem discard_reported (s : ExecutionService) (o : InternalOrder) :
    (s.discard o).reported = s.reported := rfl

@[simp] theorem report_positions (s : ExecutionService) (o : InternalOrder) (v : ℚ) :
    (s.report o v).positions = s.positions := rfl

theorem report_reported (s : ExecutionService) (o : InternalOrder) (v : ℚ) (key : String × String) :
    (s.report o v).reported key =
      s.reported key + if key = o.key then o.action.sign * v else 0 := by
  by_cases hk : key = o.key
  · subst hk
    simp [report]
  · simp [report, hk]

theorem Agrees.discard {s : ExecutionService} (h : s.Agrees) (o : InternalOrder) :
    (s.discard o).Agrees := h

/-- A report of nothing changes nothing. -/
theorem Agrees.report_zero {s : ExecutionService} (h : s.Agrees) (o : InternalOrder) :
    (s.report o 0).Agrees := by
  intro key
  rw [report_reported, report_positions, h key]
  simp

end ExecutionService

namespace ExecutionCall

variable {audit : Bool} {s : ExecutionService} {c : ExecutionCall} {o : InternalOrder}
  {r : OrderResult}

/-! ## Ends -/

theorem transitionTo_of_can {target : OrderState} (h : o.state.canTransitionTo target) :
    o.transitionTo target = .ok { o with state := target } := by
  simp [InternalOrder.transitionTo, h]

/-- An exception before the fill settles the call. -/
theorem orderly_onException (h : o.state.canTransitionTo .error) (reason : String)
    (x : ExecutionError) : (c.onException o reason x).Orderly := by
  simp only [onException, transitionTo_of_can h]
  exact ⟨rfl, rfl, rfl⟩

theorem orderly_returned (h : o.state.isTerminal) :
    (c.goto (.finished (some o) none none)).Orderly := h

/-! ## Steps -/

theorem orderly_begin (c : ExecutionCall) {orderId : String} (hnew : orderId ∉ s.pendingOrderIds) :
    (c.begin s orderId).2.Orderly ∧ (c.begin s orderId).1.positions = s.positions ∧
      (c.begin s orderId).1.reported = s.reported := by
  unfold begin
  cases hcreate : s.createOrder c.request orderId with
  | error x => exact ⟨rfl, rfl, rfl⟩
  | ok o =>
    have hfresh : o.state = .pending ∧ o.orderId = orderId := by
      unfold ExecutionService.createOrder at hcreate
      split at hcreate
      · split at hcreate
        · cases hcreate
        · obtain rfl := Except.ok.inj hcreate
          exact ⟨rfl, rfl⟩
      · obtain rfl := Except.ok.inj hcreate
        exact ⟨rfl, rfl⟩
      all_goals
        obtain rfl := Except.ok.inj hcreate
        exact ⟨rfl, rfl⟩
    have hsubmit : o.state.canTransitionTo .submitted := by
      rw [hfresh.1]
      rfl
    have hnew' : o.orderId ∉ s.pendingOrderIds := hfresh.2 ▸ hnew
    simp only [hnew', if_false, transitionTo_of_can hsubmit]
    cases hz : InternalOrder.zmqOrder { o with state := .submitted } with
    | error text =>
      have hcan : ({ o with state := .submitted } : InternalOrder).state.canTransitionTo .error := rfl
      exact ⟨orderly_onException hcan _ _, rfl, rfl⟩
    | ok z => exact ⟨rfl, rfl, rfl⟩

/-- The fill of an entry where there is no position. -/
theorem entryFill (hagree : s.Agrees) (hnone : s.positions.positions o.key = none) (v : ℚ)
    (hv : v = o.volume) :
    ∃ s', (s.report o v).handleEntryFill audit o = (s', .ok audit) ∧ s'.Agrees := by
  cases hopen : s.positions.openPosition o with
  | error x => simp [PositionTracker.openPosition, hnone] at hopen
  | ok positions =>
    refine ⟨{ s.report o v with positions }, ?_, ?_⟩
    · simp [ExecutionService.handleEntryFill, hopen]
    · intro key
      have hnet := PositionTracker.net_openPosition hopen key
      have hrep := ExecutionService.report_reported s o v key
      rw [hv] at hrep
      simp only [hnet, hagree key]
      rw [hv, hrep]
      rfl

/-- The fill of a close of a whole position. -/
theorem closeFill (hagree : s.Agrees) {p : TrackedPosition}
    (hp : s.positions.positions o.key = some p) (hside : p.side ≠ o.action)
    (hq : p.quantity = o.volume) (v : ℚ) (hv : v = o.volume) :
    ∃ s', (s.report o v).handleCloseFill audit o = (s', .ok audit) ∧ s'.Agrees := by
  refine ⟨{ s.report o v with positions := (s.positions.closePosition o.key).1 }, ?_, ?_⟩
  · simp [ExecutionService.handleCloseFill, PositionTracker.closePosition, hp]
  · intro key
    have hrep := ExecutionService.report_reported s o v key
    have hopp : p.side.sign = -o.action.sign := by
      revert hside
      cases p.side <;> cases o.action <;> simp [OrderSide.sign]
    simp only [PositionTracker.net_closePosition]
    rw [hrep, ← hagree key]
    by_cases hk : key = o.key
    · subst hk
      simp only [if_true, PositionTracker.net, hp, hopp, hq, hv]
      ring
    · simp [hk]

/-- A filled result moves the order to FILLED and runs the handler of its
kind. -/
theorem handleResult_filled (hr : r.isFilled) (ho : o.state = .submitted) :
    s.handleResult audit o r =
      let o' := { o with state := .filled, fillPrice := r.fillPrice, filledQuantity := o.volume }
      let p := if o.isCloseOrder then s.handleCloseFill audit o' else s.handleEntryFill audit o'
      (p.1, o', p.2) := by
  have hcan : o.state.canTransitionTo .filled := by
    rw [ho]
    rfl
  simp only [ExecutionService.handleResult, hr, if_true, transitionTo_of_can hcan]
  rfl

/-- **A reply of a regular step** leaves the call settled or waiting for
its audit row, and the tracker right. -/
theorem orderly_reply (hagree : s.Agrees) (ho : o.state = .submitted) {executed : ℚ}
    (hwhole : r.status ≠ .partiallyFilled)
    (hfill : r.isFilled →
      if o.isCloseOrder then
        ∃ p ∈ s.positions.positions o.key, p.side ≠ o.action ∧ p.quantity = o.volume
      else s.positions.positions o.key = none) :
    let p := (s.report o (ExecutionService.reportedVolume o r executed)).handleResult audit o r
    (c.resume p.1 p.2.1 p.2.2).1.Agrees ∧ (c.resume p.1 p.2.1 p.2.2).2.Orderly := by
  by_cases hr : r.isFilled
  · have hvol : ExecutionService.reportedVolume o r executed = o.volume := by
      simp [ExecutionService.reportedVolume, hr]
    rw [hvol, handleResult_filled hr ho]
    let o' : InternalOrder :=
      { o with state := .filled, fillPrice := r.fillPrice, filledQuantity := o.volume }
    have hdone : ∃ s', (if o.isCloseOrder then (s.report o o.volume).handleCloseFill audit o'
        else (s.report o o.volume).handleEntryFill audit o') = (s', .ok audit) ∧ s'.Agrees := by
      have hkind := hfill hr
      by_cases hclose : o.isCloseOrder
      · rw [if_pos hclose] at hkind ⊢
        obtain ⟨p, hp, hside, hq⟩ := hkind
        exact closeFill (o := o') hagree hp hside hq _ rfl
      · rw [if_neg hclose] at hkind ⊢
        exact entryFill (o := o') hagree hkind _ rfl
    obtain ⟨s', heq, hagree'⟩ := hdone
    simp only [o'] at heq
    simp only [heq]
    cases audit with
    | true => exact ⟨hagree', rfl⟩
    | false => exact ⟨hagree', orderly_returned rfl⟩
  · have hrej : r.isRejected := by
      have hne : r.status ≠ .filled := by simpa [OrderResult.isFilled] using hr
      revert hwhole hne
      simp only [OrderResult.isRejected, decide_eq_true_eq]
      cases r.status <;> simp
    have hcan : o.state.canTransitionTo .rejected := by
      rw [ho]
      rfl
    have hvol : ExecutionService.reportedVolume o r executed = 0 := by
      simp [ExecutionService.reportedVolume, hr, hrej]
    simp only [hvol, ExecutionService.handleResult, hr, hrej, if_true, transitionTo_of_can hcan,
      Bool.false_eq_true, if_false, resume]
    exact ⟨hagree.report_zero o, orderly_returned rfl⟩

/-- **Step.** A regular step of a call keeps the tracker right and the call
orderly. -/
theorem orderly_step {st : ExecutionState} {i : ℕ} {e : ExecutionEvent} {s' : ExecutionService}
    {c' : ExecutionCall} (hagree : st.shared.Agrees) (hc : c.Orderly) (hok : Regular st i c e)
    (hs : step audit st.shared i c e = some (s', c')) : s'.Agrees ∧ c'.Orderly := by
  obtain ⟨request, phase⟩ := c
  cases phase with
  | created =>
    cases e with
    | start orderId =>
      obtain ⟨hord, hpos, hrep⟩ := orderly_begin { request, phase := .created } hok
      have hpair : begin st.shared { request, phase := .created } orderId = (s', c') :=
        Option.some.inj hs
      rw [hpair] at hord hpos hrep
      refine ⟨fun key => ?_, hord⟩
      dsimp only at hpos hrep
      rw [hpos, hrep]
      exact hagree key
    | cancel executed =>
      obtain ⟨rfl, rfl⟩ := Prod.mk.inj (Option.some.inj hs)
      exact ⟨hagree, rfl⟩
    | _ => simp [step] at hs
  | sending o =>
    have ho : o.state = .submitted := hc
    have hcan : o.state.canTransitionTo .error := by
      rw [ho]
      rfl
    cases e with
    | reply r executed =>
      obtain ⟨rfl, rfl⟩ := Prod.mk.inj (Option.some.inj hs)
      exact orderly_reply hagree ho hok.1 hok.2
    | timeout executed =>
      obtain rfl : executed = 0 := hok
      obtain ⟨rfl, rfl⟩ := Prod.mk.inj (Option.some.inj hs)
      exact ⟨(hagree.report_zero o).discard o, orderly_onException hcan _ _⟩
    | fail text executed =>
      obtain rfl : executed = 0 := hok
      obtain ⟨rfl, rfl⟩ := Prod.mk.inj (Option.some.inj hs)
      exact ⟨(hagree.report_zero o).discard o, orderly_onException hcan _ _⟩
    | cancel executed => exact hok.elim
    | _ => simp [step] at hs
  | auditing o =>
    have ho : o.state = .filled := hc
    cases e with
    | audited =>
      obtain ⟨rfl, rfl⟩ := Prod.mk.inj (Option.some.inj hs)
      refine ⟨hagree.discard o, orderly_returned ?_⟩
      rw [ho]
      rfl
    | auditFail text => exact hok.elim
    | cancel executed => exact hok.elim
    | _ => simp [step] at hs
  | finished order raised original => simp [step] at hs

theorem Orderly.settled (h : c.Orderly) : c.Settled := by
  obtain ⟨request, phase⟩ := c
  cases phase with
  | created => trivial
  | sending o => trivial
  | auditing o => trivial
  | finished order raised original => exact h

/-- **Run.** In every interleaving of calls whose steps are regular, every
call that has ended is settled, and the tracker has what the broker
reported. -/
theorem settled_of_regular {es : List ExecutionSystemEvent} {st : ExecutionState}
    (h : RunWhere (executionSystem audit).step (OnTask Regular) { shared := {}, tasks := [] } es st) :
    (∀ c ∈ st.tasks, c.Settled) ∧ st.shared.Agrees := by
  have hinv := h.invariant_state (fun st => st.shared.Agrees ∧ AllTasks (fun _ _ c => Orderly c) st)
    ⟨fun _ => rfl, fun i c hc => by simp at hc⟩ ?_
  · refine ⟨fun c hc => ?_, hinv.1⟩
    obtain ⟨i, hi⟩ := List.mem_iff_getElem?.mp hc
    exact (hinv.2 i c hi).settled
  · rintro st e st' ⟨hagree, hall⟩ hok hs
    refine ⟨?_, hall.step (S := executionSystem audit) (fun a _ => trivial) ?_
      (fun d => nomatch d) hs⟩
    · rcases step_cases hs with ⟨a, rfl, rfl⟩ | ⟨i, d, c, sh, c', rfl, hc, hd, rfl⟩ | ⟨d, _⟩
      · exact hagree
      · exact (orderly_step hagree (hall i c hc) (hok c hc) hd).1
      · exact nomatch d
    · rintro i d c sh c' rfl hc hd -
      exact ⟨(orderly_step hagree (hall i c hc) (hok c hc) hd).2, fun j b _ _ hb => hb⟩

/-- A request for one lot of gold. -/
def goldSignal (signalType : SignalType) : SignalRequest :=
  { signalType, symbol := "XAUUSD", accountId := "ftmo-001", volume := 1, price := 100 }

/-- A result at 100. -/
def goldResult (status : OrderStatus) : OrderResult :=
  { orderId := "a", status, fillPrice := some 100 }

/-- An entry and its close, one after the other, while a second close is
refused and another entry is rejected. -/
theorem settled_of_regular_close :
    ∃ st : ExecutionState, (∀ c ∈ st.tasks, c.Settled) ∧ st.shared.Agrees ∧ st.tasks.length = 4 := by
  obtain ⟨st, hrun, hst⟩ := RunWhere.exists_of_checked (executionSystem true).step (OnTask Regular)
    { shared := {}, tasks := [] }
    [.spawn (goldSignal .close), .task 0 (.start "a"), .spawn (goldSignal .buy), .task 1 (.start "b"),
      .task 1 (.reply (goldResult .filled) 0), .task 1 .audited, .spawn (goldSignal .close),
      .task 2 (.start "c"), .spawn (goldSignal .sell), .task 3 (.start "d"),
      .task 3 (.reply (goldResult .rejected) 0), .task 2 (.reply (goldResult .filled) 0),
      .task 2 .audited]
    (fun st => st.tasks.length = 4) (by decide +kernel) (by decide +kernel)
  obtain ⟨hcalls, hagree⟩ := settled_of_regular hrun
  exact ⟨st, hcalls, hagree, by simpa using hst⟩

/-- Two entries in a row: the second order stays FILLED without a reason,
what propagates is the failed transition, and the tracker has one lot where
the broker reported two. -/
theorem second_entry_unsettled :
    ∃ st : ExecutionState, Run (executionSystem true).step { shared := {}, tasks := [] }
      [.spawn (goldSignal .buy), .task 0 (.start "a"), .task 0 (.reply (goldResult .filled) 0),
        .task 0 .audited, .spawn (goldSignal .buy), .task 1 (.start "b"),
        .task 1 (.reply (goldResult .filled) 0)] st ∧
      (∃ o original, st.tasks[1]?.map ExecutionCall.phase = some (.finished (some o)
          (some (.exception "Invalid state transition: filled -> error")) (some original)) ∧
        o.state = .filled ∧ o.rejectionReason = none ∧
        original ≠ .exception "Invalid state transition: filled -> error") ∧
      st.shared.positions.net ("ftmo-001", "XAUUSD") = 1 ∧
      st.shared.reported ("ftmo-001", "XAUUSD") = 2 := by
  refine ⟨_, .of_exec rfl, ⟨_, _, rfl, rfl, rfl, ?_⟩, ?_, ?_⟩
  · decide +kernel
  · decide +kernel
  · decide +kernel

end ExecutionCall

end TdSandboxed
