/-
TdSandboxed.Execution.ReservationTheorems — where the lots on the
reservation counter are.

A call holds its lots on the counter from the moment the server executes
`atomic_reserve` until it executes `atomic_release` (`Phase.held`). Two
kinds of steps take the hold away without a release: `reserve` raises or
is cancelled after its script ran, and `release` raises or is cancelled
before its script ran. Both are handled on purpose ("counter may drift
until TTL expires"); the lots are orphaned.

`Call.counter_step` is the one fact about a step: the counter moves by
what the call's hold moves by, plus what the step orphans. Everything
about runs follows from it by the ledger rule.
-/
import Mathlib.Tactic.Linarith
import TdSandboxed.Execution.ValidatedAdapterSteps

namespace TdSandboxed

open Lib Lib.TaskSystem

/-! ## Counters and lots of updated books -/

namespace Shared

variable (sh : Shared) (a b : String)

theorem counter_setReserved (raw : Option ℚ) :
    (sh.setReserved b raw).books.counter a = if a = b then reservedLots raw else sh.books.counter a := by
  simp only [setReserved, Books.setReserved, Books.counter, Function.update_apply]
  split <;> rfl

@[simp] theorem counter_setTracker (t : PnLTracker) :
    (sh.setTracker b t).books.counter a = sh.books.counter a := rfl

@[simp] theorem counter_setRisk (rs : RiskState) :
    (sh.setRisk b rs).books.counter a = sh.books.counter a := rfl

@[simp] theorem lots_setReserved (raw : Option ℚ) :
    (sh.setReserved b raw).books.lots a = sh.books.lots a := rfl

@[simp] theorem lots_setRisk (rs : RiskState) :
    (sh.setRisk b rs).books.lots a = sh.books.lots a := rfl

theorem lots_setTracker (t : PnLTracker) :
    (sh.setTracker b t).books.lots a = if a = b then t.lots else sh.books.lots a := by
  simp only [setTracker, Books.setTracker, Books.lots, Function.update_apply]
  split <;> rfl

end Shared

/-! ## Holds and orphans -/

/-- The lots of account `a` that a call holds on the counter. -/
def Call.heldLots (a : String) (c : Call) : ℚ :=
  if c.order.accountId = a ∧ c.phase.held then c.order.volume else 0

/-- The event ends the call's hold without executing the release script:
the reply of an accepted reservation is lost, or a release is. -/
def Call.orphans (c : Call) : CallEvent → Bool
  | .fail _ | .cancel =>
    match c.phase with
    | .reserved _ res => res.accepted
    | .releasing _ => true
    | _ => false
  | _ => false

/-- The lots of account `a` that an event orphans. -/
def orphanedLots (a : String) (s : AdapterState) : AdapterEvent → ℚ
  | .task i e =>
    match s.tasks[i]? with
    | some c => if c.order.accountId = a ∧ c.orphans e then c.order.volume else 0
    | none => 0
  | _ => 0

namespace Call

variable {w : Wiring} {sh sh' : Shared} {i : ℕ} {c c' : Call} {e : CallEvent} {a : String}

theorem heldLots_nonneg (a : String) (c : Call) : 0 ≤ heldLots a c := by
  unfold heldLots
  split
  · exact c.order.volume_pos.le
  · exact le_refl 0

theorem Moves.order_eq (h : Moves w sh i c e sh' c') : c'.order = c.order := by
  cases h <;> rfl

/-- **The counter moves by what the hold moves by, plus what is orphaned.** -/
theorem counter_step (h : Moves w sh i c e sh' c') (hle : heldLots a c ≤ sh.books.counter a) :
    sh'.books.counter a = sh.books.counter a + (heldLots a c' - heldLots a c) +
      if c.order.accountId = a ∧ c.orphans e then c.order.volume else 0 := by
  by_cases ha : c.order.accountId = a
  · subst ha
    cases h with
    | toGate hp _ hg => rcases hg with ⟨-, rfl⟩ | ⟨-, rfl⟩ <;> simp [heldLots, hp, orphans]
    | ungated hp => simp [heldLots, hp, orphans, hand]
    | reserve hp =>
      rw [Shared.counter_setReserved, if_pos rfl, reservedLots_atomicReserve]
      simp [heldLots, hp, orphans, Books.counter]
    | readCounter hp hres => simp [heldLots, hp, orphans, hres]
    | admitted hp hres => simp [heldLots, hp, orphans, hand, hres]
    | gateFailed hg =>
      cases hp : c.phase <;> simp_all [heldLots, orphans, hand]
    | blocked hp => simp [heldLots, hp, orphans]
    | rejected hp hres => simp [heldLots, hp, orphans, hres]
    | gateCancelled hg =>
      cases hp : c.phase <;> simp_all [heldLots, orphans]
    | sent hp => simp [heldLots, hp, orphans]
    | unsent hp he => rcases he with ⟨s, rfl, -⟩ | ⟨rfl, -⟩ <;> simp [heldLots, hp, orphans]
    | timedOut hp => simp [heldLots, hp, orphans]
    | waitCancelled hp => simp [heldLots, hp, orphans]
    | recordFill hp => simp [heldLots, hp, orphans, record]
    | loadBalance hp => simp [heldLots, hp, orphans]
    | noTracker hp => simp [heldLots, hp, orphans]
    | untold hp => simp [heldLots, hp, orphans]
    | createTracker hp => simp [heldLots, hp, orphans, record]
    | equityLoaded hp => simp [heldLots, hp, orphans]
    | balanceNext hp => simp [heldLots, hp, orphans]
    | kept hp => rcases hp with hp | hp <;> simp [heldLots, hp, orphans]
    | trackerFailed hk hh he =>
      rcases he with ⟨s, rfl, -⟩ | ⟨rfl, -⟩ <;> cases hp : c.phase <;>
        simp_all [heldLots, orphans]
    | release hp =>
      have hvol : c.order.volume ≤ reservedLots (sh.books.reserved c.order.accountId) := by
        simpa [heldLots, hp, Books.counter] using hle
      rw [Shared.counter_setReserved, if_pos rfl, reservedLots_atomicRelease_of_le hvol]
      simp [heldLots, hp, orphans, Books.counter, sub_eq_add_neg]
    | settled hp =>
      rcases hp with ⟨hp, rfl⟩ | ⟨hp | hp, x, rfl⟩ <;> simp [heldLots, hp, orphans]
    | releaseCancelled hp => rcases hp with hp | hp <;> simp [heldLots, hp, orphans]
  · have hother : sh'.books.counter a = sh.books.counter a := by
      cases h <;> first | rfl | simp [Shared.counter_setReserved, Ne.symm ha]
    simp [hother, heldLots, h.order_eq, ha]

end Call

/-! ## Runs -/

variable {w : Wiring} {a : String} {s s₀ t : AdapterState} {es : List AdapterEvent}

/-- The surroundings move neither a counter nor what a tracker holds. -/
theorem envStep_books {sh sh' : Shared} {e : EnvEvent} (h : envStep sh e = some sh') (a : String) :
    sh'.books.counter a = sh.books.counter a ∧ sh'.books.lots a = sh.books.lots a := by
  cases e with
  | orderResult r =>
    obtain rfl := Option.some.inj h
    exact ⟨rfl, rfl⟩
  | riskState b rs =>
    obtain rfl := Option.some.inj h
    exact ⟨rfl, rfl⟩
  | tick b symbol bid ask =>
    simp only [envStep] at h
    cases ht : sh.books.pnl b with
    | none =>
      simp only [ht, Option.some.injEq] at h
      exact h ▸ ⟨rfl, rfl⟩
    | some t =>
      simp only [ht, Option.some.injEq] at h
      subst h
      refine ⟨rfl, ?_⟩
      rw [Shared.lots_setTracker]
      split
      · rename_i hab
        simp [hab, Books.lots, ht]
      · rfl

theorem counter_system_step {e : AdapterEvent} (h : (adapterSystem w).step s e = some t)
    (hle : total (Call.heldLots a) s.tasks ≤ s.shared.books.counter a) :
    t.shared.books.counter a = s.shared.books.counter a +
      (total (Call.heldLots a) t.tasks - total (Call.heldLots a) s.tasks) + orphanedLots a s e := by
  rcases step_cases h with ⟨o, rfl, rfl⟩ | ⟨i, d, c, sh, c', rfl, hc, hd, rfl⟩ | ⟨d, sh, rfl, hd, rfl⟩
  · simp [orphanedLots, adapterSystem, Call.heldLots]
  · have hcle := (le_total (Call.heldLots_nonneg a) hc).trans hle
    have hstep := Call.counter_step (a := a) (Call.moves hd) hcle
    simp only [orphanedLots, hc, total_task _ hc c', hstep]
    ring
  · simp [orphanedLots, (envStep_books hd a).1]

theorem orphanedLots_nonneg (a : String) (s : AdapterState) (e : AdapterEvent) :
    0 ≤ orphanedLots a s e := by
  unfold orphanedLots
  split
  · split
    · rename_i c _
      split
      · exact c.order.volume_pos.le
      · exact le_refl 0
    · exact le_refl 0
  · exact le_refl 0

theorem observe_sum_nonneg (a : String) (s₀ : AdapterState) (es : List AdapterEvent) :
    0 ≤ (observe (adapterSystem w).step (orphanedLots a) s₀ es).sum := by
  induction es generalizing s₀ with
  | nil => simp [observe]
  | cons e es ih =>
    simp only [observe]
    cases (adapterSystem w).step s₀ e with
    | none => simp
    | some u => simpa using add_nonneg (orphanedLots_nonneg a s₀ e) (ih u)

/-- **Conservation.** What the counter gained since an idle state is what
the calls hold plus what was orphaned. -/
theorem counter_eq (h₀ : s₀.tasks = []) (hc₀ : 0 ≤ s₀.shared.books.counter a)
    (h : Run (adapterSystem w).step s₀ es s) :
    s.shared.books.counter a = s₀.shared.books.counter a + total (Call.heldLots a) s.tasks +
      (observe (adapterSystem w).step (orphanedLots a) s₀ es).sum := by
  refine h.invariant (fun es s => s.shared.books.counter a = s₀.shared.books.counter a +
    total (Call.heldLots a) s.tasks + (observe (adapterSystem w).step (orphanedLots a) s₀ es).sum)
    ?_ ?_
  · simp [h₀, observe]
  · intro es t e u hr hi _ hstep
    have horph := observe_sum_nonneg (w := w) a s₀ es
    have hmove := counter_system_step (a := a) hstep (by linarith)
    rw [observe_snoc _ hr.exec_eq hstep, List.sum_append, List.sum_singleton]
    linarith

theorem total_heldLots_eq_zero (hfin : ∀ c ∈ s.tasks, c.phase.isFinished) :
    total (Call.heldLots a) s.tasks = 0 := by
  rw [total_congr (w := fun _ => (0 : ℚ)) fun c hc => ?_]
  · simp [total]
  · have := hfin c hc
    cases hp : c.phase <;> simp_all [Phase.isFinished, Call.heldLots]

/-- **Where the reserved lots are.** After any run from an idle account
the counter is what the calls hold plus what was orphaned; with no call in
flight it is what was orphaned; and when no Redis call failed midway every
accepted reservation is released exactly once. -/
theorem counter_eq_held_add_orphaned (h₀ : Idle s₀) (hc₀ : s₀.shared.books.counter a = 0)
    (h : Run (adapterSystem w).step s₀ es s) :
    s.shared.books.counter a = total (Call.heldLots a) s.tasks +
        (observe (adapterSystem w).step (orphanedLots a) s₀ es).sum ∧
      ((∀ c ∈ s.tasks, c.phase.isFinished) → s.shared.books.counter a =
        (observe (adapterSystem w).step (orphanedLots a) s₀ es).sum) ∧
      (RunWhere (adapterSystem w).step (fun s e => orphanedLots a s e = 0) s₀ es s →
        s.shared.books.counter a = total (Call.heldLots a) s.tasks ∧
          ((∀ c ∈ s.tasks, c.phase.isFinished) → s.shared.books.counter a = 0)) := by
  have hall : s.shared.books.counter a = total (Call.heldLots a) s.tasks +
      (observe (adapterSystem w).step (orphanedLots a) s₀ es).sum := by
    rw [counter_eq h₀.1 hc₀.ge h, hc₀, zero_add]
  refine ⟨hall, fun hfin => ?_, fun hno => ⟨?_, fun hfin => ?_⟩⟩
  · rw [hall, total_heldLots_eq_zero hfin, zero_add]
  · rw [hall, observe_sum_eq_zero _ hno, add_zero]
  · rw [hall, observe_sum_eq_zero _ hno, total_heldLots_eq_zero hfin, add_zero]

/-! ## A reservation that is never released -/

/-- No rules, and the gate engaged with the ceiling `m`. -/
def gatedWiring (m : ℚ) : Wiring :=
  { validator := { ruleEngine := .init "desk" [] }
    reservation := some {}
    maxLotsProvider := some fun _ _ => some m }

def emptyState : AdapterState := { shared := {}, tasks := [] }

/-- The call is cancelled between the execution of `atomic_reserve` and its
reply: nobody is in flight, and the lot stays on the counter. -/
theorem counter_ne_held :
    ¬ ∀ (w : Wiring) (a : String) (s₀ s : AdapterState) (es : List AdapterEvent),
      Idle s₀ → s₀.shared.books.counter a = 0 → Run (adapterSystem w).step s₀ es s →
      s.shared.books.counter a = total (Call.heldLots a) s.tasks ∧
        ((∀ c ∈ s.tasks, c.phase.isFinished) → s.shared.books.counter a = 0) := by
  intro hall
  obtain ⟨t, hrun, ht⟩ := Run.exists_of_exec
    (adapterSystem (gatedWiring 1)).step emptyState
    [.spawn (goldOrder "a"), .task 0 (.start 0), .task 0 .script, .task 0 .cancel]
    (fun t => decide (t.tasks.all (fun c => c.phase.isFinished) ∧
      t.shared.books.counter "ftmo-001" = 1)) (by decide +kernel)
  simp only [decide_eq_true_eq, List.all_eq_true] at ht
  have hzero := (hall _ "ftmo-001" _ _ _ ⟨rfl, rfl⟩ rfl hrun).2 ht.1
  simp [ht.2] at hzero

/-- A call that waits for its result holds its lot. -/
theorem counter_eq_held_add_orphaned_waiting :
    ∃ t : AdapterState, t.shared.books.counter "ftmo-001" = 1 ∧
      t.shared.books.counter "ftmo-001" = total (Call.heldLots "ftmo-001") t.tasks +
        (observe (adapterSystem (gatedWiring 1)).step (orphanedLots "ftmo-001") emptyState
          [.spawn (goldOrder "a"), .task 0 (.start 0), .task 0 .script, .task 0 .reply]).sum := by
  obtain ⟨t, hrun, ht⟩ := Run.exists_of_exec
    (adapterSystem (gatedWiring 1)).step emptyState
    [.spawn (goldOrder "a"), .task 0 (.start 0), .task 0 .script, .task 0 .reply]
    (fun t => decide (t.shared.books.counter "ftmo-001" = 1)) (by decide +kernel)
  exact ⟨t, by simpa using ht, (counter_eq_held_add_orphaned ⟨rfl, rfl⟩ rfl hrun).1⟩

end TdSandboxed
