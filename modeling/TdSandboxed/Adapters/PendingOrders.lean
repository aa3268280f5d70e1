/-
TdSandboxed.Adapters.PendingOrders — any number of `send_order_and_wait`
calls over one adapter (`adapters/zmq_adapter.py`).

A call puts its future into `_pending_orders`, awaits the publish and then
the future. The receive loop takes an entry out when a result arrives; the
call takes it out only in its `except asyncio.TimeoutError`. Graceful
shutdown counts the entries.

`Exact` is what the count is trusted for: the entries are the calls that
wait. `keeps_iff` says for each step exactly when it keeps that.

A call that times out is one step here: `wait_for` cancels the future and
the entry goes.
-/
import TdSandboxed.Adapters.ZmqAdapter
import TdSandboxed.Lib.TaskSystem

namespace TdSandboxed.ZmqAdapter

open Lib

/-! ## Calls -/

inductive WaitOutcome
  | returned (r : OrderResult)
  | timeoutError
  | cancelled
  /-- What `send_order` raised. -/
  | raised
  deriving DecidableEq

inductive WaitPhase
  /-- Created, not started. -/
  | created
  /-- `await self.send_order(order)`. -/
  | sending
  /-- `await asyncio.wait_for(future, timeout)`. -/
  | awaiting
  | finished (out : WaitOutcome)
  deriving DecidableEq

/-- A call of `send_order_and_wait`. -/
structure WaitCall where
  order : Order
  phase : WaitPhase := .created
  deriving DecidableEq

inductive WaitEvent
  | start
  /-- The publish is done. -/
  | published
  /-- `send_order` raises; `timeoutError`: an `asyncio.TimeoutError`. -/
  | fails (timeoutError : Bool)
  /-- The future has its result. -/
  | reply
  | timeout
  | cancel
  deriving DecidableEq

namespace WaitCall

def finish (c : WaitCall) (out : WaitOutcome) : WaitCall := { c with phase := .finished out }

/-- One step of call `i`. -/
def step (z : ZmqAdapter) (i : ℕ) (c : WaitCall) (e : WaitEvent) : Option (ZmqAdapter × WaitCall) :=
  let id := c.order.orderId
  match c.phase, e with
  | .created, .start => some (z.register id i, { c with phase := .sending })
  | .created, .cancel => some (z, c.finish .cancelled)
  | .sending, .published => some (z, { c with phase := .awaiting })
  | .sending, .fails true => some (z.pop id, c.finish .timeoutError)
  | .sending, .fails false => some (z, c.finish .raised)
  | .sending, .cancel => some (z, c.finish .cancelled)
  | .awaiting, .reply =>
    match z.futures i with
    | some (.done r) => some (z, c.finish (.returned r))
    | _ => none
  | .awaiting, .timeout => some (z.timeOut id i, c.finish .timeoutError)
  | .awaiting, .cancel => some (z.cancelWait i, c.finish .cancelled)
  | _, _ => none

/-- Suspended at the publish or at the future. -/
def InFlight (c : WaitCall) : Prop := c.phase = .sending ∨ c.phase = .awaiting

/-- Call `i` waits: it is in flight and its future has no result yet. -/
def Waits (z : ZmqAdapter) (i : ℕ) (c : WaitCall) : Prop :=
  c.InFlight ∧ z.futures i = some .pending

/-- What a step of a call can do. -/
theorem step_cases {z z' : ZmqAdapter} {i : ℕ} {c c' : WaitCall} {e : WaitEvent}
    (h : c.step z i e = some (z', c')) :
    (e = .start ∧ c.phase = .created ∧ z' = z.register c.order.orderId i ∧
      c' = { c with phase := .sending }) ∨
    (e = .published ∧ c.phase = .sending ∧ z' = z ∧ c' = { c with phase := .awaiting }) ∨
    (∃ r, e = .reply ∧ z.futures i = some (.done r) ∧ z' = z ∧ c' = c.finish (.returned r)) ∨
    (∃ out, (e = .fails false ∨ e = .cancel) ∧ (z' = z ∨ z' = z.cancelWait i) ∧
      c' = c.finish out) ∨
    (∃ out, (e = .fails true ∨ e = .timeout) ∧
      (z' = z.pop c.order.orderId ∨ z' = z.timeOut c.order.orderId i) ∧ c' = c.finish out) := by
  simp only [step] at h
  split at h
  case h_7 r hphase =>
    split at h
    · simp_all
    · cases h
  case h_10 => cases h
  all_goals
    simp only [Option.some.injEq, Prod.mk.injEq] at h
    obtain ⟨rfl, rfl⟩ := h
    simp_all

end WaitCall

/-- The calls over one adapter; the surroundings are the results that the
receive loop reads. -/
def waitSystem : TaskSystem ZmqAdapter Order WaitCall WaitEvent OrderResult where
  init := fun _ order => { order }
  task := WaitCall.step
  env := fun z r => some (z.orderResult r)

abbrev WaitState := TaskSystem.State ZmqAdapter WaitCall
abbrev WaitSystemEvent := TaskSystem.Event Order WaitEvent OrderResult

/-- No call and no entry. -/
def noCalls : WaitState := { shared := {}, tasks := [] }

/-! ## The entries are the calls that wait -/

/-- Call `i` of the state waits for a result of order `id`. -/
def Waiting (s : WaitState) (i : ℕ) (id : String) : Prop :=
  ∃ c, s.tasks[i]? = some c ∧ c.order.orderId = id ∧ c.Waits s.shared i

/-- What the map of pending orders is trusted for. -/
structure Exact (s : WaitState) : Prop where
  /-- The keys are the order ids of the waiting calls. -/
  keys : ∀ id, s.shared.pendingOrders id ≠ none ↔ ∃ i, Waiting s i id
  /-- A result completes the future of every call that waits for it … -/
  completes : ∀ r i, Waiting s i r.orderId →
    (s.shared.orderResult r).futures i = some (.done r)
  /-- … and no other. -/
  completes_only : ∀ r i, ¬ Waiting s i r.orderId →
    (s.shared.orderResult r).futures i = s.shared.futures i
  /-- No call waits: the map is empty. -/
  empty : (∀ i id, ¬ Waiting s i id) → ∀ id, s.shared.pendingOrders id = none

/-- An entry belongs to a call that waits, and a call that waits has its
entry. -/
def Owned (s : WaitState) : Prop :=
  ∀ id i, s.shared.pendingOrders id = some i ↔ Waiting s i id

theorem Exact.owned {s : WaitState} (h : Exact s) : Owned s := by
  -- the result that tells the calls apart
  let r (id : String) : OrderResult := { orderId := id, status := .filled }
  have howner : ∀ id i, Waiting s i id → s.shared.pendingOrders id = some i := by
    intro id i hw
    have hdone := h.completes (r id) i hw
    rw [futures_orderResult] at hdone
    obtain ⟨c, -, -, -, hpending⟩ := hw
    by_contra hne
    simp [r, hne, hpending] at hdone
  intro id i
  constructor
  · intro hi
    obtain ⟨j, hj⟩ := (h.keys id).mp (by simp [hi])
    obtain rfl : j = i := by simpa [hi] using (howner id j hj).symm
    exact hj
  · exact howner id i

theorem Owned.exact {s : WaitState} (h : Owned s) : Exact s where
  keys := by
    intro id
    rw [Option.ne_none_iff_exists']
    exact exists_congr fun i => h id i
  completes := by
    intro r i hw
    obtain ⟨c, -, -, -, hpending⟩ := id hw
    rw [futures_orderResult, if_pos ⟨(h _ _).mpr hw, hpending⟩]
  completes_only := by
    intro r i hw
    rw [futures_orderResult, if_neg]
    exact fun hmap => hw ((h _ _).mp hmap.1)
  empty := by
    intro hnone id
    rw [Option.eq_none_iff_forall_ne_some]
    exact fun i hi => hnone i id ((h id i).mp hi)

/-! ## What a step does to the waiting calls -/

theorem futures_cancelWait_of_ne (z : ZmqAdapter) {i : ℕ} (j : ℕ) (hj : j ≠ i) :
    (z.cancelWait i).futures j = z.futures j := by
  simp [futures_cancelWait, hj]

section Steps
variable {s : WaitState} {i : ℕ} {c c' : WaitCall} {z : ZmqAdapter}

@[simp] theorem not_waits_finish (z : ZmqAdapter) (i : ℕ) (c : WaitCall) (out : WaitOutcome) :
    ¬ (c.finish out).Waits z i := by
  simp [WaitCall.Waits, WaitCall.InFlight, WaitCall.finish]

theorem waiting_iff (hc : s.tasks[i]? = some c) (id : String) :
    Waiting s i id ↔ c.order.orderId = id ∧ c.Waits s.shared i := by
  constructor
  · intro h
    obtain ⟨d, hd, hid, hw⟩ := h
    obtain rfl : c = d := by simpa [hc] using hd
    exact ⟨hid, hw⟩
  · intro h
    exact ⟨c, hc, h⟩

/-- A step of call `i` leaves the other calls waiting as they were. -/
theorem waiting_task_of_ne (hz : ∀ j, j ≠ i → z.futures j = s.shared.futures j) {j : ℕ}
    (hj : j ≠ i) (id : String) :
    Waiting { shared := z, tasks := s.tasks.set i c' } j id ↔ Waiting s j id := by
  simp only [Waiting, WaitCall.Waits, TaskSystem.getElem?_task_of_ne c' hj, hz j hj]

theorem waiting_task_self (hc : s.tasks[i]? = some c) (ho : c'.order = c.order) (id : String) :
    Waiting { shared := z, tasks := s.tasks.set i c' } i id ↔
      c.order.orderId = id ∧ c'.Waits z i := by
  rw [waiting_iff (TaskSystem.getElem?_task_self hc), ho]

/-- A step that leaves the map alone keeps it exact when the call waits
after it just if it waited before. -/
theorem owned_same_map (h : Owned s) (hc : s.tasks[i]? = some c) (ho : c'.order = c.order)
    (hz : ∀ j, j ≠ i → z.futures j = s.shared.futures j)
    (hmap : z.pendingOrders = s.shared.pendingOrders) :
    Owned { shared := z, tasks := s.tasks.set i c' } ↔ (c'.Waits z i ↔ c.Waits s.shared i) := by
  constructor
  · intro ht
    have hnew := (ht c.order.orderId i).trans (waiting_task_self hc ho _)
    have hold := (h c.order.orderId i).trans (waiting_iff hc _)
    simp only [hmap, true_and] at hnew hold
    exact hnew.symm.trans hold
  · intro hw id j
    rw [hmap, h id j]
    by_cases hj : j = i
    · subst hj
      rw [waiting_iff hc, waiting_task_self hc ho, hw]
    · rw [waiting_task_of_ne hz hj]

/-- A call ends and leaves the map alone: it must not wait. -/
theorem owned_finish (h : Owned s) (hc : s.tasks[i]? = some c) {out : WaitOutcome}
    (hz : ∀ j, j ≠ i → z.futures j = s.shared.futures j)
    (hmap : z.pendingOrders = s.shared.pendingOrders) :
    Owned { shared := z, tasks := s.tasks.set i (c.finish out) } ↔ ¬ c.Waits s.shared i := by
  have ho : (c.finish out).order = c.order := rfl
  rw [owned_same_map h hc ho hz hmap]
  simp

/-- A call starts: its order must have no entry. -/
theorem owned_register (h : Owned s) (hc : s.tasks[i]? = some c) (ho : c'.order = c.order)
    (hnot : ¬ c.Waits s.shared i) (hflight : c'.InFlight) :
    Owned { shared := s.shared.register c.order.orderId i, tasks := s.tasks.set i c' } ↔
      s.shared.pendingOrders c.order.orderId = none := by
  have hz : ∀ j, j ≠ i → (s.shared.register c.order.orderId i).futures j = s.shared.futures j := by
    intro j hj
    rw [futures_register, if_neg hj]
  have hwaits : c'.Waits (s.shared.register c.order.orderId i) i :=
    ⟨hflight, by simp [futures_register]⟩
  constructor
  · intro ht
    rw [Option.eq_none_iff_forall_ne_some]
    intro j hj
    have hw := (h _ _).mp hj
    by_cases hji : j = i
    · subst hji
      exact hnot ((waiting_iff hc _).mp hw).2
    · have hnew := (ht _ _).mpr ((waiting_task_of_ne hz hji _).mpr hw)
      rw [pendingOrders_register, if_pos rfl, Option.some.injEq] at hnew
      exact hji hnew.symm
  · intro hnone id j
    rw [pendingOrders_register]
    by_cases hid : id = c.order.orderId
    · rw [if_pos hid, hid]
      by_cases hj : j = i
      · subst hj
        exact iff_of_true rfl ((waiting_task_self hc ho _).mpr ⟨rfl, hwaits⟩)
      · rw [waiting_task_of_ne hz hj, ← h, hnone]
        simp [Ne.symm hj]
    · rw [if_neg hid, h]
      by_cases hj : j = i
      · subst hj
        rw [waiting_iff hc, waiting_task_self hc ho]
        simp [Ne.symm hid]
      · rw [waiting_task_of_ne hz hj]

/-- A call ends and takes the entry of its order out: that must not be
another call's. -/
theorem owned_pop (h : Owned s) (hc : s.tasks[i]? = some c) (ho : c'.order = c.order)
    (hz : ∀ j, j ≠ i → z.futures j = s.shared.futures j)
    (hmap : z.pendingOrders = (s.shared.pop c.order.orderId).pendingOrders)
    (hnot : ¬ c'.Waits z i) :
    Owned { shared := z, tasks := s.tasks.set i c' } ↔
      ∀ j ∈ s.shared.pendingOrders c.order.orderId, j = i := by
  constructor
  · intro ht j hj
    by_contra hji
    have hnew := (ht _ _).mpr ((waiting_task_of_ne hz hji _).mpr ((h _ _).mp hj))
    simp [hmap, pop] at hnew
  · intro hown id j
    rw [hmap, pendingOrders_pop]
    by_cases hj : j = i
    · subst hj
      rw [waiting_task_self hc ho]
      by_cases hid : id = c.order.orderId
      · simp [hid, hnot]
      · rw [if_neg hid, h, waiting_iff hc]
        simp [Ne.symm hid]
    · rw [waiting_task_of_ne hz hj, ← h]
      by_cases hid : id = c.order.orderId
      · rw [if_pos hid, hid]
        exact iff_of_false (by simp) fun hmem => hj (hown j hmem)
      · rw [if_neg hid]

/-- A new call does not wait yet. -/
theorem owned_spawn (h : Owned s) (order : Order) :
    Owned { s with tasks := s.tasks ++ [{ order }] } := by
  intro id j
  rw [h id j]
  constructor
  · intro hw
    obtain ⟨d, hd, hrest⟩ := hw
    exact ⟨d, TaskSystem.getElem?_spawn_of_some hd _, hrest⟩
  · intro hw
    obtain ⟨d, hd, hrest⟩ := hw
    rcases TaskSystem.getElem?_spawn hd with hd | ⟨-, rfl⟩
    · exact ⟨d, hd, hrest⟩
    · simp [WaitCall.Waits, WaitCall.InFlight] at hrest

/-- A result takes the entry of its order out, and the call that had it
does not wait any more. -/
theorem owned_orderResult (h : Owned s) (r : OrderResult) :
    Owned { s with shared := s.shared.orderResult r } := by
  intro id j
  rw [pendingOrders_orderResult]
  by_cases hid : id = r.orderId
  · rw [if_pos hid, hid]
    refine iff_of_false (by simp) ?_
    intro hw
    obtain ⟨d, hd, hdid, hflight, hpending⟩ := hw
    simp only [futures_orderResult] at hpending
    split_ifs at hpending with howner
    · simp at hpending
    · exact howner ⟨(h _ _).mpr ⟨d, hd, hdid, hflight, hpending⟩, hpending⟩
  · rw [if_neg hid, h]
    -- a call that waits for `id` is not the one the result is for
    refine exists_congr fun d => and_congr_right fun hd => and_congr_right fun hdid => ?_
    refine and_congr_right fun _ => ?_
    rw [futures_orderResult, if_neg]
    intro howner
    obtain ⟨d', hd', hdid', -⟩ := (h _ _).mp howner.1
    obtain rfl : d = d' := by simpa [hd] using hd'
    exact hid (hdid.symm.trans hdid')

end Steps

/-! ## When a step keeps it -/

/-- A step keeps the map exact. A start: its order has no entry. A
publish that fails, a cancellation: the call does not wait, since its
result has come or it has not started. A timeout: the entry of its order is
not another call's. -/
def Keeps (s : WaitState) (i : ℕ) (c : WaitCall) : WaitEvent → Prop
  | .start => s.shared.pendingOrders c.order.orderId = none
  | .fails false => ¬ c.Waits s.shared i
  | .cancel => ¬ c.Waits s.shared i
  | .fails true => ∀ j ∈ s.shared.pendingOrders c.order.orderId, j = i
  | .timeout => ∀ j ∈ s.shared.pendingOrders c.order.orderId, j = i
  | .published => True
  | .reply => True

instance (z : ZmqAdapter) (i : ℕ) (c : WaitCall) : Decidable (c.Waits z i) :=
  inferInstanceAs (Decidable ((c.phase = .sending ∨ c.phase = .awaiting) ∧
    z.futures i = some .pending))

instance (s : WaitState) (i : ℕ) (c : WaitCall) : (e : WaitEvent) → Decidable (Keeps s i c e)
  | .start => inferInstanceAs (Decidable (s.shared.pendingOrders c.order.orderId = none))
  | .fails false => inferInstanceAs (Decidable (¬ c.Waits s.shared i))
  | .cancel => inferInstanceAs (Decidable (¬ c.Waits s.shared i))
  | .fails true =>
    inferInstanceAs (Decidable (∀ j ∈ s.shared.pendingOrders c.order.orderId, j = i))
  | .timeout =>
    inferInstanceAs (Decidable (∀ j ∈ s.shared.pendingOrders c.order.orderId, j = i))
  | .published => .isTrue trivial
  | .reply => .isTrue trivial

theorem owned_task_iff {s : WaitState} {i : ℕ} {c c' : WaitCall} {z : ZmqAdapter} {e : WaitEvent}
    (h : Owned s) (hc : s.tasks[i]? = some c) (hs : c.step s.shared i e = some (z, c')) :
    Owned { shared := z, tasks := s.tasks.set i c' } ↔ Keeps s i c e := by
  rcases WaitCall.step_cases hs with ⟨rfl, hp, rfl, rfl⟩ | ⟨rfl, hp, rfl, rfl⟩ |
    ⟨r, rfl, hdone, rfl, rfl⟩ | ⟨out, he, hz, rfl⟩ | ⟨out, he, hz, rfl⟩
  · exact owned_register h hc rfl (by simp [WaitCall.Waits, WaitCall.InFlight, hp]) (.inl rfl)
  · refine (owned_same_map h hc (by rfl) (fun _ _ => rfl) rfl).trans (iff_of_true ?_ trivial)
    simp [WaitCall.Waits, WaitCall.InFlight, hp]
  · refine (owned_finish h hc (fun _ _ => rfl) rfl).trans (iff_of_true ?_ trivial)
    simp [WaitCall.Waits, hdone]
  · have hkeeps : Keeps s i c e ↔ ¬ c.Waits s.shared i := by rcases he with rfl | rfl <;> rfl
    rw [hkeeps]
    rcases hz with rfl | rfl
    · exact owned_finish h hc (fun _ _ => rfl) rfl
    · exact owned_finish h hc (futures_cancelWait_of_ne _) (pendingOrders_cancelWait _ _)
  · have hkeeps : Keeps s i c e ↔ ∀ j ∈ s.shared.pendingOrders c.order.orderId, j = i := by
      rcases he with rfl | rfl <;> rfl
    rw [hkeeps]
    rcases hz with rfl | rfl
    · exact owned_pop h hc rfl (fun _ _ => rfl) rfl (not_waits_finish _ _ _ _)
    · refine owned_pop h hc rfl (futures_cancelWait_of_ne _) ?_ (not_waits_finish _ _ _ _)
      simp [timeOut, pop]

/-- A step from an exact state leads to an exact one just if it keeps it. -/
theorem owned_step_iff {s t : WaitState} {e : WaitSystemEvent} (h : Owned s)
    (hs : waitSystem.step s e = some t) : Owned t ↔ TaskSystem.OnTask Keeps s e := by
  rcases TaskSystem.step_cases hs with ⟨order, rfl, rfl⟩ | ⟨i, d, c, z, c', rfl, hc, hd, rfl⟩ |
    ⟨r, z, rfl, hz, rfl⟩
  · exact iff_of_true (owned_spawn h order) trivial
  · rw [owned_task_iff h hc hd]
    simp [TaskSystem.OnTask, hc]
  · obtain rfl := Option.some.inj hz
    exact iff_of_true (owned_orderResult h r) trivial

theorem owned_noCalls : Owned noCalls := by
  intro id i
  simp [noCalls, Waiting]

theorem Owned.of_run {es : List WaitSystemEvent} {s : WaitState}
    (h : RunWhere waitSystem.step (TaskSystem.OnTask Keeps) noCalls es s) : Owned s :=
  h.invariant_state Owned owned_noCalls fun _ _ _ hi hok hs => (owned_step_iff hi hs).mpr hok

/-- **When the map is exact.** Every state a run reaches has the waiting
calls as its entries just if every step of the run keeps it so. -/
theorem pending_exact_iff {es : List WaitSystemEvent} {s : WaitState} :
    RunWhere waitSystem.step (fun s e => ∀ t, waitSystem.step s e = some t → Exact t)
      noCalls es s ↔
    RunWhere waitSystem.step (TaskSystem.OnTask Keeps) noCalls es s := by
  constructor
  · intro h
    induction h with
    | nil => exact .nil
    | snoc hr hok hs ih =>
      exact .snoc ih ((owned_step_iff (Owned.of_run ih) hs).mp (hok _ hs).owned) hs
  · intro h
    induction h with
    | nil => exact .nil
    | snoc hr hok hs ih =>
      refine .snoc ih (fun u hu => ?_) hs
      exact ((owned_step_iff (Owned.of_run hr) hu).mpr hok).exact

/-- A call is created for an order, and starts. -/
def begin (i : ℕ) (order : Order) : List WaitSystemEvent := [.spawn order, .task i .start]

/-- Two orders in flight: the second is filled first, the other times out. -/
def answeredEvents : List WaitSystemEvent :=
  begin 0 orderA ++ [.task 0 .published] ++ begin 1 orderB ++
    [.task 1 .published, .env { orderId := "b", status := .filled }, .task 1 .reply,
     .task 0 .timeout]

example : ∃ s, RunWhere waitSystem.step (TaskSystem.OnTask Keeps) noCalls answeredEvents s ∧
    s.shared.pendingOrders "a" = none ∧ s.shared.pendingOrders "b" = none :=
  ⟨_, .of_checked (by decide) rfl, rfl, rfl⟩

/-- The caller is cancelled while it waits. -/
def cancelledEvents : List WaitSystemEvent :=
  begin 0 orderA ++ [.task 0 .published, .task 0 .cancel]

/-- Two calls with one order id; the first times out. -/
def sameIdEvents : List WaitSystemEvent :=
  begin 0 orderA ++ begin 1 orderA ++ [.task 0 .published, .task 1 .published, .task 0 .timeout]

/-- A cancelled call leaves its entry, so the map is not empty although no
call waits. With one id for two calls, the timeout of the first takes the
entry of the second: its result then completes no future. -/
theorem cancelled_wait_leaks :
    (∃ s, Run waitSystem.step noCalls cancelledEvents s ∧ s.shared.pendingOrders "a" = some 0 ∧
      (∀ i id, ¬ Waiting s i id) ∧ ¬ Exact s) ∧
    ∃ s, Run waitSystem.step noCalls sameIdEvents s ∧ Waiting s 1 "a" ∧
      s.shared.pendingOrders "a" = none ∧ ¬ Exact s := by
  constructor
  · have hnone : ∀ i id,
        ¬ Waiting ((exec waitSystem.step noCalls cancelledEvents).getD noCalls) i id := by
      intro i id hw
      obtain ⟨c, hc, -, hflight, -⟩ := hw
      have hmem : c ∈ [({ order := orderA, phase := .finished .cancelled } : WaitCall)] :=
        List.mem_of_getElem? hc
      rw [List.mem_singleton.mp hmem] at hflight
      simp [WaitCall.InFlight] at hflight
    refine ⟨_, .of_exec rfl, rfl, hnone, ?_⟩
    intro hexact
    obtain ⟨i, hw⟩ := (hexact.keys "a").mp (by decide)
    exact hnone i "a" hw
  · have hwait : Waiting ((exec waitSystem.step noCalls sameIdEvents).getD noCalls) 1 "a" :=
      ⟨_, rfl, rfl, .inr rfl, rfl⟩
    refine ⟨_, .of_exec rfl, hwait, rfl, ?_⟩
    intro hexact
    exact (hexact.keys "a").mpr ⟨1, hwait⟩ rfl

end TdSandboxed.ZmqAdapter
