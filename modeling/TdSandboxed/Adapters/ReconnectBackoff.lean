/-
TdSandboxed.Adapters.ReconnectBackoff — how long an account waits for its
next reconnection (`adapters/mt5_connection_manager.py`,
`_reconnect_with_backoff` and `RECONNECT_DELAYS`).

The steps are those of `MT5ConnectionManager.manage` but for
`stop_connection`, and a reconnection task takes two: it reads the health
record and goes to sleep, then it wakes. Between its creation and its sleep
anything may happen.

`failures` and `again` are history, and say what the counter of the health
record should say. A start makes a new record, so of the failures since the
last success the counter knows those since the last start
(`Backoff.Sound`).
-/
import TdSandboxed.Adapters.MT5ConnectionManager

namespace TdSandboxed

open Lib

/-- `reconnect_attempts` of an account. -/
def MT5ConnectionManager.attempts (m : MT5ConnectionManager) (a : String) : ℕ :=
  (m.getHealth a).reconnectAttempts

/-! ## Waits -/

/-- `RECONNECT_DELAYS` -/
def reconnectDelays : List ℕ := [1, 2, 4, 8, 16, 30]

/-- The delay after a number of attempts. -/
def reconnectDelay (attempts : ℕ) : ℕ :=
  reconnectDelays.get ⟨min attempts (reconnectDelays.length - 1),
    Nat.lt_of_le_of_lt (Nat.min_le_right _ _) (by decide)⟩

/-- What a step says about the connection of an account. -/
inductive ConnectionOutcome
  | success
  | startFails
  /-- The receiver of a connection has failed. -/
  | lost
  deriving DecidableEq

/-- What an attempt that raises `connect`, or nothing, comes to. -/
def ConnectionOutcome.ofConnect : Option String → ConnectionOutcome
  | none => .success
  | some _ => .startFails

structure Backoff where
  manager : MT5ConnectionManager
  /-- The delay that a reconnection task sleeps. -/
  sleeping : ℕ → Option ℕ := fun _ => none
  /-- The failures of an account since its last success. -/
  failures : String → ℕ := fun _ => 0
  /-- A start has failed after another failure, since the last success. -/
  again : String → Bool := fun _ => false

inductive BackoffEvent
  | manages (e : ManagerEvent)
  /-- Reconnection task `n` reads its delay and goes to sleep. -/
  | sleeps (n : ℕ)

namespace Backoff

variable (b : Backoff)

def counter (a : String) : ℕ := b.manager.attempts a

/-- A task wakes after its sleep, and no connection is stopped. -/
def Enabled : ManagerEvent → Prop
  | .wake n _ => (b.sleeping n).isSome
  | .stopReceiver _ | .stopReconnection _ | .stopConnection _ => False
  | _ => True

instance : DecidablePred b.Enabled
  | .wake n _ => inferInstanceAs (Decidable ((b.sleeping n).isSome = true))
  | .stopReceiver _ | .stopReconnection _ | .stopConnection _ => .isFalse id
  | .setAccount .. | .setRunning _ | .startConnection .. | .tick _ | .receiverFails .. =>
    .isTrue trivial

/-- The account that a step says something about. -/
def outcome : ManagerEvent → Option (String × ConnectionOutcome)
  | .startConnection a connect =>
    if (b.manager.connections a).isNone ∧ b.manager.accounts a then
      some (a, .ofConnect connect)
    else none
  | .tick n => (b.manager.receiving n).map (·, .success)
  | .receiverFails n _ => (b.manager.receiving n).map (·, .lost)
  | .wake n connect =>
    (b.manager.asleep n).bind fun a =>
      if b.manager.accounts a then some (a, .ofConnect connect) else none
  | _ => none

/-- The history after an outcome. -/
def record : Option (String × ConnectionOutcome) → Backoff
  | some (a, .success) =>
    { b with
      failures := Function.update b.failures a 0
      again := Function.update b.again a false }
  | some (a, .startFails) =>
    { b with
      failures := Function.update b.failures a (b.failures a + 1)
      again := Function.update b.again a (b.again a || decide (0 < b.failures a)) }
  | some (a, .lost) => { b with failures := Function.update b.failures a (b.failures a + 1) }
  | none => b

def step : BackoffEvent → Option Backoff
  | .manages e =>
    if b.Enabled e then
      (b.manager.manage e).map fun manager => { b.record (b.outcome e) with manager }
    else none
  | .sleeps n =>
    if (b.sleeping n).isSome then none
    else (b.manager.asleep n).map fun a =>
      { b with sleeping := Function.update b.sleeping n (some (reconnectDelay (b.counter a))) }

/-- A manager nothing was done with. -/
def init (accounts : String → Bool) : Backoff := { manager := { accounts } }

/-! ## What a wait should be -/

/-- A task sleeps as long as the failures since the last success ask for;
the counter is back at zero on success, and goes down on nothing else. -/
def Escalates : BackoffEvent → Prop
  | .sleeps n => ∀ a ∈ b.manager.asleep n, ∀ t ∈ b.step (.sleeps n),
      t.sleeping n = some (reconnectDelay (b.failures a))
  | .manages e => ∀ t ∈ b.step (.manages e), ∀ a,
      if b.outcome e = some (a, .success) then t.counter a = 0 else b.counter a ≤ t.counter a

/-- No task goes to sleep for an account that failed to start after another
failure, with a counter below the last delay; no start fails with a counter
above one. -/
def Regular : BackoffEvent → Prop
  | .sleeps n => ∀ a ∈ b.manager.asleep n,
      b.again a = true → reconnectDelays.length - 1 ≤ b.counter a
  | .manages e => ∀ p ∈ b.outcome e, p.2 = .startFails → b.counter p.1 ≤ 1

instance : DecidablePred b.Regular
  | .sleeps n => inferInstanceAs (Decidable (∀ a ∈ b.manager.asleep n, _ → _))
  | .manages e => inferInstanceAs (Decidable (∀ p ∈ b.outcome e, _ → _))

end Backoff

/-! ## The counter -/

namespace MT5ConnectionManager

variable (m : MT5ConnectionManager) (a x : String)

theorem attempts_congr {m m' : MT5ConnectionManager} (h : m.health = m'.health) (x : String) :
    m.attempts x = m'.attempts x := by
  unfold attempts getHealth
  rw [h]

@[simp] theorem attempts_updateHealth (connected : Bool) (error : Option String) :
    (m.updateHealth a connected error).attempts x =
      if x = a then (if connected then 0 else m.attempts a + 1) else m.attempts x := by
  by_cases hx : x = a
  · subst hx
    simp [attempts, getHealth, updateHealth]
  · simp [attempts, getHealth, updateHealth, hx]

@[simp] theorem attempts_scheduleReconnection :
    (m.scheduleReconnection a).attempts x = m.attempts x := by
  refine attempts_congr ?_ x
  unfold scheduleReconnection
  split <;> rfl

@[simp] theorem attempts_recoverPendingOrders :
    (m.recoverPendingOrders a).attempts x = m.attempts x := by
  refine attempts_congr ?_ x
  unfold recoverPendingOrders
  split <;> rfl

@[simp] theorem attempts_cleanUp : (m.cleanUp a).attempts x = m.attempts x :=
  attempts_congr rfl x

/-- A start makes a new record. -/
theorem attempts_connect (connect : Option String) :
    (m.connect a connect).attempts x =
      if x = a then (if connect.isNone then 0 else 1) else m.attempts x := by
  have hnew (m' : MT5ConnectionManager) (h : m'.health = Function.update m.health a (some {})) :
      m'.attempts x = if x = a then 0 else m.attempts x := by
    by_cases hx : x = a
    · subst hx
      simp [attempts, getHealth, h]
    · simp [attempts, getHealth, h, hx]
  cases connect with
  | none =>
    show (updateHealth _ a true none).attempts x = _
    rw [attempts_updateHealth]
    by_cases hx : x = a
    · simp [hx]
    · rw [if_neg hx, if_neg hx, hnew _ rfl, if_neg hx]
  | some error =>
    show ((updateHealth _ a false (some error)).scheduleReconnection a).attempts x = _
    rw [attempts_scheduleReconnection, attempts_updateHealth]
    by_cases hx : x = a
    · subst hx
      rw [hnew _ rfl]
      simp
    · rw [if_neg hx, if_neg hx, hnew _ rfl, if_neg hx]

theorem attempts_startConnection (connect : Option String) :
    (m.startConnection a connect).attempts x =
      if x = a ∧ (m.connections a).isNone ∧ m.accounts a then
        (if connect.isNone then 0 else 1)
      else m.attempts x := by
  unfold startConnection
  cases hc : m.connections a with
  | some n => simp
  | none =>
    cases hk : m.accounts a with
    | false => simp
    | true => simp [attempts_connect]

theorem attempts_reconnect (connect : Option String) :
    (m.reconnect a connect).attempts x =
      if x = a ∧ m.accounts a then (if connect.isNone then 0 else 1) else m.attempts x := by
  have hstart := attempts_startConnection (m.cleanUp a) a x connect
  have hnone : ((m.cleanUp a).connections a).isNone = true := by simp [cleanUp]
  have hknown : (m.cleanUp a).accounts = m.accounts := rfl
  rw [hknown, attempts_cleanUp] at hstart
  simp only [hnone, true_and] at hstart
  unfold reconnect
  dsimp only
  split
  · split
    · rw [attempts_recoverPendingOrders, hstart]
    · exact hstart
  · rename_i hk
    rw [hknown] at hk
    simp [hk]

end MT5ConnectionManager

/-- What the code counts after an outcome. -/
def ConnectionOutcome.counts : ConnectionOutcome → ℕ → ℕ
  | .success, _ => 0
  | .startFails, _ => 1
  | .lost, n => n + 1

namespace Backoff

variable {b t : Backoff} {e : ManagerEvent} {ev : BackoffEvent} {a : String}

theorem ofConnect_counts (connect : Option String) (n : ℕ) :
    (ConnectionOutcome.ofConnect connect).counts n = if connect.isNone then 0 else 1 := by
  cases connect <;> rfl

theorem step_manages (h : b.step (.manages e) = some t) :
    b.Enabled e ∧ ∃ m, b.manager.manage e = some m ∧
      t = { b.record (b.outcome e) with manager := m } := by
  simp only [step, Option.ite_none_right_eq_some, Option.map_eq_some_iff] at h
  obtain ⟨hen, m, hm, rfl⟩ := h
  exact ⟨hen, m, hm, rfl⟩

/-- **The counter after a step** is counted from the outcome; that of every
other account stays. -/
theorem counter_step (h : b.step (.manages e) = some t) (x : String) :
    t.counter x = match b.outcome e with
      | some (a, o) => if x = a then o.counts (b.counter x) else b.counter x
      | none => b.counter x := by
  obtain ⟨hen, m, hm, rfl⟩ := step_manages h
  show m.attempts x = _
  unfold counter
  cases e with
  | setAccount a known =>
    obtain rfl := Option.some.inj hm
    rfl
  | setRunning on =>
    obtain rfl := Option.some.inj hm
    rfl
  | startConnection a connect =>
    obtain rfl := Option.some.inj hm
    have hout : b.outcome (.startConnection a connect) =
        if (b.manager.connections a).isNone ∧ b.manager.accounts a then
          some (a, .ofConnect connect)
        else none := rfl
    rw [MT5ConnectionManager.attempts_startConnection, hout]
    by_cases hs : (b.manager.connections a).isNone ∧ b.manager.accounts a
    · rw [if_pos hs]
      simp only [hs, and_true, ofConnect_counts]
    · rw [if_neg hs, if_neg fun hx => hs hx.2]
  | stopReceiver | stopReconnection | stopConnection => exact hen.elim
  | tick n =>
    obtain ⟨a, ha, rfl⟩ := Option.map_eq_some_iff.mp hm
    simp [outcome, ha, ConnectionOutcome.counts]
  | receiverFails n error =>
    obtain ⟨a, ha, rfl⟩ := Option.map_eq_some_iff.mp hm
    simp only [outcome, ha, Option.map_some, ConnectionOutcome.counts,
      MT5ConnectionManager.attempts_scheduleReconnection,
      MT5ConnectionManager.attempts_updateHealth]
    by_cases hx : x = a
    · subst hx
      rfl
    · rw [if_neg hx, if_neg hx]
      exact MT5ConnectionManager.attempts_congr rfl x
  | wake n connect =>
    obtain ⟨a, ha, rfl⟩ := Option.map_eq_some_iff.mp hm
    simp only [outcome, ha, Option.bind_some, MT5ConnectionManager.attempts_reconnect]
    by_cases hk : b.manager.accounts a
    · simp only [hk, and_true, if_true, ofConnect_counts]
      by_cases hx : x = a
      · rw [if_pos hx, if_pos hx]
      · rw [if_neg hx, if_neg hx]
        exact MT5ConnectionManager.attempts_congr rfl x
    · simp only [hk, Bool.false_eq_true, and_false, if_false]
      exact MT5ConnectionManager.attempts_congr rfl x

/-! ## What the counter knows -/

/-- The counter says how many failures there were since the last success,
until a start fails after another failure; from then on it says less. -/
def Sound (b : Backoff) : Prop :=
  ∀ a, if b.again a then b.counter a < b.failures a else b.counter a = b.failures a

theorem sound_init (accounts : String → Bool) : (init accounts).Sound := by
  intro a
  rfl

theorem Sound.manages (hb : b.Sound) (h : b.step (.manages e) = some t) : t.Sound := by
  intro x
  have hx := hb x
  have hcounter := counter_step h x
  rw [hcounter]
  clear hcounter
  obtain ⟨-, m, -, rfl⟩ := step_manages h
  cases ho : b.outcome e with
  | none => exact hx
  | some p =>
    obtain ⟨a, o⟩ := p
    dsimp only
    by_cases hxa : x = a
    · subst hxa
      rw [if_pos rfl]
      cases o with
      | success => simp [record, ConnectionOutcome.counts]
      | lost =>
        simp only [record, ConnectionOutcome.counts, Function.update_self]
        cases hagain : b.again x <;> simp_all
      | startFails =>
        -- the new record counts this failure only
        simp only [record, ConnectionOutcome.counts, Function.update_self]
        cases hagain : b.again x with
        | true =>
          have hlt : b.counter x < b.failures x := by simpa [hagain] using hx
          simp only [Bool.true_or, if_true]
          omega
        | false =>
          rcases Nat.eq_zero_or_pos (b.failures x) with hzero | hpos
          · simp [hzero]
          · simp [hpos]
    · rw [if_neg hxa]
      cases o <;> simpa [record, hxa] using hx

theorem Sound.step (hb : b.Sound) (h : b.step ev = some t) : t.Sound := by
  cases ev with
  | manages e => exact hb.manages h
  | sleeps n =>
    simp only [Backoff.step, Option.ite_none_left_eq_some, Option.map_eq_some_iff] at h
    obtain ⟨-, a, -, rfl⟩ := h
    exact hb

/-! ## Waits and failures -/

/-- Two counts wait equally long when they are equal or both past the last
delay. -/
theorem reconnectDelay_eq_iff {c k : ℕ} (h : c < k) :
    reconnectDelay c = reconnectDelay k ↔ reconnectDelays.length - 1 ≤ c := by
  have hsmall : ∀ c < 5, ∀ k < 6, c < k →
      reconnectDelay c ≠ reconnectDelay k := by decide
  have hlast (n : ℕ) (hn : 5 ≤ n) : reconnectDelay n = reconnectDelay 5 := by
    unfold reconnectDelay
    congr 2
    simp [reconnectDelays]
    omega
  show _ ↔ 5 ≤ c
  constructor
  · intro heq
    by_contra hc
    rcases Nat.lt_or_ge k 6 with hk | hk
    · exact hsmall c (by omega) k hk h heq
    · rw [hlast k (by omega)] at heq
      exact hsmall c (by omega) 5 (by omega) (by omega) heq
  · intro hc
    rw [hlast c hc, hlast k (by omega)]

/-- A failed start leaves a counter of one, everything else lets it grow or
is a success. -/
theorem escalates_manages_iff (h : b.step (.manages e) = some t) :
    b.Escalates (.manages e) ↔ b.Regular (.manages e) := by
  have hcounter := counter_step h
  simp only [Escalates, Regular, h, Option.mem_some_iff, forall_eq', hcounter]
  cases ho : b.outcome e with
  | none => simp
  | some p =>
    obtain ⟨a, o⟩ := p
    cases o with
    | success =>
      refine iff_of_true (fun x => ?_) (by simp)
      by_cases hx : x = a
      · simp [hx, ConnectionOutcome.counts]
      · simp [hx, Ne.symm hx]
    | lost =>
      refine iff_of_true (fun x => ?_) (by simp)
      by_cases hx : x = a <;> simp [hx, ConnectionOutcome.counts]
    | startFails =>
      simp only [Option.some.injEq, Prod.mk.injEq, reduceCtorEq, and_false, if_false,
        Option.mem_some_iff, forall_eq', forall_const, ConnectionOutcome.counts]
      refine ⟨fun hall => by simpa using hall a, fun hle x => ?_⟩
      by_cases hx : x = a
      · subst hx
        simpa using hle
      · simp [hx]

/-- **What one step owes** is that it is regular. -/
theorem Sound.escalates_iff (hb : b.Sound) (h : b.step ev = some t) :
    b.Escalates ev ↔ b.Regular ev := by
  cases ev with
  | manages e => exact escalates_manages_iff h
  | sleeps n =>
    simp only [Escalates, Regular, h, Option.mem_some_iff, forall_eq']
    simp only [Backoff.step, Option.ite_none_left_eq_some, Option.map_eq_some_iff] at h
    obtain ⟨-, a, ha, rfl⟩ := h
    simp only [ha, Option.mem_some_iff, forall_eq', Function.update_self, Option.some.injEq]
    have hcount := hb a
    cases hagain : b.again a with
    | true =>
      rw [forall_prop_of_true rfl]
      exact reconnectDelay_eq_iff (by simpa [hagain] using hcount)
    | false =>
      have heq : b.counter a = b.failures a := by simpa [hagain] using hcount
      simp [heq]

/-- **In a run every wait is as long as the failures since the last success
ask for, and the counter goes down on success only, exactly when every step
is regular.** -/
theorem escalates_run_iff (accounts : String → Bool) (es : List BackoffEvent) (b : Backoff)
    (hrun : exec step (init accounts) es = some b) :
    Checked step Escalates (init accounts) es ↔ Checked step Regular (init accounts) es := by
  refine ⟨fun he => ?_, fun hr => ?_⟩
  · exact he.mono_of_invariant Sound
      (fun _ _ _ hs hok hstep => ⟨hs.step hstep, (hs.escalates_iff hstep).mp hok⟩)
      (sound_init accounts) hrun
  · exact hr.mono_of_invariant Sound
      (fun _ _ _ hs hok hstep => ⟨hs.step hstep, (hs.escalates_iff hstep).mpr hok⟩)
      (sound_init accounts) hrun

/-- An account that is lost once and comes back. -/
def lostOnce : List BackoffEvent :=
  [.manages (.setRunning true), .manages (.startConnection "a" none), .manages (.tick 0),
    .manages (.receiverFails 0 "closed"), .sleeps 1, .manages (.wake 1 none)]

theorem lostOnce_escalates : Checked step Escalates (init fun _ => true) lostOnce :=
  (escalates_run_iff (fun _ => true) lostOnce
    ((exec step (init fun _ => true) lostOnce).get (by decide)) (Option.some_get _).symm).mpr
    (by decide)

/-- The first two starts of an account fail. -/
def failsTwice : List BackoffEvent :=
  [.manages (.setRunning true), .manages (.startConnection "a" (some "refused")), .sleeps 0,
    .manages (.wake 0 (some "refused")), .sleeps 1]

theorem failsTwice_not_escalates :
    ¬ Checked step Escalates (init fun _ => true) failsTwice := by
  intro h
  have hlast := ((((h.2 _ rfl).2 _ rfl).2 _ rfl).2 _ rfl).1 "a" rfl _ rfl
  revert hlast
  decide

end Backoff

end TdSandboxed
