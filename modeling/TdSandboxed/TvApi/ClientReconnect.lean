/-
TdSandboxed.TvApi.ClientReconnect — the receive loop of the TradingView
client (`pkg/tradingview/client.go`, `receiveLoop` and `attemptReconnect`).

The goroutine blocks in `Receive`, in the wait before an attempt, in the
dial and in the authentication. Each is a phase, and an event is how it
ends; `Close` cancels the context at any moment. A wait that ends and a
cancelled context may be ready together, and `select` takes either.

Durations are int64 nanoseconds. What the callbacks do, the log lines and
the connection object are left out.
-/
import Mathlib.Tactic.IntervalCases
import TdSandboxed.Lib.Run

namespace TdSandboxed

open Lib

/-! ## Durations -/

/-- An int64, as Go's arithmetic on `time.Duration` wraps. -/
def wrapInt64 (x : ℤ) : ℤ := x.bmod (2 ^ 64)

/-- `time.Second` -/
def second : ℤ := 1000000000

/-! ## State -/

/-- The fields of `Client` that reconnection reads and never writes. -/
structure ReconnectPolicy where
  maxReconnects : ℕ
  reconnectDelay : ℤ
  autoReconnect : Bool
  deriving DecidableEq

/-- As `NewClient` sets them. -/
def newClientPolicy : ReconnectPolicy :=
  { maxReconnects := 10, reconnectDelay := second, autoReconnect := true }

/-- The backoff of the attempt with this number. -/
def ReconnectPolicy.delay (p : ReconnectPolicy) (currentCount : ℕ) : ℤ :=
  let delay := wrapInt64 (p.reconnectDelay * wrapInt64 (2 ^ (currentCount - 1)))
  let delay := if delay > 30 * second then 30 * second else delay
  -- reconnect within 5 s for the first attempt
  if currentCount = 1 ∧ delay > 5 * second then 5 * second else delay

inductive ReceiveLoop.Phase
  /-- The head of the loop, where the context is looked at. -/
  | head
  /-- `c.conn.Receive()` -/
  | receiving
  /-- The `select` between `time.After(delay)` and the context. -/
  | waiting (delay : ℤ)
  /-- `c.connect()` -/
  | connecting
  /-- `c.authenticate()` -/
  | authenticating
  /-- The goroutine has returned. -/
  | returned
  deriving DecidableEq

structure ReceiveLoop where
  phase : ReceiveLoop.Phase := .head
  reconnectCount : ℕ := 0
  /-- `c.ctx` is cancelled. -/
  cancelled : Bool := false
  deriving DecidableEq

inductive ReceiveLoop.Event
  /-- `Close` cancels the context. -/
  | cancel
  /-- The goroutine looks at the context. -/
  | check
  /-- `Receive` returns, with a message or with an error. -/
  | receive (ok : Bool)
  /-- `time.After` fires. -/
  | timer
  /-- The wait ends because the context is cancelled. -/
  | waitCancelled
  /-- The dial, and the authentication, succeed or fail. -/
  | connect (ok : Bool)
  | authenticate (ok : Bool)
  deriving DecidableEq

/-! ## Steps -/

namespace ReceiveLoop

/-- `attemptReconnect` up to its wait. Its error ends the loop. -/
def attemptReconnect (p : ReconnectPolicy) (s : ReceiveLoop) : ReceiveLoop :=
  let currentCount := s.reconnectCount + 1
  if currentCount > p.maxReconnects then
    { s with reconnectCount := currentCount, phase := .returned }
  else
    { s with reconnectCount := currentCount, phase := .waiting (p.delay currentCount) }

def step (p : ReconnectPolicy) (s : ReceiveLoop) (e : Event) : Option ReceiveLoop :=
  match s.phase, e with
  | _, .cancel => some { s with cancelled := true }
  | .head, .check => some { s with phase := if s.cancelled then .returned else .receiving }
  | .receiving, .receive true => some { s with reconnectCount := 0, phase := .head }
  | .receiving, .receive false =>
    if s.cancelled then some { s with phase := .returned }
    else if p.autoReconnect then some (s.attemptReconnect p)
    else some { s with phase := .head }
  | .waiting _, .timer => some { s with phase := .connecting }
  | .waiting _, .waitCancelled => if s.cancelled then some { s with phase := .returned } else none
  | .connecting, .connect ok =>
    -- the error of the attempt is the error of `attemptReconnect`
    some { s with phase := if ok then .authenticating else .returned }
  | .authenticating, .authenticate ok => some { s with phase := if ok then .head else .returned }
  | _, _ => none

/-! ## What the loop should do -/

/-- The attempt that failed at this event, and the one that succeeded. -/
def attemptOf : Event → Option Bool
  | .connect false | .authenticate false => some false
  | .authenticate true => some true
  | _ => none

/-- How many attempts failed since the last one that succeeded. -/
def failedAttempts (es : List Event) : ℕ :=
  es.foldl (fun k e => match attemptOf e with
    | some true => 0
    | some false => k + 1
    | none => k) 0

/-- The loop ends with the context or when all attempts failed; after a
failed attempt it goes on to the next, and the k-th attempt in a row is
made after the k-th backoff. -/
structure Persists (p : ReconnectPolicy) (es : List Event) (s : ReceiveLoop) : Prop where
  ends : s.phase = .returned → s.cancelled ∨ p.maxReconnects ≤ failedAttempts es
  retries : ∀ e, es.getLast? = some e → attemptOf e = some false → ¬ s.cancelled →
    failedAttempts es < p.maxReconnects → ∃ d, s.phase = .waiting d
  backoff : ∀ d, s.phase = .waiting d →
    d = min (p.reconnectDelay * 2 ^ failedAttempts es) (30 * second)

/-- What may happen before the context is cancelled: no attempt fails, and
the connection is lost only after a message has been received over it. -/
def Smooth (s : ReceiveLoop) (e : Event) : Prop :=
  s.cancelled ∨ attemptOf e ≠ some false ∧ (e = .receive false → s.reconnectCount = 0)

instance (s : ReceiveLoop) (e : Event) : Decidable (Smooth s e) :=
  inferInstanceAs (Decidable (_ ∨ _))

/-! ## When it does -/

section Runs
variable {es : List Event} {s t u : ReceiveLoop} {e : Event}

theorem failedAttempts_snoc (es : List Event) (e : Event) :
    failedAttempts (es ++ [e]) =
      match attemptOf e with
      | some true => 0
      | some false => failedAttempts es + 1
      | none => failedAttempts es := by
  rw [failedAttempts, List.foldl_append]
  rfl

/-- With the fields of `NewClient` the product does not wrap, and the
first backoff is below its own limit. -/
theorem newClientPolicy_delay {k : ℕ} (h : k < newClientPolicy.maxReconnects) :
    newClientPolicy.delay (k + 1) =
      min (newClientPolicy.reconnectDelay * 2 ^ k) (30 * second) := by
  have hk : k < 10 := h
  interval_cases k <;> decide

/-- Only the first backoff is one second. -/
theorem newClientPolicy_delay_eq_first {k : ℕ} (h : k < newClientPolicy.maxReconnects)
    (hd : newClientPolicy.delay (k + 1) =
      min (newClientPolicy.reconnectDelay * 2 ^ 0) (30 * second)) : k = 0 := by
  have hk : k < 10 := h
  rw [newClientPolicy_delay h] at hd
  interval_cases k <;> first | rfl | exact absurd hd (by decide)

/-- What is known while nothing has gone wrong. -/
structure Known (es : List Event) (s : ReceiveLoop) : Prop where
  persists : Persists newClientPolicy es s
  failures : s.cancelled = false → failedAttempts es = 0

theorem known_init : Known [] {} where
  persists := ⟨fun h => (by cases h), fun e h => (by cases h), fun d h => (by cases h)⟩
  failures := fun _ => rfl

/-- Neither the end of the loop nor a wait: nothing is owed. -/
theorem Persists.of_busy {p : ReconnectPolicy} (hreturned : u.phase ≠ .returned)
    (hwaiting : ∀ d, u.phase ≠ .waiting d) (he : attemptOf e ≠ some false) :
    Persists p (es ++ [e]) u where
  ends := fun h => absurd h hreturned
  retries := by
    intro e' hlast hfailed
    rw [List.getLast?_concat, Option.some.injEq] at hlast
    exact absurd (hlast ▸ hfailed) he
  backoff := fun d h => absurd h (hwaiting d)

/-- With the context cancelled the loop may end. -/
theorem Persists.of_cancelled {p : ReconnectPolicy} (hcancelled : u.cancelled = true)
    (hwaiting : ∀ d, u.phase ≠ .waiting d) : Persists p (es ++ [e]) u where
  ends := fun _ => .inl hcancelled
  retries := fun _ _ _ hlive => absurd hcancelled hlive
  backoff := fun d h => absurd h (hwaiting d)

/-- The first failed attempt ends the loop. -/
theorem not_persists_of_failed (hk : Known es s) (hfailed : attemptOf e = some false)
    (hlive : s.cancelled = false) (hu : u.phase = .returned) (hc : u.cancelled = s.cancelled) :
    ¬ Persists newClientPolicy (es ++ [e]) u := by
  intro h
  cases h.ends hu with
  | inl hcancelled =>
    rw [hc, hlive] at hcancelled
    cases hcancelled
  | inr hmax =>
    rw [failedAttempts_snoc, hfailed, hk.failures hlive] at hmax
    exact absurd hmax (by decide)

/-- A lost connection: the wait is the first backoff exactly when the
counter had been reset. -/
theorem persists_lost_iff (hk : Known es s) (hlive : s.cancelled = false) :
    Persists newClientPolicy (es ++ [.receive false]) (s.attemptReconnect newClientPolicy) ↔
      s.reconnectCount = 0 := by
  have hzero : failedAttempts (es ++ [.receive false]) = 0 := by
    rw [failedAttempts_snoc]
    exact hk.failures hlive
  by_cases hmax : s.reconnectCount < newClientPolicy.maxReconnects
  · have hs : s.attemptReconnect newClientPolicy =
        { s with reconnectCount := s.reconnectCount + 1,
                 phase := .waiting (newClientPolicy.delay (s.reconnectCount + 1)) } :=
      if_neg (by omega)
    rw [hs]
    refine ⟨fun h => ?_, fun hcount => ?_⟩
    · have hd := h.backoff _ rfl
      rw [hzero] at hd
      exact newClientPolicy_delay_eq_first hmax hd
    · refine ⟨fun h => (by cases h), fun e hlast hfailed => ?_, fun d hd => ?_⟩
      · rw [List.getLast?_concat, Option.some.injEq] at hlast
        rw [← hlast] at hfailed
        cases hfailed
      · obtain rfl := Phase.waiting.inj hd
        rw [hzero, newClientPolicy_delay hmax, hcount]
  · have hs : s.attemptReconnect newClientPolicy =
        { s with reconnectCount := s.reconnectCount + 1, phase := .returned } :=
      if_pos (by omega)
    rw [hs]
    refine iff_of_false (fun h => ?_) (fun hcount => hmax (by rw [hcount]; decide))
    cases h.ends rfl with
    | inl hcancelled =>
      rw [hlive] at hcancelled
      cases hcancelled
    | inr hfailed =>
      rw [hzero] at hfailed
      exact absurd hfailed (by decide)

/-- The end of a dial or of an authentication. -/
theorem persists_attempt_iff {phase : Phase} {ok : Bool} (hk : Known es s)
    (hbusy : phase ≠ .returned) (hwaiting : ∀ d, phase ≠ .waiting d)
    (he : attemptOf e ≠ some false ↔ ok = true) (hreceive : e ≠ .receive false) :
    Persists newClientPolicy (es ++ [e]) { s with phase := if ok then phase else .returned } ↔
      Smooth s e := by
  cases ok with
  | true =>
    exact iff_of_true (.of_busy hbusy hwaiting (he.mpr rfl))
      (.inr ⟨he.mpr rfl, fun h => absurd h hreceive⟩)
  | false =>
    have hfailed : attemptOf e = some false := by
      by_contra hne
      exact Bool.false_ne_true (he.mp hne)
    cases hc : s.cancelled with
    | true => exact iff_of_true (.of_cancelled rfl fun d h => (by cases h)) (.inl hc)
    | false =>
      refine iff_of_false (not_persists_of_failed hk hfailed hc rfl hc.symm) ?_
      simp [Smooth, hc, hfailed]

/-- A step that is neither an attempt nor a loss is smooth. -/
theorem smooth_of_quiet (he : attemptOf e = none) (hreceive : e ≠ .receive false) : Smooth s e :=
  .inr ⟨by simp [he], fun h => absurd h hreceive⟩

/-- **What one step owes** is that it is smooth. -/
theorem persists_step_iff (hk : Known es s) (hs : s.step newClientPolicy e = some u) :
    Persists newClientPolicy (es ++ [e]) u ↔ Smooth s e := by
  cases e with
  | cancel =>
    have hu : u = { s with cancelled := true } := by
      cases hp : s.phase <;> simpa [step, hp] using hs.symm
    refine iff_of_true ⟨fun _ => .inl (by rw [hu]), fun _ _ _ hlive => ?_, fun d hd => ?_⟩
      (smooth_of_quiet rfl (by simp))
    · exact absurd (by rw [hu]) hlive
    · rw [failedAttempts_snoc]
      exact hk.persists.backoff d (by rw [← hd, hu])
  | check =>
    cases hp : s.phase with
    | head =>
      simp only [step, hp, Option.some.injEq] at hs
      refine iff_of_true ?_ (smooth_of_quiet rfl (by simp))
      subst hs
      cases hc : s.cancelled with
      | true => exact .of_cancelled rfl (by simp)
      | false => exact .of_busy (by simp) (by simp) (by simp [attemptOf])
    | _ => simp [step, hp] at hs
  | receive ok =>
    cases hp : s.phase with
    | receiving =>
      cases ok with
      | true =>
        simp only [step, hp, Option.some.injEq] at hs
        subst hs
        exact iff_of_true (.of_busy (by simp) (by simp) (by simp [attemptOf]))
          (smooth_of_quiet rfl (by simp))
      | false =>
        simp only [step, hp] at hs
        cases hc : s.cancelled with
        | true =>
          simp only [hc, if_true, Option.some.injEq] at hs
          subst hs
          exact iff_of_true (.of_cancelled rfl (by simp)) (.inl hc)
        | false =>
          simp only [hc, Bool.false_eq_true, if_false, newClientPolicy, if_true,
            Option.some.injEq] at hs
          subst hs
          rw [← newClientPolicy, persists_lost_iff hk hc]
          simp [Smooth, hc, attemptOf]
    | _ => simp [step, hp] at hs
  | timer =>
    cases hp : s.phase with
    | waiting d =>
      simp only [step, hp, Option.some.injEq] at hs
      subst hs
      exact iff_of_true (.of_busy (by simp) (by simp) (by simp [attemptOf]))
        (smooth_of_quiet rfl (by simp))
    | _ => simp [step, hp] at hs
  | waitCancelled =>
    cases hp : s.phase with
    | waiting d =>
      simp only [step, hp, Option.ite_none_right_eq_some, Option.some.injEq] at hs
      obtain ⟨hc, rfl⟩ := hs
      exact iff_of_true (.of_cancelled hc (by simp)) (.inl hc)
    | _ => simp [step, hp] at hs
  | connect ok =>
    cases hp : s.phase with
    | connecting =>
      simp only [step, hp, Option.some.injEq] at hs
      subst hs
      refine persists_attempt_iff hk (by simp) (by simp) ?_ (by simp)
      cases ok <;> simp [attemptOf]
    | _ => simp [step, hp] at hs
  | authenticate ok =>
    cases hp : s.phase with
    | authenticating =>
      simp only [step, hp, Option.some.injEq] at hs
      subst hs
      refine persists_attempt_iff hk (by simp) (by simp) ?_ (by simp)
      cases ok <;> simp [attemptOf]
    | _ => simp [step, hp] at hs

theorem cancelled_of_step {p : ReconnectPolicy} (hs : s.step p e = some u)
    (hu : u.cancelled = false) : s.cancelled = false := by
  unfold step at hs
  split at hs <;> grind [attemptReconnect]

theorem Known.step (hk : Known es s) (hsmooth : Smooth s e)
    (hs : s.step newClientPolicy e = some u) : Known (es ++ [e]) u where
  persists := (persists_step_iff hk hs).mpr hsmooth
  failures := by
    intro hu
    have hlive := cancelled_of_step hs hu
    rw [Smooth, hlive] at hsmooth
    have he := (hsmooth.resolve_left Bool.false_ne_true).1
    rw [failedAttempts_snoc]
    cases ha : attemptOf e with
    | none => exact hk.failures hlive
    | some ok =>
      cases ok with
      | true => rfl
      | false => exact absurd ha he

/-- **In every state reached the loop persists, exactly when every step is
smooth.** -/
theorem persists_iff (es : List Event) (s : ReceiveLoop)
    (h : exec (step newClientPolicy) {} es = some s) :
    Always (step newClientPolicy) (Persists newClientPolicy) {} es ↔
      Checked (step newClientPolicy) Smooth {} es :=
  always_iff_checked Known known_init known_init.persists
    (fun _ _ _ _ hk hsmooth hs => hk.step hsmooth hs) (fun _ _ _ _ hk hs => persists_step_iff hk hs) h

/-- Over a run: a connection lost, and a successful first attempt. -/
def oneLoss : List Event :=
  [.check, .receive true, .check, .receive false, .timer, .connect true, .authenticate true,
    .check, .receive true]

theorem oneLoss_persists :
    Always (step newClientPolicy) (Persists newClientPolicy) {} oneLoss :=
  (persists_iff oneLoss { reconnectCount := 0 } (by decide)).mpr (by decide)

/-- A dial that fails once, and the loop has returned. -/
theorem one_failed_dial_ends :
    ¬ Always (step newClientPolicy) (Persists newClientPolicy) {}
      [.check, .receive false, .timer, .connect false] := by
  intro h
  have hp := h _ { phase := .returned, reconnectCount := 1 } List.prefix_rfl (by decide)
  exact absurd (hp.ends rfl) (by decide)

end Runs

end ReceiveLoop

end TdSandboxed
