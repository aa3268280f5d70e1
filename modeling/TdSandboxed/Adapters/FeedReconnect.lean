/-
TdSandboxed.Adapters.FeedReconnect — the reconnection of the two feeds
(`adapters/redis_adapter.py`, `RedisAdapter.listen_bars` and `reconnect`;
`adapters/zmq_adapter.py`, `ZmqAdapter.receive_ticks` and `reconnect`).

The generator awaits a message, and calls `reconnect` in its handler of
connection errors: a sleep, then one attempt to connect and to subscribe
again. What an attempt raises is raised inside the handler, so it leaves
the generator.

The Redis adapter keeps the set of its channels; the ZeroMQ adapter
subscribes to the same topics in each `connect`. Both are a `Feed` that
starts with a set of channels (`redisFeed`, `zmqFeed`).
-/
import Mathlib.Data.Finset.SDiff
import TdSandboxed.Lib.Run

namespace TdSandboxed

open Lib

/-! ## State -/

/-- `reconnect_delays` and `max_reconnect_attempts` (0: unlimited). -/
structure FeedConfig where
  delays : List ℤ
  maxAttempts : ℤ := 0
  deriving DecidableEq

/-- The delay after `k` attempts; an empty list has no last element. -/
def FeedConfig.delay (c : FeedConfig) (k : ℕ) : Option ℤ :=
  c.delays[min k (c.delays.length - 1)]?

inductive FeedError
  | maxReconnectAttempts
  | indexError
  /-- What `connect` or the subscription raised. -/
  | raised (repr : String)
  deriving DecidableEq

inductive FeedPhase
  /-- `get_message`, `recv_multipart`. -/
  | listening
  /-- `await asyncio.sleep(delay)`. -/
  | sleeping (delay : ℤ)
  /-- The generator has raised. -/
  | ended (x : FeedError)
  deriving DecidableEq

structure Feed where
  phase : FeedPhase := .listening
  /-- `_reconnect_attempt` -/
  attempt : ℕ := 0
  /-- `_subscriptions` -/
  subscriptions : Finset String
  /-- What the current connection is subscribed to, if there is one. -/
  active : Option (Finset String)

inductive Attempt
  | succeeds
  | connectFails (repr : String)
  | subscribeFails (repr : String)
  deriving DecidableEq

inductive FeedEvent
  /-- A message is received and handled. -/
  | message
  /-- The receive raises a connection error. -/
  | lost
  /-- The sleep is over, and this is how the attempt goes. -/
  | attempt (o : Attempt)
  /-- A call of `subscribe` completes. -/
  | subscribe (symbols : List String) (timeframe : String)
  | unsubscribe (symbols : List String) (timeframe : String)
  deriving DecidableEq

/-- The channels of symbols. -/
def barChannels (symbols : List String) (timeframe : String) : Finset String :=
  (symbols.map fun symbol => "bars:" ++ symbol ++ ":" ++ timeframe).toFinset

/-! ## Steps -/

namespace Feed

/-- A connected feed that listens to `channels`. -/
def init (channels : Finset String) : Feed :=
  { subscriptions := channels, active := some channels }

/-- `reconnect` up to its sleep. -/
def reconnect (c : FeedConfig) (s : Feed) : Feed :=
  if 0 < c.maxAttempts ∧ c.maxAttempts ≤ s.attempt then
    { s with phase := .ended .maxReconnectAttempts }
  else
    match c.delay s.attempt with
    | some d => { s with phase := .sleeping d }
    | none => { s with phase := .ended .indexError }

/-- `reconnect` after its sleep. `connect` resets the attempts; there is
nothing to subscribe to without channels. -/
def afterSleep (s : Feed) : Attempt → Option Feed
  | .connectFails x =>
    some { s with attempt := s.attempt + 1, active := none, phase := .ended (.raised x) }
  | .subscribeFails x =>
    if s.subscriptions = ∅ then none
    else some { s with attempt := 0, active := some ∅, phase := .ended (.raised x) }
  | .succeeds => some { s with attempt := 0, active := some s.subscriptions, phase := .listening }

def step (c : FeedConfig) (s : Feed) (e : FeedEvent) : Option Feed :=
  match s.phase, e with
  | .listening, .message => some s
  | .listening, .lost => some (s.reconnect c)
  | .sleeping _, .attempt o => s.afterSleep o
  | _, .subscribe symbols timeframe =>
    s.active.map fun channels =>
      { s with
        subscriptions := s.subscriptions ∪ barChannels symbols timeframe
        active := some (channels ∪ barChannels symbols timeframe) }
  | _, .unsubscribe symbols timeframe =>
    s.active.map fun channels =>
      { s with
        subscriptions := s.subscriptions \ barChannels symbols timeframe
        active := some (channels \ barChannels symbols timeframe) }
  | _, _ => none

/-- The generator has not raised. -/
def Running (s : Feed) : Prop := ∀ x, s.phase ≠ .ended x

end Feed

/-- `RedisAdapter`, connected and without a subscription. -/
def redisFeed : Feed := Feed.init ∅

/-- `ZmqAdapter`, with the topics of its SUB socket. -/
def zmqFeed : Feed :=
  Feed.init {"tick:", "order_result:", "account_info:", "positions_result:"}

/-- `ZmqAdapter.RECONNECT_DELAYS` -/
def zmqFeedConfig : FeedConfig := { delays := [1, 2, 4, 8, 16, 30] }

/-! ## What a feed should do -/

/-- The channels subscribed and not unsubscribed so far. -/
def subscribedSoFar (channels : Finset String) (es : List FeedEvent) : Finset String :=
  es.foldl (fun S e => match e with
    | .subscribe symbols timeframe => S ∪ barChannels symbols timeframe
    | .unsubscribe symbols timeframe => S \ barChannels symbols timeframe
    | _ => S) channels

/-- How many attempts failed since the last one that did not. -/
def consecutiveFailures (es : List FeedEvent) : ℕ :=
  es.foldl (fun k e => match e with
    | .attempt .succeeds => 0
    | .attempt _ => k + 1
    | _ => k) 0

/-- The feed goes on, backs off after each failed attempt, and listens to
its channels again after a successful one. -/
structure Survives (c : FeedConfig) (channels : Finset String) (es : List FeedEvent) (s : Feed) :
    Prop where
  running : s.Running
  backoff : ∀ k, consecutiveFailures es = k + 1 → ∃ d, c.delay k = some d ∧ s.phase = .sleeping d
  subscribed : es.getLast? = some (.attempt .succeeds) →
    s.active = some (subscribedSoFar channels es)

/-- Every attempt succeeds, and there is a delay to wait when the
connection is lost. -/
def NoFailure (c : FeedConfig) (es : List FeedEvent) : Prop :=
  (∀ o, .attempt o ∈ es → o = .succeeds) ∧ (.lost ∈ es → c.delays ≠ [])

/-! ## When it does -/

section Runs
variable {c : FeedConfig} {channels : Finset String} {es : List FeedEvent} {s t : Feed}
  {e : FeedEvent}

theorem subscribedSoFar_snoc (channels : Finset String) (es : List FeedEvent) (e : FeedEvent) :
    subscribedSoFar channels (es ++ [e]) =
      match e with
      | .subscribe symbols timeframe =>
        subscribedSoFar channels es ∪ barChannels symbols timeframe
      | .unsubscribe symbols timeframe =>
        subscribedSoFar channels es \ barChannels symbols timeframe
      | _ => subscribedSoFar channels es := by
  cases e <;> simp [subscribedSoFar]

theorem noFailure_snoc :
    NoFailure c (es ++ [e]) ↔ NoFailure c es ∧ (∀ o, e = .attempt o → o = .succeeds) ∧
      (e = .lost → c.delays ≠ []) := by
  simp only [NoFailure, List.mem_append, List.mem_singleton]
  constructor
  · intro h
    exact ⟨⟨fun o ho => h.1 o (.inl ho), fun hl => h.2 (.inl hl)⟩,
      fun o ho => h.1 o (.inr ho.symm), fun hl => h.2 (.inr hl.symm)⟩
  · intro h
    refine ⟨fun o ho => ?_, fun hl => ?_⟩
    · exact ho.elim (h.1.1 o) fun heq => h.2.1 o heq.symm
    · exact hl.elim h.1.2 fun heq => h.2.2 heq.symm

/-- Without a failure there are none in a row. -/
theorem consecutiveFailures_eq_zero (h : NoFailure c es) : consecutiveFailures es = 0 := by
  induction es using List.reverseRecOn with
  | nil => rfl
  | append_singleton es e ih =>
    obtain ⟨hes, hattempt, -⟩ := noFailure_snoc.mp h
    have hzero := ih hes
    unfold consecutiveFailures at hzero ⊢
    rw [List.foldl_append, hzero]
    cases e with
    | attempt o =>
      obtain rfl := hattempt o rfl
      rfl
    | _ => rfl

theorem delay_zero (c : FeedConfig) : (c.delay 0).isSome ↔ c.delays ≠ [] := by
  rw [FeedConfig.delay, Nat.zero_min]
  cases c.delays <;> simp

namespace Feed

/-- What is known of a feed after the events of a run. -/
structure Known (c : FeedConfig) (channels : Finset String) (es : List FeedEvent) (s : Feed) :
    Prop where
  subscriptions : s.subscriptions = subscribedSoFar channels es
  connected : s.Running → s.attempt = 0 ∧ s.active = some s.subscriptions
  running : s.Running ↔ NoFailure c es

theorem known_init (c : FeedConfig) (channels : Finset String) :
    Known c channels [] (init channels) where
  subscriptions := rfl
  connected := fun _ => ⟨rfl, rfl⟩
  running := by simp [Running, init, NoFailure]

theorem not_running {x : FeedError} (h : s.phase = .ended x) : ¬ s.Running :=
  fun hr => hr x h

/-- A loss: the feed sleeps when there is a delay, since the attempts were
reset by the last connection. -/
theorem Known.lost (h : Known c channels es s) (hr : s.Running) :
    Known c channels (es ++ [.lost]) (s.reconnect c) := by
  obtain ⟨hattempt, hactive⟩ := h.connected hr
  have hmax : ¬ (0 < c.maxAttempts ∧ c.maxAttempts ≤ (s.attempt : ℤ)) := by
    rw [hattempt]
    omega
  have hnf : NoFailure c (es ++ [.lost]) ↔ (c.delay 0).isSome := by
    rw [noFailure_snoc, delay_zero]
    simp [h.running.mp hr]
  cases hd : c.delay 0 with
  | some d =>
    have hs : s.reconnect c = { s with phase := .sleeping d } := by
      rw [reconnect, if_neg hmax, hattempt, hd]
    rw [hs]
    exact ⟨by rw [subscribedSoFar_snoc]; exact h.subscriptions, fun _ => ⟨hattempt, hactive⟩,
      iff_of_true (by simp [Running]) (hnf.mpr (by simp [hd]))⟩
  | none =>
    have hs : s.reconnect c = { s with phase := .ended .indexError } := by
      rw [reconnect, if_neg hmax, hattempt, hd]
    rw [hs]
    exact ⟨by rw [subscribedSoFar_snoc]; exact h.subscriptions, fun hr => absurd rfl (hr _),
      iff_of_false (not_running rfl) fun hn => by simpa [hd] using hnf.mp hn⟩

theorem Known.attempt {o : Attempt} (h : Known c channels es s) (hr : s.Running)
    (hs : s.afterSleep o = some t) : Known c channels (es ++ [.attempt o]) t := by
  have hnf : NoFailure c (es ++ [.attempt o]) ↔ o = .succeeds := by
    rw [noFailure_snoc]
    simp [h.running.mp hr]
  cases o with
  | succeeds =>
    obtain rfl := Option.some.inj hs
    exact ⟨by rw [subscribedSoFar_snoc]; exact h.subscriptions, fun _ => ⟨rfl, rfl⟩,
      iff_of_true (by simp [Running]) (hnf.mpr rfl)⟩
  | connectFails x =>
    obtain rfl := Option.some.inj hs
    exact ⟨by rw [subscribedSoFar_snoc]; exact h.subscriptions, fun hr => absurd rfl (hr _),
      iff_of_false (not_running rfl) (by simp [hnf])⟩
  | subscribeFails x =>
    simp only [afterSleep, Option.ite_none_left_eq_some, Option.some.injEq] at hs
    obtain ⟨-, rfl⟩ := hs
    exact ⟨by rw [subscribedSoFar_snoc]; exact h.subscriptions, fun hr => absurd rfl (hr _),
      iff_of_false (not_running rfl) (by simp [hnf])⟩

/-- An event that changes the phase of no feed and is no failure. -/
theorem Known.other (h : Known c channels es s) (hphase : t.phase = s.phase)
    (hattempt : t.attempt = s.attempt) (hne : ∀ o, e ≠ .attempt o) (hlost : e ≠ .lost)
    (hsub : t.subscriptions = subscribedSoFar channels (es ++ [e]))
    (hactive : s.active = some s.subscriptions → t.active = some t.subscriptions) :
    Known c channels (es ++ [e]) t := by
  have hrun : t.Running ↔ s.Running := by simp only [Running, hphase]
  refine ⟨hsub, ?_, ?_⟩
  · intro ht
    obtain ⟨hzero, hs⟩ := h.connected (hrun.mp ht)
    exact ⟨by rw [hattempt, hzero], hactive hs⟩
  · rw [hrun, h.running, noFailure_snoc]
    simp [hne, hlost]

/-- Channels are added or taken away, here and at the server. -/
theorem Known.registered (h : Known c channels es s) (f : Finset String → Finset String)
    (hne : ∀ o, e ≠ .attempt o) (hlost : e ≠ .lost)
    (hsub : subscribedSoFar channels (es ++ [e]) = f (subscribedSoFar channels es))
    (hs : s.active.map (fun S => { s with subscriptions := f s.subscriptions, active := some (f S) }) =
      some t) : Known c channels (es ++ [e]) t := by
  obtain ⟨S, hS, rfl⟩ := Option.map_eq_some_iff.mp hs
  refine h.other rfl rfl hne hlost (by rw [hsub, h.subscriptions]) fun hactive => ?_
  rw [hS, Option.some.injEq] at hactive
  rw [hactive]

theorem Known.step (h : Known c channels es s) (hs : s.step c e = some t) :
    Known c channels (es ++ [e]) t := by
  cases e with
  | message =>
    cases hp : s.phase with
    | listening =>
      simp only [Feed.step, hp, Option.some.injEq] at hs
      subst hs
      exact h.other rfl rfl (by simp) (by simp) (by rw [subscribedSoFar_snoc, h.subscriptions]) id
    | sleeping d => simp [Feed.step, hp] at hs
    | ended x => simp [Feed.step, hp] at hs
  | lost =>
    cases hp : s.phase with
    | listening =>
      simp only [Feed.step, hp, Option.some.injEq] at hs
      subst hs
      exact h.lost (by simp [Running, hp])
    | sleeping d => simp [Feed.step, hp] at hs
    | ended x => simp [Feed.step, hp] at hs
  | attempt o =>
    cases hp : s.phase with
    | sleeping d =>
      simp only [Feed.step, hp] at hs
      exact h.attempt (by simp [Running, hp]) hs
    | listening => simp [Feed.step, hp] at hs
    | ended x => simp [Feed.step, hp] at hs
  | subscribe symbols timeframe =>
    simp only [Feed.step] at hs
    exact h.registered (· ∪ barChannels symbols timeframe) (by simp) (by simp)
      (subscribedSoFar_snoc ..) hs
  | unsubscribe symbols timeframe =>
    simp only [Feed.step] at hs
    exact h.registered (· \ barChannels symbols timeframe) (by simp) (by simp)
      (subscribedSoFar_snoc ..) hs

theorem Known.of_run (h : Run (Feed.step c) (init channels) es s) : Known c channels es s :=
  h.invariant (Known c channels) (known_init c channels) fun _ _ _ _ _ hk _ hs => hk.step hs

end Feed

/-- **When a feed survives.** After any events a feed goes on, backs off
after failures and listens to its channels, just if no attempt of the run
failed (and a delay is configured when the connection was lost). -/
theorem feed_survives_iff (h : Run (Feed.step c) (Feed.init channels) es s) :
    Survives c channels es s ↔ NoFailure c es := by
  have hk := Feed.Known.of_run h
  constructor
  · intro hsurv
    exact hk.running.mp hsurv.running
  · intro hnf
    have hr := hk.running.mpr hnf
    refine ⟨hr, ?_, ?_⟩
    · intro k hfail
      rw [consecutiveFailures_eq_zero hnf] at hfail
      omega
    · intro _
      rw [(hk.connected hr).2, hk.subscriptions]

end Runs

/-- A loss and a successful attempt between a subscription and another. -/
def reconnectedFeed : List FeedEvent :=
  [.subscribe ["XAUUSD"] "1m", .lost, .attempt .succeeds, .subscribe ["EURUSD"] "1m", .lost,
   .attempt .succeeds]

theorem feed_survives_iff_reconnected :
    ∃ s, Run (Feed.step zmqFeedConfig) redisFeed reconnectedFeed s ∧
      Survives zmqFeedConfig ∅ reconnectedFeed s := by
  have hrun : Run (Feed.step zmqFeedConfig) redisFeed reconnectedFeed _ := .of_exec rfl
  refine ⟨_, hrun, (feed_survives_iff hrun).mpr ⟨?_, ?_⟩⟩
  · intro o ho
    simpa [reconnectedFeed] using ho
  · intro _
    simp [zmqFeedConfig]

/-- One attempt that fails, with any number of attempts allowed, ends both
feeds: there is no second wait. -/
theorem failed_attempt_ends_feed :
    (∃ s, Run (Feed.step { delays := [1, 2] }) redisFeed
        [.lost, .attempt (.connectFails "ConnectionError")] s ∧
      s.phase = .ended (.raised "ConnectionError") ∧
      ¬ Survives { delays := [1, 2] } ∅ [.lost, .attempt (.connectFails "ConnectionError")] s) ∧
    ∃ s, Run (Feed.step zmqFeedConfig) zmqFeed [.lost, .attempt (.connectFails "ZMQError")] s ∧
      s.phase = .ended (.raised "ZMQError") := by
  refine ⟨⟨_, .of_exec rfl, rfl, ?_⟩, ⟨_, .of_exec rfl, rfl⟩⟩
  intro h
  exact h.running _ rfl

end TdSandboxed
