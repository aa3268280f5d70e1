/-
TdSandboxed.TvApi.SendQueue — the send queue of the TradingView client
(`pkg/tradingview/client.go`: `Send`, `SendRaw`, `sendLoop`,
`processSendQueue` and `handleRateLimit`).

Three kinds of goroutines share the client. `queueMu` guards the queue and
is held from the first message of a pass to its end; `mu` guards the
backoff and the time of the last send, and is held for one assignment or
one test at a time. So a pass of the send loop is many steps, and the
packets of the receive loop and the clock come between any two of them.

`Watched` adds what an observer of the connection knows: the messages
queued and sent so far, and the last `rate_limit` packet. The messages sent
are a prefix of those queued in every run (`fifo_of_run`). The pace is kept
in the runs whose steps are `Paced`.
-/
import TdSandboxed.TvApi.ClientReconnect

namespace TdSandboxed

open Lib

/-! ## State -/

/-- Where the send loop is. -/
inductive SendQueue.Phase
  /-- The `select` of `sendLoop`. -/
  | idle
  /-- `processSendQueue` has read this backoff. -/
  | checking (backoff : ℤ)
  /-- Before `c.queueMu.Lock()`. -/
  | locking
  /-- The head of the loop over the queue. -/
  | draining
  /-- `c.conn.Send(message)` -/
  | sending (message : String)
  /-- Before the last send time is set. -/
  | stamping
  | returned
  deriving DecidableEq

structure SendQueue where
  phase : SendQueue.Phase := .idle
  sendQueue : List String := []
  isLogged : Bool := false
  rateLimitBackoff : ℤ := 0
  lastSendTime : ℤ
  /-- The clock. -/
  now : ℤ
  cancelled : Bool := false
  deriving DecidableEq

namespace SendQueue

inductive Event
  /-- `Send` or `SendRaw` -/
  | queue (message : String)
  /-- The ticker fires: `isLogged` and the backoff are read. -/
  | tick
  /-- The backoff read is compared with the time since the last send. -/
  | check
  | lock
  /-- The first message is taken, or the pass ends. -/
  | take
  /-- `c.conn.Send` returns. -/
  | sent (ok : Bool)
  | stamp
  /-- A `rate_limit` packet is handled. -/
  | rateLimit
  /-- `authenticate` has sent its packet. -/
  | loggedIn
  /-- Another packet is received, or a pong is sent. -/
  | traffic
  | advance (d : ℕ)
  | cancel
  /-- `sendLoop` sees the cancelled context. -/
  | stop
  deriving DecidableEq

/-! ## Steps -/

/-- The first `rate_limit` asks for one second, the next for twice as long. -/
def nextBackoff (backoff : ℤ) : ℤ :=
  if backoff = 0 then second
  else if backoff * 2 > 30 * second then 30 * second else backoff * 2

def handleRateLimit (s : SendQueue) : SendQueue :=
  { s with rateLimitBackoff := nextBackoff s.rateLimitBackoff }

/-- The pass holds `queueMu`. -/
def Phase.holdsQueue : Phase → Bool
  | .draining | .sending _ | .stamping => true
  | _ => false

def step (s : SendQueue) (e : Event) : Option SendQueue :=
  match e, s.phase with
  | .queue message, phase =>
    if phase.holdsQueue then none else some { s with sendQueue := s.sendQueue ++ [message] }
  | .tick, .idle =>
    some { s with phase := if s.isLogged then .checking s.rateLimitBackoff else .idle }
  | .check, .checking backoff =>
    if backoff > 0 then
      if s.now - s.lastSendTime < backoff then some { s with phase := .idle }
      -- the backoff period counts as expired
      else some { s with rateLimitBackoff := 0, phase := .locking }
    else some { s with phase := .locking }
  | .lock, .locking => some { s with phase := .draining }
  | .take, .draining =>
    match s.sendQueue with
    | [] => some { s with phase := .idle }
    | message :: rest => some { s with sendQueue := rest, phase := .sending message }
  | .sent true, .sending _ => some { s with phase := .stamping }
  | .sent false, .sending message =>
    some { s with sendQueue := message :: s.sendQueue, phase := .idle }
  | .stamp, .stamping => some { s with lastSendTime := s.now, phase := .draining }
  | .rateLimit, _ => some s.handleRateLimit
  | .loggedIn, _ => some { s with isLogged := true }
  | .traffic, _ => some s
  | .advance d, _ => some { s with now := s.now + d }
  | .cancel, _ => some { s with cancelled := true }
  | .stop, .idle => if s.cancelled then some { s with phase := .returned } else none
  | _, _ => none

/-- What a step can be. -/
inductive Stepped (s : SendQueue) : Event → SendQueue → Prop
  | queue (message : String) : s.phase.holdsQueue = false →
    Stepped s (.queue message) { s with sendQueue := s.sendQueue ++ [message] }
  | tick : s.phase = .idle →
    Stepped s .tick { s with phase := if s.isLogged then .checking s.rateLimitBackoff else .idle }
  | backsOff (backoff : ℤ) : s.phase = .checking backoff →
    Stepped s .check { s with phase := .idle }
  | expired (backoff : ℤ) : s.phase = .checking backoff → 0 < backoff →
    backoff ≤ s.now - s.lastSendTime →
    Stepped s .check { s with rateLimitBackoff := 0, phase := .locking }
  | unlimited (backoff : ℤ) : s.phase = .checking backoff → ¬ 0 < backoff →
    Stepped s .check { s with phase := .locking }
  | lock : s.phase = .locking → Stepped s .lock { s with phase := .draining }
  | finish : s.phase = .draining → s.sendQueue = [] → Stepped s .take { s with phase := .idle }
  | take (message : String) (rest : List String) : s.phase = .draining →
    s.sendQueue = message :: rest →
    Stepped s .take { s with sendQueue := rest, phase := .sending message }
  | sent (message : String) : s.phase = .sending message →
    Stepped s (.sent true) { s with phase := .stamping }
  | failed (message : String) : s.phase = .sending message →
    Stepped s (.sent false) { s with sendQueue := message :: s.sendQueue, phase := .idle }
  | stamp : s.phase = .stamping →
    Stepped s .stamp { s with lastSendTime := s.now, phase := .draining }
  | rateLimit : Stepped s .rateLimit s.handleRateLimit
  | loggedIn : Stepped s .loggedIn { s with isLogged := true }
  | traffic : Stepped s .traffic s
  | advance (d : ℕ) : Stepped s (.advance d) { s with now := s.now + d }
  | cancel : Stepped s .cancel { s with cancelled := true }
  | stop : s.phase = .idle → Stepped s .stop { s with phase := .returned }

theorem Stepped.of_step {s c : SendQueue} {e : Event} (h : s.step e = some c) :
    Stepped s e c := by
  unfold step at h
  split at h
  case h_1 message =>
    split at h
    · cases h
    · rename_i hfree
      cases h
      exact .queue message (Bool.eq_false_of_not_eq_true hfree)
  case h_2 hp => cases h; exact .tick hp
  case h_3 backoff hp =>
    split at h
    · split at h <;> cases h
      · exact .backsOff backoff hp
      · exact .expired backoff hp ‹_› (by omega)
    · cases h
      exact .unlimited backoff hp ‹_›
  case h_4 hp => cases h; exact .lock hp
  case h_5 hp =>
    split at h <;> cases h
    · exact .finish hp ‹_›
    · exact .take _ _ hp ‹_›
  case h_6 message hp => cases h; exact .sent message hp
  case h_7 message hp => cases h; exact .failed message hp
  case h_8 hp => cases h; exact .stamp hp
  case h_9 => cases h; exact .rateLimit
  case h_10 => cases h; exact .loggedIn
  case h_11 => cases h; exact .traffic
  case h_12 d => cases h; exact .advance d
  case h_13 => cases h; exact .cancel
  case h_14 hp =>
    split at h <;> cases h
    exact .stop hp
  case h_15 => cases h

/-- The message in the hands of the connection. -/
def inFlight (s : SendQueue) : List String :=
  match s.phase with
  | .sending message => [message]
  | _ => []

/-- The messages the client still holds, in order. -/
def held (s : SendQueue) : List String := s.inFlight ++ s.sendQueue

end SendQueue

open SendQueue

/-! ## What an observer knows -/

/-- The client and the traffic so far. -/
structure Watched where
  client : SendQueue
  queued : List String := []
  /-- The messages whose `Send` returned without an error. -/
  sent : List String := []
  /-- When the last `rate_limit` packet was handled, and the backoff since. -/
  limit : Option (ℤ × ℤ) := none
  /-- No successful traffic since. -/
  quiet : Bool := false
  deriving DecidableEq

namespace Watched

/-- `NewClient`, when the clock shows `start`. -/
def init (start : ℤ) : Watched := { client := { lastSendTime := start, now := start } }

/-- What the event adds to the traffic, when it takes the client to `c`. -/
def record (w : Watched) : Event → SendQueue → Watched
  | .queue message, c => { w with client := c, queued := w.queued ++ [message] }
  | .sent true, c => { w with client := c, sent := w.sent ++ w.client.inFlight, quiet := false }
  | .rateLimit, c =>
    { w with client := c, limit := some (w.client.now, c.rateLimitBackoff), quiet := true }
  | .loggedIn, c | .traffic, c => { w with client := c, quiet := false }
  | _, c => { w with client := c }

def step (w : Watched) (e : Event) : Option Watched := (w.client.step e).map (w.record e)

/-- The backoff, counted from the last `rate_limit` packet, is over. -/
def BackoffOver (w : Watched) : Prop :=
  ∀ limit ∈ w.limit, limit.1 + limit.2 ≤ w.client.now

instance (w : Watched) : Decidable w.BackoffOver :=
  inferInstanceAs (Decidable (∀ limit ∈ w.limit, limit.1 + limit.2 ≤ w.client.now))

/-- What each step owes: a message is taken to be sent only when the
backoff is over, and a further `rate_limit` packet doubles the backoff
while the connection is quiet. -/
def Obeys (w : Watched) (e : Event) : Prop :=
  match e with
  | .take => w.client.sendQueue ≠ [] → w.BackoffOver
  | .rateLimit => w.quiet = true → ∀ limit ∈ w.limit,
      w.client.handleRateLimit.rateLimitBackoff = min (limit.2 * 2) (30 * second)
  | _ => True

instance (w : Watched) : DecidablePred w.Obeys
  | .take => inferInstanceAs (Decidable (_ → _))
  | .rateLimit => inferInstanceAs (Decidable (_ → ∀ limit ∈ w.limit, _))
  | .queue _ | .tick | .check | .lock | .sent _ | .stamp | .loggedIn | .traffic | .advance _
  | .cancel | .stop => .isTrue trivial

/-- The law of the send queue, over a run. -/
structure Lawful (start : ℤ) (es : List Event) : Prop where
  fifo : Always step (fun _ w => w.sent <+: w.queued) (init start) es
  paced : Checked step Obeys (init start) es

/-- A pass that has read a backoff to wait for. -/
def AwaitsBackoff : SendQueue.Phase → Prop
  | .checking backoff => 0 < backoff
  | .idle | .returned => True
  | _ => False

instance : DecidablePred AwaitsBackoff
  | .checking backoff => inferInstanceAs (Decidable (0 < backoff))
  | .idle | .returned => .isTrue trivial
  | .locking | .draining | .sending _ | .stamping => .isFalse id

/-- When the steps keep the pace. The test of a pass lets it go on only
when the backoff is over, counted from the packet as well; and a packet is
handled only while no pass is beyond its test, and while the backoff of the
packet before is in force unless there was traffic since. -/
def Paced (w : Watched) (e : Event) : Prop :=
  match e, w.client.phase with
  | .check, .checking backoff =>
    0 < backoff → backoff ≤ w.client.now - w.client.lastSendTime → w.BackoffOver
  | .rateLimit, phase => AwaitsBackoff phase ∧ (w.quiet = true → w.client.rateLimitBackoff ≠ 0)
  | _, _ => True

/-! ## The order of the messages -/

instance (w : Watched) (e : Event) : Decidable (w.Paced e) := by
  unfold Paced
  split <;> infer_instance

end Watched

/-- A step puts a message last, or lets the first one go when its `Send`
has returned; a message that could not be sent is first again. -/
def SendQueue.Conserves (s c : SendQueue) : Event → Prop
  | .queue message => c.held = s.held ++ [message]
  | .sent true => s.held = s.inFlight ++ c.held
  | _ => c.held = s.held

theorem SendQueue.Stepped.conserves {s c : SendQueue} {e : Event} (h : Stepped s e c) :
    s.Conserves c e := by
  cases h with
  | queue message hp => simp [Conserves, SendQueue.held, inFlight]
  | tick hp => cases s.isLogged <;> simp [Conserves, SendQueue.held, inFlight, hp]
  | take message rest hp hq => simp [Conserves, SendQueue.held, inFlight, hp, hq]
  | _ => simp_all [Conserves, SendQueue.held, inFlight, handleRateLimit]

namespace Watched

section Runs

variable {w w' : Watched} {e : Event} {start : ℤ} {es : List Event}

/-- What was queued is what was sent and what the client holds. -/
def Fifo (w : Watched) : Prop := w.queued = w.sent ++ w.client.held

theorem fifo_init (start : ℤ) : (init start).Fifo := rfl

theorem Fifo.step (h : w.Fifo) (hs : w.step e = some w') : w'.Fifo := by
  obtain ⟨c, hc, rfl⟩ := Option.map_eq_some_iff.mp hs
  have hheld := (Stepped.of_step hc).conserves
  simp only [Fifo, Conserves] at h hheld ⊢
  cases e with
  | queue message => simp only [record, h, hheld, List.append_assoc]
  | sent ok =>
    cases ok with
    | true => simp only [record, h, hheld, List.append_assoc]
    | false => simp only [record, h, hheld]
  | _ => simp only [record, h, hheld]

/-- The messages sent are a prefix of the messages queued. -/
theorem fifo_of_run (h : Run step (init start) es w) : w.sent <+: w.queued := by
  have hfifo : w.Fifo := h.invariant_state Fifo (fifo_init start) fun _ _ _ hi _ hs => hi.step hs
  exact ⟨w.client.held, hfifo.symm⟩

/-! ## The pace -/

/-- What is known of the backoff between the packets. -/
structure Pace (w : Watched) : Prop where
  fresh : w.limit = none → w.client.rateLimitBackoff = 0
  bounds : ∀ limit ∈ w.limit, second ≤ limit.2 ∧ limit.2 ≤ 30 * second
  /-- The backoff is cleared only when it is over. -/
  backoff : ∀ limit ∈ w.limit, w.client.rateLimitBackoff = limit.2 ∨
    w.client.rateLimitBackoff = 0 ∧ w.BackoffOver
  pass : ¬ AwaitsBackoff w.client.phase → w.BackoffOver

theorem pace_init (start : ℤ) : (init start).Pace where
  fresh := fun _ => rfl
  bounds := fun _ h => (by cases h)
  backoff := fun _ h => (by cases h)
  pass := fun h => absurd trivial h

theorem second_pos : 0 < second := by decide

/-- A backoff of zero has been cleared, or there was none. -/
theorem Pace.over_of_zero (h : w.Pace) (hzero : ¬ 0 < w.client.rateLimitBackoff) :
    w.BackoffOver := by
  intro limit hlimit
  cases h.backoff limit hlimit with
  | inl heq =>
    have hlow := (h.bounds limit hlimit).1
    have hpos := second_pos
    omega
  | inr hover => exact hover.2 limit hlimit

/-- A step that handles no packet and leaves the backoff alone, when what
it leads to is no pass beyond its test, or one that already was. -/
theorem Pace.keep {c : SendQueue} {queued sent : List String} {quiet : Bool} (h : w.Pace)
    (hbackoff : c.rateLimitBackoff = w.client.rateLimitBackoff) (hnow : w.client.now ≤ c.now)
    (hpass : ¬ AwaitsBackoff c.phase → w.BackoffOver) :
    Pace { w with client := c, queued, sent, quiet } := by
  have hover : w.BackoffOver → BackoffOver { w with client := c, queued, sent, quiet } :=
    fun ho limit hlimit => (ho limit hlimit).trans hnow
  refine ⟨fun hnone => hbackoff.trans (h.fresh hnone), h.bounds, fun limit hlimit => ?_,
    fun hp => hover (hpass hp)⟩
  exact (h.backoff limit hlimit).imp hbackoff.trans fun hz => ⟨hbackoff.trans hz.1, hover hz.2⟩

theorem nextBackoff_bounds {b : ℤ} (h : b = 0 ∨ second ≤ b) :
    second ≤ nextBackoff b ∧ nextBackoff b ≤ 30 * second := by
  have hpos := second_pos
  unfold nextBackoff
  split
  · omega
  · split <;> omega

/-- A packet starts its backoff where no pass is beyond its test. -/
theorem Pace.rateLimit (h : w.Pace) (hawaits : AwaitsBackoff w.client.phase) :
    (w.record .rateLimit w.client.handleRateLimit).Pace where
  fresh := fun hnone => (by cases hnone)
  bounds := by
    intro limit hlimit
    obtain rfl := Option.some.inj hlimit
    refine nextBackoff_bounds ?_
    cases hl : w.limit with
    | none => exact .inl (h.fresh hl)
    | some limit =>
      cases h.backoff limit hl with
      | inl heq => exact .inr (heq ▸ (h.bounds limit hl).1)
      | inr hz => exact .inl hz.1
  backoff := by
    intro limit hlimit
    obtain rfl := Option.some.inj hlimit
    exact .inl rfl
  pass := fun hp => absurd hawaits hp

/-- **What a paced step keeps.** -/
theorem Pace.step (h : w.Pace) (hpaced : w.Paced e) (hs : w.step e = some w') : w'.Pace := by
  obtain ⟨c, hc, rfl⟩ := Option.map_eq_some_iff.mp hs
  cases Stepped.of_step hc with
  | queue message hp => exact h.keep rfl le_rfl h.pass
  | tick hp =>
    refine h.keep rfl le_rfl fun hnot => ?_
    cases hl : w.client.isLogged with
    | false =>
      rw [hl] at hnot
      exact absurd trivial hnot
    | true =>
      rw [hl] at hnot
      exact h.over_of_zero hnot
  | backsOff backoff hp => exact h.keep rfl le_rfl fun hnot => absurd trivial hnot
  | expired backoff hp hpos hexp =>
    -- the one step that clears the backoff
    simp only [Paced, hp] at hpaced
    have hover := hpaced hpos hexp
    exact ⟨fun _ => rfl, h.bounds, fun _ _ => .inr ⟨rfl, hover⟩, fun _ => hover⟩
  | unlimited backoff hp hpos =>
    refine h.keep rfl le_rfl fun _ => h.pass ?_
    rw [hp]
    exact hpos
  | finish hp hq => exact h.keep rfl le_rfl fun hnot => absurd trivial hnot
  | failed message hp => exact h.keep rfl le_rfl fun hnot => absurd trivial hnot
  | stop hp => exact h.keep rfl le_rfl fun hnot => absurd trivial hnot
  | lock hp => exact h.keep rfl le_rfl fun _ => h.pass (by rw [hp]; exact id)
  | take message rest hp hq => exact h.keep rfl le_rfl fun _ => h.pass (by rw [hp]; exact id)
  | sent message hp => exact h.keep rfl le_rfl fun _ => h.pass (by rw [hp]; exact id)
  | stamp hp => exact h.keep rfl le_rfl fun _ => h.pass (by rw [hp]; exact id)
  | rateLimit => exact h.rateLimit hpaced.1
  | loggedIn => exact h.keep rfl le_rfl h.pass
  | traffic => exact h.keep rfl le_rfl h.pass
  | advance d => exact h.keep rfl (Int.le_add_of_nonneg_right (Int.natCast_nonneg d)) h.pass
  | cancel => exact h.keep rfl le_rfl h.pass

/-- A backoff in force is doubled, up to its limit. -/
theorem nextBackoff_eq_min {b : ℤ} (hb : second ≤ b) : nextBackoff b = min (b * 2) (30 * second) := by
  have hpos := second_pos
  rw [nextBackoff, if_neg (by omega)]
  split <;> omega

theorem Pace.obeys (h : w.Pace) (hpaced : w.Paced e) (hs : w.step e = some w') : w.Obeys e := by
  obtain ⟨c, hc, rfl⟩ := Option.map_eq_some_iff.mp hs
  cases Stepped.of_step hc with
  | finish hp hq => exact fun hne => absurd hq hne
  | take message rest hp hq => exact fun _ => h.pass (by rw [hp]; exact id)
  | rateLimit =>
    intro hquiet limit hlimit
    cases h.backoff limit hlimit with
    | inl heq =>
      show nextBackoff w.client.rateLimitBackoff = _
      rw [heq]
      exact nextBackoff_eq_min (h.bounds limit hlimit).1
    | inr hz => exact absurd hz.1 (hpaced.2 hquiet)
  | _ => trivial

/-- **In every run whose steps are paced the send queue keeps its law.** -/
theorem lawful_of_paced (start : ℤ) (es : List Event) (w : Watched)
    (h : exec step (init start) es = some w) (hpaced : Checked step Paced (init start) es) :
    Lawful start es where
  fifo := fun _ _ _ hrun => fifo_of_run (.of_exec hrun)
  paced := hpaced.mono_of_invariant Pace
    (fun _ _ _ hp hok hs => ⟨hp.step hok hs, hp.obeys hok hs⟩) (pace_init start) h

/-- A message, a packet that limits the rate, and the next message when the
backoff is over. -/
def limitedRun : List Event :=
  [.loggedIn, .queue "a", .tick, .check, .lock, .take, .sent true, .stamp, .take, .rateLimit,
    .queue "b", .advance 1000000000, .tick, .check, .lock, .take, .sent true, .stamp, .take]

theorem limitedRun_lawful : Lawful 0 limitedRun :=
  lawful_of_paced 0 limitedRun
    { client := { isLogged := true, sendQueue := [], lastSendTime := second, now := second }
      queued := ["a", "b"]
      sent := ["a", "b"]
      limit := some (0, second) } (by decide) (by decide)

/-- A packet ten seconds after the last send: the next message is sent at
once. -/
theorem sent_within_backoff :
    ¬ Lawful 0 [.loggedIn, .advance 10000000000, .rateLimit, .queue "m", .tick, .check, .lock,
      .take] := by
  intro h
  exact absurd h.paced (by decide)

end Runs

end Watched

end TdSandboxed
