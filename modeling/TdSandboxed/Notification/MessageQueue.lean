/-
TdSandboxed.Notification.MessageQueue — the notification queue with its
retries (`internal/queue/message_queue.go`).

`Enqueue` and `processMessages` each hold `mu` from beginning to end, so
each is one step. A tick reads the clock once, when it begins. Then it
sends one message after the other, and every send takes its time; the clock
of the queue is where the last step left it.

A message carries its place among the calls of `Enqueue`, so that equal
texts can be told apart. `enqueued` and `log` are what an observer of the
two ends knows, and no operation reads them. Instants are nanoseconds;
durations are int64.
-/
import TdSandboxed.TvApi.ClientReconnect

namespace TdSandboxed

open Lib

/-! ## State -/

/-- The fields of `MessageQueue` that are never written. -/
structure MessageQueue.Policy where
  maxRetries : ℤ
  baseDelay : ℤ
  deriving DecidableEq

/-- `Message` -/
structure MessageQueue.Message where
  id : ℕ
  text : String
  attempts : ℕ := 0
  nextRetry : ℤ
  deriving DecidableEq

/-- How a call of `SendMessage` goes: the time it takes, and whether the
error is nil. -/
structure MessageQueue.Outcome where
  lasts : ℕ := 0
  sent : Bool
  deriving DecidableEq

/-- A call of `SendMessage`, with the count of attempts that it makes and
the time when it begins. -/
structure MessageQueue.Attempt where
  id : ℕ
  text : String
  number : ℕ
  start : ℤ
  sent : Bool
  deriving DecidableEq

structure MessageQueue where
  queue : List MessageQueue.Message := []
  clock : ℤ
  /-- The texts so far, in order. -/
  enqueued : List String := []
  /-- The calls of `SendMessage` so far. -/
  log : List MessageQueue.Attempt := []
  deriving DecidableEq

inductive MessageQueue.Event
  /-- `Enqueue`, when it has the lock. -/
  | enqueue (time : ℤ) (text : String)
  /-- `processMessages`, and how the sender takes each message. -/
  | tick (now : ℤ) (send : ℕ → MessageQueue.Outcome)

/-! ## Operations -/

namespace MessageQueue

/-- The delay after this number of failures: 1x, 2x, 4x... -/
def Policy.delay (p : Policy) (attempts : ℕ) : ℤ :=
  wrapInt64 (p.baseDelay * wrapInt64 (2 ^ (attempts - 1)))

def enqueue (s : MessageQueue) (time : ℤ) (text : String) : MessageQueue :=
  { s with
    clock := time
    queue := s.queue ++ [{ id := s.enqueued.length, text, nextRetry := time }]
    enqueued := s.enqueued ++ [text] }

/-- The body of the loop; `s.queue` is `remaining`. -/
def visit (p : Policy) (now : ℤ) (send : ℕ → Outcome) (s : MessageQueue)
    (msg : Message) : MessageQueue :=
  if msg.nextRetry > now then { s with queue := s.queue ++ [msg] }
  else
    let msg := { msg with attempts := msg.attempts + 1 }
    let outcome := send msg.id
    let s := { s with
      clock := s.clock + outcome.lasts
      log := s.log ++ [⟨msg.id, msg.text, msg.attempts, s.clock, outcome.sent⟩] }
    if outcome.sent then s
    else if msg.attempts ≥ p.maxRetries then s
    else { s with queue := s.queue ++ [{ msg with nextRetry := now + p.delay msg.attempts }] }

def processMessages (p : Policy) (now : ℤ) (send : ℕ → Outcome) (s : MessageQueue) :
    MessageQueue :=
  s.queue.foldl (visit p now send) { s with queue := [], clock := now }

def step (p : Policy) (s : MessageQueue) : Event → Option MessageQueue
  | .enqueue time text => if s.clock ≤ time then some (s.enqueue time text) else none
  | .tick now send => if s.clock ≤ now then some (s.processMessages p now send) else none

end MessageQueue

end TdSandboxed
