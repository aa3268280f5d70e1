/-
TdSandboxed.Bridge.ZmqServer — the loop of the MT5 bridge
(`mt5-bridge/src/zmq_server.rs`, `protocol.rs`, `models/order.rs`).

One `select!` loop takes a REP message or an order command, handles it to
its end and goes round again. Orders wait in one bounded channel for all
accounts; the loop is both its sender and its receiver.

A message arrives as `serde_json` read it: the payload, or the text of the
error. The map of heartbeat times is left out, since only the warnings of
the monitor read it.
-/
import Mathlib.Data.Rat.Defs
import TdSandboxed.Lib.Run

namespace TdSandboxed.Bridge

/-! ## Messages -/

inductive OrderSide
  | buy
  | sell
  deriving DecidableEq

/-- An order command. -/
structure Order where
  action : OrderSide
  symbol : String
  volume : ℚ
  price : ℚ
  sl : Option ℚ
  tp : Option ℚ
  orderId : String
  accountId : String
  deriving DecidableEq

inductive MessageType
  | tick
  | order
  | orderResult
  | heartbeat
  | ack
  | error
  deriving DecidableEq

/-- The message field of a response: a text, or the JSON of an order. -/
inductive ResponseMessage
  | text (s : String)
  | order (o : Order)
  deriving DecidableEq

structure AckResponse where
  msgType : MessageType
  status : String
  message : Option ResponseMessage
  deriving DecidableEq

namespace AckResponse

def ok : AckResponse := { msgType := .ack, status := "ok", message := none }

def error (message : String) : AckResponse :=
  { msgType := .error, status := "error", message := some (.text message) }

/-- The order a response carries. -/
def order? (r : AckResponse) : Option Order :=
  match r.message with
  | some (.order o) => some o
  | _ => none

end AckResponse

def orderToAckResponse (o : Order) : AckResponse :=
  { msgType := .order, status := "order", message := some (.order o) }

/-- How a send on the PUB socket ends. -/
inductive Publish
  | sent
  | fails (e : String)
  /-- It is still waiting when the processing timeout is over. -/
  | hangs
  deriving DecidableEq

/-- A message on the REP socket. A tick and an order result that can be
read are published, and say here how that ends. -/
inductive RepMessage
  /-- Not an `IncomingMessage`. -/
  | unparsed (e : String)
  | tick (payload : Except String Publish)
  /-- The account of the heartbeat. -/
  | heartbeat (payload : Except String String)
  | orderResult (payload : Except String Publish)
  /-- `order`, `ack` or `error`. -/
  | unexpected

/-! ## The loop -/

/-- `ORDER_QUEUE_CAPACITY` -/
def orderQueueCapacity : ℕ := 100

/-- The server between two awaits of its loop. -/
structure ZmqServer where
  /-- The channel from `order_tx` to `order_rx`, its head first. -/
  orderQueue : List Order := []
  /-- The order `handle_order_command` is sending to the channel. The loop
  is inside that step until the send is done. -/
  sending : Option Order := none
  deriving DecidableEq

/-- `order_tx.send`, which waits while the channel is full (`none`). -/
def send (q : List Order) (o : Order) : Option (List Order) :=
  if q.length < orderQueueCapacity then some (q ++ [o]) else none

/-- What the timeout around `handle_rep_message` answers. -/
def processingTimeout : AckResponse := .error "Processing timeout"

def handleTickMessage : Except String Publish → AckResponse
  | .ok .sent => .ok
  | .ok (.fails e) => .error ("Failed to publish tick: " ++ e)
  | .ok .hangs => processingTimeout
  | .error e => .error ("Invalid tick payload: " ++ e)

/-- The queue after a heartbeat, and the response. -/
def handleHeartbeatMessage (q : List Order) : Except String String → List Order × AckResponse
  | .error e => (q, .error ("Invalid heartbeat payload: " ++ e))
  | .ok accountId =>
    match q with
    | [] => (q, .ok)
    | o :: rest =>
      if o.accountId = accountId then (rest, orderToAckResponse o)
      else
        -- put back for a different account; the popped order is gone if that waits too long
        match send rest o with
        | some q' => (q', .ok)
        | none => (rest, processingTimeout)

def handleOrderResultMessage : Except String Publish → AckResponse
  | .ok .sent => .ok
  | .ok (.fails _) => .ok
  | .ok .hangs => processingTimeout
  | .error e => .error ("Invalid order result payload: " ++ e)

def handleRepMessage (q : List Order) : RepMessage → List Order × AckResponse
  | .unparsed e => (q, .error ("JSON parse error: " ++ e))
  | .tick p => (q, handleTickMessage p)
  | .heartbeat p => handleHeartbeatMessage q p
  | .orderResult p => (q, handleOrderResultMessage p)
  | .unexpected => (q, .error "Unexpected message type on REP socket")

inductive Event
  /-- A message on REP is handled and answered; `sent`: the reply went out. -/
  | rep (msg : RepMessage) (sent : Bool)
  /-- A receive raises. -/
  | recvError
  /-- A message on SUB; `none`: it has no payload. -/
  | order (msg : Option (Except String Order))
  /-- The send of `handle_order_command` is done. -/
  | queued

namespace ZmqServer

/-- `handle_order_command` up to its send. -/
def handleOrderCommand (s : ZmqServer) : Option (Except String Order) → ZmqServer
  | some (.ok o) => { s with sending := some o }
  | _ => s

/-- One step of `run`. -/
def step (s : ZmqServer) : Event → Option ZmqServer
  | .queued => s.sending.bind fun o =>
      (send s.orderQueue o).map fun q => { orderQueue := q, sending := none }
  | .rep msg _ =>
    if s.sending.isSome then none
    else some { s with orderQueue := (handleRepMessage s.orderQueue msg).1 }
  | .recvError => if s.sending.isSome then none else some s
  | .order msg => if s.sending.isSome then none else some (s.handleOrderCommand msg)

/-- The response to a REP message. -/
def response (s : ZmqServer) (msg : RepMessage) : AckResponse :=
  (handleRepMessage s.orderQueue msg).2

/-- What a step of the loop can do. -/
theorem step_cases {s t : ZmqServer} {e : Event} (h : s.step e = some t) :
    (∃ msg sent, e = .rep msg sent ∧ s.sending = none ∧
      t = { s with orderQueue := (handleRepMessage s.orderQueue msg).1 }) ∨
    (e = .recvError ∧ s.sending = none ∧ t = s) ∨
    (∃ msg, e = .order msg ∧ s.sending = none ∧ t = s.handleOrderCommand msg) ∨
    (∃ o, e = .queued ∧ s.sending = some o ∧ s.orderQueue.length < orderQueueCapacity ∧
      t = { orderQueue := s.orderQueue ++ [o], sending := none }) := by
  cases e with
  | rep msg sent =>
    simp only [step, Option.ite_none_left_eq_some, Option.some.injEq] at h
    obtain ⟨hs, rfl⟩ := h
    exact .inl ⟨msg, sent, rfl, by simpa using hs, rfl⟩
  | recvError =>
    simp only [step, Option.ite_none_left_eq_some, Option.some.injEq] at h
    obtain ⟨hs, rfl⟩ := h
    exact .inr (.inl ⟨rfl, by simpa using hs, rfl⟩)
  | order msg =>
    simp only [step, Option.ite_none_left_eq_some, Option.some.injEq] at h
    obtain ⟨hs, rfl⟩ := h
    exact .inr (.inr (.inl ⟨msg, rfl, by simpa using hs, rfl⟩))
  | queued =>
    simp only [step, send, Option.bind_eq_some_iff, Option.map_eq_some_iff,
      Option.ite_none_right_eq_some, Option.some.injEq] at h
    obtain ⟨o, ho, q, ⟨hlt, rfl⟩, rfl⟩ := h
    exact .inr (.inr (.inr ⟨o, rfl, ho, hlt, rfl⟩))

/-! ## The queue after one message -/

/-- A heartbeat leaves at most as many orders. -/
theorem handleHeartbeat_length_le (q : List Order) (p : Except String String) :
    (handleHeartbeatMessage q p).1.length ≤ q.length := by
  cases p with
  | error e => exact le_refl _
  | ok a =>
    cases q with
    | nil => exact le_refl _
    | cons o rest =>
      by_cases ha : o.accountId = a
      · simp [handleHeartbeatMessage, ha]
      · by_cases hlt : rest.length < orderQueueCapacity
        · simp [handleHeartbeatMessage, ha, send, hlt]
        · simp [handleHeartbeatMessage, ha, send, hlt]

theorem handleRep_length_le (q : List Order) (msg : RepMessage) :
    (handleRepMessage q msg).1.length ≤ q.length := by
  cases msg with
  | heartbeat p => exact handleHeartbeat_length_le q p
  | _ => exact le_refl _

/-- The channel is never over its capacity. -/
def Bounded (s : ZmqServer) : Prop := s.orderQueue.length ≤ orderQueueCapacity

theorem Bounded.step {s t : ZmqServer} {e : Event} (hb : s.Bounded) (h : s.step e = some t) :
    t.Bounded := by
  rcases step_cases h with ⟨msg, _, -, -, rfl⟩ | ⟨-, -, rfl⟩ | ⟨msg, -, -, rfl⟩ | ⟨o, -, -, hlt, rfl⟩
  · exact le_trans (handleRep_length_le _ _) hb
  · exact hb
  · unfold handleOrderCommand
    split <;> exact hb
  · simp only [Bounded, List.length_append, List.length_singleton]
    omega

theorem Bounded.of_run {ok : ZmqServer → Event → Prop} {es : List Event} {s : ZmqServer}
    (h : Lib.RunWhere ZmqServer.step ok {} es s) : s.Bounded :=
  h.invariant_state Bounded (Nat.zero_le _) fun _ _ _ hb _ hs => hb.step hs

/-- There is room for the order a heartbeat puts back. -/
theorem send_rotated {o : Order} {rest : List Order} (h : (o :: rest).length ≤ orderQueueCapacity) :
    send rest o = some (rest ++ [o]) := by
  rw [List.length_cons] at h
  rw [send, if_pos (by omega)]

end ZmqServer

end TdSandboxed.Bridge
