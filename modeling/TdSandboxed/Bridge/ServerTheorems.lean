/-
TdSandboxed.Bridge.ServerTheorems — what the bridge does with the orders
over whole runs.

Every order that was commanded is accounted for by one equation for each
account (`Accounted`): what was handed out, what is queued and what is
being sent, in this order, are the commands. A heartbeat keeps it unless
it puts an order back behind another one of the same account, or the
reply with an order fails.
-/
import Mathlib.Data.List.ReduceOption
import TdSandboxed.Bridge.ZmqServer

namespace TdSandboxed.Bridge

open Lib

namespace ZmqServer

/-! ## The orders of one account -/

/-- The orders of an account, in order. -/
def ofAccount (a : String) (os : List Order) : List Order :=
  os.filter fun o => o.accountId = a

@[simp] theorem ofAccount_nil (a : String) : ofAccount a [] = [] := rfl

@[simp] theorem ofAccount_append (a : String) (os ps : List Order) :
    ofAccount a (os ++ ps) = ofAccount a os ++ ofAccount a ps :=
  List.filter_append ..

theorem ofAccount_cons_self (o : Order) (os : List Order) :
    ofAccount o.accountId (o :: os) = o :: ofAccount o.accountId os := by
  simp [ofAccount]

theorem ofAccount_cons_of_ne {a : String} {o : Order} (h : o.accountId ≠ a) (os : List Order) :
    ofAccount a (o :: os) = ofAccount a os := by
  simp [ofAccount, h]

/-- An order that is the only one of its account may go to the tail: every
account has its orders as before. -/
theorem ofAccount_rotate {o : Order} {rest : List Order} (h : ofAccount o.accountId rest = [])
    (a : String) : ofAccount a (rest ++ [o]) = ofAccount a (o :: rest) := by
  by_cases ha : o.accountId = a
  · subst ha
    rw [ofAccount_append, ofAccount_cons_self, ofAccount_cons_self, h]
    rfl
  · rw [ofAccount_append, ofAccount_cons_of_ne ha, ofAccount_cons_of_ne ha]
    exact List.append_nil _

/-- The order an event commands. -/
def commandedBy : Event → Option Order
  | .order (some (.ok o)) => some o
  | _ => none

/-- The orders commanded so far. -/
def commanded (es : List Event) : List Order := es.filterMap commandedBy

/-- The order in the reply to a heartbeat of `a`, when that is sent. -/
def handOut (a : String) (s : ZmqServer) : Event → Option Order
  | .rep (.heartbeat (.ok b)) true =>
    if b = a then (s.response (.heartbeat (.ok b))).order? else none
  | _ => none

/-- The orders in the replies sent to the heartbeats of `a`. -/
def handedOut (a : String) (es : List Event) : List Order :=
  (observe step (handOut a) {} es).reduceOption

/-- Handed out, queued and being sent, in this order, are what was commanded. -/
def Accounted (es : List Event) (s : ZmqServer) : Prop :=
  ∀ a, handedOut a es ++ ofAccount a (s.orderQueue ++ s.sending.toList) =
    ofAccount a (commanded es)

/-! ## The heartbeats that keep the order -/

/-- The queue a heartbeat does no harm to: it is empty, or its head is for
that account and the reply goes out, or its head is put back without
passing by an order that waits for it: there is none of that account, and
no other of the head's. -/
def FairHeartbeat (q : List Order) (a : String) (sent : Bool) : Prop :=
  match q with
  | [] => True
  | o :: rest =>
    if o.accountId = a then sent = true
    else ofAccount a rest = [] ∧ ofAccount o.accountId rest = []

instance (q : List Order) (a : String) (sent : Bool) : Decidable (FairHeartbeat q a sent) := by
  unfold FairHeartbeat
  split <;> infer_instance

def Fair (s : ZmqServer) : Event → Prop
  | .rep (.heartbeat (.ok a)) sent => FairHeartbeat s.orderQueue a sent
  | _ => True

instance (s : ZmqServer) : (e : Event) → Decidable (Fair s e)
  | .rep (.heartbeat (.ok a)) sent => inferInstanceAs (Decidable (FairHeartbeat s.orderQueue a sent))
  | .rep (.heartbeat (.error _)) _ => .isTrue trivial
  | .rep (.unparsed _) _ => .isTrue trivial
  | .rep (.tick _) _ => .isTrue trivial
  | .rep (.orderResult _) _ => .isTrue trivial
  | .rep .unexpected _ => .isTrue trivial
  | .recvError => .isTrue trivial
  | .order _ => .isTrue trivial
  | .queued => .isTrue trivial

/-! ## Every order is accounted for -/

variable {es : List Event} {s t : ZmqServer} {e : Event}

theorem handedOut_snoc (a : String) (h : exec step {} es = some s) (he : s.step e = some t) :
    handedOut a (es ++ [e]) = handedOut a es ++ (handOut a s e).toList := by
  rw [handedOut, observe_snoc _ h he, List.reduceOption_append, List.reduceOption_singleton]
  rfl

theorem commanded_snoc (es : List Event) (e : Event) :
    commanded (es ++ [e]) = commanded es ++ (commandedBy e).toList := by
  cases hc : commandedBy e with
  | none => simp [commanded, hc]
  | some o => simp [commanded, hc]

/-- A fair heartbeat moves the oldest order of its account from the queue
to the reply, and leaves the orders of every other account. -/
theorem fair_heartbeat {q : List Order} {a : String} {sent : Bool}
    (hlen : q.length ≤ orderQueueCapacity) (hf : FairHeartbeat q a sent) :
    (handleHeartbeatMessage q (.ok a)).2.order? = (ofAccount a q).head? ∧
      ((handleHeartbeatMessage q (.ok a)).2.order?.isSome → sent = true) ∧
      (handleHeartbeatMessage q (.ok a)).2.order?.toList ++
        ofAccount a (handleHeartbeatMessage q (.ok a)).1 = ofAccount a q ∧
      ∀ b, b ≠ a → ofAccount b (handleHeartbeatMessage q (.ok a)).1 = ofAccount b q := by
  cases q with
  | nil => exact ⟨rfl, by simp [handleHeartbeatMessage, AckResponse.ok, AckResponse.order?], rfl,
      fun _ _ => rfl⟩
  | cons o rest =>
    by_cases ha : o.accountId = a
    · subst ha
      have hsent : sent = true := by simpa [FairHeartbeat] using hf
      have hq : handleHeartbeatMessage (o :: rest) (.ok o.accountId) =
          (rest, orderToAckResponse o) := by simp [handleHeartbeatMessage]
      rw [hq]
      refine ⟨?_, fun _ => hsent, ?_, ?_⟩
      · rw [ofAccount_cons_self]
        rfl
      · rw [ofAccount_cons_self]
        rfl
      · intro b hb
        rw [ofAccount_cons_of_ne (Ne.symm hb)]
    · obtain ⟨hnone, hhead⟩ : ofAccount a rest = [] ∧ ofAccount o.accountId rest = [] := by
        simpa [FairHeartbeat, ha] using hf
      have hq : handleHeartbeatMessage (o :: rest) (.ok a) = (rest ++ [o], .ok) := by
        simp [handleHeartbeatMessage, ha, send_rotated hlen]
      rw [hq]
      refine ⟨?_, ?_, ?_, fun b _ => ofAccount_rotate hhead b⟩
      · rw [ofAccount_cons_of_ne ha, hnone]
        rfl
      · simp [AckResponse.ok, AckResponse.order?]
      · exact ofAccount_rotate hhead a

/-- What the reply to a fair message hands out is what the queue gives up. -/
theorem handOut_fair {msg : RepMessage} {sent : Bool} (hb : s.Bounded)
    (hf : Fair s (.rep msg sent)) (a : String) :
    (handOut a s (.rep msg sent)).toList ++ ofAccount a (handleRepMessage s.orderQueue msg).1 =
      ofAccount a s.orderQueue := by
  cases msg with
  | heartbeat p =>
    cases p with
    | error x => rfl
    | ok b =>
      obtain ⟨-, hsent, hself, hother⟩ := fair_heartbeat hb hf
      by_cases hba : b = a
      · subst hba
        cases sent with
        | true => simpa [handOut, response, handleRepMessage] using hself
        | false =>
          -- the reply fails, so it carried no order
          have hno : (handleHeartbeatMessage s.orderQueue (.ok b)).2.order? = none := by
            simpa using mt hsent
          simpa [handOut, handleRepMessage, hno] using hself
      · have hnone : handOut a s (.rep (.heartbeat (.ok b)) sent) = none := by
          cases sent <;> simp [handOut, hba]
        rw [hnone]
        exact hother a (Ne.symm hba)
  | _ => rfl

theorem Accounted.step (hr : exec ZmqServer.step {} es = some s) (hb : s.Bounded)
    (h : Accounted es s) (hf : Fair s e) (hs : s.step e = some t) : Accounted (es ++ [e]) t := by
  intro a
  rw [handedOut_snoc a hr hs, commanded_snoc, ofAccount_append a (commanded es), ← h a]
  rcases step_cases hs with ⟨msg, sent, rfl, hnone, rfl⟩ | ⟨rfl, -, rfl⟩ | ⟨msg, rfl, hnone, rfl⟩ |
    ⟨o, rfl, ho, -, rfl⟩
  · have hq := handOut_fair hb hf a
    simp [hnone, commandedBy, ← hq]
  · simp [handOut, commandedBy]
  · cases msg with
    | none => simp [handleOrderCommand, handOut, commandedBy]
    | some p =>
      cases p with
      | error x => simp [handleOrderCommand, handOut, commandedBy]
      | ok o => simp [handleOrderCommand, handOut, commandedBy, hnone]
  · simp [handOut, commandedBy, ho]

theorem Accounted.of_run (h : RunWhere ZmqServer.step Fair {} es s) : Accounted es s :=
  h.invariant Accounted (fun _ => rfl) fun _ _ _ _ hr hi hf hs =>
    hi.step hr.exec_eq (Bounded.of_run hr) hf hs

/-- **Orders reach their accounts.** In a run of fair heartbeats, what the
heartbeats of an account were handed out is a first part of what was
commanded for it; the rest is queued, or being sent, in order. The next
fair heartbeat is answered with the oldest of these. -/
theorem orders_delivered_in_order (h : RunWhere ZmqServer.step Fair {} es s) (a : String) :
    handedOut a es <+: ofAccount a (commanded es) ∧
      handedOut a es ++ ofAccount a (s.orderQueue ++ s.sending.toList) =
        ofAccount a (commanded es) ∧
      ∀ sent, Fair s (.rep (.heartbeat (.ok a)) sent) →
        (s.response (.heartbeat (.ok a))).order? = (ofAccount a s.orderQueue).head? := by
  have hacc := Accounted.of_run h a
  refine ⟨⟨_, hacc⟩, hacc, ?_⟩
  intro sent hf
  exact (fair_heartbeat (Bounded.of_run h) hf).1

/-- An order of one lot. -/
def oneLot (orderId accountId : String) : Order :=
  { action := .buy, symbol := "EURUSD", volume := 1, price := 1, sl := none, tp := none,
    orderId, accountId }

/-- A command that arrives and is queued. -/
def command (o : Order) : List Event := [.order (some (.ok o)), .queued]

/-- A heartbeat; `sent`: the reply goes out. -/
def heartbeat (a : String) (sent : Bool) : Event := .rep (.heartbeat (.ok a)) sent

/-- Heartbeats that put an order back where it harms nothing, then the
deliveries. -/
def fairEvents : List Event :=
  command (oneLot "a1" "a") ++ command (oneLot "b1" "b") ++
    [heartbeat "c" true, heartbeat "c" false, heartbeat "a" true, heartbeat "b" true]

theorem orders_delivered_in_order_two_accounts :
    RunWhere step Fair {} fairEvents {} ∧ handedOut "b" fairEvents = [oneLot "b1" "b"] ∧
      handedOut "b" fairEvents <+: ofAccount "b" (commanded fairEvents) := by
  have hrun : RunWhere step Fair {} fairEvents {} := .of_checked (by decide +kernel) rfl
  exact ⟨hrun, by decide +kernel, (orders_delivered_in_order hrun "b").1⟩

/-- Two orders of `a` with one of `b` between them, then a heartbeat of `b`. -/
def putBackEvents : List Event :=
  command (oneLot "a1" "a") ++ command (oneLot "b1" "b") ++ command (oneLot "a2" "a") ++
    [heartbeat "b" true]

/-- The heartbeat of `b` puts `a`'s first order back behind its second, and
its reply carries nothing although `b`'s order was queued. `a` is then
handed the second order first. An order whose reply fails is gone. -/
theorem order_passed_by :
    handedOut "b" putBackEvents = [] ∧
      handedOut "a" (putBackEvents ++ [heartbeat "b" true, heartbeat "a" true, heartbeat "a" true]) =
        [oneLot "a2" "a", oneLot "a1" "a"] ∧
      Run step {} putBackEvents
        { orderQueue := [oneLot "b1" "b", oneLot "a2" "a", oneLot "a1" "a"] } ∧
      Run step {} (command (oneLot "a1" "a") ++ [heartbeat "a" false]) {} :=
  ⟨by decide +kernel, by decide +kernel, .of_exec rfl, .of_exec rfl⟩

/-! ## The loop and its own channel -/

/-- The server once the step it is in is done; `none`: that step waits. -/
def finish (s : ZmqServer) : Option ZmqServer :=
  if s.sending = none then some s else s.step .queued

/-- The step the loop is in can be completed, and the next message on REP
or SUB is then handled. -/
def Progress (s : ZmqServer) : Prop :=
  ∃ t, s.finish = some t ∧ (∀ msg sent, (t.step (.rep msg sent)).isSome) ∧
    ∀ msg, (t.step (.order msg)).isSome

/-- An order command comes while there is room for it. -/
def Room (s : ZmqServer) : Event → Prop
  | .order (some (.ok _)) => s.orderQueue.length < orderQueueCapacity
  | _ => True

instance (s : ZmqServer) : (e : Event) → Decidable (Room s e)
  | .order (some (.ok _)) =>
    inferInstanceAs (Decidable (s.orderQueue.length < orderQueueCapacity))
  | .order (some (.error _)) => .isTrue trivial
  | .order none => .isTrue trivial
  | .rep _ _ => .isTrue trivial
  | .recvError => .isTrue trivial
  | .queued => .isTrue trivial

theorem progress_iff :
    s.Progress ↔ (s.sending ≠ none → s.orderQueue.length < orderQueueCapacity) := by
  cases ho : s.sending with
  | none =>
    simp [Progress, finish, ho, ZmqServer.step]
  | some o =>
    by_cases hlt : s.orderQueue.length < orderQueueCapacity
    · simp [Progress, finish, ho, ZmqServer.step, send, hlt]
    · simp [Progress, finish, ho, ZmqServer.step, send, hlt]

/-- No step is taken from a state that cannot go on. -/
theorem progress_of_step (hs : s.step e = some t) : s.Progress := by
  rw [progress_iff]
  intro hne
  rcases step_cases hs with ⟨_, _, -, hnone, -⟩ | ⟨-, hnone, -⟩ | ⟨_, -, hnone, -⟩ |
    ⟨_, -, -, hlt, -⟩
  · exact absurd hnone hne
  · exact absurd hnone hne
  · exact absurd hnone hne
  · exact hlt

theorem progress_step_iff (hs : s.step e = some t) : t.Progress ↔ Room s e := by
  rw [progress_iff]
  rcases step_cases hs with ⟨msg, sent, rfl, hnone, rfl⟩ | ⟨rfl, hnone, rfl⟩ |
    ⟨msg, rfl, hnone, rfl⟩ | ⟨o, rfl, -, -, rfl⟩
  · simp [hnone, Room]
  · simp [hnone, Room]
  · cases msg with
    | none => simp [handleOrderCommand, hnone, Room]
    | some p => cases p <;> simp [handleOrderCommand, hnone, Room]
  · simp [Room]

/-- **When the loop cannot wait for itself.** The state a run leads to can
go on, and answers the next message, exactly when every order command of
the run came while the queue held fewer orders than its capacity. -/
theorem loop_progress_iff (h : Run ZmqServer.step {} es s) :
    s.Progress ↔ RunWhere ZmqServer.step Room {} es s := by
  induction h with
  | nil => exact iff_of_true (progress_iff.mpr (by simp)) .nil
  | snoc hr _ hs ih =>
    rw [progress_step_iff hs]
    constructor
    · intro hroom
      exact .snoc (ih.mp (progress_of_step hs)) hroom hs
    · intro hrun
      exact hrun.last_ok hr.exec_eq

theorem loop_progress_iff_served : Run ZmqServer.step {} fairEvents {} ∧ Progress {} := by
  have hrun : Run ZmqServer.step {} fairEvents {} := .of_exec rfl
  exact ⟨hrun, (loop_progress_iff hrun).mpr (.of_checked (by decide +kernel) rfl)⟩

/-- `n` commands and no heartbeat. -/
def commands (n : ℕ) : List Event := (List.replicate n (command (oneLot "o" "a"))).flatten

/-- One command more than the capacity: the send waits for a heartbeat
that the loop does not get to, and nothing is handled any more. -/
theorem full_queue_stops_loop :
    ∃ s, Run ZmqServer.step {} (commands 100 ++ [.order (some (.ok (oneLot "o" "a")))]) s ∧
      ¬ s.Progress ∧ ∀ e, s.step e = none := by
  refine ⟨{ orderQueue := List.replicate 100 (oneLot "o" "a"), sending := some (oneLot "o" "a") },
    .of_exec (by decide +kernel), ?_, ?_⟩
  · rw [progress_iff]
    simp [orderQueueCapacity]
  · intro e
    cases e <;> simp [ZmqServer.step, send, orderQueueCapacity]

end ZmqServer

end TdSandboxed.Bridge
