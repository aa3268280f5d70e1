/-
TdSandboxed.Notification.MessageQueueTheorems — what the notification queue
does with each message.

`Accounts` tells for every message what its calls were, whether it waits or
is over; a turn of the loop keeps it for the messages that remain and those
still to visit, so a tick keeps it (`accounts_foldl`). It holds in every
run.

The distance of two attempts is another matter. A message that is put back
is due after its delay, counted from the time when the TICK began, and the
delay is an int64. `Due` says that the distance will be kept, and `Timely`
is the condition on a tick that keeps `Due`.
-/
import Mathlib.Algebra.Order.BigOperators.Group.List
import TdSandboxed.Lib.Run
import TdSandboxed.Notification.MessageQueue

namespace TdSandboxed

open Lib

namespace MessageQueue

variable {p : Policy} {s t : MessageQueue} {e : Event} {now : ℤ} {send : ℕ → Outcome}

/-! ## The calls for one message -/

def attemptsOf (log : List Attempt) (id : ℕ) : List Attempt := log.filter fun a => a.id = id

/-- These calls failed, and they are numbered from 1. -/
def Failed (attempts : List Attempt) (n : ℕ) : Prop :=
  attempts.map Attempt.number = List.range' 1 n ∧ ∀ a ∈ attempts, a.sent = false

/-- The last call succeeded or was the last allowed. -/
def Over (p : Policy) (attempts : List Attempt) : Prop :=
  ∃ failed last, attempts = failed ++ [last] ∧ Failed failed failed.length ∧
    last.number = failed.length + 1 ∧ (last.number : ℤ) ≤ p.maxRetries ∧
    (last.sent = false → (last.number : ℤ) = p.maxRetries)

section

variable {log : List Attempt} {a : Attempt} {attempts : List Attempt} {id n : ℕ}

theorem mem_attemptsOf : a ∈ attemptsOf log id ↔ a ∈ log ∧ a.id = id := by
  simp [attemptsOf]

@[simp]
theorem attemptsOf_concat_self (log : List Attempt) (a : Attempt) :
    attemptsOf (log ++ [a]) a.id = attemptsOf log a.id ++ [a] := by
  simp [attemptsOf]

theorem attemptsOf_concat_of_ne (h : a.id ≠ id) (log : List Attempt) :
    attemptsOf (log ++ [a]) id = attemptsOf log id := by
  simp [attemptsOf, h]

theorem Failed.length_eq (h : Failed attempts n) : attempts.length = n := by
  simpa using congrArg List.length h.1

theorem Failed.number_le (h : Failed attempts n) (ha : a ∈ attempts) :
    1 ≤ a.number ∧ a.number ≤ n := by
  have hmem : a.number ∈ List.range' 1 n := h.1 ▸ List.mem_map_of_mem ha
  rw [List.mem_range'_1] at hmem
  omega

theorem Failed.concat (h : Failed attempts n) (hnumber : a.number = n + 1)
    (hsent : a.sent = false) : Failed (attempts ++ [a]) (n + 1) := by
  constructor
  · rw [List.map_append, h.1, List.range'_concat, List.map_singleton, hnumber]
    simp [Nat.add_comm]
  · intro b hb
    obtain hb | hb := List.mem_append.mp hb
    · exact h.2 b hb
    · rwa [List.mem_singleton.mp hb]

theorem Failed.over (h : Failed attempts n) (hnumber : a.number = n + 1)
    (hle : (a.number : ℤ) ≤ p.maxRetries)
    (hsent : a.sent = false → (a.number : ℤ) = p.maxRetries) : Over p (attempts ++ [a]) :=
  ⟨attempts, a, rfl, h.length_eq ▸ h, by rw [h.length_eq, hnumber], hle, hsent⟩

end

/-! ## The accounts -/

/-- What the calls so far were, message by message: those in the queue have
failed less often than allowed, and the others are over. -/
structure Accounts (p : Policy) (enqueued : List String) (log : List Attempt)
    (queue : List Message) : Prop where
  in_order : (queue.map Message.id).Pairwise (· < ·)
  waiting : ∀ m ∈ queue, enqueued[m.id]? = some m.text ∧
    Failed (attemptsOf log m.id) m.attempts ∧ (m.attempts : ℤ) < p.maxRetries
  gone : ∀ id < enqueued.length, id ∉ queue.map Message.id → Over p (attemptsOf log id)
  text : ∀ a ∈ log, enqueued[a.id]? = some a.text

section

variable {enqueued : List String} {log : List Attempt} {pre post : List Message} {m m' : Message}
  {a : Attempt}

theorem Accounts.id_ne (h : Accounts p enqueued log (pre ++ m :: post)) {x : Message}
    (hx : x ∈ pre ++ post) : x.id ≠ m.id := by
  have hin := h.in_order
  simp only [List.map_append, List.map_cons, List.pairwise_append, List.pairwise_cons,
    List.mem_map, List.mem_cons] at hin
  obtain ⟨-, ⟨hpost, -⟩, hpre⟩ := hin
  obtain hx | hx := List.mem_append.mp hx
  · exact (hpre x.id ⟨x, hx, rfl⟩ m.id (.inl rfl)).ne
  · exact (hpost x.id ⟨x, hx, rfl⟩).ne'

/-- A call for one message leaves the others as they are. -/
theorem Accounts.waiting_of_call (h : Accounts p enqueued log (pre ++ m :: post))
    (hid : a.id = m.id) {x : Message} (hx : x ∈ pre ++ post) :
    enqueued[x.id]? = some x.text ∧ Failed (attemptsOf (log ++ [a]) x.id) x.attempts ∧
      (x.attempts : ℤ) < p.maxRetries := by
  rw [attemptsOf_concat_of_ne (hid ▸ (h.id_ne hx).symm)]
  refine h.waiting x ?_
  obtain hx | hx := List.mem_append.mp hx
  · exact List.mem_append_left _ hx
  · exact List.mem_append_right _ (List.mem_cons_of_mem m hx)

theorem Accounts.text_of_call (h : Accounts p enqueued log (pre ++ m :: post))
    (hid : a.id = m.id) (htext : a.text = m.text) :
    ∀ b ∈ log ++ [a], enqueued[b.id]? = some b.text := by
  intro b hb
  obtain hb | hb := List.mem_append.mp hb
  · exact h.text b hb
  · rw [List.mem_singleton.mp hb, hid, htext]
    exact (h.waiting m (by simp)).1

/-- A failed call that is not the last allowed: the message is put back. -/
theorem Accounts.put_back (h : Accounts p enqueued log (pre ++ m :: post)) (hid : a.id = m.id)
    (htext : a.text = m.text) (hnumber : a.number = m.attempts + 1) (hsent : a.sent = false)
    (hid' : m'.id = m.id) (htext' : m'.text = m.text) (hattempts : m'.attempts = m.attempts + 1)
    (hlt : (m.attempts + 1 : ℤ) < p.maxRetries) :
    Accounts p enqueued (log ++ [a]) (pre ++ m' :: post) := by
  have hids : (pre ++ m' :: post).map Message.id = (pre ++ m :: post).map Message.id := by
    simp [hid']
  obtain ⟨henqueued, hfailed, -⟩ := h.waiting m (by simp)
  refine ⟨hids ▸ h.in_order, fun x hx => ?_, fun id hlt hnotin => ?_, h.text_of_call hid htext⟩
  · rw [List.mem_append, List.mem_cons, or_left_comm, ← List.mem_append] at hx
    obtain rfl | hx := hx
    · rw [hid', htext', hattempts, ← hid, attemptsOf_concat_self, hid]
      exact ⟨henqueued, hfailed.concat hnumber hsent, by push_cast; exact hlt⟩
    · exact h.waiting_of_call hid hx
  · rw [hids] at hnotin
    have hne : a.id ≠ id := by
      rintro rfl
      exact hnotin (by simp [hid])
    rw [attemptsOf_concat_of_ne hne]
    exact h.gone id hlt hnotin

/-- A call that succeeds or is the last allowed: the message is gone. -/
theorem Accounts.leave (h : Accounts p enqueued log (pre ++ m :: post)) (hid : a.id = m.id)
    (htext : a.text = m.text) (hnumber : a.number = m.attempts + 1)
    (hsent : a.sent = false → p.maxRetries ≤ a.number) :
    Accounts p enqueued (log ++ [a]) (pre ++ post) := by
  have hsub : (pre ++ post).map Message.id |>.Sublist ((pre ++ m :: post).map Message.id) :=
    ((List.Sublist.refl pre).append (List.sublist_cons_self m post)).map _
  obtain ⟨-, hfailed, hless⟩ := h.waiting m (by simp)
  refine ⟨h.in_order.sublist hsub, fun x hx => h.waiting_of_call hid hx, fun id hlt hnotin => ?_,
    h.text_of_call hid htext⟩
  by_cases hm : id = m.id
  · subst hm
    rw [← hid, attemptsOf_concat_self, hid]
    refine hfailed.over hnumber (by omega) fun hfalse => ?_
    have := hsent hfalse
    omega
  · rw [attemptsOf_concat_of_ne (hid ▸ Ne.symm hm)]
    refine h.gone id hlt fun hin => hnotin ?_
    rw [List.map_append, List.map_cons, List.mem_append, List.mem_cons] at hin
    rw [List.map_append, List.mem_append]
    tauto

end

/-! ## A turn of the loop -/

/-- The call for a message that is due. -/
def call (send : ℕ → Outcome) (s : MessageQueue) (m : Message) : Attempt :=
  ⟨m.id, m.text, m.attempts + 1, s.clock, (send m.id).sent⟩

/-- The message as it is put back. -/
def retried (p : Policy) (now : ℤ) (m : Message) : Message :=
  { m with attempts := m.attempts + 1, nextRetry := now + p.delay (m.attempts + 1) }

/-- A turn, with what it does: the message is not due, or its call is the
last, or it is put back. -/
inductive Turn (p : Policy) (now : ℤ) (send : ℕ → Outcome) (s : MessageQueue) (m : Message) :
    MessageQueue → Prop
  | waits : now < m.nextRetry → Turn p now send s m { s with queue := s.queue ++ [m] }
  | leaves : m.nextRetry ≤ now →
      ((send m.id).sent = false → p.maxRetries ≤ (m.attempts + 1 : ℕ)) →
      Turn p now send s m
        { s with clock := s.clock + (send m.id).lasts, log := s.log ++ [call send s m] }
  | returns : m.nextRetry ≤ now → (send m.id).sent = false →
      ((m.attempts + 1 : ℕ) : ℤ) < p.maxRetries →
      Turn p now send s m
        { s with
          clock := s.clock + (send m.id).lasts
          log := s.log ++ [call send s m]
          queue := s.queue ++ [retried p now m] }

theorem turn_visit (p : Policy) (now : ℤ) (send : ℕ → Outcome) (s : MessageQueue) (m : Message) :
    Turn p now send s m (visit p now send s m) := by
  simp only [visit]
  split
  · rename_i hwait
    exact .waits hwait
  · rename_i hdue
    split
    · rename_i hsent
      exact .leaves (not_lt.mp hdue) fun hfalse => absurd hsent (by simp [hfalse])
    · rename_i hsent
      split
      · rename_i hlast
        exact .leaves (not_lt.mp hdue) fun _ => hlast
      · rename_i hmore
        exact .returns (not_lt.mp hdue) (Bool.eq_false_of_not_eq_true hsent) (not_le.mp hmore)

section

variable {m : Message} {rest todo : List Message}

theorem accounts_turn (h : Turn p now send s m t)
    (hs : Accounts p s.enqueued s.log (s.queue ++ m :: rest)) :
    Accounts p t.enqueued t.log (t.queue ++ rest) := by
  cases h with
  | waits => rwa [List.append_assoc, List.singleton_append]
  | leaves hdue hlast => exact hs.leave rfl rfl rfl hlast
  | returns hdue hsent hmore =>
    rw [List.append_assoc, List.singleton_append]
    exact hs.put_back rfl rfl rfl hsent rfl rfl rfl (by exact_mod_cast hmore)

/-- A tick calls the sender for the messages that are due, each once and in
the order of the queue. -/
theorem log_foldl (p : Policy) (now : ℤ) (send : ℕ → Outcome) (todo : List Message)
    (s : MessageQueue) :
    ∃ calls, (todo.foldl (visit p now send) s).log = s.log ++ calls ∧
      calls.map Attempt.id = (todo.filter fun m => m.nextRetry ≤ now).map Message.id := by
  induction todo generalizing s with
  | nil => exact ⟨[], by simp, rfl⟩
  | cons m rest ih =>
    obtain ⟨calls, hlog, hids⟩ := ih (visit p now send s m)
    have hturn := turn_visit p now send s m
    rw [List.foldl_cons, hlog]
    generalize visit p now send s m = t at hturn
    cases hturn with
    | waits hwait => exact ⟨calls, rfl, by rw [hids, List.filter_cons_of_neg (by simpa)]⟩
    | leaves hdue | returns hdue =>
      refine ⟨call send s m :: calls, by simp, ?_⟩
      rw [List.filter_cons_of_pos (by simpa), List.map_cons, List.map_cons, hids]
      rfl

end

/-! ## Every run -/

theorem Accounts.id_lt {enqueued : List String} {log : List Attempt} {queue : List Message}
    (h : Accounts p enqueued log queue) {m : Message} (hm : m ∈ queue) : m.id < enqueued.length :=
  (List.getElem?_eq_some_iff.mp (h.waiting m hm).1).1

/-- A message that is yet to come has no calls. -/
theorem Accounts.attemptsOf_eq_nil {enqueued : List String} {log : List Attempt}
    {queue : List Message} (h : Accounts p enqueued log queue) {id : ℕ}
    (hid : enqueued.length ≤ id) : attemptsOf log id = [] := by
  refine List.filter_eq_nil_iff.mpr fun a ha => ?_
  have hlt := (List.getElem?_eq_some_iff.mp (h.text a ha)).1
  simp only [decide_eq_true_eq]
  omega

theorem accounts_enqueue (hp : 1 ≤ p.maxRetries) (hs : Accounts p s.enqueued s.log s.queue)
    (time : ℤ) (text : String) :
    Accounts p (s.enqueue time text).enqueued (s.enqueue time text).log
      (s.enqueue time text).queue := by
  have hkept {id : ℕ} {x : String} (hx : s.enqueued[id]? = some x) :
      (s.enqueued ++ [text])[id]? = some x := by
    rw [List.getElem?_append_left (List.getElem?_eq_some_iff.mp hx).1, hx]
  simp only [enqueue]
  refine ⟨?_, fun m hm => ?_, fun id hid hnotin => ?_, fun a ha => hkept (hs.text a ha)⟩
  · rw [List.map_append, List.pairwise_append]
    refine ⟨hs.in_order, by simp, fun id hid id' hid' => ?_⟩
    obtain ⟨m, hm, rfl⟩ := List.mem_map.mp hid
    obtain rfl : id' = s.enqueued.length := by simpa using hid'
    exact hs.id_lt hm
  · obtain hm | hm := List.mem_append.mp hm
    · obtain ⟨htext, hrest⟩ := hs.waiting m hm
      exact ⟨hkept htext, hrest⟩
    · obtain rfl := List.mem_singleton.mp hm
      refine ⟨by simp, ?_, Int.lt_of_lt_of_le Int.zero_lt_one hp⟩
      rw [hs.attemptsOf_eq_nil le_rfl]
      exact ⟨rfl, by simp⟩
  · rw [List.length_append, List.length_singleton] at hid
    rw [List.map_append, List.mem_append, List.map_singleton, List.mem_singleton] at hnotin
    have hne : id ≠ s.enqueued.length := fun heq => hnotin (.inr heq)
    exact hs.gone id (by omega) fun hin => hnotin (.inl hin)

theorem accounts_processMessages (hs : Accounts p s.enqueued s.log s.queue) :
    Accounts p (s.processMessages p now send).enqueued (s.processMessages p now send).log
      (s.processMessages p now send).queue := by
  have hloop := foldl_rule (f := visit p now send) (s := { s with queue := [], clock := now })
    (fun t todo => Accounts p t.enqueued t.log (t.queue ++ todo))
    (fun t m rest => accounts_turn (turn_visit p now send t m)) hs
  rwa [List.append_nil] at hloop

theorem accounts_step (hp : 1 ≤ p.maxRetries) (hs : Accounts p s.enqueued s.log s.queue)
    (h : step p s e = some t) : Accounts p t.enqueued t.log t.queue := by
  cases e with
  | enqueue time text =>
    simp only [step, Option.ite_none_right_eq_some, Option.some.injEq] at h
    obtain ⟨-, rfl⟩ := h
    exact accounts_enqueue hp hs time text
  | tick now send =>
    simp only [step, Option.ite_none_right_eq_some, Option.some.injEq] at h
    obtain ⟨-, rfl⟩ := h
    exact accounts_processMessages hs

theorem accounts_start (p : Policy) : Accounts p [] [] [] :=
  ⟨.nil, by simp, by simp, by simp⟩

/-! ## The distance of two attempts -/

/-- The attempts `k` and `k + 1` of a message are `2 ^ (k - 1)` base delays
apart, or more. -/
def Separated (p : Policy) (log : List Attempt) : Prop :=
  ∀ a ∈ log, ∀ b ∈ log, a.id = b.id → b.number = a.number + 1 →
    a.start + p.baseDelay * 2 ^ (a.number - 1) ≤ b.start

instance (p : Policy) (log : List Attempt) : Decidable (Separated p log) :=
  inferInstanceAs (Decidable (∀ a ∈ log, ∀ b ∈ log, _ → _ → _))

/-- No message is due sooner than its last attempt demands, from this time
on. -/
def Due (p : Policy) (clock : ℤ) (log : List Attempt) (queue : List Message) : Prop :=
  ∀ m ∈ queue, ∀ a ∈ log, a.id = m.id → a.number = m.attempts →
    a.start + p.baseDelay * 2 ^ (a.number - 1) ≤ max clock m.nextRetry

/-- The time that the calls for these messages take. -/
def busy (now : ℤ) (send : ℕ → Outcome) (queue : List Message) : ℤ :=
  ((queue.filter fun m => m.nextRetry ≤ now).map fun m => ((send m.id).lasts : ℤ)).sum

/-- A message that is put back is called while no time has passed in the
tick, and its delay is an int64; or the tick itself outlasts the delay. -/
def InTime (p : Policy) (now finish : ℤ) (send : ℕ → Outcome) (clock : ℤ) (m : Message) : Prop :=
  (send m.id).sent = false → ((m.attempts + 1 : ℕ) : ℤ) < p.maxRetries →
    clock = now ∧ p.baseDelay * 2 ^ m.attempts < 2 ^ 63 ∨
      clock + p.baseDelay * 2 ^ m.attempts ≤ finish

instance (p : Policy) (now finish : ℤ) (send : ℕ → Outcome) (clock : ℤ) (m : Message) :
    Decidable (InTime p now finish send clock m) :=
  inferInstanceAs (Decidable (_ → _ → _ ∨ _))

/-- The same for the messages of a tick in turn, from the time when the next
call would begin. -/
def Covered (p : Policy) (now finish : ℤ) (send : ℕ → Outcome) : ℤ → List Message → Prop
  | _, [] => True
  | clock, m :: rest =>
    if m.nextRetry > now then Covered p now finish send clock rest
    else InTime p now finish send clock m ∧
      Covered p now finish send (clock + (send m.id).lasts) rest

def Timely (p : Policy) (s : MessageQueue) : Event → Prop
  | .enqueue _ _ => True
  | .tick now send => Covered p now (now + busy now send s.queue) send now s.queue

instance decidableCovered (p : Policy) (now finish : ℤ) (send : ℕ → Outcome) :
    (clock : ℤ) → (queue : List Message) → Decidable (Covered p now finish send clock queue)
  | _, [] => .isTrue trivial
  | clock, m :: rest =>
    have := decidableCovered p now finish send clock rest
    have := decidableCovered p now finish send (clock + (send m.id).lasts) rest
    inferInstanceAs (Decidable (if m.nextRetry > now then Covered p now finish send clock rest
      else InTime p now finish send clock m ∧
        Covered p now finish send (clock + (send m.id).lasts) rest))

instance decidableTimely (p : Policy) (s : MessageQueue) : (e : Event) → Decidable (Timely p s e)
  | .enqueue _ _ => .isTrue trivial
  | .tick now send =>
    decidableCovered p now (now + busy now send s.queue) send now s.queue

section

variable {finish clock : ℤ} {m : Message} {rest todo : List Message} {log : List Attempt}
  {a : Attempt} {queue : List Message}

theorem busy_nonneg (now : ℤ) (send : ℕ → Outcome) (todo : List Message) :
    0 ≤ busy now send todo := by
  refine List.sum_nonneg fun x hx => ?_
  obtain ⟨m, -, rfl⟩ := List.mem_map.mp hx
  exact Int.natCast_nonneg _

theorem busy_cons_of_lt (h : now < m.nextRetry) (rest : List Message) :
    busy now send (m :: rest) = busy now send rest := by
  rw [busy, busy, List.filter_cons_of_neg (by simpa)]

theorem busy_cons_of_le (h : m.nextRetry ≤ now) (rest : List Message) :
    busy now send (m :: rest) = (send m.id).lasts + busy now send rest := by
  rw [busy, busy, List.filter_cons_of_pos (by simpa), List.map_cons, List.sum_cons]

/-! ### The arithmetic of the delay -/

theorem delay_eq (p : Policy) (n : ℕ) : p.delay (n + 1) = wrapInt64 (p.baseDelay * 2 ^ n) := by
  simp only [Policy.delay, wrapInt64, Nat.add_sub_cancel, Int.mul_bmod_bmod]

theorem wrapInt64_of_lt {x : ℤ} (h0 : 0 ≤ x) (h : x < 2 ^ 63) : wrapInt64 x = x :=
  Int.bmod_eq_of_le (by omega) (by omega)

theorem wrapInt64_lt (x : ℤ) : wrapInt64 x < 2 ^ 63 :=
  Int.bmod_lt (by decide)

/-- Where `InTime` says that a message is due late enough. -/
theorem inTime_iff (hnow : now ≤ clock) (hfinish : clock ≤ finish) (n : ℕ) :
    (clock = now ∧ p.baseDelay * 2 ^ n < 2 ^ 63 ∨ clock + p.baseDelay * 2 ^ n ≤ finish) ↔
      clock + p.baseDelay * 2 ^ n ≤ max finish (now + p.delay (n + 1)) := by
  rw [delay_eq, le_max_iff]
  generalize p.baseDelay * 2 ^ n = x
  have hlt := wrapInt64_lt x
  by_cases hx : 0 ≤ x
  · constructor
    · rintro (⟨rfl, hsmall⟩ | hlate)
      · rw [wrapInt64_of_lt hx hsmall]
        exact .inr le_rfl
      · exact .inl hlate
    · rintro (hlate | hdelay)
      · exact .inr hlate
      · by_cases hsmall : x < 2 ^ 63
        · rw [wrapInt64_of_lt hx hsmall] at hdelay
          exact .inl ⟨by omega, hsmall⟩
        · omega
  · have hlate : clock + x ≤ finish := by omega
    exact iff_of_true (.inr hlate) (.inl hlate)

/-! ### A turn of the loop -/

/-- Another message's call does not matter to a message that waits. -/
theorem due_call_iff (hne : ∀ x ∈ queue, a.id ≠ x.id) :
    Due p clock (log ++ [a]) queue ↔ Due p clock log queue := by
  refine forall₂_congr fun x hx => ?_
  rw [List.forall_mem_append, List.forall_mem_singleton]
  exact and_iff_left fun hid => absurd hid (hne x hx)

theorem due_append_iff {queue' : List Message} :
    Due p clock log (queue ++ queue') ↔ Due p clock log queue ∧ Due p clock log queue' :=
  List.forall_mem_append

theorem Due.mono {clock' : ℤ} (h : Due p clock log queue) (hle : clock ≤ clock') :
    Due p clock' log queue := fun m hm a ha hid hnumber =>
  (h m hm a ha hid hnumber).trans (max_le_max hle le_rfl)

/-- A later call of the same message, and every other call as before. -/
theorem Separated.concat (h : Separated p log)
    (hbefore : ∀ b ∈ log, b.id = a.id → b.number < a.number)
    (hlate : ∀ b ∈ log, b.id = a.id → a.number = b.number + 1 →
      b.start + p.baseDelay * 2 ^ (b.number - 1) ≤ a.start) : Separated p (log ++ [a]) := by
  intro b hb c hc hid hnumber
  rw [List.mem_append, List.mem_singleton] at hb hc
  obtain hb | rfl := hb <;> obtain hc | rfl := hc
  · exact h b hb c hc hid hnumber
  · exact hlate b hb hid hnumber
  · have := hbefore c hc hid.symm
    omega
  · omega

/-- What holds before each turn: what remains and what is to come are
accounted for, and what is to come was due late enough. -/
structure Midway (p : Policy) (now : ℤ) (s : MessageQueue) (todo : List Message) : Prop where
  accounts : Accounts p s.enqueued s.log (s.queue ++ todo)
  now_le : now ≤ s.clock
  due : Due p now s.log todo

/-- The calls so far for the message to visit are those it counts. -/
theorem Midway.number_le (h : Midway p now s (m :: rest)) (ha : a ∈ s.log) (hid : a.id = m.id) :
    1 ≤ a.number ∧ a.number ≤ m.attempts :=
  (h.accounts.waiting m (by simp)).2.1.number_le (mem_attemptsOf.mpr ⟨ha, hid⟩)

theorem Midway.id_ne (h : Midway p now s (m :: rest)) {x : Message} (hx : x ∈ s.queue ++ rest) :
    (call send s m).id ≠ x.id :=
  (h.accounts.id_ne hx).symm

theorem Midway.turn (h : Midway p now s (m :: rest)) (ht : Turn p now send s m t) :
    Midway p now t rest := by
  have hrest : Due p now s.log rest := fun x hx => h.due x (List.mem_cons_of_mem m hx)
  have hne : ∀ x ∈ rest, (call send s m).id ≠ x.id :=
    fun x hx => h.id_ne (List.mem_append_right _ hx)
  refine ⟨accounts_turn ht h.accounts, ?_, ?_⟩
  · have := h.now_le
    cases ht with
    | waits => exact this
    | leaves | returns => simp only; omega
  · cases ht with
    | waits => exact hrest
    | leaves | returns => exact (due_call_iff hne).mpr hrest

/-- A call comes late enough after the one before it: the message was due,
and the tick had begun. -/
theorem Midway.separated (h : Midway p now s (m :: rest)) (hs : Separated p s.log)
    (ht : Turn p now send s m t) : Separated p t.log := by
  have hcall (hdue : m.nextRetry ≤ now) : Separated p (s.log ++ [call send s m]) := by
    refine hs.concat (fun b hb hid => ?_) fun b hb hid hnumber => ?_
    · exact Nat.lt_succ_of_le (h.number_le hb hid).2
    · have hlate := h.due m List.mem_cons_self b hb hid (Nat.succ.inj hnumber).symm
      rw [max_eq_left hdue] at hlate
      exact hlate.trans h.now_le
  cases ht with
  | waits => exact hs
  | leaves hdue | returns hdue => exact hcall hdue

/-- A message that is put back was called once more than it counted. -/
theorem Midway.due_retried_iff (h : Midway p now s (m :: rest)) :
    Due p finish (s.log ++ [call send s m]) [retried p now m] ↔
      s.clock + p.baseDelay * 2 ^ m.attempts ≤ max finish (now + p.delay (m.attempts + 1)) := by
  simp only [Due, List.forall_mem_singleton, List.forall_mem_append]
  refine Iff.trans (and_iff_right fun a ha hid hnumber => ?_) ?_
  · have := (h.number_le ha hid).2
    simp only [retried] at hnumber
    omega
  · exact ⟨fun hlate => hlate rfl rfl, fun hlate _ _ => hlate⟩

/-- **What a turn does to `Due`.** -/
theorem Midway.due_iff (h : Midway p now s (m :: rest)) (hfinish : now ≤ finish)
    (hclock : m.nextRetry ≤ now → s.clock ≤ finish) (ht : Turn p now send s m t) :
    Due p finish t.log t.queue ↔ Due p finish s.log s.queue ∧
      (m.nextRetry ≤ now → InTime p now finish send s.clock m) := by
  have hne : ∀ x ∈ s.queue, (call send s m).id ≠ x.id :=
    fun x hx => h.id_ne (List.mem_append_left _ hx)
  cases ht with
  | waits hwait =>
    have hm : Due p finish s.log [m] := fun x hx => by
      obtain rfl := List.mem_singleton.mp hx
      exact h.due.mono hfinish x List.mem_cons_self
    simp only [due_append_iff, hm, hwait.not_ge, false_imp_iff]
  | leaves hdue hlast =>
    have hinTime : InTime p now finish send s.clock m := fun hsent hmore =>
      absurd (hlast hsent) hmore.not_ge
    simp only [due_call_iff hne, hinTime, implies_true, and_true]
  | returns hdue hsent hmore =>
    simp only [due_append_iff, due_call_iff hne, h.due_retried_iff, InTime, hdue, hsent, hmore,
      true_imp_iff, inTime_iff h.now_le (hclock hdue)]

/-! ### A tick -/

/-- The clock goes on by the calls. -/
theorem clock_turn (ht : Turn p now send s m t) (rest : List Message) :
    t.clock + busy now send rest = s.clock + busy now send (m :: rest) := by
  cases ht with
  | waits hwait => rw [busy_cons_of_lt hwait]
  | leaves hdue | returns hdue =>
    rw [busy_cons_of_le hdue]
    exact add_assoc _ _ _

theorem clock_foldl (todo : List Message) (s : MessageQueue) :
    (todo.foldl (visit p now send) s).clock = s.clock + busy now send todo := by
  induction todo generalizing s with
  | nil => simp [busy]
  | cons m rest ih => rw [List.foldl_cons, ih, clock_turn (turn_visit p now send s m)]

/-- **What a tick does to `Due`.** -/
theorem due_foldl_iff (hmid : Midway p now s todo)
    (hfinish : s.clock + busy now send todo = finish) :
    Due p finish (todo.foldl (visit p now send) s).log (todo.foldl (visit p now send) s).queue ↔
      Due p finish s.log s.queue ∧ Covered p now finish send s.clock todo := by
  induction todo generalizing s with
  | nil => simp [Covered]
  | cons m rest ih =>
    have ht := turn_visit p now send s m
    have hclock := clock_turn ht rest
    have hbusy := busy_nonneg now send (m :: rest)
    have hnow := hmid.now_le
    rw [List.foldl_cons, ih (hmid.turn ht) (hclock.trans hfinish),
      hmid.due_iff (by omega) (fun _ => by omega) ht, and_assoc]
    refine and_congr_right fun _ => ?_
    by_cases hwait : now < m.nextRetry
    · rw [busy_cons_of_lt hwait] at hclock
      rw [Covered, if_pos hwait, add_right_cancel hclock]
      exact and_iff_right fun hdue => absurd hdue hwait.not_ge
    · rw [busy_cons_of_le (not_lt.mp hwait), ← add_assoc] at hclock
      rw [Covered, if_neg hwait, add_right_cancel hclock]
      exact and_congr_left fun _ => imp_iff_right (not_lt.mp hwait)

theorem separated_foldl (hmid : Midway p now s todo) (hs : Separated p s.log) :
    Separated p (todo.foldl (visit p now send) s).log := by
  have hloop := foldl_rule (f := visit p now send)
    (fun t todo => Midway p now t todo ∧ Separated p t.log)
    (fun t m rest ht => ⟨ht.1.turn (turn_visit p now send t m),
      ht.1.separated ht.2 (turn_visit p now send t m)⟩) ⟨hmid, hs⟩
  exact hloop.2

/-- When the calls take no time, each begins when the tick does. -/
theorem call_mem_foldl (p : Policy) (hinstant : ∀ id, (send id).lasts = 0) (hm : m ∈ todo)
    (hdue : m.nextRetry ≤ now) (s : MessageQueue) :
    call send s m ∈ (todo.foldl (visit p now send) s).log := by
  induction todo generalizing s with
  | nil => cases hm
  | cons x rest ih =>
    have ht := turn_visit p now send s x
    rw [List.foldl_cons]
    obtain rfl | hm := List.mem_cons.mp hm
    · obtain ⟨calls, hlog, -⟩ := log_foldl p now send rest (visit p now send s m)
      rw [hlog]
      refine List.mem_append_left _ ?_
      generalize visit p now send s m = t at ht
      cases ht with
      | waits hwait => exact absurd hdue hwait.not_ge
      | leaves | returns => exact List.mem_concat_self
    · have hclock : (visit p now send s x).clock = s.clock := by
        generalize visit p now send s x = t at ht
        cases ht with
        | waits => rfl
        | leaves | returns => simp [hinstant]
      have hcall : call send s m = call send (visit p now send s x) m := by
        rw [call, call, hclock]
      rw [hcall]
      exact ih hm (visit p now send s x)

end

/-! ### Every run -/

/-- What holds in every run whose steps are timely. -/
structure Kept (p : Policy) (s : MessageQueue) : Prop where
  accounts : Accounts p s.enqueued s.log s.queue
  separated : Separated p s.log
  due : Due p s.clock s.log s.queue

theorem Kept.midway (hs : Kept p s) (hle : s.clock ≤ now) :
    Midway p now { s with queue := [], clock := now } s.queue :=
  ⟨hs.accounts, le_rfl, hs.due.mono hle⟩

theorem separated_step (hs : Kept p s) (h : step p s e = some t) : Separated p t.log := by
  cases e with
  | enqueue time text =>
    simp only [step, Option.ite_none_right_eq_some, Option.some.injEq] at h
    obtain ⟨-, rfl⟩ := h
    exact hs.separated
  | tick now send =>
    simp only [step, Option.ite_none_right_eq_some, Option.some.injEq] at h
    obtain ⟨hle, rfl⟩ := h
    exact separated_foldl (hs.midway hle) hs.separated

theorem due_enqueue (hs : Kept p s) {time : ℤ} (hle : s.clock ≤ time) (text : String) :
    Due p time s.log (s.enqueue time text).queue := by
  refine due_append_iff.mpr ⟨hs.due.mono hle, fun m hm a ha hid hnumber => ?_⟩
  obtain rfl := List.mem_singleton.mp hm
  have hnone := hs.accounts.attemptsOf_eq_nil le_rfl
  exact absurd (mem_attemptsOf.mpr ⟨ha, hid⟩) (by simp [hnone])

/-- The timely steps are those that keep `Due`. -/
theorem timely_iff_due (hs : Kept p s) (h : step p s e = some t) :
    Timely p s e ↔ Due p t.clock t.log t.queue := by
  cases e with
  | enqueue time text =>
    simp only [step, Option.ite_none_right_eq_some, Option.some.injEq] at h
    obtain ⟨hle, rfl⟩ := h
    exact iff_of_true trivial (due_enqueue hs hle text)
  | tick now send =>
    simp only [step, Option.ite_none_right_eq_some, Option.some.injEq] at h
    obtain ⟨hle, rfl⟩ := h
    have hnone : Due p (now + busy now send s.queue) s.log [] := by
      simp [Due]
    rw [processMessages, clock_foldl, due_foldl_iff (hs.midway hle) rfl]
    exact (and_iff_right hnone).symm

theorem kept_step (hp : 1 ≤ p.maxRetries) (hs : Kept p s) (he : Timely p s e)
    (h : step p s e = some t) : Kept p t :=
  ⟨accounts_step hp hs.accounts h, separated_step hs h, (timely_iff_due hs h).mp he⟩

theorem kept_start (p : Policy) (clock : ℤ) : Kept p { clock } :=
  ⟨accounts_start p, by simp [Separated], by simp [Due]⟩

/-- `Due` is what the next tick needs, whenever it comes. -/
theorem due_iff_next (haccounts : Accounts p t.enqueued t.log t.queue)
    (hseparated : Separated p t.log) : Due p t.clock t.log t.queue ↔
      ∀ now send u, step p t (.tick now send) = some u → Separated p u.log := by
  constructor
  · intro hdue now send u hu
    exact separated_step ⟨haccounts, hseparated, hdue⟩ hu
  · intro hnext m hm a ha hid hnumber
    -- a tick as early as it may find the message due, with a sender that takes no time
    let now := max t.clock m.nextRetry
    let send : ℕ → Outcome := fun _ => { sent := true }
    have hu := hnext now send (t.processMessages p now send) (if_pos (le_max_left _ _))
    obtain ⟨calls, hlog, -⟩ := log_foldl p now send t.queue { t with queue := [], clock := now }
    have hcall : call send { t with queue := [], clock := now } m ∈
        (t.processMessages p now send).log :=
      call_mem_foldl p (fun _ => rfl) hm (le_max_right _ _) _
    refine hu a ?_ _ hcall hid (by simp [call, hnumber])
    rw [processMessages, hlog]
    exact List.mem_append_left _ ha

/-! ## Delivery -/

/-- What the queue owes to each message, the distances apart. -/
structure Delivered (p : Policy) (s : MessageQueue) : Prop where
  text : ∀ a ∈ s.log, s.enqueued[a.id]? = some a.text
  numbered : ∀ id, (attemptsOf s.log id).map Attempt.number =
    List.range' 1 (attemptsOf s.log id).length
  sent_once : ∀ id, (attemptsOf s.log id).countP Attempt.sent ≤ 1
  attempted_le : ∀ id, ((attemptsOf s.log id).length : ℤ) ≤ p.maxRetries
  /-- The queue is in the order of `Enqueue`, and each message is in it once. -/
  in_order : (s.queue.map Message.id).Pairwise (· < ·)
  waiting : ∀ m ∈ s.queue, s.enqueued[m.id]? = some m.text ∧
    m.attempts = (attemptsOf s.log m.id).length ∧ ∀ a ∈ attemptsOf s.log m.id, a.sent = false
  gone : ∀ id < s.enqueued.length, id ∉ s.queue.map Message.id →
    (∃ a ∈ attemptsOf s.log id, a.sent = true) ∨
      (((attemptsOf s.log id).countP fun a => !a.sent : ℕ) : ℤ) = p.maxRetries
  /-- A tick attempts the messages that are due, each once, in the order of
  the queue. -/
  fair : ∀ now send t, step p s (.tick now send) = some t →
    ∃ calls, t.log = s.log ++ calls ∧
      calls.map Attempt.id = (s.queue.filter fun m => m.nextRetry ≤ now).map Message.id

section

variable {attempts : List Attempt} {n : ℕ}

theorem Failed.countP_sent (h : Failed attempts n) : attempts.countP Attempt.sent = 0 :=
  List.countP_eq_zero.mpr fun a ha => by simp [h.2 a ha]

theorem Over.numbered (h : Over p attempts) :
    attempts.map Attempt.number = List.range' 1 attempts.length := by
  obtain ⟨failed, last, rfl, hfailed, hnumber, -, -⟩ := h
  rw [List.map_append, hfailed.1, List.map_singleton, hnumber, List.length_append,
    List.length_singleton, List.range'_concat]
  simp [Nat.add_comm]

theorem Over.sent_once (h : Over p attempts) : attempts.countP Attempt.sent ≤ 1 := by
  obtain ⟨failed, last, rfl, hfailed, -, -, -⟩ := h
  rw [List.countP_append, hfailed.countP_sent, zero_add]
  exact List.countP_le_length

theorem Over.length_le (h : Over p attempts) : (attempts.length : ℤ) ≤ p.maxRetries := by
  obtain ⟨failed, last, rfl, -, hnumber, hle, -⟩ := h
  rwa [List.length_append, List.length_singleton, ← hnumber]

theorem Over.reason (h : Over p attempts) : (∃ a ∈ attempts, a.sent = true) ∨
    ((attempts.countP fun a => !a.sent : ℕ) : ℤ) = p.maxRetries := by
  obtain ⟨failed, last, rfl, hfailed, hnumber, -, hlast⟩ := h
  cases hsent : last.sent with
  | true => exact .inl ⟨last, List.mem_concat_self, hsent⟩
  | false =>
    have hall : (failed ++ [last]).countP (fun a => !a.sent) = (failed ++ [last]).length := by
      refine List.countP_eq_length.mpr fun a ha => ?_
      rw [List.mem_append, List.mem_singleton] at ha
      obtain ha | rfl := ha
      · simp [hfailed.2 a ha]
      · simp [hsent]
    rw [hall, List.length_append, List.length_singleton, ← hnumber]
    exact .inr (hlast hsent)

end

/-- A message waits, is over, or is yet to come. -/
theorem Accounts.trichotomy {enqueued : List String} {log : List Attempt} {queue : List Message}
    (h : Accounts p enqueued log queue) (id : ℕ) :
    (∃ n : ℕ, Failed (attemptsOf log id) n ∧ (n : ℤ) ≤ max 0 p.maxRetries) ∨
      Over p (attemptsOf log id) := by
  by_cases hid : id < enqueued.length
  · by_cases hin : id ∈ queue.map Message.id
    · obtain ⟨m, hm, rfl⟩ := List.mem_map.mp hin
      obtain ⟨-, hfailed, hlt⟩ := h.waiting m hm
      exact .inl ⟨m.attempts, hfailed, hlt.le.trans (le_max_right _ _)⟩
    · exact .inr (h.gone id hid hin)
  · rw [h.attemptsOf_eq_nil (not_lt.mp hid)]
    exact .inl ⟨0, ⟨rfl, by simp⟩, le_max_left _ _⟩

theorem delivered_of_accounts (hp : 1 ≤ p.maxRetries)
    (h : Accounts p s.enqueued s.log s.queue) : Delivered p s where
  text := h.text
  numbered id := by
    obtain ⟨n, hfailed, -⟩ | hover := h.trichotomy id
    · rw [hfailed.1, hfailed.length_eq]
    · exact hover.numbered
  sent_once id := by
    obtain ⟨n, hfailed, -⟩ | hover := h.trichotomy id
    · simp [hfailed.countP_sent]
    · exact hover.sent_once
  attempted_le id := by
    obtain ⟨n, hfailed, hle⟩ | hover := h.trichotomy id
    · rw [hfailed.length_eq]
      omega
    · exact hover.length_le
  in_order := h.in_order
  waiting m hm := by
    obtain ⟨htext, hfailed, -⟩ := h.waiting m hm
    exact ⟨htext, hfailed.length_eq.symm, hfailed.2⟩
  gone id hid hnotin := (h.gone id hid hnotin).reason
  fair now send t ht := by
    simp only [step, Option.ite_none_right_eq_some, Option.some.injEq] at ht
    obtain ⟨-, rfl⟩ := ht
    exact log_foldl p now send s.queue { s with queue := [], clock := now }

/-- **Delivery**, in every run. -/
theorem delivered_of_run (hp : 1 ≤ p.maxRetries) {clock : ℤ} {es : List Event}
    (h : Run (step p) { clock } es s) : Delivered p s := by
  refine delivered_of_accounts hp (h.invariant_state
    (fun s => Accounts p s.enqueued s.log s.queue) (accounts_start p) ?_)
  exact fun t e u ht _ hu => accounts_step hp ht hu

/-- **Delivery with its distances**, where every tick is timely; and a step
is timely exactly when no tick that comes next is too early. -/
theorem separated_where_timely (hp : 1 ≤ p.maxRetries) {clock : ℤ} {es : List Event}
    (h : RunWhere (step p) (Timely p) { clock } es s) :
    Delivered p s ∧ Separated p s.log ∧ ∀ e t, step p s e = some t →
      (Timely p s e ↔
        ∀ now send u, step p t (.tick now send) = some u → Separated p u.log) := by
  have hkept : Kept p s := h.invariant_state (Kept p) (kept_start p clock)
    fun t e u ht he hu => kept_step hp ht he hu
  refine ⟨delivered_of_run hp h.toRun, hkept.separated, fun e t ht => ?_⟩
  rw [timely_iff_due hkept ht]
  exact due_iff_next (accounts_step hp hkept.accounts ht) (separated_step hkept ht)

/-- One message fails at once and the other is sent after it: both are timely. -/
theorem separated_where_timely_retry : ∃ s,
    RunWhere (step ⟨3, second⟩) (Timely ⟨3, second⟩) { clock := 0 }
      [.enqueue 0 "stop", .enqueue 5 "pause",
        .tick 10 fun id => if id = 0 then ⟨0, false⟩ else ⟨7, true⟩,
        .tick (10 + second) fun _ => ⟨7, true⟩] s ∧
      s.log = [⟨0, "stop", 1, 10, false⟩, ⟨1, "pause", 1, 10, true⟩,
        ⟨0, "stop", 2, 10 + second, true⟩] ∧ Separated ⟨3, second⟩ s.log := by
  obtain ⟨s, hrun, hlog⟩ := RunWhere.exists_of_checked (step ⟨3, second⟩) (Timely ⟨3, second⟩)
    { clock := 0 } [.enqueue 0 "stop", .enqueue 5 "pause",
      .tick 10 fun id => if id = 0 then ⟨0, false⟩ else ⟨7, true⟩,
      .tick (10 + second) fun _ => ⟨7, true⟩]
    (fun s => decide (s.log = [⟨0, "stop", 1, 10, false⟩, ⟨1, "pause", 1, 10, true⟩,
      ⟨0, "stop", 2, 10 + second, true⟩])) (by decide +kernel) (by decide +kernel)
  exact ⟨s, hrun, of_decide_eq_true hlog, (separated_where_timely (by decide) hrun).2.1⟩

/-- A send of ten seconds brings the next message back at once; and the 35th
delay of a second is negative. -/
theorem attempts_too_close :
    (∃ es s, Run (step ⟨3, second⟩) { clock := 0 } es s ∧ ¬Separated ⟨3, second⟩ s.log) ∧
    ∃ es s, Run (step ⟨40, second⟩) { clock := 0 } es s ∧
      (∀ now send, .tick now send ∈ es → send = fun _ => ⟨0, false⟩) ∧
      ¬Separated ⟨40, second⟩ s.log := by
  constructor
  · obtain ⟨s, hrun, hclose⟩ := Run.exists_of_exec (step ⟨3, second⟩) { clock := 0 }
      [.enqueue 0 "slow", .enqueue 0 "next",
        .tick 0 fun id => if id = 0 then ⟨(10 * second).toNat, true⟩ else ⟨0, false⟩,
        .tick (10 * second) fun _ => ⟨0, true⟩]
      (fun s => decide (¬Separated ⟨3, second⟩ s.log)) (by decide +kernel)
    exact ⟨_, s, hrun, of_decide_eq_true hclose⟩
  · obtain ⟨s, hrun, hclose⟩ := Run.exists_of_exec (step ⟨40, second⟩) { clock := 0 }
      (.enqueue 0 "stop" :: (((List.range 35).map fun k => (2 ^ k - 1) * second) ++
        [(2 ^ 34 - 1) * second]).map fun now => .tick now fun _ => ⟨0, false⟩)
      (fun s => decide (¬Separated ⟨40, second⟩ s.log)) (by decide +kernel)
    refine ⟨_, s, hrun, fun now send hmem => ?_, of_decide_eq_true hclose⟩
    obtain hmem | hmem := List.mem_cons.mp hmem
    · cases hmem
    · obtain ⟨time, -, heq⟩ := List.mem_map.mp hmem
      cases heq
      rfl

end MessageQueue

end TdSandboxed
