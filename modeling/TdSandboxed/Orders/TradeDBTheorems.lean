/-
TdSandboxed.Orders.TradeDBTheorems — where a trade record is, and which
exits reach their row.

Every accepted record is in the table, in the buffer or in an insert that
has not committed (`Located`), as long as no task is cancelled with records
in its hands. A `stop` that returns has emptied all of these places when no
other insert was in flight (`LastFlush`), and an UPDATE finds its row when
the record is in neither of the last two.
-/
import TdSandboxed.Lib.Custody
import TdSandboxed.Lib.Run
import TdSandboxed.Lib.TaskSystem
import TdSandboxed.Orders.TradeDBWriter

namespace TdSandboxed

open Lib

variable {α : Type}

namespace TradeTaskPhase

/-- An insert is in flight, before or after its commit. -/
def inserts : TradeTaskPhase α → Bool
  | .flushing _ _ => true
  | _ => false

def awaitsTimer : TradeTaskPhase α → Bool
  | .awaiting _ => true
  | _ => false

end TradeTaskPhase

namespace TradeTask

/-- The records in the hands of a task that are not in the table. -/
def uncommitted (t : TradeTask α) : List α :=
  match t.phase with
  | .flushing entries false => entries
  | _ => []

/-- A stop between its last flush and its return. -/
def Closing (t : TradeTask α) : Prop :=
  t.kind = .stop ∧ (t.phase.inserts ∨ t.phase = .disposing)

theorem closing_of_flushing {t : TradeTask α} {entries : List α} {committed : Bool}
    (hkind : t.kind = .stop) (hphase : t.phase = .flushing entries committed) : t.Closing := by
  refine ⟨hkind, .inl ?_⟩
  rw [hphase]
  rfl

end TradeTask

namespace TradeDBWriter

/-! ## What a step of a task can do -/

section Moves
variable [DecidableEq α] {s s' : TradeDBWriter α} {i : ℕ} {t : TradeTask α}

/-- The moves of task `i`. -/
inductive TradeMove (s : TradeDBWriter α) (i : ℕ) (t : TradeTask α) :
    TradeTaskEvent → TradeDBWriter α → Prop
  | enter : t.kind = .timer → t.phase = .created →
      TradeMove s i t .enter (s.setTask i (s.afterFlush t))
  | flush {e : TradeTaskEvent} :
      t.kind ≠ .stop → t.phase = .created ∨ t.phase = .sleeping →
      TradeMove s i t e (s.flushBuffer i t)
  | last {timer : Option ℕ} {e : TradeTaskEvent} :
      t.kind = .stop → t.phase = .awaiting timer →
      TradeMove s i t e ((s.timerAwaited timer).flushBuffer i t)
  | commit {entries : List α} : t.phase = .flushing entries false →
      TradeMove s i t .commit
        ({ s with table := s.table ++ entries }.setTask i { t with phase := .flushing entries true })
  | finish {entries : List α} : t.phase = .flushing entries true →
      TradeMove s i t .finish (s.setTask i (s.afterFlush t))
  | fail {entries : List α} {committed : Bool} : t.phase = .flushing entries committed →
      TradeMove s i t .fail
        ({ s with buffer := entries ++ s.buffer }.setTask i (s.afterFlush t))
  | execute {tradeId : α} : t.kind = .exit tradeId → t.phase = .updating →
      TradeMove s i t .execute (s.setTask i { t with phase := .executed (tradeId ∈ s.table) })
  | apply {tradeId : α} {found : Bool} : t.kind = .exit tradeId → t.phase = .executed found →
      TradeMove s i t .apply ((s.closeRow tradeId found).setTask i { t with phase := .returned })
  | raise {tradeId : α} :
      t.kind = .exit tradeId → t.phase = .updating ∨ (∃ found, t.phase = .executed found) →
      TradeMove s i t .fail (s.setTask i { t with phase := .returned })
  | dispose : t.kind = .stop → t.phase = .disposing →
      TradeMove s i t .finish (s.setTask i { t with seen := s.accepted, phase := .returned })
  | disposeFails : t.kind = .stop → t.phase = .disposing →
      TradeMove s i t .fail (s.setTask i { t with phase := .failed })
  | cancel : TradeMove s i t .cancel (s.setTask i (cancelled t))

theorem taskStep_move {e : TradeTaskEvent} (hs : s.taskStep i t e = some s') :
    TradeMove s i t e s' := by
  obtain ⟨kind, seen, phase⟩ := t
  cases phase with
  | created =>
    cases e with
    | enter =>
      cases kind with
      | timer => exact Option.some.inj hs ▸ .enter rfl rfl
      | sized | exit => exact Option.some.inj hs ▸ .flush nofun (.inl rfl)
      | stop => cases hs
    | cancel => cases kind <;> exact Option.some.inj hs ▸ .cancel
    | _ => cases kind <;> cases hs
  | sleeping =>
    cases e with
    | wake =>
      cases kind with
      | timer => exact Option.some.inj hs ▸ .flush nofun (.inr rfl)
      | _ => cases hs
    | cancel => cases kind <;> exact Option.some.inj hs ▸ .cancel
    | _ => cases kind <;> cases hs
  | awaiting timer =>
    cases kind with
    | stop =>
      cases e with
      | proceed =>
        simp only [taskStep, Option.ite_none_right_eq_some] at hs
        exact Option.some.inj hs.2 ▸ .last rfl rfl
      | cancel => exact Option.some.inj hs ▸ .last rfl rfl
      | _ => cases hs
    | _ => cases e <;> cases hs
  | flushing entries committed =>
    cases e with
    | commit =>
      cases committed with
      | false => cases kind <;> exact Option.some.inj hs ▸ .commit rfl
      | true => cases kind <;> cases hs
    | finish =>
      cases committed with
      | false => cases kind <;> cases hs
      | true => cases kind <;> exact Option.some.inj hs ▸ .finish rfl
    | fail => cases kind <;> cases committed <;> exact Option.some.inj hs ▸ .fail rfl
    | cancel => cases kind <;> cases committed <;> exact Option.some.inj hs ▸ .cancel
    | _ => cases kind <;> cases committed <;> cases hs
  | updating =>
    cases e with
    | execute =>
      cases kind with
      | exit => exact Option.some.inj hs ▸ .execute rfl rfl
      | _ => cases hs
    | fail =>
      cases kind with
      | exit => exact Option.some.inj hs ▸ .raise rfl (.inl rfl)
      | _ => cases hs
    | cancel => cases kind <;> exact Option.some.inj hs ▸ .cancel
    | _ => cases kind <;> cases hs
  | executed found =>
    cases e with
    | apply =>
      cases kind with
      | exit => exact Option.some.inj hs ▸ .apply rfl rfl
      | _ => cases hs
    | fail =>
      cases kind with
      | exit => exact Option.some.inj hs ▸ .raise rfl (.inr ⟨found, rfl⟩)
      | _ => cases hs
    | cancel => cases kind <;> exact Option.some.inj hs ▸ .cancel
    | _ => cases kind <;> cases hs
  | disposing =>
    cases e with
    | finish =>
      cases kind with
      | stop => exact Option.some.inj hs ▸ .dispose rfl rfl
      | _ => cases hs
    | fail =>
      cases kind with
      | stop => exact Option.some.inj hs ▸ .disposeFails rfl rfl
      | _ => cases hs
    | cancel => cases kind <;> exact Option.some.inj hs ▸ .cancel
    | _ => cases kind <;> cases hs
  | returned | failed => cases e <;> cases kind <;> cases hs

end Moves

@[simp] theorem uncommitted_afterFlush (s : TradeDBWriter α) (t : TradeTask α) :
    (s.afterFlush t).uncommitted = [] := by
  unfold afterFlush
  cases t.kind with
  | timer => cases h : s.running <;> simp [TradeTask.uncommitted]
  | _ => rfl

@[simp] theorem uncommitted_cancelled (t : TradeTask α) : (cancelled t).uncommitted = [] := by
  unfold cancelled
  cases t.kind <;> rfl

@[simp] theorem kind_afterFlush (s : TradeDBWriter α) (t : TradeTask α) :
    (s.afterFlush t).kind = t.kind := by
  unfold afterFlush
  split <;> rfl

@[simp] theorem kind_cancelled (t : TradeTask α) : (cancelled t).kind = t.kind := by
  unfold cancelled
  split <;> rfl

theorem prefix_closeRow (s : TradeDBWriter α) (x : α) (found : Bool) :
    s.closed <+: (s.closeRow x found).closed ∧ (found → x ∈ (s.closeRow x found).closed) := by
  cases found <;> simp [closeRow]

theorem tasks_timerAwaited (s : TradeDBWriter α) (timer : Option ℕ) :
    (s.timerAwaited timer).tasks = s.tasks := by
  unfold timerAwaited
  split <;> rfl

/-! ## What a stop leaves behind -/

section LastFlush
variable {s s' : TradeDBWriter α} {i : ℕ} {t u : TradeTask α}

/-- While a stop is in its last flush, the buffer is empty and no other task
has records in its hands. -/
def LastFlush (s : TradeDBWriter α) : Prop :=
  ∀ (i : ℕ) (t : TradeTask α), s.tasks[i]? = some t → t.Closing →
    s.buffer = [] ∧ ∀ (j : ℕ) (v : TradeTask α), j ≠ i → s.tasks[j]? = some v → v.uncommitted = []

theorem LastFlush.of_task (h : LastFlush s) (ht : s.tasks[i]? = some t)
    (htasks : s'.tasks = s.tasks.set i u) (hbuffer : s.buffer = [] → s'.buffer = [])
    (hhands : s.buffer = [] → t.uncommitted = [] → u.uncommitted = [])
    (hclosing : u.Closing → t.Closing ∨ s'.buffer = [] ∧ ∀ v ∈ s.tasks, v.uncommitted = []) :
    LastFlush s' := by
  intro j v hv hc
  rw [htasks] at hv ⊢
  obtain ⟨rfl, rfl⟩ | ⟨hj, hv⟩ := TaskSystem.getElem?_task hv
  · obtain hold | ⟨hempty, hnone⟩ := hclosing hc
    · obtain ⟨hempty, hothers⟩ := h _ t ht hold
      refine ⟨hbuffer hempty, fun k w hk hw => ?_⟩
      rw [TaskSystem.getElem?_task_of_ne _ hk] at hw
      exact hothers k w hk hw
    · refine ⟨hempty, fun k w hk hw => ?_⟩
      rw [TaskSystem.getElem?_task_of_ne _ hk] at hw
      exact hnone w (List.mem_of_getElem? hw)
  · obtain ⟨hempty, hothers⟩ := h j v hv hc
    refine ⟨hbuffer hempty, fun k w hk hw => ?_⟩
    obtain ⟨rfl, rfl⟩ | ⟨hki, hw⟩ := TaskSystem.getElem?_task hw
    · exact hhands hempty (hothers _ t (Ne.symm hj) ht)
    · exact hothers k w hk hw

/-- A new task has nothing in its hands and is not at its end. -/
theorem LastFlush.spawn (h : LastFlush s) (hbuffer : s'.buffer = s.buffer)
    (htasks : s'.tasks = s.tasks ++ [u]) (hhands : u.uncommitted = []) (hu : ¬ u.Closing) :
    LastFlush s' := by
  intro j v hv hc
  rw [htasks] at hv ⊢
  rw [hbuffer]
  obtain hv | ⟨-, rfl⟩ := TaskSystem.getElem?_spawn hv
  · obtain ⟨hempty, hothers⟩ := h j v hv hc
    refine ⟨hempty, fun k w hk hw => ?_⟩
    obtain hw | ⟨-, rfl⟩ := TaskSystem.getElem?_spawn hw
    · exact hothers k w hk hw
    · exact hhands
  · exact absurd hc hu

theorem LastFlush.flushBuffer (h : LastFlush s) (ht : s.tasks[i]? = some t)
    (hu : t.kind = .stop → ∀ v ∈ s.tasks, v.uncommitted = []) : LastFlush (s.flushBuffer i t) := by
  unfold TradeDBWriter.flushBuffer
  split
  · next hempty =>
    refine h.of_task ht rfl id (fun _ _ => uncommitted_afterFlush s t) fun hc => .inr ⟨hempty, hu ?_⟩
    simpa using hc.1
  · next hne =>
    refine h.of_task ht rfl (fun hempty => absurd hempty hne) (fun hempty => absurd hempty hne) ?_
    exact fun hc => .inr ⟨rfl, hu hc.1⟩

end LastFlush

section ExitSound
variable {s s' : TradeDBWriter α} {t : TradeTask α}

/-- What is known of an exit whose record had been accepted. -/
structure ExitSound (s : TradeDBWriter α) (t : TradeTask α) : Prop where
  seen : ∀ x ∈ t.seen, x ∈ s.accepted
  executed : ∀ x, t.kind = .exit x → x ∈ t.seen → ∀ found, t.phase = .executed found → found = true
  ended : ∀ x, t.kind = .exit x → x ∈ t.seen → t.phase = .returned ∨ t.phase = .failed → x ∈ s.closed

theorem ExitSound.mono (h : ExitSound s t) (ha : s.accepted <+: s'.accepted)
    (hc : s.closed <+: s'.closed) : ExitSound s' t :=
  ⟨fun x hx => ha.subset (h.seen x hx), h.executed, fun x hk hx hp => hc.subset (h.ended x hk hx hp)⟩

end ExitSound

/-! ## The property -/

variable [DecidableEq α]

/-- The buffer and the inserts in flight. -/
def held (s : TradeDBWriter α) : List α := s.buffer ++ s.tasks.flatMap TradeTask.uncommitted

/-- Each accepted record is in the table, the buffer or an insert in
flight. -/
def Located (s : TradeDBWriter α) : Prop :=
  ∀ x, s.accepted.count x ≤ s.table.count x + s.held.count x

/-- A stop that returned found every accepted record in the table. -/
def StopsCommitted (s : TradeDBWriter α) : Prop :=
  ∀ t ∈ s.tasks, t.kind = .stop → t.phase = .returned → ∀ x, t.seen.count x ≤ s.table.count x

/-- An exit of a record that had been accepted, once ended, has closed its
row. -/
def ExitsApplied (s : TradeDBWriter α) : Prop :=
  ∀ t ∈ s.tasks, ∀ x, t.kind = .exit x → x ∈ t.seen → t.phase = .returned ∨ t.phase = .failed →
    x ∈ s.closed

/-! ## The steps that keep it -/

/-- No task is cancelled with records in its hands. -/
def Kept (s : TradeDBWriter α) : TradeEvent α → Prop
  | .task i .cancel => ∀ t ∈ s.tasks[i]?, t.uncommitted = []
  | _ => True

/-- Inserts succeed; a stop takes the buffer for its last flush only when no
other insert is in flight; and nothing is written from there to its
return. -/
def Quiet (s : TradeDBWriter α) : TradeEvent α → Prop
  | .write _ => ∀ t ∈ s.tasks, ¬ t.Closing
  | .task i e => ∀ t ∈ s.tasks[i]?,
      (e = .fail → ¬ t.phase.inserts) ∧ (t.phase.awaitsTimer → ∀ u ∈ s.tasks, u.uncommitted = [])
  | _ => True

/-- An exit of an accepted record is not cancelled, its UPDATE does not
raise, and it is executed only when the record is neither in an insert in
flight nor back in the buffer. -/
def ExitTaskKept (s : TradeDBWriter α) (t : TradeTask α) (e : TradeTaskEvent) : Prop :=
  match t.kind, e with
  | .exit x, .execute => x ∈ t.seen → x ∉ s.held
  | .exit x, .fail => x ∈ t.seen → t.phase.inserts
  | .exit x, .cancel => x ∉ t.seen
  | _, _ => True

def ExitKept (s : TradeDBWriter α) : TradeEvent α → Prop
  | .task i e => ∀ t ∈ s.tasks[i]?, s.ExitTaskKept t e
  | _ => True

instance (t : TradeTask α) : Decidable t.Closing := inferInstanceAs (Decidable (_ ∧ _))

instance (s : TradeDBWriter α) (e : TradeEvent α) : Decidable (Kept s e) := by
  unfold Kept
  split <;> infer_instance

instance (s : TradeDBWriter α) (e : TradeEvent α) : Decidable (Quiet s e) := by
  unfold Quiet
  split <;> infer_instance

instance (s : TradeDBWriter α) (t : TradeTask α) (e : TradeTaskEvent) :
    Decidable (s.ExitTaskKept t e) := by
  unfold ExitTaskKept
  split <;> infer_instance

instance (s : TradeDBWriter α) (e : TradeEvent α) : Decidable (ExitKept s e) := by
  unfold ExitKept
  split <;> infer_instance

/-! ## No record is lost -/

section Located
variable {b : ℕ} {s s' : TradeDBWriter α} {i : ℕ} {t u : TradeTask α}

/-- A task moves records between its hands, the buffer and the table. -/
theorem Located.of_task (h : Located s) (ht : s.tasks[i]? = some t)
    (htasks : s'.tasks = s.tasks.set i u) (haccepted : s'.accepted = s.accepted)
    (hmoved : ∀ x, (s.table ++ s.buffer ++ t.uncommitted).count x ≤
      (s'.table ++ s'.buffer ++ u.uncommitted).count x) : Located s' := by
  intro x
  have hset := count_flatMap_set (f := TradeTask.uncommitted) ht u x
  have hold := h x
  have hmove := hmoved x
  simp only [held, List.count_append, htasks, haccepted] at hold hmove ⊢
  omega

theorem Located.flushBuffer (h : Located s) (ht : s.tasks[i]? = some t) (hu : t.uncommitted = []) :
    Located (s.flushBuffer i t) := by
  unfold TradeDBWriter.flushBuffer
  split
  · refine h.of_task ht rfl rfl fun x => ?_
    simp [hu, setTask]
  · refine h.of_task ht rfl rfl fun x => ?_
    rw [hu]
    simp [setTask, TradeTask.uncommitted]

theorem Located.timerAwaited (h : Located s) (timer : Option ℕ) : Located (s.timerAwaited timer) := by
  unfold TradeDBWriter.timerAwaited
  split <;> exact h

theorem Located.move {e : TradeTaskEvent} (h : Located s) (ht : s.tasks[i]? = some t)
    (hk : e = .cancel → t.uncommitted = []) (hm : TradeMove s i t e s') : Located s' := by
  cases hm with
  | enter hkind hphase =>
    refine h.of_task ht rfl rfl fun x => ?_
    simp [setTask, TradeTask.uncommitted, hphase]
  | flush _ hphase =>
    refine h.flushBuffer ht ?_
    obtain hphase | hphase := hphase <;> simp [TradeTask.uncommitted, hphase]
  | last _ hphase =>
    refine (h.timerAwaited _).flushBuffer (by rwa [tasks_timerAwaited]) ?_
    simp [TradeTask.uncommitted, hphase]
  | commit hphase =>
    refine h.of_task ht rfl rfl fun x => ?_
    simp only [setTask, TradeTask.uncommitted, hphase, List.count_append, List.count_nil]
    omega
  | finish hphase =>
    refine h.of_task ht rfl rfl fun x => ?_
    simp [setTask, TradeTask.uncommitted, hphase]
  | @fail entries committed hphase =>
    refine h.of_task ht rfl rfl fun x => ?_
    cases committed <;> simp [setTask, TradeTask.uncommitted, hphase] <;> omega
  | execute _ hphase | dispose _ hphase | disposeFails _ hphase =>
    refine h.of_task ht rfl rfl fun x => ?_
    simp [setTask, TradeTask.uncommitted, hphase]
  | apply _ hphase =>
    unfold closeRow
    split
    all_goals
      refine h.of_task ht rfl rfl fun x => ?_
      simp [setTask, TradeTask.uncommitted, hphase]
  | raise _ hphase =>
    refine h.of_task ht rfl rfl fun x => ?_
    obtain hphase | ⟨_, hphase⟩ := hphase <;> simp [setTask, TradeTask.uncommitted, hphase]
  | cancel =>
    refine h.of_task ht rfl rfl fun x => ?_
    simp [setTask, hk rfl]

/-- **One step.** -/
theorem Located.step {e : TradeEvent α} (h : Located s) (hk : Kept s e) (hs : s.step b e = some s') :
    Located s' := by
  cases e with
  | start =>
    simp only [TradeDBWriter.step] at hs
    split at hs
    · exact Option.some.inj hs ▸ h
    · obtain rfl := Option.some.inj hs
      intro x
      simpa [held, TradeTask.uncommitted] using h x
  | write tradeId =>
    obtain rfl := Option.some.inj hs
    intro x
    have hx := h x
    simp only [held, List.count_append] at hx ⊢
    split
    · simp only [List.flatMap_append, List.count_append, List.flatMap_cons, List.flatMap_nil,
        TradeTask.uncommitted, List.count_nil]
      omega
    · omega
  | exit tradeId =>
    obtain rfl := Option.some.inj hs
    intro x
    simpa [held, TradeTask.uncommitted] using h x
  | stop =>
    simp only [TradeDBWriter.step] at hs
    split at hs
    · obtain rfl := Option.some.inj hs
      intro x
      simpa [held, TradeTask.uncommitted] using h x
    · exact Option.some.inj hs ▸ h
  | task i e =>
    obtain ⟨t, ht, hstep⟩ := Option.bind_eq_some_iff.mp hs
    refine h.move ht ?_ (taskStep_move hstep)
    rintro rfl
    exact hk t ht

end Located

/-! ## What a stop leaves behind -/

section Stops
variable {b : ℕ} {s s' : TradeDBWriter α} {i : ℕ} {t u : TradeTask α}

/-- What a stop finds that is about to return. -/
theorem Located.all_committed (h : Located s) (hlast : LastFlush s) (ht : s.tasks[i]? = some t)
    (hphase : t.phase = .disposing) (hkind : t.kind = .stop) (x : α) :
    s.accepted.count x ≤ s.table.count x := by
  obtain ⟨hempty, hothers⟩ := hlast i t ht ⟨hkind, .inr hphase⟩
  have hhands : s.tasks.flatMap TradeTask.uncommitted = [] := by
    rw [List.flatMap_eq_nil_iff]
    intro v hv
    obtain ⟨j, hj⟩ := List.mem_iff_getElem?.mp hv
    by_cases hji : j = i
    · subst hji
      obtain rfl : t = v := Option.some.inj (ht.symm.trans hj)
      simp [TradeTask.uncommitted, hphase]
    · exact hothers j v hji hj
  simpa [held, hempty, hhands] using h x

theorem LastFlush.move {e : TradeTaskEvent} (h : LastFlush s) (ht : s.tasks[i]? = some t)
    (hfail : e = .fail → ¬ t.phase.inserts)
    (hlast : t.phase.awaitsTimer → ∀ u ∈ s.tasks, u.uncommitted = [])
    (hm : TradeMove s i t e s') : LastFlush s' := by
  cases hm with
  | enter hkind hphase =>
    refine h.of_task ht rfl id (fun _ _ => uncommitted_afterFlush s t) fun hc => ?_
    simp [TradeTask.Closing, hkind] at hc
  | flush hkind hphase => exact h.flushBuffer ht fun hstop => absurd hstop hkind
  | @last timer _ hkind hphase =>
    have hs : LastFlush (s.timerAwaited timer) := by
      unfold timerAwaited
      split <;> exact h
    refine hs.flushBuffer (by rwa [tasks_timerAwaited]) fun _ => ?_
    rw [tasks_timerAwaited]
    exact hlast (by simp [hphase, TradeTaskPhase.awaitsTimer])
  | commit hphase =>
    exact h.of_task ht rfl id (fun _ _ => rfl) fun hc =>
      .inl (TradeTask.closing_of_flushing hc.1 hphase)
  | finish hphase =>
    refine h.of_task ht rfl id (fun _ _ => uncommitted_afterFlush s t) fun hc => .inl ?_
    exact TradeTask.closing_of_flushing (by simpa using hc.1) hphase
  | fail hphase => exact absurd (by simp [hphase, TradeTaskPhase.inserts]) (hfail rfl)
  | execute hkind =>
    refine h.of_task ht rfl id (fun _ _ => rfl) fun hc => ?_
    simp [TradeTask.Closing, TradeTaskPhase.inserts] at hc
  | apply =>
    unfold closeRow
    split
    all_goals
      refine h.of_task ht rfl id (fun _ _ => rfl) fun hc => ?_
      simp [TradeTask.Closing, TradeTaskPhase.inserts] at hc
  | raise | dispose | disposeFails =>
    refine h.of_task ht rfl id (fun _ _ => rfl) fun hc => ?_
    simp [TradeTask.Closing, TradeTaskPhase.inserts] at hc
  | cancel =>
    refine h.of_task ht rfl id (fun _ _ => uncommitted_cancelled t) fun hc => ?_
    cases hkind : t.kind <;> simp [TradeTask.Closing, TradeTaskPhase.inserts, cancelled, hkind] at hc

theorem LastFlush.step {e : TradeEvent α} (h : LastFlush s) (hq : Quiet s e)
    (hs : s.step b e = some s') : LastFlush s' := by
  cases e with
  | start =>
    simp only [TradeDBWriter.step] at hs
    split at hs
    · exact Option.some.inj hs ▸ h
    · obtain rfl := Option.some.inj hs
      exact h.spawn rfl rfl rfl (by simp [TradeTask.Closing, TradeTaskPhase.inserts])
  | write tradeId =>
    obtain rfl := Option.some.inj hs
    intro j v hv hc
    have hold : v ∈ s.tasks := by
      have hv := List.mem_of_getElem? hv
      split at hv
      · obtain hv | hv := List.mem_append.mp hv
        · exact hv
        · obtain rfl := List.mem_singleton.mp hv
          simp [TradeTask.Closing, TradeTaskPhase.inserts] at hc
      · exact hv
    exact absurd hc (hq v hold)
  | exit tradeId =>
    obtain rfl := Option.some.inj hs
    exact h.spawn rfl rfl rfl (by simp [TradeTask.Closing, TradeTaskPhase.inserts])
  | stop =>
    simp only [TradeDBWriter.step] at hs
    split at hs
    · obtain rfl := Option.some.inj hs
      exact h.spawn rfl rfl rfl (by simp [TradeTask.Closing, TradeTaskPhase.inserts])
    · exact Option.some.inj hs ▸ h
  | task i e =>
    obtain ⟨t, ht, hstep⟩ := Option.bind_eq_some_iff.mp hs
    exact h.move ht (hq t ht).1 (hq t ht).2 (taskStep_move hstep)

/-! ## How exits and stops end -/

/-- What a move means for the task, up to what it holds. -/
structure Moved (s : TradeDBWriter α) (i : ℕ) (t : TradeTask α) (e : TradeTaskEvent)
    (s' : TradeDBWriter α) (u : TradeTask α) : Prop where
  tasks : s'.tasks = s.tasks.set i u
  table : s.table <+: s'.table
  accepted : s'.accepted = s.accepted
  closed : s.closed <+: s'.closed
  kind : u.kind = t.kind
  seen : u.seen = t.seen ∨ u.kind = .stop ∧ u.seen = s.accepted
  /-- A stop returns from the disposal. -/
  stopped : u.kind = .stop → u.phase = .returned → t.phase = .disposing ∧ u.seen = s.accepted
  executed : ∀ x found, u.kind = .exit x → u.phase = .executed found →
    e = .execute ∧ found = decide (x ∈ s.table)
  /-- An exit ends by its commit, by an exception or by a cancellation. -/
  ended : ∀ x, u.kind = .exit x → u.phase = .returned ∨ u.phase = .failed →
    e = .cancel ∨ e = .fail ∧ ¬ t.phase.inserts ∨
      ∃ found, t.phase = .executed found ∧ (found → x ∈ s'.closed)

theorem moved_afterFlush {e : TradeTaskEvent} (hs' : s'.tasks = s.tasks.set i (s.afterFlush t))
    (htable : s'.table = s.table) (haccepted : s'.accepted = s.accepted)
    (hclosed : s'.closed = s.closed) : Moved s i t e s' (s.afterFlush t) := by
  refine ⟨hs', htable ▸ List.prefix_rfl, haccepted, hclosed ▸ List.prefix_rfl, kind_afterFlush s t,
    .inl ?_, ?_, ?_, ?_⟩
  · unfold afterFlush
    split <;> rfl
  · intro hkind hphase
    rw [kind_afterFlush] at hkind
    simp [afterFlush, hkind] at hphase
  · intro x found hkind hphase
    rw [kind_afterFlush] at hkind
    simp [afterFlush, hkind] at hphase
  · intro x hkind hphase
    rw [kind_afterFlush] at hkind
    simp [afterFlush, hkind] at hphase

theorem moved_flushBuffer {e : TradeTaskEvent} (flushTask : Option ℕ) :
    ∃ u, Moved s i t e ({ s with flushTask }.flushBuffer i t) u := by
  unfold TradeDBWriter.flushBuffer
  split
  · exact ⟨s.afterFlush t, moved_afterFlush rfl rfl rfl rfl⟩
  · exact ⟨_, rfl, List.prefix_rfl, rfl, List.prefix_rfl, rfl, .inl rfl, nofun, nofun, nofun⟩

theorem TradeMove.moved {e : TradeTaskEvent} (hm : TradeMove s i t e s') :
    ∃ u, Moved s i t e s' u := by
  cases hm with
  | enter | finish | fail => exact ⟨_, moved_afterFlush rfl rfl rfl rfl⟩
  | flush => exact moved_flushBuffer s.flushTask
  | last =>
    unfold timerAwaited
    split
    · exact moved_flushBuffer none
    · exact moved_flushBuffer s.flushTask
  | commit =>
    exact ⟨_, rfl, List.prefix_append .., rfl, List.prefix_rfl, rfl, .inl rfl, nofun, nofun, nofun⟩
  | @execute x hkind hphase =>
    refine ⟨_, rfl, List.prefix_rfl, rfl, List.prefix_rfl, rfl, .inl rfl, nofun, ?_, nofun⟩
    rintro y found hy hfound
    obtain rfl : x = y := by simpa [hkind] using hy
    exact ⟨rfl, (TradeTaskPhase.executed.inj hfound).symm⟩
  | @apply x found hkind hphase =>
    obtain ⟨hclosed, hmem⟩ := prefix_closeRow s x found
    have htasks : (s.closeRow x found).tasks = s.tasks := by cases found <;> rfl
    have htable : (s.closeRow x found).table = s.table := by cases found <;> rfl
    have haccepted : (s.closeRow x found).accepted = s.accepted := by cases found <;> rfl
    refine ⟨_, congrArg (List.set · i _) htasks, htable ▸ List.prefix_rfl, haccepted, hclosed, rfl,
      .inl rfl, ?_, nofun, ?_⟩
    · intro hstop
      simp [hkind] at hstop
    · intro y hy _
      obtain rfl : x = y := by simpa [hkind] using hy
      exact .inr (.inr ⟨found, hphase, hmem⟩)
  | @raise x hkind hphase =>
    refine ⟨_, rfl, List.prefix_rfl, rfl, List.prefix_rfl, rfl, .inl rfl, ?_, nofun, ?_⟩
    · intro hstop
      simp [hkind] at hstop
    · intro y hy _
      refine .inr (.inl ⟨rfl, ?_⟩)
      obtain hphase | ⟨found, hphase⟩ := hphase <;> simp [hphase, TradeTaskPhase.inserts]
  | dispose hkind hphase =>
    refine ⟨_, rfl, List.prefix_rfl, rfl, List.prefix_rfl, rfl, .inr ⟨hkind, rfl⟩,
      fun _ _ => ⟨hphase, rfl⟩, nofun, ?_⟩
    intro y hy
    simp [hkind] at hy
  | disposeFails hkind hphase =>
    refine ⟨_, rfl, List.prefix_rfl, rfl, List.prefix_rfl, rfl, .inl rfl, nofun, nofun, ?_⟩
    intro y hy
    simp [hkind] at hy
  | cancel =>
    refine ⟨cancelled t, rfl, List.prefix_rfl, rfl, List.prefix_rfl, kind_cancelled t, .inl ?_, ?_, ?_,
      fun _ _ _ => .inl rfl⟩
    · unfold cancelled
      split <;> rfl
    · intro hkind hphase
      rw [kind_cancelled] at hkind
      simp [cancelled, hkind] at hphase
    · intro y found hkind hphase
      rw [kind_cancelled] at hkind
      simp [cancelled, hkind] at hphase

/-- A step adds tasks that are at their start, or one task moves. -/
theorem step_moved {e : TradeEvent α} (hs : s.step b e = some s') :
    (∃ new, s'.tasks = s.tasks ++ new ∧ s'.table = s.table ∧ s'.closed = s.closed ∧
      s.accepted <+: s'.accepted ∧ ∀ u ∈ new, (∀ x ∈ u.seen, x ∈ s.accepted) ∧
        (u.phase = .created ∨ ∃ timer, u.phase = .awaiting timer)) ∨
    ∃ i d t u, e = .task i d ∧ s.tasks[i]? = some t ∧ Moved s i t d s' u := by
  cases e with
  | start =>
    simp only [TradeDBWriter.step] at hs
    split at hs
    · exact .inl ⟨[], by simp [← Option.some.inj hs]⟩
    · obtain rfl := Option.some.inj hs
      exact .inl ⟨_, rfl, rfl, rfl, List.prefix_rfl, by simp⟩
  | write x =>
    obtain rfl := Option.some.inj hs
    refine .inl ⟨if b ≤ (s.buffer ++ [x]).length then [{ kind := .sized }] else [], ?_, rfl, rfl,
      List.prefix_append .., ?_⟩
    · split <;> simp
    · split <;> simp
  | exit x =>
    obtain rfl := Option.some.inj hs
    exact .inl ⟨_, rfl, rfl, rfl, List.prefix_rfl, by simp⟩
  | stop =>
    simp only [TradeDBWriter.step] at hs
    split at hs
    · obtain rfl := Option.some.inj hs
      exact .inl ⟨_, rfl, rfl, rfl, List.prefix_rfl, by simp⟩
    · exact .inl ⟨[], by simp [← Option.some.inj hs]⟩
  | task i d =>
    obtain ⟨t, ht, hstep⟩ := Option.bind_eq_some_iff.mp hs
    obtain ⟨u, hu⟩ := (taskStep_move hstep).moved
    exact .inr ⟨i, d, t, u, rfl, ht, hu⟩

/-- **Stops.** A stop returns with everything accepted in the table. -/
theorem StopsCommitted.step {e : TradeEvent α} (h : StopsCommitted s) (hl : Located s)
    (hlast : LastFlush s) (hs : s.step b e = some s') : StopsCommitted s' := by
  intro v hv hkind hphase x
  obtain ⟨new, htasks, htable, -, -, hnew⟩ | ⟨i, d, t, u, rfl, ht, hu⟩ := step_moved hs
  · rw [htasks] at hv
    rw [htable]
    obtain hv | hv := List.mem_append.mp hv
    · exact h v hv hkind hphase x
    · obtain ⟨-, hstart | ⟨_, hstart⟩⟩ := hnew v hv <;> simp [hphase] at hstart
  · rw [hu.tasks] at hv
    refine Nat.le_trans ?_ (hu.table.sublist.count_le x)
    obtain hv | rfl := List.mem_or_eq_of_mem_set hv
    · exact h v hv hkind hphase x
    · obtain ⟨hdisposing, hseen⟩ := hu.stopped hkind hphase
      rw [hseen]
      exact hl.all_committed hlast ht hdisposing (hu.kind ▸ hkind) x

/-- An accepted record that nobody holds is a row. -/
theorem Located.mem_table (h : Located s) {x : α} (hx : x ∈ s.accepted) (hheld : x ∉ s.held) :
    x ∈ s.table := by
  have hcount := h x
  rw [List.count_eq_zero_of_not_mem hheld] at hcount
  exact List.count_pos_iff.mp (Nat.lt_of_lt_of_le (List.count_pos_iff.mpr hx) hcount)

theorem ExitSound.moved {d : TradeTaskEvent} (h : ExitSound s t) (hl : Located s)
    (ht : s.tasks[i]? = some t) (hk : ExitKept s (.task i d)) (hu : Moved s i t d s' u) :
    ExitSound s' u := by
  have haccepted : ∀ x ∈ u.seen, x ∈ s'.accepted := by
    intro x hx
    rw [hu.accepted]
    obtain hseen | ⟨-, hseen⟩ := hu.seen
    · exact h.seen x (hseen ▸ hx)
    · exact hseen ▸ hx
  -- the record of an exit was accepted when it was called
  have hsame : ∀ x, u.kind = .exit x → x ∈ u.seen → t.kind = .exit x ∧ x ∈ t.seen := by
    intro x hkind hx
    obtain hseen | ⟨hstop, -⟩ := hu.seen
    · exact ⟨hu.kind ▸ hkind, hseen ▸ hx⟩
    · simp [hkind] at hstop
  refine ⟨haccepted, ?_, ?_⟩
  · intro x hkind hx found hphase
    obtain ⟨htkind, htx⟩ := hsame x hkind hx
    obtain ⟨rfl, rfl⟩ := hu.executed x found hkind hphase
    have hkept := hk t ht
    simp only [ExitTaskKept, htkind] at hkept
    simpa using hl.mem_table (h.seen x htx) (hkept htx)
  · intro x hkind hx hphase
    obtain ⟨htkind, htx⟩ := hsame x hkind hx
    have hkept := hk t ht
    obtain rfl | ⟨rfl, hnot⟩ | ⟨found, hexec, hclosed⟩ := hu.ended x hkind hphase
    · simp only [ExitTaskKept, htkind] at hkept
      exact absurd htx hkept
    · simp only [ExitTaskKept, htkind] at hkept
      exact absurd (hkept htx) hnot
    · exact hclosed (h.executed x htkind htx found hexec)

/-- **Exits.** -/
theorem exitSound_step {e : TradeEvent α} (h : ∀ t ∈ s.tasks, ExitSound s t) (hl : Located s)
    (hk : ExitKept s e) (hs : s.step b e = some s') : ∀ t ∈ s'.tasks, ExitSound s' t := by
  intro v hv
  obtain ⟨new, htasks, -, hclosed, haccepted, hnew⟩ | ⟨i, d, t, u, rfl, ht, hu⟩ := step_moved hs
  · rw [htasks] at hv
    obtain hv | hv := List.mem_append.mp hv
    · exact (h v hv).mono haccepted (hclosed ▸ List.prefix_rfl)
    · obtain ⟨hseen, hstart⟩ := hnew v hv
      refine ⟨fun x hx => haccepted.subset (hseen x hx), fun x _ _ found hphase => ?_,
        fun x _ _ hphase => ?_⟩
      · obtain hstart | ⟨_, hstart⟩ := hstart <;> simp [hphase] at hstart
      · obtain hphase | hphase := hphase
        all_goals obtain hstart | ⟨_, hstart⟩ := hstart <;> simp [hphase] at hstart
  · rw [hu.tasks] at hv
    obtain hv | rfl := List.mem_or_eq_of_mem_set hv
    · exact (h v hv).mono (hu.accepted ▸ List.prefix_rfl) hu.closed
    · exact (h t (List.mem_of_getElem? ht)).moved hl ht hk hu

end Stops

/-! ## Every run -/

/-- What holds after every quiet run. -/
structure Stoppable (s : TradeDBWriter α) : Prop where
  located : Located s
  last : LastFlush s
  stops : StopsCommitted s

/-- What holds after every run whose exits find their rows. -/
structure Exitable (s : TradeDBWriter α) : Prop where
  located : Located s
  exits : ∀ t ∈ s.tasks, ExitSound s t

/-- **Trade history.** In every run that cancels no task with records in
its hands, each accepted record is in the table, the buffer or an insert in
flight; in a quiet one a stop that returns leaves them all in the table; and
if each UPDATE is executed when nobody holds the record, every exit closes
its row. -/
theorem history_of_run (b : ℕ) (es : List (TradeEvent α)) (s : TradeDBWriter α) :
    (RunWhere (TradeDBWriter.step b) Kept {} es s → Located s) ∧
      (RunWhere (TradeDBWriter.step b) (fun s e => Kept s e ∧ Quiet s e) {} es s →
        StopsCommitted s) ∧
      (RunWhere (TradeDBWriter.step b) (fun s e => Kept s e ∧ ExitKept s e) {} es s →
        ExitsApplied s) := by
  have hlocated : Located ({} : TradeDBWriter α) := fun _ => Nat.zero_le _
  refine ⟨fun h => ?_, fun h => ?_, fun h => ?_⟩
  · exact h.invariant_state Located hlocated fun t e u ht hk hs => ht.step hk hs
  · have hinv := h.invariant_state Stoppable ⟨hlocated, by simp [LastFlush], by simp [StopsCommitted]⟩
      fun t e u ht hk hs =>
        ⟨ht.located.step hk.1 hs, ht.last.step hk.2 hs, ht.stops.step ht.located ht.last hs⟩
    exact hinv.stops
  · have hinv := h.invariant_state Exitable ⟨hlocated, by simp⟩ fun t e u ht hk hs =>
      ⟨ht.located.step hk.1 hs, exitSound_step ht.exits ht.located hk.2 hs⟩
    exact fun t ht x hkind hx hphase => (hinv.exits t ht).ended x hkind hx hphase

/-- A record is written and its exit applied; a second one is flushed by
the stop. -/
def closedRun : List (TradeEvent ℕ) :=
  [.start, .task 0 .enter, .write 1, .exit 1, .task 1 .enter, .task 1 .commit, .task 1 .finish,
    .task 1 .execute, .task 1 .apply, .write 2, .stop, .task 0 .cancel, .task 2 .proceed,
    .task 2 .commit, .task 2 .finish, .task 2 .finish]

theorem history_of_run_closed : ∃ s,
    RunWhere (TradeDBWriter.step 10) (fun s e => Kept s e ∧ Quiet s e ∧ ExitKept s e) {} closedRun s ∧
      s.accepted = [1, 2] ∧ Located s ∧ StopsCommitted s ∧ ExitsApplied s := by
  obtain ⟨s, hrun, hs⟩ := RunWhere.exists_of_checked (TradeDBWriter.step 10)
    (fun s e => Kept s e ∧ Quiet s e ∧ ExitKept s e) {} closedRun (fun s => s.accepted = [1, 2])
    (by decide) (by decide)
  obtain ⟨hlocated, hstops, hexits⟩ := history_of_run 10 closedRun s
  exact ⟨s, hrun, by simpa using hs, hlocated (hrun.mono fun _ _ h => h.1),
    hstops (hrun.mono fun _ _ h => ⟨h.1, h.2.1⟩), hexits (hrun.mono fun _ _ h => ⟨h.1, h.2.2⟩)⟩

/-- The timer takes the record; `stop` cancels it in its insert, and an exit
that comes meanwhile finds no row. -/
def timerRun : List (TradeEvent ℕ) :=
  [.start, .task 0 .enter, .write 1, .task 0 .wake, .exit 1, .task 1 .enter, .task 1 .execute,
    .task 1 .apply, .stop, .task 0 .cancel, .task 2 .proceed, .task 2 .finish]

theorem cancelled_timer_lost : ∃ s,
    Run (TradeDBWriter.step 10) {} timerRun s ∧
      ¬ Located s ∧ ¬ StopsCommitted s ∧ ¬ ExitsApplied s := by
  obtain ⟨s, hrun, hs⟩ := Run.exists_of_exec (TradeDBWriter.step 10) {} timerRun
    (fun s => s.accepted = [1] ∧ s.table = [] ∧ s.held = [] ∧ s.closed = [] ∧
      { kind := .exit 1, seen := [1], phase := .returned } ∈ s.tasks ∧
      { kind := .stop, seen := [1], phase := .returned } ∈ s.tasks) (by decide)
  obtain ⟨haccepted, htable, hheld, hclosed, hexit, hstop⟩ := of_decide_eq_true hs
  refine ⟨s, hrun, fun h => ?_, fun h => ?_, fun h => ?_⟩
  · simpa [haccepted, htable, hheld] using h 1
  · simpa [htable] using h _ hstop rfl rfl 1
  · simpa [hclosed] using h _ hexit 1 rfl (by simp) (.inl rfl)

end TradeDBWriter

end TdSandboxed
