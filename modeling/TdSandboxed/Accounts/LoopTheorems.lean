/-
TdSandboxed.Accounts.LoopTheorems — when the status of an account and its
loop agree.

An account that is active has a loop that stays, or one that failed and is
about to save the error, or a `stop_account` that is about to save
`stopped` (`Covered`). Nothing of this is under way in a quiescent state,
so the loop is all that is left. The other way, a loop that stays reads
nothing but `active`, because `error` is only written where none stays.
-/
import TdSandboxed.Accounts.AccountLoop
import TdSandboxed.Lib.TaskSystem

namespace TdSandboxed

open Lib

namespace AccountLoop

def Stays (l : AccountLoop) : Prop := l.phase.stays ∧ ¬ l.cancelRequested

/-- The loop failed and its `set` of the error is issued. -/
def SavesError (l : AccountLoop) : Prop := l.phase = .savingError ∧ ¬ l.cancelRequested

instance (l : AccountLoop) : Decidable l.Stays := inferInstanceAs (Decidable (_ ∧ _))

end AccountLoop

/-- A `stop_account` that is going to save `stopped`. -/
def AccountCall.willStop (c : AccountCall) : Bool :=
  c.operation = .stopAccount &&
    match c.phase with
    | .cancellingTask | .stoppingConnection | .reading | .writing => true
    | .read current => current ≠ some .stopped
    | _ => false

/-- An operation is cancelled, or an await of it raises. The cancellation of
the wait for the loop is caught. -/
def AccountCall.endsEarly (c : AccountCall) (e : OperationEvent) : Bool :=
  match c.phase, e with
  | .cancellingTask, .cancel => false
  | _, .fail _ | _, .cancel => true
  | _, _ => false

namespace AccountTasks

/-! ## The property -/

/-- A task of the loop is there and not done. -/
def Running (s : AccountTasks) (a : String) : Prop := ∃ l ∈ s.loops a, l.phase ≠ .ended

/-- No operation is under way, and each loop sleeps and has read the status
as it is. -/
structure Quiescent (s : AccountTasks) : Prop where
  calls : ∀ c ∈ s.calls, ∃ out, c.phase = .finished out
  spawners : ∀ p ∈ s.spawners, ∃ out, p.phase = .finished out
  loops : ∀ a, ∀ l ∈ s.loops a, l.phase = .ended ∨
    l.phase = .sleeping (s.manager.status a) ∧ ¬ l.cancelRequested

/-- An account is active exactly when a loop of it is running. -/
def Agrees (s : AccountTasks) : Prop := ∀ a, s.manager.status a = some .active ↔ s.Running a

/-- The handler is called only after `active` was read. -/
def HandlesActive (s : AccountTasks) : Prop :=
  ∀ a, ∀ l ∈ s.loops a, ∀ status, l.phase = .handling status → status = some .active

/-! ## The steps that keep it -/

def HasStaying (s : AccountTasks) (a : String) : Prop := ∃ l ∈ s.loops a, l.Stays

instance (s : AccountTasks) (a : String) : Decidable (s.HasStaying a) :=
  inferInstanceAs (Decidable (∃ l ∈ s.loops a, l.Stays))

/-- Active, paused or stopped. -/
def Plain (status : Option AccountState) : Prop :=
  status = some .active ∨ status = some .paused ∨ status = some .stopped

instance (status : Option AccountState) : Decidable (Plain status) :=
  inferInstanceAs (Decidable (_ ∨ _ ∨ _))

/-- `active` is written where a loop stays and `error` where none does, and
no `stop_account` of an active account ends early unless a loop stays. -/
def CallKept (s : AccountTasks) (c : AccountCall) (e : OperationEvent) : Prop :=
  (c.phase = .writing → e = .server →
    (c.operation.target = .active → s.HasStaying c.accountId) ∧
      (c.operation.target = .error → ¬ s.HasStaying c.accountId)) ∧
  (c.endsEarly e → c.willStop → s.manager.status c.accountId = some .active →
    s.HasStaying c.accountId)

/-- `active` is saved while a loop of the account stays. -/
def SpawnerKept (s : AccountTasks) (p : Spawner) (e : OperationEvent) : Prop :=
  match p.phase, e with
  | .saving a _, .server => s.HasStaying a
  | _, _ => True

/-- A loop that reads before its `active` was saved finds a plain status, and
a loop that failed saves the error, where no loop stays. -/
def LoopKept (s : AccountTasks) (a : String) (l : AccountLoop) (e : LoopEvent) : Prop :=
  match l.phase, e with
  | .reading, .server => l.saved ∨ Plain (s.manager.status a)
  | .savingError, .server => ¬ s.HasStaying a
  | .savingError, .fail => s.manager.status a = some .active → s.HasStaying a
  | _, _ => True

def Orderly (s : AccountTasks) : AccountTaskEvent → Prop
  | .callStep i e => ∀ c ∈ s.calls[i]?, s.CallKept c e
  | .spawnerStep i e => ∀ p ∈ s.spawners[i]?, s.SpawnerKept p e
  | .loopStep a k e => ∀ l ∈ (s.loops a)[k]?, s.LoopKept a l e
  | _ => True

instance (s : AccountTasks) (c : AccountCall) (e : OperationEvent) : Decidable (s.CallKept c e) :=
  inferInstanceAs (Decidable (_ ∧ _))

instance (s : AccountTasks) (p : Spawner) (e : OperationEvent) : Decidable (s.SpawnerKept p e) := by
  unfold SpawnerKept
  split <;> infer_instance

instance (s : AccountTasks) (a : String) (l : AccountLoop) (e : LoopEvent) :
    Decidable (s.LoopKept a l e) := by
  unfold LoopKept
  split <;> infer_instance

instance (s : AccountTasks) (e : AccountTaskEvent) : Decidable (Orderly s e) := by
  unfold Orderly
  split <;> infer_instance

/-- Nothing is under way, and no account is active. -/
structure Fresh (s : AccountTasks) : Prop where
  loops : ∀ a, s.loops a = []
  calls : s.calls = []
  spawners : s.spawners = []
  status : ∀ a, s.manager.status a ≠ some .active

/-! ## What an operation can do -/

section Calls
variable {m m' : AccountManager} {c c' : AccountCall} {e : OperationEvent}

/-- A step of an operation, up to where it is suspended. -/
structure CallMoved (m : AccountManager) (c : AccountCall) (e : OperationEvent)
    (m' : AccountManager) (c' : AccountCall) : Prop where
  accountId : c'.accountId = c.accountId
  accounts : m'.accounts = m.accounts
  status : m'.status = m.status ∨ c.phase = .writing ∧ e = .server ∧
    m'.status = Function.update m.status c.accountId (some c.operation.target)
  /-- Only `stop_account` waits for a loop. -/
  cancelling : c.phase = .created → c'.phase = .cancellingTask → c'.willStop
  /-- A stop of an active account goes on until it has written. -/
  stopping : c.willStop → m.status c.accountId = some .active → c.endsEarly e = false →
    m'.status = m.status → c'.willStop

theorem callMoved_goto {p : OperationPhase} (haccounts : m'.accounts = m.accounts)
    (hstatus : m'.status = m.status)
    (hcancelling : c.phase = .created → p = .cancellingTask → (c.goto p).willStop)
    (hstopping : c.willStop → m.status c.accountId = some .active → c.endsEarly e = false →
      (c.goto p).willStop) : CallMoved m c e m' (c.goto p) :=
  ⟨rfl, haccounts, .inl hstatus, hcancelling, fun hw ha he _ => hstopping hw ha he⟩

/-- Where `stop_account` goes after its loop is gone, it still stops. -/
theorem willStop_stopConnection (m : AccountManager) {c : AccountCall} (h : c.willStop) :
    (c.goto (AccountCall.stopConnection m)).willStop := by
  have hop : c.operation = .stopAccount := by
    simp only [AccountCall.willStop, Bool.and_eq_true, decide_eq_true_eq] at h
    exact h.1
  unfold AccountCall.stopConnection
  split <;> simp [AccountCall.willStop, hop]

theorem start_cancelling (m : AccountManager) (c : AccountCall)
    (h : c.start m = .cancellingTask) : c.operation = .stopAccount := by
  obtain ⟨op, a, phase⟩ := c
  unfold AccountCall.start at h
  split at h
  · cases op with
    | stopAccount => rfl
    | _ => simp [AccountCall.entry] at h
  · simp at h

/-- An operation that is cancelled, or of which an await raises, is over. -/
theorem endsEarly_step (he : c.endsEarly e) (hs : c.step m e = some (m', c')) :
    m'.accounts = m.accounts ∧ m'.status = m.status ∧ ∃ out, c' = c.goto (.finished out) := by
  obtain ⟨op, a, phase⟩ := c
  cases e with
  | fail x =>
    cases phase with
    | created | finished out => cases hs
    | _ =>
      obtain ⟨rfl, rfl⟩ := Prod.mk.inj (Option.some.inj hs)
      exact ⟨rfl, rfl, _, rfl⟩
  | cancel =>
    cases phase with
    | cancellingTask => cases he
    | finished out => cases hs
    | _ =>
      obtain ⟨rfl, rfl⟩ := Prod.mk.inj (Option.some.inj hs)
      exact ⟨rfl, rfl, _, rfl⟩
  | _ => cases phase <;> cases he

/-- A stop that read another status than `stopped` writes. -/
theorem check_of_willStop {op : Operation} {a : String} {current : Option AccountState}
    (h : (AccountCall.mk op a (.read current)).willStop) : op.check a current = .ok true := by
  simp only [AccountCall.willStop, Bool.and_eq_true, decide_eq_true_eq] at h
  obtain ⟨rfl, hne⟩ := h
  simp [Operation.check, hne]

theorem step_moved (hs : c.step m e = some (m', c')) : CallMoved m c e m' c' := by
  cases he : c.endsEarly e with
  | true =>
    obtain ⟨haccounts, hstatus, out, rfl⟩ := endsEarly_step he hs
    refine callMoved_goto haccounts hstatus nofun fun _ _ hgoes => ?_
    rw [he] at hgoes
    cases hgoes
  | false =>
    obtain ⟨op, a, phase⟩ := c
    cases phase with
    | created =>
      cases e with
      | start =>
        obtain ⟨rfl, rfl⟩ := Prod.mk.inj (Option.some.inj hs)
        refine callMoved_goto rfl rfl (fun _ hp => ?_) (fun hw => ?_)
        · obtain rfl : op = .stopAccount := start_cancelling m _ hp
          simp [AccountCall.willStop, hp]
        · simp [AccountCall.willStop] at hw
      | cancel => cases he
      | _ => cases hs
    | cancellingTask =>
      cases e with
      | reply | cancel =>
        obtain ⟨rfl, rfl⟩ := Prod.mk.inj (Option.some.inj hs)
        exact callMoved_goto rfl rfl nofun fun hw _ _ => willStop_stopConnection m hw
      | fail => cases he
      | _ => cases hs
    | stoppingConnection =>
      cases e with
      | reply =>
        obtain ⟨rfl, rfl⟩ := Prod.mk.inj (Option.some.inj hs)
        exact callMoved_goto rfl rfl nofun fun hw _ _ => hw
      | fail | cancel => cases he
      | _ => cases hs
    | reading =>
      cases e with
      | server =>
        obtain ⟨rfl, rfl⟩ := Prod.mk.inj (Option.some.inj hs)
        refine callMoved_goto rfl rfl nofun fun hw hactive _ => ?_
        have hread : m.status a = some .active := hactive
        simpa [AccountCall.willStop, hread] using hw
      | fail | cancel => cases he
      | _ => cases hs
    | read current =>
      cases e with
      | reply =>
        simp only [AccountCall.step] at hs
        split at hs
        · obtain ⟨rfl, rfl⟩ := Prod.mk.inj (Option.some.inj hs)
          refine callMoved_goto rfl rfl nofun fun hw _ _ => ?_
          simp only [AccountCall.willStop, Bool.and_eq_true, decide_eq_true_eq] at hw
          simp [AccountCall.willStop, hw.1]
        · next hcheck =>
          obtain ⟨rfl, rfl⟩ := Prod.mk.inj (Option.some.inj hs)
          refine callMoved_goto rfl rfl nofun fun hw _ _ => ?_
          cases hcheck.symm.trans (check_of_willStop hw)
        · next hcheck =>
          obtain ⟨rfl, rfl⟩ := Prod.mk.inj (Option.some.inj hs)
          refine callMoved_goto rfl rfl nofun fun hw _ _ => ?_
          cases hcheck.symm.trans (check_of_willStop hw)
      | fail | cancel => cases he
      | _ => cases hs
    | writing =>
      cases e with
      | server =>
        obtain ⟨rfl, rfl⟩ := Prod.mk.inj (Option.some.inj hs)
        refine ⟨rfl, rfl, .inr ⟨rfl, rfl, rfl⟩, nofun, fun hw hactive _ hsame => ?_⟩
        simp only [AccountCall.willStop, Bool.and_eq_true, decide_eq_true_eq] at hw
        obtain ⟨rfl, -⟩ := hw
        have hstopped := congrFun hsame a
        have hread : m.status a = some .active := hactive
        simp [hread, Operation.target] at hstopped
      | fail | cancel => cases he
      | _ => cases hs
    | wrote =>
      cases e with
      | reply =>
        simp only [AccountCall.step] at hs
        split at hs
        all_goals
          obtain ⟨rfl, rfl⟩ := Prod.mk.inj (Option.some.inj hs)
          exact callMoved_goto rfl rfl nofun fun hw => by simp [AccountCall.willStop] at hw
      | fail | cancel => cases he
      | _ => cases hs
    | alerting alert =>
      cases e with
      | server =>
        obtain ⟨rfl, rfl⟩ := Prod.mk.inj (Option.some.inj hs)
        exact callMoved_goto rfl rfl nofun fun hw => by simp [AccountCall.willStop] at hw
      | fail | cancel => cases he
      | _ => cases hs
    | alerted =>
      cases e with
      | reply =>
        obtain ⟨rfl, rfl⟩ := Prod.mk.inj (Option.some.inj hs)
        exact callMoved_goto rfl rfl nofun fun hw => by simp [AccountCall.willStop] at hw
      | fail | cancel => cases he
      | _ => cases hs
    | finished out => cases e <;> cases hs

end Calls

/-! ## The invariant -/

/-- What is known of a loop. One that stays, once `active` was saved, has an
account with a plain status; it reads nothing else, and goes on only after
`active`. -/
structure LoopSound (status : Option AccountState) (l : AccountLoop) : Prop where
  plain : l.Stays → l.saved → Plain status
  read : ¬ l.cancelRequested → ∀ r, l.phase = .read r → Plain r
  active : ∀ r, l.phase = .handling r ∨ l.phase = .sleeping r → r = some .active

/-- Why an account may be active: a loop stays, or will save the error, or a
`stop_account` will save `stopped`. -/
def Covered (s : AccountTasks) (a : String) : Prop :=
  s.HasStaying a ∨ (∃ l ∈ s.loops a, l.SavesError) ∨ ∃ c ∈ s.calls, c.accountId = a ∧ c.willStop

/-- The accounts a spawner goes on with. -/
def todo (p : Spawner) : List String :=
  match p.phase, p.kind with
  | .connecting, .addAccount a _ => [a]
  | .saving _ todo, _ | .saved todo, _ => todo
  | _, _ => []

/-- What holds after every orderly run. -/
structure Coherent (s : AccountTasks) : Prop where
  covered : ∀ a, s.manager.status a = some .active → s.Covered a
  loops : ∀ a, ∀ l ∈ s.loops a, LoopSound (s.manager.status a) l
  known : ∀ a, ∀ l ∈ s.loops a, a ∈ s.manager.accounts
  todo : ∀ p ∈ s.spawners, ∀ a ∈ todo p, a ∈ s.manager.accounts

section Coherent
variable {s t : AccountTasks} {a : String}

theorem LoopSound.of_status {status status' : Option AccountState} {l : AccountLoop}
    (h : LoopSound status l) (hplain : l.Stays → l.saved → Plain status') : LoopSound status' l :=
  ⟨hplain, h.read, h.active⟩

/-- A quiescent state is one where only loops can cover an account. -/
theorem Coherent.agrees (h : Coherent s) (hq : Quiescent s) : Agrees s := by
  intro a
  constructor
  · intro hactive
    obtain ⟨l, hl, hstays, -⟩ | ⟨l, hl, hsaves, -⟩ | ⟨c, hc, -, hstop⟩ := h.covered a hactive
    · refine ⟨l, hl, fun hended => ?_⟩
      simp [hended, LoopPhase.stays] at hstays
    · obtain hended | ⟨hsleeping, -⟩ := hq.loops a l hl
      · simp [hended] at hsaves
      · simp [hsleeping] at hsaves
    · obtain ⟨out, hout⟩ := hq.calls c hc
      simp [AccountCall.willStop, hout] at hstop
  · rintro ⟨l, hl, hrunning⟩
    obtain hended | ⟨hsleeping, -⟩ := hq.loops a l hl
    · exact absurd hended hrunning
    · exact (h.loops a l hl).active _ (.inr hsleeping)

theorem Coherent.handlesActive (h : Coherent s) : HandlesActive s :=
  fun a l hl status hphase => (h.loops a l hl).active status (.inl hphase)

/-! ## Operations -/

theorem mem_setCall_of_ne {cs : List AccountCall} {i : ℕ} {c c' d : AccountCall}
    (hc : cs[i]? = some c) (hd : d ∈ cs) : d = c ∨ d ∈ cs.set i c' := by
  obtain ⟨j, hj⟩ := List.mem_iff_getElem?.mp hd
  by_cases hji : j = i
  · subst hji
    exact .inl (Option.some.inj (hj.symm.trans hc))
  · exact .inr (List.mem_of_getElem? ((TaskSystem.getElem?_task_of_ne c' hji).trans hj))

theorem mem_setCall_self {cs : List AccountCall} {i : ℕ} {c c' : AccountCall}
    (hc : cs[i]? = some c) : c' ∈ cs.set i c' :=
  List.mem_of_getElem? (TaskSystem.getElem?_task_self hc)

theorem Coherent.setCall {m : AccountManager} {i : ℕ} {c c' : AccountCall} {e : OperationEvent}
    (h : Coherent s) (hc : s.calls[i]? = some c) (hk : s.CallKept c e)
    (hm : CallMoved s.manager c e m c') : Coherent ({ s with manager := m }.setCall i c') := by
  have haccounts : m.accounts = s.manager.accounts := hm.accounts
  -- another operation still covers the account, or this one goes on
  have hother : ∀ b, s.manager.status b = some .active →
      (b = c.accountId → m.status = s.manager.status) →
      ({ s with manager := m }.setCall i c').Covered b := by
    intro b hactive hsame
    obtain hstays | hsaves | ⟨d, hd, rfl, hstop⟩ := h.covered b hactive
    · exact .inl hstays
    · exact .inr (.inl hsaves)
    · obtain rfl | hd := mem_setCall_of_ne hc hd
      · cases he : d.endsEarly e with
        | true => exact .inl (hk.2 he hstop hactive)
        | false =>
          exact .inr (.inr ⟨c', mem_setCall_self hc, hm.accountId,
            hm.stopping hstop hactive he (hsame rfl)⟩)
      · exact .inr (.inr ⟨d, hd, rfl, hstop⟩)
  refine ⟨fun b hb => ?_, fun b l hl => ?_, fun b l hl => ?_, fun p hp b hb => ?_⟩
  · have hb : m.status b = some .active := hb
    obtain hsame | ⟨hwriting, rfl, hset⟩ := hm.status
    · exact hother b (hsame ▸ hb) fun _ => hsame
    · by_cases hba : b = c.accountId
      · subst hba
        rw [hset, Function.update_self] at hb
        exact .inl ((hk.1 hwriting rfl).1 (Option.some.inj hb))
      · rw [hset, Function.update_of_ne hba] at hb
        exact hother b hb fun hba' => absurd hba' hba
  · show LoopSound (m.status b) l
    obtain hsame | ⟨hwriting, rfl, hset⟩ := hm.status
    · exact hsame ▸ h.loops b l hl
    · by_cases hba : b = c.accountId
      · subst hba
        refine (h.loops _ l hl).of_status fun hstays _ => ?_
        rw [hset, Function.update_self]
        have herror := (hk.1 hwriting rfl).2
        cases htarget : c.operation.target with
        | error => exact absurd ⟨l, hl, hstays⟩ (herror htarget)
        | _ => simp [Plain]
      · rw [hset, Function.update_of_ne hba]
        exact h.loops b l hl
  · show b ∈ m.accounts
    exact haccounts ▸ h.known b l hl
  · show b ∈ m.accounts
    exact haccounts ▸ h.todo p hp b hb

@[simp] theorem setLoop_loops_self (s : AccountTasks) (a : String) (k : ℕ) (l : AccountLoop) :
    (s.setLoop a k l).loops a = (s.loops a).set k l := by
  simp [setLoop]

theorem setLoop_loops_of_ne (s : AccountTasks) {a b : String} (k : ℕ) (l : AccountLoop) (h : b ≠ a) :
    (s.setLoop a k l).loops b = s.loops b := by
  simp [setLoop, Function.update_of_ne h]

theorem mem_setLoop {k : ℕ} {l l' : AccountLoop} {b : String}
    (hl' : l' ∈ (s.setLoop a k l).loops b) : b = a ∧ l' = l ∨ l' ∈ s.loops b := by
  by_cases hba : b = a
  · subst hba
    rw [setLoop_loops_self] at hl'
    obtain hl' | rfl := List.mem_or_eq_of_mem_set hl'
    · exact .inr hl'
    · exact .inl ⟨rfl, rfl⟩
  · rw [setLoop_loops_of_ne s k l hba] at hl'
    exact .inr hl'

/-- One loop changes, another stays as it is. -/
theorem mem_setLoop_of_ne {k : ℕ} {l l' d : AccountLoop} {b : String}
    (hl : (s.loops a)[k]? = some l) (hd : d ∈ s.loops b) :
    b = a ∧ d = l ∨ d ∈ (s.setLoop a k l').loops b := by
  by_cases hba : b = a
  · subst hba
    obtain ⟨j, hj⟩ := List.mem_iff_getElem?.mp hd
    by_cases hjk : j = k
    · subst hjk
      exact .inl ⟨rfl, Option.some.inj (hj.symm.trans hl)⟩
    · right
      rw [setLoop_loops_self]
      exact List.mem_of_getElem? ((TaskSystem.getElem?_task_of_ne l' hjk).trans hj)
  · right
    rwa [setLoop_loops_of_ne s k l' hba]

theorem mem_setLoop_self {k : ℕ} {l l' : AccountLoop} (hl : (s.loops a)[k]? = some l) :
    l' ∈ (s.setLoop a k l').loops a := by
  rw [setLoop_loops_self]
  exact List.mem_of_getElem? (TaskSystem.getElem?_task_self hl)

/-- The account of a loop that is cancelled is covered by the operation that
cancels it. -/
theorem Coherent.cancelLoop (h : Coherent s) (hstop : ∃ c ∈ s.calls, c.accountId = a ∧ c.willStop) :
    Coherent (s.cancelLoop a) := by
  unfold AccountTasks.cancelLoop
  split
  · exact h
  · next l hlast =>
    have hl : (s.loops a)[(s.loops a).length - 1]? = some l := by
      rwa [← List.getLast?_eq_getElem?]
    refine ⟨fun b hb => ?_, fun b d hd => ?_, fun b d hd => ?_, h.todo⟩
    · by_cases hba : b = a
      · exact .inr (.inr (hba ▸ hstop))
      · obtain ⟨d, hd, hstays⟩ | ⟨d, hd, hsaves⟩ | hcall := h.covered b hb
        · obtain ⟨hba', -⟩ | hd := mem_setLoop_of_ne hl hd
          · exact absurd hba' hba
          · exact .inl ⟨d, hd, hstays⟩
        · obtain ⟨hba', -⟩ | hd := mem_setLoop_of_ne hl hd
          · exact absurd hba' hba
          · exact .inr (.inl ⟨d, hd, hsaves⟩)
        · exact .inr (.inr hcall)
    · obtain ⟨rfl, rfl⟩ | hd := mem_setLoop hd
      · have hsound := h.loops b l (List.mem_of_getElem? hl)
        exact ⟨fun hstays => absurd rfl hstays.2, fun hc => absurd rfl hc, hsound.active⟩
      · exact h.loops b d hd
    · obtain ⟨rfl, rfl⟩ | hd := mem_setLoop hd
      · exact h.known b l (List.mem_of_getElem? hl)
      · exact h.known b d hd

theorem Coherent.callStep {i : ℕ} {c : AccountCall} {e : OperationEvent} (h : Coherent s)
    (hc : s.calls[i]? = some c) (hk : s.CallKept c e) (hs : s.callStep i c e = some t) :
    Coherent t := by
  simp only [AccountTasks.callStep, Option.map_eq_some_iff] at hs
  obtain ⟨⟨m, c'⟩, hstep, rfl⟩ := hs
  have hm := step_moved hstep
  have hset := h.setCall hc hk hm
  simp only
  split
  · next hphase =>
    exact hset.cancelLoop ⟨c', mem_setCall_self hc, hm.accountId, hm.cancelling hphase.1 hphase.2⟩
  · exact hset

/-! ## Loops -/

/-- A step of a loop that leaves the status as it is: the loop is still
known, and if it was what covers its account, it still is. -/
theorem Coherent.setLoop {k : ℕ} {l l' : AccountLoop} (h : Coherent s)
    (hl : (s.loops a)[k]? = some l) (hstatus : t.manager.status = s.manager.status)
    (haccounts : t.manager.accounts = s.manager.accounts)
    (hloops : t.loops = (s.setLoop a k l').loops) (hcalls : t.calls = s.calls)
    (hspawners : t.spawners = s.spawners) (hsound : LoopSound (s.manager.status a) l')
    (hcovers : s.manager.status a = some .active → l.Stays ∨ l.SavesError →
      l'.Stays ∨ l'.SavesError ∨ s.HasStaying a ∧ ¬ l.Stays) : Coherent t := by
  -- the other loops
  have hrest : ∀ b d, d ∈ s.loops b → ¬ (b = a ∧ d = l) → d ∈ t.loops b := by
    intro b d hd hne
    rw [hloops]
    exact (mem_setLoop_of_ne hl hd).resolve_left hne
  have hself : l' ∈ t.loops a := hloops ▸ mem_setLoop_self hl
  -- what covered the account, if it was this loop
  have hmoved : s.manager.status a = some .active → l.Stays ∨ l.SavesError → t.Covered a := by
    intro hactive hwas
    obtain hstays | hsaves | ⟨⟨d, hd, hstays⟩, hnot⟩ := hcovers hactive hwas
    · exact .inl ⟨l', hself, hstays⟩
    · exact .inr (.inl ⟨l', hself, hsaves⟩)
    · exact .inl ⟨d, hrest a d hd fun hdl => hnot (hdl.2 ▸ hstays), hstays⟩
  refine ⟨fun b hb => ?_, fun b d hd => ?_, fun b d hd => ?_, fun p hp b hb => ?_⟩
  · rw [hstatus] at hb
    obtain ⟨d, hd, hstays⟩ | ⟨d, hd, hsaves⟩ | ⟨c, hc, hcall⟩ := h.covered b hb
    · by_cases hdl : b = a ∧ d = l
      · obtain ⟨rfl, rfl⟩ := hdl
        exact hmoved hb (.inl hstays)
      · exact .inl ⟨d, hrest b d hd hdl, hstays⟩
    · by_cases hdl : b = a ∧ d = l
      · obtain ⟨rfl, rfl⟩ := hdl
        exact hmoved hb (.inr hsaves)
      · exact .inr (.inl ⟨d, hrest b d hd hdl, hsaves⟩)
    · exact .inr (.inr ⟨c, hcalls ▸ hc, hcall⟩)
  · rw [hstatus]
    rw [hloops] at hd
    obtain ⟨rfl, rfl⟩ | hd := mem_setLoop hd
    · exact hsound
    · exact h.loops b d hd
  · rw [haccounts]
    rw [hloops] at hd
    obtain ⟨rfl, -⟩ | hd := mem_setLoop hd
    · exact h.known b l (List.mem_of_getElem? hl)
    · exact h.known b d hd
  · rw [haccounts]
    exact h.todo p (hspawners ▸ hp) b hb

/-- What the phases of an uncancelled loop are followed by. -/
structure PhaseMoved (s : AccountTasks) (a : String) (q : LoopPhase) (e : LoopEvent) (p : LoopPhase) :
    Prop where
  stays : p.stays → q.stays
  read : ∀ r, p ≠ .read r
  active : ∀ r, p = .handling r ∨ p = .sleeping r → q = .handling r ∨ q = .read r ∧ exitsOn r = false
  /-- A loop that stays leaves with an error only. -/
  leaves : q.stays → a ∈ s.manager.accounts → p.stays ∨ p = .savingError
  saving : q = .savingError → e = .fail

theorem phaseMoved_fail (s : AccountTasks) (a : String) (q : LoopPhase) :
    PhaseMoved s a q .fail (if a ∈ s.manager.accounts then .savingError else .clearing) := by
  refine ⟨?_, ?_, ?_, ?_, fun _ => rfl⟩
  · split <;> simp [LoopPhase.stays]
  · split <;> simp
  · split <;> simp
  · intro _ ha
    simp [ha]

theorem phaseMoved_read (s : AccountTasks) (a : String) (status : Option AccountState) :
    PhaseMoved s a (.read status) .reply
      (if exitsOn status then .clearing
        else if s.handler then .handling status else .sleeping status) := by
  cases hexits : exitsOn status with
  | true => exact ⟨nofun, nofun, nofun, fun hq => by simp [LoopPhase.stays, hexits] at hq, nofun⟩
  | false =>
    have hq : (LoopPhase.read status).stays := by simp [LoopPhase.stays, hexits]
    cases s.handler with
    | true =>
      refine ⟨fun _ => hq, nofun, fun r hr => .inr ?_, fun _ _ => .inl rfl, nofun⟩
      obtain hr | hr := hr <;> cases hr
      exact ⟨rfl, hexits⟩
    | false =>
      refine ⟨fun _ => hq, nofun, fun r hr => .inr ?_, fun _ _ => .inl rfl, nofun⟩
      obtain hr | hr := hr <;> cases hr
      exact ⟨rfl, hexits⟩

theorem nextPhase_moved {q p : LoopPhase} {e : LoopEvent} (h : s.nextPhase a q e = some p) :
    PhaseMoved s a q e p := by
  cases q with
  | created =>
    cases e with
    | start => exact Option.some.inj h ▸ ⟨fun _ => rfl, nofun, nofun, fun _ _ => .inl rfl, nofun⟩
    | _ => cases h
  | beating =>
    cases e with
    | reply => exact Option.some.inj h ▸ ⟨fun _ => rfl, nofun, nofun, fun _ _ => .inl rfl, nofun⟩
    | fail => exact Option.some.inj h ▸ phaseMoved_fail s a _
    | _ => cases h
  | reading =>
    cases e with
    | fail => exact Option.some.inj h ▸ phaseMoved_fail s a _
    | _ => cases h
  | read status =>
    cases e with
    | reply => exact Option.some.inj h ▸ phaseMoved_read s a status
    | fail => exact Option.some.inj h ▸ phaseMoved_fail s a _
    | _ => cases h
  | handling status =>
    cases e with
    | reply =>
      obtain rfl := Option.some.inj h
      refine ⟨fun _ => rfl, nofun, fun r hr => .inl ?_, fun _ _ => .inl rfl, nofun⟩
      obtain hr | hr := hr <;> cases hr
      rfl
    | fail => exact Option.some.inj h ▸ phaseMoved_fail s a _
    | _ => cases h
  | sleeping status =>
    cases e with
    | reply => exact Option.some.inj h ▸ ⟨fun _ => rfl, nofun, nofun, fun _ _ => .inl rfl, nofun⟩
    | _ => cases h
  | savingError =>
    cases e with
    | fail => exact Option.some.inj h ▸ ⟨nofun, nofun, nofun, nofun, fun _ => rfl⟩
    | _ => cases h
  | savedError | reporting | clearing =>
    cases e with
    | reply | fail => exact Option.some.inj h ▸ ⟨nofun, nofun, nofun, nofun, nofun⟩
    | _ => cases h
  | ended => cases e <;> cases h

theorem popEnded_frame (s : AccountTasks) (a : String) (l : AccountLoop) (e : LoopEvent) :
    (s.popEnded a l e).manager.status = s.manager.status ∧
      (s.popEnded a l e).manager.accounts = s.manager.accounts ∧
      (s.popEnded a l e).loops = s.loops ∧ (s.popEnded a l e).calls = s.calls ∧
      (s.popEnded a l e).spawners = s.spawners := by
  unfold popEnded
  split <;> exact ⟨rfl, rfl, rfl, rfl, rfl⟩

theorem exitsOn_plain {status : Option AccountState} (hplain : Plain status)
    (hexits : exitsOn status = false) : status = some .active := by
  obtain rfl | rfl | rfl := hplain
  · rfl
  · simp [exitsOn] at hexits
  · simp [exitsOn] at hexits

theorem Coherent.goOn {k : ℕ} {l : AccountLoop} {d : LoopEvent} {p : LoopPhase} (h : Coherent s)
    (hl : (s.loops a)[k]? = some l) (hk : s.LoopKept a l d) (hcancel : ¬ l.cancelRequested)
    (hm : PhaseMoved s a l.phase d p) :
    Coherent ((s.popEnded a l d).setLoop a k { l with phase := p }) := by
  have hmem : l ∈ s.loops a := List.mem_of_getElem? hl
  have hsound := h.loops a l hmem
  obtain ⟨hstatus, haccounts, hloops, hcalls, hspawners⟩ := popEnded_frame s a l d
  have hset : ((s.popEnded a l d).setLoop a k { l with phase := p }).loops =
      (s.setLoop a k { l with phase := p }).loops := by
    simp only [AccountTasks.setLoop, hloops]
  refine h.setLoop hl hstatus haccounts hset hcalls hspawners ?_ ?_
  · refine ⟨fun hstays hsaved => hsound.plain ⟨hm.stays hstays.1, hcancel⟩ hsaved,
      fun _ r hr => absurd hr (hm.read r), fun r hr => ?_⟩
    obtain hq | ⟨hq, hexits⟩ := hm.active r hr
    · exact hsound.active r (.inl hq)
    · exact exitsOn_plain (hsound.read hcancel r hq) hexits
  · rintro hactive (hstays | hsaves)
    · obtain hp | hp := hm.leaves hstays.1 (h.known a l hmem)
      · exact .inl ⟨hp, hcancel⟩
      · exact .inr (.inl ⟨hp, hcancel⟩)
    · obtain rfl := hm.saving hsaves.1
      simp only [LoopKept, hsaves.1] at hk
      refine .inr (.inr ⟨hk hactive, fun hstays => ?_⟩)
      simp [AccountLoop.Stays, LoopPhase.stays, hsaves.1] at hstays

/-- The error is saved where no loop stays. -/
theorem Coherent.saveError {k : ℕ} {l : AccountLoop} (h : Coherent s)
    (hl : (s.loops a)[k]? = some l) (hnone : ¬ s.HasStaying a) :
    Coherent ({ s with manager := s.manager.saveAccountStatus a .error }.setLoop a k
      { l with phase := .savedError }) := by
  have hmem : l ∈ s.loops a := List.mem_of_getElem? hl
  refine ⟨fun b hb => ?_, fun b d hd => ?_, fun b d hd => ?_, h.todo⟩
  · have hb : (s.manager.saveAccountStatus a .error).status b = some .active := hb
    rw [AccountManager.saveAccountStatus_status] at hb
    split at hb
    · cases hb
    · next hba =>
      obtain ⟨d, hd, hstays⟩ | ⟨d, hd, hsaves⟩ | hcall := h.covered b hb
      · exact .inl ⟨d, (mem_setLoop_of_ne hl hd).resolve_left fun hdl => hba hdl.1, hstays⟩
      · exact .inr (.inl ⟨d, (mem_setLoop_of_ne hl hd).resolve_left fun hdl => hba hdl.1, hsaves⟩)
      · exact .inr (.inr hcall)
  · show LoopSound ((s.manager.saveAccountStatus a .error).status b) d
    rw [AccountManager.saveAccountStatus_status]
    obtain ⟨rfl, rfl⟩ | hd := mem_setLoop hd
    · exact ⟨fun hstays => by simp [AccountLoop.Stays, LoopPhase.stays] at hstays, nofun, nofun⟩
    · have hd : d ∈ s.loops b := hd
      refine (h.loops b d hd).of_status fun hstays hsaved => ?_
      split
      · next hba => exact absurd ⟨d, hba ▸ hd, hstays⟩ hnone
      · exact (h.loops b d hd).plain hstays hsaved
  · obtain ⟨rfl, -⟩ | hd := mem_setLoop hd
    · exact h.known b l hmem
    · exact h.known b d hd

theorem Coherent.loopStep {k : ℕ} {l : AccountLoop} {e : LoopEvent} (h : Coherent s)
    (hl : (s.loops a)[k]? = some l) (hk : s.LoopKept a l e) (hs : s.loopStep a k l e = some t) :
    Coherent t := by
  have hsound := h.loops a l (List.mem_of_getElem? hl)
  cases e with
  | start | reply | fail =>
    simp only [AccountTasks.loopStep, Option.ite_none_left_eq_some, Option.map_eq_some_iff] at hs
    obtain ⟨hcancel, p, hp, rfl⟩ := hs
    exact h.goOn hl hk hcancel (nextPhase_moved hp)
  | cancel =>
    simp only [AccountTasks.loopStep, Option.ite_none_right_eq_some] at hs
    obtain ⟨hcancel, hs⟩ := hs
    obtain rfl := Option.some.inj hs
    refine h.setLoop hl rfl rfl rfl rfl rfl ?_ ?_
    · cases hphase : l.phase
      all_goals
        refine ⟨fun hstays => ?_, nofun, nofun⟩
        simp [AccountLoop.Stays, LoopPhase.stays, LoopPhase.afterCancel] at hstays
    · rintro - (hstays | hsaves)
      · exact absurd hcancel hstays.2
      · exact absurd hcancel hsaves.2
  | server =>
    simp only [AccountTasks.loopStep] at hs
    split at hs
    · next hphase =>
      obtain rfl := Option.some.inj hs
      simp only [LoopKept, hphase] at hk
      have hstays : ¬ l.cancelRequested → l.Stays := fun hc => ⟨by simp [hphase, LoopPhase.stays], hc⟩
      refine h.setLoop hl rfl rfl rfl rfl rfl ⟨?_, ?_, nofun⟩ ?_
      · exact fun hnow hsaved => hsound.plain (hstays hnow.2) hsaved
      · rintro hc r hr
        obtain rfl : s.manager.status a = r := LoopPhase.read.inj hr
        obtain hsaved | hplain := hk
        · exact hsound.plain (hstays hc) hsaved
        · exact hplain
      · rintro hactive (hwas | hwas)
        · refine .inl ⟨?_, hwas.2⟩
          simp [LoopPhase.stays, exitsOn, hactive]
        · simp [AccountLoop.SavesError, hphase] at hwas
    · next hphase =>
      obtain rfl := Option.some.inj hs
      simp only [LoopKept, hphase] at hk
      exact h.saveError hl hk
    · cases hs

/-! ## Starting loops -/

theorem Coherent.setSpawner {i : ℕ} {p : Spawner} (h : Coherent s)
    (hp : ∀ b ∈ AccountTasks.todo p, b ∈ s.manager.accounts) : Coherent (s.setSpawner i p) := by
  refine ⟨h.covered, h.loops, h.known, fun q hq b hb => ?_⟩
  obtain hq | rfl := List.mem_or_eq_of_mem_set hq
  · exact h.todo q hq b hb
  · exact hp b hb

/-- A new loop has read nothing, and nothing was saved for it. -/
theorem Coherent.spawnLoop (h : Coherent s) (ha : a ∈ s.manager.accounts) :
    Coherent (s.spawnLoop a) := by
  have hold : ∀ b l, l ∈ s.loops b → l ∈ (s.spawnLoop a).loops b := by
    intro b l hl
    by_cases hba : b = a
    · subst hba
      simp [AccountTasks.spawnLoop, hl]
    · simpa [AccountTasks.spawnLoop, Function.update_of_ne hba] using hl
  have hnew : ∀ b l, l ∈ (s.spawnLoop a).loops b → l ∈ s.loops b ∨ b = a ∧ l = {} := by
    intro b l hl
    by_cases hba : b = a
    · subst hba
      simpa [AccountTasks.spawnLoop] using hl
    · exact .inl (by simpa [AccountTasks.spawnLoop, Function.update_of_ne hba] using hl)
  refine ⟨fun b hb => ?_, fun b l hl => ?_, fun b l hl => ?_, h.todo⟩
  · obtain ⟨l, hl, hstays⟩ | ⟨l, hl, hsaves⟩ | hcall := h.covered b hb
    · exact .inl ⟨l, hold b l hl, hstays⟩
    · exact .inr (.inl ⟨l, hold b l hl, hsaves⟩)
    · exact .inr (.inr hcall)
  · obtain hl | ⟨rfl, rfl⟩ := hnew b l hl
    · exact h.loops b l hl
    · exact ⟨nofun, nofun, nofun⟩
  · obtain hl | ⟨rfl, rfl⟩ := hnew b l hl
    · exact h.known b l hl
    · exact ha

theorem Coherent.spawnNext {i : ℕ} {p : Spawner} {todo : List String} (h : Coherent s)
    (htodo : ∀ b ∈ todo, b ∈ s.manager.accounts) : Coherent (s.spawnNext i p todo) := by
  induction todo with
  | nil => exact h.setSpawner (by simp [AccountTasks.todo])
  | cons a todo ih =>
    simp only [AccountTasks.spawnNext]
    split
    · exact (h.spawnLoop (htodo a List.mem_cons_self)).setSpawner fun b hb =>
        htodo b (List.mem_cons_of_mem a hb)
    · exact ih fun b hb => htodo b (List.mem_cons_of_mem a hb)

theorem Coherent.spawnAll {i : ℕ} {p : Spawner} (h : Coherent s)
    (ha : ∀ b active, p.kind = .addAccount b active → b ∈ s.manager.accounts) :
    Coherent (s.spawnAll i p) := by
  unfold AccountTasks.spawnAll
  split
  · exact h.spawnNext fun b hb => hb
  · next b active hkind =>
    refine h.spawnNext fun d hd => ?_
    rw [List.mem_singleton.mp hd]
    exact ha b active hkind

theorem Coherent.connect {i : ℕ} {p : Spawner} (h : Coherent s)
    (ha : ∀ b active, p.kind = .addAccount b active → b ∈ s.manager.accounts) :
    Coherent (s.connect i p) := by
  unfold AccountTasks.connect
  split
  · refine h.setSpawner fun b hb => ?_
    cases hkind : p.kind with
    | startAll => simp [AccountTasks.todo, hkind] at hb
    | addAccount d active =>
      obtain rfl : b = d := by simpa [AccountTasks.todo, hkind] using hb
      exact ha b active hkind
  · exact h.spawnAll ha

theorem Coherent.addConfig (h : Coherent s) (a : String) (active : Bool) :
    Coherent (s.addConfig a active) := by
  refine ⟨h.covered, h.loops, fun b l hl => ?_, fun p hp b hb => ?_⟩
  · exact List.mem_append_left _ (h.known b l hl)
  · exact List.mem_append_left _ (h.todo p hp b hb)

theorem Coherent.startSpawner {i : ℕ} {p : Spawner} (h : Coherent s) :
    Coherent (s.startSpawner i p) := by
  unfold AccountTasks.startSpawner
  split
  · next hkind => exact h.connect fun b active hb => by simp [hkind] at hb
  · next a active hkind =>
    split
    · exact h.setSpawner (by simp [AccountTasks.todo])
    · split
      · refine (h.addConfig a active).connect fun b active' hb => ?_
        obtain ⟨rfl, -⟩ : a = b ∧ active = active' := by simpa [hkind] using hb
        exact List.mem_append_right _ (List.mem_singleton_self a)
      · exact (h.addConfig a active).setSpawner (by simp [AccountTasks.todo])

/-- `active` is saved where a loop stays. -/
theorem Coherent.saveActive (h : Coherent s) (hstaying : s.HasStaying a) :
    Coherent (s.saveActive a) := by
  have hloops : ∀ b, b ≠ a → (s.saveActive a).loops b = s.loops b := fun b hba => by
    simp [AccountTasks.saveActive, Function.update_of_ne hba]
  have hself : (s.saveActive a).loops a = (s.loops a).map fun l => { l with saved := true } := by
    simp [AccountTasks.saveActive]
  have hstatus : ∀ b, (s.saveActive a).manager.status b =
      if b = a then some .active else s.manager.status b := fun b =>
    AccountManager.saveAccountStatus_status s.manager a b .active
  refine ⟨fun b hb => ?_, fun b l hl => ?_, fun b l hl => ?_, h.todo⟩
  · by_cases hba : b = a
    · subst hba
      obtain ⟨l, hl, hstays⟩ := hstaying
      exact .inl ⟨{ l with saved := true }, hself ▸ List.mem_map.mpr ⟨l, hl, rfl⟩, hstays⟩
    · rw [hstatus, if_neg hba] at hb
      obtain ⟨l, hl, hstays⟩ | ⟨l, hl, hsaves⟩ | hcall := h.covered b hb
      · exact .inl ⟨l, hloops b hba ▸ hl, hstays⟩
      · exact .inr (.inl ⟨l, hloops b hba ▸ hl, hsaves⟩)
      · exact .inr (.inr hcall)
  · rw [hstatus]
    by_cases hba : b = a
    · subst hba
      rw [hself] at hl
      obtain ⟨d, hd, rfl⟩ := List.mem_map.mp hl
      have hsound := h.loops b d hd
      exact ⟨fun _ _ => .inl (if_pos rfl), hsound.read, hsound.active⟩
    · rw [hloops b hba] at hl
      rw [if_neg hba]
      exact h.loops b l hl
  · show b ∈ s.manager.accounts
    by_cases hba : b = a
    · subst hba
      rw [hself] at hl
      obtain ⟨d, hd, -⟩ := List.mem_map.mp hl
      exact h.known b d hd
    · rw [hloops b hba] at hl
      exact h.known b l hl

theorem Coherent.spawnerStep {i : ℕ} {p : Spawner} {e : OperationEvent} (h : Coherent s)
    (hp : s.spawners[i]? = some p) (hk : s.SpawnerKept p e) (hs : s.spawnerStep i p e = some t) :
    Coherent t := by
  have htodo := h.todo p (List.mem_of_getElem? hp)
  have hfinish : ∀ out, Coherent (s.setSpawner i { p with phase := .finished out }) := fun out =>
    h.setSpawner (by simp [AccountTasks.todo])
  obtain ⟨kind, size, phase⟩ := p
  cases phase with
  | created =>
    cases e with
    | start => exact Option.some.inj hs ▸ h.startSpawner
    | cancel => exact Option.some.inj hs ▸ hfinish _
    | _ => cases hs
  | connecting =>
    cases e with
    | reply =>
      obtain rfl := Option.some.inj hs
      refine h.spawnAll fun b active hkind => htodo b ?_
      have hkind : kind = .addAccount b active := hkind
      simp [AccountTasks.todo, hkind]
    | fail | cancel => exact Option.some.inj hs ▸ hfinish _
    | _ => cases hs
  | saving a todo =>
    cases e with
    | server =>
      obtain rfl := Option.some.inj hs
      exact (h.saveActive hk).setSpawner htodo
    | fail | cancel => exact Option.some.inj hs ▸ hfinish _
    | _ => cases hs
  | saved todo =>
    cases e with
    | reply =>
      obtain rfl := Option.some.inj hs
      unfold AccountTasks.continueSpawner
      split
      · exact hfinish _
      · exact h.spawnNext htodo
    | fail | cancel => exact Option.some.inj hs ▸ hfinish _
    | _ => cases hs
  | finished out => cases e <;> cases hs

end Coherent

/-! ## Every run -/

theorem Coherent.step {s t : AccountTasks} {e : AccountTaskEvent} (h : Coherent s) (hk : Orderly s e)
    (hs : s.step e = some t) : Coherent t := by
  cases e with
  | call operation accountId =>
    obtain rfl := Option.some.inj hs
    refine ⟨fun a ha => ?_, h.loops, h.known, h.todo⟩
    obtain hstays | hsaves | ⟨c, hc, hcall⟩ := h.covered a ha
    · exact .inl hstays
    · exact .inr (.inl hsaves)
    · exact .inr (.inr ⟨c, List.mem_append_left _ hc, hcall⟩)
  | startAll =>
    obtain rfl := Option.some.inj hs
    refine ⟨h.covered, h.loops, h.known, fun p hp a ha => ?_⟩
    obtain hp | hp := List.mem_append.mp hp
    · exact h.todo p hp a ha
    · obtain rfl := List.mem_singleton.mp hp
      simp [AccountTasks.todo] at ha
  | addAccount a config =>
    obtain rfl := Option.some.inj hs
    refine ⟨h.covered, h.loops, h.known, fun p hp b hb => ?_⟩
    obtain hp | hp := List.mem_append.mp hp
    · exact h.todo p hp b hb
    · obtain rfl := List.mem_singleton.mp hp
      cases config <;> simp [AccountTasks.todo, addSpawner] at hb
  | callStep i e =>
    obtain ⟨c, hc, hstep⟩ := Option.bind_eq_some_iff.mp hs
    exact h.callStep hc (hk c hc) hstep
  | spawnerStep i e =>
    obtain ⟨p, hp, hstep⟩ := Option.bind_eq_some_iff.mp hs
    exact h.spawnerStep hp (hk p hp) hstep
  | loopStep a k e =>
    obtain ⟨l, hl, hstep⟩ := Option.bind_eq_some_iff.mp hs
    exact h.loopStep hl (hk l hl) hstep

theorem coherent_fresh {s : AccountTasks} (h : Fresh s) : Coherent s := by
  refine ⟨fun a ha => absurd ha (h.status a), fun a l hl => ?_, fun a l hl => ?_, fun p hp => ?_⟩
  · simp [h.loops a] at hl
  · simp [h.loops a] at hl
  · simp [h.spawners] at hp

/-- **Status and loops agree.** In every orderly run from a process that has
started nothing, a quiescent state has an account active exactly when its
loop is running, and the handler is called only after `active` was read. -/
theorem agrees_of_run {s₀ s : AccountTasks} {es : List AccountTaskEvent} (h₀ : Fresh s₀)
    (h : RunWhere AccountTasks.step Orderly s₀ es s) : (Quiescent s → Agrees s) ∧ HandlesActive s := by
  have hcoherent := h.invariant_state Coherent (coherent_fresh h₀) fun t e u ht hk hs => ht.step hk hs
  exact ⟨hcoherent.agrees, hcoherent.handlesActive⟩

/-- One account, active in the configuration. -/
def freshTasks : AccountTasks where
  manager := { accounts := ["a"] }
  configActive := ["a"]
  handler := true

theorem freshTasks_fresh : Fresh freshTasks := ⟨fun _ => rfl, rfl, rfl, nofun⟩

/-- The loop is started, `active` is saved, and the loop has one turn. -/
def startedRun : List AccountTaskEvent :=
  [.startAll, .spawnerStep 0 .start, .loopStep "a" 0 .start, .spawnerStep 0 .server,
    .spawnerStep 0 .reply, .loopStep "a" 0 .reply, .loopStep "a" 0 .server, .loopStep "a" 0 .reply,
    .loopStep "a" 0 .reply]

theorem agrees_of_run_started : ∃ s, RunWhere AccountTasks.step Orderly freshTasks startedRun s ∧
    Quiescent s ∧ s.manager.status "a" = some .active ∧ Agrees s ∧ HandlesActive s := by
  obtain ⟨s, hrun, hs⟩ := RunWhere.exists_of_checked AccountTasks.step Orderly freshTasks startedRun
    (fun s => s.manager.accounts = ["a"] ∧ s.calls = [] ∧
      s.spawners = [{ kind := .startAll, size := 1, phase := .finished .returned }] ∧
      s.loops "a" = [{ phase := .sleeping (some .active), saved := true }] ∧
      s.manager.status "a" = some .active) (by decide +kernel) (by decide +kernel)
  obtain ⟨haccounts, hcalls, hspawners, hloops, hstatus⟩ := of_decide_eq_true hs
  obtain ⟨hagrees, hhandles⟩ := agrees_of_run freshTasks_fresh hrun
  have hknown := (hrun.invariant_state Coherent (coherent_fresh freshTasks_fresh)
    fun t e u ht hk hs => ht.step hk hs).known
  have hquiet : Quiescent s := by
    refine ⟨by simp [hcalls], by simp [hspawners], fun a l hl => .inr ?_⟩
    obtain rfl : a = "a" := by simpa [haccounts] using hknown a l hl
    obtain rfl : l = _ := List.mem_singleton.mp (hloops ▸ hl)
    simp [hstatus]
  exact ⟨s, hrun, hquiet, hstatus, hagrees hquiet, hhandles⟩

/-- `start_account` for an account without a loop. -/
def activeTasks : AccountTasks :=
  { freshTasks with
    manager := freshTasks.manager.saveAccountStatus "a" .active
    calls := [{ operation := .startAccount, accountId := "a", phase := .finished .returned }] }

/-- An account is started and has no loop; and after `set_error` the loop
still calls the handler. -/
theorem active_without_loop :
    (Run AccountTasks.step freshTasks
      [.call .startAccount "a", .callStep 0 .start, .callStep 0 .server, .callStep 0 .reply,
        .callStep 0 .server, .callStep 0 .reply] activeTasks ∧
      Quiescent activeTasks ∧ ¬ Agrees activeTasks) ∧
    ∃ s, Run AccountTasks.step freshTasks
      (startedRun ++ [.call .setError "a", .callStep 0 .start, .callStep 0 .server, .callStep 0 .reply,
        .loopStep "a" 0 .reply, .loopStep "a" 0 .reply, .loopStep "a" 0 .server,
        .loopStep "a" 0 .reply]) s ∧ ¬ HandlesActive s := by
  refine ⟨⟨.of_exec rfl, ⟨?_, ?_, ?_⟩, fun h => ?_⟩, ?_⟩
  · simp [activeTasks]
  · simp [activeTasks, freshTasks]
  · simp [activeTasks, freshTasks]
  · obtain ⟨l, hl, -⟩ := (h "a").mp (by simp [activeTasks])
    simp [activeTasks, freshTasks] at hl
  · obtain ⟨s, hrun, hs⟩ := Run.exists_of_exec AccountTasks.step freshTasks
      (startedRun ++ [.call .setError "a", .callStep 0 .start, .callStep 0 .server, .callStep 0 .reply,
        .loopStep "a" 0 .reply, .loopStep "a" 0 .reply, .loopStep "a" 0 .server,
        .loopStep "a" 0 .reply])
      (fun s => s.loops "a" = [{ phase := .handling (some .error), saved := true }]) (by decide +kernel)
    have hloops := of_decide_eq_true hs
    refine ⟨s, hrun, fun h => ?_⟩
    have hactive := h "a" { phase := .handling (some .error), saved := true } (by simp [hloops])
    simpa using hactive (some .error) rfl

end AccountTasks

end TdSandboxed
