/-
TdSandboxed.TvApi.ReplayTheorems — every channel of a replay session is
closed at most once, by the right packet, and who may wait for ever.

A channel that a call registers is in one place: it is pending, a
`replay_ok` is about to close it, or it is closed. `held` counts the places,
and only the registration and the withdrawal after a failed send change it.

`Close` and `Delete` close what is pending. Nothing tells a call that
registers after them, and that is the one way to a channel which nobody
closes (`Early`).
-/
import TdSandboxed.TvApi.ReplaySession

namespace TdSandboxed.ReplaySession

open Lib

variable {s t : State} {sh sh' : Shared} {i j ch : ℕ} {r : String} {c c' : Task} {e : Event}

/-! ## What a step does -/

inductive Moves (s : Shared) (i : ℕ) : Task → Event → Shared → Task → Prop
  | register (r : String) : Moves s i (.call r .registering) .proceed
      { s with pendingAcks := s.pendingAcks.set r i } (.call r .sending)
  | sent (r : String) : Moves s i (.call r .sending) (.sent true) s (.call r (.returned true))
  | failed (r : String) : Moves s i (.call r .sending) (.sent false) s (.call r .failing)
  | withdraw (r : String) : Moves s i (.call r .failing) .proceed (s.delete r)
      (.call r (.returned false))
  | found (r : String) (ch : ℕ) : s.pendingAcks.get? r = some ch →
      Moves s i (.looking r) .proceed (s.delete r) (.closing r ch)
  | unknown (r : String) : s.pendingAcks.get? r = none →
      Moves s i (.looking r) .proceed s .finished
  | close (r : String) (ch : ℕ) : Moves s i (.closing r ch) .proceed
      { s with closings := s.closings ++ [(ch, .ack r)] } .finished
  | deleted (ok : Bool) : Moves s i .deleting (.sent ok) s .draining
  | drain : Moves s i .draining .proceed s.drain .finished

theorem moves_of_task (h : task sh i c e = some (sh', c')) : Moves sh i c e sh' c' := by
  unfold task at h
  split at h
  case h_5 =>
    split at h
    · rename_i hfound
      cases h
      exact .found _ _ hfound
    · rename_i hnone
      cases h
      exact .unknown _ hnone
  all_goals cases h
  · exact .register _
  · exact .sent _
  · exact .failed _
  · exact .withdraw _
  · exact .close _ _
  · exact .deleted _
  · exact .drain

/-- A call that is about to register its channel. -/
def Task.registers : Task → Bool
  | .call _ .registering => true
  | _ => false

theorem eq_of_registers (h : c.registers = true) : ∃ r, c = .call r .registering := by
  unfold Task.registers at h
  split at h
  · exact ⟨_, rfl⟩
  · cases h

/-- The request id of a call. -/
def Task.callId : Task → Option String
  | .call r _ => some r
  | _ => none

def callIdAt (tasks : List Task) (i : ℕ) : Option String := tasks[i]?.bind Task.callId

theorem Moves.callId_eq (h : Moves sh i c e sh' c') : c'.callId = c.callId := by
  cases h <;> rfl

theorem callIdAt_set {tasks : List Task} (hc : tasks[i]? = some c) (h : c'.callId = c.callId)
    (j : ℕ) : callIdAt (tasks.set i c') j = callIdAt tasks j := by
  by_cases hj : j = i
  · subst hj
    simp only [callIdAt, TaskSystem.getElem?_task_self hc, hc, Option.bind_some, h]
  · simp only [callIdAt, TaskSystem.getElem?_task_of_ne c' hj]

theorem callIdAt_of_call {tasks : List Task} {phase : CallPhase}
    (h : tasks[i]? = some (.call r phase)) : callIdAt tasks i = some r := by
  simp [callIdAt, h, Task.callId]

/-! ## Where a channel is -/

def unit (ch x : ℕ) : ℤ := if x = ch then 1 else 0

def Task.holds (ch : ℕ) : Task → ℤ
  | .closing _ x => unit ch x
  | _ => 0

def closes (ch : ℕ) (closings : List (ℕ × Closer)) : ℤ := (closings.map fun p => unit ch p.1).sum

/-- In how many places the channel is. -/
def held (s : State) (ch : ℕ) : ℤ :=
  s.shared.pendingAcks.total (unit ch) + TaskSystem.total (Task.holds ch) s.tasks +
    closes ch s.shared.closings

theorem unit_nonneg (ch x : ℕ) : 0 ≤ unit ch x := by
  unfold unit
  split <;> decide

theorem holds_nonneg (ch : ℕ) (c : Task) : 0 ≤ c.holds ch := by
  cases c with
  | closing r x => exact unit_nonneg ch x
  | _ => exact le_rfl

@[simp]
theorem unit_self (ch : ℕ) : unit ch ch = 1 := if_pos rfl

theorem unit_of_ne (h : j ≠ ch) : unit ch j = 0 := if_neg h

theorem closes_append (ch : ℕ) (xs ys : List (ℕ × Closer)) :
    closes ch (xs ++ ys) = closes ch xs + closes ch ys := by
  simp [closes]

theorem closes_eq_count (ch : ℕ) (closings : List (ℕ × Closer)) :
    closes ch closings = (closings.map Prod.fst).count ch := by
  induction closings with
  | nil => rfl
  | cons p closings ih =>
    have hcons : closes ch (p :: closings) = unit ch p.1 + closes ch closings := by
      simp [closes]
    rw [hcons, ih, List.map_cons, List.count_cons, unit]
    by_cases hp : p.1 = ch
    · simp [hp, add_comm]
    · simp [hp]

/-- What a drain closes is what was pending. -/
theorem closes_drain (ch : ℕ) (d : OrderedDict String ℕ) :
    closes ch (d.values.map fun x => (x, .drain)) = d.total (unit ch) := by
  simp [closes, OrderedDict.total, Function.comp_def]

theorem total_delete (ch : ℕ) (d : OrderedDict String ℕ) (r : String) :
    (d.filterKeys fun k => k ≠ r).total (unit ch) =
      d.total (unit ch) - ((d.get? r).map (unit ch)).getD 0 := by
  rw [d.total_eq_add_filterKeys_ne (unit ch) r]
  exact (add_sub_cancel_left _ _).symm

/-- How a step changes the count: a registration adds the call's own channel,
a withdrawal takes out what is pending under its id. -/
def gain (ch : ℕ) (sh : Shared) (i : ℕ) : Task → ℤ
  | .call r .registering => unit ch i - ((sh.pendingAcks.get? r).map (unit ch)).getD 0
  | .call r .failing => -((sh.pendingAcks.get? r).map (unit ch)).getD 0
  | _ => 0

theorem held_task (hc : s.tasks[i]? = some c) (h : Moves s.shared i c e sh' c') (ch : ℕ) :
    held { shared := sh', tasks := s.tasks.set i c' } ch = held s ch + gain ch s.shared i c := by
  simp only [held, TaskSystem.total_task (Task.holds ch) hc]
  cases h with
  | register r =>
    simp only [OrderedDict.total_set, Task.holds, gain]
    abel
  | sent r | failed r | deleted ok => simp [Task.holds, gain]
  | withdraw r =>
    simp only [Shared.delete, total_delete, Task.holds, gain]
    abel
  | found r x hfound =>
    simp only [Shared.delete, total_delete, hfound, Task.holds, gain, Option.map_some,
      Option.getD_some]
    abel
  | unknown r hnone => simp [Task.holds, gain]
  | close r x =>
    have hone : closes ch [(x, .ack r)] = unit ch x := by
      simp [closes]
    simp only [closes_append, hone, Task.holds, gain]
    abel
  | drain =>
    simp only [Shared.drain, closes_append, closes_drain, OrderedDict.total_empty, Task.holds, gain]
    abel

/-! ## The invariant -/

/-- The entry of a call in this phase is its own. -/
def CallPhase.Open : CallPhase → Prop
  | .registering | .returned false => False
  | .sending | .failing | .returned true => True

/-- In how many places the channel of a task is. -/
def Task.Holds : Task → ℤ → Prop
  | .call _ .registering, n => n = 0
  | .call _ (.returned false), n => n ≤ 1
  | .call _ _, n => n = 1
  | _, n => n = 0

structure Inv (s : State) : Prop where
  distinct : ∀ i j r, callIdAt s.tasks i = some r → callIdAt s.tasks j = some r → i = j
  pending : ∀ r ch, s.shared.pendingAcks.get? r = some ch →
    ∃ phase : CallPhase, s.tasks[ch]? = some (.call r phase) ∧ phase.Open
  closing : ∀ (i : ℕ) r ch, s.tasks[i]? = some (.closing r ch) → callIdAt s.tasks ch = some r
  acked : ∀ ch r, (ch, .ack r) ∈ s.shared.closings → callIdAt s.tasks ch = some r
  held_task : ∀ (i : ℕ) c, s.tasks[i]? = some c → c.Holds (held s i)
  held_none : ∀ i, s.tasks.length ≤ i → held s i = 0

theorem inv_init : Inv init where
  distinct i j r hi := by simp [init, callIdAt] at hi
  pending r ch h := by simp [init] at h
  closing i r ch h := by simp [init] at h
  acked ch r h := by simp [init] at h
  held_task i c h := by simp [init] at h
  held_none i _ := rfl

/-- A pending entry of a call's id is the call's own. -/
theorem Inv.pending_eq (hs : Inv s) (hid : callIdAt s.tasks i = some r)
    (h : s.shared.pendingAcks.get? r = some ch) : ch = i := by
  obtain ⟨phase, hcall, -⟩ := hs.pending r ch h
  exact hs.distinct ch i r (callIdAt_of_call hcall) hid

/-- A call that is yet to register has no entry. -/
theorem Inv.get?_registering (hs : Inv s) (hc : s.tasks[i]? = some (.call r .registering)) :
    s.shared.pendingAcks.get? r = none := by
  cases hget : s.shared.pendingAcks.get? r with
  | none => rfl
  | some ch =>
    obtain rfl := hs.pending_eq (callIdAt_of_call hc) hget
    obtain ⟨phase, hcall, hopen⟩ := hs.pending r ch hget
    rw [hc] at hcall
    cases hcall
    exact hopen.elim

/-- The steps of one task change the count of its own channel only. -/
theorem Inv.gain_of_ne (hs : Inv s) (hc : s.tasks[i]? = some c) (hne : i ≠ ch) :
    gain ch s.shared i c = 0 := by
  cases c with
  | call r phase =>
    have hown {x : ℕ} (hx : s.shared.pendingAcks.get? r = some x) : unit ch x = 0 := by
      obtain rfl := hs.pending_eq (callIdAt_of_call hc) hx
      exact unit_of_ne hne
    have hgone : ((s.shared.pendingAcks.get? r).map (unit ch)).getD 0 = 0 := by
      cases hget : s.shared.pendingAcks.get? r with
      | none => rfl
      | some x => exact hown hget
    cases phase <;> simp [gain, hgone, unit_of_ne hne]
  | _ => rfl

/-- A call's count follows its phase; the other tasks have no channel. -/
theorem Inv.holds_task (hs : Inv s) (hc : s.tasks[i]? = some c)
    (h : Moves s.shared i c e sh' c') : c'.Holds (held s i + gain i s.shared i c) := by
  have hheld := hs.held_task i c hc
  cases h with
  | register r =>
    have hnone := hs.get?_registering hc
    simp only [Task.Holds] at hheld
    simp [Task.Holds, gain, hnone, hheld]
  | withdraw r =>
    have hle : 0 ≤ ((s.shared.pendingAcks.get? r).map (unit i)).getD 0 := by
      cases s.shared.pendingAcks.get? r with
      | none => exact le_rfl
      | some x => exact unit_nonneg i x
    simp only [Task.Holds] at hheld
    simp only [Task.Holds, gain]
    omega
  | _ => simpa [Task.Holds, gain] using hheld

/-- An entry after a step was there before, or is the step's own. -/
theorem Moves.get?_cases (h : Moves sh i c e sh' c') {x : ℕ}
    (hget : sh'.pendingAcks.get? r = some x) :
    c = .call r .registering ∧ x = i ∨
      sh.pendingAcks.get? r = some x ∧ c ≠ .call r .failing := by
  cases h with
  | register r' =>
    rw [OrderedDict.get?_set] at hget
    split at hget
    · rename_i hr
      subst hr
      exact .inl ⟨rfl, (Option.some.inj hget).symm⟩
    · exact .inr ⟨hget, by simp⟩
  | withdraw r' =>
    simp only [Shared.delete, OrderedDict.get?_filterKeys_ne] at hget
    split at hget
    · cases hget
    · rename_i hr
      exact .inr ⟨hget, fun heq => hr (by cases heq; rfl)⟩
  | found r' ch hfound =>
    simp only [Shared.delete, OrderedDict.get?_filterKeys_ne] at hget
    split at hget
    · cases hget
    · exact .inr ⟨hget, by simp⟩
  | drain => simp [Shared.drain] at hget
  | _ => exact .inr ⟨hget, by simp⟩

/-- An open call stays open, but for a withdrawal. -/
theorem Moves.open {phase : CallPhase} (h : Moves sh i (.call r phase) e sh' c')
    (hopen : phase.Open) (hne : phase ≠ .failing) :
    ∃ phase' : CallPhase, c' = .call r phase' ∧ phase'.Open := by
  cases h with
  | register => exact ⟨_, rfl, trivial⟩
  | sent => exact ⟨_, rfl, trivial⟩
  | failed => exact ⟨_, rfl, trivial⟩
  | withdraw => exact absurd rfl hne

theorem Inv.pending_task (hs : Inv s) (hc : s.tasks[i]? = some c)
    (h : Moves s.shared i c e sh' c') (r : String) (ch : ℕ)
    (hget : sh'.pendingAcks.get? r = some ch) :
    ∃ phase : CallPhase, (s.tasks.set i c')[ch]? = some (.call r phase) ∧ phase.Open := by
  obtain ⟨rfl, rfl⟩ | ⟨hold, hne⟩ := h.get?_cases hget
  · rw [TaskSystem.getElem?_task_self hc]
    cases h with
    | register => exact ⟨_, rfl, trivial⟩
  · obtain ⟨phase, hcall, hopen⟩ := hs.pending r ch hold
    by_cases hch : ch = i
    · subst hch
      obtain rfl := Option.some.inj (hc.symm.trans hcall)
      obtain ⟨phase', rfl, hopen'⟩ := h.open hopen fun hfail => hne (hfail ▸ rfl)
      exact ⟨phase', TaskSystem.getElem?_task_self hc, hopen'⟩
    · exact ⟨phase, by rwa [TaskSystem.getElem?_task_of_ne c' hch], hopen⟩

/-- A task that is about to close has just found its channel, and a channel
that is closed was about to be, or was drained. -/
theorem Inv.closing_task (hs : Inv s) (hc : s.tasks[i]? = some c)
    (h : Moves s.shared i c e sh' (.closing r ch)) : callIdAt s.tasks ch = some r := by
  cases h with
  | found _ _ hfound =>
    obtain ⟨phase, hcall, -⟩ := hs.pending r ch hfound
    exact callIdAt_of_call hcall

theorem Inv.acked_task (hs : Inv s) (hc : s.tasks[i]? = some c)
    (h : Moves s.shared i c e sh' c') (hmem : (ch, .ack r) ∈ sh'.closings) :
    callIdAt s.tasks ch = some r := by
  cases h with
  | close r' x =>
    rw [List.mem_append, List.mem_singleton] at hmem
    obtain hmem | heq := hmem
    · exact hs.acked ch r hmem
    · cases heq
      exact hs.closing i r ch hc
  | drain =>
    simp only [Shared.drain, List.mem_append, List.mem_map] at hmem
    obtain hmem | ⟨x, -, heq⟩ := hmem
    · exact hs.acked ch r hmem
    · cases heq
  | _ => exact hs.acked ch r hmem

theorem inv_task (hs : Inv s) (hc : s.tasks[i]? = some c) (h : Moves s.shared i c e sh' c') :
    Inv { shared := sh', tasks := s.tasks.set i c' } := by
  have hid := callIdAt_set hc h.callId_eq
  constructor
  case distinct =>
    intro j k r hj hk
    rw [hid] at hj hk
    exact hs.distinct j k r hj hk
  case pending => exact hs.pending_task hc h
  case closing =>
    intro j r ch hj
    rw [hid]
    obtain ⟨rfl, rfl⟩ | ⟨-, hj⟩ := TaskSystem.getElem?_task hj
    · exact hs.closing_task hc h
    · exact hs.closing j r ch hj
  case acked =>
    intro ch r hmem
    rw [hid]
    exact hs.acked_task hc h hmem
  case held_task =>
    intro j b hj
    rw [held_task hc h]
    obtain ⟨rfl, rfl⟩ | ⟨hne, hj⟩ := TaskSystem.getElem?_task hj
    · exact hs.holds_task hc h
    · rw [hs.gain_of_ne hc (Ne.symm hne), add_zero]
      exact hs.held_task j b hj
  case held_none =>
    intro j hj
    rw [List.length_set] at hj
    have hlt := (List.getElem?_eq_some_iff.mp hc).1
    rw [held_task hc h, hs.gain_of_ne hc (by omega), add_zero]
    exact hs.held_none j hj

/-! ## Every run -/

/-- The generated request ids are distinct. -/
def NewId (s : State) : Step → Prop
  | .spawn (.call r) => ∀ c ∈ s.tasks, c.callId ≠ some r
  | _ => True

instance (s : State) : (e : Step) → Decidable (NewId s e)
  | .spawn (.call r) => inferInstanceAs (Decidable (∀ c ∈ s.tasks, c.callId ≠ some r))
  | .spawn (.replayOk _) | .spawn .close | .spawn .delete | .task _ _ => .isTrue trivial

theorem callIdAt_spawn {tasks : List Task} {i : ℕ} {c : Task}
    (h : callIdAt (tasks ++ [c]) i = some r) :
    callIdAt tasks i = some r ∨ i = tasks.length ∧ c.callId = some r := by
  simp only [callIdAt, Option.bind_eq_some_iff] at h ⊢
  obtain ⟨b, hb, hid⟩ := h
  obtain hb | ⟨rfl, rfl⟩ := TaskSystem.getElem?_spawn hb
  · exact .inl ⟨b, hb, hid⟩
  · exact .inr ⟨rfl, hid⟩

theorem callIdAt_spawn_of_some {tasks : List Task} (h : callIdAt tasks i = some r) (c : Task) :
    callIdAt (tasks ++ [c]) i = some r := by
  simp only [callIdAt, Option.bind_eq_some_iff] at h ⊢
  obtain ⟨b, hb, hid⟩ := h
  exact ⟨b, TaskSystem.getElem?_spawn_of_some hb c, hid⟩

/-- A new task has no channel yet. -/
theorem start_holds (a : Start) : (start a).Holds 0 := by
  cases a with
  | replayOk data =>
    simp only [start]
    split <;> rfl
  | call | close | delete => rfl

theorem start_ne_closing (a : Start) : start a ≠ .closing r ch := by
  cases a with
  | replayOk data =>
    simp only [start]
    split <;> simp
  | _ => simp [start]

theorem callId_start {a : Start} (h : (start a).callId = some r) : a = .call r := by
  cases a with
  | call r' =>
    cases h
    rfl
  | replayOk data =>
    simp only [start] at h
    split at h <;> cases h
  | close | delete => cases h

theorem held_spawn (s : State) (a : Start) (ch : ℕ) :
    held { s with tasks := s.tasks ++ [start a] } ch = held s ch := by
  have hzero : (start a).holds ch = 0 := by
    cases hstart : start a with
    | closing r x => exact absurd hstart (start_ne_closing a)
    | _ => rfl
  simp only [held, TaskSystem.total_spawn, hzero, add_zero]

theorem inv_spawn (hs : Inv s) (a : Start) (hnew : NewId s (.spawn a)) :
    Inv { s with tasks := s.tasks ++ [start a] } := by
  have hfresh {i : ℕ} {r : String} (hid : callIdAt s.tasks i = some r) :
      (start a).callId ≠ some r := by
    intro ha
    obtain rfl := callId_start ha
    obtain ⟨c, hc, hcid⟩ := Option.bind_eq_some_iff.mp hid
    exact hnew c (List.mem_of_getElem? hc) hcid
  constructor
  case distinct =>
    intro i j r hi hj
    obtain hi | ⟨rfl, ha⟩ := callIdAt_spawn hi
    · obtain hj | ⟨rfl, ha⟩ := callIdAt_spawn hj
      · exact hs.distinct i j r hi hj
      · exact absurd ha (hfresh hi)
    · obtain hj | ⟨rfl, -⟩ := callIdAt_spawn hj
      · exact absurd ha (hfresh hj)
      · rfl
  case pending =>
    intro r ch hget
    obtain ⟨phase, hcall, hopen⟩ := hs.pending r ch hget
    exact ⟨phase, TaskSystem.getElem?_spawn_of_some hcall _, hopen⟩
  case closing =>
    intro i r ch hi
    obtain hi | ⟨-, hstart⟩ := TaskSystem.getElem?_spawn hi
    · exact callIdAt_spawn_of_some (hs.closing i r ch hi) _
    · exact absurd hstart.symm (start_ne_closing a)
  case acked => exact fun ch r hmem => callIdAt_spawn_of_some (hs.acked ch r hmem) _
  case held_task =>
    intro i c hi
    rw [held_spawn]
    obtain hi | ⟨rfl, rfl⟩ := TaskSystem.getElem?_spawn hi
    · exact hs.held_task i c hi
    · rw [hs.held_none _ le_rfl]
      exact start_holds a
  case held_none =>
    intro i hi
    rw [List.length_append] at hi
    rw [held_spawn]
    exact hs.held_none i (by omega)

/-- What a step of the system does. -/
theorem step_cases {e : Step} (h : system.step s e = some t) :
    (∃ a, e = .spawn a ∧ t = { s with tasks := s.tasks ++ [start a] }) ∨
    ∃ i d c sh c', e = .task i d ∧ s.tasks[i]? = some c ∧ Moves s.shared i c d sh c' ∧
      t = { shared := sh, tasks := s.tasks.set i c' } := by
  obtain ⟨a, rfl, rfl⟩ | ⟨i, d, c, sh, c', rfl, hc, hd, rfl⟩ | ⟨d, -⟩ :=
    TaskSystem.step_cases h
  · exact .inl ⟨a, rfl, rfl⟩
  · exact .inr ⟨i, d, c, sh, c', rfl, hc, moves_of_task hd, rfl⟩
  · exact d.elim

theorem inv_step {e : Step} (hs : Inv s) (hnew : NewId s e) (h : system.step s e = some t) :
    Inv t := by
  obtain ⟨a, rfl, rfl⟩ | ⟨i, d, c, sh, c', rfl, hc, hmoves, rfl⟩ := step_cases h
  · exact inv_spawn hs a hnew
  · exact inv_task hs hc hmoves

/-! ## What the callers may rely on -/

structure Acknowledged (s : State) : Prop where
  /-- No channel is closed twice. -/
  closes_once : (s.shared.closings.map Prod.fst).Nodup
  /-- A `replay_ok` closes the channel of the call with its id, and -/
  acked : ∀ ch r, (ch, .ack r) ∈ s.shared.closings → callIdAt s.tasks ch = some r
  /-- finds it if it is pending. -/
  looks : ∀ (i : ℕ) r t, s.tasks[i]? = some (.looking r) →
    system.step s (.task i .proceed) = some t →
    ∃ c', t.tasks = s.tasks.set i c' ∧ t.shared.closings = s.shared.closings ∧
      (∀ r', t.shared.pendingAcks.get? r' =
        if r' = r then none else s.shared.pendingAcks.get? r') ∧
      c' = match s.shared.pendingAcks.get? r with
        | some ch => .closing r ch
        | none => .finished
  /-- The entry of an id is the channel of the call with that id. -/
  pending : ∀ r ch, s.shared.pendingAcks.get? r = some ch → callIdAt s.tasks ch = some r
  /-- A channel that is handed out is pending, about to be closed, or closed. -/
  kept : ∀ (i : ℕ) r, s.tasks[i]? = some (.call r (.returned true)) →
    s.shared.pendingAcks.get? r = some i ∨ (∃ j : ℕ, s.tasks[j]? = some (.closing r i)) ∨
      i ∈ s.shared.closings.map Prod.fst
  /-- A call whose send failed leaves nothing. -/
  withdrawn : ∀ (i : ℕ) r, s.tasks[i]? = some (.call r (.returned false)) →
    s.shared.pendingAcks.get? r = none ∧ i ∉ s.shared.pendingAcks.values

/-- After a `Close` or `Delete`, each channel that was handed out is closed
or about to be. -/
def NoneStuck (s : State) : Prop :=
  s.shared.closed = true → ∀ (i : ℕ) r, s.tasks[i]? = some (.call r (.returned true)) →
    (∃ j : ℕ, s.tasks[j]? = some (.closing r i)) ∨ i ∈ s.shared.closings.map Prod.fst

/-- No channel is in two places. -/
theorem Inv.held_le (hs : Inv s) (ch : ℕ) : held s ch ≤ 1 := by
  by_cases hlt : ch < s.tasks.length
  · have hheld := hs.held_task ch s.tasks[ch] (List.getElem?_eq_getElem hlt)
    cases htask : s.tasks[ch] with
    | call r phase =>
      rw [htask] at hheld
      cases phase with
      | returned ok =>
        cases ok <;> simp only [Task.Holds] at hheld <;> omega
      | _ =>
        simp only [Task.Holds] at hheld
        omega
    | _ =>
      simp only [htask, Task.Holds] at hheld
      omega
  · rw [hs.held_none ch (not_lt.mp hlt)]
    decide

theorem total_unit_nonneg (ch : ℕ) (d : OrderedDict String ℕ) : 0 ≤ d.total (unit ch) := by
  refine List.sum_nonneg fun x hx => ?_
  obtain ⟨y, -, rfl⟩ := List.mem_map.mp hx
  exact unit_nonneg ch y

theorem total_holds_nonneg (ch : ℕ) (tasks : List Task) :
    0 ≤ TaskSystem.total (Task.holds ch) tasks := by
  refine List.sum_nonneg fun x hx => ?_
  obtain ⟨c, -, rfl⟩ := List.mem_map.mp hx
  exact holds_nonneg ch c

theorem total_eq_zero {d : OrderedDict String ℕ} (h : ch ∉ d.values) : d.total (unit ch) = 0 := by
  refine List.sum_eq_zero fun x hx => ?_
  obtain ⟨y, hy, rfl⟩ := List.mem_map.mp hx
  exact unit_of_ne fun heq => h (heq ▸ hy)

theorem one_le_total {d : OrderedDict String ℕ} (h : d.get? r = some ch) :
    1 ≤ d.total (unit ch) := by
  have hrest := total_unit_nonneg ch (d.filterKeys fun k => k ≠ r)
  rw [d.total_eq_add_filterKeys_ne (unit ch) r, h, Option.map_some, Option.getD_some, unit_self]
  omega

theorem exists_closing {tasks : List Task} (h : 0 < TaskSystem.total (Task.holds ch) tasks) :
    ∃ (j : ℕ) (r : String), tasks[j]? = some (.closing r ch) := by
  by_contra hnone
  push Not at hnone
  refine h.ne' ?_
  have hzero : ∀ c ∈ tasks, c.holds ch = 0 := by
    intro c hc
    obtain ⟨j, hj⟩ := List.mem_iff_getElem?.mp hc
    cases c with
    | closing r x => exact unit_of_ne fun hx => hnone j r (hx ▸ hj)
    | _ => rfl
  rw [TaskSystem.total_congr hzero]
  simp [TaskSystem.total]

/-- A channel that is pending is nowhere else. -/
theorem Inv.pending_only (hs : Inv s) (h : s.shared.pendingAcks.get? r = some ch) :
    (∀ (j : ℕ) r', s.tasks[j]? ≠ some (.closing r' ch)) ∧
      ch ∉ s.shared.closings.map Prod.fst := by
  have hheld := hs.held_le ch
  have hpending := one_le_total h
  have htasks := total_holds_nonneg ch s.tasks
  have hcloses := closes_eq_count ch s.shared.closings
  rw [held] at hheld
  constructor
  · intro j r' hj
    have hle := TaskSystem.le_total (w := Task.holds ch) (holds_nonneg ch) hj
    rw [Task.holds, unit_self] at hle
    omega
  · intro hmem
    have hcount := List.count_pos_iff.mpr hmem
    omega

theorem Inv.kept (hs : Inv s) {phase : CallPhase} (hcall : s.tasks[i]? = some (.call r phase))
    (hopen : phase.Open) : s.shared.pendingAcks.get? r = some i ∨
      (∃ j : ℕ, s.tasks[j]? = some (.closing r i)) ∨ i ∈ s.shared.closings.map Prod.fst := by
  have hheld : held s i = 1 := by
    have hholds := hs.held_task i _ hcall
    cases phase with
    | registering => exact hopen.elim
    | returned ok =>
      cases ok with
      | false => exact hopen.elim
      | true => exact hholds
    | sending | failing => exact hholds
  by_cases hpending : i ∈ s.shared.pendingAcks.values
  · obtain ⟨r', hget⟩ := (OrderedDict.mem_values_iff _).mp hpending
    obtain ⟨phase', hcall', -⟩ := hs.pending r' i hget
    cases hcall.symm.trans hcall'
    exact .inl hget
  · have hnone : s.shared.pendingAcks.total (unit i) = 0 := total_eq_zero hpending
    by_cases hclosing : 0 < TaskSystem.total (Task.holds i) s.tasks
    · obtain ⟨j, r', hj⟩ := exists_closing hclosing
      have hid := (callIdAt_of_call hcall).symm.trans (hs.closing j r' i hj)
      exact .inr (.inl ⟨j, Option.some.inj hid ▸ hj⟩)
    · have hcloses := closes_eq_count i s.shared.closings
      rw [held] at hheld
      exact .inr (.inr (List.count_pos_iff.mp (by omega)))

/-! ## Who may wait for ever -/

/-- A call registers its channel only while no `Close` or `Delete` has
returned. -/
def Early : State → Step → Prop :=
  TaskSystem.OnTask fun s _ c _ => c.registers → s.shared.closed = false

instance (s : State) (e : Step) : Decidable (Early s e) :=
  inferInstanceAs (Decidable (TaskSystem.OnTask _ s e))

/-- After a `Close` or `Delete` nothing is pending. -/
def Drained (s : State) : Prop :=
  s.shared.closed = true → ∀ r, s.shared.pendingAcks.get? r = none

theorem acknowledged_of_inv (hs : Inv s) : Acknowledged s where
  closes_once := by
    refine List.nodup_iff_count_le_one.mpr fun ch => ?_
    have hheld := hs.held_le ch
    have hpending := total_unit_nonneg ch s.shared.pendingAcks
    have htasks := total_holds_nonneg ch s.tasks
    have hcloses := closes_eq_count ch s.shared.closings
    rw [held] at hheld
    omega
  acked := hs.acked
  looks i r t hi h := by
    obtain ⟨a, ha, -⟩ | ⟨j, d, c, sh, c', heq, hc, hmoves, rfl⟩ := step_cases h
    · cases ha
    · cases heq
      cases hi.symm.trans hc
      cases hmoves with
      | found _ ch hfound =>
        refine ⟨_, rfl, rfl, fun r' => ?_, by rw [hfound]⟩
        exact OrderedDict.get?_filterKeys_ne _ r r'
      | unknown _ hnone =>
        refine ⟨_, rfl, rfl, fun r' => ?_, by rw [hnone]⟩
        split
        · rename_i hr
          rw [hr, hnone]
        · rfl
  pending r ch hget := by
    obtain ⟨phase, hcall, -⟩ := hs.pending r ch hget
    exact callIdAt_of_call hcall
  kept i r hi := hs.kept hi trivial
  withdrawn i r hi := by
    have hnone : ∀ r', s.shared.pendingAcks.get? r' ≠ some i := by
      intro r' hget
      obtain ⟨phase, hcall, hopen⟩ := hs.pending r' i hget
      cases hi.symm.trans hcall
      exact hopen
    constructor
    · cases hget : s.shared.pendingAcks.get? r with
      | none => rfl
      | some ch =>
        obtain rfl := hs.pending_eq (callIdAt_of_call hi) hget
        exact absurd hget (hnone r)
    · intro hmem
      obtain ⟨r', hget⟩ := (OrderedDict.mem_values_iff _).mp hmem
      exact hnone r' hget

/-- Only a drain sets `closed`, and it leaves nothing pending. -/
theorem Moves.closed_cases (h : Moves sh i c e sh' c') :
    sh'.closed = sh.closed ∨ ∀ r, sh'.pendingAcks.get? r = none := by
  cases h with
  | drain => exact .inr fun r => rfl
  | _ => exact .inl rfl

theorem drained_step {e : Step} (hs : Drained s) (hearly : Early s e)
    (h : system.step s e = some t) : Drained t := by
  intro hclosed r
  obtain ⟨a, rfl, rfl⟩ | ⟨i, d, c, sh, c', rfl, hc, hmoves, rfl⟩ := step_cases h
  · exact hs hclosed r
  · obtain hsame | hnone := hmoves.closed_cases
    · have hclosed' := hsame.symm.trans hclosed
      cases hget : sh.pendingAcks.get? r with
      | none => rfl
      | some ch =>
        obtain ⟨rfl, -⟩ | ⟨hold, -⟩ := hmoves.get?_cases hget
        · exact absurd (hearly _ hc rfl) (by simp [hclosed'])
        · exact absurd hold (by simp [hs hclosed' r])
    · exact hnone r

/-- From a drained state, the channels that a step finds handed out are not
pending after it. -/
theorem not_pending_of_drained {e : Step} (hs : Drained s) (h : system.step s e = some t)
    (hclosed : t.shared.closed = true) (hi : t.tasks[i]? = some (.call r (.returned true))) :
    t.shared.pendingAcks.get? r ≠ some i := by
  intro hget
  obtain ⟨a, rfl, rfl⟩ | ⟨j, d, c, sh, c', rfl, hc, hmoves, rfl⟩ := step_cases h
  · exact absurd hget (by simp [hs hclosed r])
  · obtain hsame | hnone := hmoves.closed_cases
    · obtain ⟨rfl, rfl⟩ | ⟨hold, -⟩ := hmoves.get?_cases hget
      · cases hmoves with
        | register => simp [TaskSystem.getElem?_task_self hc] at hi
      · exact absurd hold (by simp [hs (hsame.symm.trans hclosed) r])
    · exact absurd hget (by simp [hnone r])

theorem noneStuck_of_not_pending (hs : Inv s)
    (hnone : s.shared.closed = true → ∀ (i : ℕ) r,
      s.tasks[i]? = some (.call r (.returned true)) → s.shared.pendingAcks.get? r ≠ some i) :
    NoneStuck s :=
  fun hclosed i r hi => (hs.kept hi trivial).resolve_left (hnone hclosed i r hi)

/-- A call that registers late and whose send succeeds hands out a channel
that only a further `replay_ok` closes. -/
theorem stuck_of_late (hc : s.tasks[i]? = some (.call r .registering))
    (hclosed : s.shared.closed = true) (h : system.step s (.task i e) = some t) :
    ∃ u, system.step t (.task i (.sent true)) = some u ∧ (Inv u → ¬NoneStuck u) := by
  obtain ⟨a, ha, -⟩ | ⟨j, d, c, sh, c', heq, hj, hmoves, rfl⟩ := step_cases h
  · cases ha
  · cases heq
    cases hc.symm.trans hj
    cases hmoves with
    | register =>
      have hcall : (s.tasks.set i (.call r .sending))[i]? = some (.call r .sending) :=
        TaskSystem.getElem?_task_self hc
      refine ⟨_, by simp only [TaskSystem.step, hcall]; rfl, fun hu hstuck => ?_⟩
      have hget : (s.shared.pendingAcks.set r i).get? r = some i := by
        rw [OrderedDict.get?_set, if_pos rfl]
      obtain ⟨hclosing, hnot⟩ := hu.pending_only hget
      obtain ⟨k, hk⟩ | hmem := hstuck hclosed i r (TaskSystem.getElem?_task_self hcall)
      · exact hclosing k r hk
      · exact hnot hmem

/-- **The acknowledgements of a replay session.** -/
theorem acknowledged_of_run {es : List Step} (h : RunWhere system.step NewId init es s) :
    Acknowledged s :=
  acknowledged_of_inv (h.invariant_state Inv inv_init fun _ _ _ ht hnew hs => inv_step ht hnew hs)

/-- **No caller waits for ever** after a `Close` or `Delete`, where the calls
register before it; and a call that does not can. -/
theorem noneStuck_where_early {es : List Step}
    (h : RunWhere system.step (fun s e => NewId s e ∧ Early s e) init es s) :
    Acknowledged s ∧ NoneStuck s ∧ ∀ e t, NewId s e → system.step s e = some t →
      (Early s e ↔ ∀ d u, NewId t d → system.step t d = some u → NoneStuck u) := by
  obtain ⟨hs, hdrained⟩ := h.invariant_state (fun s => Inv s ∧ Drained s)
    ⟨inv_init, fun _ _ => rfl⟩ fun t e u ht he hu =>
      ⟨inv_step ht.1 he.1 hu, drained_step ht.2 he.2 hu⟩
  refine ⟨acknowledged_of_inv hs, noneStuck_of_not_pending hs fun hclosed i r _ => ?_, ?_⟩
  · simp [hdrained hclosed r]
  · intro e t hnew ht
    have hinv := inv_step hs hnew ht
    constructor
    · intro hearly d u hd hu
      have hafter := drained_step hdrained hearly ht
      exact noneStuck_of_not_pending (inv_step hinv hd hu)
        fun hclosed i r hi => not_pending_of_drained hafter hu hclosed hi
    · intro hnone
      cases e with
      | spawn a => trivial
      | env d => exact d.elim
      | task i d =>
        intro c hc hregisters
        by_contra hclosed
        obtain ⟨r, rfl⟩ := eq_of_registers hregisters
        obtain ⟨u, hu, hstuck⟩ := stuck_of_late hc (Bool.eq_true_of_not_eq_false hclosed) ht
        have hnew' : NewId t (.task i (.sent true)) := trivial
        exact hstuck (inv_step hinv hnew' hu) (hnone _ u hnew' hu)

/-- A step that is acknowledged, and one that is drained. -/
theorem noneStuck_where_early_drained : ∃ s,
    RunWhere system.step (fun s e => NewId s e ∧ Early s e) init
      [.spawn (.call "rsq_step_1"), .task 0 .proceed, .task 0 (.sent true),
        .spawn (.call "rsq_stop_2"), .task 1 .proceed,
        .spawn (.replayOk [.null, .string "rsq_step_1".toList]), .task 2 .proceed,
        .spawn .delete, .task 3 (.sent true), .task 3 .proceed, .task 2 .proceed,
        .task 1 (.sent true)] s ∧
      s.shared.closings = [(1, .drain), (0, .ack "rsq_step_1")] ∧ NoneStuck s := by
  obtain ⟨s, hrun, hclosings⟩ := RunWhere.exists_of_checked system.step
    (fun s e => NewId s e ∧ Early s e) init
    [.spawn (.call "rsq_step_1"), .task 0 .proceed, .task 0 (.sent true),
      .spawn (.call "rsq_stop_2"), .task 1 .proceed,
      .spawn (.replayOk [.null, .string "rsq_step_1".toList]), .task 2 .proceed,
      .spawn .delete, .task 3 (.sent true), .task 3 .proceed, .task 2 .proceed,
      .task 1 (.sent true)]
    (fun s => decide (s.shared.closings = [(1, .drain), (0, .ack "rsq_step_1")]))
    (by decide +kernel) (by decide +kernel)
  exact ⟨s, hrun, of_decide_eq_true hclosings, (noneStuck_where_early hrun).2.1⟩

/-- A step begun before `Delete` that registers its channel after it: the
channel is handed out and pending, and nobody is left to close it. -/
theorem step_outlives_delete : ∃ s,
    RunWhere system.step NewId init
      [.spawn (.call "rsq_step_1"), .spawn .delete, .task 1 (.sent true), .task 1 .proceed,
        .task 0 .proceed, .task 0 (.sent true)] s ∧
      s.shared.closed = true ∧ s.tasks = [.call "rsq_step_1" (.returned true), .finished] ∧
      s.shared.pendingAcks.get? "rsq_step_1" = some 0 ∧ s.shared.closings = [] ∧ ¬NoneStuck s := by
  obtain ⟨s, hrun, hend⟩ := RunWhere.exists_of_checked system.step NewId init
    [.spawn (.call "rsq_step_1"), .spawn .delete, .task 1 (.sent true), .task 1 .proceed,
      .task 0 .proceed, .task 0 (.sent true)]
    (fun s => decide (s.shared.closed = true ∧
      s.tasks = [.call "rsq_step_1" (.returned true), .finished] ∧
      s.shared.pendingAcks.get? "rsq_step_1" = some 0 ∧ s.shared.closings = []))
    (by decide +kernel) (by decide +kernel)
  obtain ⟨hclosed, htasks, hget, hclosings⟩ := of_decide_eq_true hend
  refine ⟨s, hrun, hclosed, htasks, hget, hclosings, fun hstuck => ?_⟩
  obtain ⟨j, hj⟩ | hmem := hstuck hclosed 0 "rsq_step_1" (by simp [htasks])
  · rw [htasks] at hj
    obtain _ | _ | j := j <;> simp at hj
  · simp [hclosings] at hmem

end TdSandboxed.ReplaySession
