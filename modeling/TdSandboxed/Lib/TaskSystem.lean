/-
TdSandboxed.Lib.TaskSystem — any number of tasks over one shared state.

A `TaskSystem` is what a cooperative scheduler runs. `init` gives a task
its starting local state from the arguments it is spawned with; `task`
is one atomic step of one task, which may change the shared state and
that task's own local state and nothing else; `env` is a step of the
surroundings, which changes the shared state only. A run of
`TaskSystem.step` is an arbitrary interleaving of these.

Because a step touches one task, a statement about all of them needs
only a local fact:

* `total w` adds a weight over the task list. A task step changes it by
  that task's change of weight (`total_task`), a spawn adds the weight of
  the new task, a step of the surroundings leaves it alone.
* `AllTasks P` says `P` of every task. It is kept when the stepping task
  keeps its own `P` and no step breaks the `P` of another
  (`AllTasks.step`).
-/
import Mathlib.Algebra.Order.BigOperators.Group.List
import Mathlib.Tactic.Abel
import TdSandboxed.Lib.Run

namespace TdSandboxed.Lib

/-- Tasks with local state `τ`, arguments `α` and local events `ε`, over a
shared state `σ` whose surroundings move by `η`. -/
structure TaskSystem (σ α τ ε η : Type*) where
  init : σ → α → τ
  task : σ → ℕ → τ → ε → Option (σ × τ)
  env : σ → η → Option σ

namespace TaskSystem

/-- The shared state and the tasks spawned so far, in spawn order. -/
structure State (σ τ : Type*) where
  shared : σ
  tasks : List τ

/-- One step of the whole system. -/
inductive Event (α ε η : Type*)
  | spawn (a : α)
  | task (i : ℕ) (e : ε)
  | env (h : η)

variable {σ α τ ε η : Type*}

def step (S : TaskSystem σ α τ ε η) (s : State σ τ) : Event α ε η → Option (State σ τ)
  | .spawn a => some { s with tasks := s.tasks ++ [S.init s.shared a] }
  | .task i e =>
    s.tasks[i]?.bind fun c =>
      (S.task s.shared i c e).map fun p => { shared := p.1, tasks := s.tasks.set i p.2 }
  | .env h => (S.env s.shared h).map fun sh => { s with shared := sh }

/-- What a step of the system can do. -/
theorem step_cases {S : TaskSystem σ α τ ε η} {s t : State σ τ} {e : Event α ε η}
    (h : S.step s e = some t) :
    (∃ a, e = .spawn a ∧ t = { s with tasks := s.tasks ++ [S.init s.shared a] }) ∨
    (∃ i d c sh c', e = .task i d ∧ s.tasks[i]? = some c ∧ S.task s.shared i c d = some (sh, c') ∧
      t = { shared := sh, tasks := s.tasks.set i c' }) ∨
    (∃ d sh, e = .env d ∧ S.env s.shared d = some sh ∧ t = { s with shared := sh }) := by
  cases e with
  | spawn a => exact .inl ⟨a, rfl, (Option.some.inj h).symm⟩
  | task i d =>
    simp only [step, Option.bind_eq_some_iff, Option.map_eq_some_iff] at h
    obtain ⟨c, hc, ⟨sh, c'⟩, hp, rfl⟩ := h
    exact .inr (.inl ⟨i, d, c, sh, c', rfl, hc, hp, rfl⟩)
  | env d =>
    simp only [step, Option.map_eq_some_iff] at h
    obtain ⟨sh, hsh, rfl⟩ := h
    exact .inr (.inr ⟨d, sh, rfl, hsh, rfl⟩)

/-- A condition on the steps of tasks: `P` of the state, the stepping task
and its event. Spawns and steps of the surroundings meet it. -/
def OnTask (P : State σ τ → ℕ → τ → ε → Prop) (s : State σ τ) : Event α ε η → Prop
  | .task i e => ∀ c ∈ s.tasks[i]?, P s i c e
  | _ => True

instance {P : State σ τ → ℕ → τ → ε → Prop} [∀ s i c e, Decidable (P s i c e)] (s : State σ τ) :
    (e : Event α ε η) → Decidable (OnTask P s e)
  | .task i e => inferInstanceAs (Decidable (∀ c ∈ s.tasks[i]?, P s i c e))
  | .spawn _ => .isTrue trivial
  | .env _ => .isTrue trivial

/-! ## One task alone -/

/-- A task and its surroundings with no other task: a step is the task's
own or one of the surroundings. -/
def solo (S : TaskSystem σ α τ ε η) (i : ℕ) (p : σ × τ) : ε ⊕ η → Option (σ × τ)
  | .inl e => S.task p.1 i p.2 e
  | .inr h => (S.env p.1 h).map fun sh => (sh, p.2)

/-- What a step of a task alone can do. -/
theorem solo_cases {S : TaskSystem σ α τ ε η} {i : ℕ} {p q : σ × τ} {e : ε ⊕ η}
    (h : S.solo i p e = some q) :
    (∃ d, e = .inl d ∧ S.task p.1 i p.2 d = some q) ∨
    ∃ d, e = .inr d ∧ S.env p.1 d = some q.1 ∧ q.2 = p.2 := by
  cases e with
  | inl d => exact .inl ⟨d, rfl, h⟩
  | inr d =>
    simp only [solo, Option.map_eq_some_iff] at h
    obtain ⟨sh, hsh, rfl⟩ := h
    exact .inr ⟨d, rfl, hsh, rfl⟩

/-! ## Looking tasks up -/

theorem getElem?_spawn {cs : List τ} {c b : τ} {j : ℕ} (h : (cs ++ [c])[j]? = some b) :
    cs[j]? = some b ∨ j = cs.length ∧ b = c := by
  rcases Nat.lt_trichotomy j cs.length with hj | hj | hj
  · exact .inl (by simpa [List.getElem?_append_left hj] using h)
  · subst hj
    exact .inr ⟨rfl, by simpa using h.symm⟩
  · have hlen : (cs ++ [c]).length ≤ j := by
      simp only [List.length_append, List.length_singleton]
      omega
    simp [List.getElem?_eq_none hlen] at h

/-- The tasks that run keep their places. -/
theorem getElem?_spawn_of_some {cs : List τ} {b : τ} {j : ℕ} (h : cs[j]? = some b) (c : τ) :
    (cs ++ [c])[j]? = some b := by
  rw [List.getElem?_append_left (List.getElem?_eq_some_iff.mp h).1]
  exact h

theorem getElem?_task {cs : List τ} {c' b : τ} {i j : ℕ} (h : (cs.set i c')[j]? = some b) :
    j = i ∧ b = c' ∨ j ≠ i ∧ cs[j]? = some b := by
  by_cases hj : j = i
  · subst hj
    have hlt : j < cs.length := by simpa using (List.getElem?_eq_some_iff.mp h).1
    exact .inl ⟨rfl, by simpa [List.getElem?_set, hlt] using h.symm⟩
  · exact .inr ⟨hj, by simpa [List.getElem?_set, Ne.symm hj] using h⟩

theorem getElem?_task_self {cs : List τ} {c c' : τ} {i : ℕ} (hc : cs[i]? = some c) :
    (cs.set i c')[i]? = some c' := by
  have hlt : i < cs.length := (List.getElem?_eq_some_iff.mp hc).1
  simp [hlt]

theorem getElem?_task_of_ne {cs : List τ} (c' : τ) {i j : ℕ} (hj : j ≠ i) :
    (cs.set i c')[j]? = cs[j]? := by
  simp [Ne.symm hj]

/-! ## Weights -/

section Weight
variable {M : Type*}

/-- A weight added over all tasks. -/
def total [AddMonoid M] (w : τ → M) (cs : List τ) : M := (cs.map w).sum

@[simp] theorem total_nil [AddMonoid M] (w : τ → M) : total w [] = 0 := rfl

@[simp] theorem total_spawn [AddMonoid M] (w : τ → M) (cs : List τ) (c : τ) :
    total w (cs ++ [c]) = total w cs + w c := by
  simp [total]

/-- A task step changes the total by the change of that task's weight. -/
theorem total_task [AddCommGroup M] (w : τ → M) {cs : List τ} {i : ℕ} {c : τ}
    (hc : cs[i]? = some c) (c' : τ) : total w (cs.set i c') = total w cs + (w c' - w c) := by
  induction cs generalizing i with
  | nil => simp at hc
  | cons d ds ih =>
    cases i with
    | zero =>
      obtain rfl : d = c := by simpa using hc
      simp only [total, List.set_cons_zero, List.map_cons, List.sum_cons]
      abel
    | succ i =>
      have h := ih (i := i) (by simpa using hc)
      simp only [total, List.set_cons_succ, List.map_cons, List.sum_cons] at h ⊢
      rw [h]
      abel

/-- One task's weight is part of the total. -/
theorem le_total [AddCommMonoid M] [PartialOrder M] [IsOrderedAddMonoid M] {w : τ → M}
    (hw : ∀ c, 0 ≤ w c) {cs : List τ} {i : ℕ} {c : τ} (hc : cs[i]? = some c) :
    w c ≤ total w cs := by
  refine List.single_le_sum (by simpa using fun c _ => hw c) _ ?_
  exact List.mem_map.mpr ⟨c, List.mem_of_getElem? hc, rfl⟩

theorem total_add [AddCommMonoid M] (v w : τ → M) (cs : List τ) :
    total (fun c => v c + w c) cs = total v cs + total w cs := by
  simp [total, List.sum_map_add]

/-- Weights that agree on every task of the list have the same total. -/
theorem total_congr [AddMonoid M] {v w : τ → M} {cs : List τ} (h : ∀ c ∈ cs, v c = w c) :
    total v cs = total w cs := by
  simp only [total, List.map_congr_left h]

end Weight

/-! ## Properties of every task -/

/-- `P` of every task, at the shared state and the task's own index. -/
def AllTasks (P : σ → ℕ → τ → Prop) (s : State σ τ) : Prop :=
  ∀ i c, s.tasks[i]? = some c → P s.shared i c

/-- **Task invariant rule.** A new task has `P`, a stepping task keeps its
own, no step breaks another's. -/
theorem AllTasks.step {S : TaskSystem σ α τ ε η} {P : σ → ℕ → τ → Prop} {s t : State σ τ}
    {e : Event α ε η} (h : AllTasks P s)
    (hspawn : ∀ a, e = .spawn a → P s.shared s.tasks.length (S.init s.shared a))
    (htask : ∀ i d c sh c', e = .task i d → s.tasks[i]? = some c →
      S.task s.shared i c d = some (sh, c') → P s.shared i c →
      P sh i c' ∧ ∀ j b, j ≠ i → s.tasks[j]? = some b → P s.shared j b → P sh j b)
    (henv : ∀ d sh, e = .env d → S.env s.shared d = some sh →
      ∀ j b, s.tasks[j]? = some b → P s.shared j b → P sh j b)
    (hs : S.step s e = some t) : AllTasks P t := by
  rcases step_cases hs with ⟨a, rfl, rfl⟩ | ⟨i, d, c, sh, c', rfl, hc, hd, rfl⟩ | ⟨d, sh, rfl, hd, rfl⟩
  · intro j b hb
    rcases getElem?_spawn hb with hb | ⟨rfl, rfl⟩
    · exact h j b hb
    · exact hspawn a rfl
  · obtain ⟨hown, hother⟩ := htask i d c sh c' rfl hc hd (h i c hc)
    intro j b hb
    rcases getElem?_task hb with ⟨rfl, rfl⟩ | ⟨hj, hb⟩
    · exact hown
    · exact hother j b hj hb (h j b hb)
  · exact fun j b hb => henv d sh rfl hd j b hb (h j b hb)

end TaskSystem

end TdSandboxed.Lib
