/-
TdSandboxed.Lib.Run — runs of a partial step function.

A system is a function `step : σ → ε → Option σ`: the state after an
event, or `none` when the event is not enabled. Three views of a run are
kept, because each carries a different kind of statement:

* `exec` computes the state after a list of events. It is what a
  concrete run is evaluated with.
* `RunWhere step ok` is the inductive relation whose every step meets a
  side condition `ok` on the state before the step and the event. The
  list grows at its END, so an invariant may speak of the events so far.
* `observe f` lists what `f` reads off each step of a run, in order.

`RunWhere.of_checked` turns an evaluation into a run, so a witness needs
only a decidable side condition. `always_iff_checked` says when a property
of every state reached is a side condition on every step.
-/
import Mathlib.Algebra.BigOperators.Group.List.Basic
import Mathlib.Data.List.Induction

namespace TdSandboxed.Lib

variable {σ ε β : Type*}

/-- The state after a list of events, when each is enabled in turn. -/
def exec (step : σ → ε → Option σ) : σ → List ε → Option σ
  | s, [] => some s
  | s, e :: es => (step s e).bind fun t => exec step t es

/-- What `f` reads off each step of the run of `es` from `s`. -/
def observe (step : σ → ε → Option σ) (f : σ → ε → β) : σ → List ε → List β
  | _, [] => []
  | s, e :: es =>
    match step s e with
    | some t => f s e :: observe step f t es
    | none => []

/-- Runs from `s` whose every step meets `ok`. -/
inductive RunWhere (step : σ → ε → Option σ) (ok : σ → ε → Prop) (s : σ) :
    List ε → σ → Prop
  | nil : RunWhere step ok s [] s
  | snoc {es : List ε} {t : σ} {e : ε} {u : σ} :
      RunWhere step ok s es t → ok t e → step t e = some u →
      RunWhere step ok s (es ++ [e]) u

/-- Runs without a side condition. -/
abbrev Run (step : σ → ε → Option σ) : σ → List ε → σ → Prop :=
  RunWhere step fun _ _ => True

/-- After every prefix of the run of `es` from `s`, what the run has done
so far and the state it is in meet `P`. -/
def Always (step : σ → ε → Option σ) (P : List ε → σ → Prop) (s : σ) (es : List ε) : Prop :=
  ∀ pre t, pre <+: es → exec step s pre = some t → P pre t

/-- Every step that `exec` takes from `s` along `es` meets `ok`. -/
def Checked (step : σ → ε → Option σ) (ok : σ → ε → Prop) : σ → List ε → Prop
  | _, [] => True
  | s, e :: es => ok s e ∧ ∀ t, step s e = some t → Checked step ok t es

section
variable {step : σ → ε → Option σ} {ok ok' : σ → ε → Prop} {s t u : σ} {es fs : List ε} {e : ε}

theorem exec_append (s : σ) (es fs : List ε) :
    exec step s (es ++ fs) = (exec step s es).bind fun t => exec step t fs := by
  induction es generalizing s with
  | nil => rfl
  | cons e es ih =>
    simp only [List.cons_append, exec, Option.bind_assoc]
    cases step s e with
    | none => rfl
    | some t => exact ih t

theorem exec_snoc (h : exec step s es = some t) : exec step s (es ++ [e]) = step t e := by
  simp [exec_append, h, exec]

theorem observe_snoc (f : σ → ε → β) (h : exec step s es = some t) (he : step t e = some u) :
    observe step f s (es ++ [e]) = observe step f s es ++ [f t e] := by
  induction es generalizing s with
  | nil =>
    obtain rfl : s = t := Option.some.inj h
    simp [observe, he]
  | cons d es ih =>
    simp only [exec, Option.bind_eq_some_iff] at h
    obtain ⟨r, hr, hrest⟩ := h
    simp [observe, hr, ih hrest]

/-- The check of a longer run adds the check of its last step. -/
theorem checked_snoc (h : exec step s es = some t) :
    Checked step ok s (es ++ [e]) ↔ Checked step ok s es ∧ ok t e := by
  induction es generalizing s with
  | nil =>
    obtain rfl : s = t := Option.some.inj h
    simp [Checked]
  | cons d es ih =>
    simp only [exec, Option.bind_eq_some_iff] at h
    obtain ⟨r, hr, hrest⟩ := h
    simp only [List.cons_append, Checked, hr, Option.some.injEq, forall_eq', ih hrest, and_assoc]

/-- Under an invariant, steps that meet `ok` meet `ok'`. -/
theorem Checked.mono_of_invariant (I : σ → Prop)
    (hstep : ∀ s e t, I s → ok s e → step s e = some t → I t ∧ ok' s e) (h0 : I s)
    (h : exec step s es = some t) (hc : Checked step ok s es) : Checked step ok' s es := by
  induction es generalizing s with
  | nil => trivial
  | cons e es ih =>
    simp only [exec, Option.bind_eq_some_iff] at h
    obtain ⟨r, hr, hrest⟩ := h
    obtain ⟨hI, hok⟩ := hstep s e r h0 hc.1 hr
    refine ⟨hok, fun u hu => ?_⟩
    obtain rfl := Option.some.inj (hr.symm.trans hu)
    exact ih hI hrest (hc.2 r hr)

theorem always_snoc {P : List ε → σ → Prop} (h : exec step s (es ++ [e]) = some u) :
    Always step P s (es ++ [e]) ↔ Always step P s es ∧ P (es ++ [e]) u := by
  simp only [Always, List.prefix_concat_iff]
  constructor
  · intro hall
    exact ⟨fun pre t hpre ht => hall pre t (.inr hpre) ht, hall _ u (.inl rfl) h⟩
  · intro hall pre t hpre ht
    cases hpre with
    | inl heq =>
      subst heq
      obtain rfl := Option.some.inj (h.symm.trans ht)
      exact hall.2
    | inr hpre => exact hall.1 pre t hpre ht

/-- **When a property of states is one of steps.** Where, under an
invariant of the runs whose steps meet `ok`, a step leads to a state with
`P` exactly when it meets `ok`, the runs always in `P` are the runs whose
steps all meet `ok`. -/
theorem always_iff_checked {P : List ε → σ → Prop} (I : List ε → σ → Prop) (h0 : I [] s)
    (hP : P [] s)
    (hinv : ∀ es t e u, I es t → ok t e → step t e = some u → I (es ++ [e]) u)
    (hiff : ∀ es t e u, I es t → step t e = some u → (P (es ++ [e]) u ↔ ok t e))
    (h : exec step s es = some t) : Always step P s es ↔ Checked step ok s es := by
  have key : ∀ es t, exec step s es = some t →
      (Always step P s es ↔ Checked step ok s es) ∧ (Checked step ok s es → I es t) := by
    intro es
    induction es using List.reverseRecOn with
    | nil =>
      intro t ht
      obtain rfl : s = t := Option.some.inj ht
      refine ⟨iff_of_true (fun pre t hpre ht => ?_) trivial, fun _ => h0⟩
      obtain rfl := List.prefix_nil.mp hpre
      obtain rfl : s = t := Option.some.inj ht
      exact hP
    | append_singleton es e ih =>
      intro u hu
      obtain ⟨t, ht, hs⟩ : ∃ t, exec step s es = some t ∧ step t e = some u := by
        rw [exec_append, Option.bind_eq_some_iff] at hu
        obtain ⟨t, ht, hs⟩ := hu
        exact ⟨t, ht, by simpa [exec] using hs⟩
      obtain ⟨heq, hI⟩ := ih t ht
      rw [always_snoc hu, checked_snoc ht, heq]
      refine ⟨and_congr_right fun hc => hiff es t e u (hI hc) hs, fun hc => ?_⟩
      exact hinv es t e u (hI hc.1) hc.2 hs
  exact (key es t h).1

/-- **When the end of a run tells its steps.** Where, under an invariant, a
step leads to a state with `G` exactly when it starts in one and meets
`ok`, a run ends with `G` exactly when its steps all meet `ok`. -/
theorem end_iff_checked (I G : σ → Prop) (h0 : I s) (hG : G s)
    (hinv : ∀ t e u, I t → step t e = some u → I u)
    (hiff : ∀ t e u, I t → step t e = some u → (G u ↔ G t ∧ ok t e))
    (h : exec step s es = some t) : G t ↔ Checked step ok s es := by
  have key : ∀ es t, exec step s es = some t → I t ∧ (G t ↔ Checked step ok s es) := by
    intro es
    induction es using List.reverseRecOn with
    | nil =>
      intro t ht
      obtain rfl : s = t := Option.some.inj ht
      exact ⟨h0, iff_of_true hG trivial⟩
    | append_singleton es e ih =>
      intro u hu
      rw [exec_append, Option.bind_eq_some_iff] at hu
      obtain ⟨t, ht, hs⟩ := hu
      have hs : step t e = some u := by simpa [exec] using hs
      obtain ⟨hI, heq⟩ := ih t ht
      exact ⟨hinv t e u hI hs, by rw [checked_snoc ht, ← heq, hiff t e u hI hs]⟩
  exact (key es t h).2

namespace RunWhere

/-- A run computes to its last state. -/
theorem exec_eq (h : RunWhere step ok s es t) : exec step s es = some t := by
  induction h with
  | nil => rfl
  | snoc _ _ hs ih => rw [exec_snoc ih]; exact hs

theorem mono (h : RunWhere step ok s es t) (hok : ∀ s e, ok s e → ok' s e) :
    RunWhere step ok' s es t := by
  induction h with
  | nil => exact .nil
  | snoc _ ho hs ih => exact .snoc ih (hok _ _ ho) hs

/-- The last step of a run meets the side condition. -/
theorem last_ok (h : RunWhere step ok s (es ++ [e]) u) (ht : exec step s es = some t) :
    ok t e := by
  generalize hfs : es ++ [e] = fs at h
  cases h with
  | nil => simp at hfs
  | snoc hr ho hs =>
    obtain ⟨rfl, hee⟩ := List.append_inj' hfs rfl
    obtain rfl := List.singleton_inj.mp hee
    obtain rfl := Option.some.inj (hr.exec_eq.symm.trans ht)
    exact ho

theorem toRun (h : RunWhere step ok s es t) : Run step s es t :=
  h.mono fun _ _ _ => trivial

/-- The events may also be read from the front. -/
theorem cons (ho : ok s e) (he : step s e = some t) (h : RunWhere step ok t es u) :
    RunWhere step ok s (e :: es) u := by
  induction h with
  | nil => exact .snoc .nil ho he
  | snoc _ ho' hs ih => exact .snoc ih ho' hs

/-- **Invariant rule.** What holds of the empty run and is kept by every
step that meets `ok` holds after every such run. The invariant may speak
of the events so far. -/
theorem invariant (I : List ε → σ → Prop) (h0 : I [] s)
    (hstep : ∀ es t e u, RunWhere step ok s es t → I es t → ok t e → step t e = some u →
      I (es ++ [e]) u)
    (h : RunWhere step ok s es t) : I es t := by
  induction h with
  | nil => exact h0
  | snoc hr ho hs ih => exact hstep _ _ _ _ hr ih ho hs

/-- The invariant rule for a property of the state alone. -/
theorem invariant_state (I : σ → Prop) (h0 : I s)
    (hstep : ∀ t e u, I t → ok t e → step t e = some u → I u)
    (h : RunWhere step ok s es t) : I t :=
  h.invariant (fun _ => I) h0 fun _ _ _ _ _ hi ho hs => hstep _ _ _ hi ho hs

/-- **Ranking rule.** Where, under an invariant, the events that `own`
counts lower a rank and the others do not raise it, a run has no more of
them than the rank it starts with. -/
theorem countP_add_rank_le (own : ε → Bool) (rank : σ → ℕ) (I : σ → Prop) (h0 : I s)
    (hstep : ∀ t e u, I t → ok t e → step t e = some u →
      I u ∧ rank u + (if own e then 1 else 0) ≤ rank t)
    (h : RunWhere step ok s es t) : I t ∧ es.countP own + rank t ≤ rank s := by
  induction h with
  | nil => exact ⟨h0, by simp⟩
  | snoc _ ho hs ih =>
    obtain ⟨hI, hcount⟩ := ih
    obtain ⟨hI', hrank⟩ := hstep _ _ _ hI ho hs
    refine ⟨hI', ?_⟩
    rw [List.countP_append, List.countP_singleton]
    omega

/-- An evaluation whose steps meet `ok` is a run. -/
theorem of_checked (hc : Checked step ok s es) (h : exec step s es = some t) :
    RunWhere step ok s es t := by
  induction es generalizing s with
  | nil =>
    obtain rfl : s = t := Option.some.inj h
    exact .nil
  | cons e es ih =>
    simp only [exec, Option.bind_eq_some_iff] at h
    obtain ⟨r, hr, hrest⟩ := h
    exact cons hc.1 hr (ih (hc.2 r hr) hrest)

end RunWhere

/-- Every evaluation is a run. -/
theorem Run.of_exec (h : exec step s es = some t) : Run step s es t := by
  refine RunWhere.of_checked ?_ h
  clear h
  induction es generalizing s with
  | nil => trivial
  | cons e es ih => exact ⟨trivial, fun _ _ => ih⟩

/-- An evaluation whose last state passes a test is a run to such a state. -/
theorem Run.exists_of_exec (step : σ → ε → Option σ) (s : σ) (es : List ε) (p : σ → Bool)
    (h : (exec step s es).any p = true) :
    ∃ t, Run step s es t ∧ p t = true := by
  cases ht : exec step s es with
  | none => simp [ht] at h
  | some t => exact ⟨t, .of_exec ht, by simpa [ht] using h⟩

/-- The same for an evaluation whose steps meet a side condition. -/
theorem RunWhere.exists_of_checked (step : σ → ε → Option σ) (ok : σ → ε → Prop) (s : σ)
    (es : List ε) (p : σ → Bool) (hc : Checked step ok s es)
    (h : (exec step s es).any p = true) : ∃ t, RunWhere step ok s es t ∧ p t = true := by
  cases ht : exec step s es with
  | none => simp [ht] at h
  | some t => exact ⟨t, .of_checked hc ht, by simpa [ht] using h⟩

/-- **Loop rule.** What every turn of a loop keeps, as a property of the
state and of the rest of the list, holds at its end of the empty rest. -/
theorem foldl_rule {f : σ → ε → σ} (I : σ → List ε → Prop)
    (hstep : ∀ s e es, I s (e :: es) → I (f s e) es) (h : I s es) : I (es.foldl f s) [] := by
  induction es generalizing s with
  | nil => exact h
  | cons e es ih => exact ih (hstep s e es h)

/-- Nothing was observed on a run none of whose steps costs anything. -/
theorem observe_sum_eq_zero {M : Type*} [AddCommMonoid M] (cost : σ → ε → M)
    (h : RunWhere step (fun s e => cost s e = 0) s es t) : (observe step cost s es).sum = 0 := by
  induction h with
  | nil => rfl
  | snoc hr ho hs ih => simp [observe_snoc cost hr.exec_eq hs, ih, ho]

/-- The checked steps of an evaluation, decided one by one. -/
instance decidableChecked [∀ s e, Decidable (ok s e)] :
    (s : σ) → (es : List ε) → Decidable (Checked step ok s es)
  | _, [] => .isTrue trivial
  | s, e :: es =>
    match hs : step s e with
    | none => decidable_of_iff (ok s e) (by simp [Checked, hs])
    | some t =>
      have := decidableChecked t es
      decidable_of_iff (ok s e ∧ Checked step ok t es) (by simp [Checked, hs])

end

end TdSandboxed.Lib
