/-
TdSandboxed.Lib.Matching — two lists that match one to one.

`Matches R xs ys`: the elements of `ys` can be reordered so that each is
related to the element of `xs` at its place. With `R` an equality this is
equality of multisets; with a tolerance in `R` it is not transitive, and
common elements cannot be cancelled.

`matches_iff_forall_key`: if related elements have equal keys, two lists
match exactly when their parts of each key do.
-/
import Mathlib.Data.List.Forall2
import Mathlib.Data.List.Perm.Basic

namespace TdSandboxed.Lib

variable {α β γ κ : Type*}

/-- Some reordering of `ys` is related to `xs` element by element. -/
def Matches (R : α → β → Prop) (xs : List α) (ys : List β) : Prop :=
  ∃ zs, zs.Perm ys ∧ List.Forall₂ R xs zs

namespace Matches

variable {R : α → β → Prop} {xs xs' : List α} {ys ys' : List β}

theorem of_forall₂ (h : List.Forall₂ R xs ys) : Matches R xs ys := ⟨ys, .refl _, h⟩

theorem nil : Matches R [] [] := of_forall₂ .nil

theorem length_eq (h : Matches R xs ys) : xs.length = ys.length := by
  obtain ⟨zs, hp, hr⟩ := h
  rw [hr.length_eq, hp.length_eq]

/-- Every element on the left has a partner. -/
theorem exists_of_mem (h : Matches R xs ys) {x : α} (hx : x ∈ xs) : ∃ y ∈ ys, R x y := by
  obtain ⟨zs, hp, hr⟩ := h
  obtain ⟨i, hi, rfl⟩ := List.getElem_of_mem hx
  have hi' : i < zs.length := hr.length_eq ▸ hi
  exact ⟨zs[i], hp.mem_iff.mp (List.getElem_mem hi'), hr.get hi hi'⟩

theorem perm_right (h : Matches R xs ys) (hp : ys.Perm ys') : Matches R xs ys' := by
  obtain ⟨zs, hzs, hr⟩ := h
  exact ⟨zs, hzs.trans hp, hr⟩

theorem perm_left (h : Matches R xs ys) (hp : xs.Perm xs') : Matches R xs' ys := by
  obtain ⟨zs, hzs, hr⟩ := h
  obtain ⟨ws, hws, hr'⟩ := List.perm_comp_forall₂ hp.symm hr
  exact ⟨ws, hr'.trans hzs, hws⟩

theorem append (h : Matches R xs ys) (h' : Matches R xs' ys') :
    Matches R (xs ++ xs') (ys ++ ys') := by
  obtain ⟨zs, hzs, hr⟩ := h
  obtain ⟨zs', hzs', hr'⟩ := h'
  exact ⟨zs ++ zs', hzs.append hzs', List.rel_append hr hr'⟩

theorem map_left_iff {f : γ → α} {ws : List γ} :
    Matches R (ws.map f) ys ↔ Matches (fun w y => R (f w) y) ws ys := by
  simp only [Matches, List.forall₂_map_left_iff]

/-- Only what the relation says of the elements matters. -/
theorem congr {S : α → β → Prop} (hRS : ∀ x ∈ xs, ∀ y ∈ ys, R x y ↔ S x y) :
    Matches R xs ys ↔ Matches S xs ys := by
  have himp : ∀ {R S : α → β → Prop}, (∀ x ∈ xs, ∀ y ∈ ys, R x y → S x y) →
      Matches R xs ys → Matches S xs ys := by
    intro R S hRS h
    obtain ⟨zs, hzs, hr⟩ := h
    refine ⟨zs, hzs, List.forall₂_iff_get.mpr ⟨hr.length_eq, fun i hi hi' => ?_⟩⟩
    exact hRS _ (List.getElem_mem hi) _ (hzs.mem_iff.mp (List.getElem_mem hi')) (hr.get hi hi')
  exact ⟨himp fun x hx y hy => (hRS x hx y hy).mp, himp fun x hx y hy => (hRS x hx y hy).mpr⟩

/-- An element may be replaced by one that is related to the same ones. -/
theorem congr_left (h : List.Forall₂ (fun x x' => ∀ y, R x y ↔ R x' y) xs xs') :
    Matches R xs ys ↔ Matches R xs' ys := by
  have himp : ∀ {xs xs' : List α}, List.Forall₂ (fun x x' => ∀ y, R x y ↔ R x' y) xs xs' →
      Matches R xs ys → Matches R xs' ys := by
    intro xs xs' h hm
    obtain ⟨zs, hzs, hr⟩ := hm
    refine ⟨zs, hzs, List.forall₂_iff_get.mpr ⟨h.length_eq.symm.trans hr.length_eq, ?_⟩⟩
    intro i hi hi'
    have hix : i < xs.length := h.length_eq.symm ▸ hi
    exact (h.get hix hi _).mp (hr.get hix hi')
  refine ⟨himp h, himp (List.Forall₂.flip ?_)⟩
  exact h.imp fun _ _ hxx y => (hxx y).symm

/-- The parts of one key match. -/
theorem filter_key [DecidableEq κ] {kx : α → κ} {ky : β → κ} (hkey : ∀ x y, R x y → kx x = ky y)
    (h : Matches R xs ys) (k : κ) :
    Matches R (xs.filter (kx · = k)) (ys.filter (ky · = k)) := by
  obtain ⟨zs, hzs, hr⟩ := h
  refine ⟨zs.filter (ky · = k), hzs.filter _, ?_⟩
  refine List.rel_filter (p := fun x => decide (kx x = k)) ?_ hr
  intro x y hxy
  simp [hkey x y hxy]

/-- Lists whose parts of each key match do, by taking one key away at a
time. -/
theorem of_filter_key [DecidableEq κ] {kx : α → κ} {ky : β → κ} :
    ∀ (n : ℕ) (xs : List α) (ys : List β), xs.length + ys.length = n →
      (∀ k, Matches R (xs.filter (kx · = k)) (ys.filter (ky · = k))) → Matches R xs ys := by
  intro n
  induction n using Nat.strongRecOn with
  | ind n ih =>
    intro xs ys hn h
    -- some key of some element
    have hsplit : ∀ k, k ∈ xs.map kx ∨ k ∈ ys.map ky → Matches R xs ys := by
      intro k hk
      have hrest : Matches R (xs.filter fun x => !decide (kx x = k))
          (ys.filter fun y => !decide (ky y = k)) := by
        refine ih _ ?_ _ _ rfl fun j => ?_
        · rw [← hn]
          have hx := xs.length_eq_length_filter_add fun x => decide (kx x = k)
          have hy := ys.length_eq_length_filter_add fun y => decide (ky y = k)
          have hpos : 0 < (xs.filter fun x => decide (kx x = k)).length ∨
              0 < (ys.filter fun y => decide (ky y = k)).length := by
            rcases hk with hk | hk
            · obtain ⟨x, hx, hxk⟩ := List.mem_map.mp hk
              exact .inl (List.length_pos_of_mem (List.mem_filter.mpr ⟨hx, by simpa using hxk⟩))
            · obtain ⟨y, hy, hyk⟩ := List.mem_map.mp hk
              exact .inr (List.length_pos_of_mem (List.mem_filter.mpr ⟨hy, by simpa using hyk⟩))
          omega
        · simp only [List.filter_filter]
          by_cases hjk : j = k
          · subst hjk
            simpa using nil
          · have hx : ∀ x, (decide (kx x = j) && !decide (kx x = k)) = decide (kx x = j) := by
              intro x
              by_cases hxj : kx x = j <;> simp [hxj, hjk]
            have hy : ∀ y, (decide (ky y = j) && !decide (ky y = k)) = decide (ky y = j) := by
              intro y
              by_cases hyj : ky y = j <;> simp [hyj, hjk]
            simpa only [hx, hy] using h j
      have hall := (h k).append hrest
      exact (hall.perm_left (List.filter_append_perm _ xs)).perm_right
        (List.filter_append_perm _ ys)
    cases xs with
    | cons x xs => exact hsplit (kx x) (.inl (by simp))
    | nil =>
      cases ys with
      | cons y ys => exact hsplit (ky y) (.inr (by simp))
      | nil => exact nil

end Matches

/-- Two lists match exactly when their parts of each key do. -/
theorem matches_iff_forall_key [DecidableEq κ] {R : α → β → Prop} {kx : α → κ} {ky : β → κ}
    (hkey : ∀ x y, R x y → kx x = ky y) (xs : List α) (ys : List β) :
    Matches R xs ys ↔ ∀ k, Matches R (xs.filter (kx · = k)) (ys.filter (ky · = k)) :=
  ⟨fun h k => h.filter_key hkey k, fun h => .of_filter_key _ xs ys rfl h⟩

/-- Lists whose parts of each key are equal as multisets are. -/
theorem perm_of_filter_key [DecidableEq κ] (key : α → κ) {xs ys : List α}
    (h : ∀ k, (xs.filter (key · = k)).Perm (ys.filter (key · = k))) : xs.Perm ys := by
  have hmatch : Matches Eq xs ys := by
    have hkey : ∀ x y : α, x = y → key x = key y := fun x y hxy => by rw [hxy]
    exact (matches_iff_forall_key hkey xs ys).mpr fun k => ⟨_, h k, List.forall₂_eq_eq_eq ▸ rfl⟩
  obtain ⟨zs, hzs, heq⟩ := hmatch
  rw [List.forall₂_eq_eq_eq] at heq
  exact heq ▸ hzs

/-- The values of a partial function, beside their arguments. -/
theorem forall₂_filterMap (f : α → Option β) (xs : List α) :
    List.Forall₂ (fun y x => f x = some y) (xs.filterMap f) (xs.filter fun x => (f x).isSome) := by
  induction xs with
  | nil => exact .nil
  | cons x xs ih =>
    cases hx : f x with
    | none => simpa [hx] using ih
    | some y => simpa [hx] using ih

/-- A reordering of what a partial function yields comes from a reordering
of its arguments. -/
theorem exists_perm_filterMap (f : α → Option β) {xs : List α} {ys : List β}
    (h : ys.Perm (xs.filterMap f)) :
    ∃ xs' : List α, xs'.Perm xs ∧ xs'.filterMap f = ys := by
  obtain ⟨zs, hzs, hperm⟩ := List.perm_comp_forall₂ h (forall₂_filterMap f xs)
  have hvalues : zs.filterMap f = ys := by
    clear hperm h
    induction hzs with
    | nil => rfl
    | cons hy _ ih => simp [hy, ih]
  refine ⟨zs ++ xs.filter fun x => !(f x).isSome, ?_, ?_⟩
  · exact (hperm.append_right _).trans (List.filter_append_perm _ xs)
  · have hnone : (xs.filter fun x => !(f x).isSome).filterMap f = [] := by
      rw [List.filterMap_eq_nil_iff]
      intro x hx
      simpa using (List.mem_filter.mp hx).2
    rw [List.filterMap_append, hvalues, hnone, List.append_nil]

end TdSandboxed.Lib
