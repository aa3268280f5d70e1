/-
TdSandboxed.Lib.Netting — signed amounts under keys, netted and not.

A book is a list of entries, a key and a signed amount each. `net` adds
the amounts of a key, `gross` their absolute values. The book's total is
the same either way exactly when the amounts under each key have one sign
(`netTotal_eq_grossTotal_iff`); otherwise netting makes it smaller.
-/
import Mathlib.Algebra.Order.BigOperators.Group.Finset
import Mathlib.Algebra.Order.BigOperators.Group.List
import Mathlib.Algebra.Order.Group.Abs

namespace TdSandboxed.Lib.Netting

/-- The amounts have one sign. -/
def OneSided {M : Type*} [Zero M] [LE M] (vs : List M) : Prop :=
  (∀ v ∈ vs, 0 ≤ v) ∨ ∀ v ∈ vs, v ≤ 0

section Book
variable {κ M : Type*} [DecidableEq κ]

/-- The amounts booked under a key. -/
def amounts (k : κ) (xs : List (κ × M)) : List M := (xs.filter (·.1 = k)).map Prod.snd

def keys (xs : List (κ × M)) : Finset κ := (xs.map Prod.fst).toFinset

theorem amounts_cons (k : κ) (x : κ × M) (xs : List (κ × M)) :
    amounts k (x :: xs) = if x.1 = k then x.2 :: amounts k xs else amounts k xs := by
  unfold amounts
  by_cases h : x.1 = k <;> simp [h]

theorem amounts_eq_nil {k : κ} {xs : List (κ × M)} (h : k ∉ keys xs) : amounts k xs = [] := by
  simp only [keys, List.mem_toFinset, List.mem_map, not_exists, not_and] at h
  simpa [amounts] using fun a b hab ha => h (a, b) hab ha

variable [AddCommGroup M]

def net (k : κ) (xs : List (κ × M)) : M := (amounts k xs).sum

@[simp] theorem net_nil (k : κ) : net k ([] : List (κ × M)) = 0 := rfl

theorem net_cons (k : κ) (x : κ × M) (xs : List (κ × M)) :
    net k (x :: xs) = (if x.1 = k then x.2 else 0) + net k xs := by
  unfold net
  rw [amounts_cons]
  by_cases h : x.1 = k <;> simp [h]

@[simp] theorem net_append (k : κ) (xs ys : List (κ × M)) :
    net k (xs ++ ys) = net k xs + net k ys := by
  simp [net, amounts, List.sum_append]

theorem net_eq_zero {k : κ} {xs : List (κ × M)} (h : k ∉ keys xs) : net k xs = 0 := by
  simp [net, amounts_eq_nil h]

variable [LinearOrder M]

def gross (k : κ) (xs : List (κ × M)) : M := ((amounts k xs).map abs).sum

def netTotal (xs : List (κ × M)) : M := ∑ k ∈ keys xs, |net k xs|

def grossTotal (xs : List (κ × M)) : M := (xs.map fun x => |x.2|).sum

theorem gross_cons (k : κ) (x : κ × M) (xs : List (κ × M)) :
    gross k (x :: xs) = (if k = x.1 then |x.2| else 0) + gross k xs := by
  unfold gross
  rw [amounts_cons]
  by_cases h : x.1 = k
  · simp [h]
  · simp [h, Ne.symm h]

/-- The gross total, key by key. -/
theorem sum_gross {xs : List (κ × M)} {s : Finset κ} (hs : keys xs ⊆ s) :
    ∑ k ∈ s, gross k xs = grossTotal xs := by
  induction xs with
  | nil => simp [gross, amounts, grossTotal]
  | cons x xs ih =>
    have hx : x.1 ∈ s := hs (by simp [keys])
    have hxs : keys xs ⊆ s := fun k hk => hs (by simpa [keys] using .inr (by simpa [keys] using hk))
    have hhead : ∑ k ∈ s, (if k = x.1 then |x.2| else 0) = |x.2| := by
      rw [Finset.sum_eq_single x.1 (fun k _ hk => if_neg hk) (fun hn => absurd hx hn), if_pos rfl]
    simp only [gross_cons, Finset.sum_add_distrib, hhead, ih hxs]
    simp [grossTotal]

end Book

section Same
variable {κ M : Type*} [DecidableEq κ] [AddCommGroup M]

/-- The books agree under every key. -/
def SameNet (xs ys : List (κ × M)) : Prop := ∀ k, net k xs = net k ys

/-- Under a key neither has, both are zero. -/
theorem sameNet_iff (xs ys : List (κ × M)) :
    SameNet xs ys ↔ ∀ k ∈ keys xs ∪ keys ys, net k xs = net k ys := by
  constructor
  · intro h k _
    exact h k
  · intro h k
    by_cases hk : k ∈ keys xs ∪ keys ys
    · exact h k hk
    · rw [Finset.mem_union, not_or] at hk
      rw [net_eq_zero hk.1, net_eq_zero hk.2]

instance [DecidableEq M] (xs ys : List (κ × M)) : Decidable (SameNet xs ys) :=
  decidable_of_iff _ (sameNet_iff xs ys).symm

end Same

section Sign
variable {M : Type*} [AddCommGroup M] [LinearOrder M] [IsOrderedAddMonoid M] {vs : List M}

theorem abs_sum_le_sum_abs (vs : List M) : |vs.sum| ≤ (vs.map abs).sum := by
  induction vs with
  | nil => simp
  | cons v vs ih =>
    rw [List.sum_cons, List.map_cons, List.sum_cons]
    exact (abs_add_le v vs.sum).trans (add_le_add_right ih _)

theorem eq_zero_of_sum_abs (h : (vs.map abs).sum = 0) {v : M} (hv : v ∈ vs) : v = 0 := by
  have hle : |v| ≤ (vs.map abs).sum :=
    List.single_le_sum (by simp) _ (List.mem_map_of_mem hv)
  exact abs_eq_zero.mp (le_antisymm (h ▸ hle) (abs_nonneg v))

theorem sum_nonpos (h : ∀ v ∈ vs, v ≤ 0) : vs.sum ≤ 0 := by
  have hle := List.sum_le_card_nsmul vs 0 h
  rwa [nsmul_zero] at hle

theorem OneSided.abs_sum (h : OneSided vs) : |vs.sum| = (vs.map abs).sum := by
  rcases h with h | h
  · rw [abs_of_nonneg (List.sum_nonneg h), List.map_congr_left fun v hv => abs_of_nonneg (h v hv)]
    simp
  · rw [abs_of_nonpos (sum_nonpos h), List.map_congr_left fun v hv => abs_of_nonpos (h v hv)]
    simp [List.sum_neg]

/-- Adding up loses nothing exactly when the amounts have one sign. -/
theorem abs_sum_eq_sum_abs_iff (vs : List M) : |vs.sum| = (vs.map abs).sum ↔ OneSided vs := by
  refine ⟨fun h => ?_, OneSided.abs_sum⟩
  induction vs with
  | nil => simp [OneSided]
  | cons v vs ih =>
    rw [List.sum_cons, List.map_cons, List.sum_cons] at h
    -- both inequalities of the chain are equalities
    have hadd := abs_add_le v vs.sum
    have hrest := abs_sum_le_sum_abs vs
    have hvs : |vs.sum| = (vs.map abs).sum := le_antisymm hrest <| by
      have := h ▸ hadd
      exact le_of_add_le_add_left this
    have hsigns := (abs_add_eq_add_abs_iff v vs.sum).mp (h.trans (by rw [hvs]))
    by_cases hzero : vs.sum = 0
    · have hall : ∀ u ∈ vs, u = 0 := fun u hu =>
        eq_zero_of_sum_abs (by rw [← hvs, hzero, abs_zero]) hu
      rcases le_total 0 v with hv | hv
      · exact .inl (by simpa [hv] using fun u hu => (hall u hu).ge)
      · exact .inr (by simpa [hv] using fun u hu => (hall u hu).le)
    · rcases hsigns with ⟨hv, hs⟩ | ⟨hv, hs⟩ <;> rcases ih hvs with hu | hu
      · exact .inl (by simpa [hv] using hu)
      · exact absurd (le_antisymm (sum_nonpos hu) hs) hzero
      · exact absurd (le_antisymm hs (List.sum_nonneg hu)) hzero
      · exact .inr (by simpa [hv] using hu)

variable {κ : Type*}

theorem grossTotal_nonneg (xs : List (κ × M)) : 0 ≤ grossTotal xs := by
  refine List.sum_nonneg fun m hm => ?_
  obtain ⟨x, -, rfl⟩ := List.mem_map.mp hm
  exact abs_nonneg x.2

variable [DecidableEq κ]

/-- Every entry is part of its key's gross amount. -/
theorem le_gross {xs : List (κ × M)} {x : κ × M} (h : x ∈ xs) : |x.2| ≤ gross x.1 xs := by
  refine List.single_le_sum (by simp) _ (List.mem_map_of_mem ?_)
  exact List.mem_map.mpr ⟨x, List.mem_filter.mpr ⟨h, by simp⟩, rfl⟩

theorem abs_net_le_gross (k : κ) (xs : List (κ × M)) : |net k xs| ≤ gross k xs :=
  abs_sum_le_sum_abs _

/-- **Netting loses nothing exactly when every key is one-sided.** -/
theorem netTotal_eq_grossTotal_iff (xs : List (κ × M)) :
    netTotal xs = grossTotal xs ↔ ∀ k, OneSided (amounts k xs) := by
  rw [← sum_gross (subset_refl (keys xs)), netTotal,
    Finset.sum_eq_sum_iff_of_le fun k _ => abs_net_le_gross k xs]
  constructor
  · intro h k
    by_cases hk : k ∈ keys xs
    · exact (abs_sum_eq_sum_abs_iff _).mp (h k hk)
    · simp [amounts_eq_nil hk, OneSided]
  · exact fun h k _ => (abs_sum_eq_sum_abs_iff _).mpr (h k)

end Sign

end TdSandboxed.Lib.Netting
