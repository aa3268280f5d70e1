/-
TdSandboxed.Lib.SortedKeys — lists that are sorted by a key.

`keepFirst` keeps the first element of each key. What is left has distinct
keys, and then there is one list that is sorted by key
(`eq_of_sortedBy`), whichever way it was sorted.

The first element of a list that was sorted stably from the greatest key
down is the first with the greatest key (`firstGreatest_of_head?`).

The pairs of neighbours of a strictly sorted list are its gaps: two elements
with nothing between them (`mem_neighbours_iff`).
-/
import Mathlib.Data.List.Induction
import Mathlib.Data.List.Nodup
import Mathlib.Data.List.Sort

namespace TdSandboxed.Lib

variable {α κ : Type*} [LinearOrder κ] {key : α → κ} {l l' : List α} {a b : α}

/-! ## The first of each key -/

/-- Keeps the first element of each key. -/
def keepFirst (key : α → κ) (l : List α) : List α :=
  l.foldl (fun kept a => if key a ∈ kept.map key then kept else kept ++ [a]) []

theorem keepFirst_concat (key : α → κ) (l : List α) (a : α) :
    keepFirst key (l ++ [a]) =
      if key a ∈ (keepFirst key l).map key then keepFirst key l else keepFirst key l ++ [a] := by
  rw [keepFirst, List.foldl_append]
  rfl

theorem keys_keepFirst (key : α → κ) (l : List α) :
    ((keepFirst key l).map key).Nodup ∧ ∀ k, k ∈ (keepFirst key l).map key ↔ k ∈ l.map key := by
  induction l using List.reverseRecOn with
  | nil => exact ⟨List.nodup_nil, fun k => Iff.rfl⟩
  | append_singleton l a ih =>
    obtain ⟨hnodup, hkeys⟩ := ih
    rw [keepFirst_concat]
    by_cases ha : key a ∈ (keepFirst key l).map key
    · rw [if_pos ha]
      refine ⟨hnodup, fun k => ?_⟩
      rw [hkeys] at ha
      rw [hkeys, List.map_append, List.mem_append, List.map_singleton, List.mem_singleton]
      exact ⟨.inl, fun hk => hk.elim id fun hk => hk ▸ ha⟩
    · rw [if_neg ha]
      refine ⟨?_, fun k => ?_⟩
      · rw [List.map_append, List.nodup_append']
        exact ⟨hnodup, List.nodup_singleton _, List.disjoint_singleton.mpr ha⟩
      · simp only [List.map_append, List.mem_append, hkeys]

/-- **What is kept.** An element that no earlier one has the key of. -/
theorem mem_keepFirst_iff (key : α → κ) (l : List α) (a : α) :
    a ∈ keepFirst key l ↔ l.find? (fun b => key b = key a) = some a := by
  induction l using List.reverseRecOn with
  | nil => simp [keepFirst]
  | append_singleton l b ih =>
    have hnone : l.find? (fun c => key c = key a) = none ↔ key a ∉ l.map key := by
      simp only [List.find?_eq_none, decide_eq_true_eq, List.mem_map, not_exists, not_and]
    rw [keepFirst_concat, List.find?_append]
    by_cases hb : key b ∈ (keepFirst key l).map key
    · rw [if_pos hb, ih]
      cases hfind : l.find? fun c => key c = key a with
      | some c => simp
      | none =>
        have hne : key b ≠ key a := by
          rintro heq
          rw [(keys_keepFirst key l).2, heq] at hb
          exact hnone.mp hfind hb
        simp [hne]
    · rw [if_neg hb, List.mem_append, ih, List.mem_singleton]
      rw [(keys_keepFirst key l).2] at hb
      cases hfind : l.find? fun c => key c = key a with
      | some c =>
        have hc : c ∈ l := List.mem_of_find?_eq_some hfind
        have hkey : key c = key a := by simpa using List.find?_some hfind
        have hne : a ≠ b := by
          rintro rfl
          exact hb (hkey ▸ List.mem_map_of_mem hc)
        simp [hne]
      | none =>
        by_cases hab : a = b
        · simp [hab]
        · by_cases hkey : key b = key a <;> simp [hab, hkey, Ne.symm hab]

/-- Nothing is lost where elements with one key are the same. -/
theorem mem_keepFirst_of_inj (h : ∀ a ∈ l, ∀ b ∈ l, key a = key b → a = b) (a : α) :
    a ∈ keepFirst key l ↔ a ∈ l := by
  rw [mem_keepFirst_iff]
  constructor
  · exact List.mem_of_find?_eq_some
  · intro ha
    cases hfind : l.find? fun b => key b = key a with
    | none => simpa using List.find?_eq_none.mp hfind a ha
    | some b =>
      have hkey : key b = key a := by simpa using List.find?_some hfind
      exact congrArg some (h b (List.mem_of_find?_eq_some hfind) a ha hkey)

/-! ## One sorted list -/

/-- Strictly sorted by key. -/
def SortedBy (key : α → κ) (l : List α) : Prop := l.Pairwise fun a b => key a < key b

/-- **One way to sort.** -/
theorem eq_of_sortedBy (h : SortedBy key l) (h' : SortedBy key l') (hmem : ∀ a, a ∈ l ↔ a ∈ l') :
    l = l' := by
  have hne : ∀ a b : α, key a < key b → a ≠ b := fun a b hlt heq => (heq ▸ hlt).false
  have hperm : l.Perm l' :=
    (List.perm_ext_iff_of_nodup (h.imp (hne _ _)) (h'.imp (hne _ _))).mpr hmem
  exact hperm.eq_of_pairwise (fun a b _ _ hab hba => absurd hab (lt_asymm hba)) h h'

theorem sortedBy_mergeSort (h : (l.map key).Nodup) :
    SortedBy key (l.mergeSort fun a b => key a ≤ key b) := by
  have hsorted : (l.mergeSort fun a b => key a ≤ key b).Pairwise
      fun a b => decide (key a ≤ key b) = true := by
    refine List.pairwise_mergeSort ?_ ?_ l
    · intro a b c hab hbc
      exact decide_eq_true ((of_decide_eq_true hab).trans (of_decide_eq_true hbc))
    · intro a b
      simpa using le_total (key a) (key b)
  have hdistinct : ((l.mergeSort fun a b => key a ≤ key b).map key).Nodup :=
    ((List.mergeSort_perm l _).map key).nodup_iff.mpr h
  refine (hsorted.and (List.pairwise_map.mp hdistinct)).imp fun hab => ?_
  exact lt_of_le_of_ne (of_decide_eq_true hab.1) hab.2

theorem SortedBy.head_le (h : SortedBy key (a :: l)) (hb : b ∈ a :: l) : key a ≤ key b := by
  obtain rfl | hb := List.mem_cons.mp hb
  · exact le_rfl
  · exact ((List.pairwise_cons.mp h).1 b hb).le

theorem SortedBy.le_getLast (h : SortedBy key l) (ha : l.getLast? = some a) (hb : b ∈ l) :
    key b ≤ key a := by
  obtain ⟨init, rfl⟩ := List.getLast?_eq_some_iff.mp ha
  obtain hb | hb := List.mem_append.mp hb
  · exact ((List.pairwise_append.mp h).2.2 b hb a (by simp)).le
  · rw [List.mem_singleton.mp hb]

/-! ## The first with the greatest key -/

/-- The first element with the greatest key. -/
def FirstGreatest (key : α → κ) (l : List α) (a : α) : Prop :=
  ∃ before after, l = before ++ a :: after ∧ (∀ b ∈ before, key b < key a) ∧
    ∀ b ∈ after, key b ≤ key a

/-- The first with the greatest key among some elements of a list. -/
theorem FirstGreatest.of_filter {p : α → Bool} (h : FirstGreatest key (l.filter p) a) :
    ∃ before after, l = before ++ a :: after ∧ p a = true ∧
      (∀ b ∈ before, p b = true → key b < key a) ∧ ∀ b ∈ after, p b = true → key b ≤ key a := by
  obtain ⟨before, after, hsplit, hbefore, hafter⟩ := h
  obtain ⟨l₁, l₂, rfl, rfl, htail⟩ := List.filter_eq_append_iff.mp hsplit
  obtain ⟨skipped, rest, rfl, hskipped, ha, rfl⟩ := List.filter_eq_cons_iff.mp htail
  refine ⟨l₁ ++ skipped, rest, by rw [List.append_assoc], ha, fun b hb hpb => ?_, fun b hb hpb => ?_⟩
  · obtain hb | hb := List.mem_append.mp hb
    · exact hbefore b (List.mem_filter.mpr ⟨hb, hpb⟩)
    · exact absurd hpb (hskipped b hb)
  · exact hafter b (List.mem_filter.mpr ⟨hb, hpb⟩)

/-- Sorted from the greatest key down, elements with one key as they came. -/
def sortDescending (key : α → κ) (l : List α) : List α := l.mergeSort fun a b => key b ≤ key a

theorem sortDescending_trans (a b c : α) (hab : decide (key b ≤ key a) = true)
    (hbc : decide (key c ≤ key b) = true) : decide (key c ≤ key a) = true :=
  decide_eq_true ((of_decide_eq_true hbc).trans (of_decide_eq_true hab))

theorem sortDescending_total (a b : α) :
    (decide (key b ≤ key a) || decide (key a ≤ key b)) = true := by
  simpa using le_total (key b) (key a)

theorem firstGreatest_of_head? (h : (sortDescending key l).head? = some a) :
    FirstGreatest key l a := by
  induction l with
  | nil => simp [sortDescending] at h
  | cons b l ih =>
    have hsorted : (sortDescending key (b :: l)).Pairwise
        fun x y => decide (key y ≤ key x) = true :=
      List.pairwise_mergeSort sortDescending_trans sortDescending_total (b :: l)
    obtain ⟨l₁, l₂, hcons, hl, hlt⟩ :=
      List.mergeSort_cons (@sortDescending_trans _ _ _ key) sortDescending_total b l
    rw [sortDescending, hcons] at h hsorted
    cases l₁ with
    | nil =>
      obtain rfl := Option.some.inj h
      refine ⟨[], l, rfl, by simp, ?_⟩
      intro c hc
      have hmem : c ∈ l₂ := by
        have hmerged : c ∈ l.mergeSort fun x y => key y ≤ key x := List.mem_mergeSort.mpr hc
        rwa [hl] at hmerged
      exact of_decide_eq_true ((List.pairwise_cons.mp hsorted).1 c hmem)
    | cons c l₁ =>
      obtain rfl := Option.some.inj h
      have hhead : (sortDescending key l).head? = some c := by
        rw [sortDescending, hl]
        rfl
      obtain ⟨before, after, rfl, hbefore, hafter⟩ := ih hhead
      refine ⟨b :: before, after, rfl, ?_, hafter⟩
      intro x hx
      obtain rfl | hx := List.mem_cons.mp hx
      · simpa using hlt c List.mem_cons_self
      · exact hbefore x hx

theorem head?_sortDescending_eq_none : (sortDescending key l).head? = none ↔ l = [] := by
  rw [List.head?_eq_none_iff, sortDescending, ← List.length_eq_zero_iff, List.length_mergeSort,
    List.length_eq_zero_iff]

/-! ## Neighbours -/

/-- Each element with the next one. -/
def neighbours (l : List α) : List (α × α) := l.zip l.tail

theorem neighbours_cons_cons (a b : α) (l : List α) :
    neighbours (a :: b :: l) = (a, b) :: neighbours (b :: l) := rfl

/-- **Gaps.** Two elements with nothing between them. -/
theorem mem_neighbours_iff {l : List κ} (h : l.Pairwise (· < ·)) {x y : κ} :
    (x, y) ∈ neighbours l ↔ x ∈ l ∧ y ∈ l ∧ x < y ∧ ∀ z ∈ l, ¬(x < z ∧ z < y) := by
  induction l with
  | nil => simp [neighbours]
  | cons a l ih =>
    cases l with
    | nil =>
      simp only [neighbours, List.tail_cons, List.zip_nil_right, List.not_mem_nil,
        List.mem_singleton, false_iff]
      rintro ⟨rfl, rfl, hlt, -⟩
      exact lt_irrefl _ hlt
    | cons b l =>
      obtain ⟨hfirst, hrest⟩ := List.pairwise_cons.mp h
      have hleast : ∀ z ∈ b :: l, b ≤ z := by
        intro z hz
        obtain rfl | hz := List.mem_cons.mp hz
        · exact le_rfl
        · exact ((List.pairwise_cons.mp hrest).1 z hz).le
      rw [neighbours_cons_cons, List.mem_cons, ih hrest, Prod.mk.injEq]
      constructor
      · rintro (⟨rfl, rfl⟩ | ⟨hx, hy, hlt, hnone⟩)
        · refine ⟨by simp, by simp, hfirst y (by simp), fun z hz hbetween => ?_⟩
          obtain rfl | hz := List.mem_cons.mp hz
          · exact lt_irrefl _ hbetween.1
          · exact absurd hbetween.2 (hleast z hz).not_gt
        · refine ⟨List.mem_cons_of_mem a hx, List.mem_cons_of_mem a hy, hlt, fun z hz => ?_⟩
          obtain rfl | hz := List.mem_cons.mp hz
          · exact fun hbetween => lt_asymm hbetween.1 (hfirst x hx)
          · exact hnone z hz
      · rintro ⟨hx, hy, hlt, hnone⟩
        have hy' : y ∈ b :: l := by
          refine (List.mem_cons.mp hy).resolve_left ?_
          rintro rfl
          obtain rfl | hx := List.mem_cons.mp hx
          · exact lt_irrefl _ hlt
          · exact lt_asymm hlt (hfirst x hx)
        obtain rfl | hx := List.mem_cons.mp hx
        · refine .inl ⟨rfl, ?_⟩
          by_contra hne
          have hby : b < y := lt_of_le_of_ne (hleast y hy') (Ne.symm hne)
          exact hnone b (by simp) ⟨hfirst b (by simp), hby⟩
        · exact .inr ⟨hx, hy', hlt, fun z hz => hnone z (List.mem_cons_of_mem a hz)⟩

end TdSandboxed.Lib
