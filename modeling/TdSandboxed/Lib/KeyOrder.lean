/-
TdSandboxed.Lib.KeyOrder — members of a JSON object, put in the order of
their keys one by one.

Where no key comes twice it does not matter in which order the members come
(`insertSorted_comm`). Two lists with the same keys are equal exactly when
they were made from equal values (`insertSorted_inj`).
-/
import TdSandboxed.Lib.PyValue

namespace TdSandboxed.Lib

/-- Puts a member before the first with a greater key. -/
def insertSorted {α : Type} (k : List Char) (v : α) : List (List Char × α) → List (List Char × α)
  | [] => [(k, v)]
  | (l, w) :: ms => if k < l then (k, v) :: (l, w) :: ms else (l, w) :: insertSorted k v ms

section

variable {α β : Type} {k l : List Char} {v w : α} {ms : List (List Char × α)}

theorem insertSorted_nil : insertSorted k v [] = [(k, v)] := rfl

theorem insertSorted_cons : insertSorted k v ((l, w) :: ms) =
    if k < l then (k, v) :: (l, w) :: ms else (l, w) :: insertSorted k v ms := rfl

/-- Two members with different keys may change places. -/
theorem insertSorted_comm (hne : k ≠ l) :
    insertSorted k v (insertSorted l w ms) = insertSorted l w (insertSorted k v ms) := by
  induction ms with
  | nil =>
    rcases lt_or_gt_of_ne hne with hlt | hlt
    · simp [insertSorted_nil, insertSorted_cons, hlt, hlt.asymm]
    · simp [insertSorted_nil, insertSorted_cons, hlt, hlt.asymm]
  | cons m ms ih =>
    obtain ⟨x, a⟩ := m
    by_cases hk : k < x
    · by_cases hl : l < x
      · rcases lt_or_gt_of_ne hne with hlt | hlt
        · simp [insertSorted_cons, hk, hl, hlt, hlt.asymm]
        · simp [insertSorted_cons, hk, hl, hlt, hlt.asymm]
      · have hlk : ¬ l < k := fun hlt => hl (hlt.trans hk)
        simp [insertSorted_cons, hk, hl, hlk]
    · by_cases hl : l < x
      · have hkl : ¬ k < l := fun hlt => hk (hlt.trans hl)
        simp [insertSorted_cons, hk, hl, hkl]
      · simp [insertSorted_cons, hk, hl, ih]

/-- The keys of the members, whatever the values. -/
theorem keys_insertSorted {ns : List (List Char × β)} {b : β}
    (h : ms.map Prod.fst = ns.map Prod.fst) :
    (insertSorted k v ms).map Prod.fst = (insertSorted k b ns).map Prod.fst := by
  induction ms generalizing ns with
  | nil =>
    obtain rfl := List.map_eq_nil_iff.mp h.symm
    rfl
  | cons m ms ih =>
    cases ns with
    | nil => cases h
    | cons n ns =>
      obtain ⟨x, a⟩ := m
      obtain ⟨y, c⟩ := n
      obtain ⟨hkey, hrest⟩ := List.cons.inj h
      obtain rfl : x = y := hkey
      by_cases hk : k < x
      · simp only [insertSorted_cons, if_pos hk, List.map_cons, hrest]
      · simp only [insertSorted_cons, if_neg hk, List.map_cons, ih hrest]

theorem insertSorted_inj {ns : List (List Char × α)}
    (h : ms.map Prod.fst = ns.map Prod.fst) :
    insertSorted k v ms = insertSorted k w ns ↔ v = w ∧ ms = ns := by
  induction ms generalizing ns with
  | nil =>
    obtain rfl := List.map_eq_nil_iff.mp h.symm
    simp [insertSorted_nil]
  | cons m ms ih =>
    cases ns with
    | nil => cases h
    | cons n ns =>
      obtain ⟨x, a⟩ := m
      obtain ⟨y, c⟩ := n
      obtain ⟨hkey, hrest⟩ := List.cons.inj h
      obtain rfl : x = y := hkey
      by_cases hk : k < x
      · simp [insertSorted_cons, hk]
      · simp only [insertSorted_cons, if_neg hk, List.cons.injEq, ih hrest]
        exact and_left_comm

theorem mem_insertSorted {m : List Char × α} :
    m ∈ insertSorted k v ms ↔ m = (k, v) ∨ m ∈ ms := by
  induction ms with
  | nil => simp [insertSorted_nil]
  | cons n ms ih =>
    obtain ⟨x, a⟩ := n
    by_cases hk : k < x
    · simp only [insertSorted_cons, if_pos hk, List.mem_cons]
    · simp only [insertSorted_cons, if_neg hk, List.mem_cons, ih]
      exact or_left_comm

end

/-! ## Go's maps and Python's sorted dicts -/

namespace GoValue

theorem toMembers_setMember {k : List Char} (v : GoValue) {ms : List (List Char × GoValue)}
    (h : k ∉ ms.map Prod.fst) :
    toMembers (setMember k v ms) = insertSorted k v.toTree (toMembers ms) := by
  induction ms with
  | nil => rfl
  | cons m ms ih =>
    obtain ⟨x, a⟩ := m
    obtain ⟨hne, hms⟩ := List.ne_and_not_mem_of_not_mem_cons h
    have hne : k ≠ x := hne
    by_cases hk : k < x
    · simp only [setMember, if_neg hne, if_pos hk, toMembers, insertSorted_cons]
    · simp only [setMember, if_neg hne, if_neg hk, toMembers, insertSorted_cons, ih hms]

theorem keys_setMember {k : List Char} (v : GoValue) (ms : List (List Char × GoValue)) (x : List Char) :
    x ∈ (setMember k v ms).map Prod.fst ↔ x = k ∨ x ∈ ms.map Prod.fst := by
  induction ms with
  | nil => simp [setMember]
  | cons m ms ih =>
    obtain ⟨y, a⟩ := m
    by_cases heq : k = y
    · subst heq
      simp [setMember]
    · by_cases hk : k < y
      · simp only [setMember, if_neg heq, if_pos hk, List.map_cons, List.mem_cons]
      · simp only [setMember, if_neg heq, if_neg hk, List.map_cons, List.mem_cons, ih]
        exact or_left_comm

end GoValue

namespace PyValue

theorem toMembers_insertKey (k : List Char) (v : PyValue) (ms : List (List Char × PyValue)) :
    toMembers (insertKey k v ms) = insertSorted k v.toTree (toMembers ms) := by
  induction ms with
  | nil => rfl
  | cons m ms ih =>
    obtain ⟨x, a⟩ := m
    by_cases hk : k < x
    · simp only [insertKey, if_pos hk, toMembers, insertSorted_cons]
    · simp only [insertKey, if_neg hk, toMembers, insertSorted_cons, ih]

theorem keys_insertKey (k : List Char) (v : PyValue) (ms : List (List Char × PyValue)) :
    ((insertKey k v ms).map Prod.fst).Perm (k :: ms.map Prod.fst) := by
  induction ms with
  | nil => rfl
  | cons m ms ih =>
    obtain ⟨x, a⟩ := m
    by_cases hk : k < x
    · simp [insertKey, hk]
    · simp only [insertKey, if_neg hk, List.map_cons]
      exact (ih.cons x).trans (.swap ..)

theorem keyedMembers_insertKey {k : List Char} {v : PyValue} {ms : List (List Char × PyValue)}
    (hv : v.Keyed) (hms : KeyedMembers ms) : KeyedMembers (insertKey k v ms) := by
  induction ms with
  | nil => exact ⟨hv, trivial⟩
  | cons m ms ih =>
    obtain ⟨x, a⟩ := m
    by_cases hk : k < x
    · simp only [insertKey, if_pos hk]
      exact ⟨hv, hms⟩
    · simp only [insertKey, if_neg hk]
      exact ⟨hms.1, ih hms.2⟩

theorem itemOf_insertKey {k l : List Char} {v : PyValue} {ms : List (List Char × PyValue)}
    (h : l ∉ ms.map Prod.fst) :
    itemOf k (insertKey l v ms) = if k = l then some v else itemOf k ms := by
  induction ms with
  | nil => rfl
  | cons m ms ih =>
    obtain ⟨x, a⟩ := m
    obtain ⟨hne, hms⟩ := List.ne_and_not_mem_of_not_mem_cons h
    have hne : l ≠ x := hne
    by_cases hl : l < x
    · rw [insertKey, if_pos hl, itemOf]
    · rw [insertKey, if_neg hl, itemOf, itemOf, ih hms]
      by_cases hx : k = x
      · rw [if_pos hx, if_pos hx, if_neg (hx ▸ hne.symm)]
      · rw [if_neg hx, if_neg hx]

end PyValue

end TdSandboxed.Lib
