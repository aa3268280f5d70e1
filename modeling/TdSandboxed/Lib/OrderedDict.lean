/-
TdSandboxed.Lib.OrderedDict — dicts that keep the order their keys were
first written in.

`Assoc` reads a bare list of pairs; here the list carries the proof that no
key stands in it twice, so a sum over the items is a sum over the keys.
`total_set` is the one fact about such a sum: after a write, the old value of
the key is exchanged for the new one.
-/
import Mathlib.Algebra.BigOperators.Group.List.Basic
import Mathlib.Tactic.Abel
import TdSandboxed.Lib.Assoc

namespace TdSandboxed.Lib

variable {κ ν M : Type}

/-- The items of a dict, each key once. -/
@[ext]
structure OrderedDict (κ ν : Type) where
  items : List (κ × ν)
  nodup : (items.map Prod.fst).Nodup

instance [DecidableEq κ] [DecidableEq ν] : DecidableEq (OrderedDict κ ν) := fun _ _ =>
  decidable_of_iff _ OrderedDict.ext_iff.symm

/-- The items after a write: in the place of the key, or at the end. -/
def setItem [DecidableEq κ] (k : κ) (v : ν) : List (κ × ν) → List (κ × ν)
  | [] => [(k, v)]
  | p :: l => if p.1 = k then (k, v) :: l else p :: setItem k v l

section
variable [DecidableEq κ] {k b : κ} {v : ν} {l : List (κ × ν)}

theorem lookup_setItem (l : List (κ × ν)) (k b : κ) (v : ν) :
    (setItem k v l).lookup b = if b = k then some v else l.lookup b := by
  induction l with
  | nil => rw [setItem, lookup_cons_eq]
  | cons p l ih =>
    rw [setItem]
    by_cases hp : p.1 = k
    · rw [if_pos hp, lookup_cons_eq, lookup_cons_eq, hp]
      by_cases hb : b = k <;> simp [hb]
    · rw [if_neg hp, lookup_cons_eq, lookup_cons_eq, ih]
      by_cases hb : b = k
      · rw [if_neg (hb ▸ Ne.symm hp)]
        simp [hb]
      · simp [hb]

theorem mem_keys_setItem : b ∈ (setItem k v l).map Prod.fst ↔ b = k ∨ b ∈ l.map Prod.fst := by
  rw [mem_keys_iff, mem_keys_iff, lookup_setItem]
  by_cases hb : b = k <;> simp [hb]

theorem setItem_of_not_mem (h : k ∉ l.map Prod.fst) : setItem k v l = l ++ [(k, v)] := by
  induction l with
  | nil => rfl
  | cons p l ih =>
    obtain ⟨hne, hl⟩ := List.ne_and_not_mem_of_not_mem_cons h
    rw [setItem, if_neg (Ne.symm hne), ih hl, List.cons_append]

theorem nodup_setItem (h : (l.map Prod.fst).Nodup) : ((setItem k v l).map Prod.fst).Nodup := by
  induction l with
  | nil => simp [setItem]
  | cons p l ih =>
    obtain ⟨hp, hl⟩ := List.nodup_cons.mp h
    rw [setItem]
    by_cases hk : p.1 = k
    · rw [if_pos hk]
      exact List.nodup_cons.mpr ⟨hk ▸ hp, hl⟩
    · rw [if_neg hk]
      refine List.nodup_cons.mpr ⟨?_, ih hl⟩
      rw [mem_keys_setItem]
      exact not_or.mpr ⟨hk, hp⟩

theorem sum_setItem [AddCommGroup M] (w : ν → M) (l : List (κ × ν)) (k : κ) (v : ν) :
    (((setItem k v l).map Prod.snd).map w).sum =
      ((l.map Prod.snd).map w).sum - ((l.lookup k).map w).getD 0 + w v := by
  induction l with
  | nil => simp [setItem]
  | cons p l ih =>
    rw [setItem, lookup_cons_eq]
    by_cases hp : p.1 = k
    · simp only [if_pos hp, if_pos hp.symm, List.map_cons, List.sum_cons, Option.map_some,
        Option.getD_some]
      abel
    · simp only [if_neg hp, if_neg (Ne.symm hp), List.map_cons, List.sum_cons, ih]
      abel

/-- What is appended under one key is appended to the whole. -/
theorem perm_flatMap_setItem {α : Type} (l : List (κ × List α)) (k : κ) (xs : List α) :
    ((setItem k ((l.lookup k).getD [] ++ xs) l).flatMap Prod.snd).Perm
      (l.flatMap Prod.snd ++ xs) := by
  induction l with
  | nil => simp [setItem]
  | cons p l ih =>
    rw [setItem, lookup_cons_eq]
    by_cases hp : p.1 = k
    · rw [if_pos hp, if_pos hp.symm]
      simp only [Option.getD_some, List.flatMap_cons, List.append_assoc]
      exact List.perm_append_comm.append_left p.2
    · rw [if_neg hp, if_neg (Ne.symm hp)]
      simp only [List.flatMap_cons, List.append_assoc]
      exact ih.append_left p.2

theorem filter_ne_of_not_mem_keys (h : k ∉ l.map Prod.fst) :
    l.filter (fun p => decide (p.1 ≠ k)) = l := by
  rw [List.filter_eq_self]
  intro p hp
  have hne : p.1 ≠ k := by
    intro hk
    exact h (hk ▸ List.mem_map_of_mem hp)
  exact decide_eq_true hne

theorem lookup_filter_ne (l : List (κ × ν)) (k b : κ) :
    (l.filter fun p => decide (p.1 ≠ k)).lookup b = if b = k then none else l.lookup b := by
  induction l with
  | nil => simp
  | cons p l ih =>
    rw [lookup_cons_eq]
    by_cases hk : p.1 = k
    · rw [List.filter_cons_of_neg (by simp [hk]), ih, hk]
      split <;> rfl
    · rw [List.filter_cons_of_pos (by simp [hk]), lookup_cons_eq, ih]
      by_cases hb : b = p.1
      · simp [hb, hk]
      · simp [hb]

/-- One key counts once. -/
theorem sum_eq_add_filter_ne [AddCommMonoid M] (w : ν → M) (h : (l.map Prod.fst).Nodup) (k : κ) :
    ((l.map Prod.snd).map w).sum = ((l.lookup k).map w).getD 0 +
      (((l.filter fun p => decide (p.1 ≠ k)).map Prod.snd).map w).sum := by
  induction l with
  | nil => simp
  | cons p l ih =>
    obtain ⟨hp, hl⟩ := List.nodup_cons.mp h
    rw [lookup_cons_eq]
    by_cases hk : p.1 = k
    · rw [if_pos hk.symm, List.filter_cons_of_neg (by simp [hk]),
        filter_ne_of_not_mem_keys (hk ▸ hp)]
      rfl
    · rw [if_neg (Ne.symm hk), List.filter_cons_of_pos (by simp [hk])]
      simp only [List.map_cons, List.sum_cons, ih hl]
      exact add_left_comm _ _ _

end

namespace OrderedDict

section

def empty : OrderedDict κ ν := ⟨[], List.nodup_nil⟩

def keys (d : OrderedDict κ ν) : List κ := d.items.map Prod.fst

def values (d : OrderedDict κ ν) : List ν := d.items.map Prod.snd

/-- The items whose key passes a test. -/
def filterKeys (p : κ → Bool) (d : OrderedDict κ ν) : OrderedDict κ ν where
  items := d.items.filter fun i => p i.1
  nodup := d.nodup.sublist (List.filter_sublist.map Prod.fst)

/-- A weight summed over the values. -/
def total [AddCommMonoid M] (w : ν → M) (d : OrderedDict κ ν) : M := (d.values.map w).sum

variable [DecidableEq κ]

def get? (d : OrderedDict κ ν) (k : κ) : Option ν := d.items.lookup k

def set (d : OrderedDict κ ν) (k : κ) (v : ν) : OrderedDict κ ν where
  items := setItem k v d.items
  nodup := nodup_setItem d.nodup

/-- The dict of a list of writes, in turn. -/
def ofWrites (writes : List (κ × ν)) : OrderedDict κ ν :=
  writes.foldl (fun d p => d.set p.1 p.2) empty

end

section
variable {d : OrderedDict κ ν} {k b : κ} {v : ν}

@[simp]
theorem total_empty [AddCommMonoid M] (w : ν → M) : total w (empty : OrderedDict κ ν) = 0 := rfl

theorem mem_keys_filterKeys {p : κ → Bool} : b ∈ (d.filterKeys p).keys ↔ b ∈ d.keys ∧ p b := by
  simp only [keys, filterKeys, List.mem_map, List.mem_filter]
  constructor
  · rintro ⟨i, ⟨hi, hp⟩, rfl⟩
    exact ⟨⟨i, hi, rfl⟩, hp⟩
  · rintro ⟨⟨i, hi, rfl⟩, hp⟩
    exact ⟨i, ⟨hi, hp⟩, rfl⟩

theorem filterKeys_of_items_nil (p : κ → Bool) (h : d.items = []) : d.filterKeys p = d := by
  apply OrderedDict.ext
  simp [filterKeys, h]

variable [DecidableEq κ]

@[simp]
theorem get?_empty (k : κ) : (empty : OrderedDict κ ν).get? k = none := rfl

theorem get?_set (d : OrderedDict κ ν) (k b : κ) (v : ν) :
    (d.set k v).get? b = if b = k then some v else d.get? b := lookup_setItem d.items k b v

theorem get?_filterKeys_ne (d : OrderedDict κ ν) (k b : κ) :
    (d.filterKeys fun x => x ≠ k).get? b = if b = k then none else d.get? b :=
  lookup_filter_ne d.items k b

theorem mem_values_iff (d : OrderedDict κ ν) : v ∈ d.values ↔ ∃ k, d.get? k = some v := by
  constructor
  · intro hv
    obtain ⟨p, hp, rfl⟩ := List.mem_map.mp hv
    exact ⟨p.1, lookup_of_mem d.nodup hp⟩
  · rintro ⟨k, hk⟩
    exact List.mem_map.mpr ⟨(k, v), mem_of_lookup hk, rfl⟩

theorem mem_keys_set : b ∈ (d.set k v).keys ↔ b = k ∨ b ∈ d.keys := mem_keys_setItem

/-- A write in the middle of a run of writes keeps the keys before it. -/
theorem mem_keys_foldl_set (writes : List (κ × ν)) (d : OrderedDict κ ν) :
    b ∈ (writes.foldl (fun d p => d.set p.1 p.2) d).keys ↔
      b ∈ d.keys ∨ b ∈ writes.map Prod.fst := by
  induction writes generalizing d with
  | nil => simp
  | cons p writes ih =>
    rw [List.foldl_cons, ih, mem_keys_set, List.map_cons, List.mem_cons]
    tauto

/-- What a run of writes leaves at a key: the last one there. -/
theorem get?_foldl_set {α : Type*} (key : α → κ) (val : α → ν) (xs : List α)
    (d : OrderedDict κ ν) (k : κ) :
    (xs.foldl (fun d x => d.set (key x) (val x)) d).get? k =
      ((xs.filter fun x => key x = k).getLast?.map val).or (d.get? k) := by
  induction xs generalizing d with
  | nil => simp
  | cons x xs ih =>
    rw [List.foldl_cons, ih, get?_set, List.filter_cons]
    by_cases hx : key x = k
    · cases hlast : (xs.filter fun x => key x = k).getLast? <;>
        simp [hx, hlast, List.getLast?_cons]
    · simp [hx, Ne.symm hx]

theorem mem_keys_ofWrites {writes : List (κ × ν)} :
    b ∈ (ofWrites writes).keys ↔ b ∈ writes.map Prod.fst := by
  rw [ofWrites, mem_keys_foldl_set]
  simp [empty, keys]

/-- A write exchanges the old value of its key for the new one. -/
theorem total_set [AddCommGroup M] (w : ν → M) (d : OrderedDict κ ν) (k : κ) (v : ν) :
    (d.set k v).total w = d.total w - ((d.get? k).map w).getD 0 + w v :=
  sum_setItem w d.items k v

theorem total_eq_add_filterKeys_ne [AddCommMonoid M] (w : ν → M) (d : OrderedDict κ ν) (k : κ) :
    d.total w = ((d.get? k).map w).getD 0 + (d.filterKeys fun b => b ≠ k).total w :=
  sum_eq_add_filter_ne w d.nodup k

end

end OrderedDict

end TdSandboxed.Lib
