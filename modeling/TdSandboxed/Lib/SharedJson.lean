/-
TdSandboxed.Lib.SharedJson — one value, written by Go and by Python.

Go's side is a value that is marshalled, read into an `any`, and printed
again: numbers become floats, keys get sorted. Python's side is
`json.dumps` with sorted keys. Both sort the keys alike, so the trees differ
in numbers only (`goTree_eq_iff`), and the texts in strings besides
(`goIndented_eq_dumps_iff`).
-/
import TdSandboxed.Lib.KeyOrder

namespace TdSandboxed.Lib

namespace GoValue

mutual

/-- What `encoding/json` can write: integers of 64 bits, and no key twice. -/
def Encodes : GoValue → Prop
  | .null | .bool _ | .number _ | .string _ => True
  | .int n => n.natAbs ≤ 2 ^ 63
  | .array vs => EncodesItems vs
  | .object ms => (ms.map Prod.fst).Nodup ∧ EncodesMembers ms

def EncodesItems : List GoValue → Prop
  | [] => True
  | v :: vs => v.Encodes ∧ EncodesItems vs

def EncodesMembers : List (List Char × GoValue) → Prop
  | [] => True
  | (_, v) :: ms => v.Encodes ∧ EncodesMembers ms

end

mutual

/-- Every number is written alike in both languages. -/
def SharedNumbers : GoValue → Prop
  | .null | .bool _ | .string _ => True
  | .number x => SharedFloat x
  | .int n => SurvivesFloat64 n
  | .array vs => SharedItems vs
  | .object ms => SharedMembers ms

def SharedItems : List GoValue → Prop
  | [] => True
  | v :: vs => v.SharedNumbers ∧ SharedItems vs

def SharedMembers : List (List Char × GoValue) → Prop
  | [] => True
  | (_, v) :: ms => v.SharedNumbers ∧ SharedMembers ms

end

/-- Every number and every string is written alike. -/
def Shared (v : GoValue) : Prop :=
  v.SharedNumbers ∧ ∀ s ∈ v.toTree.strings, ∀ c ∈ s, SharedChar c

/-- An integer after its turn through a float. -/
def genericNumber (n : ℤ) : JsonNumber := ((parseFloat (intNumber n)).map goNumber).getD (intNumber n)

mutual

/-- The tree of a value after its turn through `any`. -/
def goTree : GoValue → JsonTree
  | .null => .null
  | .bool b => .bool b
  | .number x => .number (goNumber x)
  | .int n => .number (genericNumber n)
  | .string s => .string s
  | .array vs => .array (goTrees vs)
  | .object ms => .object (goMembers [] ms)

def goTrees : List GoValue → List JsonTree
  | [] => []
  | v :: vs => v.goTree :: goTrees vs

/-- The members put into those that are there. -/
def goMembers (base : List (List Char × JsonTree)) :
    List (List Char × GoValue) → List (List Char × JsonTree)
  | [] => base
  | (k, v) :: ms => insertSorted k v.goTree (goMembers base ms)

end

theorem goMembers_insertSorted {k : List Char} {t : JsonTree} (base : List (List Char × JsonTree))
    (ms : List (List Char × GoValue)) (h : k ∉ ms.map Prod.fst) :
    goMembers (insertSorted k t base) ms = insertSorted k t (goMembers base ms) := by
  induction ms with
  | nil => rfl
  | cons m ms ih =>
    obtain ⟨l, v⟩ := m
    obtain ⟨hne, hms⟩ := List.ne_and_not_mem_of_not_mem_cons h
    have hne : k ≠ l := hne
    rw [goMembers, goMembers, ih hms, insertSorted_comm hne.symm]

mutual

/-- **A value's turn through `any`.** -/
theorem ofTree_toTree_generic : ∀ v : GoValue, v.Encodes →
    ∃ w, ofTree v.toTree = some w ∧ w.toTree = v.goTree
  | .null, _ => ⟨.null, rfl, rfl⟩
  | .bool b, _ => ⟨.bool b, rfl, rfl⟩
  | .number x, _ => ⟨.number x, by rw [toTree, ofTree, parseFloat_goNumber, Option.map_some], rfl⟩
  | .string s, _ => ⟨.string s, rfl, rfl⟩
  | .int n, hn => by
    obtain ⟨x, hx, -⟩ := parseFloat_intNumber hn
    refine ⟨.number x, by rw [toTree, ofTree, hx, Option.map_some], ?_⟩
    rw [toTree, goTree, genericNumber, hx, Option.map_some, Option.getD_some]
  | .array vs, h => by
    obtain ⟨ws, hws, htree⟩ := ofTrees_toTrees_generic vs h
    exact ⟨.array ws, by rw [toTree, ofTree, hws, Option.map_some], congrArg JsonTree.array htree⟩
  | .object ms, ⟨hkeys, hms⟩ => by
    obtain ⟨ws, hws, htree⟩ :=
      ofMembers_toMembers_generic ms [] hms hkeys fun _ _ => List.not_mem_nil
    exact ⟨.object ws, by rw [toTree, ofTree, hws, Option.map_some], congrArg JsonTree.object htree⟩

theorem ofTrees_toTrees_generic : ∀ vs : List GoValue, EncodesItems vs →
    ∃ ws, ofTrees (toTrees vs) = some ws ∧ toTrees ws = goTrees vs
  | [], _ => ⟨[], rfl, rfl⟩
  | v :: vs, ⟨hv, hvs⟩ => by
    obtain ⟨w, hw, htree⟩ := ofTree_toTree_generic v hv
    obtain ⟨ws, hws, htrees⟩ := ofTrees_toTrees_generic vs hvs
    refine ⟨w :: ws, ?_, ?_⟩
    · rw [toTrees, ofTrees, hw, Option.bind_some, hws, Option.map_some]
    · rw [toTrees, goTrees, htree, htrees]

theorem ofMembers_toMembers_generic : ∀ ms before : List (List Char × GoValue), EncodesMembers ms →
    (ms.map Prod.fst).Nodup → (∀ k ∈ ms.map Prod.fst, k ∉ before.map Prod.fst) →
      ∃ ws, ofMembers before (toMembers ms) = some ws ∧
        toMembers ws = goMembers (toMembers before) ms
  | [], before, _, _, _ => ⟨before, rfl, rfl⟩
  | (k, v) :: ms, before, ⟨hv, hms⟩, hkeys, hnew => by
    obtain ⟨w, hw, htree⟩ := ofTree_toTree_generic v hv
    obtain ⟨hk, hkeys⟩ := List.nodup_cons.mp hkeys
    have hbefore : k ∉ before.map Prod.fst := hnew k (List.mem_cons_self ..)
    have hnew' : ∀ l ∈ ms.map Prod.fst, l ∉ (setMember k w before).map Prod.fst := by
      intro l hl hmem
      rcases (keys_setMember w before l).mp hmem with rfl | hmem
      · exact hk hl
      · exact hnew l (List.mem_cons_of_mem _ hl) hmem
    obtain ⟨ws, hws, htrees⟩ := ofMembers_toMembers_generic ms (setMember k w before) hms hkeys hnew'
    refine ⟨ws, ?_, ?_⟩
    · rw [toMembers, ofMembers, hw, Option.bind_some, hws]
    · rw [htrees, toMembers_setMember w hbefore, goMembers_insertSorted _ _ hk, goMembers, htree]

end

end GoValue

/-! ## The same value in Python -/

namespace PyValue

mutual

/-- A value of Go, read as one of Python: nil is `None`. -/
def ofGo : GoValue → PyValue
  | .null => .null
  | .bool b => .bool b
  | .number x => .float x
  | .int n => .int n
  | .string s => .str s
  | .array vs => .list (ofGoItems vs)
  | .object ms => .dict (ofGoMembers ms)

def ofGoItems : List GoValue → List PyValue
  | [] => []
  | v :: vs => ofGo v :: ofGoItems vs

def ofGoMembers : List (List Char × GoValue) → List (List Char × PyValue)
  | [] => []
  | (k, v) :: ms => (k, ofGo v) :: ofGoMembers ms

end

/-- The tree that `dumps` writes. -/
def dumpTree (v : PyValue) : JsonTree := v.sortKeys.toTree

end PyValue

namespace GoValue

open PyValue

theorem genericNumber_eq_iff {n : ℤ} (hn : n.natAbs ≤ 2 ^ 63) :
    genericNumber n = intNumber n ↔ SurvivesFloat64 n := by
  obtain ⟨x, hx, -⟩ := parseFloat_intNumber hn
  rw [← goNumber_eq_intNumber_iff hn hx, genericNumber, hx, Option.map_some, Option.getD_some]

theorem keys_goMembers (ms : List (List Char × GoValue)) :
    (goMembers [] ms).map Prod.fst = (PyValue.toMembers (sortMembers (ofGoMembers ms))).map Prod.fst := by
  induction ms with
  | nil => rfl
  | cons m ms ih =>
    obtain ⟨k, v⟩ := m
    rw [goMembers, ofGoMembers, sortMembers, toMembers_insertKey]
    exact keys_insertSorted ih

mutual

/-- **The two trees of a value differ in numbers only.** -/
theorem goTree_eq_iff : ∀ v : GoValue, v.Encodes → (v.goTree = (ofGo v).dumpTree ↔ v.SharedNumbers)
  | .null, _ => iff_of_true rfl trivial
  | .bool _, _ => iff_of_true rfl trivial
  | .string _, _ => iff_of_true rfl trivial
  | .number x, _ => by
    rw [SharedNumbers, ← goNumber_eq_pyNumber_iff]
    exact ⟨JsonTree.number.inj, congrArg JsonTree.number⟩
  | .int n, hn => by
    rw [SharedNumbers, ← genericNumber_eq_iff hn]
    exact ⟨JsonTree.number.inj, congrArg JsonTree.number⟩
  | .array vs, h => by
    rw [SharedNumbers, ← goTrees_eq_iff vs h]
    exact ⟨JsonTree.array.inj, congrArg JsonTree.array⟩
  | .object ms, ⟨_, hms⟩ => by
    rw [SharedNumbers, ← goMembers_eq_iff ms hms]
    exact ⟨JsonTree.object.inj, congrArg JsonTree.object⟩

theorem goTrees_eq_iff : ∀ vs : List GoValue, EncodesItems vs →
    (goTrees vs = PyValue.toTrees (sortItems (ofGoItems vs)) ↔ SharedItems vs)
  | [], _ => iff_of_true rfl trivial
  | v :: vs, ⟨hv, hvs⟩ => by
    rw [SharedItems, ← goTree_eq_iff v hv, ← goTrees_eq_iff vs hvs]
    exact List.cons_eq_cons

theorem goMembers_eq_iff : ∀ ms : List (List Char × GoValue), EncodesMembers ms →
    (goMembers [] ms = PyValue.toMembers (sortMembers (ofGoMembers ms)) ↔ SharedMembers ms)
  | [], _ => iff_of_true rfl trivial
  | (k, v) :: ms, ⟨hv, hms⟩ => by
    rw [SharedMembers, ← goTree_eq_iff v hv, ← goMembers_eq_iff ms hms, goMembers, ofGoMembers,
      sortMembers, toMembers_insertKey]
    exact insertSorted_inj (keys_goMembers ms)

end

/-! ## Strings and depth of the sorted tree -/

theorem mem_stringsMembers {s : List Char} (ms : List (List Char × JsonTree)) :
    s ∈ JsonTree.stringsMembers ms ↔ ∃ m ∈ ms, s = m.1 ∨ s ∈ m.2.strings := by
  induction ms with
  | nil => simp [JsonTree.stringsMembers]
  | cons m ms ih => simp [JsonTree.stringsMembers, ih, or_assoc]

theorem mem_stringsMembers_insertSorted {s k : List Char} {t : JsonTree}
    {ms : List (List Char × JsonTree)} :
    s ∈ JsonTree.stringsMembers (insertSorted k t ms) ↔
      s = k ∨ s ∈ t.strings ∨ s ∈ JsonTree.stringsMembers ms := by
  simp only [mem_stringsMembers, mem_insertSorted, exists_eq_or_imp, or_assoc]

mutual

/-- Sorting the keys moves the strings only. -/
theorem mem_strings_dumpTree {s : List Char} : ∀ v : GoValue,
    s ∈ (ofGo v).dumpTree.strings ↔ s ∈ v.toTree.strings
  | .null => Iff.rfl
  | .bool _ => Iff.rfl
  | .number _ => Iff.rfl
  | .int _ => Iff.rfl
  | .string _ => Iff.rfl
  | .array vs => mem_strings_sortItems vs
  | .object ms => mem_strings_sortMembers ms

theorem mem_strings_sortItems {s : List Char} : ∀ vs : List GoValue,
    s ∈ JsonTree.stringsItems (PyValue.toTrees (sortItems (ofGoItems vs))) ↔
      s ∈ JsonTree.stringsItems (toTrees vs)
  | [] => Iff.rfl
  | v :: vs => by
    have hv := mem_strings_dumpTree (s := s) v
    have hvs := mem_strings_sortItems (s := s) vs
    simp only [ofGoItems, sortItems, PyValue.toTrees, toTrees, JsonTree.stringsItems, List.mem_append]
    exact or_congr hv hvs

theorem mem_strings_sortMembers {s : List Char} : ∀ ms : List (List Char × GoValue),
    s ∈ JsonTree.stringsMembers (PyValue.toMembers (sortMembers (ofGoMembers ms))) ↔
      s ∈ JsonTree.stringsMembers (toMembers ms)
  | [] => Iff.rfl
  | (k, v) :: ms => by
    have hv := mem_strings_dumpTree (s := s) v
    have hms := mem_strings_sortMembers (s := s) ms
    rw [ofGoMembers, sortMembers, toMembers_insertKey, mem_stringsMembers_insertSorted, hms]
    simp only [toMembers, JsonTree.stringsMembers, List.mem_cons, List.mem_append]
    exact or_congr_right (or_congr_left hv)

end

theorem valid_dumpTree (v : PyValue) : ∀ n ∈ v.dumpTree.numbers, n.Valid := PyValue.valid_toTree _

/-- **A value that Go prints after a turn through `any` is printed as by
`json.dumps` with sorted keys exactly when its numbers and its strings are
written alike.** -/
theorem goIndented_eq_dumps_iff {v w : GoValue} (hv : v.Encodes) (hw : w.toTree = v.goTree) :
    goIndented.value 0 w.toTree = (ofGo v).dumps ↔ v.Shared := by
  have hvalid := valid_toTree w
  rw [hw] at hvalid ⊢
  have htexts : goIndented.value 0 (ofGo v).dumpTree = (ofGo v).dumps ↔
      ∀ s ∈ v.toTree.strings, ∀ c ∈ s, SharedChar c := by
    have hiff := goIndented_eq_pyIndented_iff (valid_dumpTree (ofGo v))
    simp only [mem_strings_dumpTree] at hiff
    exact hiff
  have htree : goIndented.value 0 v.goTree = (ofGo v).dumps → v.goTree = (ofGo v).dumpTree := by
    intro heq
    let depth := max v.goTree.depth (ofGo v).dumpTree.depth
    have hgo := Layout.parse_layout goIndented_escapes depth v.goTree hvalid
    have hpy := Layout.parse_layout pyIndented_escapes depth _ (valid_dumpTree (ofGo v))
    rw [if_pos (le_max_left ..), heq] at hgo
    rw [if_pos (le_max_right ..)] at hpy
    exact Option.some.inj (hgo.symm.trans hpy)
  constructor
  · intro heq
    have hsame := htree heq
    refine ⟨(goTree_eq_iff v hv).mp hsame, htexts.mp ?_⟩
    rw [← hsame]
    exact heq
  · intro hshared
    rw [(goTree_eq_iff v hv).mpr hshared.1]
    exact htexts.mpr hshared.2

end GoValue

/-! ## Loading -/

namespace PyValue

open GoValue (Encodes EncodesItems EncodesMembers)

theorem ofGoItems_map {α : Type} {value : α → GoValue} (items : List α) :
    ofGoItems (items.map value) = items.map fun a => ofGo (value a) := by
  induction items with
  | nil => rfl
  | cons a items ih => rw [List.map_cons, ofGoItems, ih, List.map_cons]

theorem sortItems_eq_map (vs : List PyValue) : sortItems vs = vs.map sortKeys := by
  induction vs with
  | nil => rfl
  | cons v vs ih => rw [sortItems, ih, List.map_cons]

theorem keys_ofGoMembers (ms : List (List Char × GoValue)) :
    (ofGoMembers ms).map Prod.fst = ms.map Prod.fst := by
  induction ms with
  | nil => rfl
  | cons m ms ih =>
    obtain ⟨k, v⟩ := m
    rw [ofGoMembers, List.map_cons, List.map_cons, ih]

theorem keys_sortMembers (ms : List (List Char × PyValue)) :
    ((sortMembers ms).map Prod.fst).Perm (ms.map Prod.fst) := by
  induction ms with
  | nil => rfl
  | cons m ms ih =>
    obtain ⟨k, v⟩ := m
    rw [sortMembers]
    exact (keys_insertKey ..).trans (ih.cons k)

/-- What a sorted dict has under a key. -/
theorem itemOf_sortMembers {k : List Char} {ms : List (List Char × PyValue)}
    (h : (ms.map Prod.fst).Nodup) : itemOf k (sortMembers ms) = (itemOf k ms).map sortKeys := by
  induction ms with
  | nil => rfl
  | cons m ms ih =>
    obtain ⟨l, v⟩ := m
    obtain ⟨hl, hms⟩ := List.nodup_cons.mp h
    have hnew : l ∉ (sortMembers ms).map Prod.fst := fun hmem => hl ((keys_sortMembers ms).mem_iff.mp hmem)
    rw [sortMembers, itemOf_insertKey hnew, itemOf, ih hms]
    by_cases hk : k = l
    · rw [if_pos hk, if_pos hk, Option.map_some]
    · rw [if_neg hk, if_neg hk]

mutual

theorem keyed_sortKeys : ∀ v : GoValue, v.Encodes → (ofGo v).sortKeys.Keyed
  | .null, _ => trivial
  | .bool _, _ => trivial
  | .number _, _ => trivial
  | .int _, _ => trivial
  | .string _, _ => trivial
  | .array vs, h => keyedItems_sortItems vs h
  | .object ms, ⟨hkeys, hms⟩ => by
    refine ⟨?_, keyedMembers_sortMembers ms hms⟩
    rw [(keys_sortMembers _).nodup_iff, keys_ofGoMembers]
    exact hkeys

theorem keyedItems_sortItems : ∀ vs : List GoValue, EncodesItems vs →
    KeyedItems (sortItems (ofGoItems vs))
  | [], _ => trivial
  | v :: vs, ⟨hv, hvs⟩ => ⟨keyed_sortKeys v hv, keyedItems_sortItems vs hvs⟩

theorem keyedMembers_sortMembers : ∀ ms : List (List Char × GoValue), EncodesMembers ms →
    KeyedMembers (sortMembers (ofGoMembers ms))
  | [], _ => trivial
  | (_, v) :: ms, ⟨hv, hms⟩ =>
    keyedMembers_insertKey (keyed_sortKeys v hv) (keyedMembers_sortMembers ms hms)

end

theorem depthMembers_insertSorted {k : List Char} {t : JsonTree} (ms : List (List Char × JsonTree)) :
    JsonTree.depthMembers (insertSorted k t ms) = max t.depth (JsonTree.depthMembers ms) := by
  induction ms with
  | nil => rfl
  | cons m ms ih =>
    obtain ⟨x, a⟩ := m
    by_cases hk : k < x
    · simp only [insertSorted, if_pos hk, JsonTree.depthMembers]
    · simp only [insertSorted, if_neg hk, JsonTree.depthMembers, ih]
      exact max_left_comm ..

mutual

theorem depth_dumpTree : ∀ v : GoValue, (ofGo v).dumpTree.depth = v.toTree.depth
  | .null => rfl
  | .bool _ => rfl
  | .number _ => rfl
  | .int _ => rfl
  | .string _ => rfl
  | .array vs => congrArg (· + 1) (depth_sortItems vs)
  | .object ms => congrArg (· + 1) (depth_sortMembers ms)

theorem depth_sortItems : ∀ vs : List GoValue,
    JsonTree.depthItems (toTrees (sortItems (ofGoItems vs))) =
      JsonTree.depthItems (GoValue.toTrees vs)
  | [] => rfl
  | v :: vs => congrArg₂ max (depth_dumpTree v) (depth_sortItems vs)

theorem depth_sortMembers : ∀ ms : List (List Char × GoValue),
    JsonTree.depthMembers (toMembers (sortMembers (ofGoMembers ms))) =
      JsonTree.depthMembers (GoValue.toMembers ms)
  | [] => rfl
  | (k, v) :: ms => by
    rw [ofGoMembers, sortMembers, toMembers_insertKey, depthMembers_insertSorted, depth_sortMembers ms]
    exact congrArg (max · _) (depth_dumpTree v)

end

/-- **What Python loads from its own text of a value of Go.** -/
theorem loads_dumps_ofGo {v : GoValue} (hv : v.Encodes) (hdepth : v.toTree.depth ≤ recursionLimit) :
    loads (ofGo v).dumps = some (ofGo v).sortKeys := by
  rw [← depth_dumpTree] at hdepth
  exact loads_dumps (keyed_sortKeys v hv) hdepth

end PyValue

end TdSandboxed.Lib
