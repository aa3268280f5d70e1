/-
TdSandboxed.Lib.PyValue — Python's JSON values, `json.dumps` with
`indent=2, sort_keys=True`, and `json.loads`.

A dict is the list of its items, in the order in which the keys came.
`loads` refuses a number that is out of range, where Python would make it
infinite; no text that `dumps` or `encoding/json` writes holds one.
-/
import TdSandboxed.Lib.PyJson

namespace TdSandboxed.Lib

inductive PyValue
  | null
  | bool (b : Bool)
  | int (n : ℤ)
  | float (x : Float64)
  | str (s : List Char)
  | list (items : List PyValue)
  | dict (items : List (List Char × PyValue))

namespace PyValue

/-! ## Writing -/

mutual

def toTree : PyValue → JsonTree
  | .null => .null
  | .bool b => .bool b
  | .int n => .number (intNumber n)
  | .float x => .number (pyNumber x)
  | .str s => .string s
  | .list vs => .array (toTrees vs)
  | .dict ms => .object (toMembers ms)

def toTrees : List PyValue → List JsonTree
  | [] => []
  | v :: vs => v.toTree :: toTrees vs

def toMembers : List (List Char × PyValue) → List (List Char × JsonTree)
  | [] => []
  | (k, v) :: ms => (k, v.toTree) :: toMembers ms

end

/-- Puts an item before the first with a greater key. -/
def insertKey (k : List Char) (v : PyValue) : List (List Char × PyValue) → List (List Char × PyValue)
  | [] => [(k, v)]
  | (l, w) :: ms => if k < l then (k, v) :: (l, w) :: ms else (l, w) :: insertKey k v ms

mutual

def sortKeys : PyValue → PyValue
  | .list vs => .list (sortItems vs)
  | .dict ms => .dict (sortMembers ms)
  | v => v

def sortItems : List PyValue → List PyValue
  | [] => []
  | v :: vs => v.sortKeys :: sortItems vs

def sortMembers : List (List Char × PyValue) → List (List Char × PyValue)
  | [] => []
  | (k, v) :: ms => insertKey k v.sortKeys (sortMembers ms)

end

/-- `json.dumps(_, indent=2, sort_keys=True)` -/
def dumps (v : PyValue) : List Char := pyIndented.value 0 v.sortKeys.toTree

/-! ## Reading -/

/-- The recursion limit. -/
def recursionLimit : ℕ := 1000

/-- `d[k] = v` -/
def setItem (k : List Char) (v : PyValue) : List (List Char × PyValue) → List (List Char × PyValue)
  | [] => [(k, v)]
  | (l, w) :: ms => if k = l then (l, v) :: ms else (l, w) :: setItem k v ms

/-- `d[k]`; `none` is a `KeyError`. -/
def itemOf (k : List Char) : List (List Char × PyValue) → Option PyValue
  | [] => none
  | (l, v) :: ms => if k = l then some v else itemOf k ms

/-- `parse_int` for a number without fraction and exponent. -/
def ofInt (n : JsonNumber) : PyValue := .int (if n.negative then -(n.digits : ℤ) else n.digits)

mutual

def ofTree : JsonTree → Option PyValue
  | .null => some .null
  | .bool b => some (.bool b)
  | .number n => if n.frac = none ∧ n.exp = none then some (ofInt n) else (parseFloat n).map .float
  | .string s => some (.str s)
  | .array vs => (ofTrees vs).map .list
  | .object ms => (ofMembers [] ms).map .dict

def ofTrees : List JsonTree → Option (List PyValue)
  | [] => some []
  | v :: vs => (ofTree v).bind fun v => (ofTrees vs).map (v :: ·)

def ofMembers (before : List (List Char × PyValue)) :
    List (List Char × JsonTree) → Option (List (List Char × PyValue))
  | [] => some before
  | (k, v) :: ms => (ofTree v).bind fun v => ofMembers (setItem k v before) ms

end

/-- `json.loads` -/
def loads (cs : List Char) : Option PyValue := (parse recursionLimit cs).bind ofTree

mutual

/-- No dict has a key twice. -/
def Keyed : PyValue → Prop
  | .null | .bool _ | .int _ | .float _ | .str _ => True
  | .list vs => KeyedItems vs
  | .dict ms => (ms.map Prod.fst).Nodup ∧ KeyedMembers ms

def KeyedItems : List PyValue → Prop
  | [] => True
  | v :: vs => v.Keyed ∧ KeyedItems vs

def KeyedMembers : List (List Char × PyValue) → Prop
  | [] => True
  | (_, v) :: ms => v.Keyed ∧ KeyedMembers ms

end

/-! ## Round trip -/

theorem setItem_of_not_mem (k : List Char) (v : PyValue) (ms : List (List Char × PyValue))
    (h : k ∉ ms.map Prod.fst) : setItem k v ms = ms ++ [(k, v)] := by
  induction ms with
  | nil => rfl
  | cons m ms ih =>
    obtain ⟨l, w⟩ := m
    obtain ⟨hne, hms⟩ := List.ne_and_not_mem_of_not_mem_cons h
    have hne : k ≠ l := hne
    rw [setItem, if_neg hne, ih hms, List.cons_append]

theorem ofTree_int (n : ℤ) : ofTree (.number (intNumber n)) = some (.int n) := by
  have hvalue : (if n < 0 then -(n.natAbs : ℤ) else n.natAbs) = n := by
    split <;> omega
  have hdigits : (intNumber n).digits = n.natAbs := by
    simp [intNumber, JsonNumber.digits, Nat.ofDigitChars_ten_toDigits]
  rw [ofTree, if_pos ⟨rfl, rfl⟩, ofInt, hdigits]
  simp only [intNumber, decide_eq_true_eq]
  rw [hvalue]

theorem pyNumber_marked (x : Float64) : ¬ ((pyNumber x).frac = none ∧ (pyNumber x).exp = none) := by
  unfold pyNumber
  dsimp only
  split
  · exact fun h => nomatch h.2
  · exact fun h => nomatch h.1

theorem magnitude_pyNumber (x : Float64) :
    (pyNumber x).magnitude =
      decimalValue (shortestDecimal x.magnitude).1 (shortestDecimal x.magnitude).2 := by
  unfold pyNumber
  dsimp only
  split
  · exact magnitude_scientificNumber ..
  · generalize (shortestDecimal x.magnitude).1 = d
    generalize (shortestDecimal x.magnitude).2 = k
    cases hfrac : (fixedNumber x.negative d k).frac with
    | some ds =>
      have hsame : { fixedNumber x.negative d k with frac := some ds } = fixedNumber x.negative d k := by
        rw [← hfrac]
      rw [Option.getD_some, hsame, magnitude_fixedNumber]
    | none =>
      -- the digit 0 after the point
      have hk : 0 ≤ k := (fixedNumber_frac x.negative d k).mp hfrac
      have hmagnitude := magnitude_fixedNumber x.negative d k
      obtain ⟨j, rfl⟩ := Int.eq_ofNat_of_zero_le hk
      rw [← hmagnitude]
      simp only [fixedNumber, if_pos hk, JsonNumber.magnitude, JsonNumber.digits, JsonNumber.exponent,
        Option.getD_some, Option.getD_none, List.append_nil, Nat.ofDigitChars_append,
        Nat.ofDigitChars_ten_toDigits, decimalValue]
      have hzero : Nat.ofDigitChars 10 ['0'] (d * 10 ^ (j : ℤ).toNat) = 10 * (d * 10 ^ (j : ℤ).toNat) := by
        simp [Nat.ofDigitChars_cons]
      rw [hzero]
      norm_num
      ring

theorem negative_pyNumber (x : Float64) : (pyNumber x).negative = x.negative := by
  simp only [pyNumber, scientificNumber, fixedNumber]
  split_ifs <;> rfl

theorem parseFloat_pyNumber (x : Float64) : parseFloat (pyNumber x) = some x := by
  unfold parseFloat
  simp only [negative_pyNumber]
  apply Float64.ofRat_eq
  rw [magnitude_pyNumber]
  exact round_shortestDecimal x.nonneg x.exact

mutual

theorem valid_toTree : ∀ v : PyValue, ∀ n ∈ v.toTree.numbers, n.Valid
  | .null, n, h => by cases h
  | .bool _, n, h => by cases h
  | .str _, n, h => by cases h
  | .int i, n, h => by
    obtain rfl := List.mem_singleton.mp h
    exact valid_intNumber i
  | .float x, n, h => by
    obtain rfl := List.mem_singleton.mp h
    exact valid_pyNumber x
  | .list vs, n, h => valid_toTrees vs n h
  | .dict ms, n, h => valid_toMembers ms n h

theorem valid_toTrees : ∀ vs : List PyValue, ∀ n ∈ JsonTree.numbersItems (toTrees vs), n.Valid
  | [], n, h => by cases h
  | v :: vs, n, h => by
    rcases List.mem_append.mp h with h | h
    · exact valid_toTree v n h
    · exact valid_toTrees vs n h

theorem valid_toMembers :
    ∀ ms : List (List Char × PyValue), ∀ n ∈ JsonTree.numbersMembers (toMembers ms), n.Valid
  | [], n, h => by cases h
  | (_, v) :: ms, n, h => by
    rcases List.mem_append.mp h with h | h
    · exact valid_toTree v n h
    · exact valid_toMembers ms n h

end

mutual

/-- **A value is made again from its text.** -/
theorem ofTree_toTree : ∀ v : PyValue, v.Keyed → ofTree v.toTree = some v
  | .null, _ => rfl
  | .bool _, _ => rfl
  | .int n, _ => ofTree_int n
  | .float x, _ => by
    rw [toTree, ofTree, if_neg (pyNumber_marked x), parseFloat_pyNumber, Option.map_some]
  | .str _, _ => rfl
  | .list vs, h => by rw [toTree, ofTree, ofTrees_toTrees vs h, Option.map_some]
  | .dict ms, ⟨hkeys, hms⟩ => by
    rw [toTree, ofTree, ofMembers_toMembers ms [] hms (by simpa using hkeys), List.nil_append,
      Option.map_some]

theorem ofTrees_toTrees : ∀ vs : List PyValue, KeyedItems vs → ofTrees (toTrees vs) = some vs
  | [], _ => rfl
  | v :: vs, ⟨hv, hvs⟩ => by
    rw [toTrees, ofTrees, ofTree_toTree v hv, Option.bind_some, ofTrees_toTrees vs hvs,
      Option.map_some]

theorem ofMembers_toMembers :
    ∀ (ms before : List (List Char × PyValue)), KeyedMembers ms →
      ((before ++ ms).map Prod.fst).Nodup → ofMembers before (toMembers ms) = some (before ++ ms)
  | [], before, _, _ => by rw [toMembers, ofMembers, List.append_nil]
  | (k, v) :: ms, before, ⟨hv, hms⟩, hkeys => by
    have hnew : k ∉ before.map Prod.fst := by
      rw [List.map_append] at hkeys
      intro hk
      exact (List.nodup_append.mp hkeys).2.2 k hk k (List.mem_cons_self ..) rfl
    have hsplit : before ++ (k, v) :: ms = (before ++ [(k, v)]) ++ ms := by simp
    rw [toMembers, ofMembers, ofTree_toTree v hv, Option.bind_some, setItem_of_not_mem k v before hnew,
      ofMembers_toMembers ms _ hms (hsplit ▸ hkeys), hsplit]

end

/-- **What was dumped is loaded again, its keys sorted.** -/
theorem loads_dumps {v : PyValue} (hkeyed : v.sortKeys.Keyed)
    (hdepth : v.sortKeys.toTree.depth ≤ recursionLimit) : loads v.dumps = some v.sortKeys := by
  rw [loads, dumps, Layout.parse_layout pyIndented_escapes _ _ (valid_toTree _), if_pos hdepth,
    Option.bind_some, ofTree_toTree _ hkeyed]

end PyValue

end TdSandboxed.Lib
