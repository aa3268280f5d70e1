/-
TdSandboxed.Lib.GoJson — values of Go's `any` and what `encoding/json`
makes of them.

`GoValue.toTree` is what `json.Marshal` writes, and `GoValue.ofTree` what
`json.Unmarshal` puts into an `any`: every number becomes a `float64`, and
a map keeps the last value of a key. A map is the list of its members in
the order of their keys, which is also the order in which it is written.

`GoValue.Json` holds of the values that `Unmarshal` makes, and those come
back unchanged (`ofTree_toTree`).
-/
import TdSandboxed.Lib.JsonText
import Mathlib.Data.Char
import Mathlib.Data.List.Lex

namespace TdSandboxed.Lib

/-- The limit of `encoding/json` on nested arrays and objects. -/
def maxNestingDepth : ℕ := 10000

/-! ## Strings -/

def htmlEscaped (c : Char) : Bool :=
  c = '<' || c = '>' || c = '&' || c = '\u2028' || c = '\u2029'

/-- `appendString`, one character. -/
def goEscape (c : Char) : List Char :=
  match shortEscape c with
  | some e => ['\\', e]
  | none => if c < ' ' ∨ htmlEscaped c then unicodeEscape c.toNat else [c]

def goCompact : Layout := { esc := goEscape, indent := none }

def goIndented : Layout := { esc := goEscape, indent := some 2 }

theorem goEscape_escapes {c : Char} {rest : List Char} :
    readChar (goEscape c ++ rest) = some (c, rest) := by
  unfold goEscape
  cases h : shortEscape c with
  | some e => exact readChar_shortEscape h rest
  | none =>
    dsimp only
    split
    · rename_i hc
      apply readChar_unicodeEscape
      rcases hc with hc | hc
      · have hlt : c.toNat < ' '.toNat := hc
        exact hlt.trans (by decide)
      · simp only [htmlEscaped, Bool.or_eq_true, decide_eq_true_eq] at hc
        rcases hc with (((rfl | rfl) | rfl) | rfl) | rfl <;> decide
    · rename_i hc
      exact readChar_plain h (fun hlt => hc (.inl hlt)) rest

theorem goCompact_escapes : goCompact.Escapes := fun _ _ => goEscape_escapes

theorem goIndented_escapes : goIndented.Escapes := fun _ _ => goEscape_escapes

/-! ## Numbers -/

/-- The constant `1e-6`, a `float64` itself. -/
def millionth : ℚ := (roundFloat64 (1 / 10 ^ 6)).getD 0

/-- `floatEncoder` -/
def goNumber (x : Float64) : JsonNumber :=
  let s := shortestDecimal x.magnitude
  if x.magnitude ≠ 0 ∧ (x.magnitude < millionth ∨ 10 ^ 21 ≤ x.magnitude) then
    scientificNumber 1 x.negative s.1 s.2
  else fixedNumber x.negative s.1 s.2

theorem valid_goNumber (x : Float64) : (goNumber x).Valid := by
  unfold goNumber
  dsimp only
  split
  · exact valid_scientificNumber ..
  · exact valid_fixedNumber ..

/-- `convertNumber`; `none` is out of range. -/
def parseFloat (n : JsonNumber) : Option Float64 :=
  Float64.ofRat n.negative n.magnitude (decimalValue_nonneg _ _)

theorem negative_goNumber (x : Float64) : (goNumber x).negative = x.negative := by
  simp only [goNumber, scientificNumber, fixedNumber]
  split_ifs <;> rfl

theorem magnitude_goNumber (x : Float64) :
    (goNumber x).magnitude =
      decimalValue (shortestDecimal x.magnitude).1 (shortestDecimal x.magnitude).2 := by
  unfold goNumber
  dsimp only
  split
  · exact magnitude_scientificNumber ..
  · exact magnitude_fixedNumber ..

/-- **A float is read back from its text.** -/
theorem parseFloat_goNumber (x : Float64) : parseFloat (goNumber x) = some x := by
  unfold parseFloat
  simp only [negative_goNumber]
  apply Float64.ofRat_eq
  rw [magnitude_goNumber]
  exact round_shortestDecimal x.nonneg x.exact

/-! ## Values -/

/-- `any`, with the types that JSON has and Go's `int`. -/
inductive GoValue
  | null
  | bool (b : Bool)
  | number (x : Float64)
  | int (n : ℤ)
  | string (s : List Char)
  | array (items : List GoValue)
  | object (members : List (List Char × GoValue))

namespace GoValue

mutual

def toTree : GoValue → JsonTree
  | .null => .null
  | .bool b => .bool b
  | .number x => .number (goNumber x)
  | .int n => .number (intNumber n)
  | .string s => .string s
  | .array vs => .array (toTrees vs)
  | .object ms => .object (toMembers ms)

def toTrees : List GoValue → List JsonTree
  | [] => []
  | v :: vs => v.toTree :: toTrees vs

def toMembers : List (List Char × GoValue) → List (List Char × JsonTree)
  | [] => []
  | (k, v) :: ms => (k, v.toTree) :: toMembers ms

end

/-- `m[k] = v` -/
def setMember (k : List Char) (v : GoValue) : List (List Char × GoValue) → List (List Char × GoValue)
  | [] => [(k, v)]
  | (l, w) :: ms =>
    if k = l then (k, v) :: ms else if k < l then (k, v) :: (l, w) :: ms else (l, w) :: setMember k v ms

mutual

def ofTree : JsonTree → Option GoValue
  | .null => some .null
  | .bool b => some (.bool b)
  | .number n => (parseFloat n).map .number
  | .string s => some (.string s)
  | .array vs => (ofTrees vs).map .array
  | .object ms => (ofMembers [] ms).map .object

def ofTrees : List JsonTree → Option (List GoValue)
  | [] => some []
  | v :: vs => (ofTree v).bind fun v => (ofTrees vs).map (v :: ·)

/-- The members that follow, on top of those read before. -/
def ofMembers (before : List (List Char × GoValue)) :
    List (List Char × JsonTree) → Option (List (List Char × GoValue))
  | [] => some before
  | (k, v) :: ms => (ofTree v).bind fun v => ofMembers (setMember k v before) ms

end

mutual

/-- A value that `json.Unmarshal` makes: no `int`, and maps in order. -/
def Json : GoValue → Prop
  | .null | .bool _ | .number _ | .string _ => True
  | .int _ => False
  | .array vs => JsonItems vs
  | .object ms => (ms.map Prod.fst).Pairwise (· < ·) ∧ JsonMembers ms

def JsonItems : List GoValue → Prop
  | [] => True
  | v :: vs => v.Json ∧ JsonItems vs

def JsonMembers : List (List Char × GoValue) → Prop
  | [] => True
  | (_, v) :: ms => v.Json ∧ JsonMembers ms

end

mutual

theorem valid_toTree : ∀ v : GoValue, ∀ n ∈ v.toTree.numbers, n.Valid
  | .null, n, h => by cases h
  | .bool _, n, h => by cases h
  | .string _, n, h => by cases h
  | .number x, n, h => by
    obtain rfl := List.mem_singleton.mp h
    exact valid_goNumber x
  | .int i, n, h => by
    obtain rfl := List.mem_singleton.mp h
    exact valid_intNumber i
  | .array vs, n, h => valid_toTrees vs n h
  | .object ms, n, h => valid_toMembers ms n h

theorem valid_toTrees : ∀ vs : List GoValue, ∀ n ∈ JsonTree.numbersItems (toTrees vs), n.Valid
  | [], n, h => by cases h
  | v :: vs, n, h => by
    rcases List.mem_append.mp h with h | h
    · exact valid_toTree v n h
    · exact valid_toTrees vs n h

theorem valid_toMembers :
    ∀ ms : List (List Char × GoValue), ∀ n ∈ JsonTree.numbersMembers (toMembers ms), n.Valid
  | [], n, h => by cases h
  | (_, v) :: ms, n, h => by
    rcases List.mem_append.mp h with h | h
    · exact valid_toTree v n h
    · exact valid_toMembers ms n h

end

/-! ## Round trip -/

/-- A key after all others goes to the end. -/
theorem setMember_of_lt (k : List Char) (v : GoValue) (ms : List (List Char × GoValue))
    (h : ∀ m ∈ ms, m.1 < k) : setMember k v ms = ms ++ [(k, v)] := by
  induction ms with
  | nil => rfl
  | cons m ms ih =>
    obtain ⟨l, w⟩ := m
    have hl : l < k := h _ (List.mem_cons_self ..)
    have hms := ih fun m hm => h m (List.mem_cons_of_mem _ hm)
    rw [setMember, if_neg hl.ne', if_neg hl.asymm, hms, List.cons_append]

mutual

/-- **A value that `Unmarshal` makes is made again from its text.** -/
theorem ofTree_toTree : ∀ v : GoValue, v.Json → ofTree v.toTree = some v
  | .null, _ => rfl
  | .bool _, _ => rfl
  | .number x, _ => by rw [toTree, ofTree, parseFloat_goNumber, Option.map_some]
  | .string _, _ => rfl
  | .array vs, h => by rw [toTree, ofTree, ofTrees_toTrees vs h, Option.map_some]
  | .object ms, ⟨hsorted, hms⟩ => by
    rw [toTree, ofTree, ofMembers_toMembers ms [] hms (by simpa using hsorted), List.nil_append,
      Option.map_some]

theorem ofTrees_toTrees : ∀ vs : List GoValue, JsonItems vs → ofTrees (toTrees vs) = some vs
  | [], _ => rfl
  | v :: vs, ⟨hv, hvs⟩ => by
    rw [toTrees, ofTrees, ofTree_toTree v hv, Option.bind_some, ofTrees_toTrees vs hvs,
      Option.map_some]

theorem ofMembers_toMembers :
    ∀ (ms before : List (List Char × GoValue)), JsonMembers ms →
      ((before ++ ms).map Prod.fst).Pairwise (· < ·) →
        ofMembers before (toMembers ms) = some (before ++ ms)
  | [], before, _, _ => by rw [toMembers, ofMembers, List.append_nil]
  | (k, v) :: ms, before, ⟨hv, hms⟩, hsorted => by
    have hlt : ∀ m ∈ before, m.1 < k := by
      intro m hm
      rw [List.map_append] at hsorted
      exact (List.pairwise_append.mp hsorted).2.2 m.1 (List.mem_map_of_mem hm) k (List.mem_cons_self ..)
    have hsplit : before ++ (k, v) :: ms = (before ++ [(k, v)]) ++ ms := by simp
    rw [toMembers, ofMembers, ofTree_toTree v hv, Option.bind_some, setMember_of_lt k v before hlt,
      ofMembers_toMembers ms _ hms (hsplit ▸ hsorted), hsplit]

end

end GoValue

end TdSandboxed.Lib
