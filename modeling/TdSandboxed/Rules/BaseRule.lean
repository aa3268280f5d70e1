/-
TdSandboxed.Rules.BaseRule — the rule protocol and the dictionaries rules
read (`rules/base_rule.py`).

* A context is a Python dict with string keys. It is a list of pairs here;
  the first pair with a key is the one that counts, so `dict.update` puts
  the newer pairs in front.
* A rule is any object with `validate`. It is a structure whose `validate`
  may raise, so a rule list may mix the types of `rules/types` with any
  other code.
* Numbers in a context are floats, ints or Decimals; every rule converts
  them to float before it compares, so they are one constructor. Comparing
  anything else with a number raises TypeError. The infinities and NaN are
  left out.
* A dict from dates to profits is `history`: the day's number and what
  `float` makes of its profit. Any other object is `object`, with the name
  of its type and its truth value.

`fmtFixed` is `f"{x:.<d>f}"` and `pyFloat` is `str(x)` of a float, for the
message texts. A number whose decimal expansion does not end is printed
with 16 decimals. `floatOfText` is `float(text)`, for the digits of ASCII.
-/
import Mathlib.Data.List.DropRight
import Mathlib.Data.List.Sort
import Mathlib.Data.Rat.Floor
import TdSandboxed.Adapters.ZmqModels
import TdSandboxed.Lib.PyRepr

namespace TdSandboxed

/-! ## Python values -/

inductive Value
  | none
  | num (q : ℚ)
  | str (s : String)
  | time (t : ℚ)
  | order (o : Order)
  | history (days : List (ℤ × Option ℚ))
  | object (typeName : String) (truthy : Bool)
  deriving DecidableEq

def Value.typeName : Value → String
  | .none => "NoneType"
  | .num _ => "float"
  | .str _ => "str"
  | .time _ => "datetime"
  | .order _ => "Order"
  | .history _ => "dict"
  | .object name _ => name

/-- `bool(value)` -/
def Value.truthy : Value → Bool
  | .none => false
  | .num q => q ≠ 0
  | .str s => s ≠ ""
  | .time _ | .order _ => true
  | .history days => days ≠ []
  | .object _ truthy => truthy

/-- An exception a rule or a collaborator may raise, with its text. -/
inductive PyException
  | keyError (text : String)
  | typeError (text : String)
  | valueError (text : String)
  | attributeError (text : String)
  | runtimeError (text : String)
  deriving DecidableEq

def PyException.text : PyException → String
  | .keyError t | .typeError t | .valueError t | .attributeError t | .runtimeError t => t

/-- A number, as arithmetic and comparisons require it. -/
def Value.toNum : Value → Except PyException ℚ
  | .num q => .ok q
  | v => .error (.typeError s!"unsupported operand type: '{v.typeName}'")

abbrev Dict := List (String × Value)

namespace Dict

def get? : Dict → String → Option Value
  | [], _ => .none
  | (k, v) :: d, key => if k = key then some v else get? d key

/-- `d.get(key, default)` -/
def getD (d : Dict) (key : String) (default : Value) : Value := (d.get? key).getD default

/-- `d.update(e)` -/
def update (d e : Dict) : Dict := e ++ d

@[simp] theorem getD_cons (k : String) (v : Value) (d : Dict) (key : String) (default : Value) :
    getD ((k, v) :: d) key default = if k = key then v else getD d key default := by
  simp only [getD, get?]
  split <;> rfl

@[simp] theorem get?_cons (k : String) (v : Value) (d : Dict) (key : String) :
    get? ((k, v) :: d) key = if k = key then some v else get? d key := rfl

end Dict

/-! ## Texts -/

def roundHalfEven (q : ℚ) : ℤ :=
  let f := ⌊q⌋
  if q - f < 1 / 2 then f else if 1 / 2 < q - f then f + 1 else if f % 2 = 0 then f else f + 1

def fmtFixed (decimals : ℕ) (q : ℚ) : String :=
  let n := (roundHalfEven (|q| * 10 ^ decimals)).toNat
  let frac := toString (n % 10 ^ decimals)
  (if q < 0 then "-" else "") ++ toString (n / 10 ^ decimals) ++
    if decimals = 0 then "" else "." ++ "".pushn '0' (decimals - frac.length) ++ frac

def pyFloat (q : ℚ) : String :=
  match (List.range 17).find? fun d => (q * 10 ^ d).den = 1 with
  | some d => fmtFixed (max d 1) q
  | .none => fmtFixed 16 q

/-- `c.isspace()` -/
def isPySpace (c : Char) : Bool :=
  let n := c.toNat
  (9 ≤ n && n ≤ 13) || (0x1C ≤ n && n ≤ 0x20) || n = 0x85 || n = 0xA0 || n = 0x1680 ||
    (0x2000 ≤ n && n ≤ 0x200A) || n = 0x2028 || n = 0x2029 || n = 0x202F || n = 0x205F || n = 0x3000

/-- `text.strip()` -/
def strip (text : String) : String :=
  String.ofList ((text.toList.dropWhile isPySpace).rdropWhile isPySpace)

/-- The number of a run of digits, if there is one. -/
def digitsValue (cs : List Char) : Option ℕ :=
  if cs ≠ [] ∧ cs.all Char.isDigit then
    some (cs.foldl (fun n c => 10 * n + (c.toNat - '0'.toNat)) 0)
  else none

def splitSign : List Char → ℚ × List Char
  | '-' :: cs => (-1, cs)
  | '+' :: cs => (1, cs)
  | cs => (1, cs)

/-- Digits with at most one point among or beside them. -/
def mantissaValue (cs : List Char) : Option ℚ :=
  let (whole, rest) := cs.span (· ≠ '.')
  match rest with
  | [] => (digitsValue whole).map (↑·)
  | _ :: fraction =>
    (digitsValue (whole ++ fraction)).map fun n => (n : ℚ) / 10 ^ fraction.length

/-- `float(text)`: blanks around it, a sign, a mantissa, and an exponent. -/
def floatOfText (text : String) : Option ℚ :=
  let (sign, unsigned) := splitSign (strip text).toList
  let (mantissa, rest) := unsigned.span fun c => c ≠ 'e' ∧ c ≠ 'E'
  match rest with
  | [] => (mantissaValue mantissa).map (sign * ·)
  | _ :: exponent =>
    let (expSign, digits) := splitSign exponent
    match mantissaValue mantissa, digitsValue digits with
    | some m, some e => some (if expSign < 0 then sign * m / 10 ^ e else sign * m * 10 ^ e)
    | _, _ => none

/-- `float(value)` -/
def Value.toFloat : Value → Except PyException ℚ
  | .num q => .ok q
  | .str s =>
    match floatOfText s with
    | some q => .ok q
    | .none => .error (.valueError s!"could not convert string to float: {Lib.pyRepr s}")
  | v => .error (.typeError
      s!"float() argument must be a string or a real number, not '{v.typeName}'")

/-- `text or default` -/
def pyOr (text : Option String) (default : String) : String :=
  match text with
  | some t => if t = "" then default else t
  | .none => default

/-! ## Rules -/

inductive RuleAction
  | allow
  | warn
  | block
  deriving DecidableEq, Repr

structure RuleResult where
  action : RuleAction := .allow
  message : Option String := none
  metadata : Dict := []
  currentValue : Option ℚ := none
  thresholdValue : Option ℚ := none

structure BaseRule where
  ruleType : String
  name : String
  priority : ℤ := 50
  validate : Dict → Except PyException RuleResult

/-- The rule stops an order in this context: it answers BLOCK, or it
raises and the engine is strict. -/
def BaseRule.Stops (strict : Bool) (r : BaseRule) (context : Dict) : Prop :=
  match r.validate context with
  | .ok result => result.action = .block
  | .error _ => strict = true

theorem BaseRule.stops_ok_iff {strict : Bool} {r : BaseRule} {context : Dict} {result : RuleResult}
    (h : r.validate context = .ok result) : r.Stops strict context ↔ result.action = .block := by
  simp [BaseRule.Stops, h]

theorem BaseRule.stops_error_iff {strict : Bool} {r : BaseRule} {context : Dict} {e : PyException}
    (h : r.validate context = .error e) : r.Stops strict context ↔ strict = true := by
  simp [BaseRule.Stops, h]

instance (strict : Bool) (r : BaseRule) (context : Dict) : Decidable (r.Stops strict context) :=
  match h : r.validate context with
  | .ok _ => decidable_of_iff _ (BaseRule.stops_ok_iff h).symm
  | .error _ => decidable_of_iff _ (BaseRule.stops_error_iff h).symm

end TdSandboxed
