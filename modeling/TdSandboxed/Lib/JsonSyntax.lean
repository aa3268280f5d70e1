/-
TdSandboxed.Lib.JsonSyntax — JSON texts and the trees they are read as.

A number stays its parts, because readers disagree on what it is (an exact
integer, a 64-bit float); `JsonNumber.magnitude` is its exact value. A
string is the characters it stands for. Where an escape names half of a
surrogate pair alone, the reader puts U+FFFD.

`parse` takes a bound on the nesting. Its recursion is on fuel, and
`parse_layout` in `JsonLayout` shows that it never runs out on a text that
a printer wrote.
-/
import TdSandboxed.Lib.Float64

namespace TdSandboxed.Lib

/-! ## Numbers -/

/-- The parts of a number: `-`, the integer digits, the digits after the
point, and the exponent with its sign. -/
structure JsonNumber where
  negative : Bool
  int : List Char
  frac : Option (List Char) := none
  exp : Option (Bool × List Char) := none
  deriving DecidableEq

namespace JsonNumber

def fracText : Option (List Char) → List Char
  | none => []
  | some ds => '.' :: ds

def expText : Option (Bool × List Char) → List Char
  | none => []
  | some (negative, ds) => 'e' :: (if negative then '-' else '+') :: ds

def text (n : JsonNumber) : List Char :=
  (if n.negative then ['-'] else []) ++ (n.int ++ (fracText n.frac ++ expText n.exp))

/-- The integer digits and those after the point, as one number. -/
def digits (n : JsonNumber) : ℕ := Nat.ofDigitChars 10 (n.int ++ n.frac.getD []) 0

/-- The power of ten of the last digit. -/
def exponent (n : JsonNumber) : ℤ :=
  (match n.exp with
    | none => 0
    | some (true, ds) => -(Nat.ofDigitChars 10 ds 0 : ℤ)
    | some (false, ds) => Nat.ofDigitChars 10 ds 0) - (n.frac.getD []).length

def magnitude (n : JsonNumber) : ℚ := decimalValue n.digits n.exponent

/-- No leading zero, and digits wherever there must be some. -/
structure Valid (n : JsonNumber) : Prop where
  int : n.int = ['0'] ∨ ∃ c cs, n.int = c :: cs ∧ c ≠ '0' ∧ ∀ d ∈ c :: cs, d.isDigit
  frac : ∀ ds ∈ n.frac, ds ≠ [] ∧ ∀ d ∈ ds, d.isDigit
  exp : ∀ e ∈ n.exp, e.2 ≠ [] ∧ ∀ d ∈ e.2, d.isDigit

end JsonNumber

/-! ## Trees -/

inductive JsonTree
  | null
  | bool (b : Bool)
  | number (n : JsonNumber)
  | string (s : List Char)
  | array (items : List JsonTree)
  | object (members : List (List Char × JsonTree))

/-! ## Reading -/

def isJsonSpace (c : Char) : Bool := c = ' ' || c = '\t' || c = '\n' || c = '\r'

def skipSpace (cs : List Char) : List Char := cs.dropWhile isJsonSpace

/-- What is left of a text that starts with `word`. -/
def expect (word cs : List Char) : Option (List Char) :=
  if word <+: cs then some (cs.drop word.length) else none

/-- One or more digits. -/
def scanDigits (cs : List Char) : Option (List Char × List Char) :=
  let ds := cs.takeWhile Char.isDigit
  if ds = [] then none else some (ds, cs.dropWhile Char.isDigit)

def scanInt : List Char → Option (List Char × List Char)
  | [] => none
  | c :: cs => if c = '0' then some (['0'], cs) else scanDigits (c :: cs)

def scanFrac : List Char → Option (Option (List Char) × List Char)
  | [] => some (none, [])
  | c :: cs =>
    if c = '.' then (scanDigits cs).map fun p => (some p.1, p.2) else some (none, c :: cs)

/-- The sign of an exponent. -/
def scanSign : List Char → Bool × List Char
  | [] => (false, [])
  | c :: cs => if c = '-' then (true, cs) else if c = '+' then (false, cs) else (false, c :: cs)

def scanExp : List Char → Option (Option (Bool × List Char) × List Char)
  | [] => some (none, [])
  | c :: cs =>
    if c = 'e' ∨ c = 'E' then
      (scanDigits (scanSign cs).2).map fun p => (some ((scanSign cs).1, p.1), p.2)
    else some (none, c :: cs)

def scanUnsigned (negative : Bool) (cs : List Char) : Option (JsonNumber × List Char) :=
  (scanInt cs).bind fun i =>
    (scanFrac i.2).bind fun f =>
      (scanExp f.2).map fun e => ({ negative, int := i.1, frac := f.1, exp := e.1 }, e.2)

def scanNumber : List Char → Option (JsonNumber × List Char)
  | [] => none
  | c :: cs => if c = '-' then scanUnsigned true cs else scanUnsigned false (c :: cs)

def hexValue (c : Char) : Option ℕ :=
  if '0' ≤ c ∧ c ≤ '9' then some (c.toNat - 48)
  else if 'a' ≤ c ∧ c ≤ 'f' then some (c.toNat - 87)
  else if 'A' ≤ c ∧ c ≤ 'F' then some (c.toNat - 55)
  else none

/-- Four hexadecimal digits. -/
def readHex : List Char → Option (ℕ × List Char)
  | a :: b :: c :: d :: cs =>
    (hexValue a).bind fun a => (hexValue b).bind fun b => (hexValue c).bind fun c =>
      (hexValue d).map fun d => (((a * 16 + b) * 16 + c) * 16 + d, cs)
  | _ => none

/-- The second half of a surrogate pair. -/
def readLowSurrogate : List Char → Option (ℕ × List Char)
  | '\\' :: 'u' :: cs => (readHex cs).filter fun p => 0xDC00 ≤ p.1 ∧ p.1 < 0xE000
  | _ => none

/-- What follows `\u`. -/
def readUnicode (cs : List Char) : Option (Char × List Char) :=
  (readHex cs).map fun (n, cs) =>
    if 0xD800 ≤ n ∧ n < 0xDC00 then
      match readLowSurrogate cs with
      | some (m, cs) => (Char.ofNat (0x10000 + (n - 0xD800) * 0x400 + (m - 0xDC00)), cs)
      | none => ('\uFFFD', cs)
    else if 0xDC00 ≤ n ∧ n < 0xE000 then ('\uFFFD', cs)
    else (Char.ofNat n, cs)

def simpleEscape (c : Char) : Option Char :=
  if c = '"' ∨ c = '\\' ∨ c = '/' then some c
  else if c = 'b' then some '\x08'
  else if c = 'f' then some '\x0c'
  else if c = 'n' then some '\n'
  else if c = 'r' then some '\r'
  else if c = 't' then some '\t'
  else none

/-- What follows a backslash. -/
def readEscape : List Char → Option (Char × List Char)
  | [] => none
  | e :: cs => if e = 'u' then readUnicode cs else (simpleEscape e).map fun c => (c, cs)

/-- One character of a string. -/
def readChar : List Char → Option (Char × List Char)
  | [] => none
  | c :: cs =>
    if c = '\\' then readEscape cs
    else if c = '"' ∨ c < ' ' then none
    else some (c, cs)

/-- A string after its opening quote. -/
def readString : ℕ → List Char → Option (List Char × List Char)
  | 0, _ => none
  | fuel + 1, cs =>
    if cs.head? = some '"' then some ([], cs.tail)
    else (readChar cs).bind fun p => (readString fuel p.2).map fun q => (p.1 :: q.1, q.2)

mutual

/-- A value, and what is left of the text. Each `[` and `{` takes one from
the depth. -/
def parseValue : ℕ → ℕ → List Char → Option (JsonTree × List Char)
  | 0, _, _ => none
  | fuel + 1, depth, cs =>
    match skipSpace cs with
    | [] => none
    | c :: cs =>
      if c = '"' then (readString (cs.length + 1) cs).map fun p => (.string p.1, p.2)
      else if c = '[' then
        match depth with
        | 0 => none
        | depth + 1 =>
          if (skipSpace cs).head? = some ']' then some (.array [], (skipSpace cs).tail)
          else (parseItems fuel depth cs).map fun p => (.array p.1, p.2)
      else if c = '{' then
        match depth with
        | 0 => none
        | depth + 1 =>
          if (skipSpace cs).head? = some '}' then some (.object [], (skipSpace cs).tail)
          else (parseMembers fuel depth cs).map fun p => (.object p.1, p.2)
      else if c = 'n' then (expect ['u', 'l', 'l'] cs).map fun cs => (.null, cs)
      else if c = 't' then (expect ['r', 'u', 'e'] cs).map fun cs => (.bool true, cs)
      else if c = 'f' then (expect ['a', 'l', 's', 'e'] cs).map fun cs => (.bool false, cs)
      else (scanNumber (c :: cs)).map fun p => (.number p.1, p.2)

/-- The items of an array that has some, and its closing bracket. -/
def parseItems : ℕ → ℕ → List Char → Option (List JsonTree × List Char)
  | 0, _, _ => none
  | fuel + 1, depth, cs =>
    (parseValue fuel depth cs).bind fun p =>
      match skipSpace p.2 with
      | [] => none
      | c :: cs =>
        if c = ',' then (parseItems fuel depth cs).map fun q => (p.1 :: q.1, q.2)
        else if c = ']' then some ([p.1], cs)
        else none

/-- The members of an object that has some, and its closing brace. -/
def parseMembers : ℕ → ℕ → List Char → Option (List (List Char × JsonTree) × List Char)
  | 0, _, _ => none
  | fuel + 1, depth, cs =>
    (expect ['"'] (skipSpace cs)).bind fun cs =>
      (readString (cs.length + 1) cs).bind fun k =>
        (expect [':'] (skipSpace k.2)).bind fun cs =>
          (parseValue fuel depth cs).bind fun p =>
            match skipSpace p.2 with
            | [] => none
            | c :: cs =>
              if c = ',' then (parseMembers fuel depth cs).map fun q => ((k.1, p.1) :: q.1, q.2)
              else if c = '}' then some ([(k.1, p.1)], cs)
              else none

end

/-- A whole text, nested at most `depth` deep. -/
def parse (depth : ℕ) (cs : List Char) : Option JsonTree :=
  (parseValue (2 * cs.length + 2) depth cs).bind fun p => if skipSpace p.2 = [] then some p.1 else none

end TdSandboxed.Lib
