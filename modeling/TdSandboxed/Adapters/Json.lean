/-
TdSandboxed.Adapters.Json — Python values that come out of a JSON text,
and what Python does with them.

A field of a message may hold any value, and each operation on it raises
an exception of its own kind for the values it does not take. The receive
loop catches some kinds only, so the kinds are told apart here.

What Python's library makes of a text (`json.loads`, `Decimal`, `int`) and
the text it makes of a value is a parameter, `PyLib`: every result holds
for any such functions.
-/
import Mathlib.Data.Rat.Defs

namespace TdSandboxed

/-- A kind of exception. -/
inductive ReceiveError
  | unicodeDecodeError
  | jsonDecodeError
  | keyError
  | valueError
  | typeError
  /-- `decimal.InvalidOperation`, an `ArithmeticError` -/
  | invalidOperation
  | overflowError
  | recursionError
  | zmqError
  | zmqAgain
  | other (name : String)
  deriving DecidableEq

/-- The instances of `ValueError`. -/
def ReceiveError.isValueError : ReceiveError → Bool
  | .unicodeDecodeError | .jsonDecodeError | .valueError => true
  | _ => false

inductive PyFloat
  | finite (q : ℚ)
  | infinite (negative : Bool)
  | nan
  deriving DecidableEq

namespace PyFloat

/-- `x <= 0` -/
def leZero : PyFloat → Bool
  | .finite q => q ≤ 0
  | .infinite negative => negative
  | .nan => false

/-- `x < y` -/
def lt : PyFloat → PyFloat → Bool
  | .finite p, .finite q => p < q
  | .infinite true, .finite _ | .finite _, .infinite false | .infinite true, .infinite false => true
  | _, _ => false

end PyFloat

/-- A value of `json.loads`. The keys of an object are different. -/
inductive Json
  | null
  | bool (b : Bool)
  | int (n : ℤ)
  | float (x : PyFloat)
  | str (s : String)
  | arr (items : List Json)
  | obj (fields : List (String × Json))

structure PyLib where
  /-- `json.loads` -/
  loads : String → Except ReceiveError Json
  /-- `Decimal` of a text; `none` is `InvalidOperation`. -/
  decimal : String → Option PyFloat
  /-- `int` of a text; `none` is `ValueError`. -/
  int : String → Option ℤ
  /-- `str` of a value that is not a text. -/
  str : Json → String

namespace Json

/-- `data[key]` -/
def getItem : Json → String → Except ReceiveError Json
  | .obj fields, key => (fields.lookup key).elim (.error .keyError) .ok
  | _, _ => .error .typeError

/-- `data.get(key, default)` -/
def get : Json → String → Json → Except ReceiveError Json
  | .obj fields, key, default => .ok ((fields.lookup key).getD default)
  | _, _, _ => .error (.other "AttributeError")

/-- The truth value. -/
def truthy : Json → Bool
  | .null => false
  | .bool b => b
  | .int n => n ≠ 0
  | .float (.finite q) => q ≠ 0
  | .float _ => true
  | .str s => s ≠ ""
  | .arr items => !items.isEmpty
  | .obj fields => !fields.isEmpty

/-- The number a value is in a comparison. -/
def number? : Json → Option PyFloat
  | .bool b => some (.finite (if b then 1 else 0))
  | .int n => some (.finite n)
  | .float x => some x
  | _ => none

/-- A value compared with a number; another value is a `TypeError`. -/
def number (j : Json) : Except ReceiveError PyFloat := j.number?.elim (.error .typeError) .ok

/-- Values that a dict can be asked for. -/
def hashable : Json → Bool
  | .arr _ | .obj _ => false
  | _ => true

/-- `for p in value` -/
def items : Json → Except ReceiveError (List Json)
  | .arr items => .ok items
  | .obj fields => .ok (fields.map fun f => .str f.1)
  | .str s => .ok (s.toList.map fun c => .str (String.singleton c))
  | _ => .error .typeError

end Json

namespace PyLib

/-- `Decimal(str(value))`: the text of a number is one of a Decimal, that
of `True`, `None` or a container is not. -/
def decimal? (lib : PyLib) : Json → Option PyFloat
  | .int n => some (.finite n)
  | .float x => some x
  | .str s => lib.decimal s
  | _ => none

def decimalOf (lib : PyLib) (j : Json) : Except ReceiveError PyFloat :=
  (lib.decimal? j).elim (.error .invalidOperation) .ok

/-- `int(value)` -/
def intOf (lib : PyLib) : Json → Except ReceiveError ℤ
  | .int n => .ok n
  | .bool b => .ok (if b then 1 else 0)
  | .float (.finite q) => .ok (q.num.tdiv q.den)
  | .float .nan => .error .valueError
  | .float (.infinite _) => .error .overflowError
  | .str s => (lib.int s).elim (.error .valueError) .ok
  | _ => .error .typeError

/-- `str(value)` -/
def strOf (lib : PyLib) : Json → String
  | .str s => s
  | j => lib.str j

end PyLib

/-- `bytes.decode()` -/
def decodeUtf8 (bytes : ByteArray) : Except ReceiveError String :=
  (String.fromUTF8? bytes).elim (.error .unicodeDecodeError) .ok

end TdSandboxed
