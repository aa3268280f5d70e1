/-
TdSandboxed.Lib.PyRepr — `repr` of a text.

Characters beyond ASCII are taken to be printable ones.
-/
import Mathlib.Data.List.Basic

namespace TdSandboxed.Lib

/-- The single quote, or the double one where the text has single ones
only. -/
def reprQuote (cs : List Char) : Char :=
  let single := Char.ofNat 39
  if single ∈ cs ∧ '"' ∉ cs then '"' else single

/-- A character between the quotes. -/
def reprChar (quote c : Char) : List Char :=
  if c = quote ∨ c = '\\' then ['\\', c]
  else if c = '\n' then ['\\', 'n']
  else if c = '\r' then ['\\', 'r']
  else if c = '\t' then ['\\', 't']
  else if c < ' ' ∨ c.toNat = 127 then
    ['\\', 'x', (c.toNat / 16).digitChar, (c.toNat % 16).digitChar]
  else [c]

/-- `repr(text)` -/
def pyRepr (text : String) : String :=
  let quote := reprQuote text.toList
  String.ofList (quote :: (text.toList.flatMap (reprChar quote) ++ [quote]))

end TdSandboxed.Lib
