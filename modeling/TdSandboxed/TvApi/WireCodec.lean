/-
TdSandboxed.TvApi.WireCodec — TradingView's WebSocket protocol, as
`internal/protocol/parser.go` reads and writes it.

A message is a row of frames `~m~<length>~m~<payload>`. The writers count
the length; the reader does not look at it. It deletes `~h~` wherever it
stands, cuts the message at everything that looks like the head of a frame,
and reads each part that is left: blank parts are skipped, a number is a
ping, and the rest is JSON for a `Packet`, or is skipped as well.

`json.Unmarshal` into a `Packet` takes the members `m` and `p`, in either
case, ignores others, and fails as a whole when one has the wrong type;
`null` leaves a string as it is and makes a slice nil. A text without
UTF-8 errors is the list of its characters.
-/
import TdSandboxed.Lib.GoJson
import TdSandboxed.Lib.GoText
import TdSandboxed.Lib.Pieces

namespace TdSandboxed.TvApi.WireCodec

open Lib

structure Packet where
  /-- `json:"m,omitempty"` -/
  type : List Char
  /-- `json:"p,omitempty"`; `none` is the nil slice. -/
  data : Option (List GoValue)

/-! ## Writing -/

/-- `encoding/json` on a `Packet`: a member that is empty is left out. -/
def packetTree (p : Packet) : JsonTree :=
  .object
    ((if p.type = [] then [] else [(['m'], .string p.type)]) ++
      (if p.data.getD [] = [] then [] else [(['p'], .array (GoValue.toTrees (p.data.getD [])))]))

def marshalPacket (p : Packet) : List Char := goCompact.value 0 (packetTree p)

/-- `strconv.Itoa` -/
def itoa (n : ℤ) : List Char := (if n < 0 then ['-'] else []) ++ Nat.toDigits 10 n.natAbs

/-- `len` of a string -/
def byteLength (cs : List Char) : ℕ := (cs.map Char.utf8Size).sum

/-- `~m~<length>~m~` -/
def frameHead (payload : List Char) : List Char :=
  ['~', 'm', '~'] ++ (Nat.toDigits 10 (byteLength payload) ++ ['~', 'm', '~'])

def frame (payload : List Char) : List Char := frameHead payload ++ payload

def formatWSPacket (packet : Packet) : List Char := frame (marshalPacket packet)

def formatPingPacket (pingID : ℤ) : List Char := frame (itoa pingID)

def formatPongPacket (pingID : ℤ) : List Char := frame (['~', 'h', '~'] ++ itoa pingID)

/-! ## Reading -/

/-- `cleanerRegex` at the start of a text. -/
def cleanerMatch (cs : List Char) : ℕ := if ['~', 'h', '~'] <+: cs then 3 else 0

/-- `splitterRegex` at the start of a text. -/
def splitterMatch (cs : List Char) : ℕ :=
  let ds := (cs.drop 3).takeWhile Char.isDigit
  if ['~', 'm', '~'] <+: cs ∧ ds ≠ [] ∧ ['~', 'm', '~'] <+: (cs.drop 3).dropWhile Char.isDigit then
    ds.length + 6
  else 0

/-- `cleanerRegex.ReplaceAllString(message, "")` -/
def clean (message : List Char) : List Char := (pieces cleanerMatch message).flatten

/-- `strconv.Atoi` -/
def atoi (cs : List Char) : Option ℤ :=
  let digits := if cs.head? = some '-' ∨ cs.head? = some '+' then cs.tail else cs
  let n : ℤ := Nat.ofDigitChars 10 digits 0
  let n := if cs.head? = some '-' then -n else n
  if digits ≠ [] ∧ digits.all Char.isDigit ∧ -2 ^ 63 ≤ n ∧ n < 2 ^ 63 then some n else none

/-- One member of a packet. -/
def decodeField (p : Packet) (k : List Char) (v : JsonTree) : Option Packet :=
  if k = ['m'] ∨ k = ['M'] then
    match v with
    | .null => some p
    | .string s => some { p with type := s }
    | _ => none
  else if k = ['p'] ∨ k = ['P'] then
    match v with
    | .null => some { p with data := none }
    | .array vs => (GoValue.ofTrees vs).map fun vs => { p with data := some vs }
    | _ => none
  else some p

def decodeFields (p : Packet) : List (List Char × JsonTree) → Option Packet
  | [] => some p
  | (k, v) :: ms => (decodeField p k v).bind fun p => decodeFields p ms

/-- `json.Unmarshal` into an empty `Packet`. -/
def decodePacket : JsonTree → Option Packet
  | .null => some { type := [], data := none }
  | .object ms => decodeFields { type := [], data := none } ms
  | _ => none

def pingPacket (pingID : ℤ) : Packet := { type := ['p', 'i', 'n', 'g'], data := some [.int pingID] }

/-- One part of a message; `none` is skipped. -/
def parsePart (part : List Char) : Option Packet :=
  let part := trimSpace part
  if part = [] then none
  else
    match atoi part with
    | some pingID => some (pingPacket pingID)
    | none => (parse maxNestingDepth part).bind decodePacket

inductive WSError
  | emptyMessage
  deriving DecidableEq

def parseWSPacket (message : List Char) : Except WSError (List Packet) :=
  if message = [] then .error .emptyMessage
  else .ok ((pieces splitterMatch (clean message)).filterMap parsePart)

end TdSandboxed.TvApi.WireCodec
