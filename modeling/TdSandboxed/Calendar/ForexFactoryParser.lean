/-
TdSandboxed.Calendar.ForexFactoryParser — the parser of the weekly feed
(`calendar/forex_factory_parser.py`).

A payload is what the XML library makes of it: a root element, a parse
error, or another exception, which the parser does not catch. Each event
element is read by itself, and one that does not read is left out, so a
payload without a readable event is an empty list like a payload without
events.

Dates and times are read as `strptime` reads the formats of the source.
Digits and letter case are those of ASCII.
-/
import TdSandboxed.Rules.NewsBlackout

namespace TdSandboxed

/-! ## Elements -/

inductive XmlElement
  | mk (tag : String) (text : Option String) (children : List XmlElement)

namespace XmlElement

def tag : XmlElement → String
  | mk t _ _ => t

def text : XmlElement → Option String
  | mk _ t _ => t

def children : XmlElement → List XmlElement
  | mk _ _ cs => cs

/-- `_text`: the text of the first child of the tag. -/
def childText (elem : XmlElement) (tag : String) : Option String :=
  (elem.children.find? (·.tag = tag)).bind fun child =>
    let text := strip (child.text.getD "")
    if text = "" then none else some text

end XmlElement

/-- What the XML library makes of the raw text. -/
inductive Payload
  | root (element : XmlElement)
  | parseError
  | other (exception : PyException)

/-! ## Dates and times -/

namespace ForexFactory

/-- A field of one or two digits in a range. -/
def field (lo hi : ℕ) (text : List Char) : Option ℕ :=
  (digitsValue text).filter fun n => text.length ≤ 2 ∧ lo ≤ n ∧ n ≤ hi

/-- `%d` also reads a blank and a digit. -/
def dayField : List Char → Option ℕ
  | [' ', d] => field 1 9 [d]
  | text => field 1 31 text

def yearField (text : List Char) : Option ℕ :=
  (digitsValue text).filter fun n => text.length = 4 ∧ 1 ≤ n

def isLeap (year : ℕ) : Bool := year % 4 = 0 ∧ (year % 100 ≠ 0 ∨ year % 400 = 0)

def daysInMonth (year month : ℕ) : ℕ :=
  match month with
  | 2 => if isLeap year then 29 else 28
  | 4 | 6 | 9 | 11 => 30
  | _ => 31

/-- `date.toordinal` -/
def toordinal (year month day : ℕ) : ℕ :=
  let y := year - 1
  y * 365 + y / 4 - y / 100 + y / 400 +
    ((List.range' 1 (month - 1)).map (daysInMonth year)).sum + day

/-- The ordinal of a date, if there is such a date. -/
def date (year month day : List Char) : Option ℕ :=
  (yearField year).bind fun y => (field 1 12 month).bind fun m =>
    ((dayField day).filter (· ≤ daysInMonth y m)).map fun d => toordinal y m d

/-- `_parse_date`: `%m-%d-%Y`, then `%Y-%m-%d`. -/
def parseDate (raw : String) : Option ℕ :=
  match (strip raw).toList.splitOn '-' with
  | [a, b, c] => (date c a b).or (date a b c)
  | _ => none

/-- `%I:%M%p` -/
def clock12 (hour rest : List Char) : Option (ℕ × ℕ) :=
  let minute := rest.take (rest.length - 2)
  let half := rest.drop (rest.length - 2)
  (field 1 12 hour).bind fun h => (field 0 59 minute).bind fun m =>
    if half = ['a', 'm'] then some (h % 12, m)
    else if half = ['p', 'm'] then some (h % 12 + 12, m)
    else none

/-- `%H:%M` -/
def clock24 (hour minute : List Char) : Option (ℕ × ℕ) :=
  (field 0 23 hour).bind fun h => (field 0 59 minute).map fun m => (h, m)

/-- `_parse_time` -/
def parseTime (raw : String) : Option (ℕ × ℕ) :=
  let raw := (strip raw).toLower
  if raw = "" ∨ raw ∈ ["all day", "tentative", "n/a"] then none
  else
    match raw.toList.splitOn ':' with
    | [hour, rest] => (clock12 hour rest).or (clock24 hour rest)
    | _ => none

/-- `date(1970, 1, 1).toordinal()` -/
def epochOrdinal : ℕ := 719163

/-- `_parse_datetime`. An event of no precise time has none. -/
def parseDatetime (dateRaw : String) (timeRaw : Option String) : Option ℚ :=
  (parseDate dateRaw).bind fun day => (timeRaw.bind parseTime).map fun (hour, minute) =>
    ((day : ℚ) - epochOrdinal) * 86400 + hour * 3600 + minute * 60

/-! ## The feed -/

/-- `_iter_events` -/
def iterEvents (root : XmlElement) : List XmlElement :=
  if root.tag.toLower = "event" then [root]
  else root.children.filter (·.tag.toLower = "event")

/-- `_parse_event` -/
def parseEvent (elem : XmlElement) : Option CalendarEvent :=
  match elem.childText "title", elem.childText "country", elem.childText "date" with
  | some title, some country, some dateRaw =>
    (parseDatetime dateRaw (elem.childText "time")).map fun start =>
      { title := strip title, country := strip country, start,
        impact := normaliseImpact ((elem.childText "impact").getD "low") }
  | _, _, _ => none

/-- `parse_forex_factory_xml` -/
def parseXml : Payload → Except PyException (List CalendarEvent)
  | .root element => .ok ((iterEvents element).filterMap parseEvent)
  | .parseError => .ok []
  | .other e => .error e

/-- A payload reads as nothing when it is no XML, and when none of its
events reads. -/
theorem parseXml_eq_nil_iff {p : Payload} :
    parseXml p = .ok [] ↔
      p = .parseError ∨ ∃ root, p = .root root ∧ ∀ e ∈ iterEvents root, parseEvent e = none := by
  cases p with
  | root element =>
    simp only [parseXml, Except.ok.injEq, List.filterMap_eq_nil_iff, reduceCtorEq, false_or,
      Payload.root.injEq, exists_eq_left']
  | parseError => simp [parseXml]
  | other e => simp [parseXml]

/-- Twelve is the first hour of each half of the day. -/
example : [parseTime "12:05am", parseTime "12:05PM", parseTime "8:30am", parseTime "24:00"] =
    [some (0, 5), some (12, 5), some (8, 30), none] := by decide +kernel

end ForexFactory

end TdSandboxed
