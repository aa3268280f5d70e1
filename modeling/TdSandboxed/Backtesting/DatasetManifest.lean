/-
TdSandboxed.Backtesting.DatasetManifest — the receipt of a dataset, as
`backtesting/dataset/manifest.py` writes and loads it.

An aware `datetime` is held in UTC. What `str`, `int`, `float` and
`datetime.fromisoformat` do with other inputs than those written here, and
the digest of SHA-256, are left to a `PyLib`; `fromisoformat` undoes
`isoformat`.

`none` is an exception.
-/
import TdSandboxed.Calendar.ForexFactoryParser
import TdSandboxed.Lib.SharedJson

namespace TdSandboxed.Dataset

open Lib
open ForexFactory (daysInMonth toordinal)

/-! ## Datetimes -/

/-- A `datetime` in UTC. -/
structure UtcDatetime where
  year : ℕ
  month : ℕ
  day : ℕ
  hour : ℕ
  minute : ℕ
  second : ℕ
  microsecond : ℕ
  year_bounds : 1 ≤ year ∧ year ≤ 9999
  month_bounds : 1 ≤ month ∧ month ≤ 12
  day_bounds : 1 ≤ day ∧ day ≤ daysInMonth year month
  hour_lt : hour < 24
  minute_lt : minute < 60
  second_lt : second < 60
  microsecond_lt : microsecond < 1000000

/-- `f"{n:0{width}d}"` -/
def zeroPadded (width n : ℕ) : List Char := padZeros width (Nat.toDigits 10 n)

namespace UtcDatetime

/-- `datetime.isoformat` -/
def isoformat (d : UtcDatetime) : List Char :=
  zeroPadded 4 d.year ++ '-' :: (zeroPadded 2 d.month ++ '-' :: (zeroPadded 2 d.day ++
    'T' :: (zeroPadded 2 d.hour ++ ':' :: (zeroPadded 2 d.minute ++ ':' :: (zeroPadded 2 d.second ++
      ((if d.microsecond = 0 then [] else '.' :: zeroPadded 6 d.microsecond) ++ "+00:00".toList))))))

/-- Microseconds since the midnight before the year 1. -/
def instant (d : UtcDatetime) : ℕ :=
  (((toordinal d.year d.month d.day * 24 + d.hour) * 60 + d.minute) * 60 + d.second) * 1000000 +
    d.microsecond

end UtcDatetime

/-- `x / n`, for a float and a positive number. -/
def floatDiv (negative : Bool) (magnitude : ℚ) (h : 0 ≤ magnitude) (n : ℕ) : Option Float64 :=
  Float64.ofRat negative (magnitude / n) (div_nonneg h n.cast_nonneg)

/-- `(after - before).total_seconds() / 3600.0` -/
def durationHours (before after : UtcDatetime) : Option Float64 :=
  let microseconds : ℤ := after.instant - before.instant
  (floatDiv (microseconds < 0) microseconds.natAbs (Nat.cast_nonneg _) 1000000).bind fun seconds =>
    floatDiv seconds.negative seconds.magnitude seconds.nonneg 3600

inductive IsoDatetime
  | naive
  | aware (utc : UtcDatetime)

/-- What the module uses of the standard library. -/
structure PyLib where
  /-- `str` of what is no `str`. -/
  reprOf : PyValue → List Char
  /-- `int` of what is no `int`. -/
  intOf : PyValue → Option ℤ
  /-- `float` of what is no `float`. -/
  floatOf : PyValue → Option Float64
  fromisoformat : List Char → Option IsoDatetime
  fromisoformat_isoformat : ∀ d : UtcDatetime, fromisoformat d.isoformat = some (.aware d)
  /-- `hashlib.sha256(_.encode()).hexdigest()` -/
  hexdigest : String → String

namespace PyLib

variable (lib : PyLib)

def str : PyValue → List Char
  | .str s => s
  | v => lib.reprOf v

def int : PyValue → Option ℤ
  | .int n => some n
  | v => lib.intOf v

def float : PyValue → Option Float64
  | .float x => some x
  | v => lib.floatOf v

/-- `_parse_iso` -/
def parseIso : PyValue → Option UtcDatetime
  | .str value =>
    match lib.fromisoformat value with
    | some (.aware utc) => some utc
    | _ => none
  | _ => none

end PyLib

/-! ## Paths -/

/-- `PurePosixPath` -/
structure PosixPath where
  /-- The slashes of the root: none, one or two. -/
  root : ℕ
  tail : List (List Char)

def posixPath (raw : List Char) : PosixPath :=
  let slashes := (raw.takeWhile (· = '/')).length
  { root := if slashes = 0 then 0 else if slashes = 2 then 2 else 1
    tail := (raw.splitOn '/').filter fun part => part ≠ [] ∧ part ≠ ['.'] }

/-- `str(path)` -/
def PosixPath.text (p : PosixPath) : List Char :=
  let text := List.replicate p.root '/' ++ List.intercalate ['/'] p.tail
  if text = [] then ['.'] else text

/-- `_safe_parquet_path` -/
def safeParquetPath (lib : PyLib) (raw : PyValue) : Option PosixPath :=
  let candidate := posixPath (lib.str raw)
  if ['.', '.'] ∈ candidate.tail then none else some candidate

/-- `".." in path.parts` -/
def PosixPath.traverses (p : PosixPath) : Bool := ['.', '.'] ∈ p.tail

/-! ## The records -/

inductive WindowKind
  | inSample
  | oosReserve

def WindowKind.value : WindowKind → String
  | .inSample => "in_sample"
  | .oosReserve => "oos_reserve"

/-- `WindowKind(raw)` -/
def WindowKind.ofValue : PyValue → Option WindowKind
  | .str s =>
    if s = WindowKind.inSample.value.toList then some .inSample
    else if s = WindowKind.oosReserve.value.toList then some .oosReserve
    else none
  | _ => none

structure BarGap where
  timeframe : List Char
  windowName : List Char
  before : UtcDatetime
  after : UtcDatetime

/-- A fingerprint as it is loaded, its numbers not checked. -/
structure ContentHashFingerprint where
  minTs : ℤ
  maxTs : ℤ
  rowCount : ℤ

structure DatasetEntry where
  timeframe : List Char
  windowName : List Char
  windowKind : WindowKind
  start : UtcDatetime
  /-- `end` -/
  stop : UtcDatetime
  parquetPath : PosixPath
  fingerprint : ContentHashFingerprint
  rowCount : ℤ
  gaps : List BarGap

structure DatasetManifest where
  specName : List Char
  datasetVersion : List Char
  symbol : List Char
  generatedAt : UtcDatetime
  maxGapHours : Float64
  entries : List DatasetEntry

/-! ## Writing -/

def manifestSchemaVersion : String := "1"

def ContentHashFingerprint.sha256 (lib : PyLib) (f : ContentHashFingerprint) : List Char :=
  (lib.hexdigest s!"{f.minTs}|{f.maxTs}|{f.rowCount}").toList.take 16

def BarGap.toDict (g : BarGap) : Option PyValue :=
  (durationHours g.before g.after).map fun hours =>
    .dict
      [("timeframe".toList, .str g.timeframe),
        ("window_name".toList, .str g.windowName),
        ("before".toList, .str g.before.isoformat),
        ("after".toList, .str g.after.isoformat),
        ("duration_hours".toList, .float hours)]

def DatasetEntry.toDict (lib : PyLib) (e : DatasetEntry) : Option PyValue :=
  (e.gaps.mapM BarGap.toDict).map fun gaps =>
    .dict
      [("timeframe".toList, .str e.timeframe),
        ("window_name".toList, .str e.windowName),
        ("window_kind".toList, .str e.windowKind.value.toList),
        ("start".toList, .str e.start.isoformat),
        ("end".toList, .str e.stop.isoformat),
        ("parquet_path".toList, .str e.parquetPath.text),
        ("fingerprint".toList, .dict
          [("min_ts".toList, .int e.fingerprint.minTs),
            ("max_ts".toList, .int e.fingerprint.maxTs),
            ("row_count".toList, .int e.fingerprint.rowCount),
            ("sha256_short".toList, .str (e.fingerprint.sha256 lib))]),
        ("row_count".toList, .int e.rowCount),
        ("gaps".toList, .list gaps)]

def DatasetManifest.toDict (lib : PyLib) (m : DatasetManifest) : Option PyValue :=
  (m.entries.mapM (DatasetEntry.toDict lib)).map fun entries =>
    .dict
      [("schema_version".toList, .str manifestSchemaVersion.toList),
        ("spec_name".toList, .str m.specName),
        ("dataset_version".toList, .str m.datasetVersion),
        ("symbol".toList, .str m.symbol),
        ("generated_at".toList, .str m.generatedAt.isoformat),
        ("max_gap_hours".toList, .float m.maxGapHours),
        ("entries".toList, .list entries)]

/-! ## Loading -/

/-- `raw[k]` -/
def getItem (k : String) : PyValue → Option PyValue
  | .dict ms => PyValue.itemOf k.toList ms
  | _ => none

/-- What a `for` over a value goes through. -/
def iterate : PyValue → Option (List PyValue)
  | .list items => some items
  | .dict ms => some (ms.map fun m => .str m.1)
  | .str s => some (s.map fun c => .str [c])
  | _ => none

def BarGap.fromDict (lib : PyLib) (raw : PyValue) : Option BarGap := do
  let timeframe ← getItem "timeframe" raw
  let windowName ← getItem "window_name" raw
  let before ← (getItem "before" raw).bind lib.parseIso
  let after ← (getItem "after" raw).bind lib.parseIso
  return { timeframe := lib.str timeframe, windowName := lib.str windowName, before, after }

def DatasetEntry.fromDict (lib : PyLib) (raw : PyValue) : Option DatasetEntry := do
  let fpRaw ← getItem "fingerprint" raw
  let timeframe ← getItem "timeframe" raw
  let windowName ← getItem "window_name" raw
  let windowKind ← (getItem "window_kind" raw).bind WindowKind.ofValue
  let start ← (getItem "start" raw).bind lib.parseIso
  let stop ← (getItem "end" raw).bind lib.parseIso
  let parquetPath ← (getItem "parquet_path" raw).bind (safeParquetPath lib)
  let minTs ← (getItem "min_ts" fpRaw).bind lib.int
  let maxTs ← (getItem "max_ts" fpRaw).bind lib.int
  let fpRowCount ← (getItem "row_count" fpRaw).bind lib.int
  let rowCount ← (getItem "row_count" raw).bind lib.int
  let gaps ← iterate ((getItem "gaps" raw).getD (.list []))
  let gaps ← gaps.mapM (BarGap.fromDict lib)
  return {
    timeframe := lib.str timeframe, windowName := lib.str windowName, windowKind, start, stop,
    parquetPath, fingerprint := { minTs, maxTs, rowCount := fpRowCount }, rowCount, gaps }

/-- What is no mapping has no schema either. -/
def checkSchema (raw : PyValue) : Option Unit :=
  match getItem "schema_version" raw with
  | some (.str schema) => if schema = manifestSchemaVersion.toList then some () else none
  | _ => none

def DatasetManifest.ofRaw (lib : PyLib) (raw : PyValue) : Option DatasetManifest := do
  checkSchema raw
  let specName ← getItem "spec_name" raw
  let datasetVersion ← getItem "dataset_version" raw
  let symbol ← getItem "symbol" raw
  let generatedAt ← (getItem "generated_at" raw).bind lib.parseIso
  let maxGapHours ← (getItem "max_gap_hours" raw).bind lib.float
  let entries ← (getItem "entries" raw).bind iterate
  let entries ← entries.mapM (DatasetEntry.fromDict lib)
  return {
    specName := lib.str specName, datasetVersion := lib.str datasetVersion,
    symbol := lib.str symbol, generatedAt, maxGapHours, entries }

/-- `load_json`, of the text of the file. -/
def loadJson (lib : PyLib) (text : List Char) : Option DatasetManifest :=
  (PyValue.loads text).bind (DatasetManifest.ofRaw lib)

end TdSandboxed.Dataset
