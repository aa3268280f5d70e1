/-
TdSandboxed.Backtesting.DataLoader — the bar loaders of a backtest and their
Parquet cache (`backtesting/data_loader.py`, `backtesting/data_cache.py`).

* The `candles` table has a unique index on symbol, timeframe and time, so a
  window has at most one candle for each time. Times are microseconds since
  the epoch, as the column stores them.
* A `datetime` is its wall clock and the offset of its timezone. A query
  compares instants; the file name is made of the wall clock, to the
  second.
* A shard is found by its file: the path with `.` and `..` taken out. The
  directories on the way exist. What was written is read back.
* `float` and the hex digest of SHA-256 are parameters.

The database and the event loop do not fail. The columns of a candle that
no query reads are left out.
-/
import TdSandboxed.Rules.BaseRule

namespace TdSandboxed

/-! ## The candles table -/

structure CandleKey where
  symbol : String
  timeframe : String
  time : ℤ
  deriving DecidableEq

structure CandlePrices where
  openPrice : ℚ
  high : ℚ
  low : ℚ
  close : ℚ
  volume : Option ℚ
  deriving DecidableEq

/-- The rows of `candles`, with its unique index. -/
structure CandleTable where
  rows : List (CandleKey × CandlePrices)
  unique : (rows.map Prod.fst).Nodup

namespace CandleTable

def empty : CandleTable := { rows := [], unique := List.nodup_nil }

/-- The index refuses a second row for a key. -/
def insert (t : CandleTable) (key : CandleKey) (prices : CandlePrices) : CandleTable :=
  if h : key ∈ t.rows.map Prod.fst then t
  else
    { rows := t.rows ++ [(key, prices)]
      unique := by
        rw [List.map_append, List.nodup_append']
        exact ⟨t.unique, List.nodup_singleton key, List.disjoint_singleton.mpr h⟩ }

/-- A correction of the prices of a row. -/
def correct (t : CandleTable) (key : CandleKey) (prices : CandlePrices) : CandleTable :=
  { rows := t.rows.map fun row => if row.1 = key then (key, prices) else row
    unique := by
      have hkeys : (t.rows.map fun row => if row.1 = key then (key, prices) else row).map Prod.fst =
          t.rows.map Prod.fst := by
        rw [List.map_map]
        refine List.map_congr_left fun row _ => ?_
        by_cases h : row.1 = key
        · simp [h]
        · simp [h]
      exact hkeys ▸ t.unique }

def delete (t : CandleTable) (key : CandleKey) : CandleTable :=
  { rows := t.rows.filter fun row => row.1 ≠ key
    unique := (List.filter_sublist.map Prod.fst).nodup t.unique }

end CandleTable

/-! ## Requests -/

/-- A timezone-aware datetime, in microseconds. -/
structure Datetime where
  wall : ℤ
  utcOffset : ℤ := 0
  deriving DecidableEq

def Datetime.instant (d : Datetime) : ℤ := d.wall - d.utcOffset

/-- `strftime("%Y%m%dT%H%M%S")`, as a number of seconds. -/
def Datetime.stamp (d : Datetime) : ℤ := d.wall / 1000000

/-- The arguments all loaders share. -/
structure BarQuery where
  symbol : String
  timeframe : String
  start : Datetime
  stop : Datetime
  deriving DecidableEq

/-- The `WHERE` clause. -/
def BarQuery.Selects (q : BarQuery) (key : CandleKey) : Prop :=
  key.symbol = q.symbol ∧ key.timeframe = q.timeframe ∧
    q.start.instant ≤ key.time ∧ key.time < q.stop.instant

instance (q : BarQuery) (key : CandleKey) : Decidable (q.Selects key) := instDecidableAnd

structure ContentHashFingerprint where
  minTs : ℤ
  maxTs : ℤ
  rowCount : ℕ
  deriving DecidableEq

/-! ## TimescaleBarLoader -/

/-- A row of the frame: the index and the columns. -/
structure OhlcvRow (φ : Type) where
  time : ℤ
  openPrice : φ
  high : φ
  low : φ
  close : φ
  volume : φ
  deriving DecidableEq

abbrev DataFrame (φ : Type) := List (OhlcvRow φ)

/-- `_dt_to_ns`: `int(dt.timestamp())` truncates towards zero. -/
def dtToNs (t : ℤ) : ℤ := t.tdiv 1000000 * 1000000000 + t % 1000000 * 1000

namespace TimescaleBarLoader

/-- The rows of a window. -/
def window (t : CandleTable) (q : BarQuery) : List (CandleKey × CandlePrices) :=
  t.rows.filter fun row => q.Selects row.1

def afingerprint (t : CandleTable) (q : BarQuery) : ContentHashFingerprint :=
  let times := (window t q).map fun row => row.1.time
  { minTs := match times.min? with
      | some time => dtToNs time
      | none => 0
    maxTs := match times.max? with
      | some time => dtToNs time
      | none => 0
    rowCount := times.length }

/-- `float(r["volume"] or 0)` and the other columns. -/
def toRow {φ : Type} (float : ℚ → φ) (row : CandleKey × CandlePrices) : OhlcvRow φ :=
  { time := row.1.time
    openPrice := float row.2.openPrice
    high := float row.2.high
    low := float row.2.low
    close := float row.2.close
    volume := float (row.2.volume.getD 0) }

/-- `ORDER BY time ASC` -/
def aload {φ : Type} (float : ℚ → φ) (t : CandleTable) (q : BarQuery) : DataFrame φ :=
  ((window t q).insertionSort fun a b => a.1.time ≤ b.1.time).map (toRow float)

end TimescaleBarLoader

/-! ## ParquetBarLoader -/

/-- `^[A-Za-z0-9._-]+$`, where `$` also matches before a last newline. -/
def safePathComponent (value : String) : Bool :=
  let chars := if value.toList.getLast? = some '\n' then value.toList.dropLast else value.toList
  chars ≠ [] ∧ chars.all fun c => c.isAlphanum ∨ c = '.' ∨ c = '_' ∨ c = '-'

def validatePathComponent (name value : String) : Except PyException Unit :=
  if safePathComponent value then .ok ()
  else .error (.valueError
    s!"Unsafe {name} for cache path: {Lib.pyRepr value}. Only [A-Za-z0-9._-] allowed.")

/-- The directory a path leads to. -/
def resolve (components : List String) : List String :=
  components.foldl
    (fun dir c => if c = "." then dir else if c = ".." then dir.dropLast else dir ++ [c]) []

/-- The file of a shard. -/
structure ShardPath where
  dir : List String
  startStamp : ℤ
  endStamp : ℤ
  hash16 : String
  deriving DecidableEq

/-- Where the cache is, and the hex digest of SHA-256. -/
structure ParquetBarLoader where
  cacheDir : List String
  hexdigest : String → String

namespace ParquetBarLoader

/-- `ContentHashFingerprint.sha256` -/
def sha256 (parquet : ParquetBarLoader) (f : ContentHashFingerprint) : String :=
  String.ofList ((parquet.hexdigest s!"{f.minTs}|{f.maxTs}|{f.rowCount}").toList.take 16)

/-- `cache_dir / symbol / timeframe / filename` -/
def shardPath (parquet : ParquetBarLoader) (q : BarQuery) (fingerprint : ContentHashFingerprint) :
    ShardPath :=
  { dir := resolve (parquet.cacheDir ++ [q.symbol, q.timeframe])
    startStamp := q.start.stamp
    endStamp := q.stop.stamp
    hash16 := parquet.sha256 fingerprint }

/-- `build_cache_path` -/
def pathFor (parquet : ParquetBarLoader) (q : BarQuery) (fingerprint : ContentHashFingerprint) :
    Except PyException ShardPath := do
  validatePathComponent "symbol" q.symbol
  validatePathComponent "timeframe" q.timeframe
  return parquet.shardPath q fingerprint

variable {φ : Type}

def load (parquet : ParquetBarLoader) (files : ShardPath → Option (DataFrame φ)) (q : BarQuery)
    (fingerprint : ContentHashFingerprint) : Except PyException (Option (DataFrame φ)) := do
  let path ← parquet.pathFor q fingerprint
  return files path

def write (parquet : ParquetBarLoader) (files : ShardPath → Option (DataFrame φ)) (q : BarQuery)
    (fingerprint : ContentHashFingerprint) (df : DataFrame φ) :
    Except PyException (ShardPath → Option (DataFrame φ)) := do
  let path ← parquet.pathFor q fingerprint
  return Function.update files path (some df)

end ParquetBarLoader

/-! ## CachedBarLoader -/

structure CachedBarLoader (φ : Type) where
  parquet : ParquetBarLoader
  float : ℚ → φ

/-- The table and the files of the cache. -/
structure BarStore (φ : Type) where
  candles : CandleTable
  files : ShardPath → Option (DataFrame φ)

namespace CachedBarLoader

variable {φ : Type}

/-- The frame, and the files after the call. -/
def load (loader : CachedBarLoader φ) (s : BarStore φ) (q : BarQuery)
    (fingerprint : ContentHashFingerprint) (noCache : Bool := false) :
    Except PyException (DataFrame φ × (ShardPath → Option (DataFrame φ))) := do
  let cached ← if noCache then pure none else loader.parquet.load s.files q fingerprint
  match cached with
  | some df => return (df, s.files)
  | none =>
    let df := TimescaleBarLoader.aload loader.float s.candles q
    let files ← loader.parquet.write s.files q fingerprint df
    return (df, files)

end CachedBarLoader

/-- An update of the table, or a call of the cached loader. -/
inductive BarEvent
  | insert (key : CandleKey) (prices : CandlePrices)
  | correct (key : CandleKey) (prices : CandlePrices)
  | delete (key : CandleKey)
  | load (q : BarQuery) (fingerprint : ContentHashFingerprint) (noCache : Bool)

def CandleTable.after (t : CandleTable) : BarEvent → CandleTable
  | .insert key prices => t.insert key prices
  | .correct key prices => t.correct key prices
  | .delete key => t.delete key
  | .load .. => t

/-- A call that raises leaves the files. -/
def CachedBarLoader.step {φ : Type} (loader : CachedBarLoader φ) (s : BarStore φ) (e : BarEvent) :
    BarStore φ :=
  match e with
  | .load q fingerprint noCache =>
    match loader.load s q fingerprint noCache with
    | .ok (_, files) => { s with files }
    | .error _ => s
  | e => { s with candles := s.candles.after e }

end TdSandboxed
