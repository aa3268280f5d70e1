/-
TdSandboxed.Backtesting.FetchCampaign — a shard of history, fetched backward
in chunks and stitched (`scripts/fetch_campaign.py`,
`backtesting/dataset/fetch_campaign.py`,
`scripts/stitch_chunks_to_window.py`, `detect_gaps` of
`backtesting/dataset/pipeline.py`; `fetchAndWrite` and
`convertPeriodsToBarRows` of `cmd/tv-cli/backtest_fetch.go`).

For an anchor the server sends a few thousand bars back from it. The driver
runs `tv-cli` for one anchor after the other, each at the first bar of the
chunk before, until the chunk reaches the start of the window, stops to make
progress or has no bars; then the chunks of the directory are stitched.

Windows start and end at whole seconds, and within the nanoseconds of
pandas. What Go prints for a time is a parameter.
-/
import TdSandboxed.Backtesting.DatasetManifest
import TdSandboxed.Lib.SortedKeys
import TdSandboxed.TvApi.SessionFeed

namespace TdSandboxed

open Lib TvApi

/-! ## tv-cli -/

/-- A row of a chunk; `time` is in milliseconds. -/
structure BarRow where
  time : ℤ
  openPrice : Float64
  high : Float64
  low : Float64
  close : Float64
  volume : Float64
  deriving DecidableEq

def TvApi.Period.toBarRow (p : Period) : BarRow :=
  { time := p.time * 1000, openPrice := p.openPrice, high := p.high, low := p.low
    close := p.close, volume := p.volume }

def convertPeriodsToBarRows (periods : List Period) : List BarRow :=
  (periods.map Period.toBarRow).mergeSort fun a b => a.time ≤ b.time

/-- The flags that change from anchor to anchor and from shard to shard;
times are Unix seconds. -/
structure FetchArgs where
  symbol : String
  timeframe : String
  fromTs : ℤ
  toTs : ℤ

/-- How a fetch goes. -/
inductive FetchReply
  /-- Not within the timeout of the driver. -/
  | hangs
  /-- With an error, of the session or of the writer for example. -/
  | fails (stderr : String)
  | periods (ps : List Period)

/-- What the driver sees of a run. -/
inductive CliRun
  | timedOut
  | failed (stderr : String)
  | wrote (rows : List BarRow)

def zeroBarsError : String := "Error: backtest-fetch (ReplayMode): zero bars"

/-- `fetchAndWrite`, in ReplayMode, behind the check of the flags. -/
def fetchAndWrite (goTime : ℤ → String) (args : FetchArgs) (reply : FetchReply) : CliRun :=
  if ¬args.fromTs < args.toTs then
    .failed (s!"Error: backtest-fetch: -from ({goTime args.fromTs}) " ++
      s!"must be strictly before -to ({goTime args.toTs})")
  else
    match reply with
    | .hangs => .timedOut
    | .fails stderr => .failed stderr
    | .periods ps =>
      if ps = [] then
        .failed (zeroBarsError ++ (s!" in [{goTime args.fromTs}, {goTime args.toTs}] — " ++
          "likely symbol-feed mismatch or premium-account entitlement missing"))
      else .wrote (convertPeriodsToBarRows ps)

/-! ## Stitching -/

/-- The parquet files of a chunk directory. -/
abbrev Chunks := OrderedDict String (List BarRow)

/-- `_load_and_dedupe` -/
def loadAndDedupe (chunks : Chunks) : List BarRow :=
  let files := chunks.items.mergeSort fun a b => a.1 ≤ b.1
  (keepFirst BarRow.time (files.flatMap Prod.snd)).mergeSort fun a b => a.time ≤ b.time

/-- `max_gap_hours * 3600.0`, for a number above zero; `none` is infinity. -/
def thresholdSeconds (maxGapHours : Option Float64) : Option ℚ :=
  maxGapHours.bind fun h => roundFloat64 (h.magnitude * 3600)

/-- `delta > threshold_seconds`, `ms` milliseconds apart. -/
def exceedsGap (maxGapHours : Option Float64) (ms : ℤ) : Bool :=
  match thresholdSeconds maxGapHours with
  | none => false
  | some threshold => (roundFloat64 (ms / 1000)).any fun delta => threshold < delta

/-- `detect_gaps`: neighbours in the sorted index that are far apart. -/
def detectGaps (maxGapHours : Option Float64) (times : List ℤ) : List (ℤ × ℤ) :=
  (neighbours (times.mergeSort fun a b => a ≤ b)).filter fun p => exceedsGap maxGapHours (p.2 - p.1)

/-- The stitched Parquet file, with what is computed for its entry. -/
structure Shard where
  rows : List BarRow
  fingerprint : Dataset.ContentHashFingerprint
  gaps : List (ℤ × ℤ)

/-! ## The driver -/

inductive CampaignError
  | unsupportedTimeframe
  | timedOut (idx : ℕ) (anchor : ℤ)
  | cliFailed (idx : ℕ)
  /-- A chunk has no rows. -/
  | emptyChunk
  | exceededAnchors
  /-- There is no chunk to stitch, or there are only empty ones. -/
  | noShards
  | emptyFrame
  deriving DecidableEq

structure FetchWindow where
  name : String
  start : ℤ
  /-- `end` -/
  stop : ℤ
  start_lt : start < stop
  start_ge : -9223372036 ≤ start
  stop_le : stop ≤ 9223372036

/-- `_TF_TO_TV` -/
def tvTimeframe (label : String) : Option String :=
  [("M5", "5"), ("M15", "15"), ("H1", "60"), ("H4", "240")].lookup label

def toOandaSymbol (ticker : String) : String :=
  if ':' ∈ ticker.toList then ticker else "OANDA:" ++ ticker

/-- `f"{idx:03d}.parquet"` -/
def chunkName (idx : ℕ) : String :=
  let digits := Nat.toDigits 10 idx
  String.ofList (List.replicate (3 - digits.length) '0' ++ digits) ++ ".parquet"

/-- `"zero bars" in stderr.lower()` -/
def saysZeroBars (stderr : String) : Bool :=
  "zero bars".toList <:+: stderr.toList.map Char.toLower

def maxAnchors : ℕ := 200

/-- What a campaign runs against: the `idx`-th run gets a reply. -/
structure CampaignEnv where
  reply : ℕ → FetchArgs → FetchReply
  goTime : ℤ → String

/-- What one campaign is for. -/
structure ShardSpec where
  symbol : String
  tfLabel : String
  window : FetchWindow
  /-- `none` is infinity. -/
  maxGapHours : Option Float64
  maxGap_pos : ∀ h ∈ maxGapHours, h.negative = false ∧ 0 < h.magnitude

namespace ShardSpec

variable (env : CampaignEnv) (spec : ShardSpec)

/-- The flags for an anchor, which is in milliseconds. -/
def args (tvTf : String) (anchor : ℤ) : FetchArgs :=
  { symbol := toOandaSymbol spec.symbol, timeframe := tvTf, fromTs := spec.window.start
    toTs := anchor / 1000 }

/-- The loop of `_fetch_shard`, with the anchors that are left. -/
def fetchChunks (tvTf : String) :
    ℕ → ℕ → ℤ → Option ℤ → Chunks → Except CampaignError Chunks
  | 0, _, _, _, _ => .error .exceededAnchors
  | left + 1, idx, anchor, prevMin, chunks =>
    let args := spec.args tvTf anchor
    match fetchAndWrite env.goTime args (env.reply idx args) with
    | .timedOut => .error (.timedOut idx anchor)
    | .failed stderr => if saysZeroBars stderr then .ok chunks else .error (.cliFailed idx)
    | .wrote rows =>
      let chunks := chunks.set (chunkName idx) rows
      match (rows.map BarRow.time).min? with
      | none => .error .emptyChunk
      | some minTime =>
        -- the window start is reached, or the floor of the history
        if minTime ≤ spec.window.start * 1000 ∨ prevMin.any (· ≤ minTime) then .ok chunks
        else fetchChunks tvTf left (idx + 1) minTime (some minTime) chunks

/-- `_build_entry` -/
def buildEntry (rows : List BarRow) : Except CampaignError Shard :=
  match rows.head?, rows.getLast? with
  | some first, some last =>
    .ok { rows
          fingerprint :=
            { minTs := first.time * 1000000, maxTs := last.time * 1000000, rowCount := rows.length }
          gaps := detectGaps spec.maxGapHours (rows.map BarRow.time) }
  | _, _ => .error .emptyFrame

/-- The stitch script. -/
def stitch (chunks : Chunks) : Except CampaignError Shard :=
  if chunks.items = [] then .error .noShards else buildEntry spec (loadAndDedupe chunks)

/-- `_fetch_shard`, on a directory that may have chunks of an earlier
campaign. -/
def fetchShard (chunks : Chunks) : Except CampaignError Shard :=
  match tvTimeframe spec.tfLabel with
  | none => .error .unsupportedTimeframe
  | some tvTf => do
    let chunks ← fetchChunks env spec tvTf maxAnchors 0 (spec.window.stop * 1000) none chunks
    stitch spec chunks

end ShardSpec

end TdSandboxed
