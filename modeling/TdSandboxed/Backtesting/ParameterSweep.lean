/-
TdSandboxed.Backtesting.ParameterSweep — parameter sweeps
(`backtesting/parameter_sweep.py`), the harness that runs one on a dataset
(`backtesting/dataset/sweep_harness.py`), and a sweep for each fold of a
walk-forward analysis (`WalkForward` of `backtesting/walk_forward.py`).

* `run_backtest`, the objective and the metric of an early stop are
  parameters, and any of them may raise.
* Scores are of a linear order with a least element, which is `-inf`. A NaN,
  by which Python cannot sort, is left out of `ParameterSweep`; the harness
  refuses it with the infinities (`none`).
* With several workers a job goes out as JSON, and the results are taken as
  the futures complete, in any order. A worker that dies is left out.
* `random.Random(seed).sample` is a parameter.

Job configs are as far modelled as the sweeps build and check them. The
sampler `"optuna"` raises, since the package is no dependency.
-/
import TdSandboxed.Backtesting.WalkForward
import TdSandboxed.Lib.Gather
import TdSandboxed.Lib.SortedKeys

namespace TdSandboxed

open Lib Dataset

/-- `dict[str, Any]`, in the order of its keys. -/
abbrev SweepParams (V : Type) := List (String × V)

/-! ## Jobs -/

/-- A path that does not leave its directory. -/
structure ParquetDataSpec where
  path : PosixPath
  noTraversal : ¬path.traverses

/-- `_no_traversal` -/
def ParquetDataSpec.ofPath (path : PosixPath) : Except String ParquetDataSpec :=
  if h : path.traverses then
    .error ("Path traversal via '..' not allowed in ParquetDataSpec.path: " ++
      String.ofList path.text)
  else .ok ⟨path, h⟩

structure BacktestJobConfig (Venue PropFirm V : Type) where
  strategy : String
  strategyParams : SweepParams V
  venue : Venue
  instrumentSymbol : String
  barTypeSuffix : String
  data : ParquetDataSpec
  propFirm : Option PropFirm
  start : Option ℤ
  /-- `end` -/
  stop : Option ℤ

variable {Venue PropFirm V Res S M : Type}

namespace BacktestJobConfig

/-- The keys of `BACKTEST_STRATEGIES`. -/
def strategies : List String :=
  ["supertrend", "donchian_breakout", "mean_reversion", "ma_crossover", "rsi_mean_reversion",
    "bollinger_mean_reversion", "orb"]

/-- `_SUPPORTED_SYMBOLS` -/
def supportedSymbols : List String :=
  ["EUR/USD", "GBP/USD", "USD/JPY", "USD/CAD", "AUD/USD", "EURUSD", "GBPUSD", "USDJPY", "USDCAD",
    "AUDUSD", "XAUUSD"]

def known (names : List String) : String := ", ".intercalate (names.mergeSort (· ≤ ·))

/-- `resolve_strategy`, for a backtest. -/
def resolveStrategy (name : String) : Except String Unit :=
  if name ∈ strategies then .ok ()
  else .error s!"Unknown strategy {pyRepr name}. Known: {known strategies}"

/-- The validators of the config, in the order of its fields. -/
def validate (job : BacktestJobConfig Venue PropFirm V) :
    Except String (BacktestJobConfig Venue PropFirm V) := do
  resolveStrategy job.strategy
  if job.instrumentSymbol ∉ supportedSymbols then
    .error (s!"Unsupported instrument symbol {pyRepr job.instrumentSymbol}. " ++
      s!"Supported: {known supportedSymbols}")
  return job

/-- `with_window`, which validates nothing. -/
def withWindow (job : BacktestJobConfig Venue PropFirm V) (start stop : Option ℤ) :
    BacktestJobConfig Venue PropFirm V :=
  { job with start, stop }

end BacktestJobConfig

/-! ## Combinations -/

/-- `itertools.product` -/
def product : List (List V) → List (List V)
  | [] => [[]]
  | values :: rest => values.flatMap fun v => (product rest).map (v :: ·)

/-- `expand_grid` -/
def expandGrid (grid : List (String × List V)) : List (SweepParams V) :=
  if grid.isEmpty then [[]]
  else (product (grid.map Prod.snd)).map fun combo => (grid.map Prod.fst).zip combo

/-- `random.Random(seed).sample(population, k)` -/
abbrev Sample (V : Type) := ℤ → List (SweepParams V) → ℕ → List (SweepParams V)

/-- `sample_random` -/
def sampleRandom (sample : Sample V) (grid : List (String × List V)) (nIter : ℕ) (seed : ℤ) :
    List (SweepParams V) :=
  let full := expandGrid grid
  if full.length ≤ nIter then full else sample seed full nIter

/-! ## Results -/

inductive ComboStatus
  | ok
  | failed
  | earlyStop
  deriving DecidableEq

structure CombinationResult (V Res S : Type) where
  params : SweepParams V
  status : ComboStatus
  result : Option Res
  score : S
  error : Option String := none

structure SweepResult (V Res S : Type) where
  combos : List (CombinationResult V Res S)
  rankedBy : String := "score"

namespace SweepResult

variable [LinearOrder S]

def okCombos (r : SweepResult V Res S) : List (CombinationResult V Res S) :=
  r.combos.filter fun c => c.status = .ok

def ranked (r : SweepResult V Res S) : List (CombinationResult V Res S) :=
  sortDescending (·.score) r.okCombos

def best (r : SweepResult V Res S) : Except String (CombinationResult V Res S) :=
  match r.ranked.head? with
  | some c => .ok c
  | none => .error "No successful combos in sweep result"

end SweepResult

inductive StopMode
  | gt
  | lt
  deriving DecidableEq

structure EarlyStopConfig (Res M : Type) where
  metricFn : Res → Except String M
  threshold : M
  mode : StopMode := .gt

def EarlyStopConfig.shouldStop [LT M] [DecidableLT M] (c : EarlyStopConfig Res M) (res : Res) :
    Except String Bool := do
  let value ← c.metricFn res
  match c.mode with
  | .gt => return c.threshold < value
  | .lt => return value < c.threshold

/-! ## The sweep -/

inductive SearchMode
  | grid
  | random (nIter : Option ℤ)
  | other (name : String)

/-- How a job goes to a worker. -/
structure JobCodec (Venue PropFirm V : Type) where
  modelDumpJson : BacktestJobConfig Venue PropFirm V → String
  modelValidateJson : String → Except String (BacktestJobConfig Venue PropFirm V)

/-- `run_backtest` -/
abbrev RunBacktest (Venue PropFirm V Res : Type) :=
  BacktestJobConfig Venue PropFirm V → SweepParams V → Except String Res

structure ParameterSweep (Venue PropFirm V Res S M : Type) where
  job : BacktestJobConfig Venue PropFirm V
  paramGrid : List (String × List V)
  search : SearchMode := .grid
  seed : ℤ := 42
  objectiveFn : Res → Except String S
  earlyStop : Option (EarlyStopConfig Res M) := none

namespace ParameterSweep

variable (sweep : ParameterSweep Venue PropFirm V Res S M)

/-- `_expand` -/
def expand (sample : Sample V) : Except String (List (SweepParams V)) :=
  match sweep.search with
  | .grid => .ok (expandGrid sweep.paramGrid)
  | .random (some nIter) =>
    if nIter ≤ 0 then .error "random search requires n_iter > 0"
    else .ok (sampleRandom sample sweep.paramGrid nIter.toNat sweep.seed)
  | .random none => .error "random search requires n_iter > 0"
  | .other name => .error s!"Unknown search: '{name}'"

variable [LinearOrder S] [OrderBot S] [LT M] [DecidableLT M]

/-- `_classify` -/
def classify (params : SweepParams V) (res : Res) : Except String (CombinationResult V Res S) := do
  let stopped ←
    match sweep.earlyStop with
    | some c => c.shouldStop res
    | none => .ok false
  if stopped then
    return { params, status := .earlyStop, result := some res, score := ⊥ }
  let score ← sweep.objectiveFn res
  return { params, status := .ok, result := some res, score }

/-- What `_run_one` and `_finalize_future` make of an outcome. -/
def finalize (params : SweepParams V) (outcome : Except String Res) :
    Except String (CombinationResult V Res S) :=
  match outcome with
  | .error text =>
    .ok { params, status := .failed, result := none, score := ⊥, error := some text }
  | .ok res => sweep.classify params res

/-- `_run_one` -/
def runOne (runBacktest : RunBacktest Venue PropFirm V Res) (params : SweepParams V) :
    Except String (CombinationResult V Res S) :=
  sweep.finalize params (runBacktest sweep.job params)

/-- `_run_sequential` -/
def runSequential (runBacktest : RunBacktest Venue PropFirm V Res)
    (combos : List (SweepParams V)) : Except String (SweepResult V Res S) := do
  return { combos := ← combos.mapM (sweep.runOne runBacktest) }

/-- `_run_combo` -/
def runCombo (codec : JobCodec Venue PropFirm V) (runBacktest : RunBacktest Venue PropFirm V Res)
    (jobJson : String) (params : SweepParams V) : Except String Res := do
  runBacktest (← codec.modelValidateJson jobJson) params

/-- `_run_parallel`, for the order in which the futures complete. -/
def runParallel (codec : JobCodec Venue PropFirm V)
    (runBacktest : RunBacktest Venue PropFirm V Res) (combos : List (SweepParams V))
    (order : List ℕ) : Except String (SweepResult V Res S) := do
  let jobJson := codec.modelDumpJson sweep.job
  let task := fun idx =>
    match combos[idx]? with
    | some params => sweep.finalize params (runCombo codec runBacktest jobJson params)
    | none => .error "list index out of range"
  return { combos := ← gather "KeyError" task order combos.length }

/-- `run` -/
def run (codec : JobCodec Venue PropFirm V) (runBacktest : RunBacktest Venue PropFirm V Res)
    (combos : List (SweepParams V)) (maxWorkers : ℤ) (order : List ℕ) :
    Except String (SweepResult V Res S) :=
  if maxWorkers < 1 then .error s!"max_workers must be >= 1, got {maxWorkers}"
  else if maxWorkers = 1 ∨ combos.length ≤ 1 then sweep.runSequential runBacktest combos
  else sweep.runParallel codec runBacktest combos order

end ParameterSweep

/-! ## Walk-forward -/

structure FoldResult (V Res S : Type) where
  fold : FoldSpec
  bestParams : SweepParams V
  trainScore : S
  trainResult : Option Res
  testResult : Option Res

/-- `WalkForward`; the sweep is that of every fold, but for its job's window
and its seed. -/
structure WalkForward (Venue PropFirm V Res S M : Type) where
  sweep : ParameterSweep Venue PropFirm V Res S M
  folds : List FoldSpec

namespace WalkForward

variable [LinearOrder S] [OrderBot S] [LT M] [DecidableLT M]
  (w : WalkForward Venue PropFirm V Res S M)

/-- The sweep of a fold. -/
def foldSweep (fold : FoldSpec) (idx : ℕ) : ParameterSweep Venue PropFirm V Res S M :=
  { w.sweep with
    job := w.sweep.job.withWindow (some fold.trainStart) (some fold.trainEnd)
    seed := w.sweep.seed + idx }

/-- `_run_fold` -/
def runFold (sample : Sample V) (codec : JobCodec Venue PropFirm V)
    (runBacktest : RunBacktest Venue PropFirm V Res) (maxWorkers : ℤ) (order : List ℕ)
    (fold : FoldSpec) (idx : ℕ) : Except String (FoldResult V Res S) := do
  let combos ← (w.foldSweep fold idx).expand sample
  let sweepResult ← (w.foldSweep fold idx).run codec runBacktest combos maxWorkers order
  match sweepResult.best with
  | .error _ =>
    return { fold, bestParams := [], trainScore := ⊥, trainResult := none, testResult := none }
  | .ok best =>
    let testJob := w.sweep.job.withWindow (some fold.testStart) (some fold.testEnd)
    let testResult ← runBacktest testJob best.params
    return { fold, bestParams := best.params, trainScore := best.score, trainResult := best.result
             testResult := some testResult }

/-- `run`; `orders` are the orders in which the futures of each fold
complete. -/
def run (sample : Sample V) (codec : JobCodec Venue PropFirm V)
    (runBacktest : RunBacktest Venue PropFirm V Res) (maxWorkers : ℤ) (orders : ℕ → List ℕ) :
    Except String (List (FoldResult V Res S)) :=
  if w.folds.isEmpty then .error "At least one fold is required"
  else w.folds.zipIdx.mapM fun p =>
    w.runFold sample codec runBacktest maxWorkers (orders p.2) p.1 p.2

end WalkForward

/-! ## The harness -/

/-- What a run of the harness raises: it isolates all but `MemoryError`. -/
inductive RunError
  | memoryError
  | other (text : String)

structure StrategySpec (V : Type) where
  name : String
  barTypeSuffix : String
  params : SweepParams V

/-- The checks of `__post_init__` are its fields. -/
structure ParamSpace (V : Type) where
  name : String
  values : List (String × List V)
  name_ne : name ≠ ""
  values_ne : ∀ p ∈ values, p.2 ≠ []
  /-- It is a dict. -/
  keys_nodup : (values.map Prod.fst).Nodup

def ParamSpace.cartesianSize (space : ParamSpace V) : ℕ :=
  space.values.foldl (fun size p => size * p.2.length) 1

structure SweepBudget where
  maxTrials : ℕ
  one_le : 1 ≤ maxTrials

/-- `_DEFAULT_TRIAL_CAP` -/
def SweepBudget.default : SweepBudget := ⟨200, Nat.one_le_ofNat⟩

/-- `default_max_dd_early_stop`; a result without metrics is as bad as can
be. -/
def defaultMaxDdEarlyStop (maxOverallDdPct : Res → Option ℚ) :
    EarlyStopConfig Res (WithTop ℚ) where
  metricFn res := .ok ((maxOverallDdPct res).elim ⊤ (↑))
  threshold := (10 : ℚ)

inductive Sampler
  | grid
  | random
  | optuna
  | other (name : String)

/-- `_generate_combos` -/
def generateCombos (sample : Sample V) (sampler : Sampler) (space : ParamSpace V)
    (budget : SweepBudget) (seed : ℤ) : Except String (List (SweepParams V)) :=
  match sampler with
  | .grid =>
    let size := space.cartesianSize
    if budget.maxTrials < size then
      .error (s!"grid Cartesian size {size} exceeds budget {budget.maxTrials}; switch sampler to " ++
        "'random' to sample within the cap, or shrink param_space")
    else .ok (expandGrid space.values)
  | .random =>
    .ok (sampleRandom sample space.values (min space.cartesianSize budget.maxTrials) seed)
  | .optuna =>
    .error ("Optuna sampler requested but the 'optuna' package is not installed. Install with " ++
      "`uv add optuna` or use sampler='random' (see Decision §3 in docs/epic-12-context.md).")
  | .other name =>
    .error s!"Unknown sampler {pyRepr name}; choose 'grid' / 'random' / 'optuna'"

/-- `repr` of a list of names. -/
def reprNames (names : List (List Char)) : String :=
  "[" ++ ", ".intercalate (names.map fun n => pyRepr (String.ofList n)) ++ "]"

/-- `_build_base_job`. The shard is the entry's, whatever its timeframe. -/
def buildBaseJob (spec : StrategySpec V) (m : DatasetManifest) (entry : DatasetEntry)
    (venue : Venue) (propFirm : Option PropFirm) :
    Except String (BacktestJobConfig Venue PropFirm V) := do
  let data ← ParquetDataSpec.ofPath entry.parquetPath
  BacktestJobConfig.validate
    { strategy := spec.name
      strategyParams := spec.params
      venue
      instrumentSymbol := String.ofList m.symbol
      barTypeSuffix := spec.barTypeSuffix
      data
      propFirm
      start := some entry.start.instant
      stop := some entry.stop.instant }

/-- `_default_objective`: the net profit, `none` where the float is not
finite, and its text. -/
structure NetPnl (Res S : Type) where
  score : Res → Option S
  text : Res → String

/-- `_run_one` of the harness. -/
def runTrial [LE S] [OrderBot S] [LT M] [DecidableLT M]
    (dispatch : BacktestJobConfig Venue PropFirm V → SweepParams V → Except RunError Res)
    (netPnl : NetPnl Res S) (earlyStop : EarlyStopConfig Res M)
    (baseJob : BacktestJobConfig Venue PropFirm V) (params : SweepParams V) :
    Except String (CombinationResult V Res S) :=
  match dispatch baseJob params with
  | .error .memoryError => .error "MemoryError"
  | .error (.other text) =>
    .ok { params, status := .failed, result := none, score := ⊥, error := some text }
  | .ok result => do
    if ← earlyStop.shouldStop result then
      return { params, status := .earlyStop, result := some result, score := ⊥ }
    match netPnl.score result with
    | some score => return { params, status := .ok, result := some result, score }
    | none =>
      return { params, status := .failed, result := some result, score := ⊥
               error := some s!"objective returned non-finite score {netPnl.text result}" }

/-- `run_parameter_sweep` -/
def runParameterSweep [LE S] [OrderBot S] [LT M] [DecidableLT M] (sample : Sample V)
    (dispatch : BacktestJobConfig Venue PropFirm V → SweepParams V → Except RunError Res)
    (netPnl : NetPnl Res S) (earlyStop : EarlyStopConfig Res M) (spec : StrategySpec V)
    (m : DatasetManifest) (windowName : List Char) (venue : Venue) (space : ParamSpace V)
    (budget : SweepBudget) (sampler : Sampler) (seed : ℤ) (propFirm : Option PropFirm) :
    Except String (SweepResult V Res S) := do
  BacktestJobConfig.resolveStrategy spec.name
  let entry ← (firstEntryForWindow m windowName).mapError (·.message toString reprNames)
  let baseJob ← buildBaseJob spec m entry venue propFirm
  let combos ← generateCombos sample sampler space budget seed
  return { combos := ← combos.mapM (runTrial dispatch netPnl earlyStop baseJob) }

end TdSandboxed
