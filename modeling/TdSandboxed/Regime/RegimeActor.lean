/-
TdSandboxed.Regime.RegimeActor — the actor that classifies the bars of one
bar type and publishes their regime (`regime/actor.py`,
`regime/classifier.py`, `regime/state_store.py`, `regime/audit.py`; how it
is built: `build_regime_actor` of `engine/actors.py`, `regime/builders.py`
and the regime block of `config/firm_profile.py`).

A bar runs through the extractor, the classifier and the filter. What comes
out goes to the audit hook, whose exception is swallowed, and into the
store. The hook is a parameter with a state of its own: whatever it writes
to, it may have written to before it raised. `twoPlaces` is the number
format of the message.

The seconds of a bar are whole: `ts_event` is an unsigned number of
nanoseconds and is divided with `//`.
-/
import Mathlib
import TdSandboxed.Accounts.AccountManager
import TdSandboxed.Engine.RedisDataClient
import TdSandboxed.Lib.OrderedDict
import TdSandboxed.Regime.FeatureExtractor

namespace TdSandboxed

open Lib

def RegimeState.value : RegimeState → String
  | .trendingUp => "trending_up"
  | .trendingDown => "trending_down"
  | .ranging => "ranging"
  | .highVolatility => "high_volatility"
  | .unknown => "unknown"

/-! ## The classifier -/

structure RuleBasedRegimeClassifier (F : Type) [LinearOrder F] [Zero F] [One F] where
  thresholds : RegimeThresholds F

/-- High volatility comes first, whatever the trend says. -/
def RuleBasedRegimeClassifier.decide {F : Type} [LinearOrder F] [Zero F] [One F] [Neg F]
    (c : RuleBasedRegimeClassifier F) (features : RegimeFeatures F) : RegimeState :=
  let t := c.thresholds
  if ¬ features.isWarmedUp then .unknown
  else if features.bbWidthPct ≥ t.bbWidthHighPct ∨ features.realizedVol ≥ t.realizedVolHigh then
    .highVolatility
  else if features.adx ≥ t.adxTrendMin then
    let slope := features.emaSlope
    if slope ≥ t.emaSlopeTrendThreshold ∧ features.plusDi > features.minusDi then .trendingUp
    else if slope ≤ -t.emaSlopeTrendThreshold ∧ features.minusDi > features.plusDi then
      .trendingDown
    else .unknown
  else if features.bbWidthPct < t.bbWidthLowPct then .ranging
  else .unknown

/-! ## The store -/

structure RegimeSnapshot (F : Type) where
  barType : String
  currentState : RegimeState
  confidence : F
  ts : ℚ
  features : RegimeFeatures F

/-- What a decision leaves in the store. -/
def RegimeDecision.snapshot {F : Type} (d : RegimeDecision F) : RegimeSnapshot F where
  barType := d.barType
  currentState := d.currentState
  confidence := d.confidence
  ts := d.timestamp
  features := d.features

structure RegimeStateStore (F : Type) where
  snapshots : OrderedDict String (RegimeSnapshot F) := .empty

namespace RegimeStateStore

variable {F : Type}

def publish (s : RegimeStateStore F) (d : RegimeDecision F) : RegimeStateStore F where
  snapshots := s.snapshots.set d.barType d.snapshot

/-- None as long as no regime is confirmed. -/
def current (s : RegimeStateStore F) (barType : String) : Option (RegimeSnapshot F) :=
  s.snapshots.get? barType

end RegimeStateStore

/-! ## The audit row -/

/-- `context` of the row. -/
structure RegimeContext (F : Type) where
  barType : String
  rawState : String
  pendingState : Option String
  barsInPending : ℤ
  features : RegimeFeatures F

/-- An `AuditEntry` of the classifier. -/
structure RegimeAuditEntry (F : Type) where
  timestamp : ℚ
  accountId : Option String
  eventType : String
  ruleName : String
  ruleResult : String
  currentValue : Option F
  thresholdValue : Option F
  orderId : Option String
  context : RegimeContext F
  eventSubtype : Option String
  source : String
  level : String
  message : String
  tradeId : Option String

/-- `_audit_level_for` -/
def auditLevelFor : RegimeState → String
  | .highVolatility => "WARNING"
  | .trendingUp | .trendingDown | .ranging | .unknown => "INFO"

def toAuditEntry {F : Type} (twoPlaces : F → String) (d : RegimeDecision F) :
    RegimeAuditEntry F where
  timestamp := d.timestamp
  accountId := none
  eventType := "regime_decision"
  ruleName := "regime_classifier"
  ruleResult := d.currentState.value
  currentValue := some d.confidence
  thresholdValue := none
  orderId := none
  context :=
    { barType := d.barType, rawState := d.rawState.value
      pendingState := d.pendingState.map RegimeState.value
      barsInPending := d.barsInPending, features := d.features }
  eventSubtype := none
  source := "regime-classifier"
  level := auditLevelFor d.currentState
  message := s!"Regime: {d.currentState.value} (confidence={twoPlaces d.confidence})"
  tradeId := none

/-! ## The actor -/

/-- A bar with the time of its event. -/
structure RegimeBar (F : Type) where
  price : PriceBar F
  tsEvent : UInt64

/-- `_bar_timestamp` -/
def RegimeBar.timestamp {F : Type} (bar : RegimeBar F) : ℚ :=
  ((bar.tsEvent.toNat / 1000000000 : ℕ) : ℚ)

/-- The hook changes what it writes to, and returns or raises. -/
abbrev RegimeAuditHook (F σ : Type) := RegimeAuditEntry F → σ → σ × Except PyException Unit

structure RegimeActor (F σ : Type) [Field F] [LinearOrder F] where
  classifier : RuleBasedRegimeClassifier F
  extractor : FeatureExtractor F
  hysteresis : HysteresisFilter F
  auditToDb : Bool := false
  auditHook : Option (RegimeAuditHook F σ) := none

/-- What `on_bar` lets through. -/
inductive RegimeError
  | indicator (e : IndicatorError)
  | decision (e : PyException)
  deriving DecidableEq

/-- An actor, the store that it shares and what its hook writes to. -/
structure RegimeStage (F σ : Type) [Field F] [LinearOrder F] where
  actor : RegimeActor F σ
  store : RegimeStateStore F := {}
  sink : σ

namespace RegimeActor

variable {F σ : Type} [Field F] [LinearOrder F]

/-- What the hook makes of a decision; its exception ends here. -/
def audit (twoPlaces : F → String) (a : RegimeActor F σ) (sink : σ) (d : RegimeDecision F) : σ :=
  match a.auditToDb, a.auditHook with
  | true, some hook => (hook (toAuditEntry twoPlaces d) sink).1
  | _, _ => sink

end RegimeActor

namespace RegimeStage

variable {F σ : Type} [Field F] [LinearOrder F]

def onBar (sqrt log : F → F) (twoPlaces : F → String) (s : RegimeStage F σ) (bar : RegimeBar F) :
    Except RegimeError (RegimeStage F σ) :=
  match s.actor.extractor.update sqrt log bar.price with
  | .error e => .error (.indicator e)
  | .ok (extractor, none) => .ok { s with actor := { s.actor with extractor } }
  | .ok (extractor, some features) =>
    let rawState := s.actor.classifier.decide features
    match s.actor.hysteresis.apply rawState bar.timestamp features with
    | (_, .error e) => .error (.decision e)
    | (hysteresis, .ok decision) =>
      .ok { actor := { s.actor with extractor, hysteresis }
            store := s.store.publish decision
            sink := s.actor.audit twoPlaces s.sink decision }

/-- A stream of bars. -/
def run (sqrt log : F → F) (twoPlaces : F → String) (s : RegimeStage F σ)
    (bars : List (RegimeBar F)) : Except RegimeError (RegimeStage F σ) :=
  bars.foldlM (onBar sqrt log twoPlaces) s

end RegimeStage

/-! ## How an actor is built -/

/-- `str` of a bar type. -/
def BarType.text (t : BarType) : String :=
  let aggregation := match t.aggregation with
    | .second => "SECOND"
    | .minute => "MINUTE"
    | .hour => "HOUR"
    | .day => "DAY"
    | .week => "WEEK"
  s!"{t.symbol}.{t.venue}-{t.step}-{aggregation}-{t.priceType}-EXTERNAL"

structure InstrumentRegimeConfig (F : Type) [LinearOrder F] [Zero F] [One F] where
  timeframe : String
  thresholds : RegimeThresholds F
  adxPeriod : ℕ
  bbPeriod : ℕ
  bbStddev : F
  bbBaselineWindow : ℕ
  realizedVolWindow : ℕ
  emaSlopePeriod : ℕ
  emaSlopeLookback : ℕ
  timeframe_mem : timeframe = "M5" ∨ timeframe = "M15"
  adxPeriod_pos : 0 < adxPeriod
  bbPeriod_pos : 0 < bbPeriod
  bbBaselineWindow_pos : 0 < bbBaselineWindow
  realizedVolWindow_pos : 0 < realizedVolWindow
  emaSlopePeriod_pos : 0 < emaSlopePeriod
  emaSlopeLookback_pos : 0 < emaSlopeLookback
  bbStddev_pos : 0 < bbStddev
  bbPeriod_le : bbPeriod ≤ bbBaselineWindow

structure RegimeConfig (F : Type) [LinearOrder F] [Zero F] [One F] where
  enabled : Bool
  confirmationBars : ℕ
  warmupBars : ℕ
  featureWindow : ℕ
  instruments : OrderedDict String (InstrumentRegimeConfig F)
  confirmationBars_pos : 0 < confirmationBars
  warmupBars_pos : 0 < warmupBars
  featureWindow_pos : 0 < featureWindow
  warmupBars_le : warmupBars ≤ featureWindow
  instruments_ne : enabled = true → instruments.items ≠ []
  bbBaselineWindow_le : ∀ i ∈ instruments.values, i.bbBaselineWindow ≤ featureWindow

theorem append_ne_empty (s : String) {t : String} (h : t ≠ "") : s ++ t ≠ "" := by
  rw [Ne, String.append_eq_empty_iff]
  exact fun hst => h hst.2

theorem external_ne : "-EXTERNAL" ≠ "" := by decide

theorem BarType.text_ne (t : BarType) : t.text ≠ "" :=
  append_ne_empty _ external_ne

section

variable {F : Type} [Field F] [LinearOrder F] [IsStrictOrderedRing F]

/-- `get_instrument`; the dict of a `RegimeConfig` has each symbol once. -/
def RegimeConfig.getInstrument (c : RegimeConfig F) (symbol : String) :
    Except PyException (InstrumentRegimeConfig F) :=
  match c.instruments.get? symbol with
  | some instrument => .ok instrument
  | none =>
    let available := ", ".intercalate ((c.instruments.keys.mergeSort (· ≤ ·)).map pyRepr)
    .error (.keyError (s!"RegimeConfig has no instrument {pyRepr symbol}. " ++
      s!"Available: [{available}]"))

/-- The arguments of `build_extractor`, once its indicators take them. -/
def InstrumentRegimeConfig.setup (i : InstrumentRegimeConfig F) (barType : BarType)
    (c : RegimeConfig F) (h : 2 ≤ i.realizedVolWindow) : RegimeSetup F where
  barType := barType.text
  adxPeriod := i.adxPeriod
  bbPeriod := i.bbPeriod
  bbStddev := i.bbStddev
  bbBaselineWindow := i.bbBaselineWindow
  realizedVolWindow := i.realizedVolWindow
  annualisationFactor := 1
  emaSlopePeriod := i.emaSlopePeriod
  emaSlopeLookback := i.emaSlopeLookback
  warmupBars := c.warmupBars
  barType_ne := barType.text_ne
  adxPeriod_pos := i.adxPeriod_pos
  bbPeriod_pos := i.bbPeriod_pos
  bbStddev_pos := i.bbStddev_pos
  bbBaselineWindow_pos := i.bbBaselineWindow_pos
  two_le_realizedVolWindow := h
  annualisationFactor_pos := zero_lt_one
  emaSlopePeriod_pos := i.emaSlopePeriod_pos
  emaSlopeLookback_pos := i.emaSlopeLookback_pos
  warmupBars_pos := c.warmupBars_pos

/-- What `build_regime_actor` gives the filter. -/
def InstrumentRegimeConfig.hysteresisConfig (i : InstrumentRegimeConfig F) (barType : BarType)
    (c : RegimeConfig F) : HysteresisConfig F where
  barType := barType.text
  confirmationBars := c.confirmationBars
  thresholds := i.thresholds
  barType_ne := barType.text_ne
  confirmationBars_pos := c.confirmationBars_pos

/-- The components that `build_regime_actor` wires. -/
def InstrumentRegimeConfig.actor {σ : Type} (i : InstrumentRegimeConfig F) (barType : BarType)
    (c : RegimeConfig F) (h : 2 ≤ i.realizedVolWindow)
    (auditHook : Option (RegimeAuditHook F σ)) : RegimeActor F σ where
  classifier := { thresholds := i.thresholds }
  extractor := (i.setup barType c h).buildExtractor
  hysteresis := { config := i.hysteresisConfig barType c }
  auditToDb := auditHook.isSome
  auditHook := auditHook

/-- `build_regime_actor`; `RealizedVolatility` wants more of its window than
the config does. -/
def buildRegimeActor {σ : Type} (c : RegimeConfig F) (barType : BarType)
    (auditHook : Option (RegimeAuditHook F σ)) : Except PyException (Option (RegimeActor F σ)) :=
  if c.enabled = false then .ok none
  else
    match c.getInstrument barType.symbol with
    | .error e => .error e
    | .ok i =>
      if h : 2 ≤ i.realizedVolWindow then .ok (some (i.actor barType c h auditHook))
      else .error (.valueError s!"window must be >= 2, got {i.realizedVolWindow}")

end

end TdSandboxed
