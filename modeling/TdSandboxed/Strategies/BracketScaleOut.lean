/-
TdSandboxed.Strategies.BracketScaleOut — scale-out and trailing stop of the
bracket strategies (`strategies/bracket_strategy.py`, the config;
`strategies/bracket_scale_out.py`, the state machine).

`evaluateScaleOut` runs once a bar, after the trail indicator has seen it:
the partial close, the move of the stop to breakeven, the start of the
trail, the trail. It answers with what it asked the broker for, and a
`modifySl` may be refused.

Prices are exact rationals, and a Decimal in an error message is written
with the fewest decimals. `isZone` says which names `ZoneInfo` knows. The
order legs behind `_close_partial` and `_modify_sl` are left out.
-/
import TdSandboxed.Indicators.Supertrend
import TdSandboxed.Lib.Run
import TdSandboxed.Rules.BaseRule

namespace TdSandboxed

open Lib

/-! ## The config -/

structure BracketStrategyConfig where
  atrPeriod : ℤ := 14
  slAtrMult : ℚ := 3 / 2
  tpAtrMult : ℚ := 3
  riskPercent : ℚ := 1
  scaleOutEnabled : Bool := false
  scaleOutRTrigger : ℚ := 1
  scaleOutCloseFraction : ℚ := 1 / 2
  breakevenAtR : Option ℚ := some 1
  breakevenOffsetPips : ℚ := 0
  trailingEnabled : Bool := false
  trailingMethod : String := "supertrend"
  trailingAtrPeriod : ℤ := 7
  trailingAtrMultiplier : ℚ := 21 / 10
  safetyTpAtrMult : ℚ := 6
  adxGatePeriod : ℤ := 14
  adxGateMin : Option ℚ := none
  sessionFilterTz : Option String := none
  sessionFilterOpenHour : ℤ := 0
  sessionFilterOpenMinute : ℤ := 0
  sessionFilterCloseHour : ℤ := 23
  sessionFilterCloseMinute : ℤ := 59
  sessionFilterExitPolicy : String := "flatten"
  deriving DecidableEq

namespace BracketStrategyConfig

/-- `str(value)` of a Decimal. -/
def decimalText (q : ℚ) : String :=
  match (List.range 17).find? fun d => (q * 10 ^ d).den = 1 with
  | some d => fmtFixed d q
  | none => fmtFixed 16 q

/-- One check: the error, when the condition holds. -/
def check (invalid : Bool) (message : String) : Except PyException Unit :=
  if invalid then .error (.valueError message) else .ok ()

/-- A field that must be positive. -/
def checkPositive (name : String) (value : ℚ) : Except PyException Unit :=
  check (value ≤ 0) s!"{name} must be > 0, got {decimalText value}"

/-- An hour or a minute of the session filter. -/
def checkBound (name : String) (value bound : ℤ) : Except PyException Unit :=
  check (value < 0 ∨ bound < value) s!"{name} must be in [0, {bound}], got {value}"

def checkScaleOut (c : BracketStrategyConfig) : Except PyException Unit := do
  checkPositive "scale_out_r_trigger" c.scaleOutRTrigger
  check (¬ (0 < c.scaleOutCloseFraction ∧ c.scaleOutCloseFraction < 1))
    s!"scale_out_close_fraction must be in (0, 1), got {decimalText c.scaleOutCloseFraction}"
  match c.breakevenAtR with
  | none => .ok ()
  | some r =>
    check (r ≤ 0) s!"breakeven_at_r must be > 0 when set, got {decimalText r}"
    check (r > c.scaleOutRTrigger)
      ("breakeven_at_r must be <= scale_out_r_trigger (BE moves at the partial close, " ++
        s!"not after it), got be={decimalText r} trigger={decimalText c.scaleOutRTrigger}")

def checkTrailing (c : BracketStrategyConfig) : Except PyException Unit := do
  check (c.trailingMethod ≠ "supertrend")
    s!"trailing_method must be 'supertrend' in Phase 1, got '{c.trailingMethod}'"
  check (c.trailingAtrPeriod ≤ 0) s!"trailing_atr_period must be > 0, got {c.trailingAtrPeriod}"
  checkPositive "trailing_atr_multiplier" c.trailingAtrMultiplier

def checkAdxGate (c : BracketStrategyConfig) : Except PyException Unit :=
  match c.adxGateMin with
  | none => .ok ()
  | some m => do
    check (m ≤ 0) s!"adx_gate_min must be > 0 when set, got {decimalText m}"
    check (c.adxGatePeriod ≤ 0) s!"adx_gate_period must be > 0, got {c.adxGatePeriod}"

def checkSessionFilter (isZone : String → Bool) (c : BracketStrategyConfig) :
    Except PyException Unit :=
  match c.sessionFilterTz with
  | none => .ok ()
  | some tz => do
    check (!isZone tz) s!"session_filter_tz '{tz}' is not a known IANA timezone"
    checkBound "session_filter_open_hour" c.sessionFilterOpenHour 23
    checkBound "session_filter_open_minute" c.sessionFilterOpenMinute 59
    checkBound "session_filter_close_hour" c.sessionFilterCloseHour 23
    checkBound "session_filter_close_minute" c.sessionFilterCloseMinute 59
    check (c.sessionFilterExitPolicy ∉ ["flatten", "block_entry"])
      ("session_filter_exit_policy must be 'flatten' or 'block_entry', got " ++
        s!"'{c.sessionFilterExitPolicy}'")

/-- `__post_init__` -/
def postInit (isZone : String → Bool) (c : BracketStrategyConfig) : Except PyException Unit := do
  check (c.atrPeriod ≤ 0) s!"atr_period must be positive, got {c.atrPeriod}"
  checkPositive "sl_atr_mult" c.slAtrMult
  checkPositive "tp_atr_mult" c.tpAtrMult
  checkPositive "risk_percent" c.riskPercent
  check (c.slAtrMult ≥ c.tpAtrMult)
    ("sl_atr_mult must be < tp_atr_mult (R:R > 1), " ++
      s!"got sl={decimalText c.slAtrMult} tp={decimalText c.tpAtrMult}")
  checkPositive "safety_tp_atr_mult" c.safetyTpAtrMult
  if c.scaleOutEnabled then c.checkScaleOut
  check (c.breakevenOffsetPips < 0)
    s!"breakeven_offset_pips must be >= 0, got {decimalText c.breakevenOffsetPips}"
  if c.trailingEnabled then c.checkTrailing
  c.checkAdxGate
  c.checkSessionFilter isZone

/-- The config is built. -/
def Admitted (isZone : String → Bool) (c : BracketStrategyConfig) : Prop :=
  c.postInit isZone = .ok ()

instance (isZone : String → Bool) (c : BracketStrategyConfig) : Decidable (c.Admitted isZone) :=
  match h : c.postInit isZone with
  | .ok () => .isTrue h
  | .error _ => .isFalse fun hok => nomatch h.symm.trans hok

end BracketStrategyConfig

/-! ## The state machine -/

structure ScaleOutSetup where
  entryPrice : ℚ
  initialSl : ℚ
  initialQty : ℚ
  side : OrderSide
  riskPerUnit : ℚ
  bePrice : Option ℚ := none
  deriving DecidableEq

structure ScaleOutTradeState where
  setup : ScaleOutSetup
  currentSl : ℚ
  scaledOut : Bool := false
  breakevenMoved : Bool := false
  trailActive : Bool := false
  deriving DecidableEq

/-- What the state machine asks the broker for. -/
inductive TacticAction
  | closePartial (fraction : ℚ)
  | modifySl (price : ℚ)
  deriving DecidableEq

/-- Whether the two calls of `_modify_sl` a bar may make succeed. -/
structure ModifyAnswers where
  breakeven : Bool := true
  trail : Bool := true
  deriving DecidableEq

/-- `_compute_be_price` -/
def computeBePrice (c : BracketStrategyConfig) (side : OrderSide) (entryPrice riskPerUnit : ℚ)
    (pipSize : Option ℚ) : Option ℚ :=
  if c.breakevenOffsetPips ≤ 0 then none
  else
    match c.scaleOutEnabled, c.breakevenAtR, pipSize with
    | true, some breakevenAtR, some pipSize =>
      let offset := c.breakevenOffsetPips * pipSize
      -- the offset would eat the whole cushion
      if offset ≥ breakevenAtR * riskPerUnit then none
      else match side with
        | .buy => some (entryPrice + offset)
        | .sell => some (entryPrice - offset)
    | _, _, _ => none

/-- `_init_scale_state`; with both modes off it does nothing. -/
def initScaleState (c : BracketStrategyConfig) (side : OrderSide) (entryPrice slPrice qty : ℚ)
    (pipSize : Option ℚ) : Option ScaleOutTradeState :=
  if c.scaleOutEnabled ∨ c.trailingEnabled then
    let riskPerUnit := |entryPrice - slPrice|
    some {
      setup := {
        entryPrice, side, riskPerUnit
        initialSl := slPrice
        initialQty := qty
        bePrice := computeBePrice c side entryPrice riskPerUnit pipSize }
      currentSl := slPrice }
  else none

namespace ScaleOutTradeState

/-- The open profit in multiples of the risk. -/
def unrealizedR (st : ScaleOutTradeState) (currentPrice : ℚ) : ℚ :=
  match st.setup.side with
  | .buy => (currentPrice - st.setup.entryPrice) / st.setup.riskPerUnit
  | .sell => (st.setup.entryPrice - currentPrice) / st.setup.riskPerUnit

/-- Step 1: the partial close. -/
def closePartial (c : BracketStrategyConfig) (st : ScaleOutTradeState) (currentPrice : ℚ) :
    ScaleOutTradeState × List TacticAction :=
  if c.scaleOutEnabled ∧ ¬ st.scaledOut ∧ st.unrealizedR currentPrice ≥ c.scaleOutRTrigger then
    ({ st with scaledOut := true }, [.closePartial c.scaleOutCloseFraction])
  else (st, [])

/-- The price of the move to breakeven. -/
def breakevenPrice (st : ScaleOutTradeState) : ℚ := st.setup.bePrice.getD st.setup.entryPrice

/-- Step 2: the stop goes to breakeven. A refused modify is tried again on
the next bar. -/
def moveToBreakeven (c : BracketStrategyConfig) (st : ScaleOutTradeState) (currentPrice : ℚ)
    (ok : Bool) : ScaleOutTradeState × List TacticAction :=
  if st.scaledOut ∧ ¬ st.breakevenMoved ∧
      ∃ r ∈ c.breakevenAtR, st.unrealizedR currentPrice ≥ r then
    (if ok then { st with breakevenMoved := true, currentSl := st.breakevenPrice } else st,
      [.modifySl st.breakevenPrice])
  else (st, [])

/-- Step 3: the trail starts. -/
def activateTrail (c : BracketStrategyConfig) (st : ScaleOutTradeState) : ScaleOutTradeState :=
  if ¬ st.trailActive ∧ c.trailingEnabled ∧
      (st.breakevenMoved ∨ ¬ c.scaleOutEnabled ∨ st.scaledOut ∧ c.breakevenAtR = none) then
    { st with trailActive := true }
  else st

/-- The trend of the trail is the position's, and its line tightens. -/
def Tightens (st : ScaleOutTradeState) (trend : ℤ) (newSl : ℚ) : Prop :=
  match st.setup.side with
  | .buy => trend = 1 ∧ st.currentSl < newSl
  | .sell => trend = -1 ∧ newSl < st.currentSl

instance (st : ScaleOutTradeState) (trend : ℤ) (newSl : ℚ) : Decidable (st.Tightens trend newSl) := by
  unfold Tightens
  split <;> infer_instance

/-- Step 4: `_update_trailing_sl`. -/
def updateTrailingSl (st : ScaleOutTradeState) (trail : Option Supertrend) (ok : Bool) :
    ScaleOutTradeState × List TacticAction :=
  match trail with
  | none => (st, [])
  | some trail =>
    match trail.initialized, trail.value with
    | true, some newSl =>
      if st.Tightens trail.trend newSl then
        (if ok then { st with currentSl := newSl } else st, [.modifySl newSl])
      else (st, [])
    | _, _ => (st, [])

/-- The first three steps, with what they asked for. -/
def beforeTrail (c : BracketStrategyConfig) (st : ScaleOutTradeState) (currentPrice : ℚ)
    (ok : Bool) : ScaleOutTradeState × List TacticAction :=
  let (st, closing) := st.closePartial c currentPrice
  let (st, moving) := st.moveToBreakeven c currentPrice ok
  (st.activateTrail c, closing ++ moving)

def evaluateScaleOut (c : BracketStrategyConfig) (trail : Option Supertrend)
    (st : ScaleOutTradeState) (currentPrice : ℚ) (answers : ModifyAnswers) :
    ScaleOutTradeState × List TacticAction :=
  if st.setup.riskPerUnit ≤ 0 then (st, [])
  else
    let (st, asked) := st.beforeTrail c currentPrice answers.breakeven
    if st.trailActive then
      let (st, trailing) := st.updateTrailingSl trail answers.trail
      (st, asked ++ trailing)
    else (st, asked)

end ScaleOutTradeState

/-- On the side of the price where a stop protects the position. -/
def OrderSide.Protects (side : OrderSide) (sl price : ℚ) : Prop :=
  match side with
  | .buy => sl < price
  | .sell => price < sl

instance (side : OrderSide) (sl price : ℚ) : Decidable (side.Protects sl price) :=
  match side with
  | .buy => inferInstanceAs (Decidable (sl < price))
  | .sell => inferInstanceAs (Decidable (price < sl))

/-- A stop that is asked for protects; a partial close asks for none. -/
def TacticAction.Protects (side : OrderSide) (price : ℚ) : TacticAction → Prop
  | .modifySl sl => side.Protects sl price
  | .closePartial _ => True

instance (side : OrderSide) (price : ℚ) : DecidablePred (TacticAction.Protects side price)
  | .modifySl sl => inferInstanceAs (Decidable (side.Protects sl price))
  | .closePartial _ => .isTrue trivial

/-! ## Bars and trades -/

/-- A strategy: the trail indicator and the trade that is open. -/
structure TrailingHost where
  trail : Option Supertrend
  scaleState : Option ScaleOutTradeState := none
  deriving DecidableEq

inductive HostEvent
  /-- A bar, for the indicator first and then for the state machine. -/
  | bar (bar : TrailBar) (answers : ModifyAnswers)
  /-- A position is opened and its stop is known. -/
  | opened (side : OrderSide) (entryPrice slPrice qty : ℚ) (pipSize : Option ℚ)
  | closed

namespace TrailingHost

def init (c : BracketStrategyConfig) : TrailingHost :=
  { trail := if c.trailingEnabled then some { multiplier := c.trailingAtrMultiplier } else none }

/-- The trail after a bar. -/
def trailAfter (h : TrailingHost) (bar : TrailBar) : Option Supertrend :=
  h.trail.map (·.handleBar bar)

/-- What a bar makes the state machine ask for, with its new state. -/
def onBar (c : BracketStrategyConfig) (h : TrailingHost) (bar : TrailBar)
    (answers : ModifyAnswers) : Option (ScaleOutTradeState × List TacticAction) :=
  h.scaleState.map fun st => st.evaluateScaleOut c (h.trailAfter bar) bar.close answers

/-- The average true range stays once it is initialised. -/
def AtrStays (h : TrailingHost) (bar : TrailBar) : Prop :=
  ∀ trail ∈ h.trail, trail.initialized = true → bar.atr.isSome

instance (h : TrailingHost) (bar : TrailBar) : Decidable (h.AtrStays bar) :=
  inferInstanceAs (Decidable (∀ trail ∈ h.trail, _))

def step (c : BracketStrategyConfig) (h : TrailingHost) : HostEvent → Option TrailingHost
  | .bar bar answers =>
    if h.AtrStays bar then
      some { trail := h.trailAfter bar, scaleState := (h.onBar c bar answers).map Prod.fst }
    else none
  | .opened side entryPrice slPrice qty pipSize =>
    some { h with scaleState := initScaleState c side entryPrice slPrice qty pipSize }
  | .closed => some { h with scaleState := none }

/-! ## What a stop should do -/

/-- Every stop the bar makes the state machine ask for is on the protective
side of the close. -/
def Protective (c : BracketStrategyConfig) (h : TrailingHost) : HostEvent → Prop
  | .bar bar answers => ∀ st ∈ h.scaleState,
      ∀ action ∈ (st.evaluateScaleOut c (h.trailAfter bar) bar.close answers).2,
      action.Protects st.setup.side bar.close
  | _ => True

instance (c : BracketStrategyConfig) (h : TrailingHost) : DecidablePred (Protective c h)
  | .bar _ _ => inferInstanceAs (Decidable (∀ st ∈ h.scaleState, _))
  | .opened .. | .closed => .isTrue trivial

/-- The close lies on the line, or the bar turns the trend between crossed
bands. -/
def LineMeetsClose (side : OrderSide) (trail : Supertrend) (bar : TrailBar) (atr : ℚ) : Prop :=
  match side with
  | .buy => trail.OnLower bar atr ∨ trail.TurnsUpBelowLower bar atr
  | .sell => trail.OnUpper bar atr ∨ trail.TurnsDownAboveUpper bar atr

instance (side : OrderSide) (trail : Supertrend) (bar : TrailBar) (atr : ℚ) :
    Decidable (LineMeetsClose side trail bar atr) :=
  match side with
  | .buy => inferInstanceAs (Decidable (_ ∨ _))
  | .sell => inferInstanceAs (Decidable (_ ∨ _))

/-- On no bar whose line tightens the stop does the close meet the line. -/
def Regular (c : BracketStrategyConfig) (h : TrailingHost) : HostEvent → Prop
  | .bar bar answers => ∀ st ∈ h.scaleState, ∀ trail ∈ h.trail, ∀ atr ∈ bar.atr,
      0 < st.setup.riskPerUnit → (st.beforeTrail c bar.close answers.breakeven).1.trailActive →
      (st.beforeTrail c bar.close answers.breakeven).1.Tightens (trail.line bar atr).1
        (trail.line bar atr).2 →
      ¬ LineMeetsClose st.setup.side trail bar atr
  | _ => True

instance (c : BracketStrategyConfig) (h : TrailingHost) : DecidablePred (Regular c h)
  | .bar _ _ => inferInstanceAs (Decidable (∀ st ∈ h.scaleState, _))
  | .opened .. | .closed => .isTrue trivial

end TrailingHost

end TdSandboxed
