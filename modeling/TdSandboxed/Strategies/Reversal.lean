/-
TdSandboxed.Strategies.Reversal — the two strategies that reverse their
position (`strategies/ma_crossover.py`, `strategies/supertrend.py`), with
the entry they share (`strategies/bracket_strategy.py`, `on_event` and the
order helpers of `strategies/base_strategy.py`,
`strategies/mixins/atr_stop_mixin.py`,
`strategies/mixins/entry_filter_mixin.py`).

A bar callback reads its position from `_position`, and only `on_event`
sets that. The orders of a callback are filled once it has returned, one
after the other, and each fill is reported to `on_event`.

What Nautilus computes comes with the bar: the moving averages, the average
true range, the last close, the balance. So does what the scale-out, which
runs after the signal, asks for: it only reduces. The periods of the two
configs shape these readings alone and are left out. Each entry is a
position of its own at the venue.
-/
import TdSandboxed.Indicators.RegimeIndicators
import TdSandboxed.Regime.HysteresisFilter
import TdSandboxed.Strategies.OpeningRange
import TdSandboxed.Strategies.PartialClose

namespace TdSandboxed

open Lib

/-! ## Stops and sizes -/

/-- The value of an indicator of Nautilus, a float. -/
inductive IndicatorReading
  | finite (value : ℚ)
  | infinity (negative : Bool)
  | nan
  deriving DecidableEq

def isAtrUnsafe : Option IndicatorReading → Bool
  | some (.finite value) => value ≤ 0
  | none | some (.infinity _) | some .nan => true

/-- The Decimal of a reading that is safe. -/
def safeAtr (atr : Option IndicatorReading) : Option ℚ :=
  match atr with
  | some (.finite value) => if isAtrUnsafe atr then none else some value
  | _ => none

def validatedOffset (atrValue multiplier : ℚ) : Except PyException ℚ :=
  if atrValue ≤ 0 then
    .error (.valueError
      s!"atr_value must be positive, got {BracketStrategyConfig.decimalText atrValue}")
  else if multiplier ≤ 0 then
    .error (.valueError
      s!"multiplier must be positive, got {BracketStrategyConfig.decimalText multiplier}")
  else .ok (atrValue * multiplier)

def calculateAtrStop (side : OrderSide) (entryPrice atrValue multiplier : ℚ) :
    Except PyException ℚ := do
  let offset ← validatedOffset atrValue multiplier
  match side with
  | .buy => return entryPrice - offset
  | .sell => return entryPrice + offset

def calculateAtrTakeProfit (side : OrderSide) (entryPrice atrValue multiplier : ℚ) :
    Except PyException ℚ := do
  let offset ← validatedOffset atrValue multiplier
  match side with
  | .buy => return entryPrice + offset
  | .sell => return entryPrice - offset

/-! ## Positions and orders -/

/-- A position in the cache of Nautilus. -/
structure HeldPosition where
  id : ℕ
  side : PositionSide
  deriving DecidableEq

/-- A market entry with its stop and its target. -/
structure BracketOrder where
  side : OrderSide
  quantity : ℚ
  slTriggerPrice : ℚ
  tpPrice : ℚ
  deriving DecidableEq

inductive SubmittedOrder
  /-- A market order that closes one position. -/
  | close (position : HeldPosition)
  | bracket (order : BracketOrder)
  /-- What the scale-out asks for. A partial close leaves a part open. -/
  | tactic (action : TacticAction)
  deriving DecidableEq

/-- What reaches `on_event`; an opened position is looked up in the cache. -/
inductive PositionEvent
  | opened (position : HeldPosition)
  | closed (positionId : ℕ)

/-- `on_event`: what it leaves in `_position`. -/
def onEvent (position : Option HeldPosition) : PositionEvent → Option HeldPosition
  | .opened p => some p
  | .closed positionId => if ∃ p ∈ position, p.id = positionId then none else position

/-- What a strategy is built with, and what is injected into it. -/
structure BracketSetup where
  config : BracketStrategyConfig
  allowedRegimes : Option (List RegimeState) := none
  /-- Balance, entry and stop, in this order; engine units. -/
  sizeFromRisk : ℚ → ℚ → ℚ → ℚ
  makeQty : ℚ → Except PyException ℚ
  makePrice : ℚ → ℚ

/-- What a bar callback finds. -/
structure CallbackView where
  /-- `_position` -/
  position : Option HeldPosition
  /-- The open positions of the cache. -/
  positionsOpen : List HeldPosition
  atr : Option IndicatorReading
  lastClose : Option ℚ
  accountBalance : ℚ
  /-- The regime store, when there is one, and what it has published. -/
  regimeState : Option (Option RegimeState)

namespace CallbackView

def isFlat (v : CallbackView) : Bool := v.position = none

def isLong (v : CallbackView) : Bool := ∃ p ∈ v.position, p.side = .long

def isShort (v : CallbackView) : Bool := ∃ p ∈ v.position, p.side = .short

/-- `_close_position`; `close_all_positions` orders one close for each
position that is open. -/
def closePosition (v : CallbackView) : List SubmittedOrder :=
  if v.position.isSome then v.positionsOpen.map .close else []

end CallbackView

namespace BracketSetup

def regimeAdmits (b : BracketSetup) (v : CallbackView) : Bool :=
  match v.regimeState with
  | none => true
  | some none => false
  | some (some state) =>
    if state = .highVolatility ∨ state = .unknown then false
    else b.allowedRegimes.all (state ∈ ·)

def buildBracketArgs (b : BracketSetup) (side : OrderSide) (quantity slPrice tpPrice : ℚ) :
    Except PyException BracketOrder := do
  BracketStrategyConfig.check (quantity ≤ 0)
    s!"quantity must be positive, got {BracketStrategyConfig.decimalText quantity}"
  BracketStrategyConfig.check (side = .buy ∧ slPrice ≥ tpPrice)
    (s!"sl_price ({BracketStrategyConfig.decimalText slPrice}) must be below " ++
      s!"tp_price ({BracketStrategyConfig.decimalText tpPrice}) for LONG")
  BracketStrategyConfig.check (side = .sell ∧ slPrice ≤ tpPrice)
    (s!"sl_price ({BracketStrategyConfig.decimalText slPrice}) must be above " ++
      s!"tp_price ({BracketStrategyConfig.decimalText tpPrice}) for SHORT")
  let quantity ← b.makeQty quantity
  return { side, quantity, slTriggerPrice := b.makePrice slPrice, tpPrice := b.makePrice tpPrice }

/-- `_submit_bracket_order` -/
def submitBracketOrder (b : BracketSetup) (v : CallbackView) (side : OrderSide)
    (quantity slPrice tpPrice : ℚ) : Except PyException (List SubmittedOrder) :=
  if ¬ v.isFlat then .ok []
  else if quantity ≤ 0 then .ok []
  else do
    let order ← b.buildBracketArgs side quantity slPrice tpPrice
    return [.bracket order]

/-- Quantity, stop and target. -/
def computeBracketParams (b : BracketSetup) (side : OrderSide)
    (entryPrice atrValue accountBalance : ℚ) : Except PyException (ℚ × ℚ × ℚ) := do
  let slPrice ← calculateAtrStop side entryPrice atrValue b.config.slAtrMult
  let tpPrice ← calculateAtrTakeProfit side entryPrice atrValue b.config.tpAtrMult
  return (b.sizeFromRisk accountBalance entryPrice slPrice, slPrice, tpPrice)

/-- `_submit_bracket_for_entry` -/
def submitBracketForEntry (b : BracketSetup) (v : CallbackView) (signal : SignalType)
    (atrValue : ℚ) : Except PyException (List SubmittedOrder) :=
  if signal = .none then .ok []
  else if ¬ v.isFlat then .ok []
  else if ¬ b.regimeAdmits v then .ok []
  else
    let side : OrderSide := if signal = .buy then .buy else .sell
    match v.lastClose with
    | none => .ok []
    | some entryPrice => do
      let (qty, sl, tp) ← b.computeBracketParams side entryPrice atrValue v.accountBalance
      b.submitBracketOrder v side qty sl tp

/-- The end of both `_execute_signal`: an entry, if the average true range
is safe, after what was submitted before. -/
def enterWhenSafe (b : BracketSetup) (v : CallbackView) (signal : SignalType)
    (before : List SubmittedOrder) : Except PyException (List SubmittedOrder) :=
  match safeAtr v.atr with
  | none => .ok before
  | some atrValue => do
    let entry ← b.submitBracketForEntry v signal atrValue
    return before ++ entry

end BracketSetup

/-! ## The two strategies -/

/-- The moving averages of the bar before, once there were any. -/
structure MACrossoverStrategy where
  prev : Option (ℚ × ℚ) := none
  deriving DecidableEq

/-- What a bar brings for the indicators of both strategies. -/
structure ReversalBar where
  tsInit : ℤ
  bar : TrailBar
  /-- The fast and the slow average, once both are initialised. -/
  emas : Option (ℚ × ℚ) := none
  atrInitialized : Bool := true
  atr : Option IndicatorReading
  lastClose : Option ℚ
  accountBalance : ℚ
  regimeState : Option (Option RegimeState) := none
  tactics : List TacticAction := []

namespace MACrossoverStrategy

def generateSignal (s : MACrossoverStrategy) (bar : ReversalBar) :
    MACrossoverStrategy × SignalType :=
  match bar.emas with
  | none => (s, .none)
  | some (fast, slow) =>
    let signal :=
      match s.prev with
      | none => SignalType.none
      | some (prevFast, prevSlow) =>
        if prevFast ≤ prevSlow ∧ fast > slow then .buy
        else if prevFast ≥ prevSlow ∧ fast < slow then .sell
        else .none
    ({ s with prev := some (fast, slow) }, signal)

def executeSignal (b : BracketSetup) (v : CallbackView) (signal : SignalType) :
    Except PyException (List SubmittedOrder) :=
  if signal = .none then .ok []
  else if signal = .close then .ok v.closePosition
  else if signal = .buy ∧ v.isShort then b.enterWhenSafe v signal v.closePosition
  else if signal = .sell ∧ v.isLong then b.enterWhenSafe v signal v.closePosition
  else b.enterWhenSafe v signal []

end MACrossoverStrategy

structure SupertrendStrategy where
  supertrend : Supertrend
  /-- The indicator of the ADX gate, when the gate is on. -/
  entryAdx : Option (ADX ℚ) := none
  prevTrend : Option ℤ := none

namespace SupertrendStrategy

/-- The indicators are registered for the bars and see each one first. -/
def updateIndicators (s : SupertrendStrategy) (bar : ReversalBar) :
    Except IndicatorError SupertrendStrategy := do
  let priceBar : PriceBar ℚ :=
    { high := bar.bar.high, low := bar.bar.low, close := bar.bar.close }
  let entryAdx ← match s.entryAdx with
    | none => .ok none
    | some adx => (adx.handleBar priceBar).map some
  return { s with supertrend := s.supertrend.handleBar bar.bar, entryAdx }

def adxGateBlocks (c : BracketStrategyConfig) (s : SupertrendStrategy) : Bool :=
  match s.entryAdx with
  | none => false
  | some adx => ¬ adx.initialized ∨ adx.adx = none ∨ ∃ value ∈ adx.adx, ∃ least ∈ c.adxGateMin,
      value < least

/-- `_session_gate`; none lets the bar pass. Its times are seconds of the
local day. -/
def sessionGate (offset : String → ℤ → ℤ) (c : BracketStrategyConfig) (isFlat : Bool)
    (bar : ReversalBar) : Option SignalType :=
  match c.sessionFilterTz with
  | none => none
  | some tz =>
    if inSession (offset tz) (bar.tsInit / 1000000000)
        (c.sessionFilterOpenHour * 3600 + c.sessionFilterOpenMinute * 60)
        (c.sessionFilterCloseHour * 3600 + c.sessionFilterCloseMinute * 60) then none
    else if c.sessionFilterExitPolicy = "flatten" then
      if isFlat then some .none else some .close
    else if isFlat then some .none else none

def generateSignal (offset : String → ℤ → ℤ) (c : BracketStrategyConfig)
    (s : SupertrendStrategy) (isFlat : Bool) (bar : ReversalBar) :
    SupertrendStrategy × SignalType :=
  match sessionGate offset c isFlat bar with
  | some gated => (s, gated)
  | none =>
    if ¬ s.supertrend.initialized ∨ ¬ bar.atrInitialized then (s, .none)
    else
      let after := { s with prevTrend := some s.supertrend.trend }
      match s.prevTrend with
      | none => (after, .none)
      | some prev =>
        if s.supertrend.trend = prev then (after, .none)
        else if s.adxGateBlocks c then (after, .none)
        else if s.supertrend.trend = 1 then (after, .buy)
        else if s.supertrend.trend = -1 then (after, .sell)
        else (after, .none)

def executeSignal (b : BracketSetup) (v : CallbackView) (signal : SignalType) :
    Except PyException (List SubmittedOrder) :=
  if signal = .none then .ok []
  else if signal = .buy ∧ v.isShort then b.enterWhenSafe v signal v.closePosition
  else if signal = .sell ∧ v.isLong then b.enterWhenSafe v signal v.closePosition
  else if signal = .close then .ok v.closePosition
  else b.enterWhenSafe v signal []

end SupertrendStrategy

/-! ## Bars and fills -/

inductive ReversalStrategy
  | maCrossover (s : MACrossoverStrategy)
  | supertrend (s : SupertrendStrategy)

namespace ReversalStrategy

/-- The indicators and `generate_signal`; none when an indicator raises. -/
def generateSignal (offset : String → ℤ → ℤ) (c : BracketStrategyConfig) (isFlat : Bool)
    (bar : ReversalBar) : ReversalStrategy → Option (ReversalStrategy × SignalType)
  | .maCrossover s =>
    let (s, signal) := s.generateSignal bar
    some (.maCrossover s, signal)
  | .supertrend s => do
    let s ← (s.updateIndicators bar).toOption
    let (s, signal) := s.generateSignal offset c isFlat bar
    return (.supertrend s, signal)

def executeSignal (b : BracketSetup) (v : CallbackView) (signal : SignalType) :
    ReversalStrategy → Except PyException (List SubmittedOrder)
  | .maCrossover _ => MACrossoverStrategy.executeSignal b v signal
  | .supertrend _ => SupertrendStrategy.executeSignal b v signal

/-- `on_reset`, with fresh indicators. -/
def onReset : ReversalStrategy → ReversalStrategy
  | .maCrossover _ => .maCrossover {}
  | .supertrend s => .supertrend {
      supertrend := { multiplier := s.supertrend.multiplier }
      entryAdx := s.entryAdx.map fun adx => { period := adx.period, period_pos := adx.period_pos } }

end ReversalStrategy

/-- A strategy and the venue. -/
structure ReversalDesk where
  strategy : ReversalStrategy
  /-- `_position` -/
  position : Option HeldPosition := none
  /-- What is open at the venue. -/
  positions : List HeldPosition := []
  nextId : ℕ := 0

inductive ReversalEvent
  | bar (bar : ReversalBar)
  /-- The stop or the target of a position is filled. -/
  | exitFilled (positionId : ℕ)
  | reset

/-- The position an entry opens. -/
def OrderSide.opens : OrderSide → PositionSide
  | .buy => .long
  | .sell => .short

namespace ReversalDesk

/-- The venue fills an order: what is open then, and what is reported. -/
def fill (d : ReversalDesk) : SubmittedOrder → ReversalDesk × List PositionEvent
  | .close p =>
    if p ∈ d.positions then ({ d with positions := d.positions.erase p }, [.closed p.id])
    else (d, [])
  | .bracket order =>
    let p := { id := d.nextId, side := order.side.opens }
    ({ d with positions := d.positions ++ [p], nextId := d.nextId + 1 }, [.opened p])
  | .tactic _ => (d, [])

/-- Reports reach the strategy. -/
def report (d : ReversalDesk) (events : List PositionEvent) : ReversalDesk :=
  { d with position := events.foldl onEvent d.position }

/-- The orders of a callback, filled and reported in their order. -/
def deliver (d : ReversalDesk) (orders : List SubmittedOrder) : ReversalDesk :=
  orders.foldl (fun d order => (d.fill order).1.report (d.fill order).2) d

/-- What the callback of a bar finds. -/
def view (d : ReversalDesk) (bar : ReversalBar) : CallbackView :=
  { position := d.position, positionsOpen := d.positions, atr := bar.atr
    lastClose := bar.lastClose, accountBalance := bar.accountBalance
    regimeState := bar.regimeState }

/-- The strategy after a bar, and its signal. -/
def signal (offset : String → ℤ → ℤ) (b : BracketSetup) (d : ReversalDesk) (bar : ReversalBar) :
    Option (ReversalStrategy × SignalType) :=
  d.strategy.generateSignal offset b.config (d.view bar).isFlat bar

/-- `on_bar`: the orders it submits. The scale-out does nothing when flat. -/
def onBar (b : BracketSetup) (d : ReversalDesk) (bar : ReversalBar) (signal : SignalType) :
    Except PyException (List SubmittedOrder) := do
  let orders ← d.strategy.executeSignal b (d.view bar) signal
  return orders ++ if (d.view bar).isFlat then [] else bar.tactics.map .tactic

/-- A callback that raises halts the engine. -/
def step (offset : String → ℤ → ℤ) (b : BracketSetup) (d : ReversalDesk) :
    ReversalEvent → Option ReversalDesk
  | .bar bar => do
    let (strategy, signal) ← d.signal offset b bar
    let orders ← (d.onBar b bar signal).toOption
    return { d with strategy }.deliver orders
  | .exitFilled positionId =>
    match d.positions.find? fun p => p.id = positionId with
    | none => some d
    | some p => some ({ d with positions := d.positions.erase p }.report [.closed p.id])
  | .reset => some { d with strategy := d.strategy.onReset }

end ReversalDesk

end TdSandboxed
