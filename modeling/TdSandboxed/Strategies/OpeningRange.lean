/-
TdSandboxed.Strategies.OpeningRange — the opening range breakout
(`strategies/orb.py`, `strategies/mixins/session_filter_mixin.py`).

A bar of a session either widens the opening range, when it comes soon
enough after the first bar that was handled in the session, or is tried
for a breakout. Bars before the average true range is there are not
handled at all.

Times are whole seconds, as `generate_signal` rounds them, and the offset
of the time zone is a function of the instant. A session id is the number
of the local day, for the text `YYYY-MM-DD` that names it. Whether a
position is open and whether the average true range is initialised come
with each bar.
-/
import TdSandboxed.Orders.Order
import TdSandboxed.Strategies.BracketScaleOut

namespace TdSandboxed

open Lib

/-! ## The config -/

/-- Two digits of an hour or a minute. -/
def twoDigits (n : ℤ) : String := if n < 10 then s!"0{n}" else s!"{n}"

structure ORBConfig extends BracketStrategyConfig where
  slAtrMult := 1
  tpAtrMult := 2
  sessionOpenHour : ℤ := 8
  sessionOpenMinute : ℤ := 0
  sessionCloseHour : ℤ := 16
  sessionCloseMinute : ℤ := 30
  sessionTz : String := "Europe/London"
  openingRangeMinutes : ℤ := 30
  deriving DecidableEq

namespace ORBConfig

/-- An hour or a minute of the session. -/
def checkRange (name : String) (value bound : ℤ) : Except PyException Unit :=
  BracketStrategyConfig.check (¬ (0 ≤ value ∧ value ≤ bound)) s!"{name} must be in 0..{bound}"

/-- The minute of the day at which the session opens. -/
def openMod (c : ORBConfig) : ℤ := c.sessionOpenHour * 60 + c.sessionOpenMinute

def closeMod (c : ORBConfig) : ℤ := c.sessionCloseHour * 60 + c.sessionCloseMinute

/-- `__post_init__` -/
def postInit (isZone : String → Bool) (c : ORBConfig) : Except PyException Unit := do
  c.toBracketStrategyConfig.postInit isZone
  checkRange "session_open_hour" c.sessionOpenHour 23
  checkRange "session_close_hour" c.sessionCloseHour 23
  checkRange "session_open_minute" c.sessionOpenMinute 59
  checkRange "session_close_minute" c.sessionCloseMinute 59
  BracketStrategyConfig.check (c.openingRangeMinutes ≤ 0) "opening_range_minutes must be positive"
  BracketStrategyConfig.check (c.openMod ≥ c.closeMod)
    ("session_open must be earlier than session_close (intraday-only); " ++
      s!"got open={twoDigits c.sessionOpenHour}:{twoDigits c.sessionOpenMinute} " ++
      s!"close={twoDigits c.sessionCloseHour}:{twoDigits c.sessionCloseMinute}")
  BracketStrategyConfig.check (c.openingRangeMinutes ≥ c.closeMod - c.openMod)
    (s!"opening_range_minutes ({c.openingRangeMinutes}) must be " ++
      s!"< session length ({c.closeMod - c.openMod} minutes)")

/-- The config is built. -/
def Admitted (isZone : String → Bool) (c : ORBConfig) : Prop :=
  c.postInit isZone = .ok ()

instance (isZone : String → Bool) (c : ORBConfig) : Decidable (c.Admitted isZone) :=
  match h : c.postInit isZone with
  | .ok () => .isTrue h
  | .error _ => .isFalse fun hok => nomatch h.symm.trans hok

end ORBConfig

/-! ## Sessions -/

/-- The wall clock of a zone, in seconds since its epoch. -/
def localTime (offset : ℤ → ℤ) (ts : ℤ) : ℤ := ts + offset ts

/-- `_to_local_time`, in seconds since local midnight. -/
def timeOfDay (offset : ℤ → ℤ) (ts : ℤ) : ℤ := localTime offset ts % 86400

/-- `session_id` -/
def sessionId (offset : ℤ → ℤ) (ts : ℤ) : ℤ := localTime offset ts / 86400

/-- `in_session` -/
def inSession (offset : ℤ → ℤ) (ts sessionStart sessionEnd : ℤ) : Bool :=
  if sessionStart ≤ sessionEnd then
    sessionStart ≤ timeOfDay offset ts ∧ timeOfDay offset ts ≤ sessionEnd
  else timeOfDay offset ts ≥ sessionStart ∨ timeOfDay offset ts ≤ sessionEnd

/-! ## The strategy -/

/-- What a bar brings: its nanosecond, its prices, and what the strategy
finds of its indicator and its position at that time. -/
structure ORBBar where
  tsInit : ℤ
  high : ℚ
  low : ℚ
  close : ℚ
  atrInitialized : Bool := true
  isFlat : Bool := true
  deriving DecidableEq

/-- `_bar_timestamp` -/
def ORBBar.timestamp (bar : ORBBar) : ℤ := bar.tsInit / 1000000000

structure ORBStrategy where
  config : ORBConfig
  currentSessionId : Option ℤ := none
  orHigh : Option ℚ := none
  orLow : Option ℚ := none
  orOpenTs : Option ℤ := none
  orComplete : Bool := false
  enteredThisSession : Bool := false
  deriving DecidableEq

namespace ORBStrategy

/-- `_reset_session_state` -/
def resetSessionState (s : ORBStrategy) : ORBStrategy :=
  { s with
    orHigh := none, orLow := none, orOpenTs := none, orComplete := false
    enteredThisSession := false }

/-- Outside the session, without a position. -/
def leaveSession (s : ORBStrategy) : ORBStrategy :=
  if s.currentSessionId ≠ none then { s.resetSessionState with currentSessionId := none } else s

/-- The detection of a new day. -/
def enterSession (s : ORBStrategy) (id ts : ℤ) : ORBStrategy :=
  if s.currentSessionId = some id then s
  else { s.resetSessionState with currentSessionId := some id, orOpenTs := some ts }

/-- The range with the high and the low of a bar. -/
def widen (s : ORBStrategy) (bar : ORBBar) : ORBStrategy :=
  { s with
    orHigh := some (s.orHigh.elim bar.high (max · bar.high))
    orLow := some (s.orLow.elim bar.low (min · bar.low)) }

/-- The range is over, or it is not and the bar belongs to it. -/
def accumulate (s : ORBStrategy) (ts : ℤ) (bar : ORBBar) : ORBStrategy × Bool :=
  match s.orOpenTs with
  | none => (s, false)
  | some openTs =>
    if s.orComplete then (s, false)
    else if ((ts - openTs : ℤ) : ℚ) / 60 ≥ s.config.openingRangeMinutes then
      ({ s with orComplete := true }, false)
    else (s.widen bar, true)

/-- The watch for a breakout. -/
def breakout (s : ORBStrategy) (bar : ORBBar) : ORBStrategy × SignalType :=
  if s.enteredThisSession ∨ ¬ bar.isFlat then (s, .none)
  else if ∃ high ∈ s.orHigh, bar.close > high then
    ({ s with enteredThisSession := true }, .buy)
  else if ∃ low ∈ s.orLow, bar.close < low then
    ({ s with enteredThisSession := true }, .sell)
  else (s, .none)

/-- What `generate_signal` does with a bar of the session. -/
def inSessionSignal (offset : ℤ → ℤ) (s : ORBStrategy) (bar : ORBBar) :
    ORBStrategy × SignalType :=
  let s := s.enterSession (sessionId offset bar.timestamp) bar.timestamp
  let (s, forming) := s.accumulate bar.timestamp bar
  if forming then (s, .none) else s.breakout bar

def generateSignal (offset : ℤ → ℤ) (s : ORBStrategy) (bar : ORBBar) :
    ORBStrategy × SignalType :=
  if ¬ bar.atrInitialized then (s, .none)
  else if ¬ inSession offset bar.timestamp (s.config.openMod * 60) (s.config.closeMod * 60) then
    if ¬ bar.isFlat then (s, .close) else (s.leaveSession, .none)
  else s.inSessionSignal offset bar

end ORBStrategy

/-! ## Runs -/

/-- What happens to a strategy. `reset` is `on_reset`. -/
inductive ORBEvent
  | bar (bar : ORBBar)
  | reset

/-- A strategy and its bars so far, each with its signal. -/
structure ORBRun where
  strategy : ORBStrategy
  log : List (ORBBar × SignalType) := []
  deriving DecidableEq

def ORBRun.step (offset : ℤ → ℤ) (r : ORBRun) : ORBEvent → Option ORBRun
  | .bar bar =>
    let (strategy, signal) := r.strategy.generateSignal offset bar
    some { strategy, log := r.log ++ [(bar, signal)] }
  | .reset => some { r with strategy := r.strategy.resetSessionState }

end TdSandboxed
