/-
TdSandboxed.Strategies.StopTracking — a bracket trade and the stop its venue
holds (`strategies/bracket_scale_out.py`; `_modify_sl` of
`strategies/base_strategy.py`).

`_modify_sl` finds the stop order, sends it `make_price` of the new price
and answers True. What the venue does with the request is not asked: the
answer of `_modify_sl` (`ModifyAnswers`) and that of the venue
(`VenueAnswers`) are two things. `make_price` is Nautilus code and a
parameter.

A `Trade` carries, beside the state of the mixin, what really happened: the
stop at the venue and how many partial closes, moves to breakeven and
trailing stops were asked for.
-/
import TdSandboxed.Strategies.BracketScaleOut

namespace TdSandboxed

open Lib

/-- Whether the venue carries out the modifies of a bar that were sent. -/
structure VenueAnswers where
  breakeven : Bool := true
  trail : Bool := true
  deriving DecidableEq

/-- A new stop that is not looser than the old one. -/
def OrderSide.Keeps (side : OrderSide) (old new : ℚ) : Prop :=
  match side with
  | .buy => old ≤ new
  | .sell => new ≤ old

instance (side : OrderSide) (old new : ℚ) : Decidable (side.Keeps old new) :=
  match side with
  | .buy => inferInstanceAs (Decidable (old ≤ new))
  | .sell => inferInstanceAs (Decidable (new ≤ old))

/-- An open position under the mixin. -/
structure Trade where
  st : ScaleOutTradeState
  /-- The stop the venue holds. -/
  liveSl : ℚ
  closes : ℕ := 0
  breakevens : ℕ := 0
  trails : ℕ := 0
  deriving DecidableEq

/-- What `_modify_sl` sent, when it found the stop order. -/
def sent (found : Bool) (asked : List TacticAction) : List TacticAction :=
  if found then asked else []

/-- The stop at the venue after what was sent to it. -/
def settle (makePrice : ℚ → ℚ) (accepted : Bool) (liveSl : ℚ) : List TacticAction → ℚ
  | [] => liveSl
  | .modifySl price :: rest =>
    settle makePrice accepted (if accepted then makePrice price else liveSl) rest
  | .closePartial _ :: rest => settle makePrice accepted liveSl rest

namespace Trade

variable (c : BracketStrategyConfig) (makePrice : ℚ → ℚ)

/-- The partial close and the move to breakeven. -/
def beforeTrail (t : Trade) (price : ℚ) (answers : ModifyAnswers) (venue : VenueAnswers) : Trade :=
  let (st, closing) := t.st.closePartial c price
  let (st, moving) := st.moveToBreakeven c price answers.breakeven
  { t with
    st
    liveSl := settle makePrice venue.breakeven t.liveSl (sent answers.breakeven moving)
    closes := t.closes + closing.length
    breakevens := t.breakevens + (sent answers.breakeven moving).length }

/-- The start of the trail and the trail. -/
def afterTrail (t : Trade) (trail : Option Supertrend) (answers : ModifyAnswers)
    (venue : VenueAnswers) : Trade :=
  let st := t.st.activateTrail c
  if st.trailActive then
    let (st, trailing) := st.updateTrailingSl trail answers.trail
    { t with
      st
      liveSl := settle makePrice venue.trail t.liveSl (sent answers.trail trailing)
      trails := t.trails + trailing.length }
  else { t with st }

/-- The moments of a bar at which a stop may have moved. -/
def moments (t : Trade) (trail : Option Supertrend) (price : ℚ) (answers : ModifyAnswers)
    (venue : VenueAnswers) : List Trade :=
  if t.st.setup.riskPerUnit ≤ 0 then []
  else
    let moved := t.beforeTrail c makePrice price answers venue
    [moved, moved.afterTrail c makePrice trail answers venue]

/-- `evaluate_scale_out`, at the venue as well. -/
def evaluate (t : Trade) (trail : Option Supertrend) (price : ℚ) (answers : ModifyAnswers)
    (venue : VenueAnswers) : Trade :=
  (t.moments c makePrice trail price answers venue).getLastD t

end Trade

/-! ## Bars and positions -/

structure StopDesk where
  trail : Option Supertrend
  trade : Option Trade := none
  deriving DecidableEq

inductive DeskEvent
  | bar (bar : TrailBar) (answers : ModifyAnswers) (venue : VenueAnswers)
  /-- A position is open and its stop is found. -/
  | opened (side : OrderSide) (entryPrice slPrice qty : ℚ) (pipSize : Option ℚ)
  | closed

/-- The event as the host sees it. -/
def DeskEvent.toHost : DeskEvent → HostEvent
  | .bar b answers _ => .bar b answers
  | .opened side entryPrice slPrice qty pipSize => .opened side entryPrice slPrice qty pipSize
  | .closed => .closed

namespace StopDesk

/-- What the strategy itself knows. -/
def toHost (d : StopDesk) : TrailingHost :=
  { trail := d.trail, scaleState := d.trade.map (·.st) }

variable (c : BracketStrategyConfig) (makePrice : ℚ → ℚ)

def init : StopDesk := { trail := (TrailingHost.init c).trail }

def step (d : StopDesk) : DeskEvent → Option StopDesk
  | .bar bar answers venue =>
    if d.toHost.AtrStays bar then
      let trail := d.toHost.trailAfter bar
      some { trail, trade := d.trade.map (·.evaluate c makePrice trail bar.close answers venue) }
    else none
  | .opened side entryPrice slPrice qty pipSize =>
    match d.trade with
    -- `_try_init_scale_state` keeps a state that is there
    | some _ => some d
    | none =>
      let opened := initScaleState c side entryPrice slPrice qty pipSize
      some { d with trade := opened.map fun st => { st, liveSl := slPrice } }
  | .closed => some { d with trade := none }

end StopDesk

/-! ## What a trade owes -/

namespace Trade

variable (c : BracketStrategyConfig) (makePrice : ℚ → ℚ)

/-- The phases in which the mode lets a stop trail: with scale-out after the
move to breakeven, or after the partial close where there is no such move. -/
def MayTrail (t : Trade) : Prop :=
  c.trailingEnabled ∧
    (c.scaleOutEnabled → if c.breakevenAtR.isSome then 0 < t.breakevens else 0 < t.closes)

instance (t : Trade) : Decidable (t.MayTrail c) :=
  inferInstanceAs (Decidable (_ ∧ (_ → ite _ _ _)))

/-- The recorded stop is the venue's, at most one partial close was asked
for, and no stop was trailed before its phase. -/
structure Honoured (t : Trade) : Prop where
  stop : t.st.currentSl = t.liveSl
  once : t.closes ≤ 1
  phase : 0 < t.trails → t.MayTrail c

instance (t : Trade) : Decidable (t.Honoured c) :=
  decidable_of_iff (t.st.currentSl = t.liveSl ∧ t.closes ≤ 1 ∧ (0 < t.trails → t.MayTrail c))
    ⟨fun h => ⟨h.1, h.2.1, h.2.2⟩, fun h => ⟨h.stop, h.once, h.phase⟩⟩

/-- The bar moves the stop to breakeven. -/
def BreakevenDue (st : ScaleOutTradeState) (price : ℚ) : Prop :=
  (st.scaledOut ∨ c.scaleOutEnabled ∧ st.unrealizedR price ≥ c.scaleOutRTrigger) ∧
    ¬ st.breakevenMoved ∧ ∃ r ∈ c.breakevenAtR, st.unrealizedR price ≥ r

instance (st : ScaleOutTradeState) (price : ℚ) : Decidable (BreakevenDue c st price) :=
  inferInstanceAs (Decidable (_ ∧ _ ∧ _))

/-- What is sent to breakeven is no looser than the stop, and the venue
takes it as it is. -/
def BreakevenLands (t : Trade) (price : ℚ) (answers : ModifyAnswers) (venue : VenueAnswers) :
    Prop :=
  BreakevenDue c t.st price → answers.breakeven →
    t.st.setup.side.Keeps t.st.currentSl t.st.breakevenPrice ∧
      if venue.breakeven then makePrice t.st.breakevenPrice = t.st.breakevenPrice
      else t.st.breakevenPrice = t.st.currentSl

instance (t : Trade) (price : ℚ) (answers : ModifyAnswers) (venue : VenueAnswers) :
    Decidable (t.BreakevenLands c makePrice price answers venue) :=
  inferInstanceAs (Decidable (_ → _ → _ ∧ ite _ _ _))

/-- The venue takes a line that is sent as it is. -/
def TrailLands (t : Trade) (trail : Option Supertrend) (price : ℚ) (answers : ModifyAnswers)
    (venue : VenueAnswers) : Prop :=
  let st := (t.st.beforeTrail c price answers.breakeven).1
  st.trailActive → answers.trail → ∀ s ∈ trail, s.initialized → ∀ line ∈ s.value,
    st.Tightens s.trend line → venue.trail ∧ makePrice line = line

instance (t : Trade) (trail : Option Supertrend) (price : ℚ) (answers : ModifyAnswers)
    (venue : VenueAnswers) : Decidable (t.TrailLands c makePrice trail price answers venue) :=
  inferInstanceAs (Decidable (_ → _ → ∀ s ∈ trail, _ → ∀ line ∈ s.value, _ → _))

end Trade

namespace StopDesk

variable (c : BracketStrategyConfig) (makePrice : ℚ → ℚ)

/-- At every moment of the bar the trade is as it should be, and its stop
never looser than before. -/
def Promised (d : StopDesk) : DeskEvent → Prop
  | .bar bar answers venue => ∀ t ∈ d.trade,
      let moments := t.moments c makePrice (d.toHost.trailAfter bar) bar.close answers venue
      (∀ m ∈ moments, m.Honoured c) ∧
        (t :: moments).Pairwise fun a b => t.st.setup.side.Keeps a.st.currentSl b.st.currentSl
  | _ => True

instance (d : StopDesk) : DecidablePred (d.Promised c makePrice)
  | .bar _ _ _ => inferInstanceAs (Decidable (∀ t ∈ d.trade, _ ∧ _))
  | .opened .. | .closed => .isTrue trivial

/-- The venue takes every stop of the bar as it was asked for. -/
def Landing (d : StopDesk) : DeskEvent → Prop
  | .bar bar answers venue => ∀ t ∈ d.trade, 0 < t.st.setup.riskPerUnit →
      t.BreakevenLands c makePrice bar.close answers venue ∧
        t.TrailLands c makePrice (d.toHost.trailAfter bar) bar.close answers venue
  | _ => True

instance (d : StopDesk) : DecidablePred (d.Landing c makePrice)
  | .bar _ _ _ => inferInstanceAs (Decidable (∀ t ∈ d.trade, _ → _ ∧ _))
  | .opened .. | .closed => .isTrue trivial

end StopDesk

end TdSandboxed
