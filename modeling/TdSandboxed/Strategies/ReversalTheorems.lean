/-
TdSandboxed.Strategies.ReversalTheorems — what becomes of a reversal
(`strategies/ma_crossover.py`, `strategies/supertrend.py`).

Within one callback the position does not change, so a callback that
closes it cannot enter: the entry helpers ask whether the strategy is flat,
and it is not before the close is reported. `executeSignal_of_open` says
this of every signal, and `flat_of_reverses` what it comes to: after a
signal against its position the strategy is flat. From flat, an entry does
open a position of its direction (`holds_of_entry`).
-/
import TdSandboxed.Strategies.Reversal
import TdSandboxed.Strategies.ScaleOutTheorems

namespace TdSandboxed

open Lib

/-! ## Signals -/

/-- A signal against the side of a position. -/
def SignalType.Against (signal : SignalType) (p : HeldPosition) : Prop :=
  signal = .buy ∧ p.side = .short ∨ signal = .sell ∧ p.side = .long

instance (signal : SignalType) (p : HeldPosition) : Decidable (signal.Against p) :=
  inferInstanceAs (Decidable (_ ∨ _))

/-- A signal on which a strategy closes its position. -/
def SignalType.Closes (signal : SignalType) (p : HeldPosition) : Prop :=
  signal = .close ∨ signal.Against p

instance (signal : SignalType) (p : HeldPosition) : Decidable (signal.Closes p) :=
  inferInstanceAs (Decidable (_ ∨ _))

/-- The side a signal asks for. -/
def SignalType.direction : SignalType → Option PositionSide
  | .buy => some .long
  | .sell => some .short
  | .close | .none => Option.none

theorem safeAtr_eq_some {atr : Option IndicatorReading} (h : isAtrUnsafe atr = false) :
    ∃ value, safeAtr atr = some value ∧ 0 < value := by
  cases atr with
  | none => cases h
  | some reading =>
    cases reading with
    | finite value =>
      refine ⟨value, ?_, ?_⟩
      · simp only [safeAtr, h, Bool.false_eq_true, if_false]
      · simpa [isAtrUnsafe] using h
    | infinity negative => cases h
    | nan => cases h

theorem toOption_eq_some {ε α : Type*} {x : Except ε α} {a : α} (h : x.toOption = some a) :
    x = .ok a := by
  cases x with
  | error e => cases h
  | ok b => exact congrArg Except.ok (Option.some.inj h)

/-- The two strategies act alike on a signal. -/
theorem SupertrendStrategy.executeSignal_eq (b : BracketSetup) (v : CallbackView)
    (signal : SignalType) :
    SupertrendStrategy.executeSignal b v signal = MACrossoverStrategy.executeSignal b v signal := by
  cases signal <;> rfl

theorem ReversalStrategy.executeSignal_eq (b : BracketSetup) (v : CallbackView)
    (signal : SignalType) (s : ReversalStrategy) :
    s.executeSignal b v signal = MACrossoverStrategy.executeSignal b v signal := by
  cases s with
  | maCrossover s => rfl
  | supertrend s => exact SupertrendStrategy.executeSignal_eq b v signal

/-! ## A callback with an open position -/

namespace BracketSetup

variable {b : BracketSetup} {v : CallbackView} {signal : SignalType} {p : HeldPosition}

theorem submitBracketForEntry_of_open (hp : v.position = some p) (atrValue : ℚ) :
    b.submitBracketForEntry v signal atrValue = .ok [] := by
  have hflat : v.isFlat = false := by simp [CallbackView.isFlat, hp]
  simp [submitBracketForEntry, hflat]

/-- With an open position the end of a signal adds nothing. -/
theorem enterWhenSafe_of_open (hp : v.position = some p) (before : List SubmittedOrder) :
    b.enterWhenSafe v signal before = .ok before := by
  unfold enterWhenSafe
  cases safeAtr v.atr with
  | none => rfl
  | some atrValue =>
    simp only [submitBracketForEntry_of_open hp]
    exact congrArg Except.ok (List.append_nil before)

/-- **A signal that meets an open position** closes it or does nothing;
never does it enter. -/
theorem executeSignal_of_open (hp : v.position = some p) :
    MACrossoverStrategy.executeSignal b v signal =
      .ok (if signal.Closes p then v.positionsOpen.map .close else []) := by
  obtain ⟨id, side⟩ := p
  have hclose : v.closePosition = v.positionsOpen.map .close := by
    simp [CallbackView.closePosition, hp]
  have hshort : v.isShort = decide (side = .short) := by simp [CallbackView.isShort, hp]
  have hlong : v.isLong = decide (side = .long) := by simp [CallbackView.isLong, hp]
  unfold MACrossoverStrategy.executeSignal SignalType.Closes SignalType.Against
  simp only [enterWhenSafe_of_open hp, hclose, hshort, hlong]
  cases signal <;> cases side <;> simp

/-! ## A callback when flat -/

/-- What is submitted from flat is one bracket at most, of the side of the
signal. -/
def EntersOnly (signal : SignalType) (orders : List SubmittedOrder) : Prop :=
  orders = [] ∨
    ∃ order, orders = [.bracket order] ∧ signal.direction = some order.side.opens

theorem buildBracketArgs_side {side : OrderSide} {quantity slPrice tpPrice : ℚ}
    {order : BracketOrder} (h : b.buildBracketArgs side quantity slPrice tpPrice = .ok order) :
    order.side = side := by
  unfold buildBracketArgs at h
  obtain ⟨-, -, h⟩ := bind_eq_ok.mp h
  obtain ⟨-, -, h⟩ := bind_eq_ok.mp h
  obtain ⟨-, -, h⟩ := bind_eq_ok.mp h
  obtain ⟨r, -, h⟩ := bind_eq_ok.mp h
  obtain rfl := Except.ok.inj h
  rfl

theorem entersOnly_submitBracketForEntry {atrValue : ℚ} {orders : List SubmittedOrder}
    (hsignal : signal = .buy ∨ signal = .sell)
    (h : b.submitBracketForEntry v signal atrValue = .ok orders) : EntersOnly signal orders := by
  have hdirection : signal.direction =
      some (if signal = .buy then OrderSide.buy else .sell).opens := by
    obtain rfl | rfl := hsignal <;> rfl
  unfold submitBracketForEntry at h
  split at h
  · exact .inl (Except.ok.inj h).symm
  split at h
  · exact .inl (Except.ok.inj h).symm
  split at h
  · exact .inl (Except.ok.inj h).symm
  cases hlast : v.lastClose with
  | none =>
    rw [hlast] at h
    exact .inl (Except.ok.inj h).symm
  | some entryPrice =>
    rw [hlast] at h
    obtain ⟨⟨qty, sl, tp⟩, -, h⟩ := bind_eq_ok.mp h
    dsimp only [submitBracketOrder] at h
    split at h
    · exact .inl (Except.ok.inj h).symm
    split at h
    · exact .inl (Except.ok.inj h).symm
    obtain ⟨order, horder, h⟩ := bind_eq_ok.mp h
    refine .inr ⟨order, (Except.ok.inj h).symm, ?_⟩
    rw [buildBracketArgs_side horder]
    exact hdirection

/-- **A signal when flat** enters or does nothing. -/
theorem executeSignal_of_flat {orders : List SubmittedOrder} (hp : v.position = none)
    (h : MACrossoverStrategy.executeSignal b v signal = .ok orders) : EntersOnly signal orders := by
  have hclose : v.closePosition = [] := by simp [CallbackView.closePosition, hp]
  have hshort : v.isShort = false := by simp [CallbackView.isShort, hp]
  have hlong : v.isLong = false := by simp [CallbackView.isLong, hp]
  unfold MACrossoverStrategy.executeSignal at h
  simp only [hclose, hshort, hlong, Bool.false_eq_true, and_false, if_false] at h
  split at h
  · exact .inl (Except.ok.inj h).symm
  split at h
  · exact .inl (Except.ok.inj h).symm
  rename_i hnone hclosing
  unfold enterWhenSafe at h
  cases hatr : safeAtr v.atr with
  | none =>
    rw [hatr] at h
    exact .inl (Except.ok.inj h).symm
  | some atrValue =>
    rw [hatr] at h
    obtain ⟨entry, hentry, h⟩ := bind_eq_ok.mp h
    obtain rfl := Except.ok.inj h
    refine entersOnly_submitBracketForEntry ?_ hentry
    cases signal with
    | buy => exact .inl rfl
    | sell => exact .inr rfl
    | close => exact absurd rfl hclosing
    | none => exact absurd rfl hnone

/-- The multipliers of a config that was built. -/
theorem admitted_multipliers {isZone : String → Bool} {c : BracketStrategyConfig}
    (h : c.Admitted isZone) : 0 < c.slAtrMult ∧ 0 < c.tpAtrMult := by
  simp only [BracketStrategyConfig.Admitted, BracketStrategyConfig.postInit,
    BracketStrategyConfig.checkPositive, BracketStrategyConfig.check_bind_eq_ok,
    decide_eq_false_iff_not, not_le] at h
  exact ⟨h.2.1, h.2.2.1⟩

/-- What makes an entry possible: an admitted config, a size that the
instrument can carry, and no regime gate. -/
structure CanEnter (b : BracketSetup) (v : CallbackView) : Prop where
  admitted : ∃ isZone, b.config.Admitted isZone
  size_pos : ∀ balance entry stop, 0 < b.sizeFromRisk balance entry stop
  makeQty : ∀ q, 0 < q → ∃ r, b.makeQty q = .ok r
  no_gate : v.regimeState = none
  lastClose : v.lastClose ≠ none

theorem validatedOffset_of_pos {atrValue multiplier : ℚ} (hatr : 0 < atrValue)
    (hmult : 0 < multiplier) :
    validatedOffset atrValue multiplier = .ok (atrValue * multiplier) := by
  rw [validatedOffset, if_neg (not_le.mpr hatr), if_neg (not_le.mpr hmult)]

theorem check_of_not {invalid : Prop} [Decidable invalid] (h : ¬ invalid) (message : String) :
    BracketStrategyConfig.check invalid message = .ok () := by
  simp [BracketStrategyConfig.check, h]

/-- A stop and a target on their sides of the entry pass every check. -/
theorem submitBracketOrder_of_flat (hp : v.position = none) (he : CanEnter b v) {side : OrderSide}
    {quantity slPrice tpPrice : ℚ} (hq : 0 < quantity)
    (hbuy : side = .buy → slPrice < tpPrice) (hsell : side = .sell → tpPrice < slPrice) :
    ∃ order, b.submitBracketOrder v side quantity slPrice tpPrice = .ok [.bracket order] := by
  have hflat : v.isFlat = true := by simp [CallbackView.isFlat, hp]
  obtain ⟨r, hr⟩ := he.makeQty quantity hq
  refine ⟨{
    side
    quantity := r
    slTriggerPrice := b.makePrice slPrice
    tpPrice := b.makePrice tpPrice }, ?_⟩
  have hlong : ¬ (side = .buy ∧ slPrice ≥ tpPrice) := fun h => not_le.mpr (hbuy h.1) h.2
  have hshort : ¬ (side = .sell ∧ slPrice ≤ tpPrice) := fun h => not_le.mpr (hsell h.1) h.2
  rw [submitBracketOrder, if_neg (by simp [hflat]), if_neg (not_le.mpr hq)]
  rw [buildBracketArgs, check_of_not (not_le.mpr hq), check_of_not hlong, check_of_not hshort, hr]
  rfl

/-- From flat, a signal to buy or to sell submits a bracket. -/
theorem submitBracketForEntry_of_canEnter (hp : v.position = none) (he : CanEnter b v)
    (hsignal : signal = .buy ∨ signal = .sell) {atrValue : ℚ} (hatr : 0 < atrValue) :
    ∃ order, b.submitBracketForEntry v signal atrValue = .ok [.bracket order] := by
  have hflat : v.isFlat = true := by simp [CallbackView.isFlat, hp]
  have hgate : b.regimeAdmits v = true := by rw [regimeAdmits, he.no_gate]
  obtain ⟨entryPrice, hlast⟩ := Option.ne_none_iff_exists'.mp he.lastClose
  obtain ⟨isZone, hc⟩ := he.admitted
  obtain ⟨hsl, htp⟩ := admitted_multipliers hc
  have hdown : 0 < atrValue * b.config.slAtrMult := mul_pos hatr hsl
  have hup : 0 < atrValue * b.config.tpAtrMult := mul_pos hatr htp
  rw [submitBracketForEntry, if_neg (by obtain rfl | rfl := hsignal <;> decide),
    if_neg (by simp [hflat]), if_neg (by simp [hgate]), hlast]
  simp only [computeBracketParams, calculateAtrStop, calculateAtrTakeProfit,
    validatedOffset_of_pos hatr hsl, validatedOffset_of_pos hatr htp]
  obtain rfl | rfl := hsignal
  · refine submitBracketOrder_of_flat hp he (he.size_pos _ _ _) (fun _ => ?_) ?_
    · linarith
    · intro h
      cases h
  · refine submitBracketOrder_of_flat hp he (he.size_pos _ _ _) ?_ (fun _ => ?_)
    · intro h
      cases h
    · linarith

/-- **From flat, a signal enters.** -/
theorem executeSignal_of_canEnter (hp : v.position = none) (he : CanEnter b v)
    (hsignal : signal = .buy ∨ signal = .sell) (hatr : isAtrUnsafe v.atr = false) :
    ∃ order, MACrossoverStrategy.executeSignal b v signal = .ok [.bracket order] := by
  have hshort : v.isShort = false := by simp [CallbackView.isShort, hp]
  have hlong : v.isLong = false := by simp [CallbackView.isLong, hp]
  obtain ⟨atrValue, hsafe, hpos⟩ := safeAtr_eq_some hatr
  obtain ⟨order, horder⟩ := submitBracketForEntry_of_canEnter hp he hsignal hpos
  refine ⟨order, ?_⟩
  have henter : b.enterWhenSafe v signal [] = .ok [.bracket order] := by
    simp only [enterWhenSafe, hsafe, horder]
    rfl
  simp only [MACrossoverStrategy.executeSignal, hshort, hlong, henter]
  obtain rfl | rfl := hsignal <;> rfl

end BracketSetup

/-! ## The desk -/

namespace ReversalDesk

variable {offset : String → ℤ → ℤ} {b : BracketSetup} {d d' : ReversalDesk} {p : HeldPosition}

/-- The strategy knows of every position that is open, and there is one at
most. -/
def Matched (d : ReversalDesk) : Prop := d.positions = d.position.toList

theorem Matched.length_le (h : d.Matched) : d.positions.length ≤ 1 := by
  rw [h]
  cases d.position with
  | none => exact Nat.zero_le 1
  | some p => exact le_refl 1

theorem deliver_append (d : ReversalDesk) (orders more : List SubmittedOrder) :
    d.deliver (orders ++ more) = (d.deliver orders).deliver more := List.foldl_append

/-- What the scale-out asks for closes nothing and opens nothing. -/
theorem deliver_tactics (d : ReversalDesk) (tactics : List TacticAction) :
    d.deliver (tactics.map .tactic) = d := by
  induction tactics with
  | nil => rfl
  | cons t ts ih => exact ih

theorem deliver_close (hp : d.position = some p) (hm : d.Matched) :
    d.deliver (d.positions.map .close) = { d with position := none, positions := [] } := by
  obtain ⟨strategy, position, positions, nextId⟩ := d
  obtain rfl : position = some p := hp
  obtain rfl : positions = [p] := hm
  simp [deliver, fill, report, onEvent]

theorem deliver_bracket (hp : d.position = none) (hm : d.Matched) (order : BracketOrder) :
    d.deliver [.bracket order] =
      { d with
        position := some { id := d.nextId, side := order.side.opens }
        positions := [{ id := d.nextId, side := order.side.opens }]
        nextId := d.nextId + 1 } := by
  obtain ⟨strategy, position, positions, nextId⟩ := d
  obtain rfl : position = none := hp
  obtain rfl : positions = [] := hm
  rfl

/-! ## One bar -/

section Bar
variable {bar : ReversalBar}

/-- What a bar with an open position comes to. -/
theorem step_bar_of_open (hp : d.position = some p) (hm : d.Matched)
    {r : ReversalStrategy × SignalType} (hr : d.signal offset b bar = some r) :
    d.step offset b (.bar bar) =
      some (if r.2.Closes p then
        { d with strategy := r.1, position := none, positions := [] }
        else { d with strategy := r.1 }) := by
  have hview : (d.view bar).position = some p := hp
  have hflat : (d.view bar).isFlat = false := by simp [CallbackView.isFlat, hview]
  have horders : d.onBar b bar r.2 =
      .ok ((if r.2.Closes p then d.positions.map .close else []) ++
        bar.tactics.map .tactic) := by
    simp only [onBar, ReversalStrategy.executeSignal_eq, BracketSetup.executeSignal_of_open hview,
      hflat]
    rfl
  have hdeliver : { d with strategy := r.1 }.deliver
      (if r.2.Closes p then d.positions.map .close else []) =
      if r.2.Closes p then { d with strategy := r.1, position := none, positions := [] }
      else { d with strategy := r.1 } := by
    by_cases hcloses : r.2.Closes p
    · rw [if_pos hcloses, if_pos hcloses]
      exact deliver_close (d := { d with strategy := r.1 }) hp hm
    · rw [if_neg hcloses, if_neg hcloses]
      rfl
  simp only [step, hr, Option.bind_eq_bind, Option.bind_some, horders, Except.toOption,
    deliver_append, hdeliver, deliver_tactics]
  rfl

/-- What a bar comes to when flat. -/
theorem step_bar_of_flat (hp : d.position = none) (hm : d.Matched)
    {r : ReversalStrategy × SignalType} (hr : d.signal offset b bar = some r)
    (h : d.step offset b (.bar bar) = some d') :
    d'.position = none ∧ d'.positions = [] ∨
      ∃ p, d'.position = some p ∧ d'.positions = [p] ∧ r.2.direction = some p.side := by
  have hview : (d.view bar).position = none := hp
  have hflat : (d.view bar).isFlat = true := by simp [CallbackView.isFlat, hview]
  simp only [step, hr, Option.bind_eq_bind, Option.bind_some] at h
  obtain ⟨orders, horders, h⟩ := Option.bind_eq_some_iff.mp h
  obtain rfl := Option.some.inj h
  have hbar : d.onBar b bar r.2 = MACrossoverStrategy.executeSignal b (d.view bar) r.2 := by
    simp only [onBar, ReversalStrategy.executeSignal_eq, hflat, if_true, List.append_nil]
    exact bind_pure _
  have horders : MACrossoverStrategy.executeSignal b (d.view bar) r.2 = .ok orders := by
    rw [← hbar]
    exact toOption_eq_some horders
  have hm' : { d with strategy := r.1 }.Matched := hm
  obtain rfl | ⟨order, rfl, hside⟩ := BracketSetup.executeSignal_of_flat hview horders
  · have hpositions : d.positions = [] := by rw [hm, hp]; rfl
    exact .inl ⟨hp, hpositions⟩
  · rw [deliver_bracket (d := { d with strategy := r.1 }) hp hm']
    exact .inr ⟨_, rfl, rfl, hside⟩

/-- Every event keeps the strategy and the venue in step. -/
theorem step_matched {e : ReversalEvent} (hm : d.Matched) (h : d.step offset b e = some d') :
    d'.Matched := by
  cases e with
  | bar bar =>
    obtain ⟨r, hr, -⟩ := Option.bind_eq_some_iff.mp h
    cases hp : d.position with
    | none =>
      obtain ⟨hposition, hpositions⟩ | ⟨p, hposition, hpositions, -⟩ :=
        step_bar_of_flat hp hm hr h
      · rw [Matched, hposition, hpositions]
        rfl
      · rw [Matched, hposition, hpositions]
        rfl
    | some p =>
      rw [step_bar_of_open hp hm hr] at h
      obtain rfl := Option.some.inj h
      split
      · rfl
      · exact hm
  | exitFilled positionId =>
    obtain ⟨strategy, position, positions, nextId⟩ := d
    obtain rfl : positions = position.toList := hm
    cases position with
    | none =>
      obtain rfl := Option.some.inj h
      rfl
    | some p =>
      by_cases hid : p.id = positionId
      · simp only [step, Option.toList_some, List.find?_cons, hid, decide_true] at h
        obtain rfl := Option.some.inj h
        simp [Matched, report, onEvent, hid]
      · simp only [step, Option.toList_some, List.find?_cons, hid, decide_false] at h
        obtain rfl := Option.some.inj h
        rfl
  | reset =>
    obtain rfl := Option.some.inj h
    exact hm

/-- **An entry from flat** ends with a position of its direction. -/
theorem holds_of_entry (hp : d.position = none) (hm : d.Matched)
    (he : BracketSetup.CanEnter b (d.view bar)) {r : ReversalStrategy × SignalType}
    (hr : d.signal offset b bar = some r) (hsignal : r.2 = .buy ∨ r.2 = .sell)
    (hatr : isAtrUnsafe bar.atr = false) :
    ∃ d' q, d.step offset b (.bar bar) = some d' ∧ d'.position = some q ∧ d'.positions = [q] ∧
      r.2.direction = some q.side := by
  have hview : (d.view bar).position = none := hp
  have hflat : (d.view bar).isFlat = true := by simp [CallbackView.isFlat, hview]
  obtain ⟨order, horder⟩ := BracketSetup.executeSignal_of_canEnter hview he hsignal hatr
  have hbar : d.onBar b bar r.2 = .ok [.bracket order] := by
    simp only [onBar, ReversalStrategy.executeSignal_eq, horder, hflat]
    rfl
  have hstep : d.step offset b (.bar bar) =
      some ({ d with strategy := r.1 }.deliver [.bracket order]) := by
    simp only [step, hr, Option.bind_eq_bind, Option.bind_some, hbar]
    rfl
  rw [deliver_bracket (d := { d with strategy := r.1 }) hp hm] at hstep
  obtain ⟨hposition, -⟩ | ⟨q, hq, hqs, hside⟩ := step_bar_of_flat hp hm hr hstep
  · cases hposition
  · exact ⟨_, q, hstep, hq, hqs, hside⟩

/-! ## Reversals -/

/-- A bar whose signal is against the open position, with a safe average
true range. -/
def Reverses (offset : String → ℤ → ℤ) (b : BracketSetup) (d : ReversalDesk) :
    ReversalEvent → Prop
  | .bar bar => isAtrUnsafe bar.atr = false ∧
      ∃ r ∈ d.signal offset b bar, ∃ p ∈ d.position, r.2.Against p
  | .exitFilled _ | .reset => False

/-- After a bar with such a signal the strategy holds one position, of the
side of the signal. -/
def Completes (offset : String → ℤ → ℤ) (b : BracketSetup) (d : ReversalDesk) :
    ReversalEvent → Prop
  | .bar bar => isAtrUnsafe bar.atr = false →
      ∀ r ∈ d.signal offset b bar, ∀ p ∈ d.position, r.2.Against p →
      ∀ d', d.step offset b (.bar bar) = some d' →
      ∃ q, d'.position = some q ∧ d'.positions = [q] ∧ r.2.direction = some q.side
  | .exitFilled _ | .reset => True

/-- **After a reversal the strategy is flat.** -/
theorem flat_of_reverses {e : ReversalEvent} (hm : d.Matched) (hrev : d.Reverses offset b e)
    (h : d.step offset b e = some d') : d'.position = none ∧ d'.positions = [] := by
  cases e with
  | bar bar =>
    obtain ⟨-, r, hr, p, hp, hagainst⟩ := hrev
    rw [step_bar_of_open hp hm hr, if_pos (.inr hagainst)] at h
    obtain rfl := Option.some.inj h
    exact ⟨rfl, rfl⟩
  | exitFilled positionId => cases hrev
  | reset => cases hrev

theorem completes_iff_not_reverses {e : ReversalEvent} (hm : d.Matched)
    (h : d.step offset b e = some d') : d.Completes offset b e ↔ ¬ d.Reverses offset b e := by
  constructor
  · intro hcompletes hrev
    have hflat := (flat_of_reverses hm hrev h).1
    cases e with
    | bar bar =>
      obtain ⟨hatr, r, hr, p, hp, hagainst⟩ := hrev
      obtain ⟨q, hq, -⟩ := hcompletes hatr r hr p hp hagainst d' h
      rw [hflat] at hq
      cases hq
    | exitFilled positionId => cases hrev
    | reset => cases hrev
  · intro hrev
    cases e with
    | bar bar =>
      intro hatr r hr p hp hagainst
      exact absurd ⟨hatr, r, hr, p, hp, hagainst⟩ hrev
    | exitFilled positionId => trivial
    | reset => trivial

end Bar

theorem matched_start (strategy : ReversalStrategy) : Matched { strategy } := rfl

theorem matched_of_exec {strategy : ReversalStrategy} {es : List ReversalEvent}
    (h : exec (step offset b) { strategy } es = some d) : d.Matched :=
  (Run.of_exec h).invariant_state Matched (matched_start strategy) fun _ _ _ hm _ hs =>
    step_matched hm hs

/-- **Reversals complete only where there are none.** -/
theorem reversals_complete_iff (offset : String → ℤ → ℤ) (b : BracketSetup)
    (strategy : ReversalStrategy) (es : List ReversalEvent) (d : ReversalDesk)
    (h : exec (step offset b) { strategy } es = some d) :
    (Checked (step offset b) (Completes offset b) { strategy } es ↔
      Checked (step offset b) (fun d e => ¬ d.Reverses offset b e) { strategy } es) ∧
    Always (step offset b) (fun _ d => d.positions.length ≤ 1) { strategy } es := by
  refine ⟨⟨fun hc => ?_, fun hc => ?_⟩, fun pre t _ ht => (matched_of_exec ht).length_le⟩
  · refine hc.mono_of_invariant Matched (fun s e t hm hok hs => ?_) (matched_start strategy) h
    exact ⟨step_matched hm hs, (completes_iff_not_reverses hm hs).mp hok⟩
  · refine hc.mono_of_invariant Matched (fun s e t hm hok hs => ?_) (matched_start strategy) h
    exact ⟨step_matched hm hs, (completes_iff_not_reverses hm hs).mpr hok⟩

/-! ### Two crossings -/

/-- The default config, with a sizer that always says one unit. -/
def crossSetup : BracketSetup where
  config := {}
  sizeFromRisk := fun _ _ _ => 1
  makeQty := .ok
  makePrice := id

/-- A bar at one price, with the averages it leaves. -/
def crossBar (price fast slow : ℚ) : ReversalBar where
  tsInit := 0
  bar := {
    high := price
    low := price
    close := price
    atr := none
    low_le := le_refl price
    le_high := le_refl price
    atr_nonneg := nofun }
  emas := some (fast, slow)
  atr := some (.finite 2)
  lastClose := some price
  accountBalance := 10000

/-- The averages cross upwards, and the strategy goes long. -/
def crossUp : List ReversalEvent := [.bar (crossBar 100 99 100), .bar (crossBar 110 103 102)]

/-- Then they cross downwards. -/
def crossDown : ReversalEvent := .bar (crossBar 90 97 98)

/-- What the run leads to: a long position, and a bar that reverses it. -/
theorem exists_crossUp : ∃ d, exec (step (fun _ _ => 0) crossSetup)
    { strategy := .maCrossover {} } crossUp = some d ∧
    d.Reverses (fun _ _ => 0) crossSetup crossDown ∧
    ∃ d', d.step (fun _ _ => 0) crossSetup crossDown = some d' := by
  obtain ⟨d, hrun, hd⟩ := Run.exists_of_exec (step (fun _ _ => 0) crossSetup)
    { strategy := .maCrossover {} } crossUp
    (fun d => d.position = some { id := 0, side := .long } ∧
      (d.signal (fun _ _ => 0) crossSetup (crossBar 90 97 98)).any (·.2 = .sell))
    (by decide +kernel)
  simp only [decide_eq_true_eq, Option.any_eq_true] at hd
  obtain ⟨hposition, r, hr, hsell⟩ := hd
  refine ⟨d, hrun.exec_eq, ⟨rfl, r, hr, _, hposition, .inr ⟨hsell, rfl⟩⟩, ?_⟩
  exact ⟨_, step_bar_of_open hposition (matched_of_exec hrun.exec_eq) hr⟩

/-- **The reversal is left half done.** An admitted config, no regime gate,
a size above zero: the sell signal meets a long position, and no short one
is open afterwards. -/
theorem reversal_not_completed : crossSetup.config.Admitted (fun _ => true) ∧
    (∀ balance entry stop, 0 < crossSetup.sizeFromRisk balance entry stop) ∧
    ∃ d, exec (step (fun _ _ => 0) crossSetup) { strategy := .maCrossover {} } crossUp = some d ∧
      d.Reverses (fun _ _ => 0) crossSetup crossDown ∧
      ¬ d.Completes (fun _ _ => 0) crossSetup crossDown := by
  obtain ⟨d, hexec, hrev, d', hstep⟩ := exists_crossUp
  refine ⟨by decide +kernel, fun _ _ _ => one_pos, d, hexec, hrev, ?_⟩
  intro hcompletes
  exact (completes_iff_not_reverses (matched_of_exec hexec) hstep).mp hcompletes hrev

theorem reversals_complete_iff_crossUp : ∃ d,
    exec (step (fun _ _ => 0) crossSetup) { strategy := .maCrossover {} } crossUp = some d ∧
    (Checked (step (fun _ _ => 0) crossSetup) (Completes (fun _ _ => 0) crossSetup)
        { strategy := .maCrossover {} } crossUp ↔
      Checked (step (fun _ _ => 0) crossSetup) (fun d e => ¬ d.Reverses (fun _ _ => 0) crossSetup e)
        { strategy := .maCrossover {} } crossUp) ∧
    Always (step (fun _ _ => 0) crossSetup) (fun _ d => d.positions.length ≤ 1)
      { strategy := .maCrossover {} } crossUp := by
  obtain ⟨d, hexec, -⟩ := exists_crossUp
  exact ⟨d, hexec, reversals_complete_iff _ crossSetup _ crossUp d hexec⟩

end ReversalDesk

end TdSandboxed
