/-
TdSandboxed.Strategies.ScaleOutTheorems — on which side of the close the
stops of a bracket strategy are put.

The move to breakeven is safe for every admitted config: its trigger is a
positive multiple of the risk, and an offset that reaches the trigger is
dropped. The line of the trail is what `Supertrend.line_lt_close_iff` and
its mirror say of it.
-/
import TdSandboxed.Lib.Assoc
import TdSandboxed.Strategies.BracketScaleOut

namespace TdSandboxed

open Lib

/-! ## What an admitted config promises -/

namespace BracketStrategyConfig

variable {c : BracketStrategyConfig} {isZone : String → Bool}

theorem check_bind_eq_ok {α : Type} {invalid : Bool} {message : String}
    {next : Except PyException α} {a : α} :
    (check invalid message >>= fun _ => next) = .ok a ↔ invalid = false ∧ next = .ok a := by
  cases invalid <;> simp [check, bind, Except.bind]

theorem Admitted.checkScaleOut (h : c.Admitted isZone) (hscale : c.scaleOutEnabled = true) :
    c.checkScaleOut = .ok () := by
  simp only [Admitted, postInit, checkPositive, check_bind_eq_ok, hscale, if_true] at h
  obtain ⟨-, -, -, -, -, -, h⟩ := h
  obtain ⟨⟨⟩, hok, -⟩ := bind_eq_ok.mp h
  exact hok

theorem Admitted.breakevenAtR_pos (h : c.Admitted isZone) (hscale : c.scaleOutEnabled = true)
    {r : ℚ} (hr : c.breakevenAtR = some r) : 0 < r := by
  have hok := h.checkScaleOut hscale
  simp only [BracketStrategyConfig.checkScaleOut, checkPositive, check_bind_eq_ok, hr] at hok
  simpa using hok.2.2.1

theorem Admitted.trailingAtrMultiplier_pos (h : c.Admitted isZone)
    (htrail : c.trailingEnabled = true) : 0 < c.trailingAtrMultiplier := by
  have hok : c.checkTrailing = .ok () := by
    simp only [Admitted, postInit, checkPositive, check_bind_eq_ok, htrail, if_true] at h
    obtain ⟨-, -, -, -, -, -, h⟩ := h
    cases hscale : c.scaleOutEnabled with
    | true =>
      simp only [hscale, if_true] at h
      obtain ⟨⟨⟩, -, h⟩ := bind_eq_ok.mp h
      obtain ⟨⟨⟩, hok, -⟩ := bind_eq_ok.mp (check_bind_eq_ok.mp h).2
      exact hok
    | false =>
      simp only [hscale, Bool.false_eq_true, if_false] at h
      obtain ⟨⟨⟩, hok, -⟩ := bind_eq_ok.mp (check_bind_eq_ok.mp h).2
      exact hok
  simp only [checkTrailing, checkPositive, check_bind_eq_ok] at hok
  simpa [check] using hok.2.2

end BracketStrategyConfig

/-! ## The move to breakeven -/

/-- What a trade keeps: its breakeven price is the computed one, and only
scale-out closes a part of it. -/
structure ScaleOutTradeState.Sound (c : BracketStrategyConfig) (st : ScaleOutTradeState) : Prop where
  bePrice : ∃ pipSize, st.setup.bePrice =
    computeBePrice c st.setup.side st.setup.entryPrice st.setup.riskPerUnit pipSize
  scaledOut : st.scaledOut = true → c.scaleOutEnabled = true

variable {c : BracketStrategyConfig} {isZone : String → Bool}

/-- An offset is kept only below the cushion of the trigger. -/
theorem computeBePrice_eq_some {side : OrderSide} {entryPrice riskPerUnit price : ℚ}
    {pipSize : Option ℚ}
    (h : computeBePrice c side entryPrice riskPerUnit pipSize = some price) :
    ∃ r offset, c.breakevenAtR = some r ∧ offset < r * riskPerUnit ∧
      price = entryPrice + side.sign * offset := by
  unfold computeBePrice at h
  split at h
  · cases h
  · split at h
    · rename_i _ _ _ r pipSize _ hr
      dsimp only at h
      split at h
      · cases h
      · rename_i hlt
        refine ⟨r, _, hr, not_le.mp hlt, ?_⟩
        cases side <;> simpa [OrderSide.sign, sub_eq_add_neg] using (Option.some.inj h).symm
    · cases h

namespace ScaleOutTradeState

variable {st : ScaleOutTradeState} {price currentPrice : ℚ} {ok : Bool}

/-- At the trigger the breakeven price protects the position. -/
theorem Sound.breakevenPrice_protects (hc : c.Admitted isZone) (h : st.Sound c)
    (hrisk : 0 < st.setup.riskPerUnit) (hscaled : st.scaledOut = true) {r : ℚ}
    (hr : c.breakevenAtR = some r) (htrigger : st.unrealizedR currentPrice ≥ r) :
    st.setup.side.Protects st.breakevenPrice currentPrice := by
  have hpos := hc.breakevenAtR_pos (h.scaledOut hscaled) hr
  obtain ⟨pipSize, hbe⟩ := h.bePrice
  -- the offset, or none, is below the profit at the trigger
  obtain ⟨offset, hoffset, hprice⟩ : ∃ offset, offset < r * st.setup.riskPerUnit ∧
      st.breakevenPrice = st.setup.entryPrice + st.setup.side.sign * offset := by
    cases hp : st.setup.bePrice with
    | none =>
      refine ⟨0, mul_pos hpos hrisk, ?_⟩
      rw [breakevenPrice, hp, mul_zero, add_zero]
      rfl
    | some price =>
      obtain ⟨r', offset, hr', hlt, heq⟩ := computeBePrice_eq_some (hbe.symm.trans hp)
      obtain rfl := Option.some.inj (hr.symm.trans hr')
      exact ⟨offset, hlt, by rw [breakevenPrice, hp]; exact heq⟩
  unfold unrealizedR at htrigger
  unfold OrderSide.Protects
  rw [hprice]
  cases hside : st.setup.side with
  | buy =>
    simp only [hside, ge_iff_le, le_div_iff₀ hrisk, OrderSide.sign] at htrigger ⊢
    linarith
  | sell =>
    simp only [hside, ge_iff_le, le_div_iff₀ hrisk, OrderSide.sign] at htrigger ⊢
    linarith

/-! ## The four steps of a bar -/

theorem closePartial_cases (c : BracketStrategyConfig) (st : ScaleOutTradeState) (price : ℚ) :
    st.closePartial c price = (st, []) ∨ c.scaleOutEnabled = true ∧
      st.closePartial c price =
        ({ st with scaledOut := true }, [.closePartial c.scaleOutCloseFraction]) := by
  unfold closePartial
  split
  · rename_i h
    exact .inr ⟨h.1, rfl⟩
  · exact .inl rfl

theorem Sound.closePartial (h : st.Sound c) (price : ℚ) : (st.closePartial c price).1.Sound c := by
  cases closePartial_cases c st price with
  | inl heq => rwa [heq]
  | inr heq =>
    rw [heq.2]
    exact ⟨h.bePrice, fun _ => heq.1⟩

theorem closePartial_setup (c : BracketStrategyConfig) (st : ScaleOutTradeState) (price : ℚ) :
    (st.closePartial c price).1.setup = st.setup := by
  cases closePartial_cases c st price with
  | inl heq => rw [heq]
  | inr heq => rw [heq.2]

theorem not_mem_closePartial : .modifySl price ∉ (st.closePartial c currentPrice).2 := by
  cases closePartial_cases c st currentPrice with
  | inl heq => simp [heq]
  | inr heq => simp [heq.2]

theorem moveToBreakeven_setup (c : BracketStrategyConfig) (st : ScaleOutTradeState) (price : ℚ)
    (ok : Bool) : (st.moveToBreakeven c price ok).1.setup = st.setup ∧
      (st.moveToBreakeven c price ok).1.scaledOut = st.scaledOut := by
  unfold moveToBreakeven
  split
  · cases ok <;> exact ⟨rfl, rfl⟩
  · exact ⟨rfl, rfl⟩

/-- The move to breakeven asks for a protective stop. -/
theorem Sound.moveToBreakeven_protects (hc : c.Admitted isZone) (h : st.Sound c)
    (hrisk : 0 < st.setup.riskPerUnit)
    (hmem : .modifySl price ∈ (st.moveToBreakeven c currentPrice ok).2) :
    st.setup.side.Protects price currentPrice := by
  unfold moveToBreakeven at hmem
  split at hmem
  · rename_i hfires
    obtain ⟨hscaled, -, r, hr, htrigger⟩ := hfires
    obtain rfl := TacticAction.modifySl.inj (List.mem_singleton.mp hmem)
    exact h.breakevenPrice_protects hc hrisk hscaled hr htrigger
  · cases hmem

theorem activateTrail_setup (c : BracketStrategyConfig) (st : ScaleOutTradeState) :
    (st.activateTrail c).setup = st.setup ∧ (st.activateTrail c).scaledOut = st.scaledOut := by
  unfold activateTrail
  split <;> exact ⟨rfl, rfl⟩

theorem updateTrailingSl_setup (st : ScaleOutTradeState) (trail : Option Supertrend) (ok : Bool) :
    (st.updateTrailingSl trail ok).1.setup = st.setup ∧
      (st.updateTrailingSl trail ok).1.scaledOut = st.scaledOut := by
  unfold updateTrailingSl
  split
  · exact ⟨rfl, rfl⟩
  · split
    · split
      · cases ok <;> exact ⟨rfl, rfl⟩
      · exact ⟨rfl, rfl⟩
    · exact ⟨rfl, rfl⟩

/-- The trail asks for its line, where that tightens the stop. -/
theorem mem_updateTrailingSl {trail : Option Supertrend} :
    .modifySl price ∈ (st.updateTrailingSl trail ok).2 ↔
      ∃ s, trail = some s ∧ s.initialized = true ∧ s.value = some price ∧
        st.Tightens s.trend price := by
  unfold updateTrailingSl
  cases trail with
  | none => simp
  | some s =>
    cases hi : s.initialized with
    | false => simp [hi]
    | true =>
      cases hv : s.value with
      | none => simp [hi, hv]
      | some newSl =>
        by_cases ht : st.Tightens s.trend newSl
        · simp only [hi, hv, ht, if_true, List.mem_singleton, TacticAction.modifySl.injEq,
            Option.some.injEq]
          refine ⟨fun heq => ⟨s, rfl, hi, hv.trans (heq ▸ rfl), heq ▸ ht⟩, ?_⟩
          rintro ⟨s', rfl, -, hv', -⟩
          exact (Option.some.inj (hv.symm.trans hv')).symm
        · simp only [hi, hv, ht, if_false, List.not_mem_nil, false_iff, Option.some.injEq]
          rintro ⟨s', rfl, -, hv', ht'⟩
          obtain rfl := Option.some.inj (hv.symm.trans hv')
          exact ht ht'

theorem beforeTrail_setup (c : BracketStrategyConfig) (st : ScaleOutTradeState) (price : ℚ)
    (ok : Bool) : (st.beforeTrail c price ok).1.setup = st.setup := by
  simp only [beforeTrail]
  rw [(activateTrail_setup c _).1, (moveToBreakeven_setup c _ price ok).1,
    closePartial_setup]

theorem Sound.beforeTrail (h : st.Sound c) (price : ℚ) (ok : Bool) :
    (st.beforeTrail c price ok).1.Sound c := by
  have h1 := h.closePartial price
  refine ⟨?_, fun hs => h1.scaledOut ?_⟩
  · rw [beforeTrail_setup]
    exact h.bePrice
  · simp only [ScaleOutTradeState.beforeTrail] at hs
    rwa [(activateTrail_setup c _).2, (moveToBreakeven_setup c _ price ok).2] at hs

/-- The first three steps ask for protective stops only. -/
theorem Sound.beforeTrail_protects (hc : c.Admitted isZone) (h : st.Sound c)
    (hrisk : 0 < st.setup.riskPerUnit)
    (hmem : .modifySl price ∈ (st.beforeTrail c currentPrice ok).2) :
    st.setup.side.Protects price currentPrice := by
  simp only [ScaleOutTradeState.beforeTrail, List.mem_append] at hmem
  have hmoved := hmem.resolve_left not_mem_closePartial
  have hsetup := closePartial_setup c st currentPrice
  rw [← hsetup] at hrisk ⊢
  exact (h.closePartial currentPrice).moveToBreakeven_protects hc hrisk hmoved

theorem Sound.evaluateScaleOut {trail : Option Supertrend} {answers : ModifyAnswers}
    (h : st.Sound c) (price : ℚ) : (st.evaluateScaleOut c trail price answers).1.Sound c := by
  unfold ScaleOutTradeState.evaluateScaleOut
  split
  · exact h
  · have hb := h.beforeTrail price answers.breakeven
    dsimp only
    split
    · obtain ⟨hsetup, hscaled⟩ := updateTrailingSl_setup
        (st.beforeTrail c price answers.breakeven).1 trail answers.trail
      exact ⟨by rw [hsetup]; exact hb.bePrice, fun hs => hb.scaledOut (hscaled ▸ hs)⟩
    · exact hb

end ScaleOutTradeState

/-! ## One bar -/

namespace TrailingHost

variable {h h' : TrailingHost} {e : HostEvent} {es : List HostEvent}

/-- The invariant of every run. -/
structure Sound (c : BracketStrategyConfig) (h : TrailingHost) : Prop where
  trail : ∀ s ∈ h.trail, s.Sound
  scaleState : ∀ st ∈ h.scaleState, st.Sound c

theorem sound_init (hc : c.Admitted isZone) : (init c).Sound c where
  trail := by
    intro s hs
    unfold init at hs
    split at hs
    · rename_i htrail
      obtain rfl := Option.some.inj hs
      exact Supertrend.sound_init (hc.trailingAtrMultiplier_pos htrail)
    · cases hs
  scaleState := fun _ hst => (by cases hst)

theorem sound_initScaleState {side : OrderSide} {entryPrice slPrice qty : ℚ}
    {pipSize : Option ℚ} {st : ScaleOutTradeState}
    (hst : initScaleState c side entryPrice slPrice qty pipSize = some st) : st.Sound c := by
  unfold initScaleState at hst
  split at hst
  · obtain rfl := Option.some.inj hst
    exact ⟨⟨pipSize, rfl⟩, fun h => (by cases h)⟩
  · cases hst

theorem Sound.step (hs : h.Sound c) (hstep : h.step c e = some h') : h'.Sound c := by
  cases e with
  | bar bar answers =>
    simp only [TrailingHost.step, Option.ite_none_right_eq_some, Option.some.injEq] at hstep
    obtain ⟨-, rfl⟩ := hstep
    refine ⟨fun s hmem => ?_, fun st hmem => ?_⟩
    · obtain ⟨s₀, hs₀, rfl⟩ := Option.map_eq_some_iff.mp hmem
      exact (hs.trail s₀ hs₀).handleBar bar
    · obtain ⟨r, hr, rfl⟩ := Option.map_eq_some_iff.mp hmem
      obtain ⟨st, hst, rfl⟩ := Option.map_eq_some_iff.mp hr
      exact (hs.scaleState st hst).evaluateScaleOut bar.close
  | opened side entryPrice slPrice qty pipSize =>
    obtain rfl := Option.some.inj hstep
    exact ⟨hs.trail, fun st hst => sound_initScaleState hst⟩
  | closed =>
    obtain rfl := Option.some.inj hstep
    exact ⟨hs.trail, fun _ hst => (by cases hst)⟩

section Bar
variable {st : ScaleOutTradeState} {price currentPrice atr : ℚ} {trail : Option Supertrend}
  {s : Supertrend} {bar : TrailBar} {answers : ModifyAnswers}

theorem mem_evaluateScaleOut :
    .modifySl price ∈ (st.evaluateScaleOut c trail currentPrice answers).2 ↔
      0 < st.setup.riskPerUnit ∧
        (.modifySl price ∈ (st.beforeTrail c currentPrice answers.breakeven).2 ∨
          (st.beforeTrail c currentPrice answers.breakeven).1.trailActive = true ∧
          .modifySl price ∈ ((st.beforeTrail c currentPrice answers.breakeven).1.updateTrailingSl
            trail answers.trail).2) := by
  unfold ScaleOutTradeState.evaluateScaleOut
  by_cases hrisk : 0 < st.setup.riskPerUnit
  · rw [if_neg (not_le.mpr hrisk), and_iff_right hrisk]
    dsimp only
    split
    · rename_i hactive
      rw [List.mem_append, and_iff_right hactive]
    · rename_i hactive
      rw [or_iff_left fun hand => hactive hand.1]
  · rw [if_pos (not_lt.mp hrisk)]
    simp [hrisk]

/-- What the trail's line after a bar is. -/
theorem handleBar_line (hstays : s.initialized = true → bar.atr.isSome)
    (trend : ℤ) : (s.handleBar bar).initialized = true ∧ (s.handleBar bar).value = some price ∧
      (s.handleBar bar).trend = trend ↔ ∃ atr, bar.atr = some atr ∧ s.line bar atr = (trend, price) := by
  unfold Supertrend.handleBar
  cases hatr : bar.atr with
  | none =>
    refine iff_of_false (fun hand => ?_) (by simp)
    have hsome := hstays hand.1
    rw [hatr] at hsome
    cases hsome
  | some atr =>
    simp only [Option.some.injEq, true_and, exists_eq_left']
    rw [Prod.ext_iff, and_comm]

/-- A line that tightens the stop protects but where it meets the close. -/
theorem line_protects_iff (hs : s.Sound) (hatr : bar.atr = some atr)
    (htightens : st.Tightens (s.line bar atr).1 (s.line bar atr).2) :
    st.setup.side.Protects (s.line bar atr).2 bar.close ↔
      ¬ LineMeetsClose st.setup.side s bar atr := by
  unfold ScaleOutTradeState.Tightens at htightens
  unfold OrderSide.Protects LineMeetsClose
  cases hside : st.setup.side with
  | buy =>
    rw [hside] at htightens
    exact Supertrend.line_lt_close_iff hs htightens.1
  | sell =>
    rw [hside] at htightens
    exact Supertrend.close_lt_line_iff hs (bar.atr_nonneg atr hatr) htightens.1

end Bar

/-- **What one event owes** is that it is regular. -/
theorem protective_iff (hc : c.Admitted isZone) (hs : h.Sound c) (hstep : h.step c e = some h') :
    Protective c h e ↔ Regular c h e := by
  cases e with
  | opened => exact Iff.rfl
  | closed => exact Iff.rfl
  | bar bar answers =>
    simp only [TrailingHost.step, Option.ite_none_right_eq_some] at hstep
    obtain ⟨hstays, -⟩ := hstep
    refine forall₂_congr fun st hst => ?_
    have hst := hs.scaleState st hst
    have hsetup := ScaleOutTradeState.beforeTrail_setup c st bar.close answers.breakeven
    refine ⟨fun hall s htrail atr hatr hrisk hactive htightens => ?_, fun hall action hmem => ?_⟩
    · -- the line is asked for, so it protects
      have hsound := hs.trail s htrail
      obtain ⟨hinit, hvalue, htrend⟩ := (handleBar_line (hstays s htrail) _).mpr
        ⟨atr, hatr, rfl⟩
      have hafter : h.trailAfter bar = some (s.handleBar bar) :=
        Option.map_eq_some_iff.mpr ⟨s, htrail, rfl⟩
      have hprotects : st.setup.side.Protects (s.line bar atr).2 bar.close := by
        refine hall (.modifySl (s.line bar atr).2)
          (mem_evaluateScaleOut.mpr ⟨hrisk, .inr ⟨hactive, ?_⟩⟩)
        exact ScaleOutTradeState.mem_updateTrailingSl.mpr
          ⟨s.handleBar bar, hafter, hinit, hvalue, htrend ▸ htightens⟩
      rw [← hsetup] at hprotects ⊢
      exact (line_protects_iff hsound hatr htightens).mp hprotects
    · cases action with
      | closePartial fraction => exact trivial
      | modifySl price =>
        obtain ⟨hrisk, hbefore | ⟨hactive, htrailing⟩⟩ := mem_evaluateScaleOut.mp hmem
        · exact hst.beforeTrail_protects hc hrisk hbefore
        · obtain ⟨s', hs', hinit, hvalue, htightens⟩ :=
            ScaleOutTradeState.mem_updateTrailingSl.mp htrailing
          obtain ⟨s, htrail, rfl⟩ := Option.map_eq_some_iff.mp hs'
          have hsound := hs.trail s htrail
          obtain ⟨atr, hatr, hline⟩ := (handleBar_line (hstays s htrail) _).mp
            ⟨hinit, hvalue, rfl⟩
          obtain ⟨htrend, hprice⟩ := Prod.ext_iff.mp hline
          rw [← show (s.line bar atr).2 = price from hprice] at htightens ⊢
          rw [← show (s.line bar atr).1 = (s.handleBar bar).trend from htrend] at htightens
          have hnot := hall s htrail atr hatr hrisk hactive htightens
          show st.setup.side.Protects (s.line bar atr).2 bar.close
          rw [← hsetup] at hnot ⊢
          exact (line_protects_iff hsound hatr htightens).mpr hnot

/-- **In a run every stop is put on the protective side, exactly when every
bar is regular.** -/
theorem protective_run_iff (isZone : String → Bool) (c : BracketStrategyConfig)
    (hc : c.Admitted isZone) (es : List HostEvent) (h : TrailingHost)
    (hrun : exec (step c) (init c) es = some h) :
    Checked (step c) (Protective c) (init c) es ↔ Checked (step c) (Regular c) (init c) es := by
  refine ⟨fun hp => ?_, fun hr => ?_⟩
  · exact hp.mono_of_invariant (Sound c)
      (fun _ _ _ hs hok hstep => ⟨hs.step hstep, (protective_iff hc hs hstep).mp hok⟩)
      (sound_init hc) hrun
  · exact hr.mono_of_invariant (Sound c)
      (fun _ _ _ hs hok hstep => ⟨hs.step hstep, (protective_iff hc hs hstep).mpr hok⟩)
      (sound_init hc) hrun

/-- A bar with an average true range of two. -/
def rangeBar (high low close : ℚ) (hlow : low ≤ close) (hhigh : close ≤ high) : TrailBar where
  high := high
  low := low
  close := close
  atr := some 2
  low_le := hlow
  le_high := hhigh
  atr_nonneg := by
    intro a ha
    obtain rfl := Option.some.inj ha
    norm_num

/-- The trail of a long position follows a rising price. -/
def risingRun : List HostEvent :=
  [.bar (rangeBar 101 99 100 (by norm_num) (by norm_num)) {}, .opened .buy 100 95 1 none,
    .bar (rangeBar 106 104 105 (by norm_num) (by norm_num)) {}]

theorem risingRun_protective :
    Checked (step { trailingEnabled := true }) (Protective { trailingEnabled := true })
      (init { trailingEnabled := true }) risingRun :=
  (protective_run_iff (fun _ => true) { trailingEnabled := true } (by decide +kernel) risingRun
    ((exec (step { trailingEnabled := true }) (init { trailingEnabled := true }) risingRun).get
      (by decide +kernel)) (Option.some_get _).symm).mpr (by decide +kernel)

/-- A bar that gaps up out of a downtrend and closes near its low: the stop
of a long position is put above the close. -/
def gapUpRun : List HostEvent :=
  [.bar (rangeBar 101 99 100 (by norm_num) (by norm_num)) {},
    .bar (rangeBar 92 89 90 (by norm_num) (by norm_num)) {}, .opened .buy 91 88 1 none,
    .bar (rangeBar 130 100 101 (by norm_num) (by norm_num)) {}]

theorem gapUpRun_not_protective :
    ¬ Checked (step { trailingEnabled := true }) (Protective { trailingEnabled := true })
      (init { trailingEnabled := true }) gapUpRun := by
  decide +kernel

end TrailingHost

end TdSandboxed
