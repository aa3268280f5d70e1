/-
TdSandboxed.Strategies.StopTrackingTheorems — the recorded stop of a bracket
trade and the stop at its venue.

Counts and phases hold on every run (`Trade.Sound`). That the recorded stop
is the venue's and never gets looser is a matter of each stop that is sent:
the venue has to take it as it is, and breakeven has to lie beyond the stop.
`promised_run_iff` puts the two together.
-/
import TdSandboxed.Strategies.ScaleOutTheorems
import TdSandboxed.Strategies.StopTracking

namespace TdSandboxed

open Lib

variable {c : BracketStrategyConfig} {makePrice : ℚ → ℚ}

namespace OrderSide

variable {side : OrderSide} {a b d : ℚ}

theorem Keeps.refl (side : OrderSide) (a : ℚ) : side.Keeps a a := by
  cases side <;> exact le_refl a

theorem Keeps.trans (hab : side.Keeps a b) (hbd : side.Keeps b d) : side.Keeps a d := by
  cases side with
  | buy => exact le_trans (show a ≤ b from hab) hbd
  | sell => exact le_trans (show d ≤ b from hbd) hab

end OrderSide

/-! ## The steps of a bar -/

namespace ScaleOutTradeState

variable {st : ScaleOutTradeState} {price : ℚ} {ok accepted : Bool} {trail : Option Supertrend}

/-- A line that tightens differs from the stop and keeps it. -/
theorem Tightens.keeps {trend : ℤ} {line : ℚ} (h : st.Tightens trend line) :
    st.setup.side.Keeps st.currentSl line ∧ line ≠ st.currentSl := by
  unfold Tightens at h
  unfold OrderSide.Keeps
  cases hside : st.setup.side with
  | buy =>
    rw [hside] at h
    exact ⟨h.2.le, h.2.ne'⟩
  | sell =>
    rw [hside] at h
    exact ⟨h.2.le, h.2.ne⟩

theorem breakevenDue_iff : Trade.BreakevenDue c st price ↔
    (st.closePartial c price).1.scaledOut = true ∧
      ¬ (st.closePartial c price).1.breakevenMoved = true ∧
      ∃ r ∈ c.breakevenAtR, (st.closePartial c price).1.unrealizedR price ≥ r := by
  unfold Trade.BreakevenDue closePartial
  split
  · rename_i h
    exact and_congr_left fun _ => iff_of_true (.inr ⟨h.1, h.2.2⟩) rfl
  · rename_i h
    refine and_congr_left fun _ => ⟨fun hor => hor.elim id fun hdue => ?_, .inl⟩
    by_contra hnot
    exact h ⟨hdue.1, hnot, hdue.2⟩

/-- The partial close leaves the stop, the flags of the later steps and the
setup alone. -/
theorem closePartial_frame (c : BracketStrategyConfig) (st : ScaleOutTradeState) (price : ℚ) :
    (st.closePartial c price).1.currentSl = st.currentSl ∧
      (st.closePartial c price).1.breakevenMoved = st.breakevenMoved ∧
      (st.closePartial c price).1.trailActive = st.trailActive ∧
      (st.scaledOut = true → (st.closePartial c price).1.scaledOut = true) := by
  unfold closePartial
  split
  · exact ⟨rfl, rfl, rfl, fun _ => rfl⟩
  · exact ⟨rfl, rfl, rfl, id⟩

/-- The partial closes asked for are counted by the flag. -/
theorem closePartial_count {n : ℕ} (h : n = if st.scaledOut then 1 else 0) :
    n + (st.closePartial c price).2.length =
      if (st.closePartial c price).1.scaledOut then 1 else 0 := by
  unfold closePartial
  split
  · rename_i hdue
    simp [h, hdue.2.1]
  · simpa using h

/-- The moves to breakeven that were sent are counted by the flag. -/
theorem moveToBreakeven_count {n : ℕ} (h : n = if st.breakevenMoved then 1 else 0) :
    n + (sent ok (st.moveToBreakeven c price ok).2).length =
      if (st.moveToBreakeven c price ok).1.breakevenMoved then 1 else 0 := by
  unfold moveToBreakeven
  split
  · rename_i hdue
    cases ok <;> simp [sent, h, hdue.2.1]
  · cases ok <;> simpa [sent] using h

/-- Only after a partial close, and only where the config has it, does the
stop move to breakeven. -/
theorem moveToBreakeven_moved (h : (st.moveToBreakeven c price ok).1.breakevenMoved = true) :
    st.breakevenMoved = true ∨ st.scaledOut = true ∧ c.breakevenAtR.isSome := by
  unfold moveToBreakeven at h
  split at h
  · rename_i hdue
    obtain ⟨hscaled, -, r, hr, -⟩ := hdue
    exact .inr ⟨hscaled, Option.isSome_of_mem hr⟩
  · exact .inl h

theorem moveToBreakeven_trailActive (c : BracketStrategyConfig) (st : ScaleOutTradeState)
    (price : ℚ) (ok : Bool) :
    (st.moveToBreakeven c price ok).1.trailActive = st.trailActive := by
  unfold moveToBreakeven
  split
  · cases ok <;> rfl
  · rfl

/-- **What the move to breakeven does to the stop**, of the record and of
the venue. -/
theorem moveToBreakeven_stop (c : BracketStrategyConfig) (makePrice : ℚ → ℚ)
    (st : ScaleOutTradeState) (price : ℚ) (ok accepted : Bool) :
    st.setup.side.Keeps st.currentSl (st.moveToBreakeven c price ok).1.currentSl ∧
        (st.moveToBreakeven c price ok).1.currentSl =
          settle makePrice accepted st.currentSl (sent ok (st.moveToBreakeven c price ok).2) ↔
      (st.scaledOut ∧ ¬ st.breakevenMoved ∧ ∃ r ∈ c.breakevenAtR, st.unrealizedR price ≥ r) →
        ok = true → st.setup.side.Keeps st.currentSl st.breakevenPrice ∧
          if accepted then makePrice st.breakevenPrice = st.breakevenPrice
          else st.breakevenPrice = st.currentSl := by
  unfold moveToBreakeven
  split
  · rename_i hdue
    rw [forall_prop_of_true hdue]
    cases ok with
    | false => simp [sent, settle, OrderSide.Keeps.refl]
    | true =>
      rw [forall_prop_of_true rfl]
      refine and_congr_right fun _ => ?_
      cases accepted with
      | false => exact Iff.rfl
      | true => exact eq_comm
  · rename_i hdue
    refine iff_of_true ⟨OrderSide.Keeps.refl _ _, ?_⟩ fun h => (hdue h).elim
    cases ok <;> rfl

/-- **What the trail does to the stop**, of the record and of the venue. -/
theorem updateTrailingSl_stop :
    (st.updateTrailingSl trail ok).1.currentSl =
        settle makePrice accepted st.currentSl (sent ok (st.updateTrailingSl trail ok).2) ↔
      (ok = true → ∀ s ∈ trail, s.initialized = true → ∀ line ∈ s.value,
        st.Tightens s.trend line → accepted = true ∧ makePrice line = line) := by
  unfold updateTrailingSl
  cases trail with
  | none => cases ok <;> simp [sent, settle]
  | some s =>
    simp only [Option.mem_some_iff, forall_eq']
    cases hi : s.initialized with
    | false => cases ok <;> simp [sent, settle]
    | true =>
      cases hv : s.value with
      | none => cases ok <;> simp [sent, settle]
      | some line =>
        simp only [Option.mem_some_iff, forall_eq', forall_const]
        by_cases ht : st.Tightens s.trend line
        · simp only [if_pos ht, forall_prop_of_true ht]
          cases ok with
          | false => simp [sent, settle]
          | true =>
            cases accepted with
            | false => simp [sent, settle, ht.keeps.2]
            | true => simp [sent, settle, eq_comm]
        · simp only [if_neg ht]
          cases ok <;> simp [sent, settle, ht]

/-- The trail never makes the stop looser. -/
theorem updateTrailingSl_keeps :
    st.setup.side.Keeps st.currentSl (st.updateTrailingSl trail ok).1.currentSl := by
  unfold updateTrailingSl
  split
  · exact OrderSide.Keeps.refl _ _
  · split
    · split
      · rename_i ht
        cases ok with
        | false => exact OrderSide.Keeps.refl _ _
        | true => exact ht.keeps.1
      · exact OrderSide.Keeps.refl _ _
    · exact OrderSide.Keeps.refl _ _

theorem updateTrailingSl_flags (st : ScaleOutTradeState) (trail : Option Supertrend) (ok : Bool) :
    (st.updateTrailingSl trail ok).1.breakevenMoved = st.breakevenMoved ∧
      (st.updateTrailingSl trail ok).1.trailActive = st.trailActive := by
  unfold updateTrailingSl
  split
  · exact ⟨rfl, rfl⟩
  · split
    · split
      · cases ok <;> exact ⟨rfl, rfl⟩
      · exact ⟨rfl, rfl⟩
    · exact ⟨rfl, rfl⟩

theorem activateTrail_frame (c : BracketStrategyConfig) (st : ScaleOutTradeState) :
    (st.activateTrail c).currentSl = st.currentSl ∧
      (st.activateTrail c).breakevenMoved = st.breakevenMoved := by
  unfold activateTrail
  split <;> exact ⟨rfl, rfl⟩

/-- The trail starts in the phases of the mode. -/
theorem activateTrail_active (h : (st.activateTrail c).trailActive = true) :
    st.trailActive = true ∨ c.trailingEnabled = true ∧
      (st.breakevenMoved = true ∨ ¬ c.scaleOutEnabled = true ∨
        st.scaledOut = true ∧ c.breakevenAtR = none) := by
  unfold activateTrail at h
  split at h
  · rename_i hstarts
    exact .inr hstarts.2
  · exact .inl h

end ScaleOutTradeState
/-! ## One bar -/

namespace Trade

variable {t : Trade} (price : ℚ) (answers : ModifyAnswers) (venue : VenueAnswers)
  (trail : Option Supertrend)

/-- What every run keeps, whatever the venue does. -/
structure Sound (c : BracketStrategyConfig) (t : Trade) : Prop where
  closes : t.closes = if t.st.scaledOut then 1 else 0
  breakevens : t.breakevens = if t.st.breakevenMoved then 1 else 0
  moved : t.st.breakevenMoved = true → t.st.scaledOut = true ∧ c.breakevenAtR.isSome
  active : t.st.trailActive = true → t.MayTrail c
  trails : 0 < t.trails → t.MayTrail c

/-- More closes and moves open no phase less. -/
theorem MayTrail.mono {t' : Trade} (h : t.MayTrail c) (hcloses : t.closes ≤ t'.closes)
    (hbreakevens : t.breakevens ≤ t'.breakevens) : t'.MayTrail c := by
  refine ⟨h.1, fun hscale => ?_⟩
  have hphase := h.2 hscale
  split at hphase
  · rename_i hsome
    rw [if_pos hsome]
    omega
  · rename_i hnone
    rw [if_neg hnone]
    omega

theorem Sound.beforeTrail (makePrice : ℚ → ℚ) (h : t.Sound c) :
    (t.beforeTrail c makePrice price answers venue).Sound c := by
  obtain ⟨-, hmoved, hactive, hscaled⟩ := ScaleOutTradeState.closePartial_frame c t.st price
  obtain ⟨-, hkept⟩ := ScaleOutTradeState.moveToBreakeven_setup c
    (t.st.closePartial c price).1 price answers.breakeven
  have hmono : ∀ hphase : t.MayTrail c,
      (t.beforeTrail c makePrice price answers venue).MayTrail c := fun hphase =>
    hphase.mono (Nat.le_add_right ..) (Nat.le_add_right ..)
  refine ⟨?_, ?_, fun hm => ?_, fun ha => hmono (h.active ?_), fun ht => hmono (h.trails ht)⟩
  · show _ = if ((t.st.closePartial c price).1.moveToBreakeven c price
      answers.breakeven).1.scaledOut then 1 else 0
    rw [hkept]
    exact ScaleOutTradeState.closePartial_count h.closes
  · have hcount : t.breakevens =
        if (t.st.closePartial c price).1.breakevenMoved then 1 else 0 := by
      rw [hmoved]
      exact h.breakevens
    exact ScaleOutTradeState.moveToBreakeven_count hcount
  · show ((t.st.closePartial c price).1.moveToBreakeven c price
      answers.breakeven).1.scaledOut = true ∧ _
    rw [hkept]
    cases ScaleOutTradeState.moveToBreakeven_moved hm with
    | inl hbefore =>
      obtain ⟨hs, hsome⟩ := h.moved (hmoved ▸ hbefore)
      exact ⟨hscaled hs, hsome⟩
    | inr hnow => exact hnow
  · rw [← hactive, ← ScaleOutTradeState.moveToBreakeven_trailActive c _ price answers.breakeven]
    exact ha

/-- Where the trail is active after its start the phase has come. -/
theorem Sound.mayTrail (h : t.Sound c) (hactive : (t.st.activateTrail c).trailActive = true) :
    t.MayTrail c := by
  cases ScaleOutTradeState.activateTrail_active hactive with
  | inl hbefore => exact h.active hbefore
  | inr hnow =>
    refine ⟨hnow.1, fun hscale => ?_⟩
    have hcloses := h.closes
    have hbreakevens := h.breakevens
    rcases hnow.2 with hmoved | hoff | ⟨hscaled, hnone⟩
    · rw [if_pos (h.moved hmoved).2, hbreakevens, if_pos hmoved]
      exact Nat.one_pos
    · exact absurd hscale hoff
    · rw [hnone, if_neg (by simp), hcloses, if_pos hscaled]
      exact Nat.one_pos

theorem Sound.afterTrail (makePrice : ℚ → ℚ) (h : t.Sound c) :
    (t.afterTrail c makePrice trail answers venue).Sound c := by
  obtain ⟨-, hscaled⟩ := ScaleOutTradeState.activateTrail_setup c t.st
  obtain ⟨-, hmoved⟩ := ScaleOutTradeState.activateTrail_frame c t.st
  have hstarted : ({ t with st := t.st.activateTrail c } : Trade).Sound c := {
    closes := hscaled ▸ h.closes
    breakevens := hmoved ▸ h.breakevens
    moved := fun hm => by
      rw [show (t.st.activateTrail c).scaledOut = t.st.scaledOut from hscaled]
      exact h.moved (hmoved ▸ hm)
    active := h.mayTrail
    trails := h.trails }
  unfold Trade.afterTrail
  dsimp only
  split
  · rename_i hactive
    obtain ⟨-, hs⟩ := ScaleOutTradeState.updateTrailingSl_setup (t.st.activateTrail c) trail
      answers.trail
    obtain ⟨hm, ha⟩ := ScaleOutTradeState.updateTrailingSl_flags (t.st.activateTrail c) trail
      answers.trail
    exact {
      closes := hs ▸ hstarted.closes
      breakevens := hm ▸ hstarted.breakevens
      moved := fun hmoved => by
        rw [hs]
        exact hstarted.moved (hm ▸ hmoved)
      active := fun _ => h.mayTrail hactive
      trails := fun _ => h.mayTrail hactive }
  · exact hstarted

/-- The move to breakeven, for a stop that was the venue's. -/
theorem beforeTrail_stop (c : BracketStrategyConfig) (makePrice : ℚ → ℚ) (hlive : t.st.currentSl = t.liveSl) :
    let m := t.beforeTrail c makePrice price answers venue
    t.st.setup.side.Keeps t.st.currentSl m.st.currentSl ∧ m.st.currentSl = m.liveSl ↔
      t.BreakevenLands c makePrice price answers venue := by
  obtain ⟨hstop, -, -, -⟩ := ScaleOutTradeState.closePartial_frame c t.st price
  have hsetup := ScaleOutTradeState.closePartial_setup c t.st price
  have hprice : (t.st.closePartial c price).1.breakevenPrice = t.st.breakevenPrice := by
    unfold ScaleOutTradeState.breakevenPrice
    rw [hsetup]
  have hmove := ScaleOutTradeState.moveToBreakeven_stop c makePrice
    (t.st.closePartial c price).1 price answers.breakeven venue.breakeven
  rw [hstop, hsetup, hprice, ← ScaleOutTradeState.breakevenDue_iff] at hmove
  show _ ∧ _ = settle makePrice venue.breakeven t.liveSl _ ↔ _
  rw [← hlive]
  exact hmove

/-- The trail, for a stop that was the venue's. -/
theorem afterTrail_stop (hlive : t.st.currentSl = t.liveSl) :
    (t.afterTrail c makePrice trail answers venue).st.currentSl =
        (t.afterTrail c makePrice trail answers venue).liveSl ↔
      ((t.st.activateTrail c).trailActive = true → answers.trail = true → ∀ s ∈ trail,
        s.initialized = true → ∀ line ∈ s.value, (t.st.activateTrail c).Tightens s.trend line →
          venue.trail = true ∧ makePrice line = line) := by
  obtain ⟨hstop, -⟩ := ScaleOutTradeState.activateTrail_frame c t.st
  rw [← hstop] at hlive
  unfold Trade.afterTrail
  dsimp only
  split
  · rename_i hactive
    rw [forall_prop_of_true hactive, ← ScaleOutTradeState.updateTrailingSl_stop, hlive]
  · rename_i hactive
    exact iff_of_true hlive fun h => (hactive h).elim

theorem afterTrail_keeps (c : BracketStrategyConfig) (makePrice : ℚ → ℚ) (t : Trade) :
    t.st.setup.side.Keeps t.st.currentSl
      (t.afterTrail c makePrice trail answers venue).st.currentSl := by
  obtain ⟨hstop, -⟩ := ScaleOutTradeState.activateTrail_frame c t.st
  obtain ⟨hsetup, -⟩ := ScaleOutTradeState.activateTrail_setup c t.st
  unfold Trade.afterTrail
  dsimp only
  split
  · rw [← hstop, ← hsetup]
    exact ScaleOutTradeState.updateTrailingSl_keeps
  · rw [show (t.st.activateTrail c).currentSl = t.st.currentSl from hstop]
    exact OrderSide.Keeps.refl _ _

/-- A sound trade is as it should be when its stop is the venue's. -/
theorem Sound.honoured_iff (h : t.Sound c) : t.Honoured c ↔ t.st.currentSl = t.liveSl := by
  refine ⟨fun hh => hh.stop, fun hstop => ⟨hstop, ?_, h.trails⟩⟩
  rw [h.closes]
  split <;> omega

theorem beforeTrail_setup (c : BracketStrategyConfig) (makePrice : ℚ → ℚ) (t : Trade) :
    (t.beforeTrail c makePrice price answers venue).st.setup = t.st.setup := by
  show ((t.st.closePartial c price).1.moveToBreakeven c price answers.breakeven).1.setup = _
  rw [(ScaleOutTradeState.moveToBreakeven_setup ..).1, ScaleOutTradeState.closePartial_setup]

/-- **What the moments of a bar owe** is that every stop lands. -/
theorem Sound.moments_iff (h : t.Sound c) (hlive : t.st.currentSl = t.liveSl) :
    ((∀ m ∈ t.moments c makePrice trail price answers venue, m.Honoured c) ∧
        (t :: t.moments c makePrice trail price answers venue).Pairwise
          fun a b => t.st.setup.side.Keeps a.st.currentSl b.st.currentSl) ↔
      (0 < t.st.setup.riskPerUnit → t.BreakevenLands c makePrice price answers venue ∧
        t.TrailLands c makePrice trail price answers venue) := by
  unfold moments
  by_cases hrisk : 0 < t.st.setup.riskPerUnit
  · rw [if_neg (not_le.mpr hrisk), forall_prop_of_true hrisk]
    have hbefore := beforeTrail_stop price answers venue c makePrice hlive
    have hm := h.beforeTrail price answers venue makePrice
    generalize hmoved : t.beforeTrail c makePrice price answers venue = m at hbefore hm
    have hsetup : m.st.setup = t.st.setup := hmoved ▸ beforeTrail_setup price answers venue c makePrice t
    have htrail := hm.afterTrail answers venue trail makePrice
    have hkeeps := afterTrail_keeps answers venue trail c makePrice m
    have hlands : t.TrailLands c makePrice trail price answers venue ↔
        ((m.st.activateTrail c).trailActive = true → answers.trail = true → ∀ s ∈ trail,
          s.initialized = true → ∀ line ∈ s.value, (m.st.activateTrail c).Tightens s.trend line →
            venue.trail = true ∧ makePrice line = line) := by
      rw [← hmoved]
      exact Iff.rfl
    rw [hsetup] at hkeeps
    simp only [List.forall_mem_cons, List.not_mem_nil, false_implies, implies_true, and_true,
      List.pairwise_cons, hm.honoured_iff, htrail.honoured_iff, List.Pairwise.nil, hlands,
      ← hbefore, hkeeps]
    constructor
    · rintro ⟨⟨hstop, hafter⟩, hkept, -⟩
      exact ⟨⟨hkept, hstop⟩, (afterTrail_stop answers venue trail hstop).mp hafter⟩
    · rintro ⟨⟨hkept, hstop⟩, hall⟩
      exact ⟨⟨hstop, (afterTrail_stop answers venue trail hstop).mpr hall⟩, hkept, hkept.trans hkeeps⟩
  · rw [if_pos (not_lt.mp hrisk)]
    exact iff_of_true ⟨by simp, List.pairwise_singleton ..⟩ fun h => (hrisk h).elim

theorem Sound.evaluate (makePrice : ℚ → ℚ) (h : t.Sound c) :
    (t.evaluate c makePrice trail price answers venue).Sound c := by
  unfold Trade.evaluate moments
  split
  · exact h
  · exact (h.beforeTrail price answers venue makePrice).afterTrail answers venue trail makePrice

/-- The trade after a bar is the last of its moments. -/
theorem evaluate_mem (c : BracketStrategyConfig) (makePrice : ℚ → ℚ) (t : Trade) :
    t.evaluate c makePrice trail price answers venue ∈
      t :: t.moments c makePrice trail price answers venue := by
  unfold Trade.evaluate moments
  split <;> simp

/-- The mixin's part of a bar is `evaluateScaleOut`. -/
theorem evaluate_st (c : BracketStrategyConfig) (makePrice : ℚ → ℚ) (t : Trade) :
    (t.evaluate c makePrice trail price answers venue).st =
      (t.st.evaluateScaleOut c trail price answers).1 := by
  unfold Trade.evaluate moments ScaleOutTradeState.evaluateScaleOut
  split
  · rfl
  · show (Trade.afterTrail ..).st = _
    unfold Trade.afterTrail
    dsimp only [Trade.beforeTrail, ScaleOutTradeState.beforeTrail]
    split <;> rfl

end Trade

/-! ## Runs -/

namespace StopDesk

variable {d d' : StopDesk} {e : DeskEvent}

/-- The strategy of a desk takes a step of the host, or none. -/
theorem step_toHost (hstep : d.step c makePrice e = some d') :
    d'.toHost = d.toHost ∨ d.toHost.step c e.toHost = some d'.toHost := by
  cases e with
  | bar bar answers venue =>
    simp only [step, Option.ite_none_right_eq_some, Option.some.injEq] at hstep
    obtain ⟨hstays, rfl⟩ := hstep
    have hbar : (d.toHost.onBar c bar answers).map Prod.fst =
        (d.trade.map (·.evaluate c makePrice (d.toHost.trailAfter bar) bar.close answers
          venue)).map (·.st) := by
      simp only [TrailingHost.onBar, toHost, Option.map_map]
      exact Option.map_congr fun t _ => (Trade.evaluate_st ..).symm
    refine .inr ?_
    show (if d.toHost.AtrStays bar then some _ else none) = some _
    rw [if_pos hstays, hbar]
    rfl
  | opened side entryPrice slPrice qty pipSize =>
    simp only [step] at hstep
    cases ht : d.trade with
    | some t =>
      rw [ht] at hstep
      exact .inl (congrArg toHost (Option.some.inj hstep).symm)
    | none =>
      rw [ht] at hstep
      obtain rfl := Option.some.inj hstep
      have hopened (opened : Option ScaleOutTradeState) :
          (opened.map fun st => ({ st, liveSl := slPrice } : Trade)).map (·.st) = opened := by
        cases opened <;> rfl
      refine .inr (congrArg some (congrArg (TrailingHost.mk _) ?_))
      exact (hopened _).symm
  | closed =>
    obtain rfl := Option.some.inj hstep
    exact .inr rfl

/-- **The strategy of a desk runs as the host does.** -/
theorem run_toHost {es : List DeskEvent} (h : Run (step c makePrice) (init c) es d) :
    ∃ hes, Run (TrailingHost.step c) (TrailingHost.init c) hes d.toHost := by
  induction h with
  | nil => exact ⟨[], .nil⟩
  | snoc _ _ hstep ih =>
    obtain ⟨hes, hrun⟩ := ih
    cases step_toHost hstep with
    | inl heq => exact ⟨hes, heq ▸ hrun⟩
    | inr hhost => exact ⟨_, hrun.snoc trivial hhost⟩

/-- The trade of a desk, while its stop is the venue's. -/
def Sound (c : BracketStrategyConfig) (d : StopDesk) : Prop :=
  ∀ t ∈ d.trade, t.Sound c ∧ t.st.currentSl = t.liveSl

theorem sound_of_none (h : d.trade = none) : d.Sound c := by
  intro t ht
  rw [h] at ht
  exact absurd ht (Option.not_mem_none t)

theorem sound_opened {side : OrderSide} {entryPrice slPrice qty : ℚ} {pipSize : Option ℚ}
    {st : ScaleOutTradeState}
    (hst : initScaleState c side entryPrice slPrice qty pipSize = some st) :
    ({ st, liveSl := slPrice } : Trade).Sound c ∧ st.currentSl = slPrice := by
  unfold initScaleState at hst
  split at hst
  · obtain rfl := Option.some.inj hst
    exact ⟨⟨rfl, rfl, nofun, nofun, nofun⟩, rfl⟩
  · cases hst

theorem promised_bar {bar : TrailBar} {answers : ModifyAnswers} {venue : VenueAnswers} :
    d.Promised c makePrice (.bar bar answers venue) ↔ ∀ t ∈ d.trade,
      (∀ m ∈ t.moments c makePrice (d.toHost.trailAfter bar) bar.close answers venue,
        m.Honoured c) ∧
      (t :: t.moments c makePrice (d.toHost.trailAfter bar) bar.close answers venue).Pairwise
        fun a b => t.st.setup.side.Keeps a.st.currentSl b.st.currentSl :=
  Iff.rfl

theorem landing_bar {bar : TrailBar} {answers : ModifyAnswers} {venue : VenueAnswers} :
    d.Landing c makePrice (.bar bar answers venue) ↔ ∀ t ∈ d.trade,
      0 < t.st.setup.riskPerUnit → t.BreakevenLands c makePrice bar.close answers venue ∧
        t.TrailLands c makePrice (d.toHost.trailAfter bar) bar.close answers venue :=
  Iff.rfl

theorem Sound.step (hs : d.Sound c) (hp : d.Promised c makePrice e)
    (hstep : d.step c makePrice e = some d') : d'.Sound c := by
  cases e with
  | bar bar answers venue =>
    simp only [StopDesk.step, Option.ite_none_right_eq_some, Option.some.injEq] at hstep
    obtain ⟨-, rfl⟩ := hstep
    intro t' ht'
    obtain ⟨t, ht, rfl⟩ := Option.map_eq_some_iff.mp ht'
    obtain ⟨hsound, hlive⟩ := hs t ht
    refine ⟨hsound.evaluate bar.close answers venue _ makePrice, ?_⟩
    cases List.mem_cons.mp (Trade.evaluate_mem bar.close answers venue _ c makePrice t) with
    | inl heq => rwa [heq]
    | inr hmem => exact ((promised_bar.mp hp t ht).1 _ hmem).stop
  | opened side entryPrice slPrice qty pipSize =>
    simp only [StopDesk.step] at hstep
    cases htrade : d.trade with
    | some t =>
      rw [htrade] at hstep
      obtain rfl := Option.some.inj hstep
      exact hs
    | none =>
      rw [htrade] at hstep
      obtain rfl := Option.some.inj hstep
      intro t ht
      obtain ⟨st, hst, rfl⟩ := Option.map_eq_some_iff.mp ht
      exact sound_opened hst
  | closed =>
    obtain rfl := Option.some.inj hstep
    exact sound_of_none rfl

/-- **What one event owes** is that its stops land. -/
theorem Sound.promised_iff (hs : d.Sound c) (makePrice : ℚ → ℚ) (e : DeskEvent) :
    d.Promised c makePrice e ↔ d.Landing c makePrice e := by
  cases e with
  | bar bar answers venue =>
    rw [promised_bar, landing_bar]
    refine forall₂_congr fun t ht => ?_
    obtain ⟨hsound, hlive⟩ := hs t ht
    exact hsound.moments_iff bar.close answers venue _ hlive
  | opened => exact Iff.rfl
  | closed => exact Iff.rfl

/-- **In a run the recorded stop is the venue's and never gets looser, one
partial close at most is asked for and no stop is trailed before its phase,
exactly when every stop that is sent lands.** -/
theorem promised_run_iff (c : BracketStrategyConfig) (makePrice : ℚ → ℚ) (es : List DeskEvent)
    (d : StopDesk) (hrun : exec (step c makePrice) (init c) es = some d) :
    Checked (step c makePrice) (Promised c makePrice) (init c) es ↔
      Checked (step c makePrice) (Landing c makePrice) (init c) es := by
  have h0 : (init c).Sound c := sound_of_none rfl
  refine ⟨fun hp => ?_, fun hl => ?_⟩
  · refine hp.mono_of_invariant (Sound c) (fun d e _ hs hok hstep => ?_) h0 hrun
    exact ⟨hs.step hok hstep, (hs.promised_iff makePrice e).mp hok⟩
  · refine hl.mono_of_invariant (Sound c) (fun d e _ hs hok hstep => ?_) h0 hrun
    have hp := (hs.promised_iff makePrice e).mpr hok
    exact ⟨hs.step hp hstep, hp⟩

/-- `make_price` of an instrument with two decimals. -/
def toCents (price : ℚ) : ℚ := round (price * 100) / 100

/-- A bar from `down` below its close to `up` above it. -/
def spanBar (close : ℚ) (down up atrCents : ℕ) : TrailBar where
  high := close + up
  low := close - down
  close := close
  atr := some (atrCents / 100)
  low_le := sub_le_self close down.cast_nonneg
  le_high := le_add_of_nonneg_right up.cast_nonneg
  atr_nonneg := by
    intro a ha
    obtain rfl := Option.some.inj ha
    positivity

/-- A long position from 100 with its stop at 95, and a bar that closes at
105. -/
def longRun (atrCents : ℕ) : List DeskEvent :=
  [.bar (spanBar 100 1 1 atrCents) {} {}, .opened .buy 100 95 1 none,
    .bar (spanBar 105 1 1 atrCents) {} {}]

/-- Scale-out with a trail. -/
def scaleAndTrail : BracketStrategyConfig := { scaleOutEnabled := true, trailingEnabled := true }

/-- The position is closed in part, moved to breakeven and trailed on one
bar. -/
theorem longRun_promised :
    Checked (step scaleAndTrail toCents) (Promised scaleAndTrail toCents) (init scaleAndTrail)
      (longRun 200) :=
  (promised_run_iff scaleAndTrail toCents (longRun 200)
    ((exec (step scaleAndTrail toCents) (init scaleAndTrail) (longRun 200)).get
      (by decide +kernel)) (Option.some_get _).symm).mpr (by decide +kernel)

/-- A range of 2.01 puts the line of the trail between two prices of the
instrument. -/
theorem longRun_not_promised :
    ¬ Checked (step { trailingEnabled := true } toCents)
      (Promised { trailingEnabled := true } toCents) (init { trailingEnabled := true })
      (longRun 201) := by
  decide +kernel

end StopDesk

end TdSandboxed
