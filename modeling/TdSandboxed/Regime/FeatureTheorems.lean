/-
TdSandboxed.Regime.FeatureTheorems — the features of a bar as functions of
all bars so far (`regime/features.py`).

`after` puts the states of the four indicators together, `update_after` is
one bar of the extractor. `update_eq_batch` reads off the answer to the
last of a sequence of bars: from which bar on there is one, and each value
in it by its batch definition, without an exception on the way.
-/
import Mathlib
import TdSandboxed.Indicators.IndicatorHistory
import TdSandboxed.Regime.FeatureExtractor

namespace TdSandboxed.FeatureExtractor

open Lib

attribute [local instance] atLeastTwo_two atLeastTwo_hundred

variable {F : Type*} [Field F] [LinearOrder F] [IsStrictOrderedRing F] {sqrt log : F → F}
  {p : RegimeSetup F} {bars : List (PriceBar F)} {bar : PriceBar F}

/-- The state that a sequence of bars leaves. -/
def after (sqrt log : F → F) (p : RegimeSetup F) (bars : List (PriceBar F)) :
    FeatureExtractor F :=
  { p.buildExtractor with
    adx := ADX.after p.adxPeriod p.adxPeriod_pos bars
    bbWidth := p.buildExtractor.bbWidth.after sqrt (bars.map (·.close))
    realizedVol := p.buildExtractor.realizedVol.after sqrt log (bars.map (·.close))
    emaSlope := p.buildExtractor.emaSlope.after (bars.map (·.close))
    barsSeen := bars.length }

/-- The bars that it takes until every indicator has a value and the
warm-up is over. -/
def firstBar (p : RegimeSetup F) : ℕ :=
  max p.warmupBars (max (2 * p.adxPeriod) (max p.bbPeriod
    (max (p.realizedVolWindow + 1) (p.emaSlopePeriod + p.emaSlopeLookback))))

/-- The features by their batch definitions. -/
def batch (sqrt log : F → F) (p : RegimeSetup F) (bars : List (PriceBar F)) : RegimeFeatures F where
  adx := ADX.batch p.adxPeriod bars
  plusDi := (ADX.index p.adxPeriod bars).plusDi
  minusDi := (ADX.index p.adxPeriod bars).minusDi
  bbWidthPct :=
    BollingerBandWidth.batch sqrt p.bbPeriod p.bbStddev p.bbBaselineWindow (bars.map (·.close))
  realizedVol :=
    RealizedVolatility.batch sqrt log p.realizedVolWindow p.annualisationFactor (bars.map (·.close))
  emaSlope := EMASlope.batch p.emaSlopePeriod p.emaSlopeLookback (bars.map (·.close))
  isWarmedUp := true

omit [IsStrictOrderedRing F] in
theorem after_nil (sqrt log : F → F) (p : RegimeSetup F) :
    after sqrt log p [] = p.buildExtractor := by
  have hadx := p.adxPeriod_pos
  have hbb := p.bbPeriod_pos
  have hema := p.emaSlopePeriod_pos
  have hwidths : BollingerBandWidth.widths sqrt p.bbPeriod p.bbStddev ([] : List F) = [] :=
    onPrefixes_of_lt _ hbb
  have haverages : EMASlope.averages p.emaSlopePeriod ([] : List F) = [] :=
    onPrefixes_of_lt _ hema
  have hindices : ADX.indices p.adxPeriod ([] : List (PriceBar F)) = [] :=
    onPrefixes_of_lt _ hadx
  simp [after, ADX.after, BollingerBandWidth.after, RealizedVolatility.after, EMASlope.after,
    RegimeSetup.buildExtractor, RealizedVolatility.logReturns, hwidths, haverages, hindices, hadx,
    hbb, hema, hadx.ne', hbb.ne', hema.ne']

omit [IsStrictOrderedRing F] in
/-- The features are there from the first bar for which all are. -/
theorem features_after (sqrt log : F → F) (p : RegimeSetup F) (bars : List (PriceBar F)) :
    (after sqrt log p bars).features =
      .ok (if bars.length < firstBar p then none else some (batch sqrt log p bars)) := by
  have hadx := p.adxPeriod_pos
  unfold features
  have hseen : (after sqrt log p bars).barsSeen < (after sqrt log p bars).warmupBars ↔
      bars.length < p.warmupBars := Iff.rfl
  by_cases hwarm : bars.length < p.warmupBars
  · have hbefore : bars.length < firstBar p := lt_max_of_lt_left hwarm
    rw [if_pos (hseen.mpr hwarm), if_pos hbefore]
  · rw [if_neg (mt hseen.mp hwarm)]
    have hinit : ((after sqrt log p bars).adx.initialized ∧
        (after sqrt log p bars).bbWidth.initialized ∧
        (after sqrt log p bars).realizedVol.initialized ∧
        (after sqrt log p bars).emaSlope.initialized) ↔ firstBar p ≤ bars.length := by
      simp only [after, ADX.after, BollingerBandWidth.after, RealizedVolatility.after,
        EMASlope.after, RegimeSetup.buildExtractor, List.length_map, decide_eq_true_eq, firstBar,
        max_le_iff]
      omega
    by_cases hfirst : bars.length < firstBar p
    · rw [if_pos (by rw [hinit]; omega), if_pos hfirst]
    · rw [if_neg (by rw [hinit]; omega), if_neg hfirst]
      simp only [firstBar, not_lt, max_le_iff] at hfirst
      obtain ⟨-, hdouble, hbb, hvol, hema⟩ := hfirst
      have hadxValue : (after sqrt log p bars).adx.adx = some (ADX.batch p.adxPeriod bars) :=
        if_neg (not_lt.mpr hdouble)
      have hplus : (after sqrt log p bars).adx.plusDi =
          some (ADX.index p.adxPeriod bars).plusDi := if_neg (by omega)
      have hminus : (after sqrt log p bars).adx.minusDi =
          some (ADX.index p.adxPeriod bars).minusDi := if_neg (by omega)
      have hrank : (after sqrt log p bars).bbWidth.percentile =
          some (batch sqrt log p bars).bbWidthPct :=
        if_neg (by rw [List.length_map]; exact not_lt.mpr hbb)
      have hvolatility : (after sqrt log p bars).realizedVol.value =
          some (batch sqrt log p bars).realizedVol :=
        if_neg (by rw [List.length_map]; exact not_le.mpr hvol)
      have hslope : (after sqrt log p bars).emaSlope.value =
          some (batch sqrt log p bars).emaSlope :=
        if_neg (by rw [List.length_map]; exact not_lt.mpr hema)
      rw [hadxValue, hplus, hminus, hrank, hvolatility, hslope]
      rfl

/-- **One bar of the extractor.** -/
theorem update_after (hbars : ∀ b ∈ bars, b.Priced) (hbar : bar.Priced) :
    (after sqrt log p bars).update sqrt log bar =
      .ok (after sqrt log p (bars ++ [bar]),
        if bars.length + 1 < firstBar p then none
        else some (batch sqrt log p (bars ++ [bar]))) := by
  have hcloses : ∀ c ∈ bars.map (·.close), 0 < c := by
    intro c hc
    obtain ⟨b, hb, rfl⟩ := List.mem_map.mp hc
    exact (hbars b hb).low_pos.trans_le (hbars b hb).low_le
  have hclose := hbar.low_pos.trans_le hbar.low_le
  have hfeatures := features_after sqrt log p (bars ++ [bar])
  simp only [update, after, ADX.handleBar_after hbars hbar,
    BollingerBandWidth.handleBar_after sqrt _ hcloses hclose,
    RealizedVolatility.handleBar_after sqrt log _ hcloses hclose,
    EMASlope.handleBar_after _ hcloses hclose, ok_bind]
  simp only [after, List.map_append, List.map_cons, List.map_nil, List.length_append,
    List.length_singleton] at hfeatures ⊢
  rw [hfeatures]
  rfl

/-- The extractor after every sequence of bars. -/
theorem feed_eq (hbars : ∀ b ∈ bars, b.Priced) :
    p.buildExtractor.feed sqrt log bars = .ok (after sqrt log p bars) := by
  rw [← after_nil sqrt log p]
  refine foldlM_eq_after (after sqrt log p) ?_ bars hbars
  intro bars bar hbars hbar
  rw [update_after hbars hbar]
  rfl

/-- The bounds of the features. -/
theorem batch_bounds (hbars : ∀ b ∈ bars, b.Priced) (hlen : firstBar p ≤ bars.length) :
    ADX.Percent (ADX.index p.adxPeriod bars) ∧
      (0 ≤ ADX.batch p.adxPeriod bars ∧ ADX.batch p.adxPeriod bars ≤ 100) ∧
      0 < (batch sqrt log p bars).bbWidthPct ∧ (batch sqrt log p bars).bbWidthPct ≤ 1 := by
  simp only [firstBar, max_le_iff] at hlen
  obtain ⟨-, hdouble, hbb, -, -⟩ := hlen
  have hp := p.adxPeriod_pos
  refine ⟨?_, ?_, ?_⟩
  · refine ADX.percent_indexOf (ADX.bounded_wilder hp ?_ (ADX.mem_changes_bounded hbars))
    rw [length_changes]
    omega
  · exact ADX.batch_percent hp hdouble hbars
  · exact BollingerBandWidth.batch_unit sqrt p.bbStddev p.bbPeriod_pos p.bbBaselineWindow_pos
      (by rwa [List.length_map])

/-- **Features are functions of the bars.** -/
theorem update_eq_batch (p : RegimeSetup ℝ) (bars : List (PriceBar ℝ)) (bar : PriceBar ℝ)
    (hbars : ∀ b ∈ bars ++ [bar], b.Priced) :
    ∃ s t answer,
      p.buildExtractor.feed Real.sqrt Real.log bars = .ok s ∧
      s.update Real.sqrt Real.log bar = .ok (t, answer) ∧
      (answer = none ↔ bars.length + 1 < max p.warmupBars (max (2 * p.adxPeriod)
        (max p.bbPeriod (max (p.realizedVolWindow + 1)
          (p.emaSlopePeriod + p.emaSlopeLookback))))) ∧
      ∀ f ∈ answer, f = batch Real.sqrt Real.log p (bars ++ [bar]) ∧
        (0 ≤ f.plusDi ∧ f.plusDi ≤ 100) ∧ (0 ≤ f.minusDi ∧ f.minusDi ≤ 100) ∧
        f.plusDi + f.minusDi ≤ 100 ∧ (0 ≤ f.adx ∧ f.adx ≤ 100) ∧
        0 < f.bbWidthPct ∧ f.bbWidthPct ≤ 1 := by
  have hold : ∀ b ∈ bars, b.Priced := fun b hb => hbars b (List.mem_append_left _ hb)
  have hnew : bar.Priced := hbars bar (by simp)
  refine ⟨_, _, _, feed_eq hold, update_after hold hnew, ?_, ?_⟩
  · by_cases hfirst : bars.length + 1 < firstBar p
    · rw [if_pos hfirst]
      exact iff_of_true rfl hfirst
    · rw [if_neg hfirst]
      exact iff_of_false (Option.some_ne_none _) hfirst
  · intro f hf
    split at hf
    · simp at hf
    · rename_i hfirst
      obtain rfl := Option.some.inj hf
      obtain ⟨hdi, hadx, hrank⟩ := @batch_bounds ℝ _ _ _ Real.sqrt Real.log p _ hbars
        (by simpa using not_lt.mp hfirst)
      exact ⟨rfl, ⟨hdi.plusDi_nonneg, hdi.plusDi_le⟩, ⟨hdi.minusDi_nonneg, hdi.minusDi_le⟩,
        hdi.add_le, hadx, hrank⟩

theorem xauusd_ne : "XAUUSD" ≠ "" := by decide

theorem stddev_pos : (0 : ℝ) < 2 := two_pos

theorem factor_pos : (0 : ℝ) < 1 := one_pos

theorem window_ge_two : 2 ≤ 2 := le_rfl

/-- The shortest periods there are: features from the third bar on. -/
noncomputable def shortest : RegimeSetup ℝ where
  barType := "XAUUSD"
  adxPeriod := 1
  bbPeriod := 1
  bbStddev := 2
  bbBaselineWindow := 1
  realizedVolWindow := 2
  annualisationFactor := 1
  emaSlopePeriod := 1
  emaSlopeLookback := 1
  warmupBars := 1
  barType_ne := xauusd_ne
  adxPeriod_pos := Nat.one_pos
  bbPeriod_pos := Nat.one_pos
  bbStddev_pos := stddev_pos
  bbBaselineWindow_pos := Nat.one_pos
  two_le_realizedVolWindow := window_ge_two
  annualisationFactor_pos := factor_pos
  emaSlopePeriod_pos := Nat.one_pos
  emaSlopeLookback_pos := Nat.one_pos
  warmupBars_pos := Nat.one_pos

noncomputable def flatBar : PriceBar ℝ := { high := 100, low := 100, close := 100 }

theorem update_third_bar :
    ∃ s t answer,
      shortest.buildExtractor.feed Real.sqrt Real.log [flatBar, flatBar] = .ok s ∧
      s.update Real.sqrt Real.log flatBar = .ok (t, answer) ∧ answer ≠ none := by
  have hflat : ∀ b ∈ [flatBar, flatBar] ++ [flatBar], b.Priced := by
    intro b hb
    obtain rfl : b = flatBar := by simpa using hb
    exact ⟨by norm_num [flatBar], le_rfl, le_rfl⟩
  obtain ⟨s, t, answer, hs, ht, hnone, -⟩ :=
    update_eq_batch shortest [flatBar, flatBar] flatBar hflat
  refine ⟨s, t, answer, hs, ht, ?_⟩
  rw [Ne, hnone]
  simp [shortest]

end TdSandboxed.FeatureExtractor
