/-
TdSandboxed.Regime.HysteresisTheorems — the filter follows the last run of
labels that is long enough.

The invariant ties the counter to the labels so far (`Tracks`): a pending
state is what they end with, counted, and without one they end with the
current state. So a bar completes a run for the filter exactly when it does
so in the list, and the current state is the settled label of the list.

The decision of a bar passes its own checks, whatever the features are.
-/
import TdSandboxed.Lib.RunLength
import TdSandboxed.Regime.HysteresisFilter

namespace TdSandboxed

namespace HysteresisFilter

variable {F : Type*} [LinearOrder F] [Zero F] [One F]

section

variable {f : HysteresisFilter F} {labels : List RegimeState} {raw : RegimeState}

/-! ## The state machine -/

/-- What the filter knows of the labels so far. -/
structure Tracks (labels : List RegimeState) (f : HysteresisFilter F) : Prop where
  settled : Lib.Settled f.config.confirmationBars labels .unknown f.current
  stable : f.pending = none → f.barsInPending = 0 ∧ ∀ x ≠ f.current, Lib.trailing x labels = 0
  counted : ∀ p, f.pending = some p → p ≠ f.current ∧ f.barsInPending = Lib.trailing p labels ∧
    0 < f.barsInPending ∧ f.barsInPending < f.config.confirmationBars

theorem advance_config (f : HysteresisFilter F) (raw : RegimeState) :
    (f.advance raw).config = f.config := by
  unfold advance
  dsimp only
  split_ifs <;> rfl

/-- The count of a label that disagrees is the run that it ends. -/
theorem Tracks.bars_eq (h : Tracks labels f) (hraw : raw ≠ f.current) :
    (if f.pending = some raw then f.barsInPending + 1 else 1) =
      ((Lib.trailing raw labels + 1 : ℕ) : ℤ) := by
  cases hpending : f.pending with
  | none => simp [(h.stable hpending).2 raw hraw]
  | some p =>
    obtain ⟨-, hbars, hpos, -⟩ := h.counted p hpending
    by_cases hp : p = raw
    · subst hp
      simp [hbars]
    · have hzero : Lib.trailing raw labels = 0 :=
        Lib.trailing_eq_zero (by omega) (Ne.symm hp)
      simp [hp, hzero]

/-- **Step.** -/
theorem Tracks.advance (h : Tracks labels f) (raw : RegimeState) :
    Tracks (labels ++ [raw]) (f.advance raw) := by
  have hsettled := Lib.settled_concat (x := raw) f.config.confirmationBars_pos h.settled
  by_cases hraw : raw = f.current
  · -- agreement ends a confirmation, and a run of the current label settles nothing new
    rw [hraw, ite_self] at hsettled
    rw [HysteresisFilter.advance, if_pos hraw, hraw]
    refine ⟨hsettled, fun _ => ⟨rfl, fun x hx => Lib.trailing_concat_of_ne hx.symm labels⟩, ?_⟩
    intro p hp
    cases hp
  · rw [HysteresisFilter.advance, if_neg hraw, h.bars_eq hraw]
    dsimp only
    split
    · rename_i hreached
      rw [if_pos (by omega)] at hsettled
      refine ⟨hsettled, fun _ => ⟨rfl, fun x hx => Lib.trailing_concat_of_ne hx.symm labels⟩, ?_⟩
      intro p hp
      cases hp
    · rename_i hreached
      rw [if_neg (by omega)] at hsettled
      refine ⟨hsettled, (fun hp => by cases hp), ?_⟩
      rintro p hp
      obtain rfl : raw = p := Option.some.inj hp
      dsimp only
      rw [Lib.trailing_concat_self]
      exact ⟨hraw, rfl, by omega, by omega⟩

theorem Tracks.barsInPending (h : Tracks labels f) :
    0 ≤ f.barsInPending ∧ f.barsInPending < f.config.confirmationBars := by
  cases hpending : f.pending with
  | none =>
    have hbars := (h.stable hpending).1
    have := f.config.confirmationBars_pos
    omega
  | some p =>
    obtain ⟨-, -, hpos, hlt⟩ := h.counted p hpending
    omega

theorem clampUnit_mem [ZeroLEOneClass F] (x : F) : 0 ≤ clampUnit x ∧ clampUnit x ≤ 1 := by
  unfold clampUnit
  split
  · exact ⟨le_rfl, zero_le_one⟩
  · rename_i hzero
    split
    · exact ⟨zero_le_one, le_rfl⟩
    · rename_i hone
      exact ⟨not_lt.mp hzero, not_lt.mp hone⟩

end

/-! ## The decision of a bar -/

variable [Sub F] [Mul F] [Div F] [IntCast F]

section

variable {f : HysteresisFilter F} {labels : List RegimeState}

theorem computeConfidence_mem [ZeroLEOneClass F] (f : HysteresisFilter F)
    (features : RegimeFeatures F) :
    0 ≤ f.computeConfidence features ∧ f.computeConfidence features ≤ 1 := by
  unfold computeConfidence
  split
  · exact ⟨le_rfl, zero_le_one⟩
  · exact clampUnit_mem _

/-- A filter that tracks its labels makes decisions that pass. -/
theorem Tracks.apply [ZeroLEOneClass F] (h : Tracks labels f) (raw : RegimeState) (ts : ℚ)
    (features : RegimeFeatures F) :
    ∃ d, (f.apply raw ts features).2 = .ok d ∧ d.currentState = (f.apply raw ts features).1.current ∧
      0 ≤ d.confidence ∧ d.confidence ≤ 1 ∧ (d.currentState = .unknown → d.confidence = 0) := by
  have hnext := h.advance raw
  generalize hg : f.advance raw = g at hnext
  obtain ⟨hzero, hone⟩ := g.computeConfidence_mem features
  obtain ⟨hnonneg, -⟩ := hnext.barsInPending
  have hstable : ¬(g.pending = none ∧ g.barsInPending ≠ 0) := by
    rintro ⟨hpending, hbars⟩
    exact hbars (hnext.stable hpending).1
  have hother : g.pending ≠ some g.current := fun hsame => (hnext.counted _ hsame).1 rfl
  have hcounted : ¬(g.pending ≠ none ∧ g.barsInPending ≤ 0) := by
    rintro ⟨hpending, hbars⟩
    obtain ⟨p, hp⟩ := Option.ne_none_iff_exists'.mp hpending
    exact absurd (hnext.counted p hp).2.2.1 (not_lt.mpr hbars)
  simp only [HysteresisFilter.apply, hg, RegimeDecision.check, if_neg g.config.barType_ne,
    if_neg (not_lt.mpr hnonneg), if_neg hstable, if_neg hother, if_neg hcounted,
    if_neg (not_not.mpr (And.intro hzero hone))]
  exact ⟨_, rfl, rfl, hzero, hone, fun hunknown => if_pos hunknown⟩

end

/-- The filter after the bars of a stream. -/
def run (c : HysteresisConfig F) (bars : List (RegimeState × ℚ × RegimeFeatures F)) :
    HysteresisFilter F :=
  bars.foldl (fun f bar => (f.apply bar.1 bar.2.1 bar.2.2).1) { config := c }

variable {c : HysteresisConfig F} {bars : List (RegimeState × ℚ × RegimeFeatures F)}

/-- **Run.** -/
theorem tracks_run (c : HysteresisConfig F) (bars : List (RegimeState × ℚ × RegimeFeatures F)) :
    (run c bars).config = c ∧ Tracks (bars.map Prod.fst) (run c bars) := by
  induction bars using List.reverseRecOn with
  | nil =>
    refine ⟨rfl, Lib.settled_nil c.confirmationBars_pos, fun _ => ⟨rfl, fun x _ => rfl⟩, ?_⟩
    intro p hp
    cases hp
  | append_singleton bars bar ih =>
    obtain ⟨hconfig, htracks⟩ := ih
    have hstep : run c (bars ++ [bar]) = (run c bars).advance bar.1 := by
      simp [run, HysteresisFilter.apply]
    rw [hstep, List.map_append]
    exact ⟨(advance_config _ _).trans hconfig, htracks.advance bar.1⟩

/-- **The filter follows the last run of labels that is long enough**, its
pending state is another one and not confirmed yet, and the confidence of
every decision is a number of the unit interval, 0 for the unknown state. -/
theorem filter_follows_runs [ZeroLEOneClass F] (c : HysteresisConfig F)
    (bars : List (RegimeState × ℚ × RegimeFeatures F)) :
    (∀ s, Lib.Settled c.confirmationBars (bars.map Prod.fst) .unknown s ↔ s = (run c bars).current) ∧
      (∀ p, (run c bars).pending = some p → p ≠ (run c bars).current) ∧
      0 ≤ (run c bars).barsInPending ∧ (run c bars).barsInPending < c.confirmationBars ∧
      ∀ raw ts features, ∃ d, ((run c bars).apply raw ts features).2 = .ok d ∧
        d.currentState = (run c (bars ++ [(raw, ts, features)])).current ∧
        0 ≤ d.confidence ∧ d.confidence ≤ 1 ∧ (d.currentState = .unknown → d.confidence = 0) := by
  obtain ⟨hconfig, htracks⟩ := tracks_run c bars
  obtain ⟨hnonneg, hlt⟩ := htracks.barsInPending
  have hsettled := htracks.settled
  rw [hconfig] at hlt hsettled
  refine ⟨fun s => ⟨fun hs => hs.unique c.confirmationBars_pos hsettled, ?_⟩,
    fun p hp => (htracks.counted p hp).1, hnonneg, hlt, fun raw ts features => ?_⟩
  · rintro rfl
    exact hsettled
  · obtain ⟨d, hd, hcurrent, hrest⟩ := htracks.apply raw ts features
    refine ⟨d, hd, hcurrent.trans ?_, hrest⟩
    simp [run]

/-! ## Two bars of a trend -/

def sampleConfig : HysteresisConfig ℚ where
  barType := "XAUUSD-5-MINUTE"
  confirmationBars := 2
  thresholds :=
    { adxTrendMin := 25, adxStrongTrend := 40, bbWidthLowPct := 1 / 5, bbWidthHighPct := 4 / 5,
      realizedVolHigh := 1 / 50, emaSlopeTrendThreshold := 1 / 1000, adxTrendMin_pos := by decide,
      adxStrongTrend_pos := by decide, adxTrendMin_le := by decide,
      bbWidthLowPct_unit := by decide +kernel, bbWidthHighPct_unit := by decide +kernel,
      bbWidthLowPct_lt := by decide +kernel, realizedVolHigh_pos := by decide +kernel,
      emaSlopeTrendThreshold_pos := by decide +kernel }
  barType_ne := by decide
  confirmationBars_pos := by decide

def sampleBar (label : RegimeState) : RegimeState × ℚ × RegimeFeatures ℚ :=
  (label, 0, { adx := 31, plusDi := 20, minusDi := 10, bbWidthPct := 1 / 2, realizedVol := 1 / 100,
               emaSlope := 1 / 100, isWarmedUp := true })

/-- The trend is confirmed by its second bar, and one bar of a range leaves it in place. -/
theorem filter_follows_runs_trend :
    Lib.Settled 2 [.trendingUp, .trendingUp, .ranging] .unknown RegimeState.trendingUp ∧
      (run sampleConfig ([.trendingUp, .trendingUp, .ranging].map sampleBar)).barsInPending < 2 := by
  obtain ⟨hsettled, -, -, hlt, -⟩ :=
    filter_follows_runs sampleConfig ([.trendingUp, .trendingUp, .ranging].map sampleBar)
  exact ⟨(hsettled .trendingUp).mpr (by decide +kernel), hlt⟩

end HysteresisFilter

end TdSandboxed
