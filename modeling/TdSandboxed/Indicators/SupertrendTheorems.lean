/-
TdSandboxed.Indicators.SupertrendTheorems — the line over whole runs of
bars (`indicators/supertrend.py`).

`Chart` is the indicator with the number of bars it was given, and
`Measured` what is known of the average true range of the next one: there
is none before `period` bars, and from then on it is at least the bar's
true range divided by the period. `Fed` are the runs of such bars.

Both bands are carried over only while the previous close lies between
them, so they cross on one kind of bar alone: a bar that gaps with its
whole basic channel beyond a band that the previous close respected.
`bandsOrdered_iff`, `onItsSide_iff` and `follows_iff` say on which bars
the bands cross, the line is drawn on the wrong side of the close, and
the line of an unchanged trend gives way. `line_of_run` adds for which
multipliers none of this happens in any run: half the period keeps the
line on its side, the whole period keeps the bands apart.
-/
import TdSandboxed.Indicators.Supertrend
import TdSandboxed.Lib.Run
import Mathlib.Algebra.Order.Field.Basic
import Mathlib.Tactic.NormNum
import Mathlib.Tactic.Positivity
import Mathlib.Tactic.Ring

namespace TdSandboxed.Supertrend

open Lib

variable {s : Supertrend} {bar : TrailBar} {atr : ℚ}

/-! ## What is asked of the line -/

/-- The line is not above the close in an uptrend and not below it in a
downtrend. -/
def OnItsSide (s : Supertrend) : Prop :=
  ∀ v ∈ s.value, ∀ c ∈ s.prevClose, (s.trend = 1 → v ≤ c) ∧ (s.trend = -1 → c ≤ v)

/-- The lower band is not above the upper one. -/
def BandsOrdered (s : Supertrend) : Prop :=
  ∀ l ∈ s.prevFinalLower, ∀ u ∈ s.prevFinalUpper, l ≤ u

/-- While the trend does not change, the line does not move away from the
price. -/
def Follows (s t : Supertrend) : Prop :=
  ∀ v ∈ s.value, ∀ w ∈ t.value, s.trend = t.trend →
    (t.trend = 1 → v ≤ w) ∧ (t.trend = -1 → w ≤ v)

instance : Decidable s.OnItsSide := inferInstanceAs (Decidable (∀ v ∈ s.value, _))

instance : Decidable s.BandsOrdered := inferInstanceAs (Decidable (∀ l ∈ s.prevFinalLower, _))

instance (t : Supertrend) : Decidable (s.Follows t) :=
  inferInstanceAs (Decidable (∀ v ∈ s.value, ∀ w ∈ t.value, _))

/-! ## The bars that break it -/

/-- The whole basic channel lies below a lower band that the previous close
respected. -/
def GapsDown (s : Supertrend) (bar : TrailBar) (atr : ℚ) : Prop :=
  ∃ l ∈ s.prevFinalLower, ∃ c ∈ s.prevClose, s.basicUpper bar atr < l ∧ l ≤ c

/-- The whole basic channel lies above an upper band that the previous close
respected. -/
def GapsUp (s : Supertrend) (bar : TrailBar) (atr : ℚ) : Prop :=
  ∃ u ∈ s.prevFinalUpper, ∃ c ∈ s.prevClose, c ≤ u ∧ u < s.basicLower bar atr

/-- Such a gap, with the close of the bar between the channel and the band. -/
def ClosesInGap (s : Supertrend) (bar : TrailBar) (atr : ℚ) : Prop :=
  (s.GapsDown bar atr ∧ s.basicUpper bar atr < bar.close ∧ ∃ l ∈ s.prevFinalLower, bar.close < l) ∨
    (s.GapsUp bar atr ∧ bar.close < s.basicLower bar atr ∧ ∃ u ∈ s.prevFinalUpper, u < bar.close)

/-- The previous close was already beyond the line, and the line starts
again from the basic band, further away, in the same trend. -/
def GivesWay (s : Supertrend) (bar : TrailBar) (atr : ℚ) : Prop :=
  (s.trend = 1 ∧ s.basicLower bar atr ≤ bar.close ∧
      ∃ l ∈ s.prevFinalLower, (∃ c ∈ s.prevClose, c < l) ∧ s.basicLower bar atr < l) ∨
    (s.trend = -1 ∧ bar.close ≤ s.basicUpper bar atr ∧
      ∃ u ∈ s.prevFinalUpper, (∃ c ∈ s.prevClose, u < c) ∧ u < s.basicUpper bar atr)

/-! ## One bar -/

/-- The state after an initialised bar: both bands, the close, and the line
on the band of the trend. -/
structure Drawn (s : Supertrend) (upper lower close : ℚ) : Prop where
  upper_eq : s.prevFinalUpper = some upper
  lower_eq : s.prevFinalLower = some lower
  close_eq : s.prevClose = some close
  line : (s.trend = 1 ∧ s.value = some lower) ∨ (s.trend = -1 ∧ s.value = some upper)

/-- Which trend a bar leaves: an uptrend that does not close below the lower
band, or a downtrend that closes above the upper one, is an uptrend. -/
theorem line_cases (h : s.Sound) (bar : TrailBar) (atr : ℚ) :
    (s.line bar atr = (1, s.finalLower bar atr) ∧
        (s.trend ≠ -1 ∧ s.finalLower bar atr ≤ bar.close ∨
          s.trend = -1 ∧ s.finalUpper bar atr < bar.close)) ∨
      (s.line bar atr = (-1, s.finalUpper bar atr) ∧
        (s.trend = -1 ∧ bar.close ≤ s.finalUpper bar atr ∨
          s.trend ≠ -1 ∧ bar.close < s.finalLower bar atr)) := by
  unfold line
  cases hv : s.value with
  | none =>
    have htrend := (h.fresh hv).1
    dsimp only
    split
    · rename_i hlt
      exact .inr ⟨rfl, .inr ⟨by rw [htrend]; decide, hlt⟩⟩
    · rename_i hge
      exact .inl ⟨rfl, .inl ⟨by rw [htrend]; decide, not_lt.mp hge⟩⟩
  | some v =>
    cases h.trend (by rw [hv]; rfl) with
    | inl htrend =>
      simp only [htrend, if_true]
      split
      · rename_i hlt
        exact .inr ⟨rfl, .inr ⟨by decide, hlt⟩⟩
      · rename_i hge
        exact .inl ⟨rfl, .inl ⟨by decide, not_lt.mp hge⟩⟩
    | inr htrend =>
      simp only [htrend]
      rw [if_neg (by decide)]
      split
      · rename_i hgt
        exact .inl ⟨rfl, .inr ⟨trivial, hgt⟩⟩
      · rename_i hle
        exact .inr ⟨rfl, .inl ⟨trivial, not_lt.mp hle⟩⟩

theorem handleBar_trend (s : Supertrend) (hatr : bar.atr = some atr) :
    (s.handleBar bar).trend = (s.line bar atr).1 := by
  simp only [handleBar, hatr]

theorem handleBar_value (s : Supertrend) (hatr : bar.atr = some atr) :
    (s.handleBar bar).value = some (s.line bar atr).2 := by
  simp only [handleBar, hatr]

theorem handleBar_drawn (h : s.Sound) (hatr : bar.atr = some atr) :
    Drawn (s.handleBar bar) (s.finalUpper bar atr) (s.finalLower bar atr) bar.close := by
  simp only [handleBar, hatr]
  refine ⟨rfl, rfl, rfl, ?_⟩
  cases line_cases h bar atr with
  | inl heq => exact .inl ⟨congrArg Prod.fst heq.1, congrArg (some ·.2) heq.1⟩
  | inr heq => exact .inr ⟨congrArg Prod.fst heq.1, congrArg (some ·.2) heq.1⟩

variable {upper lower close : ℚ}

theorem Drawn.finalUpper_eq (d : s.Drawn upper lower close) (bar : TrailBar) (atr : ℚ) :
    s.finalUpper bar atr =
      if s.basicUpper bar atr < upper ∨ upper < close then s.basicUpper bar atr else upper := by
  simp [finalUpper, d.upper_eq, d.close_eq]

theorem Drawn.finalLower_eq (d : s.Drawn upper lower close) (bar : TrailBar) (atr : ℚ) :
    s.finalLower bar atr =
      if lower < s.basicLower bar atr ∨ close < lower then s.basicLower bar atr else lower := by
  simp [finalLower, d.lower_eq, d.close_eq]

/-- The trend and the line of a drawn state are read off the two bands. -/
theorem Drawn.onItsSide_iff (d : s.Drawn upper lower close) :
    s.OnItsSide ↔ (s.trend = 1 → lower ≤ close) ∧ (s.trend = -1 → close ≤ upper) := by
  unfold OnItsSide
  cases d.line with
  | inl h => simp [h, d.close_eq]
  | inr h => simp [h, d.close_eq]

theorem Drawn.bandsOrdered_iff (d : s.Drawn upper lower close) :
    s.BandsOrdered ↔ lower ≤ upper := by
  simp [BandsOrdered, d.upper_eq, d.lower_eq]

/-- Before the first initialised bar there are no bands, so the first ones
are the basic ones. -/
theorem Sound.first_bands (h : s.Sound) (hv : s.value = none) (bar : TrailBar) (atr : ℚ) :
    s.finalUpper bar atr = s.basicUpper bar atr ∧
      s.finalLower bar atr = s.basicLower bar atr := by
  obtain ⟨-, hupper, hlower⟩ := h.fresh hv
  exact ⟨by simp [finalUpper, hupper], by simp [finalLower, hlower]⟩

/-- Once there is a line, the state is that of an initialised bar. -/
def Settled (s : Supertrend) : Prop :=
  s.value.isSome → ∃ upper lower close, s.Drawn upper lower close

/-- **The bands cross** exactly on a bar that gaps beyond one of them. Both
are carried over only around the previous close, so one of crossed bands
is new. -/
theorem finalLower_le_finalUpper_iff (h : s.Sound) (hd : s.Settled) (hatr : 0 ≤ atr) :
    s.finalLower bar atr ≤ s.finalUpper bar atr ↔ ¬ (s.GapsDown bar atr ∨ s.GapsUp bar atr) := by
  have hbasic := @basicLower_le_basicUpper s bar atr h hatr
  cases hv : s.value with
  | none =>
    obtain ⟨-, hupper, hlower⟩ := h.fresh hv
    obtain ⟨heq, heq'⟩ := h.first_bands hv bar atr
    simpa [heq, heq', GapsDown, GapsUp, hupper, hlower] using hbasic
  | some v =>
    obtain ⟨upper, lower, close, d⟩ := hd (by rw [hv]; rfl)
    simp only [GapsDown, GapsUp, d.upper_eq, d.lower_eq, d.close_eq, Option.mem_def,
      Option.some.injEq, exists_eq_left', d.finalUpper_eq, d.finalLower_eq]
    split <;> split <;> grind

theorem bandsOrdered_iff (h : s.Sound) (hd : s.Settled) (hatr : bar.atr = some atr) :
    (s.handleBar bar).BandsOrdered ↔ ¬ (s.GapsDown bar atr ∨ s.GapsUp bar atr) := by
  rw [(handleBar_drawn h hatr).bandsOrdered_iff]
  exact finalLower_le_finalUpper_iff h hd (bar.atr_nonneg atr hatr)

/-- A close between crossed bands is a close in the gap. -/
theorem closesInGap_iff (h : s.Sound) (hd : s.Settled) (hatr : 0 ≤ atr) :
    s.ClosesInGap bar atr ↔
      s.finalUpper bar atr < bar.close ∧ bar.close < s.finalLower bar atr := by
  have hbasic := @basicLower_le_basicUpper s bar atr h hatr
  cases hv : s.value with
  | none =>
    obtain ⟨-, hupper, hlower⟩ := h.fresh hv
    obtain ⟨heq, heq'⟩ := h.first_bands hv bar atr
    simp only [ClosesInGap, GapsDown, GapsUp, hupper, hlower, heq, heq']
    grind
  | some v =>
    obtain ⟨upper, lower, close, d⟩ := hd (by rw [hv]; rfl)
    simp only [ClosesInGap, GapsDown, GapsUp, d.upper_eq, d.lower_eq, d.close_eq, Option.mem_def,
      Option.some.injEq, exists_eq_left', d.finalUpper_eq, d.finalLower_eq]
    split <;> split <;> grind

/-- **The line is on the wrong side** of the close exactly after a bar that
closes in the gap: it turns the trend, to a line that is beyond the close. -/
theorem onItsSide_iff (h : s.Sound) (hd : s.Settled) (hatr : bar.atr = some atr) :
    (s.handleBar bar).OnItsSide ↔ ¬ s.ClosesInGap bar atr := by
  have hnonneg := bar.atr_nonneg atr hatr
  have hbasic := @basicLower_le_basicUpper s bar atr h hnonneg
  rw [(handleBar_drawn h hatr).onItsSide_iff, handleBar_trend s hatr,
    closesInGap_iff h hd hnonneg]
  cases line_cases h bar atr with
  | inl hline => rw [hline.1]; grind
  | inr hline =>
    rw [hline.1]
    -- the first bar draws the basic bands, which do not cross
    cases hv : s.value with
    | none => have := h.first_bands hv bar atr; grind
    | some v => have := h.trend (by rw [hv]; rfl); grind

/-- **The line of an unchanged trend gives way** exactly when the previous
close was already beyond it and the basic band is further away. -/
theorem follows_iff (h : s.Sound) (hd : s.Settled) (hatr : bar.atr = some atr) :
    s.Follows (s.handleBar bar) ↔ ¬ s.GivesWay bar atr := by
  cases hv : s.value with
  | none =>
    have := (h.fresh hv).1
    simp [Follows, GivesWay, hv, this]
  | some v =>
    obtain ⟨upper, lower, close, d⟩ := hd (by rw [hv]; rfl)
    have hupper := d.finalUpper_eq bar atr
    have hlower := d.finalLower_eq bar atr
    simp only [Follows, GivesWay, d.upper_eq, d.lower_eq, d.close_eq, Option.mem_def,
      Option.some.injEq, exists_eq_left', handleBar_trend s hatr, handleBar_value s hatr]
    cases d.line with
    | inl hs =>
      simp only [hs.1, hs.2]
      cases line_cases h bar atr with
      | inl hline => simp only [hline.1]; grind
      | inr hline => simp only [hline.1]; grind
    | inr hs =>
      simp only [hs.1, hs.2]
      cases line_cases h bar atr with
      | inl hline => simp only [hline.1]; grind
      | inr hline => simp only [hline.1]; grind

/-- A line on its side does not give way. -/
theorem not_givesWay (h : s.Sound) (hd : s.Settled) (hside : s.OnItsSide) :
    ¬ s.GivesWay bar atr := by
  cases hv : s.value with
  | none =>
    have := (h.fresh hv).1
    simp [GivesWay, this]
  | some v =>
    obtain ⟨upper, lower, close, d⟩ := hd (by rw [hv]; rfl)
    rw [d.onItsSide_iff] at hside
    simp only [GivesWay, d.upper_eq, d.lower_eq, d.close_eq, Option.mem_def, Option.some.injEq,
      exists_eq_left']
    grind

/-! ## Runs -/

/-- The indicator, with the number of bars it was given. -/
structure Chart where
  seen : ℕ := 0
  supertrend : Supertrend
  deriving DecidableEq

def Chart.step (c : Chart) (bar : TrailBar) : Option Chart :=
  some { seen := c.seen + 1, supertrend := c.supertrend.handleBar bar }

/-- The true range of a bar after a close; the first bar has no previous
close and counts its own. -/
def trueRange (prevClose : Option ℚ) (bar : TrailBar) : ℚ :=
  max bar.high (prevClose.getD bar.close) - min bar.low (prevClose.getD bar.close)

/-- What is known of the average true range of a bar: it is there from the
bar number `period` on, and at least the true range over the period. -/
def Measured (period : ℕ) (c : Chart) (bar : TrailBar) : Prop :=
  (bar.atr.isSome ↔ period ≤ c.seen + 1) ∧
    ∀ atr ∈ bar.atr, trueRange c.supertrend.prevClose bar / period ≤ atr

instance (period : ℕ) (c : Chart) (bar : TrailBar) : Decidable (Measured period c bar) :=
  inferInstanceAs (Decidable (_ ∧ _))

/-- Runs over measured bars, from the new indicator. -/
def Fed (period : ℕ) (multiplier : ℚ) (bars : List TrailBar) (c : Chart) : Prop :=
  RunWhere Chart.step (Measured period) { supertrend := { multiplier } } bars c

/-- After every initialised bar of every run, the states around the bar
meet `P`. -/
def EveryBar (period : ℕ) (multiplier : ℚ) (P : Supertrend → Supertrend → Prop) : Prop :=
  ∀ bars c bar, Fed period multiplier bars c → Measured period c bar → bar.atr.isSome →
    P c.supertrend (c.supertrend.handleBar bar)

variable {period : ℕ} {multiplier : ℚ} {bars : List TrailBar} {c : Chart}

/-- What every run keeps. There is a line only once the period is over, and
from then on every bar has an average true range. -/
structure Charted (period : ℕ) (multiplier : ℚ) (c : Chart) : Prop where
  sound : c.supertrend.Sound
  settled : c.supertrend.Settled
  multiplier_eq : c.supertrend.multiplier = multiplier
  started : c.supertrend.value.isSome → period ≤ c.seen

theorem handleBar_warmup (s : Supertrend) (hatr : bar.atr = none) :
    s.handleBar bar = { s with prevClose := some bar.close } := by
  simp only [handleBar, hatr]

theorem handleBar_multiplier (s : Supertrend) (bar : TrailBar) :
    (s.handleBar bar).multiplier = s.multiplier := by
  unfold handleBar
  split <;> rfl

/-- A bar without an average true range comes before the line. -/
theorem Charted.value_eq_none (h : Charted period multiplier c) (hbar : Measured period c bar)
    (hatr : bar.atr = none) : c.supertrend.value = none := by
  by_contra hv
  have hseen := h.started (Option.ne_none_iff_isSome.mp hv)
  have := hbar.1.mpr (by omega)
  simp [hatr] at this

theorem charted_step {d : Chart} (h : Charted period multiplier c) (hbar : Measured period c bar)
    (hs : c.step bar = some d) : Charted period multiplier d := by
  obtain rfl := Option.some.inj hs
  refine ⟨h.sound.handleBar bar, ?_, (handleBar_multiplier _ _).trans h.multiplier_eq, ?_⟩
  · intro hv
    cases hatr : bar.atr with
    | none => simp [handleBar_warmup _ hatr, h.value_eq_none hbar hatr] at hv
    | some atr => exact ⟨_, _, _, handleBar_drawn h.sound hatr⟩
  · intro hv
    cases hatr : bar.atr with
    | none => simp [handleBar_warmup _ hatr, h.value_eq_none hbar hatr] at hv
    | some atr => exact hbar.1.mp (by simp [hatr])

theorem Fed.charted (hm : 0 < multiplier) (h : Fed period multiplier bars c) :
    Charted period multiplier c :=
  h.invariant_state (Charted period multiplier)
    ⟨sound_init hm, fun hv => (by cases hv), rfl, fun hv => (by cases hv)⟩
    fun _ _ _ => charted_step

/-! ## Wide channels -/

theorem highLow_le_trueRange (prevClose : Option ℚ) (bar : TrailBar) :
    bar.high - bar.low ≤ trueRange prevClose bar :=
  sub_le_sub (le_max_left _ _) (min_le_left _ _)

theorem gap_le_trueRange (close : ℚ) (bar : TrailBar) :
    close - bar.low ≤ trueRange (some close) bar ∧ bar.high - close ≤ trueRange (some close) bar :=
  ⟨sub_le_sub (le_max_right _ _) (min_le_left _ _), sub_le_sub (le_max_left _ _) (min_le_right _ _)⟩

/-- `width` true ranges fit into the half channel of a multiplier of at
least `width` periods. -/
theorem width_mul_trueRange_le (width : ℚ) (h : Charted period multiplier c)
    (hbar : Measured period c bar) (hatr : bar.atr = some atr) (hwidth : 0 ≤ width)
    (hp : 0 < period) (hm : width * period ≤ multiplier) :
    width * trueRange c.supertrend.prevClose bar ≤ c.supertrend.multiplier * atr := by
  have hpos : (0 : ℚ) < period := Nat.cast_pos.mpr hp
  have hcover := (div_le_iff₀ hpos).mp (hbar.2 atr hatr)
  have hnonneg := bar.atr_nonneg atr hatr
  calc width * trueRange c.supertrend.prevClose bar
      ≤ width * (atr * period) := mul_le_mul_of_nonneg_left hcover hwidth
    _ = width * period * atr := by ring
    _ ≤ multiplier * atr := mul_le_mul_of_nonneg_right hm hnonneg
    _ = c.supertrend.multiplier * atr := by rw [h.multiplier_eq]

/-- A channel of at least half the period holds the whole bar, so no bar
closes outside its own basic channel. -/
theorem not_closesInGap (h : Charted period multiplier c) (hbar : Measured period c bar)
    (hatr : bar.atr = some atr) (hp : 0 < period) (hm : (period : ℚ) ≤ 2 * multiplier) :
    ¬ c.supertrend.ClosesInGap bar atr := by
  have hwide := width_mul_trueRange_le (1 / 2) h hbar hatr (by norm_num) hp (by linarith)
  have hrange := highLow_le_trueRange c.supertrend.prevClose bar
  have hlow := bar.low_le
  have hhigh := bar.le_high
  intro hgap
  cases hgap with
  | inl hdown =>
    have := hdown.2.1
    unfold basicUpper at this
    linarith
  | inr hup =>
    have := hup.2.1
    unfold basicLower at this
    linarith

/-- With such a channel, a run always leaves the line on its side. -/
theorem Fed.onItsSide_step (hp : 0 < period) (hm : 0 < multiplier)
    (hwide : (period : ℚ) ≤ 2 * multiplier) (hfed : Fed period multiplier bars c)
    (hbar : Measured period c bar) (hatr : bar.atr.isSome) :
    (c.supertrend.handleBar bar).OnItsSide := by
  obtain ⟨atr, hatr⟩ := Option.isSome_iff_exists.mp hatr
  have h := hfed.charted hm
  exact (onItsSide_iff h.sound h.settled hatr).mpr (not_closesInGap h hbar hatr hp hwide)

theorem Fed.onItsSide (hp : 0 < period) (hm : 0 < multiplier)
    (hwide : (period : ℚ) ≤ 2 * multiplier) (hfed : Fed period multiplier bars c) :
    c.supertrend.OnItsSide := by
  refine RunWhere.invariant (fun _ c => c.supertrend.OnItsSide) (fun v hv => (by cases hv)) ?_ hfed
  intro bars c bar d hrun _ hbar hs
  obtain rfl := Option.some.inj hs
  cases hatr : bar.atr with
  | none =>
    have hv := (Fed.charted hm hrun).value_eq_none hbar hatr
    intro v hv'
    simp [handleBar_warmup _ hatr, hv] at hv'
  | some atr => exact Fed.onItsSide_step hp hm hwide hrun hbar (by simp [hatr])

/-- A channel of at least the period reaches back to the previous close. -/
theorem not_gaps (h : Charted period multiplier c) (hbar : Measured period c bar)
    (hatr : bar.atr = some atr) (hp : 0 < period) (hm : (period : ℚ) ≤ multiplier) :
    ¬ (c.supertrend.GapsDown bar atr ∨ c.supertrend.GapsUp bar atr) := by
  have hwide := width_mul_trueRange_le 1 h hbar hatr (by norm_num) hp (by linarith)
  have hlow := bar.low_le
  have hhigh := bar.le_high
  intro hgap
  cases hgap with
  | inl hdown =>
    obtain ⟨l, -, close, hclose, hlt, hle⟩ := hdown
    rw [Option.mem_def.mp hclose] at hwide
    have := (gap_le_trueRange close bar).1
    unfold basicUpper at hlt
    linarith
  | inr hup =>
    obtain ⟨u, -, close, hclose, hle, hlt⟩ := hup
    rw [Option.mem_def.mp hclose] at hwide
    have := (gap_le_trueRange close bar).2
    unfold basicLower at hlt
    linarith

/-! ## Narrow channels -/

theorem none_nonneg : ∀ a ∈ (none : Option ℚ), 0 ≤ a :=
  fun _ ha => (by cases ha)

theorem some_nonneg {a : ℚ} (h : 0 ≤ a) : ∀ b ∈ some a, 0 ≤ b :=
  fun _ hb => Option.some.inj hb ▸ h

/-- The average true range of a price that stands still. -/
theorem zero_nonneg : ∀ a ∈ some (0 : ℚ), 0 ≤ a :=
  some_nonneg le_rfl

/-- A bar that never leaves a price. -/
def flat (price : ℚ) (atr : Option ℚ) (h : ∀ a ∈ atr, 0 ≤ a) : TrailBar :=
  { high := price, low := price, close := price, atr, low_le := le_rfl, le_high := le_rfl,
    atr_nonneg := h }

/-- A bar over a range that closes at its high. -/
def surge (low high atr : ℚ) (hle : low ≤ high) (h : 0 ≤ atr) : TrailBar :=
  { high, low, close := high, atr := some atr, low_le := hle, le_high := le_rfl,
    atr_nonneg := some_nonneg h }

/-- The chart of a price that stood at zero for the whole period. -/
def level (period : ℕ) (multiplier : ℚ) : Chart where
  seen := period
  supertrend :=
    { multiplier, prevClose := some 0, prevFinalUpper := some 0, prevFinalLower := some 0,
      value := some 0, trend := 1, initialized := true }

theorem fed_warmup (period : ℕ) (multiplier : ℚ) {n : ℕ} (hn : n < period) :
    ∃ bars c, Fed period multiplier bars c ∧ c.seen = n ∧
      ∃ prevClose, c.supertrend = { multiplier, prevClose } ∧ prevClose.getD 0 = 0 := by
  induction n with
  | zero => exact ⟨[], _, .nil, rfl, none, rfl, rfl⟩
  | succ n ih =>
    obtain ⟨bars, c, hfed, hseen, prevClose, hs, hzero⟩ := ih (by omega)
    let bar := flat 0 none none_nonneg
    have hbar : Measured period c bar :=
      ⟨⟨fun hatr => (by cases hatr), fun hle => by omega⟩, fun atr hatr => by cases hatr⟩
    refine ⟨bars ++ [bar], _, .snoc hfed hbar rfl, by simp [hseen], some 0, ?_, rfl⟩
    simp [hs, handleBar, bar, flat]

theorem fed_level (hp : 0 < period) (multiplier : ℚ) :
    ∃ bars, Fed period multiplier bars (level period multiplier) := by
  obtain ⟨bars, c, hfed, hseen, prevClose, hs, hzero⟩ :=
    fed_warmup period multiplier (n := period - 1) (by omega)
  let bar := flat 0 (some 0) zero_nonneg
  have hbar : Measured period c bar := by
    refine ⟨⟨fun _ => by omega, fun _ => rfl⟩, fun atr hatr => ?_⟩
    obtain rfl := Option.some.inj hatr
    simp [trueRange, bar, flat, hs, hzero]
  refine ⟨bars ++ [bar], .snoc hfed hbar ?_⟩
  simp only [Chart.step, level, hseen, hs, Nat.sub_add_cancel hp]
  simp [handleBar, line, finalUpper, finalLower, basicUpper, basicLower, bar, flat]

theorem multiplier_mul_lt {x : ℚ} (hp : 0 < period) (hlt : multiplier < x * period) :
    multiplier * (1 / period) < x := by
  have hpos : (0 : ℚ) < period := Nat.cast_pos.mpr hp
  rw [mul_one_div]
  exact (div_lt_iff₀ hpos).mpr hlt

/-- The bands cross: a narrow channel does not reach back over a gap. -/
theorem exists_crossed (hp : 0 < period) (hm : 0 < multiplier) (hlt : multiplier < period) :
    ¬ EveryBar period multiplier fun _ t => t.BandsOrdered := by
  have hratio : multiplier * (1 / (period : ℚ)) < 1 := multiplier_mul_lt hp (by linarith)
  obtain ⟨bars, hfed⟩ := fed_level hp multiplier
  let bar := surge (-1) (-1) (1 / period) le_rfl (by positivity)
  have hbar : Measured period (level period multiplier) bar := by
    refine ⟨⟨fun _ => Nat.le_succ _, fun _ => rfl⟩, fun atr hatr => ?_⟩
    obtain rfl := Option.some.inj hatr
    norm_num [trueRange, bar, surge, level]
  intro hevery
  have hcharted := hfed.charted hm
  refine (bandsOrdered_iff hcharted.sound hcharted.settled rfl).mp (hevery bars _ bar hfed hbar rfl)
    (.inl ⟨0, rfl, 0, rfl, ?_, le_rfl⟩)
  simp only [basicUpper, bar, surge, level]
  linarith

/-- Half a period's multiplier under which a bar from zero down to one
below it can close in the gap. -/
theorem exists_closesInGap (hp : 0 < period) (hm : 0 < multiplier) (hlt : 2 * multiplier < period) :
    ∃ bars bar, Fed period multiplier bars (level period multiplier) ∧
      Measured period (level period multiplier) bar ∧ bar.atr = some (1 / (period : ℚ)) ∧
      (level period multiplier).supertrend.ClosesInGap bar (1 / period) := by
  have hratio : multiplier * (1 / (period : ℚ)) < 1 / 2 := multiplier_mul_lt hp (by linarith)
  have hnonneg : 0 ≤ multiplier * (1 / (period : ℚ)) := by positivity
  obtain ⟨bars, hfed⟩ := fed_level hp multiplier
  let bar :=
    surge (-1) (multiplier * (1 / period) - 1 / 2) (1 / period) (by linarith) (by positivity)
  have hbar : Measured period (level period multiplier) bar := by
    refine ⟨⟨fun _ => Nat.le_succ _, fun _ => rfl⟩, fun atr hatr => ?_⟩
    obtain rfl := Option.some.inj hatr
    have hmax : max (multiplier * (1 / (period : ℚ)) - 1 / 2) 0 = 0 := max_eq_right (by linarith)
    simp only [trueRange, bar, surge, level, Option.getD_some, hmax]
    norm_num
  refine ⟨bars, bar, hfed, hbar, rfl, .inl ⟨⟨0, rfl, 0, rfl, ?_, le_rfl⟩, ?_, 0, rfl, ?_⟩⟩
  all_goals
    simp only [basicUpper, bar, surge, level]
    linarith

/-- A line on the wrong side gives way as soon as the price stands still. -/
theorem Drawn.givesWay (d : s.Drawn upper lower close) (hside : ¬ s.OnItsSide) :
    s.GivesWay (flat close (some 0) zero_nonneg) 0 := by
  rw [d.onItsSide_iff] at hside
  simp only [GivesWay, d.upper_eq, d.lower_eq, d.close_eq, Option.mem_def, Option.some.injEq,
    exists_eq_left', basicUpper, basicLower, flat]
  have hprice : (close + close) / 2 = close := by ring
  simp only [mul_zero, sub_zero, add_zero, hprice, le_refl, and_self, true_and]
  grind

theorem measured_flat (d : c.supertrend.Drawn upper lower close) (hseen : period ≤ c.seen + 1) :
    Measured period c (flat close (some 0) zero_nonneg) := by
  refine ⟨⟨fun _ => hseen, fun _ => rfl⟩, fun atr hatr => ?_⟩
  obtain rfl := Option.some.inj hatr
  simp [trueRange, flat, d.close_eq]

/-- The line is left on the wrong side, and gives way on the next bar. -/
theorem exists_wrongSide (hp : 0 < period) (hm : 0 < multiplier) (hlt : 2 * multiplier < period) :
    (¬ EveryBar period multiplier fun _ t => t.OnItsSide) ∧
      ¬ EveryBar period multiplier Follows := by
  obtain ⟨bars, bar, hfed, hbar, hatr, hgap⟩ := exists_closesInGap hp hm hlt
  have hcharted := hfed.charted hm
  have hside := mt (onItsSide_iff hcharted.sound hcharted.settled hatr).mp (not_not.mpr hgap)
  refine ⟨fun hevery => hside (hevery bars _ bar hfed hbar (by simp [hatr])), fun hevery => ?_⟩
  have hfed' := RunWhere.snoc hfed hbar rfl
  have hcharted' := Fed.charted hm hfed'
  have d := handleBar_drawn hcharted.sound hatr
  have hnext : Measured period ⟨period + 1, _⟩ _ := measured_flat d (Nat.le_add_right period 2)
  exact (follows_iff hcharted'.sound hcharted'.settled rfl).mp
    (hevery _ _ _ hfed' hnext rfl) (d.givesWay hside)

/-- A run whose next bar breaks `P`, by evaluation. -/
theorem not_everyBar {P : Supertrend → Supertrend → Prop} [∀ s t, Decidable (P s t)]
    (bars : List TrailBar) (bar : TrailBar)
    (hchecked : Checked Chart.step (Measured period) { supertrend := { multiplier } } bars)
    (hbreaks : (exec Chart.step { supertrend := { multiplier } } bars).any (fun c =>
      decide (Measured period c bar ∧ bar.atr.isSome ∧
        ¬ P c.supertrend (c.supertrend.handleBar bar))) = true) :
    ¬ EveryBar period multiplier P := by
  obtain ⟨c, hfed, hc⟩ := RunWhere.exists_of_checked _ _ _ bars _ hchecked hbreaks
  obtain ⟨hbar, hatr, hnot⟩ := of_decide_eq_true hc
  exact fun hevery => hnot (hevery bars c bar hfed hbar hatr)

/-! ## Every run -/

/-- **The line over whole runs.** The three things asked of the line fail
on the bars named, and on no bar of any run exactly when the multiplier is
large enough for the period. -/
theorem line_of_run (period : ℕ) (multiplier : ℚ) (hp : 0 < period) (hm : 0 < multiplier) :
    (∀ bars c bar atr, Fed period multiplier bars c → bar.atr = some atr →
      ((c.supertrend.handleBar bar).OnItsSide ↔ ¬ c.supertrend.ClosesInGap bar atr) ∧
      ((c.supertrend.handleBar bar).BandsOrdered ↔
        ¬ (c.supertrend.GapsDown bar atr ∨ c.supertrend.GapsUp bar atr)) ∧
      (c.supertrend.Follows (c.supertrend.handleBar bar) ↔ ¬ c.supertrend.GivesWay bar atr) ∧
      (c.supertrend.OnItsSide → c.supertrend.Follows (c.supertrend.handleBar bar))) ∧
    ((EveryBar period multiplier fun _ t => t.OnItsSide) ↔ (period : ℚ) ≤ 2 * multiplier) ∧
    (EveryBar period multiplier Follows ↔ (period : ℚ) ≤ 2 * multiplier) ∧
    ((EveryBar period multiplier fun _ t => t.BandsOrdered) ↔ (period : ℚ) ≤ multiplier) := by
  refine ⟨?_, ⟨?_, ?_⟩, ⟨?_, ?_⟩, ?_, ?_⟩
  · intro bars c bar atr hfed hatr
    obtain ⟨hsound, hsettled, -, -⟩ := hfed.charted hm
    have hfollows := follows_iff hsound hsettled hatr
    exact ⟨onItsSide_iff hsound hsettled hatr, bandsOrdered_iff hsound hsettled hatr, hfollows,
      fun hside => hfollows.mpr (not_givesWay hsound hsettled hside)⟩
  · intro hevery
    by_contra hlt
    exact (exists_wrongSide hp hm (not_le.mp hlt)).1 hevery
  · intro hwide bars c bar hfed hbar hatr
    exact hfed.onItsSide_step hp hm hwide hbar hatr
  · intro hevery
    by_contra hlt
    exact (exists_wrongSide hp hm (not_le.mp hlt)).2 hevery
  · intro hwide bars c bar hfed hbar hatr
    obtain ⟨atr, hatr⟩ := Option.isSome_iff_exists.mp hatr
    obtain ⟨hsound, hsettled, -, -⟩ := hfed.charted hm
    exact (follows_iff hsound hsettled hatr).mpr
      (not_givesWay hsound hsettled (hfed.onItsSide hp hm hwide))
  · intro hevery
    by_contra hlt
    exact exists_crossed hp hm (not_le.mp hlt) hevery
  · intro hwide bars c bar hfed hbar hatr
    obtain ⟨atr, hatr⟩ := Option.isSome_iff_exists.mp hatr
    have h := hfed.charted hm
    exact (bandsOrdered_iff h.sound h.settled hatr).mpr (not_gaps h hbar hatr hp hwide)

theorem line_of_run_default :
    ((EveryBar 10 3 fun _ t => t.OnItsSide) ↔ ((10 : ℕ) : ℚ) ≤ 2 * 3) ∧
      (EveryBar 10 3 Follows ↔ ((10 : ℕ) : ℚ) ≤ 2 * 3) ∧
      ((EveryBar 10 3 fun _ t => t.BandsOrdered) ↔ ((10 : ℕ) : ℚ) ≤ 3) :=
  (line_of_run 10 3 (by decide) (by norm_num)).2

/-- The price stands at 100 for ten bars. -/
def standing : List TrailBar :=
  List.replicate 9 (flat 100 none none_nonneg) ++ [flat 100 (some 0) zero_nonneg]

/-- It falls to 0 and closes at 90; the average true range is a mean over
ten bars. -/
def fall : TrailBar :=
  surge 0 90 10 (Nat.ofNat_nonneg 90) (Nat.ofNat_nonneg 10)

/-- With ten periods and a multiplier of three the bands cross at 75 and
100, the close of 90 is above the line of the downtrend at 75, and a bar
that stays at 90 moves that line up to 120. -/
theorem not_line_kept :
    ¬ (EveryBar 10 3 fun _ t => t.OnItsSide) ∧ ¬ (EveryBar 10 3 fun _ t => t.BandsOrdered) ∧
      ¬ EveryBar 10 3 Follows := by
  refine ⟨?_, ?_, ?_⟩
  · exact not_everyBar standing fall (by decide +kernel) (by decide +kernel)
  · exact not_everyBar standing fall (by decide +kernel) (by decide +kernel)
  · exact not_everyBar (standing ++ [fall])
      (flat 90 (some 10) (some_nonneg (Nat.ofNat_nonneg 10))) (by decide +kernel)
      (by decide +kernel)

end TdSandboxed.Supertrend
