/-
TdSandboxed.Indicators.IndicatorHistory — the four indicators as functions
of all their bars.

For each indicator there are its batch values over a whole sequence, which
know nothing of seeds and buffers, and `after`, the state that a sequence
leaves, with every field given in these terms. `handleBar_after` is one
bar: from the state after a sequence to the state after one bar more,
without an exception. The phases of an indicator are the cases of these
proofs, and nowhere else.
-/
import Mathlib
import TdSandboxed.Indicators.RegimeIndicators

namespace TdSandboxed

open Lib

universe u

variable {F : Type*} [Field F] [LinearOrder F] [IsStrictOrderedRing F]

/-- `0 < low <= close <= high`. -/
structure PriceBar.Priced (b : PriceBar F) : Prop where
  low_pos : 0 < b.low
  low_le : b.low ≤ b.close
  le_high : b.close ≤ b.high

omit [IsStrictOrderedRing F] in
theorem divide_of_ne {a b : F} (h : b ≠ 0) : divide a b = .ok (a / b) := if_neg h

theorem divide_natCast (a : F) {n : ℕ} (h : 0 < n) : divide a (n : F) = .ok (a / n) :=
  divide_of_ne (Nat.cast_ne_zero.mpr (by omega))

omit [IsStrictOrderedRing F] in
@[simp] theorem ok_bind {α β : Type u} (a : α) (f : α → Except IndicatorError β) :
    (Except.ok a >>= f) = f a := rfl

-- The numerals of the batch definitions carry these proofs by name.
theorem atLeastTwo_two : Nat.AtLeastTwo 2 := inferInstance

theorem atLeastTwo_hundred : Nat.AtLeastTwo 100 := inferInstance

attribute [local instance] atLeastTwo_two atLeastTwo_hundred

/-! ## Average directional index -/

namespace ADX

/-- How far a bar goes beyond the one before, at the top and at the bottom:
only the wider of the two movements counts, and the range begins or ends at
the close before where that lies outside the bar. -/
def movement (prev bar : PriceBar F) : Directional F :=
  let up := max (bar.high - prev.high) 0
  let down := max (prev.low - bar.low) 0
  { pdm := if down < up then up else 0
    mdm := if up < down then down else 0
    tr := max bar.high prev.close - min bar.low prev.close }

/-- The indicator reads the movement of a bar. -/
theorem directional_eq (prev : PriceBar F) {bar : PriceBar F} (hbar : bar.Priced) :
    directional prev bar = movement prev bar := by
  have hspan := hbar.low_le.trans hbar.le_high
  have hpdm : (directional prev bar).pdm = (movement prev bar).pdm := by
    simp only [directional, movement]
    grind
  have hmdm : (directional prev bar).mdm = (movement prev bar).mdm := by
    simp only [directional, movement]
    grind
  have htr : (directional prev bar).tr = (movement prev bar).tr := by
    have hup := le_abs_self (bar.high - prev.close)
    have hdown := neg_abs_le (bar.low - prev.close)
    simp only [directional, movement]
    grind
  exact Directional.ext hpdm hmdm htr

/-- The directional index of smoothed values; without a range it is zero. -/
def indexOf (m : Directional F) : DirectionalIndex F :=
  let plusDi := 100 * m.pdm / m.tr
  let minusDi := 100 * m.mdm / m.tr
  { plusDi, minusDi, dx := 100 * |plusDi - minusDi| / (plusDi + minusDi) }

/-- Wilder's sum: the first `period` values added up, every later one added
to what is left after a share of one in `period` has gone. -/
def wilderSum (period : ℕ) (xs : List F) : F :=
  Lib.smoothed (1 - 1 / (period : F)) 1 1 period xs

/-- Wilder's mean: the mean of the first `period` values, then each value
with a share of one in `period`. -/
def wilderMean (period : ℕ) (xs : List F) : F :=
  Lib.smoothed (1 - 1 / (period : F)) (1 / period) (1 / period) period xs

/-- The smoothed movements and range of a sequence of raw ones. -/
def wilder (period : ℕ) (raws : List (Directional F)) : Directional F where
  pdm := wilderSum period (raws.map (·.pdm))
  mdm := wilderSum period (raws.map (·.mdm))
  tr := wilderSum period (raws.map (·.tr))

/-- The directional indices of a sequence of bars, from the first full seed
on. -/
def indices (period : ℕ) (bars : List (PriceBar F)) : List (DirectionalIndex F) :=
  onPrefixes (fun raws => indexOf (wilder period raws)) period (changes movement bars)

/-- The index of the last bar. -/
def index (period : ℕ) (bars : List (PriceBar F)) : DirectionalIndex F :=
  indexOf (wilder period (changes movement bars))

/-- The ADX of a sequence of bars. -/
def batch (period : ℕ) (bars : List (PriceBar F)) : F :=
  wilderMean period ((indices period bars).map (·.dx))

/-! ### What smoothing keeps -/

/-- Movement and range as any bar after another has them. -/
structure Bounded (m : Directional F) : Prop where
  pdm_nonneg : 0 ≤ m.pdm
  mdm_nonneg : 0 ≤ m.mdm
  add_le : m.pdm + m.mdm ≤ m.tr

/-- A movement beyond the bar before is a part of the true range, since the
close lies within its bar; there is at most one. -/
theorem bounded_movement {prev : PriceBar F} (hprev : prev.Priced) (bar : PriceBar F) :
    Bounded (movement prev bar) := by
  have hlow := hprev.low_le
  have hhigh := hprev.le_high
  have hclose : min bar.low prev.close ≤ prev.close ∧ prev.close ≤ max bar.high prev.close :=
    ⟨min_le_right _ _, le_max_right _ _⟩
  have hup : max (bar.high - prev.high) 0 ≤ (movement prev bar).tr := by
    have := le_max_left bar.high prev.close
    simp only [movement]
    exact max_le (by linarith) (by linarith)
  have hdown : max (prev.low - bar.low) 0 ≤ (movement prev bar).tr := by
    have := min_le_left bar.low prev.close
    simp only [movement]
    exact max_le (by linarith) (by linarith)
  have hpos := le_max_right (bar.high - prev.high) 0
  have hpos' := le_max_right (prev.low - bar.low) 0
  refine ⟨?_, ?_, ?_⟩
  · simp only [movement]
    split
    · exact hpos
    · exact le_rfl
  · simp only [movement]
    split
    · exact hpos'
    · exact le_rfl
  · have hsum : (movement prev bar).pdm + (movement prev bar).mdm ≤
        max (max (bar.high - prev.high) 0) (max (prev.low - bar.low) 0) := by
      simp only [movement]
      split <;> split <;> grind
    exact hsum.trans (max_le hup hdown)

theorem mem_changes_bounded {bars : List (PriceBar F)}
    (h : ∀ bar ∈ bars, bar.Priced) : ∀ raw ∈ changes movement bars, Bounded raw :=
  forall_mem_changes fun _ hx y _ => bounded_movement (h _ hx) y

theorem fade_nonneg {period : ℕ} (hp : 0 < period) : (0 : F) ≤ 1 - 1 / (period : F) := by
  have hone : (1 : F) ≤ period := by exact_mod_cast hp
  have := (div_le_one (by linarith : (0 : F) < period)).mpr hone
  linarith

/-- Smoothing keeps the bounds of the raw values. -/
theorem bounded_wilder {period : ℕ} (hp : 0 < period) {raws : List (Directional F)}
    (hlen : period ≤ raws.length) (h : ∀ raw ∈ raws, Bounded raw) :
    Bounded (wilder period raws) := by
  have hq : (0 : F) ≤ 1 - 1 / (period : F) := fade_nonneg hp
  refine ⟨?_, ?_,
    smoothed_map_add_le hq zero_le_one zero_le_one hlen fun raw hr => (h raw hr).add_le⟩
  · refine smoothed_nonneg hq zero_le_one zero_le_one (by simpa using hlen) fun x hx => ?_
    obtain ⟨raw, hr, rfl⟩ := List.mem_map.mp hx
    exact (h raw hr).pdm_nonneg
  · refine smoothed_nonneg hq zero_le_one zero_le_one (by simpa using hlen) fun x hx => ?_
    obtain ⟨raw, hr, rfl⟩ := List.mem_map.mp hx
    exact (h raw hr).mdm_nonneg

/-- The directional index is a percentage, and the two indicators share one
hundred. -/
structure Percent (di : DirectionalIndex F) : Prop where
  plusDi_nonneg : 0 ≤ di.plusDi
  minusDi_nonneg : 0 ≤ di.minusDi
  add_le : di.plusDi + di.minusDi ≤ 100
  dx_nonneg : 0 ≤ di.dx
  dx_le : di.dx ≤ 100

theorem Percent.plusDi_le {di : DirectionalIndex F} (h : Percent di) : di.plusDi ≤ 100 := by
  have := h.minusDi_nonneg
  have := h.add_le
  linarith

theorem Percent.minusDi_le {di : DirectionalIndex F} (h : Percent di) : di.minusDi ≤ 100 := by
  have := h.plusDi_nonneg
  have := h.add_le
  linarith

theorem percent_indexOf {m : Directional F} (h : Bounded m) : Percent (indexOf m) := by
  have hp := h.pdm_nonneg
  have hm := h.mdm_nonneg
  have htr : 0 ≤ m.tr := (add_nonneg hp hm).trans h.add_le
  have hplus : 0 ≤ (indexOf m).plusDi := by simp only [indexOf]; positivity
  have hminus : 0 ≤ (indexOf m).minusDi := by simp only [indexOf]; positivity
  have hsum : 0 ≤ (indexOf m).plusDi + (indexOf m).minusDi := add_nonneg hplus hminus
  have hdx : (indexOf m).dx = 100 * |(indexOf m).plusDi - (indexOf m).minusDi| /
      ((indexOf m).plusDi + (indexOf m).minusDi) := rfl
  refine ⟨hplus, hminus, ?_, by rw [hdx]; positivity, ?_⟩
  · have heq : (indexOf m).plusDi + (indexOf m).minusDi = 100 * ((m.pdm + m.mdm) / m.tr) := by
      simp only [indexOf]
      ring
    have hle := div_le_one_of_le₀ h.add_le htr
    rw [heq]
    linarith
  · rw [hdx]
    refine div_le_of_le_mul₀ hsum (by norm_num) ?_
    have habs : |(indexOf m).plusDi - (indexOf m).minusDi| ≤
        (indexOf m).plusDi + (indexOf m).minusDi := by
      rw [abs_le]
      constructor <;> linarith
    linarith

/-- The ADX is a percentage, as a mean of percentages. -/
theorem batch_percent {period : ℕ} (hp : 0 < period) {bars : List (PriceBar F)}
    (hlen : 2 * period ≤ bars.length) (hpriced : ∀ bar ∈ bars, bar.Priced) :
    0 ≤ batch period bars ∧ batch period bars ≤ 100 := by
  have hpos : (0 : F) < period := Nat.cast_pos.mpr hp
  have hq : (0 : F) ≤ 1 - 1 / (period : F) := fade_nonneg hp
  have hshare : (0 : F) ≤ 1 / (period : F) := by positivity
  have hcount : period ≤ ((indices period bars).map (·.dx)).length := by
    simp only [indices, List.length_map, length_onPrefixes, length_changes]
    omega
  have hindices : ∀ di ∈ indices period bars, Percent di := by
    intro di hdi
    obtain ⟨raws, hys, hlength, rfl⟩ := mem_onPrefixes hdi
    exact percent_indexOf (bounded_wilder hp hlength
      fun raw hr => mem_changes_bounded hpriced raw (hys.subset hr))
  refine ⟨smoothed_nonneg hq hshare hshare hcount ?_,
    smoothed_le hq hshare hshare (one_div_mul_cancel hpos.ne') (sub_add_cancel _ _) hcount ?_⟩
  · intro x hx
    obtain ⟨di, hdi, rfl⟩ := List.mem_map.mp hx
    exact (hindices di hdi).dx_nonneg
  · intro x hx
    obtain ⟨di, hdi, rfl⟩ := List.mem_map.mp hx
    exact (hindices di hdi).dx_le

/-! ### One bar -/

theorem directionalIndex_eq {m : Directional F} (h : Bounded m) :
    directionalIndex m = .ok (indexOf m) := by
  have hpercent := percent_indexOf h
  unfold directionalIndex
  split
  · rename_i htr
    simp [indexOf, htr]
  · rename_i htr
    simp only [divide_of_ne htr, ok_bind]
    split
    · rename_i hpos
      rw [divide_of_ne hpos.ne']
      rfl
    · rename_i hpos
      -- the sum is zero, and so is the quotient by it
      have hsum : (indexOf m).plusDi + (indexOf m).minusDi = 0 :=
        le_antisymm (not_lt.mp hpos) (add_nonneg hpercent.plusDi_nonneg hpercent.minusDi_nonneg)
      have hdx : (indexOf m).dx = 0 := by
        rw [show (indexOf m).dx = 100 * |(indexOf m).plusDi - (indexOf m).minusDi| /
          ((indexOf m).plusDi + (indexOf m).minusDi) from rfl, hsum, div_zero]
      rw [← hdx]
      rfl

theorem fold_eq (s : ADX F) (m raw : F) :
    s.fold m raw = .ok ((1 - 1 / (s.period : F)) * m + 1 * raw) := by
  rw [fold, divide_natCast m s.period_pos, ok_bind]
  refine congrArg Except.ok ?_
  ring

omit [LinearOrder F] [IsStrictOrderedRing F] in
theorem wilder_seed {period : ℕ} {raws : List (Directional F)} (h : raws.length = period) :
    wilder period raws =
      { pdm := (raws.map (·.pdm)).sum
        mdm := (raws.map (·.mdm)).sum
        tr := (raws.map (·.tr)).sum } := by
  simp [wilder, wilderSum, smoothed_seed, h]

omit [LinearOrder F] [IsStrictOrderedRing F] in
theorem wilder_concat {period : ℕ} {raws : List (Directional F)} (h : period ≤ raws.length)
    (raw : Directional F) :
    wilder period (raws ++ [raw]) =
      { pdm := (1 - 1 / (period : F)) * (wilder period raws).pdm + 1 * raw.pdm
        mdm := (1 - 1 / (period : F)) * (wilder period raws).mdm + 1 * raw.mdm
        tr := (1 - 1 / (period : F)) * (wilder period raws).tr + 1 * raw.tr } := by
  simp [wilder, wilderSum, smoothed_concat, h]

/-- The state that a sequence of bars leaves. -/
def after (period : ℕ) (hp : 0 < period) (bars : List (PriceBar F)) : ADX F where
  period := period
  period_pos := hp
  prev := bars.getLast?
  pdmSeed := ((changes movement bars).map (·.pdm)).take period
  mdmSeed := ((changes movement bars).map (·.mdm)).take period
  trSeed := ((changes movement bars).map (·.tr)).take period
  smoothed :=
    if bars.length ≤ period then none else some (wilder period (changes movement bars))
  dxSeed := ((indices period bars).map (·.dx)).take period
  adx := if bars.length < 2 * period then none else some (batch period bars)
  plusDi := if bars.length ≤ period then none else some (index period bars).plusDi
  minusDi := if bars.length ≤ period then none else some (index period bars).minusDi
  initialized := decide (2 * period ≤ bars.length)

section Step

variable {period : ℕ} {bars : List (PriceBar F)} {prev bar : PriceBar F}

omit [IsStrictOrderedRing F] in
theorem indices_concat (hlast : bars.getLast? = some prev) (h : period ≤ bars.length) :
    indices period (bars ++ [bar]) = indices period bars ++ [index period (bars ++ [bar])] := by
  have hpos : 0 < bars.length := List.length_pos_of_ne_nil (by rintro rfl; simp at hlast)
  unfold indices index
  rw [changes_concat movement hlast, onPrefixes_concat]
  rw [length_changes]
  omega

omit [IsStrictOrderedRing F] in
theorem length_indices (hlast : bars.getLast? = some prev) :
    (indices period bars).length = bars.length - period := by
  have hpos : 0 < bars.length := List.length_pos_of_ne_nil (by rintro rfl; simp at hlast)
  simp only [indices, length_onPrefixes, length_changes]
  omega

/-- What `_update_di_and_dx` makes of a state whose smoothed values are
those of the sequence with the bar. -/
theorem updateDiAndDx_eq {s : ADX F} (hs : s.period = period) (hlast : bars.getLast? = some prev)
    (hlen : period ≤ bars.length) (hpriced : ∀ b ∈ bars ++ [bar], b.Priced)
    (hseed : s.dxSeed = ((indices period bars).map (·.dx)).take period)
    (hadx : s.adx = if bars.length < 2 * period then none else some (batch period bars))
    (hinit : s.initialized = decide (2 * period ≤ bars.length)) :
    s.updateDiAndDx (wilder period (changes movement (bars ++ [bar]))) = .ok
      { s with
        smoothed := some (wilder period (changes movement (bars ++ [bar])))
        plusDi := some (index period (bars ++ [bar])).plusDi
        minusDi := some (index period (bars ++ [bar])).minusDi
        dxSeed := ((indices period (bars ++ [bar])).map (·.dx)).take period
        adx := if bars.length + 1 < 2 * period then none else some (batch period (bars ++ [bar]))
        initialized := decide (2 * period ≤ bars.length + 1) } := by
  have hp := s.period_pos
  have hpos : 0 < bars.length := List.length_pos_of_ne_nil (by rintro rfl; simp at hlast)
  have hraws : period ≤ (changes movement (bars ++ [bar])).length := by simpa using hlen
  have hindices := @indices_concat F _ _ period bars prev bar hlast hlen
  have hcount := @length_indices F _ _ period bars prev hlast
  have hbounded := bounded_wilder (hs ▸ hp) hraws (mem_changes_bounded hpriced)
  rw [updateDiAndDx, directionalIndex_eq hbounded, ok_bind]
  have hmap : (indices period (bars ++ [bar])).map (·.dx) =
      (indices period bars).map (·.dx) ++ [(index period (bars ++ [bar])).dx] := by
    rw [hindices, List.map_append]
    rfl
  have hlength : ((indices period bars).map (·.dx)).length = bars.length - period := by
    rw [List.length_map, hcount]
  have hbatch : batch period (bars ++ [bar]) =
      wilderMean period
        ((indices period bars).map (·.dx) ++ [(index period (bars ++ [bar])).dx]) :=
    congrArg (wilderMean period) hmap
  have hprev : batch period bars = wilderMean period ((indices period bars).map (·.dx)) := rfl
  have hnew : indexOf (wilder period (changes movement (bars ++ [bar]))) =
      index period (bars ++ [bar]) := rfl
  simp only [hnew, hseed, hadx, hs, hinit, hmap, hbatch, hprev]
  generalize (indices period bars).map (·.dx) = xs at hlength ⊢
  generalize hdx : (index period (bars ++ [bar])).dx = dx
  have hone : (xs ++ [dx]).length = xs.length + 1 := by simp
  by_cases hfull : bars.length < 2 * period
  · have htake : xs.take period = xs := List.take_of_length_le (by omega)
    have htake' : (xs ++ [dx]).take period = xs ++ [dx] := List.take_of_length_le (by omega)
    have hbefore : decide (2 * period ≤ bars.length) = false := by simpa using hfull
    simp only [if_pos hfull, htake, htake', hbefore]
    by_cases hseeded : bars.length + 1 < 2 * period
    · have hafter : decide (2 * period ≤ bars.length + 1) = false := by simpa using hseeded
      rw [if_neg (by omega), if_pos hseeded, hafter]
      rfl
    · -- the seed is full: its mean is the first value
      have hafter : decide (2 * period ≤ bars.length + 1) = true := by simpa using hseeded
      have hmean : wilderMean period (xs ++ [dx]) = (xs ++ [dx]).sum / period := by
        rw [wilderMean, smoothed_seed _ _ _ (by omega)]
        ring
      rw [if_pos (by omega), if_neg hseeded, hafter, hmean, divide_natCast _ (hs ▸ hp)]
      rfl
  · have htake : (xs ++ [dx]).take period = xs.take period :=
      List.take_append_of_le_length (by omega)
    have hbefore : decide (2 * period ≤ bars.length) = true := by simpa using hfull
    have hafter : decide (2 * period ≤ bars.length + 1) = true := by simp; omega
    have hmean : wilderMean period (xs ++ [dx]) =
        (wilderMean period xs * ((period : F) - 1) + dx) / period := by
      have hne : (period : F) ≠ 0 := Nat.cast_ne_zero.mpr (by omega)
      rw [wilderMean, smoothed_concat _ _ _ (by omega), wilderMean]
      field_simp
    simp only [if_neg hfull, if_neg (show ¬ bars.length + 1 < 2 * period by omega), htake, hbefore,
      hafter, hmean, divide_natCast _ (hs ▸ hp : 0 < period)]
    rfl

/-- The first phase: one more raw value, and the first smoothed ones when
the seed is full. -/
theorem seed_after {hp : 0 < period} (hlast : bars.getLast? = some prev)
    (hlen : bars.length ≤ period) (hpriced : ∀ b ∈ bars ++ [bar], b.Priced) :
    (after period hp bars).seed (movement prev bar) =
      .ok { after period hp (bars ++ [bar]) with prev := bars.getLast? } := by
  have hpos : 0 < bars.length := List.length_pos_of_ne_nil (by rintro rfl; simp at hlast)
  have hraws := changes_concat movement hlast bar
  have htake : ∀ f : Directional F → F,
      ((changes movement bars).map f).take period ++ [f (movement prev bar)] =
        ((changes movement (bars ++ [bar])).map f).take period := by
    intro f
    rw [List.take_of_length_le (by simp; omega), hraws, List.map_append,
      List.take_of_length_le (by simp; omega)]
    rfl
  have hcount : (((changes movement (bars ++ [bar])).map (·.tr)).take period).length =
      bars.length := by
    simpa using hlen
  have hone : (bars ++ [bar]).length = bars.length + 1 := by simp
  unfold seed
  simp only [after, htake, hcount, hone]
  by_cases hfull : bars.length = period
  · -- the seeds are full, and their sums are the first smoothed values
    have hwhole : ∀ f : Directional F → F,
        ((changes movement (bars ++ [bar])).map f).take period =
          (changes movement (bars ++ [bar])).map f :=
      fun f => List.take_of_length_le (by simp; omega)
    have hsums := @wilder_seed F _ period (changes movement (bars ++ [bar]))
      (by simpa using hfull)
    rw [if_pos hfull]
    simp only [hwhole, ← hsums]
    rw [updateDiAndDx_eq rfl hlast hfull.ge hpriced rfl rfl rfl]
    simp only [if_neg (show ¬ bars.length + 1 ≤ period by omega)]
  · have hindices : indices period (bars ++ [bar]) = [] :=
      onPrefixes_of_lt _ (by simp; omega)
    have hindices' : indices period bars = [] := onPrefixes_of_lt _ (by simp; omega)
    have hbefore : decide (2 * period ≤ bars.length) = false := by simp; omega
    have hafter : decide (2 * period ≤ bars.length + 1) = false := by simp; omega
    rw [if_neg hfull]
    simp only [hindices, hindices', hbefore, hafter, if_pos hlen,
      if_pos (show bars.length + 1 ≤ period by omega),
      if_pos (show bars.length < 2 * period by omega),
      if_pos (show bars.length + 1 < 2 * period by omega)]

/-- The second phase: the smoothed values with one more raw value. -/
theorem smooth_after {hp : 0 < period} (hlast : bars.getLast? = some prev)
    (hlen : period < bars.length) (hpriced : ∀ b ∈ bars ++ [bar], b.Priced) :
    (after period hp bars).smooth (wilder period (changes movement bars))
        (movement prev bar) =
      .ok { after period hp (bars ++ [bar]) with prev := bars.getLast? } := by
  have hraws := changes_concat movement hlast bar
  have hone : (bars ++ [bar]).length = bars.length + 1 := by simp
  have hcount : period ≤ (changes movement bars).length := by simp; omega
  simp only [smooth, fold_eq, ok_bind]
  have hperiod : (after period hp bars).period = period := rfl
  rw [hperiod, ← wilder_concat hcount (movement prev bar), ← hraws,
    updateDiAndDx_eq hperiod hlast hlen.le hpriced rfl rfl rfl]
  have htake : ∀ f : Directional F → F,
      ((changes movement (bars ++ [bar])).map f).take period =
        ((changes movement bars).map f).take period := by
    intro f
    rw [hraws, List.map_append, List.take_append_of_le_length (by simpa using hcount)]
  simp only [after, hone, htake, if_neg (show ¬ bars.length + 1 ≤ period by omega)]

/-- **One bar of the ADX.** -/
theorem handleBar_after {hp : 0 < period} (hpriced : ∀ b ∈ bars, b.Priced) (hbar : bar.Priced) :
    (after period hp bars).handleBar bar = .ok (after period hp (bars ++ [bar])) := by
  have hall : ∀ b ∈ bars ++ [bar], b.Priced := by
    intro b hb
    cases List.mem_append.mp hb with
    | inl hold => exact hpriced b hold
    | inr hnew => rwa [List.mem_singleton.mp hnew]
  cases hlast : bars.getLast? with
  | none =>
    obtain rfl := List.getLast?_eq_none_iff.mp hlast
    have hone : ¬ 2 * period ≤ 1 := by omega
    have hne : period ≠ 0 := by omega
    simp [handleBar, after, changes, indices, onPrefixes_of_lt, hp, hone, hne]
  | some prev =>
    rw [handleBar, show (after period hp bars).prev = some prev from hlast]
    simp only [directional_eq prev hbar]
    by_cases hlen : bars.length ≤ period
    · rw [show (after period hp bars).smoothed = none from if_pos hlen]
      simp only [seed_after hlast hlen hall, ok_bind]
      simp [after, pure, Except.pure]
    · rw [show (after period hp bars).smoothed =
        some (wilder period (changes movement bars)) from if_neg hlen]
      simp only [smooth_after hlast (not_le.mp hlen) hall, ok_bind]
      simp [after, pure, Except.pure]

end Step

end ADX

/-! ## Windows of a fixed size -/

def mean (window : List F) : F := window.sum / window.length

/-- The population variance. -/
def variance (window : List F) : F := mean (window.map fun x => (x - mean window) ^ 2)

theorem meanAndVariance_eq {window : List F} {size : ℕ} (hsize : 0 < size)
    (h : window.length = size) :
    meanAndVariance window size = .ok (mean window, variance window) := by
  simp only [meanAndVariance, divide_natCast _ hsize, ok_bind, variance, mean, List.length_map, h]
  rfl

theorem mean_pos {window : List F} (hne : window ≠ []) (h : ∀ x ∈ window, 0 < x) :
    0 < mean window :=
  div_pos (List.sum_pos window h hne) (Nat.cast_pos.mpr (List.length_pos_of_ne_nil hne))

/-! ## Bollinger band width -/

namespace BollingerBandWidth

/-- The share of the values below the given one, with half of the equal
ones. -/
def percentRank (baseline : List F) (value : F) : F :=
  ((baseline.countP (· < value) : F) + 1 / 2 * baseline.countP (· = value)) / baseline.length

omit [Field F] [IsStrictOrderedRing F] in
theorem countRank_eq (baseline : List F) (value : F) :
    countRank baseline value = (baseline.countP (· < value), baseline.countP (· = value)) := by
  induction baseline using List.reverseRecOn with
  | nil => rfl
  | append_singleton baseline v ih =>
    unfold countRank at ih ⊢
    rw [List.foldl_append, ih]
    simp only [List.foldl_cons, List.foldl_nil, List.countP_append, List.countP_singleton]
    split
    · rename_i hlt
      simp [hlt, hlt.ne]
    · rename_i hge
      split
      · rename_i heq
        simp [heq]
      · rename_i hne
        simp [hge, hne]

/-- The rank of a value of the baseline is a proper share: the value itself
counts for a half. -/
theorem percentRank_unit {baseline : List F} {value : F} (h : value ∈ baseline) :
    0 < percentRank baseline value ∧ percentRank baseline value ≤ 1 := by
  have hequal : 0 < baseline.countP (· = value) :=
    List.countP_pos_iff.mpr ⟨value, h, by simp⟩
  have htotal : baseline.countP (· < value) + baseline.countP (· = value) ≤ baseline.length := by
    have hsplit := List.length_eq_countP_add_countP (fun v => decide (v < value)) (l := baseline)
    have hle : baseline.countP (· = value) ≤
        baseline.countP (fun v => decide (¬ decide (v < value) = true)) :=
      List.countP_mono_left fun v _ hv => by
        simp only [decide_eq_true_eq] at hv
        simp [hv]
    omega
  have hlength : (0 : F) < baseline.length := Nat.cast_pos.mpr (List.length_pos_of_mem h)
  have hequal' : (0 : F) < baseline.countP (· = value) := Nat.cast_pos.mpr hequal
  have htotal' : (baseline.countP (· < value) : F) + baseline.countP (· = value) ≤
      baseline.length := by exact_mod_cast htotal
  refine ⟨div_pos (by positivity) hlength, (div_le_one hlength).mpr ?_⟩
  linarith

/-- The width of the band around the last `period` closes. -/
def bandWidth (sqrt : F → F) (period : ℕ) (numStd : F) (closes : List F) : F :=
  2 * numStd * sqrt (variance (closes.rtake period)) / mean (closes.rtake period)

/-- The widths so far, from the first full window on. -/
def widths (sqrt : F → F) (period : ℕ) (numStd : F) (closes : List F) : List F :=
  onPrefixes (bandWidth sqrt period numStd) period closes

/-- The percent rank of the last width among the last `baselineWindow`
ones. -/
def batch (sqrt : F → F) (period : ℕ) (numStd : F) (baselineWindow : ℕ) (closes : List F) : F :=
  percentRank ((widths sqrt period numStd closes).rtake baselineWindow)
    (bandWidth sqrt period numStd closes)

/-- The rank of the last width is that of one of the baseline. -/
theorem batch_unit (sqrt : F → F) {period baselineWindow : ℕ} (numStd : F) {closes : List F}
    (hp : 0 < period) (hw : 0 < baselineWindow) (hlen : period ≤ closes.length) :
    0 < batch sqrt period numStd baselineWindow closes ∧
      batch sqrt period numStd baselineWindow closes ≤ 1 := by
  refine percentRank_unit ?_
  cases closes using List.reverseRecOn with
  | nil => simp at hlen; omega
  | append_singleton closes close =>
    have hlen' : period ≤ closes.length + 1 := by simpa using hlen
    obtain ⟨size, hsize⟩ := Nat.exists_eq_add_of_lt hw
    rw [widths, onPrefixes_concat _ _ hlen', hsize, zero_add, List.rtake_concat_succ]
    simp

omit [IsStrictOrderedRing F] in
theorem pos_period (s : BollingerBandWidth F) : 0 < s.period := s.period_pos

omit [IsStrictOrderedRing F] in
theorem pos_numStd (s : BollingerBandWidth F) : 0 < s.numStd := s.numStd_pos

omit [IsStrictOrderedRing F] in
theorem pos_baselineWindow (s : BollingerBandWidth F) : 0 < s.baselineWindow :=
  s.baselineWindow_pos

/-- The state that a sequence of closes leaves, of an indicator with the
parameters of `s`. -/
def after (sqrt : F → F) (s : BollingerBandWidth F) (closes : List F) : BollingerBandWidth F :=
  { s with
    period_pos := s.pos_period
    numStd_pos := s.pos_numStd
    baselineWindow_pos := s.pos_baselineWindow
    closes := closes.rtake s.period
    baseline := (widths sqrt s.period s.numStd closes).rtake s.baselineWindow
    value :=
      if closes.length < s.period then none else some (bandWidth sqrt s.period s.numStd closes)
    percentile :=
      if closes.length < s.period then none
      else some (batch sqrt s.period s.numStd s.baselineWindow closes)
    initialized := decide (s.period ≤ closes.length) }

theorem record_eq (s : BollingerBandWidth F) (value : F) :
    s.record value = .ok { s with
      baseline := push s.baselineWindow s.baseline value
      value := some value
      percentile := some (percentRank (push s.baselineWindow s.baseline value) value)
      initialized := true } := by
  have hlength : 0 < (push s.baselineWindow s.baseline value).length := by
    have := s.baselineWindow_pos
    simp only [push, length_rtake, List.length_append, List.length_singleton]
    omega
  rw [record, countRank_eq, divide_natCast _ hlength, ok_bind]
  rfl

/-- **One bar of the band width.** -/
theorem handleBar_after (sqrt : F → F) (s : BollingerBandWidth F) {closes : List F}
    {bar : PriceBar F} (hcloses : ∀ c ∈ closes, 0 < c) (hbar : 0 < bar.close) :
    (after sqrt s closes).handleBar sqrt bar = .ok (after sqrt s (closes ++ [bar.close])) := by
  have hp := s.period_pos
  have hone : (closes ++ [bar.close]).length = closes.length + 1 := by simp
  have hwindow : ((closes ++ [bar.close]).rtake s.period).length =
      min s.period (closes.length + 1) := by
    simp
  simp only [handleBar, after, push_rtake, hwindow, hone]
  by_cases hshort : closes.length + 1 < s.period
  · have hbefore : widths sqrt s.period s.numStd closes = [] := onPrefixes_of_lt _ (by omega)
    have hafter : widths sqrt s.period s.numStd (closes ++ [bar.close]) = [] :=
      onPrefixes_of_lt _ (by omega)
    have hinit : decide (s.period ≤ closes.length) = false := by simp; omega
    have hinit' : decide (s.period ≤ closes.length + 1) = false := by simp; omega
    rw [if_pos (by omega)]
    simp only [hbefore, hafter, hinit, hinit', if_pos hshort,
      if_pos (show closes.length < s.period by omega)]
    rfl
  · have hfull : ((closes ++ [bar.close]).rtake s.period).length = s.period := by omega
    have hpos : 0 < mean ((closes ++ [bar.close]).rtake s.period) := by
      refine mean_pos (List.ne_nil_of_length_pos (by omega)) fun x hx => ?_
      cases List.mem_append.mp (List.mem_of_mem_drop hx) with
      | inl hold => exact hcloses x hold
      | inr hnew => rwa [List.mem_singleton.mp hnew]
    have hwidths : widths sqrt s.period s.numStd (closes ++ [bar.close]) =
        widths sqrt s.period s.numStd closes ++
          [bandWidth sqrt s.period s.numStd (closes ++ [bar.close])] :=
      onPrefixes_concat _ _ (by omega)
    have hinit : decide (s.period ≤ closes.length + 1) = true := by simp; omega
    rw [if_neg (by omega), meanAndVariance_eq hp hfull, ok_bind, if_neg hpos.ne',
      divide_of_ne hpos.ne', ok_bind, record_eq]
    simp only [push_rtake, if_neg hshort, hinit, batch, hwidths]
    rfl

end BollingerBandWidth

/-! ## Realized volatility -/

namespace RealizedVolatility

/-- The logarithmic returns from close to close. -/
def logReturns (log : F → F) (closes : List F) : List F :=
  changes (fun prev close => log (close / prev)) closes

/-- The deviation of the last `window` returns. -/
def batch (sqrt log : F → F) (window : ℕ) (annualisationFactor : F) (closes : List F) : F :=
  sqrt (variance ((logReturns log closes).rtake window)) * annualisationFactor

omit [IsStrictOrderedRing F] in
theorem window_ge_two (s : RealizedVolatility F) : 2 ≤ s.window := s.two_le_window

omit [IsStrictOrderedRing F] in
theorem pos_annualisationFactor (s : RealizedVolatility F) : 0 < s.annualisationFactor :=
  s.annualisationFactor_pos

/-- The state that a sequence of closes leaves, of an indicator with the
parameters of `s`. -/
def after (sqrt log : F → F) (s : RealizedVolatility F) (closes : List F) :
    RealizedVolatility F :=
  { s with
    two_le_window := s.window_ge_two
    annualisationFactor_pos := s.pos_annualisationFactor
    returns := (logReturns log closes).rtake s.window
    prevClose := closes.getLast?
    value :=
      if closes.length ≤ s.window then none
      else some (batch sqrt log s.window s.annualisationFactor closes)
    initialized := decide (s.window + 1 ≤ closes.length) }

/-- **One bar of the volatility.** -/
theorem handleBar_after (sqrt log : F → F) (s : RealizedVolatility F) {closes : List F}
    {bar : PriceBar F} (hcloses : ∀ c ∈ closes, 0 < c) (hbar : 0 < bar.close) :
    (after sqrt log s closes).handleBar sqrt log bar =
      .ok (after sqrt log s (closes ++ [bar.close])) := by
  have hwindow := s.two_le_window
  have hone : (closes ++ [bar.close]).length = closes.length + 1 := by simp
  cases hlast : closes.getLast? with
  | none =>
    obtain rfl := List.getLast?_eq_none_iff.mp hlast
    have hne : s.window ≠ 0 := by omega
    have hle : 1 ≤ s.window := by omega
    simp [handleBar, after, logReturns, changes, hne, hle]
  | some prev =>
    have hpos : 0 < closes.length := List.length_pos_of_ne_nil (by rintro rfl; simp at hlast)
    have hprev : 0 < prev := hcloses prev (List.mem_of_getLast? hlast)
    have hreturns : logReturns log (closes ++ [bar.close]) =
        logReturns log closes ++ [log (bar.close / prev)] := changes_concat _ hlast _
    have hlength : ((logReturns log (closes ++ [bar.close])).rtake s.window).length =
        min s.window closes.length := by
      simp [logReturns]
    rw [handleBar, show (after sqrt log s closes).prevClose = some prev from hlast]
    simp only [if_pos (And.intro hprev hbar), divide_of_ne hprev.ne', ok_bind]
    have hpush : push s.window ((logReturns log closes).rtake s.window) (log (bar.close / prev)) =
        (logReturns log (closes ++ [bar.close])).rtake s.window := by
      rw [push_rtake, hreturns]
    have hlast' : (closes ++ [bar.close]).getLast? = some bar.close := by simp
    simp only [pure, Except.pure, bind, Except.bind, after, hpush, hlength, hone, hlast']
    by_cases hshort : closes.length < s.window
    · have hinit : decide (s.window + 1 ≤ closes.length) = false := by simp; omega
      have hinit' : decide (s.window + 1 ≤ closes.length + 1) = false := by simp; omega
      rw [if_pos (by omega)]
      simp only [hinit, hinit', if_pos hshort.le,
        if_pos (show closes.length + 1 ≤ s.window by omega)]
    · have hfull : ((logReturns log (closes ++ [bar.close])).rtake s.window).length = s.window := by
        omega
      have hinit : decide (s.window + 1 ≤ closes.length + 1) = true := by simp; omega
      rw [if_neg (by omega), meanAndVariance_eq (by omega) hfull]
      simp only [hinit, if_neg (show ¬ closes.length + 1 ≤ s.window by omega)]
      rfl

end RealizedVolatility

/-! ## Slope of the moving average -/

namespace EMASlope

/-- The exponential average of a span of `period`, seeded with a mean. -/
def average (period : ℕ) (closes : List F) : F :=
  smoothed (1 - 2 / ((period : F) + 1)) (1 / period) (2 / ((period : F) + 1)) period closes

/-- The averages so far, from the seed on. -/
def averages (period : ℕ) (closes : List F) : List F :=
  onPrefixes (average period) period closes

/-- The fractional change of the average over the last `lookback` closes. -/
def batch (period lookback : ℕ) (closes : List F) : F :=
  let past := average period (closes.take (closes.length - lookback))
  (average period closes - past) / past

/-- The state that a sequence of closes leaves, of an indicator with the
parameters of `s`. -/
def after (s : EMASlope F) (closes : List F) : EMASlope F :=
  { s with
    seedCloses := if closes.length < s.period then closes else []
    ema := if closes.length < s.period then none else some (average s.period closes)
    emaHistory := (averages s.period closes).rtake (s.lookback + 1)
    value :=
      if closes.length < s.period + s.lookback then none
      else some (batch s.period s.lookback closes)
    initialized := decide (s.period + s.lookback ≤ closes.length) }

theorem average_pos {period : ℕ} (hp : 0 < period) {closes : List F}
    (hlen : period ≤ closes.length) (hcloses : ∀ c ∈ closes, 0 < c) :
    0 < average period closes := by
  have hone : (1 : F) ≤ period := by exact_mod_cast hp
  have hle : 2 / ((period : F) + 1) ≤ 1 := (div_le_one (by linarith)).mpr (by linarith)
  exact smoothed_pos (by linarith) (by positivity) (by positivity) hp hlen hcloses

omit [IsStrictOrderedRing F] in
/-- The second half of a bar, before there are enough averages. -/
theorem record_short (s : EMASlope F) {xs : List F} (ema : F)
    (hs : s.emaHistory = xs.rtake (s.lookback + 1)) (hlen : xs.length < s.lookback) :
    s.record ema = .ok { s with
      ema := some ema
      emaHistory := (xs ++ [ema]).rtake (s.lookback + 1) } := by
  have hshort : ((xs ++ [ema]).rtake (s.lookback + 1)).length < s.lookback + 1 := by
    simpa using hlen
  simp only [record, hs, push_rtake, if_pos hshort]
  split <;> rfl

omit [IsStrictOrderedRing F] in
/-- With enough averages the oldest of them and the new one give the
slope. -/
theorem record_full (s : EMASlope F) {xs : List F} {ema past : F}
    (hs : s.emaHistory = xs.rtake (s.lookback + 1)) (hlen : s.lookback ≤ xs.length)
    (hpast : (xs ++ [ema])[xs.length - s.lookback]? = some past) (hne : past ≠ 0) :
    s.record ema = .ok { s with
      ema := some ema
      emaHistory := (xs ++ [ema]).rtake (s.lookback + 1)
      value := some ((ema - past) / past)
      initialized := true } := by
  have hfull : ¬ ((xs ++ [ema]).rtake (s.lookback + 1)).length < s.lookback + 1 := by
    simpa using hlen
  obtain ⟨rest, hcons⟩ := @rtake_eq_cons _ (s.lookback + 1) (xs ++ [ema]) past
    (by simpa using hpast)
  simp only [record, hs, push_rtake, if_neg hfull]
  split
  · rename_i hnil
    simp [hnil] at hcons
  · rename_i first _ heq
    obtain rfl : first = past := (List.cons.inj (heq.symm.trans hcons)).1
    rw [if_neg hne, divide_of_ne hne]
    rfl

/-- **One bar of the slope.** -/
theorem handleBar_after (s : EMASlope F) {closes : List F} {bar : PriceBar F}
    (hcloses : ∀ c ∈ closes, 0 < c) (hbar : 0 < bar.close) :
    (after s closes).handleBar bar = .ok (after s (closes ++ [bar.close])) := by
  have hp := s.period_pos
  have hl := s.lookback_pos
  have hone : (closes ++ [bar.close]).length = closes.length + 1 := by simp
  have hall : ∀ c ∈ closes ++ [bar.close], 0 < c := by
    intro c hc
    cases List.mem_append.mp hc with
    | inl hold => exact hcloses c hold
    | inr hnew => rwa [List.mem_singleton.mp hnew]
  by_cases hseed : closes.length < s.period
  · have hema : (after s closes).ema = none := if_pos hseed
    have hnone : averages s.period closes = [] := onPrefixes_of_lt _ hseed
    have hseedCloses : (after s closes).seedCloses = closes := if_pos hseed
    have hinit : decide (s.period + s.lookback ≤ closes.length) = false := by simp; omega
    have hinit' : decide (s.period + s.lookback ≤ closes.length + 1) = false := by simp; omega
    have hperiod : (after s closes).period = s.period := rfl
    rw [handleBar]
    simp only [hema, hseedCloses, hone, hperiod]
    by_cases hshort : closes.length + 1 < s.period
    · have hnone' : averages s.period (closes ++ [bar.close]) = [] :=
        onPrefixes_of_lt _ (by omega)
      rw [if_pos hshort]
      simp only [after, hone, hnone, hnone', hinit, hinit', if_pos hseed, if_pos hshort,
        if_pos (show closes.length < s.period + s.lookback by omega),
        if_pos (show closes.length + 1 < s.period + s.lookback by omega)]
      rfl
    · -- the seed is full: its mean is the first average
      have hfirst : (closes ++ [bar.close]).sum / (s.period : F) =
          average s.period (closes ++ [bar.close]) := by
        rw [average, smoothed_seed _ _ _ (by omega)]
        ring
      have haverages : averages s.period (closes ++ [bar.close]) =
          [average s.period (closes ++ [bar.close])] := by
        rw [averages, onPrefixes_concat _ _ (by omega), onPrefixes_of_lt _ hseed]
        rfl
      rw [if_neg hshort, divide_natCast _ hp, ok_bind, hfirst,
        @record_short F _ _ _ [] _ (by simp [after, hnone]) (by exact hl)]
      simp only [after, hone, haverages, hinit, hinit', if_neg hshort, List.nil_append,
        if_pos (show closes.length < s.period + s.lookback by omega),
        if_pos (show closes.length + 1 < s.period + s.lookback by omega)]
  · have hema : (after s closes).ema = some (average s.period closes) := if_neg hseed
    have haverage : average s.period (closes ++ [bar.close]) =
        (after s closes).alpha * bar.close +
          (1 - (after s closes).alpha) * average s.period closes := by
      rw [average, smoothed_concat _ _ _ (not_lt.mp hseed), add_comm]
      rfl
    have haverages : averages s.period (closes ++ [bar.close]) =
        averages s.period closes ++ [average s.period (closes ++ [bar.close])] :=
      onPrefixes_concat _ _ (by omega)
    have hcount : (averages s.period closes).length = closes.length + 1 - s.period :=
      length_onPrefixes _ _ _
    rw [handleBar, hema]
    simp only [← haverage]
    by_cases hshort : closes.length + 1 < s.period + s.lookback
    · have hinit : decide (s.period + s.lookback ≤ closes.length) = false := by simp; omega
      have hinit' : decide (s.period + s.lookback ≤ closes.length + 1) = false := by simp; omega
      rw [record_short (after s closes) _ rfl
        (show (averages s.period closes).length < s.lookback by omega)]
      simp only [after, hone, haverages, hinit, hinit', if_pos hshort, if_neg hseed,
        if_neg (show ¬ closes.length + 1 < s.period by omega),
        if_pos (show closes.length < s.period + s.lookback by omega)]
    · have hinit' : decide (s.period + s.lookback ≤ closes.length + 1) = true := by simp; omega
      have hpast : (averages s.period closes ++ [average s.period (closes ++ [bar.close])])[
          (averages s.period closes).length - s.lookback]? =
            some (average s.period ((closes ++ [bar.close]).take
              (closes.length + 1 - s.lookback))) := by
        rw [← haverages, averages, getElem?_onPrefixes _ (by omega)]
        congr 3
        omega
      have hpos : 0 < average s.period
          ((closes ++ [bar.close]).take (closes.length + 1 - s.lookback)) := by
        refine average_pos hp ?_ fun c hc => hall c (List.mem_of_mem_take hc)
        rw [List.length_take]
        omega
      rw [record_full (after s closes) rfl
        (show s.lookback ≤ (averages s.period closes).length by omega) hpast hpos.ne']
      simp only [after, batch, hone, haverages, hinit', if_neg hshort, if_neg hseed,
        if_neg (show ¬ closes.length + 1 < s.period by omega)]

end EMASlope

end TdSandboxed
