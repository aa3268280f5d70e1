/-
TdSandboxed.Lib.Float64 — 64-bit floating-point numbers, and the shortest
decimals that stand for them.

A finite number is a sign and a magnitude, and the magnitude is a rational
that rounding leaves alone. Rounding is to the nearest number, ties to
even; `ulpExponent` is the exponent of the last binary digit, with gradual
underflow. The two zeros are different.

`shortestDecimal` is what `strconv` writes with precision -1 and Python
with `repr`: the fewest decimal digits that round to the number, and of
those the nearest. A text that holds them is read back as the same number
(`round_shortestDecimal`).
-/
import TdSandboxed.Lib.Rounding

namespace TdSandboxed.Lib

/-! ## Rounding -/

/-- The exponent of the last binary digit of a magnitude. -/
def ulpExponent (q : ℚ) : ℤ := max (Int.log 2 q - 52) (-1074)

/-- The magnitude nearest to `q`; `none` is an overflow. -/
def roundFloat64 (q : ℚ) : Option ℚ :=
  let v := roundHalfEven (q / 2 ^ ulpExponent q) * (2 : ℚ) ^ ulpExponent q
  if v < 2 ^ 1024 then some v else none

theorem roundFloat64_eq_some {q v : ℚ} :
    roundFloat64 q = some v ↔
      v = roundHalfEven (q / 2 ^ ulpExponent q) * (2 : ℚ) ^ ulpExponent q ∧ v < 2 ^ 1024 := by
  simp only [roundFloat64]
  split_ifs with h
  · constructor
    · rintro hv
      obtain rfl := Option.some.inj hv
      exact ⟨rfl, h⟩
    · rintro ⟨rfl, -⟩
      rfl
  · refine ⟨fun hv => (by cases hv), ?_⟩
    rintro ⟨rfl, hlt⟩
    exact absurd hlt h

theorem roundFloat64_nonneg {q v : ℚ} (hq : 0 ≤ q) (h : roundFloat64 q = some v) : 0 ≤ v := by
  rw [(roundFloat64_eq_some.mp h).1]
  have hm : 0 ≤ roundHalfEven (q / 2 ^ ulpExponent q) := roundHalfEven_nonneg (by positivity)
  have hm' : (0 : ℚ) ≤ roundHalfEven (q / 2 ^ ulpExponent q) := by exact_mod_cast hm
  positivity

theorem roundFloat64_eq_some_iff {q v : ℚ} :
    roundFloat64 q = some v ↔ v = roundDigits 2 53 (-1074) q ∧ v < 2 ^ 1024 := by
  have hlast : lastExponent 2 53 (-1074) q = ulpExponent q := by
    simp only [lastExponent, ulpExponent]
    norm_num
  rw [roundFloat64_eq_some, roundDigits, hlast]
  norm_num

/-- A multiple of its own last digit is left alone. -/
theorem roundFloat64_of_multiple {v : ℚ} (n : ℤ) (hn : v = n * (2 : ℚ) ^ ulpExponent v)
    (hv : v < 2 ^ 1024) : roundFloat64 v = some v := by
  refine roundFloat64_eq_some.mpr ⟨?_, hv⟩
  have hdiv : v / (2 : ℚ) ^ ulpExponent v = n := by
    rw [div_eq_iff (by positivity)]
    exact hn
  rw [hdiv, roundHalfEven_intCast]
  exact hn

theorem zpow_log_le {n : ℕ} (hpos : 0 < n) : (2 : ℚ) ^ Int.log 2 (n : ℚ) ≤ n := by
  have hq : (0 : ℚ) < n := by exact_mod_cast hpos
  exact_mod_cast Int.zpow_log_le_self (by norm_num : 1 < 2) hq

/-- Integers of 53 bits are numbers themselves. -/
theorem roundFloat64_of_lt {n : ℕ} (hn : n < 2 ^ 53) : roundFloat64 n = some (n : ℚ) := by
  obtain rfl | hpos := Nat.eq_zero_or_pos n
  · exact roundFloat64_of_multiple 0 (by simp) (by positivity)
  have hlog : Int.log 2 (n : ℚ) < 53 := by
    have hlt : (2 : ℚ) ^ Int.log 2 (n : ℚ) < 2 ^ (53 : ℤ) :=
      (zpow_log_le hpos).trans_lt (by exact_mod_cast hn)
    exact (zpow_lt_zpow_iff_right₀ (by norm_num : (1 : ℚ) < 2)).mp hlt
  have hulp : ulpExponent (n : ℚ) ≤ 0 := max_le (by omega) (by norm_num)
  obtain ⟨k, hk⟩ := Int.exists_eq_neg_ofNat hulp
  refine roundFloat64_of_multiple (n * 2 ^ k) ?_ ?_
  · rw [hk, zpow_neg, zpow_natCast]
    push_cast
    field_simp
  · have hn' : (n : ℚ) < 2 ^ 53 := by exact_mod_cast hn
    exact hn'.trans (pow_lt_pow_right₀ (by norm_num) (by norm_num))

/-- **Rounding twice is rounding once.** -/
theorem roundFloat64_idem {q v : ℚ} (hq : 0 ≤ q) (h : roundFloat64 q = some v) :
    roundFloat64 v = some v := by
  obtain ⟨rfl, hlt⟩ := roundFloat64_eq_some_iff.mp h
  have hidem : roundDigits 2 53 (-1074) (roundDigits 2 53 (-1074) q) = roundDigits 2 53 (-1074) q :=
    roundDigits_idem (by norm_num) (by norm_num) hq
  exact roundFloat64_eq_some_iff.mpr ⟨hidem.symm, hlt⟩

/-! ## Numbers -/

structure Float64 where
  negative : Bool
  magnitude : ℚ
  nonneg : 0 ≤ magnitude
  exact : roundFloat64 magnitude = some magnitude
  deriving DecidableEq

/-- The number nearest to a magnitude with a sign; `none` is an overflow. -/
def Float64.ofRat (negative : Bool) (q : ℚ) (hq : 0 ≤ q) : Option Float64 :=
  match h : roundFloat64 q with
  | some v => some ⟨negative, v, roundFloat64_nonneg hq h, roundFloat64_idem hq h⟩
  | none => none

theorem Float64.ofRat_eq (x : Float64) {q : ℚ} (hq : 0 ≤ q)
    (h : roundFloat64 q = some x.magnitude) : ofRat x.negative q hq = some x := by
  unfold ofRat
  split
  · rename_i v hv
    obtain rfl := Option.some.inj (hv.symm.trans h)
    rfl
  · rename_i hnone
    rw [hnone] at h
    cases h

/-- An integer of 64 bits stays in range, and away from zero. -/
theorem roundFloat64_natCast {n : ℕ} (hpos : 0 < n) (hn : n ≤ 2 ^ 63) :
    ∃ v, roundFloat64 n = some v ∧ 1 ≤ v ∧ v ≤ 2 ^ 64 := by
  have hself : (2 : ℚ) ^ Int.log 2 (n : ℚ) ≤ n := zpow_log_le hpos
  have hlow : 0 ≤ Int.log 2 (n : ℚ) := by
    rw [Int.log_of_one_le_right 2 (by exact_mod_cast hpos)]
    exact Int.natCast_nonneg _
  have hhigh : Int.log 2 (n : ℚ) ≤ 63 := by
    have hle : (2 : ℚ) ^ Int.log 2 (n : ℚ) ≤ 2 ^ (63 : ℤ) :=
      hself.trans (by exact_mod_cast hn)
    exact (zpow_le_zpow_iff_right₀ (by norm_num : (1 : ℚ) < 2)).mp hle
  have hlast : lastExponent 2 53 (-1074) (n : ℚ) ≤ Int.log 2 (n : ℚ) :=
    max_le (by norm_num) (by omega)
  have hlower : (2 : ℚ) ^ Int.log 2 (n : ℚ) ≤ roundDigits 2 53 (-1074) n := by
    exact_mod_cast zpow_le_roundDigits (by norm_num) hlast (by exact_mod_cast hself)
  have hupper : roundDigits 2 53 (-1074) (n : ℚ) ≤ 2 ^ 64 := by
    have hlt : (n : ℚ) < 2 ^ 64 := by exact_mod_cast hn.trans_lt (by norm_num)
    exact_mod_cast roundDigits_le_of_lt (by norm_num) (hlast.trans (show _ ≤ (64 : ℤ) by omega))
      (by exact_mod_cast hlt)
  refine ⟨_, roundFloat64_eq_some_iff.mpr ⟨rfl, ?_⟩, ?_, hupper⟩
  · exact hupper.trans_lt (pow_lt_pow_right₀ (by norm_num) (by norm_num))
  · exact (one_le_zpow₀ (by norm_num) hlow).trans hlower

/-! ## Shortest decimals -/

/-- The value of the digits `d`, with the last digit at `10 ^ k`. -/
def decimalValue (d : ℕ) (k : ℤ) : ℚ := d * (10 : ℚ) ^ k

/-- The two decimals of `n + 1` digits around a magnitude, the nearest
first. -/
def decimalsAround (x : ℚ) (n : ℕ) : List (ℕ × ℤ) :=
  let k := Int.log 10 x - n
  let y := x / 10 ^ k
  let near := roundHalfEven y
  let far := if near = ⌊y⌋ then near + 1 else near - 1
  [(near.toNat, k), (far.toNat, k)]

/-- All digits of a magnitude. -/
def exactDecimal (x : ℚ) : ℕ × ℤ :=
  let e := ulpExponent x
  let m := roundHalfEven (x / 2 ^ e)
  if e < 0 then (m.toNat * 5 ^ (-e).toNat, e) else (m.toNat * 2 ^ e.toNat, 0)

/-- Without the zeros at the end. -/
def stripZeros : ℕ → ℕ → ℤ → ℕ × ℤ
  | 0, d, k => (d, k)
  | fuel + 1, d, k => if d ≠ 0 ∧ d % 10 = 0 then stripZeros fuel (d / 10) (k + 1) else (d, k)

/-- Seventeen digits are always enough; `exactDecimal` is never needed. -/
def shortestDecimal (x : ℚ) : ℕ × ℤ :=
  let c := (((List.range 17).flatMap (decimalsAround x)).find? fun c =>
    roundFloat64 (decimalValue c.1 c.2) = some x).getD (exactDecimal x)
  stripZeros c.1 c.1 c.2

theorem decimalValue_nonneg (d : ℕ) (k : ℤ) : 0 ≤ decimalValue d k := by
  unfold decimalValue
  positivity

theorem decimalValue_stripZeros (fuel d : ℕ) (k : ℤ) :
    decimalValue (stripZeros fuel d k).1 (stripZeros fuel d k).2 = decimalValue d k := by
  induction fuel generalizing d k with
  | zero => rfl
  | succ fuel ih =>
    rw [stripZeros]
    split
    · rename_i h
      rw [ih]
      have hd : d = d / 10 * 10 := by omega
      have hq : (d : ℚ) = (d / 10 : ℕ) * 10 := by exact_mod_cast hd
      unfold decimalValue
      rw [hq, zpow_add₀ (by norm_num), zpow_one, mul_assoc, mul_comm (10 : ℚ)]
    · rfl

theorem decimalValue_exactDecimal {x : ℚ} (hx : 0 ≤ x) (h : roundFloat64 x = some x) :
    decimalValue (exactDecimal x).1 (exactDecimal x).2 = x := by
  have hv := (roundFloat64_eq_some.mp h).1
  unfold exactDecimal
  dsimp only
  generalize he : ulpExponent x = e at hv ⊢
  have hm : 0 ≤ roundHalfEven (x / 2 ^ e) := roundHalfEven_nonneg (by positivity)
  generalize roundHalfEven (x / 2 ^ e) = m at hv hm
  have hcast : ((m.toNat : ℕ) : ℚ) = m := by exact_mod_cast Int.toNat_of_nonneg hm
  split
  · rename_i hneg
    obtain ⟨n, rfl⟩ : ∃ n : ℕ, e = -n := ⟨(-e).toNat, by omega⟩
    have hten : (10 : ℚ) ^ n = 2 ^ n * 5 ^ n := by
      rw [← mul_pow]
      norm_num
    simp only [decimalValue, neg_neg, Int.toNat_natCast, Nat.cast_mul, hcast, Nat.cast_pow,
      Nat.cast_ofNat, zpow_neg, zpow_natCast, hten]
    rw [hv, zpow_neg, zpow_natCast]
    field_simp
  · rename_i hnonneg
    obtain ⟨n, rfl⟩ : ∃ n : ℕ, e = n := ⟨e.toNat, by omega⟩
    simp only [decimalValue, Int.toNat_natCast, Nat.cast_mul, hcast, Nat.cast_pow, Nat.cast_ofNat,
      zpow_zero, mul_one]
    rw [hv, zpow_natCast]

/-- **The shortest decimal of a number rounds to the number.** -/
theorem round_shortestDecimal {x : ℚ} (hx : 0 ≤ x) (h : roundFloat64 x = some x) :
    roundFloat64 (decimalValue (shortestDecimal x).1 (shortestDecimal x).2) = some x := by
  unfold shortestDecimal
  dsimp only
  rw [decimalValue_stripZeros]
  cases hc : ((List.range 17).flatMap (decimalsAround x)).find? fun c =>
      roundFloat64 (decimalValue c.1 c.2) = some x with
  | none => rw [Option.getD_none, decimalValue_exactDecimal hx h, h]
  | some c => simpa using List.find?_some hc

end TdSandboxed.Lib
