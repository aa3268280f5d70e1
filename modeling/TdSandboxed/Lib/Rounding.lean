/-
TdSandboxed.Lib.Rounding — rounding a magnitude to a number of digits, ties
to even, in any base.

`lastExponent` is the exponent of the last digit that is kept. It is not
below `least`, so small numbers keep fewer digits. What is rounded once is
not changed by rounding again (`roundDigits_idem`), and
`roundDigits_le_zpow_iff` says which numbers are not above a power of the
base once they are rounded.
-/
import Mathlib.Algebra.Order.Field.Power
import Mathlib.Algebra.Order.Ring.Int
import Mathlib.Algebra.Group.Int.Even
import Mathlib.Data.Int.Log
import Mathlib.Data.Rat.Floor
import Mathlib.Tactic.Linarith
import Mathlib.Tactic.Positivity
import Mathlib.Tactic.FieldSimp

namespace TdSandboxed.Lib

/-! ## Integers -/

def roundHalfEven (q : ℚ) : ℤ :=
  if q - ⌊q⌋ < 1 / 2 then ⌊q⌋ else if 1 / 2 < q - ⌊q⌋ then ⌊q⌋ + 1
  else if ⌊q⌋ % 2 = 0 then ⌊q⌋ else ⌊q⌋ + 1

@[simp] theorem roundHalfEven_intCast (n : ℤ) : roundHalfEven n = n := by
  simp [roundHalfEven]

theorem roundHalfEven_eq (q : ℚ) : roundHalfEven q = ⌊q⌋ ∨ roundHalfEven q = ⌊q⌋ + 1 := by
  unfold roundHalfEven
  split_ifs <;> simp

theorem roundHalfEven_nonneg {q : ℚ} (h : 0 ≤ q) : 0 ≤ roundHalfEven q := by
  have hfloor : 0 ≤ ⌊q⌋ := Int.floor_nonneg.mpr h
  rcases roundHalfEven_eq q with heq | heq <;> omega

theorem roundHalfEven_le {q : ℚ} {n : ℤ} (h : q < n) : roundHalfEven q ≤ n := by
  have hfloor : ⌊q⌋ < n := Int.floor_lt.mpr h
  rcases roundHalfEven_eq q with heq | heq <;> omega

theorem le_roundHalfEven {q : ℚ} {n : ℤ} (h : n ≤ q) : n ≤ roundHalfEven q := by
  have hfloor : n ≤ ⌊q⌋ := Int.le_floor.mpr h
  rcases roundHalfEven_eq q with heq | heq <;> omega

/-- An even number gets the half above it. -/
theorem roundHalfEven_le_iff {q : ℚ} {n : ℤ} (hn : Even n) :
    roundHalfEven q ≤ n ↔ q ≤ n + 1 / 2 := by
  have hlow : (⌊q⌋ : ℚ) ≤ q := Int.floor_le q
  have hhigh : q < ⌊q⌋ + 1 := Int.lt_floor_add_one q
  rcases lt_trichotomy ⌊q⌋ n with hlt | heq | hgt
  · have hcast : (⌊q⌋ : ℚ) + 1 ≤ n := by exact_mod_cast hlt
    have hround : roundHalfEven q ≤ n := by
      rcases roundHalfEven_eq q with heq | heq <;> omega
    exact iff_of_true hround (by linarith)
  · have hmod : ⌊q⌋ % 2 = 0 := heq ▸ Int.even_iff.mp hn
    unfold roundHalfEven
    rw [← heq]
    split_ifs with h h'
    · exact iff_of_true le_rfl (by linarith)
    · exact iff_of_false (by omega) (by linarith)
    · exact iff_of_true le_rfl (by linarith)
  · have hcast : (n : ℚ) + 1 ≤ ⌊q⌋ := by exact_mod_cast hgt
    have hround : n < roundHalfEven q := by
      rcases roundHalfEven_eq q with heq | heq <;> omega
    exact iff_of_false (not_le.mpr hround) (by linarith)

/-! ## Digits -/

/-- The exponent of the last digit that is kept of a magnitude. -/
def lastExponent (b digits : ℕ) (least : ℤ) (q : ℚ) : ℤ := max (Int.log b q - (digits - 1)) least

def roundDigits (b digits : ℕ) (least : ℤ) (q : ℚ) : ℚ :=
  roundHalfEven (q / b ^ lastExponent b digits least q) * (b : ℚ) ^ lastExponent b digits least q

section
variable {b digits : ℕ} {least k : ℤ} {q v : ℚ}

theorem roundDigits_nonneg (hq : 0 ≤ q) : 0 ≤ roundDigits b digits least q := by
  have hm : 0 ≤ roundHalfEven (q / (b : ℚ) ^ lastExponent b digits least q) :=
    roundHalfEven_nonneg (by positivity)
  have hm' : (0 : ℚ) ≤ roundHalfEven (q / (b : ℚ) ^ lastExponent b digits least q) := by
    exact_mod_cast hm
  exact mul_nonneg hm' (by positivity)

variable (hb : 1 < b)
include hb

theorem zpow_pos_of_base (e : ℤ) : (0 : ℚ) < (b : ℚ) ^ e :=
  zpow_pos (by exact_mod_cast (Nat.zero_lt_of_lt hb)) e

theorem zpow_add_of_base (e f : ℤ) : (b : ℚ) ^ (e + f) = (b : ℚ) ^ e * (b : ℚ) ^ f :=
  zpow_add₀ (by exact_mod_cast (Nat.ne_zero_of_lt hb)) e f

theorem zpow_le_zpow_of_base {e f : ℤ} (h : e ≤ f) : (b : ℚ) ^ e ≤ (b : ℚ) ^ f :=
  zpow_le_zpow_right₀ (by exact_mod_cast Nat.le_of_lt hb) h

/-- A power is a multiple of the smaller ones. -/
theorem zpow_eq_pow_mul {e f : ℤ} (h : e ≤ f) :
    (b : ℚ) ^ f = (((b : ℤ) ^ (f - e).toNat : ℤ) : ℚ) * (b : ℚ) ^ e := by
  push_cast
  rw [← zpow_natCast, ← zpow_add_of_base hb]
  congr 1
  omega

/-- A multiple of its own last digit is left alone. -/
theorem roundDigits_of_multiple (n : ℤ) (hn : v = n * (b : ℚ) ^ lastExponent b digits least v) :
    roundDigits b digits least v = v := by
  have hdiv : v / (b : ℚ) ^ lastExponent b digits least v = n := by
    rw [div_eq_iff (zpow_pos_of_base hb _).ne']
    exact hn
  rw [roundDigits, hdiv, roundHalfEven_intCast]
  exact hn.symm

/-- The rounded mantissa has at most so many digits, or is the next power. -/
theorem mantissa_le : roundHalfEven (q / (b : ℚ) ^ lastExponent b digits least q) ≤ (b : ℤ) ^ digits := by
  apply roundHalfEven_le
  rw [div_lt_iff₀ (zpow_pos_of_base hb _)]
  have hexp : Int.log b q + 1 ≤ digits + lastExponent b digits least q := by
    have hmax : Int.log b q - (digits - 1) ≤ lastExponent b digits least q := le_max_left _ _
    omega
  calc q < (b : ℚ) ^ (Int.log b q + 1) := Int.lt_zpow_succ_log_self hb q
    _ ≤ (b : ℚ) ^ (digits + lastExponent b digits least q) := zpow_le_zpow_of_base hb hexp
    _ = (((b : ℤ) ^ digits : ℤ) : ℚ) * (b : ℚ) ^ lastExponent b digits least q := by
      rw [zpow_add_of_base hb, zpow_natCast]
      push_cast
      rfl

/-- **Rounding twice is rounding once.** -/
theorem roundDigits_idem (hdigits : 0 < digits) (hq : 0 ≤ q) :
    roundDigits b digits least (roundDigits b digits least q) = roundDigits b digits least q := by
  have hnonneg : 0 ≤ roundDigits b digits least q := roundDigits_nonneg hq
  have hm : roundHalfEven (q / (b : ℚ) ^ lastExponent b digits least q) ≤ (b : ℤ) ^ digits :=
    mantissa_le hb
  have hlow : least ≤ lastExponent b digits least q := le_max_right _ _
  generalize hv : roundDigits b digits least q = v at hnonneg ⊢
  rw [roundDigits] at hv
  generalize roundHalfEven (q / (b : ℚ) ^ lastExponent b digits least q) = m at hm hv
  generalize lastExponent b digits least q = e at hlow hv
  by_cases hzero : v = 0
  · exact roundDigits_of_multiple hb 0 (by simp [hzero])
  by_cases hle : lastExponent b digits least v ≤ e
  · -- the last digit of `v` is not above that of `q`
    refine roundDigits_of_multiple hb (m * b ^ (e - lastExponent b digits least v).toNat) ?_
    calc v = m * (b : ℚ) ^ e := hv.symm
      _ = m * ((((b : ℤ) ^ (e - lastExponent b digits least v).toNat : ℤ) : ℚ) *
          (b : ℚ) ^ lastExponent b digits least v) := by rw [← zpow_eq_pow_mul hb hle]
      _ = ((m * b ^ (e - lastExponent b digits least v).toNat : ℤ) : ℚ) *
          (b : ℚ) ^ lastExponent b digits least v := by
        push_cast
        rw [mul_assoc]
  · -- rounding up reached the next power of the base
    have hlog : lastExponent b digits least v = Int.log b v - (digits - 1) := by
      unfold lastExponent at hle ⊢
      omega
    have hpos : 0 < v := lt_of_le_of_ne hnonneg (Ne.symm hzero)
    have hself : (b : ℚ) ^ Int.log b v ≤ v := Int.zpow_log_le_self hb hpos
    have hupper : v ≤ (b : ℚ) ^ (digits + e) := by
      have hmq : (m : ℚ) ≤ (b : ℚ) ^ digits := by exact_mod_cast hm
      rw [← hv, zpow_add_of_base hb, zpow_natCast]
      exact mul_le_mul_of_nonneg_right hmq (zpow_pos_of_base hb e).le
    have hlogle : Int.log b v ≤ digits + e :=
      (zpow_le_zpow_iff_right₀ (by exact_mod_cast hb : (1 : ℚ) < b)).mp (hself.trans hupper)
    have hlast : lastExponent b digits least v = e + 1 := by omega
    have hlogv : Int.log b v = digits + e := by omega
    have heq : v = (b : ℚ) ^ (digits + e) := le_antisymm hupper (hlogv ▸ hself)
    refine roundDigits_of_multiple hb (b ^ (digits - 1)) ?_
    rw [hlast]
    have hdiff : ((digits : ℤ) + e - (e + 1)).toNat = digits - 1 := by omega
    rw [heq, zpow_eq_pow_mul hb (show e + 1 ≤ (digits : ℤ) + e by omega), hdiff]

theorem roundDigits_le_of_lt (hk : lastExponent b digits least q ≤ k) (h : q < (b : ℚ) ^ k) :
    roundDigits b digits least q ≤ (b : ℚ) ^ k := by
  rw [roundDigits]
  generalize lastExponent b digits least q = e at hk
  have hsplit := zpow_eq_pow_mul hb hk
  have hround : roundHalfEven (q / (b : ℚ) ^ e) ≤ (b : ℤ) ^ (k - e).toNat := by
    apply roundHalfEven_le
    rw [div_lt_iff₀ (zpow_pos_of_base hb e), ← hsplit]
    exact h
  rw [hsplit]
  exact mul_le_mul_of_nonneg_right (by exact_mod_cast hround) (zpow_pos_of_base hb e).le

theorem zpow_le_roundDigits (hk : lastExponent b digits least q ≤ k) (h : (b : ℚ) ^ k ≤ q) :
    (b : ℚ) ^ k ≤ roundDigits b digits least q := by
  rw [roundDigits]
  generalize lastExponent b digits least q = e at hk
  have hsplit := zpow_eq_pow_mul hb hk
  have hround : (b : ℤ) ^ (k - e).toNat ≤ roundHalfEven (q / (b : ℚ) ^ e) := by
    apply le_roundHalfEven
    rw [le_div_iff₀ (zpow_pos_of_base hb e), ← hsplit]
    exact h
  rw [hsplit]
  exact mul_le_mul_of_nonneg_right (by exact_mod_cast hround) (zpow_pos_of_base hb e).le

/-- **What is not above a power of the base, rounded.** The power gets half
of what its own last digit is worth. -/
theorem roundDigits_le_zpow_iff (heven : Even b) (hdigits : 1 < digits)
    (hk : least + (digits - 1) ≤ k) (hq : 0 ≤ q) :
    roundDigits b digits least q ≤ (b : ℚ) ^ k ↔
      q ≤ (b : ℚ) ^ k + (b : ℚ) ^ (k - (digits - 1)) / 2 := by
  have hhalf : 0 < (b : ℚ) ^ (k - (digits - 1)) / 2 := half_pos (zpow_pos_of_base hb _)
  have hpos : 0 < (b : ℚ) ^ k := zpow_pos_of_base hb k
  obtain rfl | hq := hq.eq_or_lt
  · have hzero : roundDigits b digits least 0 = 0 := roundDigits_of_multiple hb 0 (by simp)
    rw [hzero]
    exact iff_of_true hpos.le (by linarith)
  have hself : (b : ℚ) ^ Int.log b q ≤ q := Int.zpow_log_le_self hb hq
  have hnext : q < (b : ℚ) ^ (Int.log b q + 1) := Int.lt_zpow_succ_log_self hb q
  rcases lt_trichotomy (Int.log b q) k with hlt | heq | hgt
  · have hlast : lastExponent b digits least q ≤ k := max_le (by omega) (by omega)
    have hq' : q < (b : ℚ) ^ k := hnext.trans_le (zpow_le_zpow_of_base hb (by omega))
    exact iff_of_true (roundDigits_le_of_lt hb hlast hq') (by linarith)
  · -- the power is a multiple of the last digit, and an even one
    have hlast : lastExponent b digits least q = k - (digits - 1) := by
      rw [lastExponent, heq]
      exact max_eq_left (by omega)
    have hpow : Even ((b : ℤ) ^ (digits - 1)) := by
      have heven' : Even (b : ℤ) := by exact_mod_cast heven
      exact heven'.pow_of_ne_zero (by omega)
    have hsplit : (b : ℚ) ^ k =
        (((b : ℤ) ^ (digits - 1) : ℤ) : ℚ) * (b : ℚ) ^ (k - (digits - 1)) := by
      have hdiff : (k - (k - ((digits : ℤ) - 1))).toNat = digits - 1 := by omega
      rw [zpow_eq_pow_mul hb (show k - ((digits : ℤ) - 1) ≤ k by omega), hdiff]
    have hunit := zpow_pos_of_base hb (k - (digits - 1))
    rw [roundDigits, hlast, hsplit, mul_le_mul_iff_left₀ hunit, Int.cast_le,
      roundHalfEven_le_iff hpow, div_le_iff₀ hunit]
    ring_nf
  · have hlast : lastExponent b digits least q ≤ Int.log b q := max_le (by omega) (by omega)
    have hround := zpow_le_roundDigits hb hlast hself
    have hstep : (b : ℚ) ^ (k + 1) ≤ (b : ℚ) ^ Int.log b q := zpow_le_zpow_of_base hb (by omega)
    have htwice : 2 * (b : ℚ) ^ k ≤ (b : ℚ) ^ (k + 1) := by
      have htwo : (2 : ℚ) ≤ b := by exact_mod_cast hb
      rw [zpow_add_of_base hb, zpow_one, mul_comm]
      exact mul_le_mul_of_nonneg_left htwo hpos.le
    have hsmall : (b : ℚ) ^ (k - (digits - 1)) ≤ (b : ℚ) ^ k := zpow_le_zpow_of_base hb (by omega)
    exact iff_of_false (by linarith) (by linarith)

end

end TdSandboxed.Lib
