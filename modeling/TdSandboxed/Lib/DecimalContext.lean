/-
TdSandboxed.Lib.DecimalContext — `-`, `abs` and `<=` of `decimal.Decimal`
in the default context.

A result is the exact one, rounded to 28 digits. It raises when it is too
large, when NaN is compared, and where there is no result (the difference
of two equal infinities). Signs of zero, payloads and trailing zeros do not
count here: a `DecimalValue` is what is left of a `Decimal` without them.

`within_zpow_iff` says which numbers a tolerance lets pass. It is not
quite the tolerance: a difference a little above it may be rounded to it.
-/
import TdSandboxed.Lib.DecimalText
import TdSandboxed.Lib.Rounding

namespace TdSandboxed.Lib

/-- The exceptions of `decimal` that the default context raises. -/
inductive DecimalSignal
  | invalidOperation
  | overflow
  deriving DecidableEq

inductive DecimalValue
  | finite (x : ℚ)
  | infinity (negative : Bool)
  | nan (signaling : Bool)
  deriving DecidableEq

def DecimalForm.value : DecimalForm → DecimalValue
  | .finite negative coefficient exponent =>
    .finite ((if negative then -(coefficient : ℚ) else coefficient) * 10 ^ exponent)
  | .infinity negative => .infinity negative
  | .nan _ signaling _ => .nan signaling

def PyDecimal.value (d : PyDecimal) : DecimalValue := d.1.value

namespace DecimalValue

/-! ## The default context -/

/-- `Emax` -/
def maxExponent : ℤ := 999999

/-- `Etiny()` -/
def leastExponent : ℤ := -1000026

/-- The magnitude of a result, with the 28 digits of the context. -/
def roundResult (q : ℚ) : ℚ := roundDigits 10 28 leastExponent q

def withSign (x q : ℚ) : ℚ := if x < 0 then -q else q

def finalize (x : ℚ) : Except DecimalSignal DecimalValue :=
  if Int.log 10 (roundResult |x|) ≤ maxExponent then .ok (.finite (withSign x (roundResult |x|)))
  else .error .overflow

def isSignaling : DecimalValue → Bool
  | .nan signaling => signaling
  | _ => false

/-- `-` -/
def sub : DecimalValue → DecimalValue → Except DecimalSignal DecimalValue
  | .finite x, .finite y => finalize (x - y)
  | .finite _, .infinity negative => .ok (.infinity !negative)
  | .infinity negative, .finite _ => .ok (.infinity negative)
  | .infinity negative, .infinity negative' =>
    if negative = negative' then .error .invalidOperation else .ok (.infinity negative)
  | a, b => if a.isSignaling ∨ b.isSignaling then .error .invalidOperation else .ok (.nan false)

/-- `abs` -/
def abs : DecimalValue → Except DecimalSignal DecimalValue
  | .finite x => finalize |x|
  | .infinity _ => .ok (.infinity false)
  | .nan signaling => if signaling then .error .invalidOperation else .ok (.nan false)

/-- `<=` -/
def le : DecimalValue → DecimalValue → Except DecimalSignal Bool
  | .finite x, .finite y => .ok (x ≤ y)
  | .finite _, .infinity negative => .ok !negative
  | .infinity negative, .finite _ => .ok negative
  | .infinity negative, .infinity negative' => .ok (negative || !negative')
  | .nan _, _ | _, .nan _ => .error .invalidOperation

/-- `abs(a - b) <= tolerance` -/
def within (tolerance a b : DecimalValue) : Except DecimalSignal Bool := do
  let difference ← a.sub b
  let difference ← difference.abs
  difference.le tolerance

/-- `==`. NaN is not equal to itself. -/
def eq : DecimalValue → DecimalValue → Bool
  | .finite x, .finite y => x = y
  | .infinity negative, .infinity negative' => negative = negative'
  | _, _ => false

/-! ## A tolerance -/

variable {x y t : ℚ} {k : ℤ} {a b : DecimalValue} {c : Bool}

theorem roundResult_nonneg (x : ℚ) : 0 ≤ roundResult |x| := roundDigits_nonneg (abs_nonneg x)

theorem roundResult_idem (x : ℚ) : roundResult (roundResult |x|) = roundResult |x| :=
  roundDigits_idem (by norm_num) (by norm_num) (abs_nonneg x)

theorem withSign_of_nonneg (hx : 0 ≤ x) (q : ℚ) : withSign x q = q := if_neg (not_lt.mpr hx)

theorem abs_withSign (x : ℚ) {q : ℚ} (hq : 0 ≤ q) : |withSign x q| = q := by
  unfold withSign
  split
  · rw [abs_neg, abs_of_nonneg hq]
  · exact abs_of_nonneg hq

/-- The second rounding changes nothing. -/
theorem finalize_abs_withSign (x : ℚ) :
    finalize |withSign x (roundResult |x|)| =
      if Int.log 10 (roundResult |x|) ≤ maxExponent then .ok (.finite (roundResult |x|))
      else .error .overflow := by
  have hnonneg := roundResult_nonneg x
  rw [abs_withSign x hnonneg, finalize, abs_of_nonneg hnonneg, roundResult_idem,
    withSign_of_nonneg hnonneg]

theorem within_finite (t x y : ℚ) :
    within (.finite t) (.finite x) (.finite y) =
      if Int.log 10 (roundResult |x - y|) ≤ maxExponent then
        .ok (decide (roundResult |x - y| ≤ t))
      else .error .overflow := by
  by_cases hlog : Int.log 10 (roundResult |x - y|) ≤ maxExponent
  · have hsub : sub (.finite x) (.finite y) =
        .ok (.finite (withSign (x - y) (roundResult |x - y|))) := if_pos hlog
    have habs : abs (.finite (withSign (x - y) (roundResult |x - y|))) =
        .ok (.finite (roundResult |x - y|)) := (finalize_abs_withSign (x - y)).trans (if_pos hlog)
    rw [if_pos hlog, within, hsub]
    show (abs (.finite _) >>= fun d => d.le (.finite t)) = _
    rw [habs]
    rfl
  · have hsub : sub (.finite x) (.finite y) = .error .overflow := if_neg hlog
    rw [if_neg hlog, within, hsub]
    rfl

/-- Something infinite is within no tolerance of a number, and NaN is not
compared. -/
theorem within_of_not_finite (h : within (.finite t) a b = .ok c)
    (hfinite : ∀ x y, ¬(a = .finite x ∧ b = .finite y)) : c = false := by
  cases a with
  | finite x =>
    cases b with
    | finite y => exact absurd ⟨rfl, rfl⟩ (hfinite x y)
    | infinity n =>
      cases h
      rfl
    | nan s => cases s <;> cases h
  | infinity n =>
    cases b with
    | finite y =>
      cases h
      rfl
    | infinity n' =>
      cases n <;> cases n' <;> cases h <;> rfl
    | nan s => cases s <;> cases h
  | nan s =>
    cases b with
    | finite y => cases s <;> cases h
    | infinity n => cases s <;> cases h
    | nan s' => cases s <;> cases s' <;> cases h

/-- Two numbers that differ by at most so much. -/
def Close (bound : ℚ) (a b : DecimalValue) : Prop :=
  ∃ x y, a = .finite x ∧ b = .finite y ∧ |x - y| ≤ bound

theorem roundResult_le_zpow_iff (hk : leastExponent + 27 ≤ k) (hx : 0 ≤ x) :
    roundResult x ≤ 10 ^ k ↔ x ≤ 10 ^ k + 10 ^ (k - 27) / 2 := by
  have hround := roundDigits_le_zpow_iff (by norm_num : 1 < 10) (by decide) (by norm_num : 1 < 28)
    (by norm_num; exact hk) hx
  norm_num at hround
  exact hround

/-- **What a tolerance lets pass**: half of its last digit more. -/
theorem within_zpow_iff (hk : leastExponent + 27 ≤ k)
    (h : within (.finite (10 ^ k)) a b = .ok c) :
    c = true ↔ Close (10 ^ k + 10 ^ (k - 27) / 2) a b := by
  by_cases hfinite : ∃ x y, a = .finite x ∧ b = .finite y
  · obtain ⟨x, y, rfl, rfl⟩ := hfinite
    rw [within_finite] at h
    split at h
    · obtain rfl := Except.ok.inj h
      rw [decide_eq_true_iff, roundResult_le_zpow_iff hk (abs_nonneg _)]
      constructor
      · exact fun hle => ⟨x, y, rfl, rfl, hle⟩
      · rintro ⟨_, _, ⟨⟩, ⟨⟩, hle⟩
        exact hle
    · cases h
  · push Not at hfinite
    have hfalse : c = false := within_of_not_finite h fun x y hxy => hfinite x y hxy.1 hxy.2
    refine iff_of_false (by simp [hfalse]) ?_
    rintro ⟨x, y, ha, hb, -⟩
    exact hfinite x y ha hb

/-- Numbers of ordinary size can be compared. -/
theorem within_of_le (t : ℚ) (hx : |x| ≤ 10 ^ (maxExponent - 1)) (hy : |y| ≤ 10 ^ (maxExponent - 1)) :
    ∃ c, within (.finite t) (.finite x) (.finite y) = .ok c := by
  have hdiff : |x - y| ≤ 10 ^ maxExponent := by
    have hsplit : (10 : ℚ) ^ maxExponent = 10 ^ (maxExponent - 1) * 10 := by
      rw [← zpow_add_one₀ (by norm_num), sub_add_cancel]
    have hsum : |x - y| ≤ |x| + |y| := abs_sub x y
    have hpos : (0 : ℚ) < 10 ^ (maxExponent - 1) := zpow_pos (by norm_num) _
    linarith
  have hhalf : (0 : ℚ) < 10 ^ (maxExponent - 27) / 2 := half_pos (zpow_pos (by norm_num) _)
  have hround : roundResult |x - y| ≤ 10 ^ maxExponent :=
    (roundResult_le_zpow_iff (by decide) (abs_nonneg _)).mpr (by linarith)
  have hlog : Int.log 10 (roundResult |x - y|) ≤ maxExponent := by
    obtain hzero | hpos := (roundResult_nonneg (x - y)).eq_or_lt
    · rw [← hzero, Int.log_zero_right]
      decide
    · calc Int.log 10 (roundResult |x - y|)
          ≤ Int.log 10 ((10 : ℚ) ^ maxExponent) := Int.log_mono_right hpos hround
        _ = maxExponent := by exact_mod_cast Int.log_zpow (R := ℚ) (by norm_num : 1 < 10) maxExponent
  exact ⟨_, (within_finite t x y).trans (if_pos hlog)⟩

end DecimalValue

end TdSandboxed.Lib
