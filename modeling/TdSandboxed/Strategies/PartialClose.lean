/-
TdSandboxed.Strategies.PartialClose — the partial close of a position
(`_close_partial` of `strategies/base_strategy.py`).

`make_qty` is Nautilus code and a parameter: it rounds to the size precision
of the instrument, to the nearest value, and raises for a positive value
that would be rounded to zero. Quantities and the size increment are whole
numbers of units of that precision, as Nautilus builds them.

The amount is capped before it is rounded. One lot step always stays open
(`quantity_le_safeMax`), because the cap is on the grid and rounding to the
nearest does not cross it.
-/
import TdSandboxed.Strategies.BracketScaleOut

namespace TdSandboxed

/-! ## Rounding to a grid -/

/-- `r` is a multiple of the unit, and none is nearer to `v`. -/
structure RoundsTo (unit v r : ℚ) : Prop where
  grid : ∃ k : ℤ, r = k * unit
  near : |r - v| ≤ unit / 2

namespace RoundsTo

variable {unit v r : ℚ}

/-- Rounding does not cross a multiple of the unit. -/
theorem le_of_le (h : RoundsTo unit v r) (hunit : 0 < unit) {j : ℤ} (hv : v ≤ j * unit) :
    r ≤ j * unit := by
  obtain ⟨k, rfl⟩ := h.grid
  have hnear := (abs_le.mp h.near).2
  have hk : (k : ℚ) < j + 1 := by
    by_contra hge
    have hmul := mul_le_mul_of_nonneg_right (not_lt.mp hge) hunit.le
    linarith
  have hkj : k ≤ j := by
    have : k < j + 1 := by exact_mod_cast hk
    omega
  exact mul_le_mul_of_nonneg_right (by exact_mod_cast hkj) hunit.le

/-- Nothing negative comes from a positive value. -/
theorem nonneg (h : RoundsTo unit v r) (hunit : 0 < unit) (hv : 0 < v) : 0 ≤ r := by
  obtain ⟨k, rfl⟩ := h.grid
  have hnear := (abs_le.mp h.near).1
  have hk : (-1 : ℚ) < k := by
    by_contra hle
    have hmul := mul_le_mul_of_nonneg_right (not_lt.mp hle) hunit.le
    linarith
  have hk0 : 0 ≤ k := by
    have : -1 < k := by exact_mod_cast hk
    omega
  exact mul_nonneg (by exact_mod_cast hk0) hunit.le

end RoundsTo

/-! ## Instruments and positions -/

structure SizedInstrument where
  sizePrecision : ℕ
  sizeIncrement : ℚ
  sizeIncrement_pos : 0 < sizeIncrement
  /-- The increment has the size precision. -/
  sizeIncrement_grid : ∃ k : ℤ, sizeIncrement = k * (1 / 10 ^ sizePrecision)

namespace SizedInstrument

/-- The least quantity of the size precision. -/
def unit (i : SizedInstrument) : ℚ := 1 / 10 ^ i.sizePrecision

theorem unit_pos (i : SizedInstrument) : 0 < i.unit := by
  unfold unit
  positivity

/-- What is known of `make_qty`. -/
structure MakesQty (i : SizedInstrument) (makeQty : ℚ → Except PyException ℚ) : Prop where
  rounds : ∀ {v r}, makeQty v = .ok r → RoundsTo i.unit v r
  /-- A positive value that is rounded to zero raises. -/
  refuses : ∀ {v}, 0 < v → makeQty v ≠ .ok 0

/-- A `make_qty` that rounds halves up. -/
def makeQty (i : SizedInstrument) (value : ℚ) : Except PyException ℚ :=
  let rounded := round (value / i.unit) * i.unit
  if 0 < value ∧ rounded = 0 then .error (.valueError "a positive value was rounded to zero")
  else .ok rounded

theorem roundsTo_round (i : SizedInstrument) (v : ℚ) :
    RoundsTo i.unit v (round (v / i.unit) * i.unit) := by
  refine ⟨⟨_, rfl⟩, ?_⟩
  have hnear := mul_le_mul_of_nonneg_right (abs_sub_round (v / i.unit)) i.unit_pos.le
  have hscale : (round (v / i.unit) : ℚ) * i.unit - v =
      -((v / i.unit - round (v / i.unit)) * i.unit) := by
    rw [sub_mul, div_mul_cancel₀ v i.unit_pos.ne']
    ring
  rw [hscale, abs_neg, abs_mul, abs_of_pos i.unit_pos]
  linarith

theorem makesQty_makeQty (i : SizedInstrument) : i.MakesQty i.makeQty where
  rounds := by
    intro v r h
    simp only [makeQty] at h
    split at h
    · cases h
    · obtain rfl := Except.ok.inj h
      exact i.roundsTo_round v
  refuses := by
    intro v hv h
    simp only [makeQty] at h
    split at h
    · cases h
    · rename_i hzero
      exact hzero ⟨hv, Except.ok.inj h⟩

end SizedInstrument

inductive PositionSide
  | long
  | short
  deriving DecidableEq

/-- The side that closes a position. -/
def PositionSide.closing : PositionSide → OrderSide
  | .long => .sell
  | .short => .buy

/-- A position of a strategy. -/
structure OpenPosition (i : SizedInstrument) where
  side : PositionSide
  quantity : ℚ
  quantity_pos : 0 < quantity
  quantity_grid : ∃ k : ℤ, quantity = k * i.unit

/-- A market order that only reduces. -/
structure ReduceOrder where
  side : OrderSide
  quantity : ℚ
  deriving DecidableEq

/-! ## The partial close -/

variable {i : SizedInstrument}

/-- `_close_partial`: the order it submits, if any. -/
def submitPartialClose (makeQty : ℚ → Except PyException ℚ) (position : Option (OpenPosition i))
    (fraction : ℚ) : Except PyException (Option ReduceOrder) :=
  if ¬ (0 < fraction ∧ fraction < 1) then
    .error (.valueError
      s!"fraction must be in (0, 1), got {BracketStrategyConfig.decimalText fraction}")
  else
    match position with
    | none => .ok none
    | some p =>
      let targetQty := p.quantity * fraction
      -- one lot step stays open
      let safeMax := p.quantity - i.sizeIncrement
      let qtyToClose := min targetQty safeMax
      if qtyToClose ≤ 0 then .ok none
      else do
        let quantity ← makeQty qtyToClose
        return some { side := p.side.closing, quantity }

/-- An order that is submitted closes a part and leaves a lot step open. -/
def StaysPartial (position : Option (OpenPosition i))
    (result : Except PyException (Option ReduceOrder)) : Prop :=
  ∀ order, result = .ok (some order) → ∃ p ∈ position, order.side = p.side.closing ∧
    0 < order.quantity ∧ order.quantity < p.quantity ∧
    i.sizeIncrement ≤ p.quantity - order.quantity

section Submit
variable {makeQty : ℚ → Except PyException ℚ} {position : Option (OpenPosition i)} {fraction : ℚ}
  {order : ReduceOrder}

/-- When an order is submitted, and what it is for. -/
theorem submitPartialClose_eq_some :
    submitPartialClose makeQty position fraction = .ok (some order) ↔
      (0 < fraction ∧ fraction < 1) ∧ ∃ p ∈ position, i.sizeIncrement < p.quantity ∧
        makeQty (min (p.quantity * fraction) (p.quantity - i.sizeIncrement)) =
          .ok order.quantity ∧ order.side = p.side.closing := by
  unfold submitPartialClose
  by_cases hf : 0 < fraction ∧ fraction < 1
  · rw [if_neg (not_not.mpr hf), and_iff_right hf]
    cases position with
    | none => simp
    | some p =>
      have hdue : min (p.quantity * fraction) (p.quantity - i.sizeIncrement) ≤ 0 ↔
          ¬ i.sizeIncrement < p.quantity := by
        have htarget : ¬ p.quantity * fraction ≤ 0 := not_le.mpr (mul_pos p.quantity_pos hf.1)
        rw [min_le_iff, or_iff_right htarget, sub_nonpos, not_lt]
      simp only [Option.mem_some_iff, exists_eq_left']
      by_cases hstep : i.sizeIncrement < p.quantity
      · rw [if_neg fun hle => hdue.mp hle hstep, and_iff_right hstep]
        cases makeQty (min (p.quantity * fraction) (p.quantity - i.sizeIncrement)) with
        | error e => simp [bind, Except.bind]
        | ok q =>
          obtain ⟨side, quantity⟩ := order
          simp only [bind, Except.bind, pure, Except.pure, Except.ok.injEq, Option.some.injEq,
            ReduceOrder.mk.injEq]
          rw [and_comm, @eq_comm _ side]
      · rw [if_pos (hdue.mpr hstep)]
        simp [hstep]
  · rw [if_pos hf]
    simp [hf]

/-- **A lot step stays open**, whatever is closed. -/
theorem quantity_le_safeMax {p : OpenPosition i} {q : ℚ} (hmake : i.MakesQty makeQty)
    (hq : makeQty (min (p.quantity * fraction) (p.quantity - i.sizeIncrement)) = .ok q) :
    q ≤ p.quantity - i.sizeIncrement := by
  obtain ⟨m, hm⟩ := p.quantity_grid
  obtain ⟨n, hn⟩ := i.sizeIncrement_grid
  have hgrid : p.quantity - i.sizeIncrement = ((m - n : ℤ) : ℚ) * i.unit := by
    have hn : i.sizeIncrement = n * i.unit := hn
    rw [hm, hn]
    push_cast
    ring
  rw [hgrid] at hq ⊢
  exact (hmake.rounds hq).le_of_le i.unit_pos (min_le_right _ _)

/-- **What is closed is a part**, and a lot step stays open: an order that is
submitted is for more than nothing and less than the position. -/
theorem staysPartial (i : SizedInstrument) (makeQty : ℚ → Except PyException ℚ)
    (hmake : i.MakesQty makeQty) (position : Option (OpenPosition i)) (fraction : ℚ) :
    StaysPartial position (submitPartialClose makeQty position fraction) := by
  intro order horder
  obtain ⟨⟨h0, -⟩, p, hp, hstep, hq, hside⟩ := submitPartialClose_eq_some.mp horder
  have hdue : 0 < min (p.quantity * fraction) (p.quantity - i.sizeIncrement) :=
    lt_min (mul_pos p.quantity_pos h0) (sub_pos.mpr hstep)
  have hle := quantity_le_safeMax hmake hq
  have hnonneg := (hmake.rounds hq).nonneg i.unit_pos hdue
  have hne : order.quantity ≠ 0 := by
    intro hzero
    rw [hzero] at hq
    exact hmake.refuses hdue hq
  have hinc := i.sizeIncrement_pos
  exact ⟨p, hp, hside, lt_of_le_of_ne hnonneg hne.symm, by linarith, by linarith⟩

theorem hundredth_pos : (0 : ℚ) < 1 / 100 := by norm_num

/-- An instrument with two size decimals and a lot step of 0.01. -/
def centiLots : SizedInstrument where
  sizePrecision := 2
  sizeIncrement := 1 / 100
  sizeIncrement_pos := hundredth_pos
  sizeIncrement_grid := ⟨1, by norm_num⟩

/-- A long position of `k` lot steps. -/
def longSteps (k : ℤ) (hk : 0 < k) : OpenPosition centiLots where
  side := .long
  quantity := k * centiLots.unit
  quantity_pos := mul_pos (by exact_mod_cast hk) centiLots.unit_pos
  quantity_grid := ⟨k, rfl⟩

/-- Two fifths of five lot steps are an order for two of them, and a tenth of
three is refused. -/
theorem staysPartial_twoFifths :
    submitPartialClose centiLots.makeQty (some (longSteps 5 (by decide))) (2 / 5) =
        .ok (some { side := .sell, quantity := 2 / 100 }) ∧
      StaysPartial (some (longSteps 5 (by decide)))
        (submitPartialClose centiLots.makeQty (some (longSteps 5 (by decide))) (2 / 5)) ∧
      StaysPartial (some (longSteps 3 (by decide)))
        (submitPartialClose centiLots.makeQty (some (longSteps 3 (by decide))) (1 / 10)) :=
  ⟨by decide +kernel, staysPartial centiLots centiLots.makeQty centiLots.makesQty_makeQty _ _,
    staysPartial centiLots centiLots.makeQty centiLots.makesQty_makeQty _ _⟩

end Submit

end TdSandboxed
