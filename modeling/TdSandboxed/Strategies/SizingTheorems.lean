/-
TdSandboxed.Strategies.SizingTheorems — the sizer's lots against the lots
sent.

The size the sizer returns is the largest lot that fits the budget, up to a
maximum that may itself be no lot (`calculateLotSize_spec`).

The quantity of a strategy's order is in engine units, contract size times
the lots. `to_internal_order` copies it as the volume, and mt5-bridge, the
position rule and the tracker read a volume as lots. Nobody calls
`units_to_lots` in between, so the lots sent are the sizer's lots times the
contract size. They agree exactly when rounding takes the units back to
the lots, which for units on the instrument's size grid means a contract
size of one (`lots_sent_iff`). No registered symbol has one.
-/
import Mathlib
import TdSandboxed.Engine.DispatchTheorems
import TdSandboxed.Execution.RuleContext
import TdSandboxed.Strategies.Sizing

namespace TdSandboxed

/-! ## The sizer stays in its budget -/

theorem roundTowardsZero_le {q : ℚ} (hq : 0 ≤ q) : (roundTowardsZero q : ℚ) ≤ q := by
  rw [roundTowardsZero, if_pos hq]
  exact Int.floor_le q

namespace RiskBasedSizerConfig

/-- A size is never rounded up. -/
theorem clamp_le (c : RiskBasedSizerConfig) {raw : ℚ} (hraw : 0 ≤ raw) : c.clamp raw ≤ raw := by
  have hfloor : (roundTowardsZero (raw / c.lotStep) : ℚ) * c.lotStep ≤ raw := by
    rw [← le_div_iff₀ c.lotStep_pos]
    exact roundTowardsZero_le (div_nonneg hraw c.lotStep_pos.le)
  unfold clamp
  dsimp only
  split
  · exact hraw
  · exact (min_le_left _ _).trans hfloor

/-- A size is only returned from inputs that are all positive. -/
theorem inputs_pos {c : RiskBasedSizerConfig} {balance entry stop contractSize rate : ℚ}
    (h : 0 < c.calculateLotSize balance entry stop contractSize rate) :
    0 < balance ∧ 0 < contractSize ∧ 0 < lossPerLot entry stop contractSize rate ∧
      c.calculateLotSize balance entry stop contractSize rate =
        c.clamp (c.riskAmount balance / lossPerLot entry stop contractSize rate) := by
  unfold calculateLotSize at h ⊢
  split at h
  · exact absurd h (lt_irrefl 0)
  · rename_i hin
    simp only [not_or, not_le] at hin
    dsimp only at h ⊢
    split at h
    · exact absurd h (lt_irrefl 0)
    · rename_i hstop
      have hdist := not_le.mp hstop
      rw [if_neg (by simpa using hin), if_neg hstop]
      exact ⟨hin.1, hin.2.1, mul_pos (mul_pos hdist hin.2.1) hin.2.2, rfl⟩

/-- **The sizer's budget.** The size it returns loses at most the risk
amount at the stop. -/
theorem loss_le_riskAmount {c : RiskBasedSizerConfig} {balance entry stop contractSize rate : ℚ}
    (h : 0 < c.calculateLotSize balance entry stop contractSize rate) :
    lossPerLot entry stop contractSize rate *
        c.calculateLotSize balance entry stop contractSize rate ≤ c.riskAmount balance := by
  obtain ⟨hbal, -, hloss, heq⟩ := inputs_pos h
  have hrisk : 0 ≤ c.riskAmount balance :=
    mul_nonneg hbal.le (div_nonneg c.riskPercent_nonneg (by norm_num))
  have hle := c.clamp_le (div_nonneg hrisk hloss.le)
  rw [heq, mul_comm]
  exact (le_div_iff₀ hloss).mp hle

/-! ## The largest lot -/

variable {c : RiskBasedSizerConfig} {loss risk : ℚ}

/-- A lot within the bounds, on the step and in the budget; no lot at all is
always within the bounds. -/
structure Allows (c : RiskBasedSizerConfig) (loss risk lot : ℚ) : Prop where
  bounds : lot = 0 ∨ c.minLotSize ≤ lot ∧ lot ≤ c.maxLotSize
  step : ∃ k : ℤ, lot = k * c.lotStep
  budget : lot * loss ≤ risk

/-- The budget reaches `k` steps, and they are not below the minimum. -/
def Affords (c : RiskBasedSizerConfig) (loss risk : ℚ) (k : ℤ) : Prop :=
  c.minLotSize ≤ k * c.lotStep ∧ k * c.lotStep * loss ≤ risk

/-- Where the budget reaches beyond the maximum, that is itself a lot. -/
def CapIsLot (c : RiskBasedSizerConfig) (loss risk : ℚ) : Prop :=
  (∃ k : ℤ, c.Affords loss risk k ∧ c.maxLotSize < k * c.lotStep) →
    c.minLotSize ≤ c.maxLotSize ∧ ∃ k : ℤ, c.maxLotSize = k * c.lotStep

/-- The size rounded down to the step. -/
def floored (c : RiskBasedSizerConfig) (raw : ℚ) : ℚ := ⌊raw / c.lotStep⌋ * c.lotStep

theorem clamp_eq {raw : ℚ} (hraw : 0 ≤ raw) :
    c.clamp raw =
      if c.floored raw < c.minLotSize then 0 else min (c.floored raw) c.maxLotSize := by
  unfold clamp floored
  rw [roundTowardsZero, if_pos (div_nonneg hraw c.lotStep_pos.le)]

/-- The rounded size is the last multiple of the step in the budget. -/
theorem mul_loss_le_iff (hloss : 0 < loss) {k : ℤ} :
    k * c.lotStep * loss ≤ risk ↔ k ≤ ⌊risk / loss / c.lotStep⌋ := by
  rw [Int.le_floor, le_div_iff₀ c.lotStep_pos, le_div_iff₀ hloss]

theorem le_floored (hloss : 0 < loss) {k : ℤ} (h : k * c.lotStep * loss ≤ risk) :
    k * c.lotStep ≤ c.floored (risk / loss) := by
  have hk : (k : ℚ) ≤ ⌊risk / loss / c.lotStep⌋ := by exact_mod_cast (mul_loss_le_iff hloss).mp h
  exact mul_le_mul_of_nonneg_right hk c.lotStep_pos.le

theorem floored_mul_loss_le (hloss : 0 < loss) : c.floored (risk / loss) * loss ≤ risk :=
  (mul_loss_le_iff hloss).mpr le_rfl

/-- Nothing is returned exactly when the budget reaches no lot. -/
theorem clamp_eq_zero_iff (hloss : 0 < loss) (hrisk : 0 ≤ risk) :
    c.clamp (risk / loss) = 0 ↔ ¬ ∃ k : ℤ, c.Affords loss risk k := by
  rw [clamp_eq (div_nonneg hrisk hloss.le)]
  split
  · rename_i hmin
    refine iff_of_true rfl ?_
    rintro ⟨k, hk, hbudget⟩
    linarith [le_floored hloss hbudget]
  · rename_i hmin
    have hpos : 0 < min (c.floored (risk / loss)) c.maxLotSize :=
      lt_min (c.minLotSize_pos.trans_le (not_lt.mp hmin)) c.maxLotSize_pos
    refine iff_of_false hpos.ne' fun hnone => hnone ⟨⌊risk / loss / c.lotStep⌋, ?_, ?_⟩
    · exact not_lt.mp hmin
    · exact floored_mul_loss_le hloss

/-- The size is the largest lot, unless the maximum cuts it to no lot. -/
theorem clamp_isGreatest (hloss : 0 < loss) (hrisk : 0 ≤ risk) (hcap : c.CapIsLot loss risk) :
    IsGreatest {lot | c.Allows loss risk lot} (c.clamp (risk / loss)) := by
  -- every lot that is allowed is at most the rounded size
  have hupper : ∀ lot, c.Allows loss risk lot → lot = 0 ∨
      c.minLotSize ≤ lot ∧ lot ≤ c.maxLotSize ∧ lot ≤ c.floored (risk / loss) := by
    rintro lot ⟨hbounds, ⟨k, rfl⟩, hbudget⟩
    exact hbounds.imp_right fun h => ⟨h.1, h.2, le_floored hloss hbudget⟩
  have hfits : c.floored (risk / loss) * loss ≤ risk := floored_mul_loss_le hloss
  rw [clamp_eq (div_nonneg hrisk hloss.le)]
  split
  · rename_i hmin
    refine ⟨⟨.inl rfl, ⟨0, by simp⟩, by simpa using hrisk⟩, fun lot hlot => ?_⟩
    rcases hupper lot hlot with rfl | ⟨hlow, -, hle⟩
    · exact le_rfl
    · linarith
  · rename_i hmin
    have hmin := not_lt.mp hmin
    by_cases hmax : c.floored (risk / loss) ≤ c.maxLotSize
    · rw [min_eq_left hmax]
      refine ⟨⟨.inr ⟨hmin, hmax⟩, ⟨_, rfl⟩, hfits⟩, fun lot hlot => ?_⟩
      rcases hupper lot hlot with rfl | ⟨-, -, hle⟩
      · exact c.minLotSize_pos.le.trans hmin
      · exact hle
    · have hmax := not_le.mp hmax
      obtain ⟨hle, hstep⟩ := hcap ⟨_, ⟨hmin, hfits⟩, hmax⟩
      rw [min_eq_right hmax.le]
      refine ⟨⟨.inr ⟨hle, le_rfl⟩, hstep, ?_⟩, fun lot hlot => ?_⟩
      · exact (mul_le_mul_of_nonneg_right hmax.le hloss.le).trans hfits
      · rcases hupper lot hlot with rfl | ⟨-, hcapped, -⟩
        · exact c.maxLotSize_pos.le
        · exact hcapped

/-- Inputs a size can be computed from. -/
def WellFormed (balance entry stop contractSize rate : ℚ) : Prop :=
  0 < balance ∧ 0 < contractSize ∧ 0 < rate ∧ entry ≠ stop

theorem calculateLotSize_of_not_wellFormed {balance entry stop contractSize rate : ℚ}
    (h : ¬ WellFormed balance entry stop contractSize rate) :
    c.calculateLotSize balance entry stop contractSize rate = 0 := by
  unfold calculateLotSize
  split
  · rfl
  · rename_i hin
    simp only [not_or, not_le] at hin
    have heq : entry = stop := by
      by_contra hne
      exact h ⟨hin.1, hin.2.1, hin.2.2, hne⟩
    simp [heq]

theorem WellFormed.calculateLotSize {balance entry stop contractSize rate : ℚ}
    (h : WellFormed balance entry stop contractSize rate) (c : RiskBasedSizerConfig) :
    0 < lossPerLot entry stop contractSize rate ∧ 0 ≤ c.riskAmount balance ∧
      c.calculateLotSize balance entry stop contractSize rate =
        c.clamp (c.riskAmount balance / lossPerLot entry stop contractSize rate) := by
  obtain ⟨hbalance, hsize, hrate, hne⟩ := h
  have hdist : 0 < |entry - stop| := abs_pos.mpr (sub_ne_zero.mpr hne)
  refine ⟨mul_pos (mul_pos hdist hsize) hrate,
    mul_nonneg hbalance.le (div_nonneg c.riskPercent_nonneg (by norm_num)), ?_⟩
  unfold RiskBasedSizerConfig.calculateLotSize
  rw [if_neg (by simp [hbalance, hsize, hrate]), if_neg (not_le.mpr hdist)]
  rfl

/-- **What the sizer returns.** Nothing from malformed inputs; else a lot
within the maximum and the budget, nothing only when no lot fits, and the
largest lot unless the maximum is no lot and cuts it. -/
theorem calculateLotSize_spec (c : RiskBasedSizerConfig)
    (balance entry stop contractSize rate : ℚ) :
    let lot := c.calculateLotSize balance entry stop contractSize rate
    let loss := lossPerLot entry stop contractSize rate
    let risk := c.riskAmount balance
    (¬ WellFormed balance entry stop contractSize rate ∧ lot = 0) ∨
      (WellFormed balance entry stop contractSize rate ∧
        lot ≤ c.maxLotSize ∧ lot * loss ≤ risk ∧
        (lot = 0 ↔ ¬ ∃ k : ℤ, c.Affords loss risk k) ∧
        (c.CapIsLot loss risk → IsGreatest {l | c.Allows loss risk l} lot)) := by
  by_cases hwell : WellFormed balance entry stop contractSize rate
  · obtain ⟨hloss, hrisk, heq⟩ := hwell.calculateLotSize c
    have hraw := div_nonneg hrisk hloss.le
    refine .inr ⟨hwell, ?_, ?_, ?_, ?_⟩
    · rw [heq, clamp_eq hraw]
      split
      · exact c.maxLotSize_pos.le
      · exact min_le_right _ _
    · rw [heq]
      exact (le_div_iff₀ hloss).mp (c.clamp_le hraw)
    · rw [heq]
      exact clamp_eq_zero_iff hloss hrisk
    · rw [heq]
      exact clamp_isGreatest hloss hrisk
  · exact .inl ⟨hwell, calculateLotSize_of_not_wellFormed hwell⟩

/-- Entry and stop are one price, and every lot would be in the budget; a
maximum of 0.25 lots is none for a step of 0.1. -/
theorem calculateLotSize_not_greatest :
    ¬ IsGreatest {l | Allows {} (lossPerLot 2000 2000 100 1) (riskAmount {} 10000) l}
        (calculateLotSize {} 10000 2000 2000 100 1) ∧
      ¬ IsGreatest {l | Allows { maxLotSize := 1 / 4, minLotSize := 1 / 10, lotStep := 1 / 10 }
          (lossPerLot 2000 1999 100 1) (riskAmount {} 10000) l}
        (calculateLotSize { maxLotSize := 1 / 4, minLotSize := 1 / 10, lotStep := 1 / 10 }
          10000 2000 1999 100 1) := by
  constructor
  · intro h
    have hlot : Allows {} (lossPerLot 2000 2000 100 1) (riskAmount {} 10000) (1 / 100) :=
      ⟨.inr (by norm_num), ⟨1, by norm_num⟩, by norm_num [lossPerLot, riskAmount]⟩
    have hzero : calculateLotSize {} 10000 2000 2000 100 1 = 0 := by decide +kernel
    have hle := h.2 hlot
    rw [hzero] at hle
    norm_num at hle
  · intro h
    have hquarter : calculateLotSize
        { maxLotSize := 1 / 4, minLotSize := 1 / 10, lotStep := 1 / 10 } 10000 2000 1999 100 1 =
        1 / 4 := by decide +kernel
    rw [hquarter] at h
    obtain ⟨k, hk⟩ := Allows.step h.1
    have hfive : (2 * k : ℚ) = 5 := by
      dsimp only at hk
      linarith
    have : 2 * k = 5 := by exact_mod_cast hfive
    omega

end RiskBasedSizerConfig

/-! ## What a volume means downstream -/

/-- The order translates to a volume of `lots`, and the position rule and
the tracker take it for that many lots. -/
def CarriesLots (n : NautilusOrder) (account : AccountId) (lots : ℚ) : Prop :=
  ∃ o, toInternalOrder n account = .ok o ∧ o.volume = lots ∧
    (∀ (w : Wiring) (b : Books) (now : ℚ),
      (orderContext w b o now).getD "requested_lots" (.num 0) = .num lots) ∧
    ∀ (t : PnLTracker) (r : OrderResult), r.isFilled → (t.record o r).lots = t.lots + lots

theorem nautilusToInternalSide_toNautilus (side : OrderSide) :
    nautilusToInternalSide side.toNautilus = some side := by
  cases side <;> rfl

/-- Everything downstream reads the quantity as lots. -/
theorem carriesLots_market_iff (ids : OrderIds) (side : OrderSide) (q : ℚ) (account : AccountId)
    {lots : ℚ} (hpos : 0 < lots) : CarriesLots (ids.market side q) account lots ↔ q = lots := by
  constructor
  · rintro ⟨o, ho, hvol, -⟩
    obtain ⟨-, -, -, -, -, hq⟩ := toInternalOrder_ok ho
    exact hq.symm.trans hvol
  · rintro rfl
    obtain ⟨o, ho⟩ := exists_toInternalOrder (n := ids.market side q) account rfl
      (nautilusToInternalSide_toNautilus side) hpos
    have hvol : o.volume = q := (toInternalOrder_ok ho).2.2.2.2.2
    refine ⟨o, ho, hvol, fun w b now => ?_, fun t r hr => ?_⟩
    · rw [← hvol]
      exact orderContext_requestedLots
    · rw [t.lots_record o hr, hvol]

/-! ## Lots chosen and lots sent -/

/-- The bracket entry for the sizer's `lots` carries them, and what it loses
at the stop is within the risk amount. -/
def SizedAgrees (makeQty : ℚ → ℚ) (c : RiskBasedSizerConfig) (spec : ContractSpec)
    (balance entry stop rate lots : ℚ) (ids : OrderIds) (side : OrderSide) (account : AccountId) :
    Prop :=
  ∃ q n, sizeFromRisk c spec balance entry stop = .ok q ∧
    submitBracketEntry makeQty ids side q = some n ∧ CarriesLots n account lots ∧
    ∀ o, toInternalOrder n account = .ok o →
      lossPerLot entry stop spec.contractSize rate * o.volume ≤ c.riskAmount balance

/-- The order for a `trade_size` of `lots` carries them. -/
def FixedAgrees (makeQty : ℚ → ℚ) (spec : ContractSpec) (lots : ℚ) (ids : OrderIds)
    (side : OrderSide) (account : AccountId) : Prop :=
  CarriesLots (goOrder makeQty ids side spec lots) account lots

theorem sizeFromRisk_ok {c : RiskBasedSizerConfig} {spec : ContractSpec}
    {balance entry stop rate : ℚ} (hrate : spec.quoteToAccountRate entry = .ok rate) :
    sizeFromRisk c spec balance entry stop =
      .ok (c.calculateLotSize balance entry stop spec.contractSize rate * spec.contractSize) := by
  simp [sizeFromRisk, hrate, ContractSpec.lotsToUnits, bind, Except.bind, pure, Except.pure]

/-- **The exact condition.** Either way of building the order, the lots
sent are the lots chosen if and only if rounding takes the units back to
the lots; for units on the size grid that is a contract size of one. -/
theorem lots_sent_iff {makeQty : ℚ → ℚ} {sizeIncrement : ℚ} (hqty : MakesQty makeQty sizeIncrement)
    {c : RiskBasedSizerConfig} {spec : ContractSpec} {balance entry stop rate lots : ℚ}
    (hrate : spec.quoteToAccountRate entry = .ok rate)
    (hlots : c.calculateLotSize balance entry stop spec.contractSize rate = lots) (hpos : 0 < lots)
    (ids : OrderIds) (side : OrderSide) (account : AccountId) :
    (SizedAgrees makeQty c spec balance entry stop rate lots ids side account ↔
        makeQty (lots * spec.contractSize) = lots) ∧
      (FixedAgrees makeQty spec lots ids side account ↔
        makeQty (lots * spec.contractSize) = lots) ∧
      ∀ k : ℤ, lots * spec.contractSize = k * sizeIncrement →
        (makeQty (lots * spec.contractSize) = lots ↔ spec.contractSize = 1) := by
  have hin := RiskBasedSizerConfig.inputs_pos (hlots ▸ hpos)
  have hsize : sizeFromRisk c spec balance entry stop = .ok (lots * spec.contractSize) := by
    rw [sizeFromRisk_ok hrate, hlots]
  have hentry : submitBracketEntry makeQty ids side (lots * spec.contractSize) =
      some (ids.market side (makeQty (lots * spec.contractSize))) :=
    if_neg (not_le.mpr (mul_pos hpos hin.2.1))
  have hcarries := carriesLots_market_iff ids side (makeQty (lots * spec.contractSize)) account hpos
  refine ⟨⟨?_, fun hround => ?_⟩, hcarries, fun k hk => ?_⟩
  · rintro ⟨q, n, hq, hn, hc, -⟩
    obtain rfl := Except.ok.inj (hsize.symm.trans hq)
    obtain rfl := Option.some.inj (hentry.symm.trans hn)
    exact hcarries.mp hc
  · refine ⟨_, _, hsize, hentry, hcarries.mpr hround, fun o ho => ?_⟩
    have hvol : o.volume = lots := (toInternalOrder_ok ho).2.2.2.2.2.trans hround
    have hloss := RiskBasedSizerConfig.loss_le_riskAmount (hlots ▸ hpos)
    rwa [hlots, ← hvol] at hloss
  · -- on the grid the rounding is the identity
    rw [hk, hqty.id_on_grid, ← hk]
    constructor
    · exact fun h => (mul_eq_left₀ hpos.ne').mp h
    · exact fun h => by rw [h, mul_one]

/-- No registered symbol has a contract size of one. -/
theorem contractSize_ne_one : ∀ spec ∈ ContractSpec.specs, spec.contractSize ≠ 1 := by
  decide +kernel

/-! ## One gold trade -/

def goldIds : OrderIds :=
  { strategyId := "EMA-001", symbol := "XAUUSD", clientOrderId := "O-1"
    symbol_ne := goldBuy.symbol_ne, clientOrderId_ne := goldBuy.clientOrderId_ne }

def defaultSizer : RiskBasedSizerConfig := {}

def goldSpec : ContractSpec :=
  { symbol := "XAUUSD", contractSize := 100, pipSize := 1 / 100, baseCurrency := "XAU",
    quoteCurrency := "USD" }

/-- A stop ten dollars away on a balance of 10000: the sizer chooses a
tenth of a lot for a risk of 100. The order sent is for ten lots, which
lose 10000 at the stop. -/
theorem ten_lots_for_a_tenth :
    defaultSizer.calculateLotSize 10000 2000 1990 goldSpec.contractSize 1 = 1 / 10 ∧
      defaultSizer.riskAmount 10000 = 100 ∧
      sizeFromRisk defaultSizer goldSpec 10000 2000 1990 = .ok 10 ∧
      (∃ n o, submitBracketEntry id goldIds .buy 10 = some n ∧
        toInternalOrder n ftmo = .ok o ∧ o.volume = 10 ∧
        lossPerLot 2000 1990 goldSpec.contractSize 1 * o.volume = 10000) ∧
      ¬SizedAgrees id defaultSizer goldSpec 10000 2000 1990 1 (1 / 10) goldIds .buy ftmo := by
  have hrate : goldSpec.quoteToAccountRate 2000 = .ok 1 := by rfl
  have hsize : sizeFromRisk defaultSizer goldSpec 10000 2000 1990 = .ok 10 :=
    (sizeFromRisk_ok hrate).trans (congrArg _ (by decide +kernel))
  have hside : nautilusToInternalSide (goldIds.market .buy 10).side = some .buy := rfl
  obtain ⟨o, ho⟩ := exists_toInternalOrder ftmo rfl hside (by decide +kernel)
  have hvol : o.volume = 10 := (toInternalOrder_ok ho).2.2.2.2.2
  have hentry : submitBracketEntry id goldIds .buy 10 = some (goldIds.market .buy 10) :=
    if_neg (by decide +kernel)
  refine ⟨by decide +kernel, by decide +kernel, hsize, ⟨_, o, hentry, ho, hvol, ?_⟩, ?_⟩
  · rw [hvol]
    decide +kernel
  · rintro ⟨q, n, hq, hn, ⟨o', ho', htenth, -⟩, -⟩
    obtain rfl := Except.ok.inj (hsize.symm.trans hq)
    obtain rfl := Option.some.inj (hentry.symm.trans hn)
    obtain rfl := Except.ok.inj (ho.symm.trans ho')
    rw [hvol] at htenth
    exact absurd htenth (by decide +kernel)

/-- A contract of one unit a lot: the tenth of a lot is sent as a tenth. -/
theorem lots_sent_one_unit :
    SizedAgrees id defaultSizer { goldSpec with contractSize := 1 } 100 2000 1990 1 (1 / 10)
      goldIds .buy ftmo := by
  have hqty : MakesQty id (1 / 100) := ⟨fun _ => rfl⟩
  have hrate : ({ goldSpec with contractSize := 1 } : ContractSpec).quoteToAccountRate 2000 = .ok 1 :=
    rfl
  have hlots : defaultSizer.calculateLotSize 100 2000 1990 1 1 = 1 / 10 := by
    decide +kernel
  obtain ⟨hsized, -, hgrid⟩ :=
    lots_sent_iff hqty hrate hlots (by decide +kernel) goldIds .buy ftmo
  exact hsized.mpr ((hgrid 10 (by decide +kernel)).mpr rfl)

end TdSandboxed
