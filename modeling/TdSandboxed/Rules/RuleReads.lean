/-
TdSandboxed.Rules.RuleReads — which keys a rule reads, and when it blocks.

A rule looks at a context through a few keys with defaults. `validate_congr`
says so: two contexts with the same values there get the same answer. The
types share no key, so a context can be made for one type that no other
type blocks (`not_blocks_of_absent`).

The `blocks_…` lemmas take BLOCK down to the number each rule compares.
-/
import TdSandboxed.Rules.Parser

namespace TdSandboxed

open Lib

/-- The keys a rule of this type may look at. -/
def RuleType.keys : RuleType → List String
  | .dailyLossLimit => ["daily_pnl_percent"]
  | .maxDrawdown => ["total_drawdown_percent", "initial_balance", "current_equity"]
  | .maxPositionSize => ["requested_lots", "current_position_lots", "account_balance"]
  | .consistency => ["current_day_pnl", "daily_profits_history"]
  | .profitTarget => ["total_pnl_percent"]
  | .minTradingDays => ["trading_days_count"]
  | .weeklyTarget => ["weekly_pnl_percent"]
  | .newsBlackout => ["symbol", "now"]

/-- Two contexts look alike to whoever reads these keys. -/
def AgreeOn (keys : List String) (c c' : Dict) : Prop := ∀ k ∈ keys, c.get? k = c'.get? k

namespace AgreeOn

theorem getD {keys : List String} {c c' : Dict} (h : AgreeOn keys c c') {k : String}
    (hk : k ∈ keys) (default : Value) : c.getD k default = c'.getD k default := by
  rw [Dict.getD, Dict.getD, h k hk]

end AgreeOn

variable {services : Services} {context context' : Dict}

/-- **A rule reads nothing but its keys.** -/
theorem ParsedRule.validate_congr (r : ParsedRule) (h : AgreeOn r.ruleType.keys context context') :
    r.validate services context = r.validate services context' := by
  cases r with
  | dailyLossLimit r =>
    show r.validate context = r.validate context'
    unfold DailyLossLimitRule.validate
    rw [h.getD (by simp [ruleType, RuleType.keys])]
  | maxDrawdown r =>
    have hdrawdown : r.computeDrawdownPercent context = r.computeDrawdownPercent context' := by
      unfold MaxDrawdownRule.computeDrawdownPercent
      rw [h.getD (k := "total_drawdown_percent") (by simp [ruleType, RuleType.keys]),
        h.getD (k := "initial_balance") (by simp [ruleType, RuleType.keys]),
        h.getD (k := "current_equity") (by simp [ruleType, RuleType.keys])]
    show r.validate context = r.validate context'
    unfold MaxDrawdownRule.validate
    rw [hdrawdown]
  | maxPositionSize r =>
    have hmax : r.calculateEffectiveMax context = r.calculateEffectiveMax context' := by
      unfold MaxPositionSizeRule.calculateEffectiveMax
      rw [h.getD (by simp [ruleType, RuleType.keys])]
    show r.validate context = r.validate context'
    unfold MaxPositionSizeRule.validate
    rw [hmax, h.getD (k := "requested_lots") (by simp [ruleType, RuleType.keys]),
      h.getD (k := "current_position_lots") (by simp [ruleType, RuleType.keys])]
  | consistency r =>
    have hratio : ConsistencyRule.computeRatioPercent context =
        ConsistencyRule.computeRatioPercent context' := by
      unfold ConsistencyRule.computeRatioPercent
      rw [h.getD (k := "current_day_pnl") (by simp [ruleType, RuleType.keys]),
        h.getD (k := "daily_profits_history") (by simp [ruleType, RuleType.keys])]
    show r.validate context = r.validate context'
    unfold ConsistencyRule.validate
    rw [hratio]
  | profitTarget r =>
    show r.validate context = r.validate context'
    unfold ProfitTargetRule.validate
    rw [h.getD (by simp [ruleType, RuleType.keys])]
  | minTradingDays r =>
    show r.validate context = r.validate context'
    unfold MinTradingDaysRule.validate
    rw [h.getD (by simp [ruleType, RuleType.keys])]
  | weeklyTarget r =>
    show r.validate context = r.validate context'
    unfold WeeklyTargetRule.validate
    rw [h.getD (by simp [ruleType, RuleType.keys])]
  | newsBlackout r =>
    show r.validate services context = r.validate services context'
    unfold NewsBlackoutRule.validate NewsBlackoutRule.resolveNow NewsBlackoutRule.symbolOf
    rw [h.getD (k := "now") (by simp [ruleType, RuleType.keys]),
      h.getD (k := "symbol") (by simp [ruleType, RuleType.keys])]

/-! ## Blocking -/

/-- The rule answers BLOCK in this context. -/
def ParsedRule.Blocks (services : Services) (r : ParsedRule) (context : Dict) : Prop :=
  ∃ result, r.validate services context = .ok result ∧ result.action = .block

/-- Reading a number and answering by it. -/
theorem blocks_bind_iff {α : Type} {read : Except PyException α} {answer : α → RuleResult} :
    (∃ result, (read >>= fun x => .ok (answer x)) = .ok result ∧ result.action = .block) ↔
      ∃ x, read = .ok x ∧ (answer x).action = .block := by
  constructor
  · rintro ⟨result, h, hblock⟩
    obtain ⟨x, hx, h⟩ := bind_eq_ok.mp h
    exact ⟨x, hx, by rwa [Except.ok.inj h]⟩
  · rintro ⟨x, hx, hblock⟩
    exact ⟨answer x, bind_eq_ok.mpr ⟨x, hx, rfl⟩, hblock⟩

theorem blocks_dailyLossLimit_iff {r : DailyLossLimitRule} :
    (ParsedRule.dailyLossLimit r).Blocks services context ↔
      ∃ p, (context.getD "daily_pnl_percent" (.num 0)).toNum = .ok p ∧
        0 < -p ∧ r.thresholdPercent ≤ -p := by
  refine blocks_bind_iff.trans (exists_congr fun p => and_congr_right fun _ => ?_)
  exact percentLimit_block_iff

theorem blocks_maxDrawdown_iff {r : MaxDrawdownRule} :
    (ParsedRule.maxDrawdown r).Blocks services context ↔
      ∃ x, r.computeDrawdownPercent context = .ok x ∧ 0 < x ∧ r.thresholdPercent ≤ x := by
  refine blocks_bind_iff.trans (exists_congr fun x => and_congr_right fun _ => ?_)
  exact percentLimit_block_iff

theorem blocks_maxPositionSize_iff {r : MaxPositionSizeRule} :
    (ParsedRule.maxPositionSize r).Blocks services context ↔
      ∃ requested current limit,
        (context.getD "requested_lots" (.num 0)).toNum = .ok requested ∧
        (context.getD "current_position_lots" (.num 0)).toNum = .ok current ∧
        r.calculateEffectiveMax context = .ok limit ∧
        0 < requested ∧ limit < |current| + requested := by
  constructor
  · rintro ⟨result, h, hblock⟩
    obtain ⟨requested, hreq, h⟩ := bind_eq_ok.mp h
    obtain ⟨current, hcur, h⟩ := bind_eq_ok.mp h
    obtain ⟨limit, hlimit, h⟩ := bind_eq_ok.mp h
    refine ⟨requested, current, limit, hreq, hcur, hlimit, ?_⟩
    rw [← r.decide_block_iff, Except.ok.inj h]
    exact hblock
  · rintro ⟨requested, current, limit, hreq, hcur, hlimit, hover⟩
    refine ⟨r.decide requested current limit, ?_, (r.decide_block_iff ..).mpr hover⟩
    show r.validate context = _
    unfold MaxPositionSizeRule.validate
    rw [hreq, hcur, hlimit]
    rfl

theorem blocks_consistency_iff {r : ConsistencyRule} :
    (ParsedRule.consistency r).Blocks services context ↔
      ∃ ratio, ConsistencyRule.computeRatioPercent context = .ok ratio ∧ r.blockAt ≤ ratio := by
  refine blocks_bind_iff.trans (exists_congr fun ratio => and_congr_right fun _ => ?_)
  exact r.decide_block_iff ratio

theorem blocks_newsBlackout_iff {r : NewsBlackoutRule} :
    (ParsedRule.newsBlackout r).Blocks services context ↔
      r.InScope (NewsBlackoutRule.symbolOf context) ∧
        ∃ index, services.snapshot = some (some index) ∧
          r.activeEvents index (NewsBlackoutRule.resolveNow services context)
            (NewsBlackoutRule.symbolOf context) ≠ [] := by
  rw [← NewsBlackoutRule.decide_block_iff]
  constructor
  · rintro ⟨result, h, hblock⟩
    rwa [← Except.ok.inj h] at hblock
  · intro hblock
    exact ⟨_, rfl, hblock⟩

/-- The targets are there to inform. -/
def RuleType.isInformational : RuleType → Bool
  | .profitTarget | .minTradingDays | .weeklyTarget => true
  | _ => false

theorem not_blocks_of_informational {r : ParsedRule} (h : r.ruleType.isInformational) :
    ¬r.Blocks services context := by
  cases r with
  | profitTarget r =>
    intro hblocks
    obtain ⟨total, _, hblock⟩ := blocks_bind_iff.mp hblocks
    exact r.decide_ne_block total hblock
  | minTradingDays r =>
    intro hblocks
    obtain ⟨count, _, hblock⟩ := blocks_bind_iff.mp hblocks
    exact r.decide_ne_block (pyInt count) hblock
  | weeklyTarget r =>
    rintro ⟨result, hval, hblock⟩
    rw [← Except.ok.inj hval] at hblock
    exact r.decide_ne_block _ hblock
  | _ => cases h

/-- In the empty context, and without a calendar, nothing blocks. -/
theorem not_blocks_empty (r : ParsedRule) (h : r.ruleType = .newsBlackout → services.snapshot = none) :
    ¬r.Blocks services [] := by
  cases r with
  | dailyLossLimit r =>
    rw [blocks_dailyLossLimit_iff]
    rintro ⟨p, hp, hpos, _⟩
    obtain rfl : (0 : ℚ) = p := Except.ok.inj hp
    simp at hpos
  | maxDrawdown r =>
    have hzero : r.computeDrawdownPercent [] = .ok 0 := by
      unfold MaxDrawdownRule.computeDrawdownPercent
      cases r.method <;> rfl
    rw [blocks_maxDrawdown_iff, hzero]
    rintro ⟨x, hx, hpos, _⟩
    obtain rfl := Except.ok.inj hx
    exact lt_irrefl 0 hpos
  | maxPositionSize r =>
    rw [blocks_maxPositionSize_iff]
    rintro ⟨requested, _, _, hreq, _, _, hpos, _⟩
    obtain rfl : (0 : ℚ) = requested := Except.ok.inj hreq
    exact lt_irrefl 0 hpos
  | consistency r =>
    rw [blocks_consistency_iff]
    rintro ⟨ratio, hratio, hle⟩
    obtain rfl : (0 : ℚ) = ratio := Except.ok.inj hratio
    exact hle.not_gt r.blockAt_pos
  | profitTarget r => exact not_blocks_of_informational rfl
  | minTradingDays r => exact not_blocks_of_informational rfl
  | weeklyTarget r => exact not_blocks_of_informational rfl
  | newsBlackout r =>
    rw [blocks_newsBlackout_iff, h rfl]
    rintro ⟨_, index, hindex, _⟩
    cases hindex

/-- **A rule none of whose keys is there does not block.** -/
theorem not_blocks_of_absent {r : ParsedRule} (hkeys : ∀ k ∈ r.ruleType.keys, context.get? k = none)
    (hnews : r.ruleType = .newsBlackout → services.snapshot = none) :
    ¬r.Blocks services context := by
  have hagree : AgreeOn r.ruleType.keys context [] := fun k hk => hkeys k hk
  unfold ParsedRule.Blocks
  rw [r.validate_congr hagree]
  exact not_blocks_empty r hnews

theorem RuleType.keys_disjoint {t t' : RuleType} (h : t ≠ t') : ∀ k ∈ t.keys, k ∉ t'.keys := by
  cases t <;> cases t' <;> first | exact absurd rfl h | decide +kernel

theorem Dict.get?_eq_none {context : Dict} {k : String} (h : ∀ p ∈ context, p.1 ≠ k) :
    context.get? k = none := by
  induction context with
  | nil => rfl
  | cons p rest ih =>
    obtain ⟨k', v⟩ := p
    rw [Dict.get?_cons, if_neg (h (k', v) List.mem_cons_self)]
    exact ih fun q hq => h q (List.mem_cons_of_mem _ hq)

/-- **A context made of the keys of one type is out of sight of the
others**, which need a calendar at least. -/
theorem not_blocks_of_other_type {t : RuleType} {other : ParsedRule}
    (hcontext : ∀ p ∈ context, p.1 ∈ t.keys)
    (hservices : t ≠ .newsBlackout → services.snapshot = none) (hother : other.ruleType ≠ t) :
    ¬other.Blocks services context := by
  refine not_blocks_of_absent (fun k hk => Dict.get?_eq_none ?_) ?_
  · intro p hp heq
    exact RuleType.keys_disjoint hother k hk (heq ▸ hcontext p hp)
  · intro hnews
    exact hservices fun ht => hother (hnews.trans ht.symm)

end TdSandboxed
