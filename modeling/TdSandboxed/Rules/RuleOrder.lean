/-
TdSandboxed.Rules.RuleOrder — when one rule blocks all that another of its
type blocks.

A lower number alone makes a daily-loss or a consistency rule tighter. For
the other blocking types more decides: the method of a drawdown rule, the
scaling of a position rule, and everything in the configuration of a
blackout. Each `…_tighter` lemma has its `separates_…` counterpart, which
builds a context that only the first rule blocks, and that no rule of
another type can see.
-/
import TdSandboxed.Rules.RuleReads

namespace TdSandboxed

open Lib

variable {services : Services} {context : Dict}

/-- What the one blocks the other blocks too. -/
def ParsedRule.Tighter (r r' : ParsedRule) : Prop :=
  ∀ services context, r.Blocks services context → r'.Blocks services context

/-- A context blocked by `r`, not by `r'`, and out of sight of every rule of
another type. -/
def ParsedRule.Separates (r r' : ParsedRule) : Prop :=
  ∃ services context, r.Blocks services context ∧ ¬r'.Blocks services context ∧
    ∀ other : ParsedRule, other.ruleType ≠ r.ruleType → ¬other.Blocks services context

theorem dailyLossLimit_tighter {r r' : DailyLossLimitRule}
    (h : r'.thresholdPercent ≤ r.thresholdPercent) :
    (ParsedRule.dailyLossLimit r).Tighter (.dailyLossLimit r') := by
  intro services context hblocks
  obtain ⟨p, hp, hpos, hle⟩ := blocks_dailyLossLimit_iff.mp hblocks
  exact blocks_dailyLossLimit_iff.mpr ⟨p, hp, hpos, h.trans hle⟩

theorem consistency_tighter {r r' : ConsistencyRule} (h : r'.blockAt ≤ r.blockAt) :
    (ParsedRule.consistency r).Tighter (.consistency r') := by
  intro services context hblocks
  obtain ⟨ratio, hratio, hle⟩ := blocks_consistency_iff.mp hblocks
  exact blocks_consistency_iff.mpr ⟨ratio, hratio, h.trans hle⟩

/-! ## Drawdown -/

theorem maxDrawdown_tighter {r r' : MaxDrawdownRule} (hm : r'.method = r.method)
    (h : r'.thresholdPercent ≤ r.thresholdPercent) :
    (ParsedRule.maxDrawdown r).Tighter (.maxDrawdown r') := by
  intro services context hblocks
  obtain ⟨x, hx, hpos, hle⟩ := blocks_maxDrawdown_iff.mp hblocks
  have hsame : r'.computeDrawdownPercent context = r.computeDrawdownPercent context := by
    unfold MaxDrawdownRule.computeDrawdownPercent
    rw [hm]
  exact blocks_maxDrawdown_iff.mpr ⟨x, hsame.trans hx, hpos, h.trans hle⟩

/-- A drawdown of the one method that the other does not see tells the two
apart. -/
theorem separates_of_drawdown {r r' : MaxDrawdownRule} {context : Dict}
    (hkeys : ∀ p ∈ context, p.1 ∈ RuleType.maxDrawdown.keys)
    (hr : r.computeDrawdownPercent context = .ok (max r.thresholdPercent 1))
    (hr' : r'.computeDrawdownPercent context = .ok 0) :
    (ParsedRule.maxDrawdown r).Separates (.maxDrawdown r') := by
  refine ⟨{ clock := 0 }, context, ?_, ?_, ?_⟩
  · exact blocks_maxDrawdown_iff.mpr ⟨_, hr, lt_max_of_lt_right one_pos, le_max_left _ _⟩
  · rw [blocks_maxDrawdown_iff, hr']
    rintro ⟨x, hx, hpos, _⟩
    obtain rfl := Except.ok.inj hx
    exact lt_irrefl 0 hpos
  · intro other hother
    exact not_blocks_of_other_type hkeys (fun _ => rfl) hother

/-- The two methods measure different keys. -/
theorem separates_maxDrawdown {r r' : MaxDrawdownRule} (hm : r'.method ≠ r.method) :
    (ParsedRule.maxDrawdown r).Separates (.maxDrawdown r') := by
  cases hr : r.method with
  | equityPeak =>
    cases hr' : r'.method with
    | equityPeak => exact absurd (hr'.trans hr.symm) hm
    | balanceBased =>
      refine @separates_of_drawdown r r'
        [("total_drawdown_percent", .num (max r.thresholdPercent 1))] (by simp [RuleType.keys]) ?_ ?_
      · rw [MaxDrawdownRule.computeDrawdownPercent_equityPeak hr]
        rfl
      · rw [MaxDrawdownRule.computeDrawdownPercent_balanceBased hr' rfl]
        rfl
  | balanceBased =>
    cases hr' : r'.method with
    | equityPeak =>
      have hpos : (0 : ℚ) < max r.thresholdPercent 1 := lt_max_of_lt_right one_pos
      refine @separates_of_drawdown r r' [("initial_balance", .num 100),
        ("current_equity", .num (100 - max r.thresholdPercent 1))] (by simp [RuleType.keys]) ?_ ?_
      · rw [MaxDrawdownRule.computeDrawdownPercent_balanceBased hr rfl, if_neg (by norm_num)]
        show Except.ok (fallFrom 100 (100 - max r.thresholdPercent 1)) = _
        rw [fallFrom_of_le (by linarith), percentOf, if_pos (by norm_num)]
        congr 1
        ring
      · rw [MaxDrawdownRule.computeDrawdownPercent_equityPeak hr']
        rfl
    | balanceBased => exact absurd (hr'.trans hr.symm) hm

/-! ## Position size -/

theorem effectiveMaxAt_mono {r r' : MaxPositionSizeRule} (h : r'.maxLots ≤ r.maxLots) (balance : ℚ) :
    r'.effectiveMaxAt balance ≤ r.effectiveMaxAt balance := by
  unfold MaxPositionSizeRule.effectiveMaxAt
  split
  · exact h
  · rename_i hb
    have hpos : 0 < balance := not_le.mp hb
    gcongr

/-- Under the same scaling, fewer lots are a lower limit. -/
theorem calculateEffectiveMax_le {r r' : MaxPositionSizeRule} (hs : r'.scaling = r.scaling)
    (h : r'.maxLots ≤ r.maxLots) {limit : ℚ} (hlimit : r.calculateEffectiveMax context = .ok limit) :
    ∃ limit', r'.calculateEffectiveMax context = .ok limit' ∧ limit' ≤ limit := by
  unfold MaxPositionSizeRule.calculateEffectiveMax at hlimit ⊢
  rw [hs]
  cases hr : r.scaling with
  | fixed =>
    rw [hr] at hlimit
    obtain rfl : r.maxLots = limit := Except.ok.inj hlimit
    exact ⟨r'.maxLots, rfl, h⟩
  | per10kBalance =>
    rw [hr] at hlimit
    obtain ⟨balance, hbalance, hlimit⟩ := bind_eq_ok.mp hlimit
    obtain rfl : r.effectiveMaxAt balance = limit := Except.ok.inj hlimit
    exact ⟨r'.effectiveMaxAt balance, bind_eq_ok.mpr ⟨balance, hbalance, rfl⟩,
      effectiveMaxAt_mono h balance⟩

theorem maxPositionSize_tighter {r r' : MaxPositionSizeRule} (h : r'.maxLots ≤ r.maxLots)
    (hs : r'.scaling = r.scaling ∨ r'.scaling = .fixed ∧ r'.maxLots ≤ 0) :
    (ParsedRule.maxPositionSize r).Tighter (.maxPositionSize r') := by
  intro services context hblocks
  obtain ⟨requested, current, limit, hreq, hcur, hlimit, hpos, hover⟩ :=
    blocks_maxPositionSize_iff.mp hblocks
  rw [blocks_maxPositionSize_iff]
  obtain hs | ⟨hs, hlots⟩ := hs
  · obtain ⟨limit', hlimit', hle⟩ := calculateEffectiveMax_le hs h hlimit
    exact ⟨requested, current, limit', hreq, hcur, hlimit', hpos, hle.trans_lt hover⟩
  · -- a fixed limit of at most zero stops every request
    refine ⟨requested, current, r'.maxLots, hreq, hcur, ?_, hpos, ?_⟩
    · unfold MaxPositionSizeRule.calculateEffectiveMax
      rw [hs]
    · exact hlots.trans_lt (add_pos_of_nonneg_of_pos (abs_nonneg current) hpos)

/-- A request of `x` lots at this balance. -/
def lotsContext (x : ℚ) (balance : Value) : Dict :=
  [("requested_lots", .num x), ("account_balance", balance)]

theorem blocks_lotsContext_iff {r : MaxPositionSizeRule} {x : ℚ} {balance : Value} :
    (ParsedRule.maxPositionSize r).Blocks services (lotsContext x balance) ↔
      0 < x ∧ ∃ limit, r.calculateEffectiveMax (lotsContext x balance) = .ok limit ∧ limit < x := by
  rw [blocks_maxPositionSize_iff]
  constructor
  · rintro ⟨requested, current, limit, hreq, hcur, hlimit, hpos, hover⟩
    obtain rfl : x = requested := Except.ok.inj hreq
    obtain rfl : 0 = current := Except.ok.inj hcur
    rw [abs_zero, zero_add] at hover
    exact ⟨hpos, limit, hlimit, hover⟩
  · rintro ⟨hpos, limit, hlimit, hover⟩
    refine ⟨x, 0, limit, rfl, rfl, hlimit, hpos, ?_⟩
    rwa [abs_zero, zero_add]

/-- The limit of a fixed rule. -/
theorem calculateEffectiveMax_fixed {r : MaxPositionSizeRule} (h : r.scaling = .fixed) :
    r.calculateEffectiveMax context = .ok r.maxLots := by
  unfold MaxPositionSizeRule.calculateEffectiveMax
  rw [h]

/-- The limit of a scaled rule at a positive balance. -/
theorem calculateEffectiveMax_scaled {r : MaxPositionSizeRule} (h : r.scaling = .per10kBalance)
    {x balance : ℚ} (hb : 0 < balance) :
    r.calculateEffectiveMax (lotsContext x (.num balance)) = .ok (balance / 10000 * r.maxLots) := by
  unfold MaxPositionSizeRule.calculateEffectiveMax
  rw [h]
  show Except.ok (r.effectiveMaxAt balance) = _
  unfold MaxPositionSizeRule.effectiveMaxAt
  rw [if_neg hb.not_ge]

/-- A request that only the first rule stops tells the two apart. -/
theorem separates_of_lotsContext {r r' : MaxPositionSizeRule} {x : ℚ} {balance : Value}
    (hr : (ParsedRule.maxPositionSize r).Blocks { clock := 0 } (lotsContext x balance))
    (hr' : ¬(ParsedRule.maxPositionSize r').Blocks { clock := 0 } (lotsContext x balance)) :
    (ParsedRule.maxPositionSize r).Separates (.maxPositionSize r') := by
  refine ⟨{ clock := 0 }, lotsContext x balance, hr, hr', fun other hother => ?_⟩
  exact not_blocks_of_other_type (by simp [lotsContext, RuleType.keys, ParsedRule.ruleType])
    (fun _ => rfl) hother

/-- One lot more than a fixed rule allows may pass a scaled rule. -/
theorem fixed_separates_scaled {r r' : MaxPositionSizeRule} (hr : r.scaling = .fixed)
    (hr' : r'.scaling = .per10kBalance) :
    (ParsedRule.maxPositionSize r).Separates (.maxPositionSize r') := by
  have hlots : r.maxLots < max r.maxLots 0 + 1 := (le_max_left _ _).trans_lt (lt_add_one _)
  have hpos : 0 < max r.maxLots 0 + 1 := add_pos_of_nonneg_of_pos (le_max_right _ _) one_pos
  have hblocks (balance : Value) : (ParsedRule.maxPositionSize r).Blocks { clock := 0 }
      (lotsContext (max r.maxLots 0 + 1) balance) :=
    blocks_lotsContext_iff.mpr ⟨hpos, r.maxLots, calculateEffectiveMax_fixed hr, hlots⟩
  rcases le_or_gt r'.maxLots 0 with hzero | hzero
  · -- without a balance the scaled rule raises
    refine separates_of_lotsContext (hblocks .none) ?_
    rw [blocks_lotsContext_iff]
    rintro ⟨_, limit, hlimit, _⟩
    unfold MaxPositionSizeRule.calculateEffectiveMax at hlimit
    rw [hr'] at hlimit
    cases hlimit
  · -- at this balance the scaled limit is the request itself
    have hbalance : 0 < 10000 * (max r.maxLots 0 + 1) / r'.maxLots := by positivity
    refine separates_of_lotsContext
      (hblocks (.num (10000 * (max r.maxLots 0 + 1) / r'.maxLots))) ?_
    rw [blocks_lotsContext_iff]
    rintro ⟨_, limit, hlimit, hover⟩
    rw [calculateEffectiveMax_scaled hr' hbalance] at hlimit
    obtain rfl := Except.ok.inj hlimit
    refine hover.ne ?_
    field_simp

/-- All that a fixed rule allows may be too much for a scaled one. -/
theorem scaled_separates_fixed {r r' : MaxPositionSizeRule} (hr : r.scaling = .per10kBalance)
    (hr' : r'.scaling = .fixed) (hlots : 0 < r'.maxLots) (hbase : 0 < r.maxLots) :
    (ParsedRule.maxPositionSize r).Separates (.maxPositionSize r') := by
  -- at this balance the scaled limit is half the fixed one
  have hbalance : 0 < 5000 * r'.maxLots / r.maxLots := by positivity
  have hhalf : 5000 * r'.maxLots / r.maxLots / 10000 * r.maxLots = r'.maxLots / 2 := by
    field_simp
    ring
  refine @separates_of_lotsContext r r' r'.maxLots (.num (5000 * r'.maxLots / r.maxLots)) ?_ ?_
  · refine blocks_lotsContext_iff.mpr ⟨hlots, _, calculateEffectiveMax_scaled hr hbalance, ?_⟩
    rw [hhalf]
    exact half_lt_self hlots
  · rw [blocks_lotsContext_iff]
    rintro ⟨_, limit, hlimit, hover⟩
    rw [calculateEffectiveMax_fixed hr'] at hlimit
    obtain rfl := Except.ok.inj hlimit
    exact lt_irrefl _ hover

theorem separates_maxPositionSize {r r' : MaxPositionSizeRule} (h : r'.maxLots ≤ r.maxLots)
    (hs : ¬(r'.scaling = r.scaling ∨ r'.scaling = .fixed ∧ r'.maxLots ≤ 0)) :
    (ParsedRule.maxPositionSize r).Separates (.maxPositionSize r') := by
  rw [not_or, not_and] at hs
  obtain ⟨hne, hlots⟩ := hs
  cases hr : r.scaling with
  | fixed =>
    cases hr' : r'.scaling with
    | fixed => exact absurd (hr'.trans hr.symm) hne
    | per10kBalance => exact fixed_separates_scaled hr hr'
  | per10kBalance =>
    cases hr' : r'.scaling with
    | fixed =>
      have hpos : 0 < r'.maxLots := not_le.mp (hlots hr')
      exact scaled_separates_fixed hr hr' hpos (hpos.trans_le h)
    | per10kBalance => exact absurd (hr'.trans hr.symm) hne

/-! ## Blackout -/

/-- Every symbol of the one filter passes the other. No filter passes
all. -/
def FilterWithin (filter filter' : Option (List String)) : Prop :=
  ∀ symbols' ∈ filter', ∃ symbols ∈ filter, symbols ⊆ symbols'

/-- A blackout of the one configuration is one of the other. -/
structure NewsBlackoutConfig.Within (c c' : NewsBlackoutConfig) : Prop where
  before : c.blackoutMinutesBefore ≤ c'.blackoutMinutesBefore
  after : c.blackoutMinutesAfter ≤ c'.blackoutMinutesAfter
  levels : c.impactLevels ⊆ c'.impactLevels
  symbols : FilterWithin c.symbolsFilter c'.symbolsFilter

theorem newsBlackout_tighter {r r' : NewsBlackoutRule} (h : r.config.Within r'.config) :
    (ParsedRule.newsBlackout r).Tighter (.newsBlackout r') := by
  intro services context hblocks
  obtain ⟨hscope, index, hindex, hactive⟩ := blocks_newsBlackout_iff.mp hblocks
  refine blocks_newsBlackout_iff.mpr ⟨?_, index, hindex, ?_⟩
  · intro symbols' hsymbols'
    obtain ⟨symbols, hsymbols, hsub⟩ := h.symbols symbols' hsymbols'
    exact hsub (hscope symbols hsymbols)
  · obtain ⟨e, he⟩ := List.exists_mem_of_ne_nil _ hactive
    refine List.ne_nil_of_mem (a := e) (EventIndex.mem_activeEventsAt.mpr ?_)
    obtain ⟨hmem, hfrom, hto, hlevel, hsymbol⟩ := EventIndex.mem_activeEventsAt.mp he
    have hbefore := h.before
    have hafter := h.after
    exact ⟨hmem, by linarith, by linarith, h.levels hlevel, hsymbol⟩

/-- The clock at `now` minutes, and a calendar with one event for every
symbol at zero. -/
def oneEvent (now : ℚ) (impact : String) : Services where
  clock := now * 60
  snapshot := some (some { events := [{ start := 0, impact }], sorted := List.pairwise_singleton _ _ })

theorem blocks_oneEvent_iff {r : NewsBlackoutRule} {now : ℚ} {impact raw : String} :
    (ParsedRule.newsBlackout r).Blocks (oneEvent now impact) [("symbol", .str raw)] ↔
      r.InScope (strip raw) ∧ -r.config.blackoutMinutesBefore ≤ now ∧
        now ≤ r.config.blackoutMinutesAfter ∧ normaliseImpact impact ∈ r.config.impactLevels := by
  have hsymbol : NewsBlackoutRule.symbolOf [("symbol", .str raw)] = strip raw := by
    show strip (if decide (raw ≠ "") = true then raw else "") = strip raw
    by_cases hraw : raw = "" <;> simp [hraw]
  have hnow : NewsBlackoutRule.resolveNow (oneEvent now impact) [("symbol", .str raw)] = now * 60 :=
    rfl
  have hbare : ∀ s ∈ (if strip raw = "" then none else some (strip raw)),
      CalendarEvent.affectsSymbol { start := 0, impact } s := by
    intro s hs
    split at hs
    · cases hs
    · rename_i hne
      obtain rfl := Option.mem_some.mp hs
      exact CalendarEvent.affectsSymbol_bare hne
  rw [blocks_newsBlackout_iff, hsymbol, hnow]
  refine and_congr_right fun _ => ?_
  constructor
  · rintro ⟨index, hindex, hactive⟩
    obtain rfl := Option.some.inj (Option.some.inj hindex)
    obtain ⟨e, he⟩ := List.exists_mem_of_ne_nil _ hactive
    obtain ⟨hmem, hfrom, hto, hlevel, _⟩ := EventIndex.mem_activeEventsAt.mp he
    obtain rfl := List.mem_singleton.mp hmem
    dsimp only at hfrom hto
    exact ⟨by linarith, by linarith, hlevel⟩
  · rintro ⟨hfrom, hto, hlevel⟩
    refine ⟨_, rfl, List.ne_nil_of_mem (a := { start := 0, impact }) ?_⟩
    refine EventIndex.mem_activeEventsAt.mpr ⟨List.mem_singleton.mpr rfl, ?_, ?_, hlevel, hbare⟩
    · show 0 - r.config.blackoutMinutesBefore * 60 ≤ now * 60
      linarith
    · show now * 60 ≤ 0 + r.config.blackoutMinutesAfter * 60
      linarith

theorem normaliseSymbol_ne_empty {raw : String} (h : strip raw ≠ "") : normaliseSymbol raw ≠ "" := by
  intro hupper
  apply h
  have hlist : ((strip raw).map Char.toUpper).toList = [] := by
    show (normaliseSymbol raw).toList = []
    rw [hupper]
    rfl
  rw [String.toList_map, List.map_eq_nil_iff] at hlist
  exact String.toList_inj.mp hlist

/-- Some symbol is in the scope of a rule. -/
theorem exists_inScope (r : NewsBlackoutRule) : ∃ raw, r.InScope (strip raw) := by
  cases hfilter : r.config.symbolsFilter with
  | none =>
    refine ⟨"", fun symbols hsymbols => ?_⟩
    rw [hfilter] at hsymbols
    cases hsymbols
  | some symbols =>
    have hne : symbols ≠ [] := by
      rintro rfl
      exact r.symbolsFilter_ne hfilter
    obtain ⟨s, hs⟩ := List.exists_mem_of_ne_nil symbols hne
    obtain ⟨raw, _, rfl⟩ := r.symbolsFilter_normal symbols hfilter s hs
    refine ⟨raw, fun symbols' hsymbols' => ?_⟩
    rw [hfilter] at hsymbols'
    obtain rfl := Option.mem_some.mp hsymbols'
    exact hs

/-- A filter that is not within another leaves a symbol that only the first
rule is about. -/
theorem exists_inScope_of_not_filterWithin {r r' : NewsBlackoutRule}
    (h : ¬FilterWithin r.config.symbolsFilter r'.config.symbolsFilter) :
    ∃ raw, r.InScope (strip raw) ∧ ¬r'.InScope (strip raw) := by
  simp only [FilterWithin, not_forall, not_exists, not_and] at h
  obtain ⟨symbols', hsymbols', hout⟩ := h
  cases hfilter : r.config.symbolsFilter with
  | none =>
    -- an order without a symbol passes no filter
    refine ⟨"", fun symbols hsymbols => ?_, fun hscope => ?_⟩
    · rw [hfilter] at hsymbols
      cases hsymbols
    · obtain ⟨raw, hraw, hs⟩ :=
        r'.symbolsFilter_normal symbols' hsymbols' _ (hscope symbols' hsymbols')
      exact normaliseSymbol_ne_empty hraw (hs.symm.trans (by decide +kernel))
  | some symbols =>
    obtain ⟨s, hs, hs'⟩ : ∃ s ∈ symbols, s ∉ symbols' := by
      simpa [List.subset_def] using hout symbols hfilter
    obtain ⟨raw, _, rfl⟩ := r.symbolsFilter_normal symbols hfilter s hs
    refine ⟨raw, fun symbols₁ hsymbols₁ => ?_, fun hscope => hs' (hscope symbols' hsymbols')⟩
    rw [hfilter] at hsymbols₁
    obtain rfl := Option.mem_some.mp hsymbols₁
    exact hs

theorem separates_newsBlackout {r r' : NewsBlackoutRule} (h : ¬r.config.Within r'.config) :
    (ParsedRule.newsBlackout r).Separates (.newsBlackout r') := by
  suffices h : ∃ now impact raw,
      (ParsedRule.newsBlackout r).Blocks (oneEvent now impact) [("symbol", .str raw)] ∧
        ¬(ParsedRule.newsBlackout r').Blocks (oneEvent now impact) [("symbol", .str raw)] by
    obtain ⟨now, impact, raw, hr, hr'⟩ := h
    refine ⟨oneEvent now impact, _, hr, hr', fun other hother => ?_⟩
    exact not_blocks_of_other_type (by simp [RuleType.keys]) (fun hne => absurd rfl hne) hother
  simp only [blocks_oneEvent_iff]
  obtain ⟨raw, hraw⟩ := exists_inScope r
  obtain ⟨level, hlevel⟩ := List.exists_mem_of_ne_nil _ r.impactLevels_ne
  obtain ⟨impact, rfl⟩ := r.impactLevels_normal level hlevel
  have hbefore := r.before_nonneg
  have hafter := r.after_nonneg
  by_cases hb : r.config.blackoutMinutesBefore ≤ r'.config.blackoutMinutesBefore
  · by_cases ha : r.config.blackoutMinutesAfter ≤ r'.config.blackoutMinutesAfter
    · by_cases hl : r.config.impactLevels ⊆ r'.config.impactLevels
      · -- the filter it is
        have hf : ¬FilterWithin r.config.symbolsFilter r'.config.symbolsFilter :=
          fun hf => h ⟨hb, ha, hl, hf⟩
        obtain ⟨raw, hin, hout⟩ := exists_inScope_of_not_filterWithin hf
        exact ⟨0, impact, raw, ⟨hin, by linarith, hafter, hlevel⟩, fun hr' => hout hr'.1⟩
      · obtain ⟨level, hlevel, hlevel'⟩ :
            ∃ level ∈ r.config.impactLevels, level ∉ r'.config.impactLevels := by
          simpa [List.subset_def] using hl
        obtain ⟨impact, rfl⟩ := r.impactLevels_normal level hlevel
        exact ⟨0, impact, raw, ⟨hraw, by linarith, hafter, hlevel⟩,
          fun hr' => hlevel' hr'.2.2.2⟩
    · -- the last minute of the window
      refine ⟨r.config.blackoutMinutesAfter, impact, raw, ⟨hraw, by linarith, le_rfl, hlevel⟩, ?_⟩
      intro hr'
      exact ha hr'.2.2.1
  · -- the first minute of the window
    refine ⟨-r.config.blackoutMinutesBefore, impact, raw, ⟨hraw, le_rfl, by linarith, hlevel⟩, ?_⟩
    intro hr'
    exact hb (neg_le_neg_iff.mp hr'.2.1)

end TdSandboxed
