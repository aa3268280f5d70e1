/-
TdSandboxed.Rules.OverrideTheorems — what an account override may loosen.

The merger promises that an account can only tighten the rules of its
phase. Its guard watches one number of four rule types. What those rules do
with the number depends on other fields, and one more type blocks without
any guard.

`overrides_tighten_iff` is the exact condition on the override: the method
of the drawdown rule stays, the scaling of the position rule stays (or the
limit becomes a fixed one that lets nothing through), and the blackout keeps
its windows, its levels and its symbols.
-/
import TdSandboxed.Rules.OverrideMerger
import TdSandboxed.Rules.RuleOrder

namespace TdSandboxed

open Lib

/-! ## The merged specs -/

/-- No type twice, and every spec under its own type. -/
structure Typed (byType : ByType) : Prop where
  nodup : (byType.map Prod.fst).Nodup
  own : ∀ p ∈ byType, p.2.lookup "type" = some (.scalar (.str p.1))

theorem collect_ok {specs : List Spec} {byType byType' : ByType} (ht : Typed byType)
    (h : collect specs byType = .ok byType') : Typed byType' := by
  induction specs generalizing byType with
  | nil =>
    cases h
    exact ht
  | cons spec rest ih =>
    unfold collect at h
    split at h
    · rename_i ruleType htype
      split at h
      · cases h
      · rename_i hfresh
        refine ih ⟨?_, ?_⟩ h
        · rw [List.map_append, List.nodup_append]
          refine ⟨ht.nodup, List.nodup_singleton _, ?_⟩
          rintro a ha b hb rfl
          rw [List.mem_singleton.mp hb] at ha
          exact hfresh ha
        · intro p hp
          obtain hp | hp := List.mem_append.mp hp
          · exact ht.own p hp
          · obtain rfl := List.mem_singleton.mp hp
            exact htype
    · cases h

section Layer

variable {layer : Layer} {overrides : Overrides} {byType byType' : ByType} {p p' : String × Spec}

theorem Overridden.lookup_eq (h : Overridden layer overrides.entries p p') (k : String) :
    p'.2.lookup k = fieldUnder overrides p.1 p.2 k := by
  unfold fieldUnder
  cases hlookup : overrides.entries.lookup p.1 with
  | none => rw [h.untouched hlookup]
  | some o =>
    obtain ⟨m, rfl, hread, _⟩ := h.fields o hlookup
    exact hread k

/-- No override may change the type. -/
theorem Overridden.type_eq (h : Overridden layer overrides.entries p p') :
    p'.2.lookup "type" = p.2.lookup "type" := by
  cases hlookup : overrides.entries.lookup p.1 with
  | none => rw [h.untouched hlookup]
  | some o =>
    obtain ⟨m, rfl, hread, haccept⟩ := h.fields o hlookup
    have hnone : m.entries.lookup "type" = none := by
      rw [← not_mem_keys_iff]
      intro hmem
      obtain ⟨v, hv⟩ := mem_keys_iff.mp hmem
      exact (haccept _ (mem_of_lookup hv)).not_type rfl
    rw [hread, hnone]
    rfl

theorem keys_of_overridden {entries : List (String × OverrideFields)}
    (h : List.Forall₂ (Overridden layer entries) byType byType') :
    byType'.map Prod.fst = byType.map Prod.fst := by
  induction h with
  | nil => rfl
  | cons hab _ ih => rw [List.map_cons, List.map_cons, hab.key, ih]

theorem Typed.overridden (ht : Typed byType)
    (h : List.Forall₂ (Overridden layer overrides.entries) byType byType') : Typed byType' := by
  refine ⟨by rw [keys_of_overridden h]; exact ht.nodup, fun p' hp' => ?_⟩
  obtain ⟨p, hp, hover⟩ := exists_left_of_mem h hp'
  rw [hover.type_eq, hover.key]
  exact ht.own p hp

end Layer

/-- No override at all. -/
def noOverrides : Overrides := {}

/-- **The account layer on top of the phase-resolved specs.** -/
theorem mergeRuleOverrides_ok {product merged base : List Spec} {phase account : Overrides}
    (hbase : mergeRuleOverrides product phase noOverrides = .ok base)
    (hmerged : mergeRuleOverrides product phase account = .ok merged) :
    ∃ byType byType' : ByType, Typed byType ∧ base = byType.map Prod.snd ∧
      merged = byType'.map Prod.snd ∧
      List.Forall₂ (Overridden .account account.entries) byType byType' := by
  obtain ⟨byType₀, hcollect, h⟩ := bind_eq_ok.mp hmerged
  obtain ⟨byType, hphase, h⟩ := bind_eq_ok.mp h
  obtain ⟨byType', haccount, h⟩ := bind_eq_ok.mp h
  obtain rfl := Except.ok.inj h
  have htyped₀ : Typed byType₀ := collect_ok ⟨by simp, by simp⟩ hcollect
  have htyped : Typed byType := htyped₀.overridden (applyLayer_ok htyped₀.nodup hphase)
  refine ⟨byType, byType', htyped, ?_, rfl, applyLayer_ok htyped.nodup haccount⟩
  obtain ⟨byType₁, hcollect₁, hbase⟩ := bind_eq_ok.mp hbase
  obtain rfl := Except.ok.inj (hcollect.symm.trans hcollect₁)
  obtain ⟨byType₂, hphase₂, hbase⟩ := bind_eq_ok.mp hbase
  obtain rfl := Except.ok.inj (hphase.symm.trans hphase₂)
  exact (Except.ok.inj hbase).symm

/-! ## What a rule took from its spec -/

variable {kwargs : Spec}

theorem DailyLossLimitRule.ofKwargs_ok {r : DailyLossLimitRule} (h : ofKwargs kwargs = .ok r) :
    floatField 5 (kwargs.lookup "threshold_percent") = .ok r.thresholdPercent := by
  obtain ⟨threshold, hthreshold, h⟩ := bind_eq_ok.mp h
  obtain ⟨ladder, _, h⟩ := bind_eq_ok.mp h
  obtain rfl := Except.ok.inj h
  exact hthreshold

theorem MaxDrawdownRule.ofKwargs_ok {r : MaxDrawdownRule} (h : ofKwargs kwargs = .ok r) :
    methodField (kwargs.lookup "method") = .ok r.method ∧
      floatField 10 (kwargs.lookup "threshold_percent") = .ok r.thresholdPercent := by
  obtain ⟨method, hmethod, h⟩ := bind_eq_ok.mp h
  obtain ⟨threshold, hthreshold, h⟩ := bind_eq_ok.mp h
  obtain ⟨ladder, _, h⟩ := bind_eq_ok.mp h
  obtain rfl := Except.ok.inj h
  exact ⟨hmethod, hthreshold⟩

theorem MaxPositionSizeRule.ofKwargs_ok {r : MaxPositionSizeRule} (h : ofKwargs kwargs = .ok r) :
    scalingField (kwargs.lookup "scaling") = r.scaling ∧
      floatField 1 (kwargs.lookup "max_lots") = .ok r.maxLots := by
  obtain ⟨lots, hlots, h⟩ := bind_eq_ok.mp h
  obtain ⟨ladder, _, h⟩ := bind_eq_ok.mp h
  obtain rfl := Except.ok.inj h
  exact ⟨rfl, hlots⟩

theorem ConsistencyRule.ofKwargs_ok {r : ConsistencyRule} (h : ofKwargs kwargs = .ok r) :
    floatField 50 (kwargs.lookup "block_at") = .ok r.blockAt := by
  obtain ⟨block, hblock, h⟩ := bind_eq_ok.mp h
  by_cases hb : 0 < block ∧ block ≤ 100
  · rw [dif_pos hb] at h
    obtain ⟨warn, _, h⟩ := bind_eq_ok.mp h
    by_cases hw : ∀ w ∈ warn, w < block
    · rw [dif_pos hw] at h
      obtain rfl := Except.ok.inj h
      exact hblock
    · rw [dif_neg hw] at h
      cases h
  · rw [dif_neg hb] at h
    cases h

theorem NewsBlackoutRule.ofKwargs_ok {r : NewsBlackoutRule} (h : ofKwargs kwargs = .ok r) :
    minutesField (kwargs.lookup "blackout_minutes_before") = .ok r.config.blackoutMinutesBefore ∧
      minutesField (kwargs.lookup "blackout_minutes_after") = .ok r.config.blackoutMinutesAfter ∧
      impactLevelsField (kwargs.lookup "impact_levels") = .ok r.config.impactLevels ∧
      symbolsFilterField (kwargs.lookup "symbols_filter") = .ok r.config.symbolsFilter := by
  obtain ⟨before, hbefore, h⟩ := bind_eq_ok.mp h
  obtain ⟨after, hafter, h⟩ := bind_eq_ok.mp h
  by_cases hwindow : 0 ≤ before ∧ 0 ≤ after
  · rw [dif_pos hwindow] at h
    split at h
    · cases h
    · rename_i levels hlevels
      split at h
      · split at h
        · cases h
        · rename_i filter hfilter
          obtain rfl := Except.ok.inj h
          exact ⟨hbefore, hafter, hlevels, hfilter⟩
      · cases h
  · rw [dif_neg hwindow] at h
    cases h

/-! ## The condition on the override -/

/-- The account override keeps what else decides over blocking, for a spec
of this type. -/
def AccountKeeps (account : Overrides) (spec : Spec) (t : RuleType) : Prop :=
  let old (field : String) := List.lookup field spec
  let new := fieldUnder account t.text spec
  match t with
  | .maxDrawdown => methodField (new "method") = methodField (old "method")
  | .maxPositionSize =>
    scalingField (new "scaling") = scalingField (old "scaling") ∨
      scalingField (new "scaling") = .fixed ∧
        ∀ lots, floatField 1 (new "max_lots") = .ok lots → lots ≤ 0
  | .newsBlackout =>
    (∀ m m', minutesField (old "blackout_minutes_before") = .ok m →
      minutesField (new "blackout_minutes_before") = .ok m' → m ≤ m') ∧
    (∀ m m', minutesField (old "blackout_minutes_after") = .ok m →
      minutesField (new "blackout_minutes_after") = .ok m' → m ≤ m') ∧
    (∀ ls ls', impactLevelsField (old "impact_levels") = .ok ls →
      impactLevelsField (new "impact_levels") = .ok ls' → ls ⊆ ls') ∧
    ∀ f f', symbolsFilterField (old "symbols_filter") = .ok f →
      symbolsFilterField (new "symbols_filter") = .ok f' → FilterWithin f f'
  | _ => True

/-- The override keeps it for every spec of the phase. -/
def KeepsBlocking (base : List Spec) (account : Overrides) : Prop :=
  ∀ spec ∈ base, ∀ t : RuleType, spec.lookup "type" = some (.scalar (.str t.text)) →
    AccountKeeps account spec t

section Entry

variable {account : Overrides} {p p' : String × Spec} {r r' : ParsedRule}

/-- A guarded number only goes down. -/
theorem guarded_le (hover : Overridden .account account.entries p p') {field : String}
    (hguard : guardOf p.1 field = some { name := field, direction := .lowerIsTighter })
    {default b n : ℚ} (hb : floatField default (p.2.lookup field) = .ok b)
    (hn : floatField default (p'.2.lookup field) = .ok n) : n ≤ b := by
  cases hlookup : account.entries.lookup p.1 with
  | none =>
    rw [hover.untouched hlookup, hb] at hn
    exact (Except.ok.inj hn).ge
  | some o =>
    obtain ⟨m, rfl, hread, haccept⟩ := hover.fields o hlookup
    rw [hread] at hn
    cases hfield : m.entries.lookup field with
    | none =>
      rw [hfield] at hn
      have hsame : floatField default (p.2.lookup field) = .ok n := hn
      rw [hb] at hsame
      exact (Except.ok.inj hsame).ge
    | some v =>
      rw [hfield] at hn
      obtain ⟨baseline, hbase, hnot⟩ := (haccept _ (mem_of_lookup hfield)).present
      obtain ⟨b', n', hb', hn', hloose⟩ := hnot rfl _ hguard
      rw [hbase] at hb
      obtain rfl : b' = b := Except.ok.inj (hb'.symm.trans hb)
      obtain rfl : n' = n := Except.ok.inj (hn'.symm.trans hn)
      simpa [Direction.loosened] using hloose

/-- A field of the merged spec, as the condition reads it. -/
theorem fieldUnder_eq (hover : Overridden .account account.entries p p') {t : RuleType}
    (hkey : p.1 = t.text) (k : String) : fieldUnder account t.text p.2 k = p'.2.lookup k := by
  rw [hover.lookup_eq, hkey]

theorem accountKeeps_maxDrawdown_iff (hover : Overridden .account account.entries p p')
    (hkey : p.1 = RuleType.maxDrawdown.text) {r r' : MaxDrawdownRule}
    (hr : MaxDrawdownRule.ofKwargs p.2.kwargs = .ok r)
    (hr' : MaxDrawdownRule.ofKwargs p'.2.kwargs = .ok r') :
    AccountKeeps account p.2 .maxDrawdown ↔ r'.method = r.method := by
  have hold := (MaxDrawdownRule.ofKwargs_ok hr).1
  have hnew := (MaxDrawdownRule.ofKwargs_ok hr').1
  rw [Spec.lookup_kwargs _ (by decide)] at hold hnew
  unfold AccountKeeps
  simp only [fieldUnder_eq hover hkey, hold, hnew, Except.ok.injEq]

theorem accountKeeps_maxPositionSize_iff (hover : Overridden .account account.entries p p')
    (hkey : p.1 = RuleType.maxPositionSize.text) {r r' : MaxPositionSizeRule}
    (hr : MaxPositionSizeRule.ofKwargs p.2.kwargs = .ok r)
    (hr' : MaxPositionSizeRule.ofKwargs p'.2.kwargs = .ok r') :
    AccountKeeps account p.2 .maxPositionSize ↔
      r'.scaling = r.scaling ∨ r'.scaling = .fixed ∧ r'.maxLots ≤ 0 := by
  obtain ⟨hold, _⟩ := MaxPositionSizeRule.ofKwargs_ok hr
  obtain ⟨hnew, hlots⟩ := MaxPositionSizeRule.ofKwargs_ok hr'
  rw [Spec.lookup_kwargs _ (by decide)] at hold hnew hlots
  unfold AccountKeeps
  simp only [fieldUnder_eq hover hkey, hold, hnew, hlots, Except.ok.injEq, forall_eq']

theorem accountKeeps_newsBlackout_iff (hover : Overridden .account account.entries p p')
    (hkey : p.1 = RuleType.newsBlackout.text) {r r' : NewsBlackoutRule}
    (hr : NewsBlackoutRule.ofKwargs p.2.kwargs = .ok r)
    (hr' : NewsBlackoutRule.ofKwargs p'.2.kwargs = .ok r') :
    AccountKeeps account p.2 .newsBlackout ↔ r.config.Within r'.config := by
  obtain ⟨hb, ha, hl, hf⟩ := NewsBlackoutRule.ofKwargs_ok hr
  obtain ⟨hb', ha', hl', hf'⟩ := NewsBlackoutRule.ofKwargs_ok hr'
  rw [Spec.lookup_kwargs _ (by decide)] at hb hb' ha ha' hl hl' hf hf'
  unfold AccountKeeps
  simp only [fieldUnder_eq hover hkey, hb, hb', ha, ha', hl, hl', hf, hf', Except.ok.injEq,
    forall_eq', forall_apply_eq_imp_iff]
  constructor
  · rintro ⟨hb, ha, hl, hf⟩
    exact ⟨hb, ha, hl, hf⟩
  · rintro ⟨hb, ha, hl, hf⟩
    exact ⟨hb, ha, hl, hf⟩

/-- **One spec before and after the account layer**: the rule is tighter
when the override keeps what it must, and otherwise some context tells the
two apart. -/
theorem tighter_or_separates {t : RuleType} (hkey : p.1 = t.text)
    (hover : Overridden .account account.entries p p')
    (hr : ParsedRule.ofKwargs p.2.kwargs t = .ok r)
    (hr' : ParsedRule.ofKwargs p'.2.kwargs t = .ok r') :
    (AccountKeeps account p.2 t → r.Tighter r') ∧
      (¬AccountKeeps account p.2 t → r.Separates r') := by
  -- a number that the guard watches for this type
  have hle {field : String} {default b n : ℚ}
      (hguard : guardOf t.text field = some { name := field, direction := .lowerIsTighter })
      (hfield : field ≠ "type") (hb : floatField default (p.2.kwargs.lookup field) = .ok b)
      (hn : floatField default (p'.2.kwargs.lookup field) = .ok n) : n ≤ b := by
    rw [Spec.lookup_kwargs _ hfield] at hb hn
    exact guarded_le hover (hkey ▸ hguard) hb hn
  cases t with
  | dailyLossLimit =>
    obtain ⟨r, hread, rfl⟩ := map_eq_ok.mp hr
    obtain ⟨r', hread', rfl⟩ := map_eq_ok.mp hr'
    have hthreshold : r'.thresholdPercent ≤ r.thresholdPercent :=
      hle rfl (by decide) (DailyLossLimitRule.ofKwargs_ok hread)
        (DailyLossLimitRule.ofKwargs_ok hread')
    exact ⟨fun _ => dailyLossLimit_tighter hthreshold, fun h => absurd trivial h⟩
  | maxDrawdown =>
    obtain ⟨r, hread, rfl⟩ := map_eq_ok.mp hr
    obtain ⟨r', hread', rfl⟩ := map_eq_ok.mp hr'
    have hthreshold : r'.thresholdPercent ≤ r.thresholdPercent :=
      hle rfl (by decide) (MaxDrawdownRule.ofKwargs_ok hread).2
        (MaxDrawdownRule.ofKwargs_ok hread').2
    rw [accountKeeps_maxDrawdown_iff hover hkey hread hread']
    exact ⟨fun h => maxDrawdown_tighter h hthreshold, separates_maxDrawdown⟩
  | maxPositionSize =>
    obtain ⟨r, hread, rfl⟩ := map_eq_ok.mp hr
    obtain ⟨r', hread', rfl⟩ := map_eq_ok.mp hr'
    have hlots : r'.maxLots ≤ r.maxLots :=
      hle rfl (by decide) (MaxPositionSizeRule.ofKwargs_ok hread).2
        (MaxPositionSizeRule.ofKwargs_ok hread').2
    rw [accountKeeps_maxPositionSize_iff hover hkey hread hread']
    exact ⟨maxPositionSize_tighter hlots, separates_maxPositionSize hlots⟩
  | consistency =>
    obtain ⟨r, hread, rfl⟩ := map_eq_ok.mp hr
    obtain ⟨r', hread', rfl⟩ := map_eq_ok.mp hr'
    have hblock : r'.blockAt ≤ r.blockAt :=
      hle rfl (by decide) (ConsistencyRule.ofKwargs_ok hread) (ConsistencyRule.ofKwargs_ok hread')
    exact ⟨fun _ => consistency_tighter hblock, fun h => absurd trivial h⟩
  | newsBlackout =>
    obtain ⟨r, hread, rfl⟩ := map_eq_ok.mp hr
    obtain ⟨r', hread', rfl⟩ := map_eq_ok.mp hr'
    rw [accountKeeps_newsBlackout_iff hover hkey hread hread']
    exact ⟨newsBlackout_tighter, separates_newsBlackout⟩
  | profitTarget | minTradingDays | weeklyTarget =>
    obtain ⟨r, _, rfl⟩ := map_eq_ok.mp hr
    refine ⟨fun _ services context hblocks => ?_, fun h => absurd trivial h⟩
    exact absurd hblocks (not_blocks_of_informational rfl)

end Entry

/-! ## The rules of the merged specs -/

/-- A spec stands under the type it gives. -/
theorem Typed.key_eq {byType : ByType} (ht : Typed byType) {p : String × Spec} (hp : p ∈ byType)
    {s : String} (h : p.2.lookup "type" = some (.scalar (.str s))) : p.1 = s := by
  have hown := ht.own p hp
  rw [h] at hown
  injection hown with hscalar
  injection hscalar with hstr
  injection hstr with htext
  exact htext.symm

theorem ParsedRule.ruleType_of_ofKwargs {t : RuleType} {r : ParsedRule}
    (h : ParsedRule.ofKwargs kwargs t = .ok r) : r.ruleType = t := by
  cases t <;>
    obtain ⟨_, _, rfl⟩ := map_eq_ok.mp h <;> rfl

theorem RuleType.text_injective {t t' : RuleType} (h : t.text = t'.text) : t = t' := by
  cases t <;> cases t' <;> first | rfl | exact absurd h (by decide)

/-- A typed spec that builds a rule has the rule's type. -/
theorem builds_typed {byType : ByType} (ht : Typed byType) {p : String × Spec} (hp : p ∈ byType)
    {r : ParsedRule} (h : p.2.Builds r) :
    p.1 = r.ruleType.text ∧ ParsedRule.ofKwargs p.2.kwargs r.ruleType = .ok r := by
  obtain ⟨t, htype, hr⟩ := h
  rw [ParsedRule.ruleType_of_ofKwargs hr]
  exact ⟨ht.key_eq hp htype, hr⟩

/-- No type comes twice, so two rules of one type are one rule. -/
theorem Typed.rule_unique {byType : ByType} (ht : Typed byType) {p q : String × Spec}
    (hp : p ∈ byType) (hq : q ∈ byType) {r r' : ParsedRule} (hr : p.2.Builds r)
    (hr' : q.2.Builds r') (htype : r.ruleType = r'.ruleType) : r = r' := by
  obtain ⟨hkey, hread⟩ := builds_typed ht hp hr
  obtain ⟨hkey', hread'⟩ := builds_typed ht hq hr'
  have hspecs : p.2 = q.2 := by
    have hlookup := lookup_of_mem ht.nodup hp
    rw [hkey, htype, ← hkey', lookup_of_mem ht.nodup hq] at hlookup
    exact (Option.some.inj hlookup).symm
  rw [hspecs, htype, hread'] at hread
  exact (Except.ok.inj hread).symm

/-- **A rule of the phase and the rule of its merged spec.** -/
theorem exists_merged_rule {account : Overrides} {byType byType' : ByType} {rules' : List ParsedRule}
    (ht : Typed byType)
    (hover : List.Forall₂ (Overridden .account account.entries) byType byType')
    (hbuilds' : List.Forall₂ (fun p r => p.2.Builds r) byType' rules')
    {p : String × Spec} (hp : p ∈ byType) {r : ParsedRule} (hr : p.2.Builds r) :
    ∃ p' ∈ byType', ∃ r' ∈ rules', p'.2.Builds r' ∧ r'.ruleType = r.ruleType ∧
      (AccountKeeps account p.2 r.ruleType → r.Tighter r') ∧
      (¬AccountKeeps account p.2 r.ruleType → r.Separates r') := by
  obtain ⟨p', hp', hpp'⟩ := exists_right_of_mem hover hp
  obtain ⟨r', hmem', hr'⟩ := exists_right_of_mem hbuilds' hp'
  obtain ⟨hkey, hread⟩ := builds_typed ht hp hr
  obtain ⟨hkey', hread'⟩ := builds_typed (ht.overridden hover) hp' hr'
  have hsame : r'.ruleType = r.ruleType := by
    refine RuleType.text_injective ?_
    rw [← hkey', ← hkey, hpp'.key]
  rw [hsame] at hread'
  exact ⟨p', hp', r', hmem', hr', hsame, tighter_or_separates hkey hpp' hread hread'⟩

/-- **Overrides only tighten exactly when the account keeps what the guard
does not watch.** -/
theorem overrides_tighten_iff {product merged base : List Spec} {phase account : Overrides}
    {rules rules' : List ParsedRule}
    (hbase : mergeRuleOverrides product phase noOverrides = .ok base)
    (hmerged : mergeRuleOverrides product phase account = .ok merged)
    (hrules : parseRules base = .ok rules) (hrules' : parseRules merged = .ok rules') :
    (∀ services context, (∃ r ∈ rules, r.Blocks services context) →
        ∃ r ∈ rules', r.Blocks services context) ↔
      KeepsBlocking base account := by
  obtain ⟨byType, byType', htyped, rfl, rfl, hover⟩ := mergeRuleOverrides_ok hbase hmerged
  have hbuilds := builds_of_parseRules hrules
  have hbuilds' := builds_of_parseRules hrules'
  rw [List.forall₂_map_left_iff] at hbuilds hbuilds'
  constructor
  · intro hall spec hspec t htype
    obtain ⟨p, hp, rfl⟩ := List.mem_map.mp hspec
    obtain ⟨r, hmem, hr⟩ := exists_right_of_mem hbuilds hp
    obtain ⟨p', hp', r', _, hr', hsame, _, hsep⟩ := exists_merged_rule htyped hover hbuilds' hp hr
    have ht : r.ruleType = t := by
      obtain ⟨hkey, _⟩ := builds_typed htyped hp hr
      exact RuleType.text_injective (hkey.symm.trans (htyped.key_eq hp htype))
    rw [← ht]
    by_contra hnot
    -- some merged rule blocks the context that tells `r` and `r'` apart
    obtain ⟨services, context, hblocks, hunblocked, hothers⟩ := hsep hnot
    obtain ⟨r'', hmem'', hblocks''⟩ := hall services context ⟨r, hmem, hblocks⟩
    by_cases htype'' : r''.ruleType = r.ruleType
    · obtain ⟨p'', hp'', hr''⟩ := exists_left_of_mem hbuilds' hmem''
      obtain rfl := (htyped.overridden hover).rule_unique hp'' hp' hr'' hr' (htype''.trans hsame.symm)
      exact hunblocked hblocks''
    · exact hothers r'' htype'' hblocks''
  · rintro hkeeps services context ⟨r, hmem, hblocks⟩
    obtain ⟨p, hp, hr⟩ := exists_left_of_mem hbuilds hmem
    obtain ⟨p', _, r', hmem', _, _, htight, _⟩ := exists_merged_rule htyped hover hbuilds' hp hr
    obtain ⟨hkey, _⟩ := builds_typed htyped hp hr
    have hown := htyped.own p hp
    rw [hkey] at hown
    exact ⟨r', hmem', htight (hkeeps p.2 (List.mem_map_of_mem hp) r.ruleType hown)
      services context hblocks⟩

/-- Ten percent below the highest equity. -/
def peakSpec : Spec :=
  [("type", .scalar (.str "max_drawdown")), ("threshold_percent", .scalar (.num 10)),
   ("method", .scalar (.str "equity_peak"))]

def peakRule : ParsedRule := .maxDrawdown { thresholdPercent := 10, method := .equityPeak }

/-- The account asks for eight percent. -/
def eightPercent : Overrides where
  entries := [("max_drawdown", .fields { entries := [("threshold_percent", .scalar (.num 8))] })]

/-- The account asks for a drawdown from the starting balance. -/
def fromBalance : Overrides where
  entries := [("max_drawdown", .fields { entries := [("method", .scalar (.str "balance_based"))] })]

theorem overrides_tighten_iff_eightPercent :
    (∀ services context, (∃ r ∈ [peakRule], r.Blocks services context) →
        ∃ r ∈ [ParsedRule.maxDrawdown { thresholdPercent := 8, method := .equityPeak }],
          r.Blocks services context) ↔
      KeepsBlocking [peakSpec] eightPercent :=
  @overrides_tighten_iff [peakSpec] _ _ noOverrides eightPercent _ _ rfl rfl rfl rfl

/-- The equity fell from 120000 to 105000, on a starting balance of
100000. -/
def afterGrowth : Dict :=
  [("total_drawdown_percent", .num (25 / 2)), ("initial_balance", .num 100000),
   ("current_equity", .num 105000)]

/-- An account may trade the drawdown from the peak for the one from the
starting balance. After some growth a fall that the phase blocks is no fall
at all for the account. -/
theorem method_override_loosens :
    ¬∀ (product merged base : List Spec) (phase account : Overrides) (rules rules' : List ParsedRule),
      mergeRuleOverrides product phase noOverrides = .ok base →
      mergeRuleOverrides product phase account = .ok merged →
      parseRules base = .ok rules → parseRules merged = .ok rules' →
      ∀ services context, (∃ r ∈ rules, r.Blocks services context) →
        ∃ r ∈ rules', r.Blocks services context := by
  intro h
  have hblocks : peakRule.Blocks { clock := 0 } afterGrowth :=
    blocks_maxDrawdown_iff.mpr ⟨25 / 2, rfl, by norm_num, by norm_num⟩
  obtain ⟨r, hmem, hr⟩ := h [peakSpec] _ _ noOverrides fromBalance [peakRule]
    [.maxDrawdown { thresholdPercent := 10, method := .balanceBased }] rfl rfl rfl rfl
    { clock := 0 } afterGrowth ⟨peakRule, List.mem_singleton.mpr rfl, hblocks⟩
  obtain rfl := List.mem_singleton.mp hmem
  obtain ⟨x, hx, hpos, _⟩ := blocks_maxDrawdown_iff.mp hr
  have hzero : (0 : ℚ) = x := by
    refine Except.ok.inj (Eq.trans ?_ hx)
    decide +kernel
  exact hpos.ne hzero

end TdSandboxed
