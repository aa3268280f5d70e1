/-
TdSandboxed.Rules.Parser — from YAML to rules (`rules/parser.py`, with the
constructors of `rules/types`).

A rule definition is a dict from field names to YAML values. Each
constructor reads its own fields, with defaults, and ignores the others.
The readers that say what a field's value means are definitions of their
own, since the override merger moves these values around.

* A ladder of warnings must hold numbers. The source sorts any ladder it
  can sort, and one of texts fails only when a loss reaches it.
* A mapping in the place of a list is the list of its keys, which is what
  iterating it yields.
* The registry of rule classes is the enumeration `RuleType`, so an unknown
  type is a text that is none of its texts.
-/
import TdSandboxed.Lib.Assoc
import TdSandboxed.Rules.NewsBlackout
import TdSandboxed.Rules.TargetTypes

namespace TdSandboxed

open Lib

/-! ## YAML values -/

inductive SpecValue
  | scalar (v : Value)
  | list (items : List Value)
  deriving DecidableEq

/-- A rule definition. -/
abbrev Spec := List (String × SpecValue)

namespace SpecValue

def typeName : SpecValue → String
  | .scalar v => v.typeName
  | .list _ => "list"

/-- `repr(value)` -/
def pyRepr : SpecValue → String
  | .scalar (.str s) => Lib.pyRepr s
  | .scalar v => v.pyStr
  | .list items =>
    "[" ++ ", ".intercalate (items.map fun | .str s => Lib.pyRepr s | v => v.pyStr) ++ "]"

/-- `str(value)` -/
def pyStr : SpecValue → String
  | .scalar v => v.pyStr
  | v => v.pyRepr

def toFloat : SpecValue → Except PyException ℚ
  | .scalar v => v.toFloat
  | .list _ => .error (.typeError "float() argument must be a string or a real number, not 'list'")

/-- What `for item in value` yields. -/
def iterate : SpecValue → Except PyException (List Value)
  | .list items => .ok items
  | .scalar (.str s) => .ok (s.toList.map fun c => .str (String.singleton c))
  | .scalar v => .error (.typeError s!"'{v.typeName}' object is not iterable")

def truthy : SpecValue → Bool
  | .scalar v => v.truthy
  | .list items => items ≠ []

end SpecValue

/-! ## Fields -/

/-- `float(field)` -/
def floatField (default : ℚ) : Option SpecValue → Except PyException ℚ
  | none => .ok default
  | some v => v.toFloat

/-- A `list[float] | None`: `None` stands for the default. -/
def ladderField (default : List ℚ) : Option SpecValue → Except PyException (List ℚ)
  | none | some (.scalar .none) => .ok default
  | some v => do (← v.iterate).mapM Value.toNum

def textField (default : String) : Option SpecValue → String
  | none => default
  | some v => v.pyStr

/-- `int(field)` -/
def intField (default : ℤ) : Option SpecValue → Except PyException ℤ
  | none => .ok default
  | some (.scalar (.num q)) => .ok (pyInt q)
  | some (.scalar (.str s)) =>
    let (sign, digits) := splitSign (strip s).toList
    match digitsValue digits with
    | some n => .ok (pyInt (sign * n))
    | none => .error (.valueError s!"invalid literal for int() with base 10: '{s}'")
  | some v => .error (.typeError <| "int() argument must be a string, a bytes-like object or " ++
      s!"a real number, not '{v.typeName}'")

def methodField : Option SpecValue → Except PyException DrawdownMethod
  | none | some (.scalar (.str "equity_peak")) => .ok .equityPeak
  | some (.scalar (.str "balance_based")) => .ok .balanceBased
  | some v => .error (.valueError <| s!"MaxDrawdownRule: unknown method {v.pyRepr}. " ++
      "Valid: ('equity_peak', 'balance_based')")

/-- An unknown scaling is the fixed limit. -/
def scalingField : Option SpecValue → Scaling
  | some (.scalar (.str "per_10k_balance")) => .per10kBalance
  | _ => .fixed

/-- A window in minutes. The sign is checked later. -/
def minutesField : Option SpecValue → Except PyException ℚ
  | none => .ok 5
  | some (.scalar v) => v.toNum
  | some (.list _) =>
    .error (.typeError "'<' not supported between instances of 'list' and 'int'")

/-- One impact level of the list. -/
def impactLevel : Value → Except PyException String
  | .str s => .ok (normaliseImpact s)
  | v => .error (.attributeError s!"'{v.typeName}' object has no attribute 'strip'")

def impactLevelsField : Option SpecValue → Except PyException (List String)
  | none | some (.scalar .none) => .ok ["high"]
  | some v => do (← v.iterate).mapM impactLevel

/-- One symbol of the filter; blanks name none. -/
def filterSymbol : Value → Except PyException (Option String)
  | .str s => .ok (if strip s = "" then none else some (normaliseSymbol s))
  | v => .error (.attributeError s!"'{v.typeName}' object has no attribute 'strip'")

/-- A filter that names no symbol is no filter. -/
def symbolsFilterField : Option SpecValue → Except PyException (Option (List String))
  | none => .ok none
  | some v =>
    if v.truthy then do
      let symbols := (← (← v.iterate).mapM filterSymbol).filterMap id
      return if symbols = [] then none else some symbols
    else .ok none

theorem impactLevelsField_normal {field : Option SpecValue} {levels : List String}
    (h : impactLevelsField field = .ok levels) :
    ∀ level ∈ levels, ∃ raw, level = normaliseImpact raw := by
  unfold impactLevelsField at h
  split at h
  · cases h
    intro level hlevel
    obtain rfl := List.mem_singleton.mp hlevel
    exact ⟨"high", by decide +kernel⟩
  · cases h
    intro level hlevel
    obtain rfl := List.mem_singleton.mp hlevel
    exact ⟨"high", by decide +kernel⟩
  · obtain ⟨items, _, h⟩ := bind_eq_ok.mp h
    intro level hlevel
    obtain ⟨item, _, hitem⟩ := exists_of_mapM h level hlevel
    cases item with
    | str raw => exact ⟨raw, (Except.ok.inj hitem).symm⟩
    | _ => cases hitem

theorem symbolsFilterField_normal {field : Option SpecValue} {filter : Option (List String)}
    (h : symbolsFilterField field = .ok filter) :
    filter ≠ some [] ∧ ∀ symbols ∈ filter, ∀ s ∈ symbols,
      ∃ raw, strip raw ≠ "" ∧ s = normaliseSymbol raw := by
  unfold symbolsFilterField at h
  split at h
  · cases h
    simp
  · split at h
    · obtain ⟨items, _, h⟩ := bind_eq_ok.mp h
      obtain ⟨read, hread, h⟩ := bind_eq_ok.mp h
      by_cases hnil : read.filterMap id = []
      · simp only [hnil] at h
        cases h
        simp
      · simp only [hnil, if_false] at h
        cases h
        refine ⟨by simpa using hnil, ?_⟩
        intro symbols hsymbols s hs
        obtain rfl := Option.mem_some.mp hsymbols
        obtain ⟨o, ho, hos⟩ := List.mem_filterMap.mp hs
        obtain ⟨item, _, hitem⟩ := exists_of_mapM hread o ho
        obtain rfl : o = some s := hos
        cases item with
        | str raw =>
          simp only [filterSymbol] at hitem
          by_cases hraw : strip raw = ""
          · simp [hraw] at hitem
          · simp only [hraw, if_false] at hitem
            exact ⟨raw, hraw, (Option.some.inj (Except.ok.inj hitem)).symm⟩
        | _ => cases hitem
    · cases h
      simp

/-! ## Constructors -/

namespace DailyLossLimitRule

def ofKwargs (kwargs : Spec) : Except PyException DailyLossLimitRule := do
  let thresholdPercent ← floatField 5 (kwargs.lookup "threshold_percent")
  let warningAt ← ladderField [70, 80, 90] (kwargs.lookup "warning_at")
  return { thresholdPercent, warningAt }

end DailyLossLimitRule

namespace MaxDrawdownRule

def ofKwargs (kwargs : Spec) : Except PyException MaxDrawdownRule := do
  let method ← methodField (kwargs.lookup "method")
  let thresholdPercent ← floatField 10 (kwargs.lookup "threshold_percent")
  let warningAt ← ladderField [50, 70, 85] (kwargs.lookup "warning_at")
  let reference := textField "initial_balance" (kwargs.lookup "reference")
  return { thresholdPercent, reference, method, warningAt }

end MaxDrawdownRule

namespace MaxPositionSizeRule

def ofKwargs (kwargs : Spec) : Except PyException MaxPositionSizeRule := do
  let maxLots ← floatField 1 (kwargs.lookup "max_lots")
  let warningAt ← ladderField [70, 80, 90] (kwargs.lookup "warning_at")
  return { maxLots, scaling := scalingField (kwargs.lookup "scaling"), warningAt }

end MaxPositionSizeRule

namespace ConsistencyRule

/-- The default ladder ends below the block level; a given one must. -/
def warnLadder (block : ℚ) : Option SpecValue → Except PyException (List ℚ)
  | none | some (.scalar .none) => .ok ([40, 45, 48].filter (· < block))
  | some v => do (← v.iterate).mapM Value.toFloat

def ofKwargs (kwargs : Spec) : Except PyException ConsistencyRule := do
  let block ← floatField 50 (kwargs.lookup "block_at")
  if hb : 0 < block ∧ block ≤ 100 then
    let warn ← warnLadder block (kwargs.lookup "warn_at")
    if hw : ∀ w ∈ warn, w < block then
      return { blockAt := block, warnAt := warn, blockAt_pos := hb.1, blockAt_le := hb.2,
               warnAt_lt := hw }
    else
      let first := ((warn.insertionSort (· ≤ ·)).find? (block ≤ ·)).getD block
      throw (.valueError <| s!"ConsistencyRule.warn_at threshold {pyFloat first} must be " ++
        s!"< block_at {pyFloat block}")
  else
    throw (.valueError s!"ConsistencyRule.block_at must be in (0, 100], got {pyFloat block}")

end ConsistencyRule

namespace ProfitTargetRule

def ofKwargs (kwargs : Spec) : Except PyException ProfitTargetRule := do
  return { thresholdPercent := ← floatField 10 (kwargs.lookup "threshold_percent") }

end ProfitTargetRule

namespace MinTradingDaysRule

def ofKwargs (kwargs : Spec) : Except PyException MinTradingDaysRule := do
  return { requiredDays := ← intField 4 (kwargs.lookup "required_days") }

end MinTradingDaysRule

namespace WeeklyTargetRule

def ofKwargs (kwargs : Spec) : Except PyException WeeklyTargetRule := do
  return { thresholdPercent := ← floatField (5 / 4) (kwargs.lookup "threshold_percent") }

end WeeklyTargetRule

namespace NewsBlackoutRule

def ofKwargs (kwargs : Spec) : Except PyException NewsBlackoutRule := do
  let before ← minutesField (kwargs.lookup "blackout_minutes_before")
  let after ← minutesField (kwargs.lookup "blackout_minutes_after")
  if hwindow : 0 ≤ before ∧ 0 ≤ after then
    match hlevels : impactLevelsField (kwargs.lookup "impact_levels") with
    | .error e => throw e
    | .ok levels =>
      if hne : levels ≠ [] then
        match hfilter : symbolsFilterField (kwargs.lookup "symbols_filter") with
        | .error e => throw e
        | .ok filter =>
          return {
            config := {
              blackoutMinutesBefore := before
              blackoutMinutesAfter := after
              impactLevels := levels
              symbolsFilter := filter }
            before_nonneg := hwindow.1
            after_nonneg := hwindow.2
            impactLevels_ne := hne
            impactLevels_normal := impactLevelsField_normal hlevels
            symbolsFilter_ne := (symbolsFilterField_normal hfilter).1
            symbolsFilter_normal := (symbolsFilterField_normal hfilter).2 }
      else
        throw (.valueError "NewsBlackoutRule.impact_levels must list at least one impact level")
  else
    throw (.valueError <| "NewsBlackoutRule blackout windows must be non-negative " ++
      s!"(before={minutesText before}, after={minutesText after})")

end NewsBlackoutRule

/-! ## The parser -/

inductive RuleType
  | dailyLossLimit
  | maxDrawdown
  | maxPositionSize
  | consistency
  | profitTarget
  | minTradingDays
  | weeklyTarget
  | newsBlackout
  deriving DecidableEq

namespace RuleType

def text : RuleType → String
  | .dailyLossLimit => "daily_loss_limit"
  | .maxDrawdown => "max_drawdown"
  | .maxPositionSize => "max_position_size"
  | .consistency => "consistency"
  | .profitTarget => "profit_target"
  | .minTradingDays => "min_trading_days"
  | .weeklyTarget => "weekly_target"
  | .newsBlackout => "news_blackout"

/-- `RULE_TYPES` -/
def all : List RuleType :=
  [.dailyLossLimit, .maxDrawdown, .consistency, .maxPositionSize, .profitTarget,
   .minTradingDays, .weeklyTarget, .newsBlackout]

def ofText (t : String) : Option RuleType := all.find? (·.text = t)

theorem text_of_ofText {s : String} {t : RuleType} (h : ofText s = some t) : t.text = s := by
  simpa using List.find?_some h

end RuleType

/-- A rule of one of the registered types. -/
inductive ParsedRule
  | dailyLossLimit (r : DailyLossLimitRule)
  | maxDrawdown (r : MaxDrawdownRule)
  | maxPositionSize (r : MaxPositionSizeRule)
  | consistency (r : ConsistencyRule)
  | profitTarget (r : ProfitTargetRule)
  | minTradingDays (r : MinTradingDaysRule)
  | weeklyTarget (r : WeeklyTargetRule)
  | newsBlackout (r : NewsBlackoutRule)

namespace ParsedRule

def ruleType : ParsedRule → RuleType
  | .dailyLossLimit _ => .dailyLossLimit
  | .maxDrawdown _ => .maxDrawdown
  | .maxPositionSize _ => .maxPositionSize
  | .consistency _ => .consistency
  | .profitTarget _ => .profitTarget
  | .minTradingDays _ => .minTradingDays
  | .weeklyTarget _ => .weeklyTarget
  | .newsBlackout _ => .newsBlackout

/-- The rule as the engine runs it, with the services it was bound to. -/
def toBaseRule (services : Services) : ParsedRule → BaseRule
  | .dailyLossLimit r => r.toBaseRule
  | .maxDrawdown r => r.toBaseRule
  | .maxPositionSize r => r.toBaseRule
  | .consistency r => r.toBaseRule
  | .profitTarget r => r.toBaseRule
  | .minTradingDays r => r.toBaseRule
  | .weeklyTarget r => r.toBaseRule
  | .newsBlackout r => r.toBaseRule services

def validate (services : Services) (r : ParsedRule) (context : Dict) :
    Except PyException RuleResult :=
  (r.toBaseRule services).validate context

/-- `rule_class(**kwargs)` -/
def ofKwargs (kwargs : Spec) : RuleType → Except PyException ParsedRule
  | .dailyLossLimit => .dailyLossLimit <$> DailyLossLimitRule.ofKwargs kwargs
  | .maxDrawdown => .maxDrawdown <$> MaxDrawdownRule.ofKwargs kwargs
  | .maxPositionSize => .maxPositionSize <$> MaxPositionSizeRule.ofKwargs kwargs
  | .consistency => .consistency <$> ConsistencyRule.ofKwargs kwargs
  | .profitTarget => .profitTarget <$> ProfitTargetRule.ofKwargs kwargs
  | .minTradingDays => .minTradingDays <$> MinTradingDaysRule.ofKwargs kwargs
  | .weeklyTarget => .weeklyTarget <$> WeeklyTargetRule.ofKwargs kwargs
  | .newsBlackout => .newsBlackout <$> NewsBlackoutRule.ofKwargs kwargs

end ParsedRule

structure RuleParseError where
  message : String
  index : ℕ
  field : Option String := none
  deriving DecidableEq

/-- The text of the exception. -/
def RuleParseError.text (e : RuleParseError) : String :=
  match e.field with
  | some field => s!"rule[{e.index}] field '{field}': {e.message}"
  | none => s!"rule[{e.index}]: {e.message}"

/-- `{k: v for k, v in rule_def.items() if k != "type"}` -/
def Spec.kwargs (spec : Spec) : Spec := spec.filter (·.1 ≠ "type")

def parseSingleRule (spec : Spec) (index : ℕ) : Except RuleParseError ParsedRule :=
  match spec.lookup "type" with
  | none => .error { message := "Rule must have 'type' field", index, field := "type" }
  | some (.scalar (.str ruleType)) =>
    match RuleType.ofText ruleType with
    | none =>
      let available := ", ".intercalate ((RuleType.all.map RuleType.text).insertionSort (· ≤ ·))
      .error {
        message := s!"Unknown rule type '{ruleType}'. Available types: {available}"
        index
        field := "type" }
    | some t =>
      match ParsedRule.ofKwargs spec.kwargs t with
      | .ok rule => .ok rule
      | .error (.typeError e) =>
        .error { message := s!"Invalid parameters for {ruleType}: {e}", index }
      | .error e => .error { message := e.text, index }
  | some v =>
    .error { message := s!"'type' must be a string, got {v.typeName}", index, field := "type" }

def parseRulesFrom : ℕ → List Spec → Except RuleParseError (List ParsedRule)
  | _, [] => .ok []
  | index, spec :: rest => do
    let rule ← parseSingleRule spec index
    let rules ← parseRulesFrom (index + 1) rest
    return rule :: rules

def parseRules (specs : List Spec) : Except RuleParseError (List ParsedRule) :=
  parseRulesFrom 0 specs

/-! ## What was parsed -/

/-- A definition and the rule the parser builds from it. -/
def Spec.Builds (spec : Spec) (rule : ParsedRule) : Prop :=
  ∃ t, spec.lookup "type" = some (.scalar (.str (RuleType.text t))) ∧
    ParsedRule.ofKwargs spec.kwargs t = .ok rule

theorem builds_of_parseSingleRule {spec : Spec} {index : ℕ} {rule : ParsedRule}
    (h : parseSingleRule spec index = .ok rule) : spec.Builds rule := by
  unfold parseSingleRule at h
  split at h
  · cases h
  · rename_i ruleType htype
    split at h
    · cases h
    · rename_i t ht
      refine ⟨t, by rw [htype, RuleType.text_of_ofText ht], ?_⟩
      split at h
      · rename_i rule' hrule
        rw [hrule, Except.ok.inj h]
      · cases h
      · cases h
  · cases h

theorem builds_of_parseRulesFrom {specs : List Spec} :
    ∀ {index : ℕ} {rules : List ParsedRule}, parseRulesFrom index specs = .ok rules →
      List.Forall₂ Spec.Builds specs rules := by
  induction specs with
  | nil =>
    intro index rules h
    cases h
    exact .nil
  | cons spec rest ih =>
    intro index rules h
    obtain ⟨rule, hrule, h⟩ := bind_eq_ok.mp h
    obtain ⟨others, hothers, h⟩ := bind_eq_ok.mp h
    cases h
    exact .cons (builds_of_parseSingleRule hrule) (ih hothers)

/-- The rules stand in the order of their definitions. -/
theorem builds_of_parseRules {specs : List Spec} {rules : List ParsedRule}
    (h : parseRules specs = .ok rules) : List.Forall₂ Spec.Builds specs rules :=
  builds_of_parseRulesFrom h

theorem Spec.lookup_kwargs (spec : Spec) {k : String} (hk : k ≠ "type") :
    spec.kwargs.lookup k = List.lookup k spec := by
  unfold Spec.kwargs
  induction spec with
  | nil => rfl
  | cons p rest ih =>
    obtain ⟨k', v⟩ := p
    by_cases hp : k' = "type"
    · rw [List.filter_cons_of_neg (by simp [hp]), ih, lookup_cons_eq, hp, if_neg hk]
    · rw [List.filter_cons_of_pos (by simp [hp]), lookup_cons_eq, lookup_cons_eq, ih]

end TdSandboxed
