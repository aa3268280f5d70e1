/-
TdSandboxed.Rules.Engine — the rule engine (`rules/engine.py`,
`rules/engine_result.py`).

The rules are kept sorted by priority, and `insertionSort` is stable as
Python's `sorted` is. `evaluate` is the loop of `validate`: it carries the
results so far and stops at the first BLOCK unless told to continue. A
rule that raises blocks in strict mode and is skipped otherwise.

`validate_isBlocked_iff` is the engine's specification: it blocks exactly
when some rule of the list stops the order, whatever the order of the
list and whatever the other rules answer. `validate_reported_iff` says
which rules the results name.
-/
import TdSandboxed.Rules.BaseRule

namespace TdSandboxed

structure RuleEngineResult where
  action : RuleAction
  blockedBy : Option BaseRule := none
  blockingReason : Option String := none
  warnings : List RuleResult := []
  allResults : List (BaseRule × RuleResult) := []

namespace RuleEngineResult

def isBlocked (r : RuleEngineResult) : Bool := r.action = .block

def hasWarnings (r : RuleEngineResult) : Bool := r.warnings.length > 0

/-- The non-empty messages of the warnings. -/
def warningMessages (r : RuleEngineResult) : List String :=
  r.warnings.filterMap fun w => w.message.filter (· ≠ "")

end RuleEngineResult

structure RuleEngine where
  accountId : String
  strictMode : Bool := true
  rules : List BaseRule

namespace RuleEngine

def init (accountId : String) (rules : List BaseRule) (strictMode : Bool := true) : RuleEngine :=
  { accountId, strictMode,
    rules := rules.insertionSort fun a b => a.priority ≤ b.priority }

/-- What the loop of `validate` has collected. -/
structure Evaluation where
  allResults : List (BaseRule × RuleResult) := []
  warnings : List RuleResult := []
  blockedBy : Option BaseRule := none
  blockingReason : Option String := none

/-- What a BLOCK of this rule adds to the collection. -/
def Evaluation.block (acc : Evaluation) (rule : BaseRule) (result : RuleResult)
    (reason : String) : Evaluation :=
  { acc with
    allResults := acc.allResults ++ [(rule, result)]
    blockedBy := some rule
    blockingReason := some reason }

def evaluate (strict continueAfterBlock : Bool) (context : Dict) :
    List BaseRule → Evaluation → Evaluation
  | [], acc => acc
  | rule :: rest, acc =>
    match rule.validate context with
    | .ok result =>
      match result.action with
      | .allow =>
        evaluate strict continueAfterBlock context rest
          { acc with allResults := acc.allResults ++ [(rule, result)] }
      | .warn =>
        evaluate strict continueAfterBlock context rest
          { acc with
            allResults := acc.allResults ++ [(rule, result)]
            warnings := acc.warnings ++ [result] }
      | .block =>
        let acc' := acc.block rule result (pyOr result.message s!"Blocked by {rule.ruleType}")
        if continueAfterBlock then evaluate strict continueAfterBlock context rest acc' else acc'
    | .error e =>
      let errorMsg := s!"Error in {rule.ruleType}: {e.text}"
      -- the exception ends the loop in strict mode even when BLOCK would not
      if strict then
        acc.block rule
          { action := .block, message := errorMsg,
            metadata := [("error", .str e.text), ("rule_type", .str rule.ruleType)] } errorMsg
      else evaluate strict continueAfterBlock context rest acc

def validate (engine : RuleEngine) (context : Dict) (continueAfterBlock : Bool := false) :
    RuleEngineResult :=
  let e := evaluate engine.strictMode continueAfterBlock context engine.rules {}
  { action := if e.blockedBy.isSome then .block else if e.warnings ≠ [] then .warn else .allow
    blockedBy := e.blockedBy
    blockingReason := e.blockingReason
    warnings := e.warnings
    allResults := e.allResults }

theorem mem_init_rules {accountId : String} {rules : List BaseRule} {strict : Bool}
    {r : BaseRule} : r ∈ (init accountId rules strict).rules ↔ r ∈ rules := by
  simp [init]

theorem isBlocked_eq (engine : RuleEngine) (context : Dict) (cont : Bool) :
    (engine.validate context cont).isBlocked =
      (evaluate engine.strictMode cont context engine.rules {}).blockedBy.isSome := by
  simp only [validate, RuleEngineResult.isBlocked]
  split
  · rename_i h
    simp [h]
  · rename_i h
    split <;> simp [h]

/-- A block found earlier is never taken back. -/
theorem evaluate_blockedBy {strict cont : Bool} {context : Dict} (rules : List BaseRule)
    (acc : Evaluation) :
    (evaluate strict cont context rules acc).blockedBy.isSome ↔
      acc.blockedBy.isSome ∨ ∃ r ∈ rules, r.Stops strict context := by
  induction rules generalizing acc with
  | nil => simp [evaluate]
  | cons rule rest ih =>
    simp only [evaluate, List.mem_cons, exists_eq_or_imp]
    cases hv : rule.validate context with
    | ok result =>
      rw [BaseRule.stops_ok_iff hv]
      cases ha : result.action with
      | allow => simp only [ha, ih, reduceCtorEq, false_or]
      | warn => simp only [ha, ih, reduceCtorEq, false_or]
      | block =>
        simp only [ha, true_or, or_true, iff_true]
        split
        · exact (ih _).mpr (.inl rfl)
        · rfl
    | error e =>
      rw [BaseRule.stops_error_iff hv]
      cases strict with
      | true => simp [Evaluation.block]
      | false => simp [ih]

/-- **The engine blocks exactly when some rule stops the order.** -/
theorem validate_isBlocked_iff (engine : RuleEngine) (context : Dict) (cont : Bool) :
    (engine.validate context cont).isBlocked ↔
      ∃ r ∈ engine.rules, r.Stops engine.strictMode context := by
  rw [isBlocked_eq, evaluate_blockedBy]
  simp

/-! ## Which rules block -/

/-- The rule stops the order and the loop comes to it: in strict mode an
exception of an earlier rule ends the loop. -/
def StopsIn (strict : Bool) (context : Dict) (rules : List BaseRule) (rule : BaseRule) : Prop :=
  ∃ earlier later, rules = earlier ++ rule :: later ∧
    (strict = true → ∀ r : BaseRule, r ∈ earlier → (r.validate context).isOk) ∧
    rule.Stops strict context

def Blocks (engine : RuleEngine) (context : Dict) (rule : BaseRule) : Prop :=
  StopsIn engine.strictMode context engine.rules rule

/-- The results name the rule with a BLOCK. -/
def Reported (results : List (BaseRule × RuleResult)) (rule : BaseRule) : Prop :=
  ∃ result, (rule, result) ∈ results ∧ result.action = .block

section Reported

variable {strict : Bool} {context : Dict} {r rule : BaseRule} {rest : List BaseRule}

theorem reported_concat {results : List (BaseRule × RuleResult)} {result : RuleResult} :
    Reported (results ++ [(r, result)]) rule ↔
      Reported results rule ∨ r = rule ∧ result.action = .block := by
  simp only [Reported, List.mem_append, List.mem_singleton, Prod.mk.injEq, or_and_right, exists_or]
  constructor
  · intro h
    refine h.imp_right fun hnew => ?_
    obtain ⟨_, ⟨hr, hres⟩, hb⟩ := hnew
    exact ⟨hr.symm, hres ▸ hb⟩
  · intro h
    refine h.imp_right fun hnew => ?_
    exact ⟨result, ⟨hnew.1.symm, rfl⟩, hnew.2⟩

theorem not_stopsIn_nil : ¬ StopsIn strict context [] rule := by
  intro ⟨earlier, later, h, _⟩
  exact List.append_ne_nil_of_right_ne_nil earlier (List.cons_ne_nil rule later) h.symm

theorem stopsIn_cons :
    StopsIn strict context (r :: rest) rule ↔
      r = rule ∧ rule.Stops strict context ∨
        (strict = true → (r.validate context).isOk) ∧ StopsIn strict context rest rule := by
  constructor
  · intro ⟨earlier, later, heq, hok, hstops⟩
    cases earlier with
    | nil => exact .inl ⟨(List.cons.inj heq).1, hstops⟩
    | cons e earlier =>
      obtain ⟨rfl, hrest⟩ := List.cons.inj heq
      exact .inr ⟨fun hs => hok hs r List.mem_cons_self, earlier, later, hrest,
        fun hs r' hr' => hok hs r' (List.mem_cons_of_mem r hr'), hstops⟩
  · intro h
    cases h with
    | inl h =>
      exact ⟨[], rest, congrArg (· :: rest) h.1, fun _ _ hr => absurd hr List.not_mem_nil, h.2⟩
    | inr h =>
      obtain ⟨hr, earlier, later, hrest, hok, hstops⟩ := h
      refine ⟨r :: earlier, later, congrArg (r :: ·) hrest, fun hs r' hr' => ?_, hstops⟩
      cases List.mem_cons.mp hr' with
      | inl heq => exact heq ▸ hr hs
      | inr hmem => exact hok hs r' hmem

theorem stopsIn_cons_of_ok {result : RuleResult} (hv : r.validate context = .ok result) :
    StopsIn strict context (r :: rest) rule ↔
      r = rule ∧ result.action = .block ∨ StopsIn strict context rest rule := by
  have hok : strict = true → (r.validate context).isOk := by
    intro _
    rw [hv]
    rfl
  rw [stopsIn_cons, and_iff_right hok]
  refine or_congr_left (and_congr_right fun heq => ?_)
  rw [← heq, BaseRule.stops_ok_iff hv]

/-- A rule that raises stops the order in strict mode, and ends the loop. -/
theorem stopsIn_cons_of_error {e : PyException} (hv : r.validate context = .error e) :
    StopsIn strict context (r :: rest) rule ↔
      if strict = true then r = rule else StopsIn strict context rest rule := by
  have hno : ¬ (r.validate context).isOk := by
    rw [hv]
    exact Bool.false_ne_true
  have hstops (heq : r = rule) : rule.Stops strict context ↔ strict = true := by
    rw [← heq, BaseRule.stops_error_iff hv]
  rw [stopsIn_cons, and_congr_right_iff.mpr hstops]
  cases strict with
  | true => simp [hno]
  | false => simp

/-- The loop that goes on after a BLOCK reports the rules that block. -/
theorem evaluate_reported (rules : List BaseRule) (acc : Evaluation) :
    Reported (evaluate strict true context rules acc).allResults rule ↔
      Reported acc.allResults rule ∨ StopsIn strict context rules rule := by
  induction rules generalizing acc with
  | nil => simp [evaluate, not_stopsIn_nil]
  | cons r rest ih =>
    simp only [evaluate]
    cases hv : r.validate context with
    | ok result =>
      rw [stopsIn_cons_of_ok hv, ← or_assoc]
      cases ha : result.action with
      | allow =>
        simp only [ha]
        rw [ih, reported_concat, ha]
      | warn =>
        simp only [ha]
        rw [ih, reported_concat, ha]
      | block =>
        simp only [ha, if_true]
        rw [ih, Evaluation.block, reported_concat]
        simp only [ha]
    | error e =>
      rw [stopsIn_cons_of_error hv]
      cases strict with
      | true =>
        simp only [if_true]
        rw [Evaluation.block, reported_concat, and_iff_left rfl]
      | false =>
        simp only [Bool.false_eq_true, if_false]
        rw [ih]

end Reported

/-- **Asked to go on, the engine reports with BLOCK exactly the rules that
block.** -/
theorem validate_reported_iff (engine : RuleEngine) (context : Dict) (rule : BaseRule) :
    Reported (engine.validate context true).allResults rule ↔ engine.Blocks context rule := by
  refine (evaluate_reported engine.rules {}).trans (or_iff_right ?_)
  intro ⟨_, hmem, _⟩
  cases hmem

end RuleEngine

end TdSandboxed
