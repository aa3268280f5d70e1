/-
TdSandboxed.Rules.EngineModes — the two evaluation modes of the rule engine
(`RuleEngine.validate`, `rules/engine.py`).

Short-circuit evaluation breaks at the first BLOCK; with
`continue_after_block` the loop goes on, and a later BLOCK writes
`blocked_by` and `blocking_reason` again. `stoppers` lists the rules that
stop the order, in the order the loop comes to them: the first mode
answers with the first of them and the second mode with the last.

The decision is the same in both modes and for every order of the list.
`evaluated` is the list of the rules whose `validate` the loop calls. As the
rules are sorted, it holds every rule of a smaller priority number than the
blocking one.
-/
import TdSandboxed.Rules.Engine

namespace TdSandboxed

/-- The text the engine gives as the reason when this rule blocks. -/
def BaseRule.blockingReason (context : Dict) (rule : BaseRule) : String :=
  match rule.validate context with
  | .ok result => pyOr result.message s!"Blocked by {rule.ruleType}"
  | .error e => s!"Error in {rule.ruleType}: {e.text}"

namespace RuleEngine

variable {strict cont : Bool} {context : Dict} {r rule : BaseRule}

/-- The rules that stop the order, as far as the loop that does not stop
at a BLOCK comes: in strict mode an exception ends it. -/
def stoppers (strict : Bool) (context : Dict) : List BaseRule → List BaseRule
  | [] => []
  | rule :: rest =>
    match rule.validate context with
    | .ok result =>
      if result.action = .block then rule :: stoppers strict context rest
      else stoppers strict context rest
    | .error _ => if strict then [rule] else stoppers strict context rest

/-- The rules whose `validate` the loop calls. -/
def evaluated (strict continueAfterBlock : Bool) (context : Dict) : List BaseRule → List BaseRule
  | [] => []
  | rule :: rest =>
    rule ::
      match rule.validate context with
      | .ok result =>
        if result.action = .block ∧ ¬ continueAfterBlock then []
        else evaluated strict continueAfterBlock context rest
      | .error _ => if strict then [] else evaluated strict continueAfterBlock context rest

/-! ## The rule a mode names -/

/-- Short-circuit evaluation names the first rule that stops the order. -/
theorem evaluate_short (rules : List BaseRule) (acc : Evaluation) :
    (evaluate strict false context rules acc).blockedBy =
        ((stoppers strict context rules).head?).or acc.blockedBy ∧
      (evaluate strict false context rules acc).blockingReason =
        (((stoppers strict context rules).head?).map (·.blockingReason context)).or
          acc.blockingReason := by
  induction rules generalizing acc with
  | nil => exact ⟨rfl, rfl⟩
  | cons rule rest ih =>
    simp only [evaluate, stoppers]
    cases hv : rule.validate context with
    | ok result =>
      cases ha : result.action with
      | allow => simpa [ha] using ih { acc with allResults := acc.allResults ++ [(rule, result)] }
      | warn => simpa [ha] using ih { acc with
          allResults := acc.allResults ++ [(rule, result)]
          warnings := acc.warnings ++ [result] }
      | block => simp [ha, Evaluation.block, BaseRule.blockingReason, hv]
    | error e =>
      cases strict with
      | true => simp [Evaluation.block, BaseRule.blockingReason, hv]
      | false => simpa using ih acc

/-- Evaluation that goes on names the last one. -/
theorem evaluate_continue (rules : List BaseRule) (acc : Evaluation) :
    (evaluate strict true context rules acc).blockedBy =
        ((stoppers strict context rules).getLast?).or acc.blockedBy ∧
      (evaluate strict true context rules acc).blockingReason =
        (((stoppers strict context rules).getLast?).map (·.blockingReason context)).or
          acc.blockingReason := by
  induction rules generalizing acc with
  | nil => exact ⟨rfl, rfl⟩
  | cons rule rest ih =>
    simp only [evaluate, stoppers]
    cases hv : rule.validate context with
    | ok result =>
      cases ha : result.action with
      | allow => simpa [ha] using ih { acc with allResults := acc.allResults ++ [(rule, result)] }
      | warn => simpa [ha] using ih { acc with
          allResults := acc.allResults ++ [(rule, result)]
          warnings := acc.warnings ++ [result] }
      | block =>
        -- a later stopper overwrites what this BLOCK wrote
        have hreason : pyOr result.message s!"Blocked by {rule.ruleType}" =
            rule.blockingReason context := by
          rw [BaseRule.blockingReason, hv]
        obtain ⟨hby, hbr⟩ := ih (acc.block rule result (rule.blockingReason context))
        simp only [ha, hreason, if_true]
        rw [hby, hbr, List.getLast?_cons]
        cases hl : (stoppers strict context rest).getLast? with
        | none => exact ⟨rfl, rfl⟩
        | some last => exact ⟨rfl, rfl⟩
    | error e =>
      cases strict with
      | true => simp [Evaluation.block, BaseRule.blockingReason, hv]
      | false => simpa using ih acc

/-! ## The decision -/

/-- Where no rule stops the order the modes are one. -/
theorem evaluate_eq_of_not_stops (rules : List BaseRule) (acc : Evaluation)
    (h : ∀ r ∈ rules, ¬ r.Stops strict context) :
    evaluate strict true context rules acc = evaluate strict false context rules acc := by
  induction rules generalizing acc with
  | nil => rfl
  | cons rule rest ih =>
    obtain ⟨hrule, hrest⟩ := List.forall_mem_cons.mp h
    simp only [evaluate]
    cases hv : rule.validate context with
    | ok result =>
      rw [BaseRule.stops_ok_iff hv] at hrule
      cases ha : result.action with
      | allow =>
        simp only [ha]
        exact ih _ hrest
      | warn =>
        simp only [ha]
        exact ih _ hrest
      | block => exact absurd ha hrule
    | error e =>
      rw [BaseRule.stops_error_iff hv] at hrule
      cases strict with
      | true => exact absurd rfl hrule
      | false => exact ih _ hrest

theorem action_of_isBlocked {engine : RuleEngine} (h : (engine.validate context cont).isBlocked) :
    (engine.validate context cont).action = .block :=
  of_decide_eq_true h

/-- The decision does not depend on the mode. -/
theorem action_eq (engine : RuleEngine) (context : Dict) :
    (engine.validate context true).action = (engine.validate context false).action := by
  by_cases h : ∃ r ∈ engine.rules, r.Stops engine.strictMode context
  · rw [action_of_isBlocked ((validate_isBlocked_iff engine context true).mpr h),
      action_of_isBlocked ((validate_isBlocked_iff engine context false).mpr h)]
  · have hno : ∀ r ∈ engine.rules, ¬ r.Stops engine.strictMode context := by
      intro r hr hs
      exact h ⟨r, hr, hs⟩
    simp only [validate, evaluate_eq_of_not_stops engine.rules {} hno]

/-- The decision does not depend on the order of the list, nor on the mode. -/
theorem isBlocked_perm {accountId : String} {rules rules' : List BaseRule}
    (hperm : rules'.Perm rules) (cont cont' : Bool) :
    ((init accountId rules' strict).validate context cont').isBlocked =
      ((init accountId rules strict).validate context cont).isBlocked := by
  rw [Bool.eq_iff_iff, validate_isBlocked_iff, validate_isBlocked_iff]
  simp only [mem_init_rules, hperm.mem_iff]
  rfl

/-! ## The rules that were evaluated -/

theorem evaluated_isPrefix (rules : List BaseRule) :
    evaluated strict cont context rules <+: rules := by
  induction rules with
  | nil => exact List.prefix_rfl
  | cons rule rest ih =>
    rw [evaluated]
    refine List.cons_prefix_cons.mpr ⟨rfl, ?_⟩
    split
    · split
      · exact List.nil_prefix
      · exact ih
    · split
      · exact List.nil_prefix
      · exact ih

/-- The blocking rule is one of those evaluated. -/
theorem mem_evaluated_of_blockedBy (rules : List BaseRule) (acc : Evaluation)
    (h : (evaluate strict cont context rules acc).blockedBy = some r) :
    acc.blockedBy = some r ∨ r ∈ evaluated strict cont context rules := by
  induction rules generalizing acc with
  | nil => exact .inl h
  | cons rule rest ih =>
    simp only [evaluate] at h
    simp only [evaluated, List.mem_cons]
    cases hv : rule.validate context with
    | ok result =>
      simp only [hv] at h ⊢
      cases ha : result.action with
      | allow =>
        simp only [ha] at h
        simpa using (ih _ h).imp_right .inr
      | warn =>
        simp only [ha] at h
        simpa using (ih _ h).imp_right .inr
      | block =>
        simp only [ha] at h
        cases cont with
        | true =>
          simp only [if_true] at h
          cases ih _ h with
          | inl hr => exact .inr (.inl (Option.some.inj hr).symm)
          | inr hr => exact .inr (.inr (by simpa using hr))
        | false => exact .inr (.inl (Option.some.inj h).symm)
    | error e =>
      simp only [hv] at h ⊢
      cases strict with
      | true => exact .inr (.inl (Option.some.inj h).symm)
      | false => simpa using (ih _ h).imp_right .inr

/-- In a sorted list every element below a member of a prefix is in it. -/
theorem mem_prefix_of_lt {l rules : List BaseRule}
    (hsorted : rules.Pairwise fun a b => a.priority ≤ b.priority) (hl : l <+: rules)
    (hr : r ∈ l) (hrule : rule ∈ rules) (hlt : rule.priority < r.priority) : rule ∈ l := by
  obtain ⟨later, rfl⟩ := hl
  cases List.mem_append.mp hrule with
  | inl h => exact h
  | inr h =>
    have hle := (List.pairwise_append.mp hsorted).2.2 r hr rule h
    omega

theorem init_sorted (accountId : String) (rules : List BaseRule) (strict : Bool) :
    (init accountId rules strict).rules.Pairwise fun a b => a.priority ≤ b.priority :=
  List.pairwise_insertionSort _ rules

/-! ## The two modes together -/

/-- What evaluation owes: the modes agree on the decision, on the rule and
on the reason, the decision is that of every order of the list, and the
rules of a smaller priority number than the blocking one were evaluated. -/
structure EvaluationLaws (accountId : String) (strict : Bool) (rules : List BaseRule)
    (context : Dict) : Prop where
  action : ((init accountId rules strict).validate context true).action =
    ((init accountId rules strict).validate context false).action
  blockedBy : ((init accountId rules strict).validate context true).blockedBy =
    ((init accountId rules strict).validate context false).blockedBy
  blockingReason : ((init accountId rules strict).validate context true).blockingReason =
    ((init accountId rules strict).validate context false).blockingReason
  permutation : ∀ rules' : List BaseRule, rules'.Perm rules → ∀ cont : Bool,
    ((init accountId rules' strict).validate context cont).isBlocked =
      ((init accountId rules strict).validate context cont).isBlocked
  priorities : ∀ (cont : Bool) (blocking rule : BaseRule),
    ((init accountId rules strict).validate context cont).blockedBy = some blocking →
    rule ∈ rules → rule.priority < blocking.priority →
    rule ∈ evaluated strict cont context (init accountId rules strict).rules

/-- **The laws hold exactly when the last of the rules that stop the order
is the first of them.** -/
theorem evaluationLaws_iff (accountId : String) (strict : Bool) (rules : List BaseRule)
    (context : Dict) :
    EvaluationLaws accountId strict rules context ↔
      (stoppers strict context (init accountId rules strict).rules).getLast? =
        (stoppers strict context (init accountId rules strict).rules).head? := by
  have hshort := @evaluate_short strict context (init accountId rules strict).rules {}
  have hcont := @evaluate_continue strict context (init accountId rules strict).rules {}
  simp only [Option.or_none] at hshort hcont
  refine ⟨fun h => ?_, fun h => ?_⟩
  · calc (stoppers strict context (init accountId rules strict).rules).getLast?
        = ((init accountId rules strict).validate context true).blockedBy := hcont.1.symm
      _ = ((init accountId rules strict).validate context false).blockedBy := h.blockedBy
      _ = _ := hshort.1
  · exact {
      action := action_eq _ context
      blockedBy := hcont.1.trans (h.trans hshort.1.symm)
      blockingReason := hcont.2.trans ((congrArg _ h).trans hshort.2.symm)
      permutation := fun rules' hperm cont => isBlocked_perm hperm cont cont
      priorities := by
        intro cont blocking rule hblocked hrule hlt
        have hmem := (mem_evaluated_of_blockedBy _ _ hblocked).resolve_left
          (Option.some_ne_none blocking).symm
        exact mem_prefix_of_lt (init_sorted accountId rules strict) (evaluated_isPrefix _) hmem
          (mem_init_rules.mpr hrule) hlt }

/-- Two rules that block: the engine that goes on names the less critical. -/
theorem two_blocks_not_lawful :
    ¬ EvaluationLaws "ftmo-1" true
      [{ ruleType := "max_drawdown", name := "Max drawdown", priority := 10,
         validate := fun _ => .ok { action := .block, message := "drawdown limit reached" } },
       { ruleType := "news_filter", name := "News filter", priority := 20,
         validate := fun _ => .ok { action := .block, message := "news window" } }] [] := by
  intro h
  exact absurd h.blockingReason (by decide)

end RuleEngine

end TdSandboxed
