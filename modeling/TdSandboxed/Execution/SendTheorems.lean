/-
TdSandboxed.Execution.SendTheorems — when an order can reach the gateway.

The rule check is the only step of `send_order_and_wait` that keeps an
order from the gateway for good: the exposure gate lets it through when
Redis raises. So an order can be handed over in some run exactly when the
validator does not block it in the context of the call's first stretch
(`sends_iff`), and `send_order` sends exactly the same orders
(`sendOrder_ok_iff`).
-/
import TdSandboxed.Execution.RuleContext
import TdSandboxed.Execution.ValidatedAdapterSteps

namespace TdSandboxed

open Lib Lib.TaskSystem

/-- Some run of the call that begins here hands the order to the gateway's
`send_order_and_wait`. -/
def Sends (w : Wiring) (sh : Shared) (i : ℕ) (o : Order) (now : ℚ) : Prop :=
  ∃ es p, Run ((adapterSystem w).solo i) (sh, { order := o }) (.inl (.start now) :: es) p ∧
    p.2.sent = true

variable {w : Wiring} {sh : Shared} {i : ℕ} {c : Call} {o : Order} {now : ℚ}

theorem Call.step_finished {out : Outcome} (hp : c.phase = .finished out) (e : CallEvent) :
    Call.step w sh i c e = none := by
  simp [Call.step, hp]

/-- A call that has finished does nothing more. -/
theorem finished_run {out : Outcome} {es : List (CallEvent ⊕ EnvEvent)} {p : Shared × Call}
    (hp : c.phase = .finished out) (h : Run ((adapterSystem w).solo i) (sh, c) es p) : p.2 = c := by
  refine h.invariant_state (fun p => p.2 = c) rfl ?_
  rintro ⟨sh₁, c₁⟩ e q rfl _ hs
  rcases solo_cases hs with ⟨d, rfl, hd⟩ | ⟨d, rfl, -, hq⟩
  · have hnone : Call.step w sh₁ i c₁ d = none := Call.step_finished hp d
    exact absurd (hnone.symm.trans hd) (by simp)
  · exact hq

theorem start_of_blocked
    (hb : (w.validator.validateOrder now o (buildAccountState w sh.books o)).isBlocked = true) :
    ∃ x, Call.start w sh i { order := o } now =
      (sh, { order := o, phase := .finished (.raised (.blocked x)) }) := by
  simp only [Call.start, hb, if_true, Call.goto]
  exact ⟨_, rfl⟩

/-- **Nothing but the validator can keep an order back for good.** -/
theorem sends_iff : Sends w sh i o now ↔
    (w.validator.validateOrder now o (buildAccountState w sh.books o)).isBlocked = false := by
  constructor
  · rintro ⟨es, p, hrun, hsent⟩
    by_contra hb
    obtain ⟨x, hstart⟩ := start_of_blocked (i := i) (Bool.eq_true_of_not_eq_false hb)
    have hexec := hrun.exec_eq
    simp only [exec, solo, adapterSystem, Call.step, hstart, Option.bind_some] at hexec
    have hstuck := finished_run rfl (Run.of_exec hexec)
    simp [hstuck] at hsent
  · intro hb
    have hstart : ∀ s, gateHead w o (buildAccountState w sh.books o) = s →
        ∃ es, (exec ((adapterSystem w).solo i) (sh, { order := o }) (.inl (.start now) :: es)).any
          (fun p => p.2.sent) = true := by
      intro s hs
      cases s with
      | skip => exact ⟨[], by simp [exec, solo, adapterSystem, Call.step, Call.start, hb, hs, Call.hand]⟩
      | readCounter g | evalsha g =>
        -- a failing Redis call lets the order through
        refine ⟨[.inl (.fail "ConnectionError()")], ?_⟩
        simp [exec, solo, adapterSystem, Call.step, Call.start, hb, hs, Call.goto, Call.hand]
    obtain ⟨es, hes⟩ := hstart _ rfl
    obtain ⟨p, hrun, hp⟩ := Run.exists_of_exec _ _ _ _ hes
    exact ⟨es, p, hrun, hp⟩

variable {b : Books}

/-- Fire and forget goes by the same check. -/
theorem sendOrder_ok_iff : (∃ sent, sendOrder w b now o = .ok sent) ↔
    (w.validator.validateOrder now o (buildAccountState w b o)).isBlocked = false := by
  unfold sendOrder
  dsimp only
  split
  · rename_i hb
    simp [hb]
  · rename_i hb
    simpa using hb

/-- The validator lets an order through exactly when no rule stops it. -/
theorem not_isBlocked_iff :
    (w.validator.validateOrder now o (buildAccountState w b o)).isBlocked = false ↔
      ¬∃ r ∈ w.validator.ruleEngine.rules,
        r.Stops w.validator.ruleEngine.strictMode (orderContext w b o now) := by
  rw [← Bool.not_eq_true]
  exact not_congr (w.validator.validateOrder_isBlocked_iff now o _)

end TdSandboxed
