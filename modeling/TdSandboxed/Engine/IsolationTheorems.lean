/-
TdSandboxed.Engine.IsolationTheorems — whose rules an account's orders are
checked against.

Every client of a configuration sends through the one `validated_adapter`,
so an account's order is checked against the rules of that adapter's
engine, whoever they belong to. The rules resolved for the account decide
nothing on this path. Changing another account's rules therefore changes
nothing, and the account's own rules are enforced exactly as far as the
shared rules cover them (`own_rules_enforced_iff`).
-/
import TdSandboxed.Engine.DispatchTheorems
import TdSandboxed.Engine.LiveOrchestrator
import TdSandboxed.Execution.SendTheorems

namespace TdSandboxed

/-- The rules of the engine stop the order in this context. -/
def RuleEngine.Stops (engine : RuleEngine) (context : Dict) : Prop :=
  ∃ r ∈ engine.rules, r.Stops engine.strictMode context

theorem RuleEngine.stops_iff (engine : RuleEngine) (context : Dict) :
    engine.Stops context ↔ (engine.validate context).isBlocked = true :=
  (engine.validate_isBlocked_iff context false).symm

/-- An order goes out exactly when the shared engine does not stop it. -/
theorem sends_iff_not_stops {w : Wiring} {sh : Shared} {i : ℕ} {o : Order} {now : ℚ} :
    Sends w sh i o now ↔ ¬w.validator.ruleEngine.Stops (orderContext w sh.books o now) :=
  sends_iff.trans not_isBlocked_iff

namespace EngineConfig

/-- The same configuration with other rules assigned. -/
def withRules (cfg : EngineConfig) (rules : AccountConfig → Except PyException (List BaseRule)) :
    EngineConfig :=
  { cfg with getRulesForAccount := rules }

/-- What is asked of the sessions of a configuration: an order submitted
through an account's client can only be sent when the engine resolved for
the account does not block it, and what is decided for it does not depend
on the rules of other accounts. -/
structure OwnRulesEnforced (cfg : EngineConfig) : Prop where
  sent_only_if : ∀ s ∈ cfg.startAllSessions, ∀ client, s.execClient = some client →
    ∀ n o, toInternalOrder n client.account = .ok o → ∀ sh i now,
      Sends client.validatedAdapter sh i o now →
        (s.ruleEngine.validate (orderContext client.validatedAdapter sh.books o now)).isBlocked = false
  noninterference : ∀ rules, ∀ s ∈ cfg.startAllSessions, ∀ s' ∈ (cfg.withRules rules).startAllSessions,
    s'.account = s.account →
    (∀ a ∈ cfg.accounts, a.account = s.account → rules a = cfg.getRulesForAccount a) →
    ∀ client client', s.execClient = some client → s'.execClient = some client' →
      ∀ sh i o now, Sends client'.validatedAdapter sh i o now ↔ Sends client.validatedAdapter sh i o now

/-- Two configurations with one adapter decide alike. -/
theorem decisions_eq {cfg : EngineConfig} {rules : AccountConfig → Except PyException (List BaseRule)}
    {s s' : LiveAccountSession} (hs : s ∈ cfg.startAllSessions)
    (hs' : s' ∈ (cfg.withRules rules).startAllSessions) {client client' : ZmqExecutionClient}
    (hc : s.execClient = some client) (hc' : s'.execClient = some client') :
    client'.validatedAdapter = client.validatedAdapter := by
  have hw : cfg.validatedAdapter = some client.validatedAdapter := (execClient_of_mem hs hc).2
  have hw' : cfg.validatedAdapter = some client'.validatedAdapter := (execClient_of_mem hs' hc').2
  exact Option.some.inj (hw'.symm.trans hw)

/-- **The exact condition.** An account's own rules are enforced if and
only if whatever they stop, some rule of the shared engine stops. -/
theorem own_rules_enforced_iff (cfg : EngineConfig) :
    cfg.OwnRulesEnforced ↔
      ∀ s ∈ cfg.startAllSessions, ∀ client, s.execClient = some client →
        ∀ n o, toInternalOrder n client.account = .ok o → ∀ (b : Books) (now : ℚ),
          s.ruleEngine.Stops (orderContext client.validatedAdapter b o now) →
            client.validatedAdapter.validator.ruleEngine.Stops
              (orderContext client.validatedAdapter b o now) := by
  constructor
  · intro h s hs client hc n o ho b now hown
    by_contra hshared
    have hsends : Sends client.validatedAdapter { books := b } 0 o now :=
      sends_iff_not_stops.mpr hshared
    have hallowed := h.sent_only_if s hs client hc n o ho { books := b } 0 now hsends
    rw [RuleEngine.stops_iff, hallowed] at hown
    exact Bool.false_ne_true hown
  · intro h
    refine ⟨fun s hs client hc n o ho sh i now hsends => ?_, ?_⟩
    · rw [← Bool.not_eq_true, ← RuleEngine.stops_iff]
      exact fun hown => sends_iff_not_stops.mp hsends (h s hs client hc n o ho sh.books now hown)
    · intro rules s hs s' hs' _ _ client client' hc hc' sh i o now
      rw [decisions_eq hs hs' hc hc']

end EngineConfig

/-! ## One account's rules not enforced -/

/-- Two accounts: `ftmo-001` may hold half a lot, `demo-001` has no rules.
The shared validator was built with the rules of the second. -/
def twoAccounts : EngineConfig :=
  { accounts := [{ account := ftmo, symbols := ["XAUUSD"] },
      { account := { id := "demo-001" }, symbols := ["XAUUSD"] }]
    activeAccountIds := ["ftmo-001", "demo-001"]
    getRulesForAccount := fun a =>
      .ok (if a.account.id = "ftmo-001" then [MaxPositionSizeRule.toBaseRule { maxLots := 1 / 2 }]
        else [])
    validatedAdapter := some { validator := { ruleEngine := .init "demo-001" [] } } }

/-- The session built for `ftmo-001`. -/
def ftmoSession : LiveAccountSession :=
  { account := ftmo
    ruleEngine := .init "ftmo-001" [MaxPositionSizeRule.toBaseRule { maxLots := 1 / 2 }]
    barSubscriptions := [("XAUUSD", "1m")]
    execClient := some
      { account := ftmo
        validatedAdapter := { validator := { ruleEngine := .init "demo-001" [] } } } }

/-- An order of one lot on `ftmo-001` can be sent, and the engine resolved
for the account blocks it. -/
theorem own_rule_not_enforced :
    ∃ s ∈ twoAccounts.startAllSessions, ∃ client, s.execClient = some client ∧
      ∃ o, toInternalOrder goldBuy client.account = .ok o ∧
        Sends client.validatedAdapter {} 0 o 0 ∧
        (s.ruleEngine.validate (orderContext client.validatedAdapter {} o 0)).isBlocked = true ∧
        ¬twoAccounts.OwnRulesEnforced := by
  have hs : ftmoSession ∈ twoAccounts.startAllSessions :=
    List.mem_filterMap.mpr ⟨"ftmo-001", by decide, rfl⟩
  have hside : nautilusToInternalSide goldBuy.side = some .buy := rfl
  obtain ⟨o, ho⟩ := exists_toInternalOrder ftmoSession.account rfl hside (by decide +kernel)
  have hvol : o.volume = 1 := (toInternalOrder_ok ho).2.2.2.2.2
  have hsends : Sends { validator := { ruleEngine := .init "demo-001" [] } } {} 0 o 0 := by
    rw [sends_iff_not_stops]
    rintro ⟨r, hr, -⟩
    simp [RuleEngine.mem_init_rules] at hr
  have hblocked : (ftmoSession.ruleEngine.validate (orderContext
      { validator := { ruleEngine := .init "demo-001" [] } } {} o 0)).isBlocked = true := by
    rw [← RuleEngine.stops_iff]
    refine ⟨_, RuleEngine.mem_init_rules.mpr (List.mem_singleton.mpr rfl), ?_⟩
    rw [MaxPositionSizeRule.stops_orderContext_iff, hvol]
    simp only [positionLots, MaxPositionSizeRule.effectiveMax]
    norm_num
  refine ⟨ftmoSession, hs, _, rfl, o, ho, hsends, hblocked, fun h => ?_⟩
  have hallowed := h.sent_only_if _ hs _ rfl _ o ho {} 0 0 hsends
  rw [hblocked] at hallowed
  exact Bool.false_ne_true hallowed.symm

end TdSandboxed
