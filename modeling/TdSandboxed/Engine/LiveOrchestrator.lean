/-
TdSandboxed.Engine.LiveOrchestrator — the sessions the orchestrator builds
from one `EngineConfig` (`engine/live_orchestrator.py`,
`engine/node_factory.py`, `engine/config.py`).

A session gets the rule engine resolved for its account and, when
everything is wired, a trading node whose execution client closes over the
account id and the configuration's `validated_adapter`. That adapter was
built before, with a validator and a rule engine of its own; the session's
engine goes to the compliance actor only.

The fields are those the orders of an account pass through. The rule
assignment service is the function it is used as, and may raise. A
configuration without account manager or assignment service builds no
components and is left out, as are the compliance and regime actors.
-/
import TdSandboxed.Engine.OrderTranslator
import TdSandboxed.Execution.ValidatedAdapter

namespace TdSandboxed

/-- An account as the account manager knows it. -/
structure AccountConfig where
  account : AccountId
  symbols : List String

structure EngineConfig where
  accounts : List AccountConfig
  activeAccountIds : List String
  getRulesForAccount : AccountConfig → Except PyException (List BaseRule)
  redisManager : Bool := true
  validatedAdapter : Option Wiring := none
  barTimeframes : List String := ["1m"]

/-- The execution client of an account's node: the factory closes over the
account id and the adapter. -/
structure ZmqExecutionClient where
  account : AccountId
  validatedAdapter : Wiring

structure LiveAccountSession where
  account : AccountId
  ruleEngine : RuleEngine
  barSubscriptions : List (String × String)
  execClient : Option ZmqExecutionClient

namespace EngineConfig

def getAccount (cfg : EngineConfig) (accountId : String) : Option AccountConfig :=
  cfg.accounts.find? fun a => a.account.id = accountId

def computeBarSubscriptions (cfg : EngineConfig) (a : AccountConfig) : List (String × String) :=
  a.symbols.flatMap fun symbol => cfg.barTimeframes.map fun tf => (symbol, tf)

/-- The client of the node, when there is one. -/
def buildTradingNodeIfReady (cfg : EngineConfig) (a : AccountConfig)
    (barSubscriptions : List (String × String)) : Option ZmqExecutionClient :=
  if !cfg.redisManager || barSubscriptions.isEmpty then none
  else cfg.validatedAdapter.map fun w => { account := a.account, validatedAdapter := w }

def buildSessionComponents (cfg : EngineConfig) (accountId : String) :
    Except PyException LiveAccountSession :=
  match cfg.getAccount accountId with
  | none =>
    .error (.runtimeError (s!"Account '{accountId}' is active but missing from AccountManager " ++
      "— cannot build live session"))
  | some a =>
    match cfg.getRulesForAccount a with
    | .error e => .error e
    | .ok rules =>
      let barSubscriptions := cfg.computeBarSubscriptions a
      .ok
        { account := a.account, ruleEngine := .init accountId rules, barSubscriptions
          execClient := cfg.buildTradingNodeIfReady a barSubscriptions }

/-- `_start_all_sessions`: an account whose session cannot be built is
isolated, and the others go on. -/
def startAllSessions (cfg : EngineConfig) : List LiveAccountSession :=
  cfg.activeAccountIds.eraseDups.filterMap fun id => (cfg.buildSessionComponents id).toOption

/-- What a session was built from. -/
theorem buildSessionComponents_ok {cfg : EngineConfig} {accountId : String}
    {s : LiveAccountSession} (h : cfg.buildSessionComponents accountId = .ok s) :
    ∃ a rules, cfg.getAccount accountId = some a ∧ cfg.getRulesForAccount a = .ok rules ∧
      s.account = a.account ∧ s.ruleEngine = .init accountId rules ∧
      s.execClient = cfg.buildTradingNodeIfReady a (cfg.computeBarSubscriptions a) := by
  unfold buildSessionComponents at h
  split at h
  · contradiction
  · rename_i a ha
    split at h
    · contradiction
    · rename_i rules hrules
      obtain rfl := Except.ok.inj h
      exact ⟨a, rules, ha, hrules, rfl, rfl, rfl⟩

/-- The client of a session routes to the session's account, through the
one adapter of the configuration. -/
theorem execClient_of_mem {cfg : EngineConfig} {s : LiveAccountSession} {client : ZmqExecutionClient}
    (hs : s ∈ cfg.startAllSessions) (hc : s.execClient = some client) :
    client.account = s.account ∧ cfg.validatedAdapter = some client.validatedAdapter := by
  obtain ⟨id, -, hid⟩ := List.mem_filterMap.mp hs
  cases hb : cfg.buildSessionComponents id with
  | error e => simp [hb, Except.toOption] at hid
  | ok s' =>
    obtain rfl : s' = s := by simpa [hb, Except.toOption] using hid
    obtain ⟨a, rules, -, -, haccount, -, hnode⟩ := buildSessionComponents_ok hb
    rw [hnode, buildTradingNodeIfReady] at hc
    split at hc
    · contradiction
    · obtain ⟨w, hw, rfl⟩ := Option.map_eq_some_iff.mp hc
      exact ⟨haccount.symm, hw⟩

end EngineConfig

end TdSandboxed
