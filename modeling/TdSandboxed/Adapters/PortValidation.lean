/-
TdSandboxed.Adapters.PortValidation — the port check before the connections
are started (`adapters/mt5_connection_manager.py`).

Of each active account the check keeps the host, the tick port and the order
port together, and refuses the second account with the same three. An
adapter connects to the tick port on its account's host and binds the order
port on the loopback address, whatever the host.
-/
import Mathlib.Data.List.Pairwise
import TdSandboxed.Lib.PyJson
import TdSandboxed.Lib.OrderedDict

namespace TdSandboxed.PortValidation

open Lib (OrderedDict)

/-! ## Configuration -/

structure MT5Config where
  zmqHost : String := "localhost"
  zmqTickPort : ℕ := 5556
  zmqOrderPort : ℕ := 5557
  tick_bounds : 1024 ≤ zmqTickPort ∧ zmqTickPort ≤ 65535 := by decide
  order_bounds : 1024 ≤ zmqOrderPort ∧ zmqOrderPort ≤ 65535 := by decide

inductive AccountStatus
  | active
  | paused
  | stopped
  deriving DecidableEq

structure AccountConfig where
  id : String
  status : AccountStatus := .active
  mt5 : MT5Config := {}

/-- `_account_manager._accounts` -/
abbrev Accounts := OrderedDict String AccountConfig

structure ZmqConfig where
  bridgeHost : String := "localhost"
  tickPort : ℕ := 5556
  orderPort : ℕ := 5557
  bindAddress : String := "127.0.0.1"
  accountId : Option String := none

/-- `_create_zmq_config` -/
def createZmqConfig (account : AccountConfig) : ZmqConfig where
  bridgeHost := account.mt5.zmqHost
  tickPort := account.mt5.zmqTickPort
  orderPort := account.mt5.zmqOrderPort
  accountId := some account.id

/-- `f"tcp://{host}:{port}"` -/
def endpoint (host : String) (port : ℕ) : String := "tcp://" ++ host ++ ":" ++ toString port

/-- Where the adapter of an account connects for its ticks. -/
def subEndpoint (account : AccountConfig) : String :=
  endpoint (createZmqConfig account).bridgeHost (createZmqConfig account).tickPort

/-- What the adapter of an account binds for its orders. -/
def pubEndpoint (account : AccountConfig) : String :=
  endpoint (createZmqConfig account).bindAddress (createZmqConfig account).orderPort

/-! ## The check -/

/-- The three that are compared. -/
structure PortKey where
  host : String
  tick : ℕ
  order : ℕ
  deriving DecidableEq

def portKey (account : AccountConfig) : PortKey :=
  ⟨account.mt5.zmqHost, account.mt5.zmqTickPort, account.mt5.zmqOrderPort⟩

def conflictMessage (existing accountId : String) (mt5 : MT5Config) : String :=
  s!"Port conflict: accounts '{existing}' and '{accountId}' " ++
    s!"share ports {mt5.zmqHost}:{mt5.zmqTickPort}/{mt5.zmqOrderPort}. " ++
    "Each account needs unique ZMQ ports."

/-- The loop of the check, with the ports used so far. -/
def checkFrom (portUsage : List (PortKey × String)) :
    List (String × AccountConfig) → Except String Unit
  | [] => .ok ()
  | (accountId, account) :: rest =>
    if account.status ≠ .active then checkFrom portUsage rest
    else
      match portUsage.lookup (portKey account) with
      | some existing => .error (conflictMessage existing accountId account.mt5)
      | none => checkFrom (portUsage ++ [(portKey account, accountId)]) rest

/-- `_validate_port_conflicts`; an error is a `ValueError`. -/
def validatePortConflicts (accounts : Accounts) : Except String Unit :=
  checkFrom [] accounts.items

/-! ## What the ports should be -/

/-- Two active accounts of a configuration. -/
def ActivePair (accounts : Accounts) (a b : AccountConfig) : Prop :=
  ∃ x y, x ≠ y ∧ (x, a) ∈ accounts.items ∧ (y, b) ∈ accounts.items ∧
    a.status = .active ∧ b.status = .active

/-- No port has two uses: no two adapters bind the same endpoint, and none
binds a port that another account on its host takes its ticks from. -/
structure Exclusive (accounts : Accounts) : Prop where
  orders : ∀ a b, ActivePair accounts a b → pubEndpoint a ≠ pubEndpoint b
  roles : ∀ a b, ActivePair accounts a b → a.mt5.zmqHost = b.mt5.zmqHost →
    a.mt5.zmqOrderPort ≠ b.mt5.zmqTickPort

/-- No two adapters have both endpoints in common. -/
def Apart (accounts : Accounts) : Prop :=
  ∀ a b, ActivePair accounts a b → subEndpoint a = subEndpoint b → pubEndpoint a ≠ pubEndpoint b

/-! ## Endpoints -/

/-- What stands behind the last colon of a text, and what before it. -/
theorem append_cons_inj_last {α : Type} [DecidableEq α] {c : α} {l l' a b : List α} (ha : c ∉ a)
    (hb : c ∉ b) (h : l ++ c :: a = l' ++ c :: b) : l = l' ∧ a = b := by
  have htake : ∀ {m d : List α}, c ∉ d →
      (m ++ c :: d).reverse.takeWhile (fun x => x ≠ c) = d.reverse := by
    intro m d hd
    have hne : ∀ x ∈ d.reverse, decide (x ≠ c) = true := by
      intro x hx
      refine decide_eq_true ?_
      rintro rfl
      exact hd (List.mem_reverse.mp hx)
    rw [List.reverse_append, List.reverse_cons, List.append_assoc,
      List.takeWhile_append_of_pos hne]
    simp
  have hab : a = b := by
    rw [← List.reverse_inj, ← htake ha (m := l), h, htake hb]
  subst hab
  exact ⟨List.append_cancel_right h, rfl⟩

theorem toList_endpoint (host : String) (port : ℕ) :
    (endpoint host port).toList = "tcp://".toList ++ (host.toList ++ ':' :: Nat.toDigits 10 port) := by
  simp [endpoint, Nat.toList_repr]

theorem colon_not_mem_toDigits (n : ℕ) : ':' ∉ Nat.toDigits 10 n := by
  intro hmem
  have hdigit := Lib.isDigit_toDigits _ hmem
  cases hdigit

theorem endpoint_inj {host host' : String} {port port' : ℕ} :
    endpoint host port = endpoint host' port' ↔ host = host' ∧ port = port' := by
  constructor
  · intro h
    have hlists := congrArg String.toList h
    rw [toList_endpoint, toList_endpoint] at hlists
    obtain ⟨hhost, hport⟩ := append_cons_inj_last (colon_not_mem_toDigits port)
      (colon_not_mem_toDigits port') (List.append_cancel_left hlists)
    exact ⟨String.toList_inj.mp hhost, Lib.toDigits_inj.mp hport⟩
  · rintro ⟨rfl, rfl⟩
    rfl

/-- The three that the check compares are the two endpoints. -/
theorem portKey_eq_iff {a b : AccountConfig} :
    portKey a = portKey b ↔ subEndpoint a = subEndpoint b ∧ pubEndpoint a = pubEndpoint b := by
  simp only [portKey, subEndpoint, pubEndpoint, createZmqConfig, endpoint_inj, PortKey.mk.injEq,
    true_and, and_assoc]

/-! ## What the check finds -/

theorem checkFrom_ok_iff (portUsage : List (PortKey × String))
    (items : List (String × AccountConfig)) :
    checkFrom portUsage items = .ok () ↔
      (∀ p ∈ items, p.2.status = .active → portKey p.2 ∉ portUsage.map Prod.fst) ∧
        items.Pairwise fun p q => p.2.status = .active → q.2.status = .active →
          portKey p.2 ≠ portKey q.2 := by
  induction items generalizing portUsage with
  | nil => simp [checkFrom]
  | cons p rest ih =>
    obtain ⟨accountId, account⟩ := p
    rw [checkFrom, List.pairwise_cons, List.forall_mem_cons]
    by_cases hactive : account.status = .active
    · rw [if_neg (not_not_intro hactive)]
      cases hlookup : portUsage.lookup (portKey account) with
      | some existing =>
        have hused : portKey account ∈ portUsage.map Prod.fst := Lib.mem_keys_iff.mpr ⟨existing, hlookup⟩
        simp [hactive, hused]
      | none =>
        have hfree := Lib.not_mem_keys_iff.mpr hlookup
        simp only [ih, hactive, hfree, List.map_append, List.map_cons, List.map_nil,
          List.mem_append, List.mem_singleton, not_or, forall_const, not_false_eq_true, true_and]
        constructor
        · rintro ⟨huse, hpairs⟩
          exact ⟨fun q hq hqa => (huse q hq hqa).1, fun q hq hqa => Ne.symm (huse q hq hqa).2, hpairs⟩
        · rintro ⟨huse, hhead, hpairs⟩
          exact ⟨fun q hq hqa => ⟨huse q hq hqa, Ne.symm (hhead q hq hqa)⟩, hpairs⟩
    · rw [if_pos hactive, ih]
      simp [hactive]

/-- An error names two active accounts with the same ports. -/
theorem checkFrom_error {portUsage : List (PortKey × String)}
    {before items : List (String × AccountConfig)} {message : String}
    (husage : ∀ u ∈ portUsage, ∃ a, (u.2, a) ∈ before ∧ a.status = .active ∧ portKey a = u.1)
    (h : checkFrom portUsage items = .error message) :
    ∃ x y a b, (x, a) ∈ before ++ items ∧ (y, b) ∈ items ∧ a.status = .active ∧
      b.status = .active ∧ portKey a = portKey b ∧ message = conflictMessage x y b.mt5 := by
  induction items generalizing portUsage before with
  | nil => cases h
  | cons p rest ih =>
    obtain ⟨accountId, account⟩ := p
    rw [checkFrom] at h
    have hnext : ∀ {usage : List (PortKey × String)},
        (∀ u ∈ usage, ∃ a, (u.2, a) ∈ before ++ [(accountId, account)] ∧ a.status = .active ∧
          portKey a = u.1) → checkFrom usage rest = .error message →
        ∃ x y a b, (x, a) ∈ before ++ (accountId, account) :: rest ∧
          (y, b) ∈ (accountId, account) :: rest ∧ a.status = .active ∧ b.status = .active ∧
            portKey a = portKey b ∧ message = conflictMessage x y b.mt5 := by
      intro usage husage hcheck
      obtain ⟨x, y, a, b, ha, hb, hrest⟩ := ih husage hcheck
      rw [List.append_assoc] at ha
      exact ⟨x, y, a, b, ha, List.mem_cons_of_mem _ hb, hrest⟩
    have hkeep : ∀ u ∈ portUsage, ∃ a, (u.2, a) ∈ before ++ [(accountId, account)] ∧
        a.status = .active ∧ portKey a = u.1 := by
      intro u hu
      obtain ⟨a, ha, hrest⟩ := husage u hu
      exact ⟨a, List.mem_append_left _ ha, hrest⟩
    by_cases hactive : account.status = .active
    · rw [if_neg (not_not_intro hactive)] at h
      cases hlookup : portUsage.lookup (portKey account) with
      | some existing =>
        simp only [hlookup] at h
        obtain ⟨a, ha, haa, hkey⟩ := husage _ (Lib.mem_of_lookup hlookup)
        exact ⟨existing, accountId, a, account, List.mem_append_left _ ha, List.mem_cons_self, haa,
          hactive, hkey, (Except.error.inj h).symm⟩
      | none =>
        simp only [hlookup] at h
        refine hnext ?_ h
        intro u hu
        obtain hu | hu := List.mem_append.mp hu
        · exact hkeep u hu
        · rw [List.mem_singleton.mp hu]
          exact ⟨account, by simp, hactive, rfl⟩
    · rw [if_pos hactive] at h
      exact hnext hkeep h

theorem validatePortConflicts_error {accounts : Accounts} {message : String}
    (h : validatePortConflicts accounts = .error message) :
    ∃ x y a b, (x, a) ∈ accounts.items ∧ (y, b) ∈ accounts.items ∧ a.status = .active ∧
      b.status = .active ∧ portKey a = portKey b ∧ message = conflictMessage x y b.mt5 := by
  have hnone : ∀ u ∈ ([] : List (PortKey × String)),
      ∃ a, (u.2, a) ∈ ([] : List (String × AccountConfig)) ∧ a.status = .active ∧ portKey a = u.1 := by
    intro u hu
    cases hu
  exact checkFrom_error hnone h

/-- **The check lets a configuration pass exactly when no two adapters have
both endpoints in common.** -/
theorem validatePortConflicts_ok_iff (accounts : Accounts) :
    validatePortConflicts accounts = .ok () ↔ Apart accounts := by
  have hnodup : accounts.items.Nodup := List.Nodup.of_map _ accounts.nodup
  rw [validatePortConflicts, checkFrom_ok_iff]
  constructor
  · rintro ⟨-, hpairs⟩ a b ⟨x, y, hxy, ha, hb, haa, hba⟩ hsub hpub
    have hsymm : Std.Symm fun p q : String × AccountConfig =>
        p.2.status = .active → q.2.status = .active → portKey p.2 ≠ portKey q.2 :=
      ⟨fun p q hpq hq hp => (hpq hp hq).symm⟩
    have hne : (x, a) ≠ (y, b) := fun heq => hxy (congrArg Prod.fst heq)
    exact hpairs.forall ha hb hne haa hba (portKey_eq_iff.mpr ⟨hsub, hpub⟩)
  · intro hapart
    refine ⟨by simp, hnodup.pairwise_of_forall_ne ?_⟩
    intro p hp q hq hne haa hba hkey
    have hnames : p.1 ≠ q.1 := by
      intro hname
      have hvalue := Lib.lookup_of_mem accounts.nodup hp
      rw [hname, Lib.lookup_of_mem accounts.nodup hq] at hvalue
      exact hne (Prod.ext hname (Option.some.inj hvalue).symm)
    obtain ⟨hsub, hpub⟩ := portKey_eq_iff.mp hkey
    exact hapart p.2 q.2 ⟨p.1, q.1, hnames, hp, hq, haa, hba⟩ hsub hpub

/-! ## Ports with two uses -/

/-- The adapters of two accounts need one port for two uses. -/
def Collide (a b : AccountConfig) : Prop :=
  a.mt5.zmqOrderPort = b.mt5.zmqOrderPort ∨
    a.mt5.zmqHost = b.mt5.zmqHost ∧ a.mt5.zmqOrderPort = b.mt5.zmqTickPort

theorem pubEndpoint_eq_iff {a b : AccountConfig} :
    pubEndpoint a = pubEndpoint b ↔ a.mt5.zmqOrderPort = b.mt5.zmqOrderPort := by
  simp only [pubEndpoint, createZmqConfig, endpoint_inj, true_and]

theorem exclusive_iff (accounts : Accounts) :
    Exclusive accounts ↔ ∀ a b, ActivePair accounts a b → ¬Collide a b := by
  constructor
  · rintro ⟨horders, hroles⟩ a b hab (horder | ⟨hhost, hrole⟩)
    · exact horders a b hab (pubEndpoint_eq_iff.mpr horder)
    · exact hroles a b hab hhost hrole
  · intro h
    constructor
    · intro a b hab hpub
      exact h a b hab (.inl (pubEndpoint_eq_iff.mp hpub))
    · intro a b hab hhost hrole
      exact h a b hab (.inr ⟨hhost, hrole⟩)

/-- Two bridges on one host, with one order port. -/
def sharedOrderPort : Accounts where
  items := [("a", { id := "a" }), ("b", { id := "b", mt5 := { zmqTickPort := 5558 } })]
  nodup := by decide

/-- Two bridges on two hosts, with the ports of the defaults. -/
def twoHosts : Accounts where
  items := [("a", { id := "a", mt5 := { zmqHost := "host1" } }),
    ("b", { id := "b", mt5 := { zmqHost := "host2" } })]
  nodup := by decide

/-- Two bridges on one host: one takes its ticks from the port that the
other's orders are bound to. -/
def crossedRoles : Accounts where
  items := [("a", { id := "a" }),
    ("b", { id := "b", mt5 := { zmqTickPort := 5557, zmqOrderPort := 5558 } })]
  nodup := by decide

end TdSandboxed.PortValidation
