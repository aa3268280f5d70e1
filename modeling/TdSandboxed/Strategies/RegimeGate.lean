/-
TdSandboxed.Strategies.RegimeGate — entries under the published regime
(`_regime_admits` of `strategies/base_strategy.py`, its store written by
`regime/actor.py`; `strategies/registry.py` and `_inject_regime_state` of
`engine/node_factory.py` for the regimes of a strategy).

A bar reaches the actor before the strategy, so the strategy reads the
regime of the bar it is called with. The gate stands in front of an entry
and nowhere else: with the gate shut a callback submits what it submits
without a gate, less its entry (`executeSignal_gate`).

Together with `Follows` this says of every run which histories of bars an
entry can come after.
-/
import Mathlib
import TdSandboxed.Regime.RegimeActorTheorems
import TdSandboxed.Strategies.ReversalTheorems

namespace TdSandboxed

open Lib

/-! ## The regimes of a strategy -/

/-- `StrategyRegistry`; what it holds for a name is a class. -/
structure StrategyRegistry (κ : Type) where
  strategies : OrderedDict String κ := .empty
  /-- None: the strategy may trade in every regime. -/
  strategyRegimes : OrderedDict String (Option (List RegimeState)) := .empty

def normaliseRegimes : Option (List RegimeState) → Except PyException (Option (List RegimeState))
  | none => .ok none
  | some declared =>
    if .unknown ∈ declared then
      .error (.valueError ("RegimeState.UNKNOWN is not a valid routing regime " ++
        "(it is the classifier's warmup sentinel)"))
    else .ok (some declared)

inductive RegistryOp (κ : Type)
  | register (name : String) (strategyClass : κ) (regimes : Option (List RegimeState))
  | unregister (name : String)
  | clear

namespace StrategyRegistry

variable {κ : Type}

def register (r : StrategyRegistry κ) (name : String) (strategyClass : κ)
    (regimes : Option (List RegimeState)) : Except PyException (StrategyRegistry κ) :=
  if name = "" then .error (.valueError "Strategy name cannot be empty")
  else if name ∈ r.strategies.keys then
    .error (.valueError s!"Strategy '{name}' is already registered")
  else
    match normaliseRegimes regimes with
    | .error e => .error e
    | .ok normalised =>
      .ok { strategies := r.strategies.set name strategyClass
            strategyRegimes := r.strategyRegimes.set name normalised }

def unregister (r : StrategyRegistry κ) (name : String) : StrategyRegistry κ :=
  if name ∈ r.strategies.keys then
    { strategies := r.strategies.filterKeys fun x => x ≠ name
      strategyRegimes := r.strategyRegimes.filterKeys fun x => x ≠ name }
  else r

def getRegimes (r : StrategyRegistry κ) (name : String) :
    Except PyException (Option (List RegimeState)) :=
  if name ∉ r.strategies.keys then
    let available := ", ".intercalate r.strategies.keys
    .error (.valueError (s!"Strategy '{name}' not registered. Available: " ++
      if available = "" then "none" else available))
  else
    match r.strategyRegimes.get? name with
    | none => .error (.keyError (pyRepr name))
    | some regimes => .ok regimes

/-- A call that raises leaves the registry as it is. -/
def step (r : StrategyRegistry κ) : RegistryOp κ → StrategyRegistry κ
  | .register name strategyClass regimes => (r.register name strategyClass regimes).toOption.getD r
  | .unregister name => r.unregister name
  | .clear => {}

/-- `_inject_regime_state`, with regime gating on. -/
def injectRegimeState (r : StrategyRegistry κ) (accountId strategyName : String)
    (b : BracketSetup) : Except PyException BracketSetup :=
  if strategyName ∉ r.strategies.keys then
    .error (.runtimeError (s!"Regime gating enabled for account {pyRepr accountId} but " ++
      s!"strategy {pyRepr strategyName} has no entry in StrategyRegistry " ++
      "— its @register_strategy decorator has not run. Import the " ++
      "strategy module before building the node (or, in tests, " ++
      "repopulate after StrategyRegistry.clear())."))
  else
    match r.getRegimes strategyName with
    | .error e => .error e
    | .ok allowedRegimes => .ok { b with allowedRegimes }

/-- What a name is registered for, after one more call. -/
def declaredStep (name : String) (d : Option (Option (List RegimeState))) :
    RegistryOp κ → Option (Option (List RegimeState))
  | .register n _ regimes =>
    -- a taken or empty name is refused, and so is `UNKNOWN`
    if n = name ∧ d = none ∧ name ≠ "" ∧ ∀ l ∈ regimes, .unknown ∉ l then some regimes else d
  | .unregister n => if n = name then none else d
  | .clear => none

/-- The regimes that a name is registered for after some calls; none when it
is not registered, and `some none` when it is for every regime. -/
def declared (ops : List (RegistryOp κ)) (name : String) : Option (Option (List RegimeState)) :=
  ops.foldl (declaredStep name) none

/-- Both dicts hold what was declared. -/
structure Holds (r : StrategyRegistry κ) (d : String → Option (Option (List RegimeState))) :
    Prop where
  keys : ∀ name, name ∈ r.strategies.keys ↔ (d name).isSome
  regimes : ∀ name, r.strategyRegimes.get? name = d name

variable {r r' : StrategyRegistry κ} {d : String → Option (Option (List RegimeState))}

/-- A name is registered when it is a new one and no regime is `UNKNOWN`. -/
theorem toOption_register (name : String) (strategyClass : κ) (regimes : Option (List RegimeState)) :
    (r.register name strategyClass regimes).toOption =
      if name ≠ "" ∧ name ∉ r.strategies.keys ∧ ∀ l ∈ regimes, .unknown ∉ l then
        some { strategies := r.strategies.set name strategyClass
               strategyRegimes := r.strategyRegimes.set name regimes }
      else none := by
  unfold register
  by_cases hempty : name = ""
  · simp [hempty, Except.toOption]
  by_cases htaken : name ∈ r.strategies.keys
  · simp [hempty, htaken, Except.toOption]
  cases regimes with
  | none => simp [normaliseRegimes, hempty, htaken, Except.toOption]
  | some l =>
    by_cases hl : RegimeState.unknown ∈ l <;>
      simp [normaliseRegimes, hempty, htaken, hl, Except.toOption]

theorem Holds.not_mem_keys_iff (h : r.Holds d) (name : String) :
    name ∉ r.strategies.keys ↔ d name = none := by
  rw [h.keys, Option.not_isSome_iff_eq_none]

theorem Holds.register (h : r.Holds d) (name : String) (strategyClass : κ)
    (regimes : Option (List RegimeState)) :
    (r.step (.register name strategyClass regimes)).Holds
      fun n => declaredStep n (d n) (.register name strategyClass regimes : RegistryOp κ) := by
  rw [step, toOption_register]
  by_cases hnew : name ≠ "" ∧ name ∉ r.strategies.keys ∧ ∀ l ∈ regimes, RegimeState.unknown ∉ l
  · have hstep : ∀ n, declaredStep n (d n) (.register name strategyClass regimes : RegistryOp κ) =
        if n = name then some regimes else d n := by
      intro n
      by_cases hname : n = name
      · subst hname
        rw [if_pos rfl]
        exact if_pos ⟨rfl, (h.not_mem_keys_iff n).mp hnew.2.1, hnew.1, hnew.2.2⟩
      · rw [if_neg hname]
        exact if_neg fun hn => hname hn.1.symm
    rw [if_pos hnew, Option.getD_some]
    simp only [hstep]
    constructor
    · intro n
      rw [OrderedDict.mem_keys_set, h.keys]
      split_ifs with hname <;> simp [hname]
    · intro n
      rw [OrderedDict.get?_set, h.regimes]
  · have hstep : ∀ n, declaredStep n (d n) (.register name strategyClass regimes : RegistryOp κ) =
        d n := by
      intro n
      refine if_neg ?_
      rintro ⟨rfl, hnone, hne, hknown⟩
      exact hnew ⟨hne, (h.not_mem_keys_iff _).mpr hnone, hknown⟩
    rw [if_neg hnew, Option.getD_none]
    simpa only [hstep] using h

theorem Holds.unregister (h : r.Holds d) (name : String) :
    (r.unregister name).Holds fun n => if name = n then none else d n := by
  unfold StrategyRegistry.unregister
  split
  · refine ⟨fun n => ?_, fun n => ?_⟩
    · rw [OrderedDict.mem_keys_filterKeys, h.keys]
      by_cases hname : name = n
      · simp [hname]
      · simp [hname, Ne.symm hname]
    · rw [OrderedDict.get?_filterKeys_ne, h.regimes]
      by_cases hname : name = n
      · simp [hname]
      · simp [hname, Ne.symm hname]
  · rename_i habsent
    have hnone : d name = none := (h.not_mem_keys_iff name).mp habsent
    have hsame : (fun n => if name = n then none else d n) = d := by
      funext n
      split_ifs with hname
      · exact hname ▸ hnone.symm
      · rfl
    rw [hsame]
    exact h

theorem Holds.step (h : r.Holds d) (op : RegistryOp κ) :
    (r.step op).Holds fun name => declaredStep name (d name) op := by
  cases op with
  | register name strategyClass regimes => exact h.register name strategyClass regimes
  | unregister name => exact h.unregister name
  | clear => exact ⟨fun name => ⟨nofun, nofun⟩, fun name => rfl⟩

/-- After any calls the registry holds what was declared. -/
theorem holds_run (ops : List (RegistryOp κ)) :
    (ops.foldl step ({} : StrategyRegistry κ)).Holds (declared ops) := by
  induction ops using List.reverseRecOn with
  | nil => exact ⟨fun name => ⟨nofun, nofun⟩, fun name => rfl⟩
  | append_singleton ops op ih =>
    have hdeclared : declared (ops ++ [op]) = fun name => declaredStep name (declared ops name) op := by
      funext name
      rw [declared, List.foldl_append]
      rfl
    rw [List.foldl_append, hdeclared]
    exact ih.step op

/-- A strategy gets the regimes that its name is registered for. -/
theorem Holds.injectRegimeState_eq_ok (h : r.Holds d) {accountId strategyName : String}
    {b b' : BracketSetup} :
    r.injectRegimeState accountId strategyName b = .ok b' ↔
      ∃ allowed, d strategyName = some allowed ∧ b' = { b with allowedRegimes := allowed } := by
  have hkeys := h.keys strategyName
  have hregimes := h.regimes strategyName
  unfold StrategyRegistry.injectRegimeState getRegimes
  cases hd : d strategyName with
  | none =>
    have habsent : strategyName ∉ r.strategies.keys := by simp [hkeys, hd]
    simp [habsent]
  | some allowed =>
    have hname : strategyName ∈ r.strategies.keys := by simp [hkeys, hd]
    simp only [hname, not_true_eq_false, if_false, hregimes, hd, Option.some.injEq,
      exists_eq_left', Except.ok.injEq]
    exact eq_comm

end StrategyRegistry

/-! ## The gate in a callback -/

def SubmittedOrder.IsEntry : SubmittedOrder → Bool
  | .bracket _ => true
  | .close _ | .tactic _ => false

/-- What a callback finds without a gate. -/
def CallbackView.ungated (v : CallbackView) : CallbackView := { v with regimeState := none }

theorem CallbackView.closePosition_exits (v : CallbackView) :
    ∀ o ∈ v.closePosition, ¬ o.IsEntry := by
  intro o ho
  unfold CallbackView.closePosition at ho
  split at ho
  · obtain ⟨p, -, rfl⟩ := List.mem_map.mp ho
    exact Bool.false_ne_true
  · cases ho

namespace BracketSetup

variable {b : BracketSetup} {v : CallbackView} {signal : SignalType} {atrValue : ℚ}
  {orders : List SubmittedOrder}

theorem exists_of_regimeAdmits {published : Option RegimeState}
    (hread : v.regimeState = some published) (h : b.regimeAdmits v = true) :
    ∃ state, published = some state ∧ state ≠ .highVolatility ∧ state ≠ .unknown ∧
      ∀ l ∈ b.allowedRegimes, state ∈ l := by
  unfold regimeAdmits at h
  rw [hread] at h
  cases published with
  | none => cases h
  | some state =>
    dsimp only at h
    split at h
    · cases h
    · rename_i hstate
      obtain ⟨hvolatile, hunknown⟩ := not_or.mp hstate
      refine ⟨state, rfl, hvolatile, hunknown, fun l hl => ?_⟩
      have hallowed : b.allowedRegimes = some l := hl
      rw [hallowed] at h
      exact of_decide_eq_true h

/-- What is left of orders when the gate is shut. -/
def gated (b : BracketSetup) (v : CallbackView) (orders : List SubmittedOrder) :
    List SubmittedOrder :=
  if b.regimeAdmits v then orders else orders.filter fun o => !o.IsEntry

theorem submitBracketForEntry_gate (b : BracketSetup) (v : CallbackView) (signal : SignalType)
    (atrValue : ℚ) :
    b.submitBracketForEntry v signal atrValue =
      if b.regimeAdmits v then b.submitBracketForEntry v.ungated signal atrValue else .ok [] := by
  have hflat : v.ungated.isFlat = v.isFlat := rfl
  have hopen : b.regimeAdmits v.ungated = true := rfl
  unfold submitBracketForEntry
  rw [hflat, hopen]
  by_cases hgate : b.regimeAdmits v = true
  · rw [hgate]
    rfl
  · simp [hgate]

/-- An entry submits brackets only. -/
theorem isEntry_of_submitBracketForEntry
    (h : b.submitBracketForEntry v signal atrValue = .ok orders) : ∀ o ∈ orders, o.IsEntry := by
  intro o ho
  unfold submitBracketForEntry at h
  iterate 3
    split at h
    · obtain rfl := Except.ok.inj h
      cases ho
  cases hlast : v.lastClose with
  | none =>
    rw [hlast] at h
    obtain rfl := Except.ok.inj h
    cases ho
  | some entryPrice =>
    rw [hlast] at h
    obtain ⟨⟨qty, sl, tp⟩, -, h⟩ := bind_eq_ok.mp h
    unfold submitBracketOrder at h
    dsimp only at h
    iterate 2
      split at h
      · obtain rfl := Except.ok.inj h
        cases ho
    obtain ⟨order, -, h⟩ := bind_eq_ok.mp h
    obtain rfl := Except.ok.inj h
    obtain rfl := List.mem_singleton.mp ho
    rfl

theorem enterWhenSafe_gate {before : List SubmittedOrder} (hbefore : ∀ o ∈ before, ¬ o.IsEntry)
    (h : b.enterWhenSafe v.ungated signal before = .ok orders) :
    b.enterWhenSafe v signal before = .ok (b.gated v orders) := by
  have hkeep : before.filter (fun o => !o.IsEntry) = before :=
    List.filter_eq_self.mpr fun o ho => by simpa using hbefore o ho
  have hatr : v.ungated.atr = v.atr := rfl
  unfold enterWhenSafe at h ⊢
  rw [hatr] at h
  cases hsafe : safeAtr v.atr with
  | none =>
    rw [hsafe] at h
    obtain rfl := Except.ok.inj h
    simp [gated, hkeep]
  | some atrValue =>
    rw [hsafe] at h
    obtain ⟨entry, hentry, h⟩ := bind_eq_ok.mp h
    obtain rfl := Except.ok.inj h
    have hbrackets := isEntry_of_submitBracketForEntry hentry
    simp only [submitBracketForEntry_gate b v, gated]
    split
    · rw [hentry]
      rfl
    · have hdrop : entry.filter (fun o => !o.IsEntry) = [] :=
        List.filter_eq_nil_iff.mpr fun o ho => by simpa using hbrackets o ho
      rw [List.filter_append, hkeep, hdrop, List.append_nil]
      exact congrArg Except.ok (List.append_nil before)

/-- **The gate takes the entry away and nothing else.** -/
theorem executeSignal_gate (h : MACrossoverStrategy.executeSignal b v.ungated signal = .ok orders) :
    MACrossoverStrategy.executeSignal b v signal = .ok (b.gated v orders) := by
  have hclose : v.ungated.closePosition = v.closePosition := rfl
  have hshort : v.ungated.isShort = v.isShort := rfl
  have hlong : v.ungated.isLong = v.isLong := rfl
  have hexits := v.closePosition_exits
  have hkeep : v.closePosition.filter (fun o => !o.IsEntry) = v.closePosition :=
    List.filter_eq_self.mpr fun o ho => by simpa using hexits o ho
  unfold MACrossoverStrategy.executeSignal at h ⊢
  rw [hclose, hshort, hlong] at h
  split_ifs at h ⊢
  · obtain rfl := Except.ok.inj h
    simp [gated]
  · obtain rfl := Except.ok.inj h
    simp [gated, hkeep]
  · exact enterWhenSafe_gate hexits h
  · exact enterWhenSafe_gate hexits h
  · exact enterWhenSafe_gate (by simp) h

/-- Behind a shut gate there are exits only. -/
theorem executeSignal_shut (hgate : b.regimeAdmits v = false)
    (h : MACrossoverStrategy.executeSignal b v signal = .ok orders) :
    ∀ o ∈ orders, ¬ o.IsEntry := by
  have hshut : ∀ before, b.enterWhenSafe v signal before = .ok before := by
    intro before
    unfold enterWhenSafe
    cases safeAtr v.atr with
    | none => rfl
    | some atrValue =>
      simp only [submitBracketForEntry_gate b v, hgate]
      exact congrArg Except.ok (List.append_nil before)
  have hexits := v.closePosition_exits
  unfold MACrossoverStrategy.executeSignal at h
  rw [hshut, hshut] at h
  split_ifs at h
  iterate 5
    · obtain rfl := Except.ok.inj h
      first | exact hexits | simp

end BracketSetup

/-! ## An actor and a strategy -/

namespace ReversalDesk

variable {offset : String → ℤ → ℤ} {b : BracketSetup} {d : ReversalDesk}

/-- What the callback of a bar submits; none when it raises. -/
def callback (offset : String → ℤ → ℤ) (b : BracketSetup) (d : ReversalDesk) (bar : ReversalBar) :
    Option (List SubmittedOrder) := do
  let (_, signal) ← d.signal offset b bar
  (d.onBar b bar signal).toOption

theorem signal_gate (offset : String → ℤ → ℤ) (b : BracketSetup) (d : ReversalDesk)
    (bar : ReversalBar) (regimeState : Option (Option RegimeState)) :
    d.signal offset b { bar with regimeState } = d.signal offset b bar := by
  unfold signal
  cases d.strategy <;> rfl

/-- A callback under a gate. -/
theorem callback_gate {bar : ReversalBar} {orders : List SubmittedOrder}
    (regimeState : Option (Option RegimeState))
    (h : d.callback offset b { bar with regimeState := none } = some orders) :
    d.callback offset b { bar with regimeState } =
      some (b.gated (d.view { bar with regimeState }) orders) := by
  obtain ⟨⟨strategy, signal⟩, hsignal, h⟩ := Option.bind_eq_some_iff.mp h
  rw [signal_gate] at hsignal
  obtain ⟨submitted, hsubmitted, h⟩ := bind_eq_ok.mp (toOption_eq_some h)
  rw [ReversalStrategy.executeSignal_eq] at hsubmitted
  have hgated := BracketSetup.executeSignal_gate (v := d.view { bar with regimeState }) hsubmitted
  have htactics : (bar.tactics.map SubmittedOrder.tactic).filter (fun o => !o.IsEntry) =
      bar.tactics.map .tactic := List.filter_eq_self.mpr fun o ho => by
    obtain ⟨action, -, rfl⟩ := List.mem_map.mp ho
    rfl
  obtain rfl := Except.ok.inj h
  rw [callback, signal_gate, hsignal]
  simp only [Option.bind_eq_bind, Option.bind_some, onBar, ReversalStrategy.executeSignal_eq,
    hgated]
  unfold BracketSetup.gated
  split
  · rfl
  · have hflat : (d.view { bar with regimeState := none }).isFlat =
        (d.view { bar with regimeState }).isFlat := rfl
    simp only [hflat, List.filter_append]
    split
    · rfl
    · rw [htactics]
      rfl

/-- Behind a shut gate a callback submits no entry. -/
theorem callback_shut {bar : ReversalBar} {orders : List SubmittedOrder} {order : BracketOrder}
    (h : d.callback offset b bar = some orders) (ho : .bracket order ∈ orders) :
    b.regimeAdmits (d.view bar) = true := by
  by_contra hgate
  obtain ⟨⟨strategy, signal⟩, -, h⟩ := Option.bind_eq_some_iff.mp h
  obtain ⟨submitted, hsubmitted, h⟩ := bind_eq_ok.mp (toOption_eq_some h)
  rw [ReversalStrategy.executeSignal_eq] at hsubmitted
  obtain rfl := Except.ok.inj h
  obtain hmem | hmem := List.mem_append.mp ho
  · exact BracketSetup.executeSignal_shut (Bool.eq_false_iff.mpr hgate) hsubmitted _ hmem rfl
  · split at hmem
    · cases hmem
    · obtain ⟨action, -, haction⟩ := List.mem_map.mp hmem
      cases haction

end ReversalDesk

/-- The strategy of a bar type, and what a session computes with. -/
structure GatedSetup (F : Type) where
  sqrt : F → F
  log : F → F
  twoPlaces : F → String
  offset : String → ℤ → ℤ
  barType : BarType
  bracket : BracketSetup

structure GatedDesk (F σ : Type) [Field F] [LinearOrder F] where
  stage : RegimeStage F σ
  desk : ReversalDesk

inductive GatedEvent (F : Type)
  /-- A bar, and what the strategy has of it beside the regime. -/
  | bar (bar : RegimeBar F) (seen : ReversalBar)
  | exitFilled (positionId : ℕ)
  | reset

/-- The bars of a session. -/
def sessionBars {F : Type} (es : List (GatedEvent F)) : List (RegimeBar F) :=
  es.filterMap fun e => match e with
    | .bar bar _ => some bar
    | .exitFilled _ | .reset => none

/-- What `_regime_admits` reads. -/
def RegimeStateStore.reading {F : Type} (s : RegimeStateStore F) (barType : BarType) :
    Option (Option RegimeState) :=
  some ((s.current barType.text).map (·.currentState))

namespace GatedDesk

variable {F σ : Type} [Field F] [LinearOrder F]

/-- The actor first, then the strategy. -/
def step (u : GatedSetup F) (g : GatedDesk F σ) : GatedEvent F → Option (GatedDesk F σ)
  | .bar bar seen => do
    let stage ← (g.stage.onBar u.sqrt u.log u.twoPlaces bar).toOption
    let regimeState := stage.store.reading u.barType
    let desk ← g.desk.step u.offset u.bracket (.bar { seen with regimeState })
    return { stage, desk }
  | .exitFilled positionId => do
    let desk ← g.desk.step u.offset u.bracket (.exitFilled positionId)
    return { g with desk }
  | .reset => do
    let desk ← g.desk.step u.offset u.bracket .reset
    return { g with desk }

/-- The orders of a bar. -/
def submitted (u : GatedSetup F) (g : GatedDesk F σ) (bar : RegimeBar F) (seen : ReversalBar) :
    Option (List SubmittedOrder) := do
  let stage ← (g.stage.onBar u.sqrt u.log u.twoPlaces bar).toOption
  g.desk.callback u.offset u.bracket { seen with regimeState := stage.store.reading u.barType }

variable {u : GatedSetup F} {g g' : GatedDesk F σ} {es : List (GatedEvent F)}

/-- The actor of a session has seen the bars of the session. -/
theorem exec_stage (h : exec (step u) g es = some g') :
    g.stage.run u.sqrt u.log u.twoPlaces (sessionBars es) = .ok g'.stage := by
  induction es generalizing g with
  | nil =>
    obtain rfl := Option.some.inj h
    rfl
  | cons e es ih =>
    obtain ⟨g₁, hstep, hrest⟩ := Option.bind_eq_some_iff.mp h
    have hrun := ih hrest
    cases e with
    | bar bar seen =>
      obtain ⟨stage, hstage, hstep⟩ := Option.bind_eq_some_iff.mp hstep
      obtain ⟨desk, -, hstep⟩ := Option.bind_eq_some_iff.mp hstep
      obtain rfl := Option.some.inj hstep
      have hbars : sessionBars (.bar bar seen :: es) = bar :: sessionBars es := rfl
      rw [hbars, RegimeStage.run, List.foldlM_cons, toOption_eq_some hstage]
      exact hrun
    | exitFilled positionId =>
      obtain ⟨desk, -, hstep⟩ := Option.bind_eq_some_iff.mp hstep
      obtain rfl := Option.some.inj hstep
      exact hrun
    | reset =>
      obtain rfl := Option.some.inj hstep
      exact hrun

variable [IsStrictOrderedRing F]

/-- **Entries follow the regime.** Whatever a session was, an entry is
submitted only when the labels of its bars, the last one included, have
settled on a regime that the strategy was registered for; otherwise the
callback submits what it would submit without a gate, less the entry. -/
theorem entries_follow_regime {κ : Type} (ops : List (RegistryOp κ)) {accountId name : String}
    {b : BracketSetup}
    (hinject : (ops.foldl StrategyRegistry.step {}).injectRegimeState accountId name b =
      .ok u.bracket)
    {c : RegimeConfig F} {hook : Option (RegimeAuditHook F σ)} {actor : RegimeActor F σ}
    (hbuild : buildRegimeActor c u.barType hook = .ok (some actor)) (sink : σ)
    (strategy : ReversalStrategy)
    (hrun : exec (step u) { stage := { actor, sink }, desk := { strategy } } es = some g)
    (bar : RegimeBar F) (hbars : ∀ b ∈ sessionBars es ++ [bar], b.price.Priced)
    (seen : ReversalBar) {orders : List SubmittedOrder}
    (horders : g.submitted u bar seen = some orders) :
    ∃ regimes, StrategyRegistry.declared ops name = some regimes ∧
      ∃ i, ∃ hwindow : 2 ≤ i.realizedVolWindow, c.getInstrument u.barType.symbol = .ok i ∧
      (∀ order, .bracket order ∈ orders → ∃ state,
        Lib.Settled c.confirmationBars
          (RegimeStage.labels u.sqrt u.log (i.setup u.barType c hwindow)
            { thresholds := i.thresholds } (sessionBars es ++ [bar])) .unknown state ∧
        state ≠ .highVolatility ∧ state ≠ .unknown ∧ ∀ l ∈ regimes, state ∈ l) ∧
      ∀ free, g.desk.callback u.offset u.bracket { seen with regimeState := none } = some free →
        orders = free ∨ orders = free.filter fun o => !o.IsEntry := by
  obtain ⟨regimes, hregimes, hbracket⟩ :=
    (StrategyRegistry.holds_run ops).injectRegimeState_eq_ok.mp hinject
  obtain ⟨i, hwindow, hi, rfl⟩ := RegimeStage.buildRegimeActor_eq_some hbuild
  obtain ⟨stage, hstage, horders⟩ := Option.bind_eq_some_iff.mp horders
  have hsession := exec_stage hrun
  let start : RegimeStage F σ := { actor := i.actor u.barType c hwindow hook, sink }
  have hextractor : start.actor.extractor = (i.setup u.barType c hwindow).buildExtractor := rfl
  obtain ⟨ds, s, hs, hfollows⟩ :=
    RegimeStage.follows_run u.sqrt u.log u.twoPlaces _ hextractor rfl rfl hbars
  obtain rfl : s = stage := by
    rw [RegimeStage.run] at hsession hs
    rw [List.foldlM_append, hsession] at hs
    obtain ⟨_, hone, hs⟩ := bind_eq_ok.mp hs
    obtain rfl := Except.ok.inj hone
    have hlast : g.stage.onBar u.sqrt u.log u.twoPlaces bar = .ok s := by simpa using hs
    exact Except.ok.inj (hlast.symm.trans (toOption_eq_some hstage))
  refine ⟨regimes, hregimes, i, hwindow, hi, ?_, ?_⟩
  · intro order horder
    have hgate := ReversalDesk.callback_shut horders horder
    obtain ⟨state, hstate, hvolatile, hunknown, hallowed⟩ :=
      BracketSetup.exists_of_regimeAdmits rfl hgate
    have hlists : u.bracket.allowedRegimes = regimes := congrArg BracketSetup.allowedRegimes hbracket
    exact ⟨state, hfollows.settled_of_current rfl hstate, hvolatile, hunknown, hlists ▸ hallowed⟩
  · intro free hfree
    have hgated := ReversalDesk.callback_gate (s.store.reading u.barType) hfree
    obtain rfl := Option.some.inj (horders.symm.trans hgated)
    unfold BracketSetup.gated
    split
    · exact .inl rfl
    · exact .inr rfl

/-- Gold bars for the strategy that follows crossings. -/
def goldSession : GatedSetup ℚ where
  sqrt := fun _ => 0
  log := fun _ => 0
  twoPlaces := fun _ => ""
  offset := fun _ _ => 0
  barType := goldBars
  bracket :=
    { ReversalDesk.crossSetup with allowedRegimes := some [.trendingUp, .trendingDown] }

/-- The registration of the strategy. -/
def goldRegistration : List (RegistryOp Unit) :=
  [.register "gold_crossover" () (some [.trendingUp, .trendingDown])]

/-- During the warm-up a crossing is not traded, which would be without a
gate. -/
theorem entries_follow_regime_warmup : ∃ g : GatedDesk ℚ Unit,
    exec (step goldSession)
      { stage := { actor := shortRegime.actor goldBars goldRegime le_rfl none, sink := () }
        desk := { strategy := .maCrossover {} } }
      [.bar flatGold (ReversalDesk.crossBar 100 99 100)] = some g ∧
    ∃ order, g.desk.callback goldSession.offset goldSession.bracket
        { ReversalDesk.crossBar 100 101 100 with regimeState := none } = some [.bracket order] ∧
      g.submitted goldSession flatGold (ReversalDesk.crossBar 100 101 100) = some [] := by
  have hbuild := RegimeStage.buildRegimeActor_of_window rfl getInstrument_gold le_rfl
    (none : Option (RegimeAuditHook ℚ Unit))
  obtain ⟨g, hrun, hg⟩ := Run.exists_of_exec (step goldSession)
    { stage := { actor := shortRegime.actor goldBars goldRegime le_rfl none, sink := () }
      desk := { strategy := .maCrossover {} } }
    [.bar flatGold (ReversalDesk.crossBar 100 99 100)]
    (fun g => (g.submitted goldSession flatGold (ReversalDesk.crossBar 100 101 100)).isSome ∧
      g.desk.callback goldSession.offset goldSession.bracket
        { ReversalDesk.crossBar 100 101 100 with regimeState := none } =
        some [.bracket { side := .buy, quantity := 1, slTriggerPrice := 97, tpPrice := 106 }])
    (by decide +kernel)
  simp only [decide_eq_true_eq] at hg
  obtain ⟨hsome, hfree⟩ := hg
  obtain ⟨orders, horders⟩ := Option.isSome_iff_exists.mp hsome
  have hinject : (goldRegistration.foldl StrategyRegistry.step {}).injectRegimeState "ftmo-001"
      "gold_crossover" ReversalDesk.crossSetup = .ok goldSession.bracket := rfl
  obtain ⟨_, -, i, hwindow, hi, hentry, hgate⟩ := entries_follow_regime (u := goldSession)
    goldRegistration hinject hbuild () (.maCrossover {}) hrun.exec_eq flatGold
    (by simp [sessionBars, flatGold_priced]) (ReversalDesk.crossBar 100 101 100) horders
  refine ⟨g, hrun.exec_eq, _, hfree, ?_⟩
  obtain rfl | rfl := hgate _ hfree
  · -- two bars have no label, so they have settled on nothing
    obtain ⟨state, hsettled, -, hunknown, -⟩ := hentry _ (List.mem_singleton_self _)
    obtain rfl : shortRegime = i := Except.ok.inj (getInstrument_gold.symm.trans hi)
    have hnone := Lib.Settled.unique goldRegime.confirmationBars_pos hsettled
      (settled_nil goldRegime.confirmationBars_pos)
    exact absurd hnone hunknown
  · exact horders

end GatedDesk

end TdSandboxed
