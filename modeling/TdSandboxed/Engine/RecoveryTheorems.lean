/-
TdSandboxed.Engine.RecoveryTheorems — what an account has passed when
trading resumes.

The `TradingResumer` writes `active` for an account that Redis still has as
active and whose last visit was a success (`processAccounts_active`). A
visit is a success if the positions were compared with MT5's, but also if
there was no valid snapshot (`visitAccount_success`).
-/
import Mathlib.Data.List.Dedup
import TdSandboxed.Engine.RecoveryOrchestrator
import TdSandboxed.Lib.Assoc
import TdSandboxed.State.CrashRecoveryTheorems

namespace TdSandboxed

open Lib

variable {a b : String} {computeChecksum : Checksum} {coldStorage : Bool}

namespace TradingResumer

/-! ## The resumer -/

variable {reconciliation : String → Option ReconciliationResult} {replies : String → ResumeReplies}
  {s s' : Resuming} {x : Option String}

/-- Nothing in the results of the reconciliation speaks against an account. -/
def Passed (reconciliation : Option ReconciliationResult) : Prop :=
  ∀ r ∈ reconciliation, r.success = true

/-- What a call for an account may change: its own status, and the writes
by its own. -/
structure OnlyWrites (a : String) (allowed : AccountState → Prop) (s s' : Resuming) : Prop where
  status : ∀ b, b ≠ a → s'.manager.status b = s.manager.status b
  writes : ∀ w ∈ s'.writes, w ∈ s.writes ∨ w.1 = a ∧ allowed w.2

theorem OnlyWrites.refl (a : String) (allowed : AccountState → Prop) (s : Resuming) :
    OnlyWrites a allowed s s :=
  ⟨fun _ _ => rfl, fun _ hw => .inl hw⟩

theorem saveAccountStatus_onlyWrites (s : Resuming) (a : String) (status : AccountState)
    (w : WriteReply) : OnlyWrites a (· = status) s (saveAccountStatus s a status w).1 := by
  have hwritten : OnlyWrites a (· = status) s
      { s with manager := s.manager.saveAccountStatus a status, writes := s.writes ++ [(a, status)] } := by
    constructor
    · intro b hb
      simp [hb]
    · intro w hw
      rcases List.mem_append.mp hw with hw | hw
      · exact .inl hw
      · obtain rfl := List.mem_singleton.mp hw
        exact .inr ⟨rfl, rfl⟩
  cases w with
  | completes => exact hwritten
  | fails x => exact .refl a _ s
  | lost x => exact hwritten

theorem spawnAccountTask_onlyWrites (s : Resuming) (a : String) (r : ResumeReplies) :
    OnlyWrites a (· = .active) s (spawnAccountTask s a r).1 := by
  rw [spawnAccountTask]
  split
  · exact .refl a _ s
  · cases r.rulesError with
    | some x => exact .refl a _ s
    | none =>
      have hsave := saveAccountStatus_onlyWrites
        { s with manager := { s.manager with tasks := a :: s.manager.tasks } } a .active r.write
      exact ⟨hsave.status, hsave.writes⟩

theorem resumeAccount_onlyWrites (s : Resuming) (a : String) (r : ResumeReplies) :
    OnlyWrites a (· = .active) s (resumeAccount s a r).1 := by
  have hspawn := spawnAccountTask_onlyWrites s a r
  rw [resumeAccount]
  cases r.statusErrorAgain with
  | some x => exact .refl a _ s
  | none =>
    rcases hs : spawnAccountTask s a r with ⟨s', _ | x⟩
    all_goals
      rw [hs] at hspawn
      exact hspawn

theorem leaveAccount_onlyWrites (s : Resuming) (a : String) (c : Option ReconciliationResult)
    (reason : String) (r : ResumeReplies) :
    OnlyWrites a (· = .error) s (leaveAccount s a c reason r).1 := by
  rw [leaveAccount]
  cases r.statusErrorAgain with
  | some x => exact .refl a _ s
  | none =>
    dsimp only
    split
    · have hsave := saveAccountStatus_onlyWrites { s with accountsBlocked := s.accountsBlocked + 1 } a
        .error r.write
      rcases hs : saveAccountStatus { s with accountsBlocked := s.accountsBlocked + 1 } a .error r.write
        with ⟨s', _ | x⟩
      all_goals
        rw [hs] at hsave
        exact ⟨hsave.status, hsave.writes⟩
    · exact ⟨fun _ _ => rfl, fun _ hw => .inl hw⟩

theorem getPreCrashStatus_eq_active {m : AccountManager} :
    getPreCrashStatus m a = "active" ↔ m.status a = some .active := by
  rw [getPreCrashStatus]
  cases m.status a with
  | none => decide
  | some status => cases status <;> decide

theorem shouldResumeAccount_eq_true {status reason : String} {c : Option ReconciliationResult}
    (h : shouldResumeAccount status c = (true, reason)) : status = "active" ∧ Passed c := by
  unfold shouldResumeAccount at h
  by_cases hactive : status = "active"
  · refine ⟨hactive, fun r hr => ?_⟩
    obtain rfl := Option.mem_def.mp hr
    by_contra hsuccess
    simp only [hactive, ne_eq, not_true_eq_false, if_false, Bool.not_eq_true] at h hsuccess
    rw [hsuccess] at h
    split at h <;> simp at h
  · simp [hactive] at h

/-- One account: it is set to active only if it was active and passed. -/
theorem processAccount_onlyWrites (s : Resuming) (a : String) :
    OnlyWrites a
      (fun status => status = .active → s.manager.status a = some .active ∧ Passed (reconciliation a))
      s (processAccount reconciliation replies s a).1 := by
  rw [processAccount]
  dsimp only
  cases (replies a).statusError with
  | some x => exact .refl a _ s
  | none =>
    dsimp only
    rcases hresume : shouldResumeAccount (getPreCrashStatus s.manager a) (reconciliation a) with
      ⟨_ | _, reason⟩
    · have hleave := leaveAccount_onlyWrites s a (reconciliation a) reason (replies a)
      refine ⟨hleave.status, fun w hw => (hleave.writes w hw).imp_right fun hwa => ⟨hwa.1, ?_⟩⟩
      intro hactive
      rw [hwa.2] at hactive
      cases hactive
    · obtain ⟨hstatus, hpassed⟩ := shouldResumeAccount_eq_true hresume
      have hspawn := resumeAccount_onlyWrites s a (replies a)
      refine ⟨hspawn.status, fun w hw => (hspawn.writes w hw).imp_right fun hwa => ⟨hwa.1, ?_⟩⟩
      exact fun _ => ⟨getPreCrashStatus_eq_active.mp hstatus, hpassed⟩

/-- **All accounts**: what is set to active was active before the loop. -/
theorem processAccounts_active {as : List String} (hnodup : as.Nodup)
    (h : (b, AccountState.active) ∈ (processAccounts reconciliation replies s as).1.writes) :
    (b, AccountState.active) ∈ s.writes ∨
      b ∈ as ∧ s.manager.status b = some .active ∧ Passed (reconciliation b) := by
  induction as generalizing s with
  | nil => exact .inl h
  | cons a as ih =>
    obtain ⟨ha, hrest⟩ := List.nodup_cons.mp hnodup
    have hone : OnlyWrites a
        (fun status =>
          status = .active → s.manager.status a = some .active ∧ Passed (reconciliation a))
        s (processAccount reconciliation replies s a).1 := processAccount_onlyWrites s a
    rw [processAccounts] at h
    have hfirst : (b, AccountState.active) ∈ (processAccount reconciliation replies s a).1.writes →
        (b, AccountState.active) ∈ s.writes ∨
          b ∈ a :: as ∧ s.manager.status b = some .active ∧ Passed (reconciliation b) := by
      intro hw
      rcases hone.writes _ hw with hw | ⟨rfl, hactive⟩
      · exact .inl hw
      · exact .inr ⟨by simp, hactive rfl⟩
    rcases hs : processAccount reconciliation replies s a with ⟨s', _ | x⟩
    · rw [hs] at h hone hfirst
      rcases ih hrest h with hw | ⟨hb, hstatus, hpassed⟩
      · exact hfirst hw
      · have hne : b ≠ a := by
          rintro rfl
          exact ha hb
        exact .inr ⟨List.mem_cons_of_mem a hb, by rw [← hone.status b hne]; exact hstatus, hpassed⟩
    · rw [hs] at h hfirst
      exact hfirst h

end TradingResumer

namespace RecoveryOrchestrator

/-! ## The visits -/

variable {visit : ℕ → VisitReplies} {results : List (String × ReconciliationResult)}

/-- A result replaces the one before. -/
theorem lookup_setResult (rs : List (String × ReconciliationResult)) (a b : String)
    (r : ReconciliationResult) :
    (setResult rs a r).lookup b = if b = a then some r else rs.lookup b := by
  rw [setResult]
  cases ha : rs.lookup a with
  | none => exact lookup_append_singleton rs a b r ha
  | some r' =>
    rw [Option.isSome_some, if_pos rfl, lookup_replace, ha]
    rfl

/-- The local positions were compared with a list that MT5 reported. -/
def Compared (computeChecksum : Checksum) (coldStorage : Bool) (a : String) (r : VisitReplies) :
    Prop :=
  ∃ snapshot ms,
    CrashRecoveryManager.validateSnapshotForRecovery computeChecksum coldStorage r.reads =
        .ok (true, some snapshot) ∧
      r.mt5 = .positions ms ∧
      visitAccount computeChecksum coldStorage a r =
        .ok (PositionReconciler.reconcilePositions a snapshot.positions ms).1

/-- The account has no valid snapshot. -/
def NoValidSnapshot (computeChecksum : Checksum) (coldStorage : Bool) (r : VisitReplies) : Prop :=
  CrashRecoveryManager.validateSnapshotForRecovery computeChecksum coldStorage r.reads =
    .ok (false, none)

/-- Validation gives a snapshot or none. -/
theorem validateSnapshotForRecovery_ok {r : CrashRecoveryManager.SnapshotReads}
    {v : Bool × Option StateSnapshot}
    (h : CrashRecoveryManager.validateSnapshotForRecovery computeChecksum coldStorage r = .ok v) :
    v = (false, none) ∨ ∃ snapshot, v = (true, some snapshot) := by
  unfold CrashRecoveryManager.validateSnapshotForRecovery at h
  simp only [bind, Except.bind, pure, Except.pure] at h
  repeat' split at h
  all_goals cases h
  all_goals first | exact .inl rfl | exact .inr ⟨_, rfl⟩

/-- **A visit that succeeds** compared the positions or found no valid
snapshot. -/
theorem visitAccount_success {r : VisitReplies} {result : ReconciliationResult}
    (h : visitAccount computeChecksum coldStorage a r = .ok result) (hsuccess : result.success = true) :
    Compared computeChecksum coldStorage a r ∨ NoValidSnapshot computeChecksum coldStorage r := by
  have hvisit := h
  rw [visitAccount] at h
  cases hvalid : CrashRecoveryManager.validateSnapshotForRecovery computeChecksum coldStorage r.reads
    with
  | error x =>
    rw [hvalid] at h
    cases h
  | ok v =>
    rcases validateSnapshotForRecovery_ok hvalid with rfl | ⟨snapshot, rfl⟩
    · exact .inr hvalid
    · left
      rw [hvalid] at h
      dsimp only at h
      cases hmt5 : r.mt5 with
      | positions ms =>
        refine ⟨snapshot, ms, hvalid, hmt5, ?_⟩
        rw [hvisit]
        rw [hmt5] at h
        cases hwrite : r.writeError with
        | none =>
          rw [hwrite] at h
          exact h.symm
        | some x =>
          rw [hwrite] at h
          cases h
      | timeout =>
        rw [hmt5] at h
        cases hwrite : r.writeError
        all_goals
          rw [hwrite] at h
          cases h
          cases hsuccess
      | runtimeError text =>
        rw [hmt5] at h
        cases hwrite : r.writeError
        all_goals
          rw [hwrite] at h
          cases h
          cases hsuccess
      | raises text =>
        rw [hmt5] at h
        cases h

/-- Every result is that of some visit to the account. -/
theorem runPositionReconciliation_lookup {accounts : List String} {i : ℕ}
    {init : List (String × ReconciliationResult)}
    (h : runPositionReconciliation computeChecksum coldStorage visit i init accounts = .ok results)
    {r : ReconciliationResult} (hr : results.lookup a = some r) :
    init.lookup a = some r ∨ ∃ j, accounts[j]? = some a ∧
      visitAccount computeChecksum coldStorage a (visit (i + j)) = .ok r := by
  induction accounts generalizing i init with
  | nil =>
    obtain rfl := Except.ok.inj h
    exact .inl hr
  | cons b accounts ih =>
    rw [runPositionReconciliation] at h
    cases hvisit : visitAccount computeChecksum coldStorage b (visit i) with
    | error x =>
      rw [hvisit] at h
      cases h
    | ok result =>
      rw [hvisit] at h
      rcases ih h with hinit | ⟨j, hj, hv⟩
      · rw [lookup_setResult] at hinit
        by_cases hab : a = b
        · subst hab
          rw [if_pos rfl] at hinit
          obtain rfl := Option.some.inj hinit
          exact .inr ⟨0, rfl, hvisit⟩
        · rw [if_neg hab] at hinit
          exact .inl hinit
      · refine .inr ⟨j + 1, hj, ?_⟩
        rw [← Nat.add_assoc, Nat.add_right_comm]
        exact hv

/-! ## The run -/

/-- The accounts whose P&L is recalculated. -/
theorem mapM_keys {recalculate : String → Except String Bool} {pnl : List (String × Bool)}
    (h : (results.mapM fun p => (recalculate p.1).map fun success => (p.1, success)) = .ok pnl) :
    pnl.map (·.1) = results.map (·.1) := by
  induction results generalizing pnl with
  | nil =>
    obtain rfl := Except.ok.inj h
    rfl
  | cons p rs ih =>
    rw [List.mapM_cons] at h
    cases hp : recalculate p.1 with
    | error x =>
      rw [hp] at h
      cases h
    | ok success =>
      cases hrest : rs.mapM (fun p => (recalculate p.1).map fun success => (p.1, success)) with
      | error x =>
        rw [hp, hrest] at h
        cases h
      | ok rest =>
        rw [hp, hrest] at h
        obtain rfl := Except.ok.inj h
        rw [List.map_cons, List.map_cons, ih hrest]

theorem runPnlRecalculation_keys {configured : Bool} {recalculate : String → Except String Bool}
    {pnl : List (String × Bool)} (h : runPnlRecalculation configured recalculate results = .ok pnl)
    (ha : a ∈ pnl.map (·.1)) : a ∈ results.map (·.1) := by
  rw [runPnlRecalculation] at h
  split at h
  · rw [mapM_keys h] at ha
    exact List.map_subset _ (List.filter_subset_self _) ha
  · obtain rfl := Except.ok.inj h
    cases ha

theorem runTradingResume_active {configured : Bool} {m : AccountManager} {setOrder : SetOrder}
    {pnl : List (String × Bool)} {replies : String → ResumeReplies}
    (hkeys : ∀ b ∈ pnl.map (·.1), b ∈ results.map (·.1))
    (h : (a, AccountState.active) ∈
      (runTradingResume configured m setOrder results pnl replies).1.writes) :
    m.status a = some .active ∧ a ∈ results.map (·.1) ∧
      TradingResumer.Passed (results.lookup a) := by
  rw [runTradingResume] at h
  split at h
  · have hloop : (a, AccountState.active) ∈ (TradingResumer.processAccounts
        (fun a => results.lookup a) replies { manager := m }
        (setOrder.order (results.map (·.1) ++ pnl.map (·.1)).dedup)).1.writes := by
      rw [TradingResumer.resumeTradingAfterRecovery] at h
      split at h
      all_goals
        rename_i heq
        rw [heq]
        exact h
    have hperm := setOrder.perm (results.map (·.1) ++ pnl.map (·.1)).dedup
    have hnodup := hperm.nodup_iff.mpr (List.nodup_dedup _)
    rcases TradingResumer.processAccounts_active hnodup hloop with hnil | ⟨hmem, hstatus, hpassed⟩
    · cases hnil
    · refine ⟨hstatus, ?_, hpassed⟩
      rcases List.mem_append.mp (List.mem_dedup.mp (hperm.mem_iff.mp hmem)) with hmem | hmem
      · exact hmem
      · exact hkeys a hmem
  · cases h

/-- What a resumption sets to active was active, and its result is a
success. -/
theorem finish_active {c : RecoveryCollaborators} {r : RecoveryReplies} {m : AccountManager}
    {crashResult : RecoveryResult}
    (h : (a, AccountState.active) ∈ (finish c r m crashResult results).writes) :
    m.status a = some .active ∧ ∃ result, results.lookup a = some result ∧ result.success = true := by
  rw [finish] at h
  split at h
  · cases hpnl : runPnlRecalculation c.pnlRecalculator r.recalculate results with
    | error x =>
      rw [hpnl] at h
      cases h
    | ok pnl =>
      rw [hpnl] at h
      have hwrites : (a, AccountState.active) ∈
          (runTradingResume c.tradingResumer m r.setOrder results pnl r.resume).1.writes := by
        dsimp only at h
        split at h
        all_goals
          rename_i heq
          rw [heq]
          exact h
      obtain ⟨hstatus, hmem, hpassed⟩ :=
        runTradingResume_active (fun b hb => runPnlRecalculation_keys hpnl hb) hwrites
      obtain ⟨result, hresult⟩ := mem_keys_iff.mp hmem
      exact ⟨hstatus, result, hresult, hpassed result hresult⟩
  · cases h

/-- **When an account is set back to active.** It was active before the
crash, and at a visit of this run its positions were compared with those
MT5 reported, or it had no valid snapshot. -/
theorem resumed_after_visit (computeChecksum : Checksum) (c : RecoveryCollaborators)
    (r : RecoveryReplies) (m : AccountManager) (a : String)
    (h : (a, AccountState.active) ∈ (run computeChecksum c r m).writes) :
    m.status a = some .active ∧ ∃ crashResult,
      CrashRecoveryManager.startupSequence r.startup = .ok crashResult ∧
        ∃ i, crashResult.accountsNeedingRecovery[i]? = some a ∧
          (Compared computeChecksum c.coldStorage a (r.visit i) ∨
            NoValidSnapshot computeChecksum c.coldStorage (r.visit i)) := by
  rw [run] at h
  split at h
  swap
  · cases h
  cases hstartup : CrashRecoveryManager.startupSequence r.startup with
  | error x =>
    rw [hstartup] at h
    cases h
  | ok crashResult =>
    rw [hstartup] at h
    dsimp only at h
    split at h
    swap
    · cases h
    split at h
    swap
    · cases h
    cases hvisits : runPositionReconciliation computeChecksum c.coldStorage r.visit 0 []
        crashResult.accountsNeedingRecovery with
    | error x =>
      rw [hvisits] at h
      cases h
    | ok results =>
      rw [hvisits] at h
      obtain ⟨hstatus, result, hresult, hsuccess⟩ := finish_active h
      refine ⟨hstatus, crashResult, rfl, ?_⟩
      rcases runPositionReconciliation_lookup hvisits hresult with hnil | ⟨i, hi, hvisit⟩
      · cases hnil
      · rw [Nat.zero_add] at hvisit
        exact ⟨i, hi, visitAccount_success hvisit hsuccess⟩

def listOrder : SetOrder := { order := id, perm := List.Perm.refl }

/-- A recovery of one account, after a crash that left its key behind. -/
def goldReplies (visit : VisitReplies) : RecoveryReplies :=
  { startup :=
      { shutdownFlag := false, lockExists := false, shutdownFlagAgain := false
        keys := ["snapshot:ftmo-gold-001:latest"], lockAcquired := true }
    visit := fun _ => visit
    recalculate := fun _ => .ok true
    setOrder := listOrder
    resume := fun _ => {} }

def allConfigured : RecoveryCollaborators :=
  { crashRecovery := true, coldStorage := true, positionReconciler := true
    pnlRecalculator := true, tradingResumer := true }

def activeAccount : AccountManager :=
  { accounts := ["ftmo-gold-001"], status := fun _ => some .active }

def validVisit : VisitReplies :=
  { reads :=
      { redis := .ok (some (CrashRecoveryManager.emptyAccount "ftmo-gold-001"))
        coldStorage := .ok none
        redisAgain := .ok (some (CrashRecoveryManager.emptyAccount "ftmo-gold-001"))
        now := 60 }
    mt5 := .positions []
    now := 60 }

theorem resumed_after_visit_gold :
    activeAccount.status "ftmo-gold-001" = some .active ∧ ∃ crashResult : RecoveryResult,
      CrashRecoveryManager.startupSequence (goldReplies validVisit).startup = .ok crashResult ∧
        ∃ i : ℕ, crashResult.accountsNeedingRecovery[i]? = some "ftmo-gold-001" ∧
          (Compared (fun _ => "checksum") true "ftmo-gold-001" validVisit ∨
            NoValidSnapshot (fun _ => "checksum") true validVisit) :=
  resumed_after_visit (fun _ => "checksum") allConfigured (goldReplies validVisit) activeAccount
    "ftmo-gold-001" (by decide +kernel)

/-- Neither Redis nor cold storage has a snapshot that can be read. -/
def corruptVisit : VisitReplies :=
  { reads := { redis := .ok none, coldStorage := .ok none, redisAgain := .ok none, now := 60 }
    mt5 := .timeout
    now := 60 }

/-- **A corrupt snapshot is as good as a comparison.** The account is set
back to active although MT5 was not asked about it. -/
theorem resumed_without_comparison :
    ¬ ∀ (computeChecksum : Checksum) c r m a,
      (a, AccountState.active) ∈ (run computeChecksum c r m).writes →
        m.status a = some .active ∧ ∃ i : ℕ, Compared computeChecksum c.coldStorage a (r.visit i) := by
  intro hall
  obtain ⟨-, i, snapshot, ms, -, hmt5, -⟩ :=
    hall (fun _ => "checksum") allConfigured (goldReplies corruptVisit) activeAccount
      "ftmo-gold-001" (by decide +kernel)
  cases hmt5

end RecoveryOrchestrator

end TdSandboxed
