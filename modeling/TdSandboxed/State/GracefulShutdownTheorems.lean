/-
TdSandboxed.State.GracefulShutdownTheorems — what a shutdown leaves behind.

The first phase closes the Redis manager that all later phases share
(`connected_stopSignalProcessing`). From then on every use of the client
raises, so a shutdown is clean only if no later phase has any use for it.
-/
import TdSandboxed.State.GracefulShutdown

namespace TdSandboxed

namespace GracefulShutdown

variable {c : ShutdownComponents} {r : ShutdownReplies} {s : ShutdownState}

/-! ## After the first phase -/

/-- A use of the closed client. -/
def misused (s : ShutdownState) : ShutdownState :=
  { s with closedUses := s.closedUses ++ [s.currentPhase] }

theorem withClient_closed (hs : s.connected = false) (error : Option String)
    (effect : ShutdownState → ShutdownState) :
    withClient s error effect = (misused s, some "Redis not connected. Call connect() first.") := by
  unfold withClient
  rw [if_neg (by simp [hs])]
  rfl

/-- The first phase closes the manager. -/
theorem stopSignalProcessing_eq (hr : r.NoFailures) (hs : s.connected = true) :
    stopSignalProcessing c r s =
      { s with currentPhase := .stoppingSignals, connected := false } := by
  have hclose : shutdownAccountManager c r { s with currentPhase := .stoppingSignals } =
      closeRedis r { s with currentPhase := .stoppingSignals } := by
    rw [shutdownAccountManager, hr.stopConnections]
    split
    · rename_i heq
      cases heq
    · rfl
  rw [stopSignalProcessing, hclose, closeRedis, if_pos hs, hr.close]

theorem getStatuses_nil (hc : c.accounts = []) : getStatuses c r s = (s, none) := by
  simp [getStatuses, hc]

theorem getStatuses_closed (hc : c.accounts ≠ []) (hs : s.connected = false) :
    getStatuses c r s = (misused s, some "Redis not connected. Call connect() first.") := by
  rw [getStatuses, if_neg (by simpa using hc), withClient_closed hs]

/-! ## The second phase -/

/-- The wait is over by the thirtieth poll; more polls make no difference. -/
theorem pollOrders_add (left extra n : ℕ) (hn : left + n = 30) :
    pollOrders r (left + extra) n = pollOrders r left n := by
  induction left generalizing n with
  | zero =>
    obtain rfl : n = 30 := by omega
    cases extra with
    | zero => rfl
    | succ extra =>
      have htimeout : pendingOrderTimeoutSeconds ≤ (r.poll 30).1 := by
        simpa [pendingOrderTimeoutSeconds] using r.elapsed_le 30
      show pollOrders r (0 + (extra + 1)) 30 = (r.poll 30).2
      rw [Nat.zero_add, pollOrders, if_pos htimeout]
  | succ left ih =>
    rw [Nat.add_right_comm, pollOrders, pollOrders, ih (n + 1) (by omega)]

/-! ## The third phase -/

/-- The phases in which a part uses the client, as often as it does. -/
def used (s : ShutdownState) (uses : List ShutdownPhase) : ShutdownState :=
  { s with closedUses := s.closedUses ++ uses }

theorem used_nil (s : ShutdownState) : used s [] = s := by
  simp [used]

theorem used_used (s : ShutdownState) (uses uses' : List ShutdownPhase) :
    used (used s uses) uses' = used s (uses ++ uses') := by
  simp [used]

/-- The uses that the snapshot service has for the closed client: for its
final snapshot, if it is running, and for counting the accounts. -/
def snapshotUses (c : ShutdownComponents) (phase : ShutdownPhase) : List ShutdownPhase :=
  match c.snapshotService with
  | none => []
  | some running =>
    if c.accounts = [] then [] else (if running then [phase] else []) ++ [phase]

/-- The same for the cold storage service. -/
def coldUses (c : ShutdownComponents) (phase : ShutdownPhase) : List ShutdownPhase :=
  if c.accounts ≠ [] ∧ c.coldStorageService = some true then [phase] else []

/-- With the manager closed the snapshot service persists nothing. -/
theorem persistSnapshots_closed (hs : s.connected = false) :
    (persistSnapshots c r s).1 = used s (snapshotUses c s.currentPhase) := by
  rw [persistSnapshots, snapshotUses]
  cases c.snapshotService with
  | none => exact (used_nil s).symm
  | some running =>
    by_cases hc : c.accounts = []
    · have hactive : activeAccounts c r.snapshotStatus = [] := by simp [activeAccounts, hc]
      have hstop : stopSnapshotService c r s running = s := by
        rw [stopSnapshotService, snapshotAllAccounts, getStatuses_nil hc, hactive]
        simp
      simp [hstop, getActiveAccountCount, getStatuses_nil hc, hc, used_nil]
    · have hstop : stopSnapshotService c r s running =
          used s (if running then [s.currentPhase] else []) := by
        rw [stopSnapshotService, snapshotAllAccounts, getStatuses_closed hc hs]
        cases running
        · exact (used_nil s).symm
        · rfl
      have hclosed : (used s (if running then [s.currentPhase] else [])).connected = false := hs
      simp only [hstop, getActiveAccountCount, getStatuses_closed hc hclosed, if_neg hc]
      rw [← used_used]
      rfl

/-- Nor does the cold storage service. -/
theorem persistColdStorage_closed (hr : r.NoFailures) (hs : s.connected = false) :
    persistColdStorage c r s = used s (coldUses c s.currentPhase) := by
  rw [persistColdStorage, coldUses]
  cases c.coldStorageService with
  | none => simp [used_nil]
  | some running =>
    by_cases hc : c.accounts = []
    · have hactive : activeAccounts c r.coldStatus = [] := by simp [activeAccounts, hc]
      have hstop : stopColdStorageService c r s running = s := by
        rw [stopColdStorageService, writeColdRows, getStatuses_nil hc, hactive, hr.writeRows]
        simp [collectRows]
      simp [hstop, hc, used_nil]
    · have hstop : stopColdStorageService c r s running = if running then misused s else s := by
        rw [stopColdStorageService, writeColdRows, getStatuses_closed hc hs]
      show stopColdStorageService c r s running = _
      rw [hstop]
      cases running
      · simp [used_nil]
      · simp [hc, used, misused]

/-- The third phase needs Redis: there is an account, and a snapshot service
or a running cold storage service. -/
def PersistsWithRedis (c : ShutdownComponents) : Prop :=
  c.accounts ≠ [] ∧ (c.snapshotService ≠ none ∨ c.coldStorageService = some true)

theorem uses_eq_nil (phase : ShutdownPhase) :
    snapshotUses c phase ++ coldUses c phase = [] ↔ ¬ PersistsWithRedis c := by
  rw [snapshotUses, coldUses, PersistsWithRedis]
  cases hsnap : c.snapshotService with
  | none => by_cases hc : c.accounts = [] <;> simp [hc]
  | some running => by_cases hc : c.accounts = [] <;> simp [hc]

theorem persistFinalState_closed (hr : r.NoFailures) (hs : s.connected = false) :
    (persistFinalState c r s).1 =
      used { s with currentPhase := .persistingState }
        (snapshotUses c .persistingState ++ coldUses c .persistingState) := by
  have hphase : ({ s with currentPhase := .persistingState } : ShutdownState).connected = false := hs
  have hfirst := persistSnapshots_closed (c := c) (r := r) hphase
  have hsecond : (persistSnapshots c r { s with currentPhase := .persistingState }).1.connected =
      false := by
    rw [hfirst]
    exact hs
  rw [persistFinalState]
  dsimp only
  rw [persistColdStorage_closed hr hsecond, hfirst, used_used]
  rfl

/-! ## The shutdown -/

/-- The engine as a shutdown finds it. -/
def running (shutdownFlag processLock : Bool) : ShutdownState := { shutdownFlag, processLock }

/-- A shutdown leaves a clean state: it succeeds, every final snapshot is
written, the flag is set and the lock released, and no phase uses the client
that an earlier one closed. -/
structure CleanState (c : ShutdownComponents) (r : ShutdownReplies)
    (out : ShutdownState × ShutdownResult) : Prop where
  success : out.2.success = true
  snapshots : c.snapshotService = some true →
    ∀ a ∈ activeAccounts c r.snapshotStatus, a ∈ out.1.snapshots
  coldRows : c.coldStorageService = some true →
    ∀ a ∈ activeAccounts c r.coldStatus, a ∈ out.1.coldRows
  shutdownFlag : out.1.shutdownFlag = true
  processLock : out.1.processLock = false
  closedUses : out.1.closedUses = []

/-- The third phase leaves the client closed, and Redis as it was. -/
theorem exists_persisted (hr : r.NoFailures) (shutdownFlag processLock : Bool) :
    ∃ s pending count, s.connected = false ∧ s.shutdownFlag = shutdownFlag ∧
      s.processLock = processLock ∧
      s.closedUses = snapshotUses c .persistingState ++ coldUses c .persistingState ∧
      initiate c r (running shutdownFlag processLock) =
        match if c.crashRecovery then shutdownSequence r s else (s, none) with
        | (s, some _) =>
          (s, { success := false, phaseReached := s.currentPhase, pendingOrdersAtTimeout := pending
                accountsSnapshotCount := count, exitCode := 1 })
        | (s, none) =>
          ({ closeConnections r s with currentPhase := .complete },
            { success := true, phaseReached := .complete, pendingOrdersAtTimeout := pending
              accountsSnapshotCount := count, exitCode := 0 }) := by
  let s₁ := stopSignalProcessing c r { running shutdownFlag processLock with shutdownInProgress := true }
  have hs₁ : s₁ = { running shutdownFlag processLock with
      shutdownInProgress := true, currentPhase := .stoppingSignals, connected := false } :=
    stopSignalProcessing_eq hr rfl
  let s₂ := (waitForPendingOrders c r s₁).1
  have hs₂ : s₂.connected = false := by
    show s₁.connected = false
    rw [hs₁]
  have hs₃ := persistFinalState_closed (c := c) hr hs₂
  refine ⟨(persistFinalState c r s₂).1, (waitForPendingOrders c r s₁).2,
    (persistFinalState c r s₂).2, ?_, ?_, ?_, ?_, rfl⟩
  all_goals
    rw [hs₃]
    show _ = _
    simp only [used, s₂, waitForPendingOrders, hs₁, running]
  rfl

/-- **When a shutdown leaves a clean state**: without a crash recovery
manager and without a use for Redis in the third phase, if the flag was set
and the lock released before it began. -/
theorem cleanState_iff (hr : r.NoFailures) (shutdownFlag processLock : Bool) :
    CleanState c r (initiate c r (running shutdownFlag processLock)) ↔
      c.crashRecovery = false ∧ ¬ PersistsWithRedis c ∧ shutdownFlag = true ∧ processLock = false := by
  obtain ⟨s, pending, count, hconnected, hflag, hlock, huses, heq⟩ :=
    exists_persisted (c := c) hr shutdownFlag processLock
  rw [heq]
  cases hrecovery : c.crashRecovery with
  | true =>
    have hfail : shutdownSequence r s =
        (misused s, some "Redis not connected. Call connect() first.") := by
      rw [shutdownSequence, hr.heartbeat, withClient_closed hconnected]
    rw [if_pos rfl, hfail]
    refine iff_of_false (fun h => ?_) fun h => ?_
    · exact Bool.false_ne_true h.success
    · exact Bool.false_ne_true h.1.symm
  | false =>
    have hclose : closeConnections r s = { s with currentPhase := .closingConnections } := by
      rw [closeConnections, closeRedis, if_neg (by simp [hconnected])]
    rw [if_neg (by simp)]
    dsimp only
    rw [hclose, ← uses_eq_nil .persistingState, ← huses, ← hflag, ← hlock]
    constructor
    · intro h
      exact ⟨rfl, h.closedUses, h.shutdownFlag, h.processLock⟩
    · intro h
      obtain ⟨-, hnone, hset, hreleased⟩ := h
      have hpersists : ¬ PersistsWithRedis c := by
        rw [← uses_eq_nil .persistingState, ← huses]
        exact hnone
      have hempty : c.snapshotService ≠ none ∨ c.coldStorageService = some true →
          c.accounts = [] := fun hservice => by_contra fun hc => hpersists ⟨hc, hservice⟩
      refine ⟨rfl, fun hrunning a ha => ?_, fun hrunning a ha => ?_, hset, hreleased, hnone⟩
      · have hc := hempty (.inl (by simp [hrunning]))
        simp [activeAccounts, hc] at ha
      · have hc := hempty (.inr hrunning)
        simp [activeAccounts, hc] at ha

/-- Thirty polls, a second apart, with no order pending. -/
def noFailures : ShutdownReplies :=
  { snapshotStatus := fun _ => some .active
    countStatus := fun _ => some .active
    coldStatus := fun _ => some .active
    poll := fun n => (n, 0)
    elapsed_le := fun _ => le_rfl }

theorem noFailures_noFailures : noFailures.NoFailures :=
  ⟨rfl, rfl, rfl, fun _ => rfl, fun _ => rfl, rfl, rfl, rfl, rfl⟩

theorem cleanState_iff_gold :
    CleanState { accounts := ["ftmo-gold-001"] } noFailures
        (initiate { accounts := ["ftmo-gold-001"] } noFailures (running true false)) ↔
      false = false ∧ ¬ PersistsWithRedis { accounts := ["ftmo-gold-001"] } ∧
        true = true ∧ false = false :=
  cleanState_iff noFailures_noFailures true false

/-- **With a crash recovery manager the shutdown fails**: the clean-shutdown
flag cannot be set any more, and the lock is not released. -/
theorem shutdown_not_clean :
    ¬ ∀ c r shutdownFlag processLock, r.NoFailures →
      CleanState c r (initiate c r (running shutdownFlag processLock)) := by
  intro hall
  have hclean := hall { accounts := [], crashRecovery := true } noFailures false true
    noFailures_noFailures
  have hresult : (initiate { accounts := [], crashRecovery := true } noFailures
      (running false true)).2.success = false := by decide +kernel
  rw [hclean.success] at hresult
  cases hresult

end GracefulShutdown

end TdSandboxed
