/-
TdSandboxed.Engine.PauseTheorems — a paused account trades.

`AccountManager` writes the status and the old account loop leaves when it
reads "paused"; the path of a live order never reads it. What can keep the
order of a halted account from the gateway is what keeps any order from it:
the translation, the rules and the exposure gate. `paused_does_not_trade`
says that this is enough in every run, `paused_account_trades` that nothing
else is there.
-/
import TdSandboxed.Engine.DispatchTheorems
import TdSandboxed.Engine.LiveSystem

namespace TdSandboxed

open Lib Lib.TaskSystem

/-- No order submitted while its account was paused, stopped or in error
was handed to the gateway. -/
def PausedDoesNotTrade (s : LiveState) : Prop :=
  ∀ (i : ℕ) (u : Submission), s.tasks[i]? = some (.submit u) → u.halted = true → u.sent = false

/-! ## The condition -/

/-- The rules block the order, or the exposure gate is asked about it. -/
def blockedOrGated (w : Wiring) (b : Books) (now : ℚ) (o : Order) : Bool :=
  let accountState := buildAccountState w b o
  (w.validator.validateOrder now o accountState).isBlocked ||
    match gateHead w o accountState with
    | .skip => false
    | .readCounter _ | .evalsha _ => true

/-- The gate does not let the order through in this step: the server finds
no room for it, and no Redis call fails. -/
def gateRefuses (sh : Shared) (c : Call) (e : CallEvent) : Bool :=
  match c.phase, e with
  | .reserving g, .script => g.cap < sh.books.counter c.order.accountId + c.order.volume
  | .reserving _, .fail _ | .readingReserved _, .fail _ | .reserved _ _, .fail _ => false
  | _, _ => true

/-- The checks of every order stop the order of a halted account. -/
def checksStop (w : Wiring) (sh : EngineShared) (u : Submission) (e : CallEvent) : Bool :=
  match u.phase, e with
  | .created, .start now =>
    match toInternalOrder u.order u.account with
    | .error _ => true
    | .ok o => !decide (Halted (sh.manager.status u.account.id)) ||
        blockedOrGated w sh.adapter.books now o
  | .running c, e => !u.halted || gateRefuses sh.adapter c e
  | _, _ => true

def taskChecksStop (w : Wiring) (s : LiveState) (_ : ℕ) : EngineTask → EngineTaskEvent → Bool
  | .submit u, .submit e => checksStop w s.shared u e
  | _, _ => true

/-- The condition on a step of the system. -/
def ChecksStop (w : Wiring) : LiveState → LiveEvent → Prop :=
  OnTask fun s i t e => taskChecksStop w s i t e = true

instance (w : Wiring) (s : LiveState) (e : LiveEvent) : Decidable (ChecksStop w s e) := by
  unfold ChecksStop
  infer_instance

/-! ## One call -/

/-- Not handed over, and past the point where the rules or an accepted
reservation would let it be. -/
structure Call.KeptBack (c : Call) : Prop where
  sent : c.sent = false
  phase : (c.phase.kind = .gating ∧ c.phase ≠ .created ∧ c.phase.held = false) ∨
    c.phase.isFinished = true

section
variable {w : Wiring} {sh sh' : Shared} {i : ℕ} {c c' : Call} {e : CallEvent}

/-- The first stretch keeps the call back when the rules block it or the
gate is asked. -/
theorem Call.keptBack_start {now : ℚ} (hp : c.phase = .created) (hsent : c.sent = false)
    (hstop : blockedOrGated w sh.books now c.order = true) :
    (Call.start w sh i c now).2.KeptBack := by
  have hmoves : Moves w sh i c (.start now) (start w sh i c now).1 (start w sh i c now).2 :=
    start_moves hp
  generalize (Call.start w sh i c now).1 = sh', (Call.start w sh i c now).2 = c' at hmoves ⊢
  cases hmoves with
  | toGate _ _ hgate =>
    rcases hgate with ⟨-, rfl⟩ | ⟨-, rfl⟩
    · exact ⟨hsent, .inl (by simp)⟩
    · exact ⟨hsent, .inl (by simp)⟩
  | ungated _ hallowed hskip => simp [blockedOrGated, hallowed, hskip] at hstop
  | blocked => exact ⟨hsent, .inr rfl⟩
  | unsent hsending => simp [hp] at hsending
  | trackerFailed hkind => simp [hp] at hkind
  | settled hleaving => simp [hp] at hleaving

/-- **Step lemma.** A call that is kept back stays so while the gate
refuses it. -/
theorem Call.KeptBack.step (hc : c.KeptBack) (hstop : gateRefuses sh c e = true)
    (h : Call.step w sh i c e = some (sh', c')) : c'.KeptBack := by
  obtain ⟨hsent, hphase⟩ := hc
  cases Call.moves h with
  | @reserve g hp =>
    simp only [gateRefuses, hp, decide_eq_true_eq] at hstop
    have hrefused : (atomicReserve (sh.books.reserved c.order.accountId) c.order.volume g.cap).1.accepted
        = false := by
      rw [← Bool.not_eq_true, atomicReserve_accepted_iff, not_le]
      exact hstop
    exact ⟨hsent, .inl (by simp [hrefused])⟩
  | readCounter _ hres => exact ⟨hsent, .inl (by simp [hres])⟩
  | admitted hp hres => simp [hp, hres, Phase.isFinished] at hphase
  | gateFailed hkind hne =>
    exfalso
    cases hp : c.phase <;> simp_all [gateRefuses]
  | rejected => exact ⟨hsent, .inr rfl⟩
  | gateCancelled => exact ⟨hsent, .inr rfl⟩
  -- every other move starts before the gate or behind it
  | toGate hp | ungated hp | blocked hp | sent hp | unsent hp | timedOut hp | waitCancelled hp
  | recordFill hp | loadBalance hp | noTracker hp | untold hp | createTracker hp
  | equityLoaded hp | balanceNext hp | release hp =>
    simp [hp, Phase.isFinished] at hphase
  | kept hp | releaseCancelled hp =>
    rcases hp with hp | hp <;> simp [hp, Phase.isFinished] at hphase
  | trackerFailed hp =>
    rcases hphase with ⟨hkind, -⟩ | hfin
    · simp [hkind] at hp
    · cases hq : c.phase <;> simp_all [Phase.isFinished]
  | settled hp =>
    rcases hp with ⟨hp, -⟩ | ⟨hp | hp, -⟩ <;> simp [hp, Phase.isFinished] at hphase

end

/-! ## Every run -/

/-- A halted account's order is kept back. -/
def Submission.KeptBack (u : Submission) : Prop :=
  ∀ c, u.phase = .running c → u.halted = true → c.KeptBack

theorem Submission.KeptBack.not_sent {u : Submission} (hu : u.KeptBack) (hh : u.halted = true) :
    u.sent = false := by
  unfold sent
  split
  · rename_i c hp
    exact (hu c hp hh).sent
  · rfl

section
variable {w : Wiring} {sh sh' : EngineShared} {i : ℕ} {u u' : Submission} {e : CallEvent}

theorem Submission.keptBack_start {now : ℚ} (hp : u.phase = .created)
    (hstop : checksStop w sh u (.start now) = true) : (start w sh i u now).2.KeptBack := by
  simp only [checksStop, hp] at hstop
  unfold start
  dsimp only
  split
  · intro c hc
    contradiction
  · rename_i o ho
    simp only [ho, Bool.or_eq_true, Bool.not_eq_true', decide_eq_false_iff_not] at hstop
    intro c hc hh
    obtain rfl := SubmissionPhase.running.inj hc
    rcases hstop with hactive | hstop
    · exact absurd (of_decide_eq_true hh) hactive
    · exact Call.keptBack_start rfl rfl hstop

/-- A step that meets the condition hands over no order of a halted
account. -/
theorem Submission.KeptBack.step (hu : u.KeptBack) (hstop : checksStop w sh u e = true)
    (h : u.step w sh i e = some (sh', u')) : u'.KeptBack := by
  rcases step_cases h with ⟨now, rfl, hp, hpair⟩ | ⟨rfl, -, -, rfl⟩ | ⟨c, _, c', hp, hc, -, rfl⟩
  · obtain ⟨-, rfl⟩ := Prod.mk.inj hpair
    exact keptBack_start hp hstop
  · intro c hc
    contradiction
  · intro d hd hh
    obtain rfl := SubmissionPhase.running.inj hd
    have hrefuses : gateRefuses sh.adapter c e = true := by
      have hhalted : u.halted = true := hh
      simpa [checksStop, hp, hhalted] using hstop
    exact (hu c hp hh).step hrefuses hc

end

/-- **What keeps a halted account from trading.** In every run of the live
engine in which the checks of every order stop the orders submitted while
their account is paused, stopped or in error, none of those is handed to
the gateway. -/
theorem paused_does_not_trade {w : Wiring} {s₀ s : LiveState} {es : List LiveEvent}
    (h₀ : s₀.tasks = []) (h : RunWhere (liveSystem w).step (ChecksStop w) s₀ es s) :
    PausedDoesNotTrade s := by
  have hkept : AllTasks (fun (_ : EngineShared) _ t => ∀ u, t = .submit u → u.KeptBack) s := by
    refine h.invariant_state
      (AllTasks fun (_ : EngineShared) _ t => ∀ u, t = .submit u → u.KeptBack) ?_ ?_
    · intro i t ht
      simp [h₀] at ht
    · intro s e t hs hok hstep
      refine hs.step ?_ ?_ ?_ hstep
      · rintro (⟨n, account⟩ | ⟨op, a⟩) -
        · rintro u hu c hc
          obtain rfl := EngineTask.submit.inj hu
          contradiction
        · rintro u hu
          contradiction
      · rintro i d t' sh t'' rfl ht hd ht'
        refine ⟨?_, fun _ _ _ _ hother => hother⟩
        rcases EngineTask.step_cases hd with ⟨u, e, u', rfl, rfl, hu, rfl⟩ | ⟨_, _, _, _, _, _, _, _, rfl⟩
        · rintro u'' hu''
          obtain rfl := EngineTask.submit.inj hu''
          exact (ht' u rfl).step (hok _ ht) hu
        · rintro u'' hu''
          contradiction
      · exact fun _ _ _ _ _ _ _ hother => hother
  intro i u hu hh
  exact (hkept i _ hu u rfl).not_sent hh

/-! ## A paused account that trades -/

/-- One active account, nothing under way. -/
def oneActiveAccount : LiveState :=
  { shared :=
      { manager := { accounts := ["ftmo-001"], status := fun _ => some .active } }
    tasks := [] }

/-- `pause_account` from its first await to its return, then an order of the
account's strategy. -/
def pauseThenSubmit : List LiveEvent :=
  [.spawn (.manage .pauseAccount "ftmo-001"), .task 0 (.manage .start), .task 0 (.manage .server),
    .task 0 (.manage .reply), .task 0 (.manage .server), .task 0 (.manage .reply),
    .spawn (.submit goldBuy ftmo), .task 1 (.submit (.start 0))]

/-- The account was paused before the order was submitted, and how far the
order came. -/
def pausedThen (sent : Bool) (s : LiveState) : Bool :=
  match s.tasks with
  | [.manage c, .submit u] =>
    c.phase = .finished .returned && s.shared.manager.status "ftmo-001" = some .paused &&
      u.halted && u.sent = sent
  | _ => false

/-- `pause_account` returned, and the next order is handed to the gateway. -/
theorem paused_account_trades :
    ∃ s, Run (liveSystem openWiring).step oneActiveAccount pauseThenSubmit s ∧
      pausedThen true s = true ∧ ¬PausedDoesNotTrade s := by
  obtain ⟨s, hrun, hs⟩ := Run.exists_of_exec (liveSystem openWiring).step oneActiveAccount
    pauseThenSubmit (pausedThen true) (by decide +kernel)
  refine ⟨s, hrun, hs, fun hall => ?_⟩
  unfold pausedThen at hs
  split at hs
  · rename_i c u htasks
    simp only [Bool.and_eq_true, decide_eq_true_eq] at hs
    have hkept := hall 1 u (by rw [htasks]; rfl) hs.1.2
    simp [hkept] at hs
  · contradiction

/-- With a ceiling of half a lot the same order is refused by the gate. -/
theorem paused_does_not_trade_half_lot :
    ∃ s, pausedThen false s = true ∧ PausedDoesNotTrade s := by
  obtain ⟨s, hrun, hs⟩ := RunWhere.exists_of_checked (liveSystem (gatedWiring (1 / 2))).step
    (ChecksStop (gatedWiring (1 / 2))) oneActiveAccount
    (pauseThenSubmit ++ [.task 1 (.submit .script), .task 1 (.submit .reply)]) (pausedThen false)
    (by decide +kernel) (by decide +kernel)
  exact ⟨s, hs, paused_does_not_trade rfl hrun⟩

end TdSandboxed
