/-
TdSandboxed.Engine.LifecycleTheorems — what ends the wait of `run()`.

The callback that reports the loss of the process lock sets the event of
the lifecycle and clears the running flag. With a `GracefulShutdown`
`run()` waits for another event, so it stays in its wait; and since
`shutdown()` looks at the running flag, it does nothing any more.

Without a `GracefulShutdown`, or once its event is set, the wait ends. A
call of `shutdown()` sets the event behind its audit row
(`awaited_of_audited`), unless it is cancelled there.
-/
import TdSandboxed.Engine.Lifecycle

namespace TdSandboxed

namespace EngineLifecycle

variable {s t : EngineLifecycle} {e : LifecycleEvent}

/-! ## The invariant -/

structure Inv (s : EngineLifecycle) : Prop where
  /-- A wait that has not begun has seen nothing. -/
  unmarked : s.phase.starting ∨ s.phase = .auditingStart → s.lost = false ∧ s.asked = false
  lost : s.phase = .waiting → s.lost → s.awaited
  asked : s.phase = .waiting → s.asked → s.awaited ∨ 0 < s.calls
  counted : s.phase = .auditingStart ∨ s.phase = .waiting → s.running = false → s.awaited

theorem Inv.stoppable (h : Inv s) : s.Stoppable :=
  fun hw => ⟨h.lost hw, h.asked hw, h.counted (.inr hw)⟩

theorem inv_init (config : LifecycleConfig) : Inv { config } where
  unmarked _ := ⟨rfl, rfl⟩
  lost := nofun
  asked := nofun
  counted := nofun

/-- A state in which the services are not up yet. -/
theorem Inv.of_starting (hp : s.phase.starting) (hi : s.lost = false ∧ s.asked = false) : Inv s where
  unmarked _ := hi
  lost hw := by simp [hw, RunPhase.starting] at hp
  asked hw := by simp [hw, RunPhase.starting] at hp
  counted hw := by rcases hw with hw | hw <;> simp [hw, RunPhase.starting] at hp

/-- A state in which the wait is over. -/
theorem Inv.of_over (hp : s.phase.ended) : Inv s where
  unmarked hs := by
    rcases hs with hs | hs
    · cases hph : s.phase <;> simp_all [RunPhase.ended, RunPhase.starting]
    · simp [hs, RunPhase.ended] at hp
  lost hw := by simp [hw, RunPhase.ended] at hp
  asked hw := by simp [hw, RunPhase.ended] at hp
  counted hw := by rcases hw with hw | hw <;> simp [hw, RunPhase.ended] at hp

/-- A state in which nothing was seen. -/
theorem Inv.of_unseen (hi : s.lost = false ∧ s.asked = false) (hc : s.running = false → s.awaited) :
    Inv s where
  unmarked _ := hi
  lost _ hl := by simp [hi.1] at hl
  asked _ hk := by simp [hi.2] at hk
  counted _ := hc

/-! ## `run()` -/

theorem inv_started (hi : s.lost = false ∧ s.asked = false) : Inv s.started :=
  .of_unseen hi nofun

theorem inv_startEmergencyStop (hi : s.lost = false ∧ s.asked = false) :
    Inv s.startEmergencyStop := by
  unfold startEmergencyStop
  split
  · exact .of_starting rfl hi
  · exact inv_started hi

theorem inv_startReservation (hi : s.lost = false ∧ s.asked = false) : Inv s.startReservation := by
  unfold startReservation
  split
  · exact .of_starting rfl hi
  · exact inv_startEmergencyStop hi

theorem inv_startAudit (hi : s.lost = false ∧ s.asked = false) : Inv s.startAudit := by
  unfold startAudit
  split
  · exact .of_starting rfl hi
  · exact inv_startReservation hi

theorem inv_stopAudit (s : EngineLifecycle) : Inv s.stopAudit := by
  unfold stopAudit
  split <;> exact .of_over rfl

theorem inv_stopEmergencyStop (s : EngineLifecycle) : Inv s.stopEmergencyStop := by
  unfold stopEmergencyStop
  split <;> exact .of_over rfl

theorem inv_stop (s : EngineLifecycle) : Inv s.stop := by
  unfold stop
  split
  · exact .of_over rfl
  · exact inv_stopEmergencyStop s

theorem inv_wake (s : EngineLifecycle) : Inv s.wake := by
  unfold wake
  split
  · exact .of_over rfl
  · exact inv_stop s

/-- The wait begins. -/
theorem Inv.wait (h : Inv s) (hp : s.phase = .auditingStart) : Inv (s.goto .waiting) :=
  .of_unseen (h.unmarked (.inr hp)) fun hr => h.counted (.inl hp) hr

theorem Inv.of_resume (h : Inv s) (he : s.resume = some t) : Inv t := by
  have hi : s.phase.starting → s.lost = false ∧ s.asked = false := fun hp => h.unmarked (.inl hp)
  unfold EngineLifecycle.resume at he
  cases hp : s.phase with
  | created | finished | raised => simp [hp] at he
  | recovering | startingLive | startingAudit | startingReservation | startingEmergencyStop =>
    simp only [hp, Option.some.injEq] at he
    obtain rfl := he
    have hi' := hi (by rw [hp]; rfl)
    first
    | exact .of_starting rfl hi'
    | exact inv_startAudit hi'
    | exact inv_startReservation hi'
    | exact inv_startEmergencyStop hi'
    | exact inv_started hi'
  | auditingStart =>
    simp only [hp, Option.some.injEq] at he
    obtain rfl := he
    exact h.wait hp
  | waiting =>
    simp only [hp] at he
    split at he
    · obtain rfl := Option.some.inj he
      exact inv_wake s
    · cases he
  | initiating =>
    simp only [hp, Option.some.injEq] at he
    obtain rfl := he
    exact inv_stop s
  | auditingStopped =>
    simp only [hp, Option.some.injEq] at he
    obtain rfl := he
    exact inv_stopEmergencyStop s
  | stoppingEmergencyStop =>
    simp only [hp, Option.some.injEq] at he
    obtain rfl := he
    exact .of_over rfl
  | stoppingLive =>
    simp only [hp, Option.some.injEq] at he
    obtain rfl := he
    exact inv_stopAudit s
  | stoppingAudit =>
    simp only [hp, Option.some.injEq] at he
    obtain rfl := he
    exact .of_over rfl

theorem Inv.of_raise (h : Inv s) (he : s.raise = some t) : Inv t := by
  unfold EngineLifecycle.raise at he
  cases hp : s.phase with
  | created | waiting | initiating | finished | raised => simp [hp] at he
  | auditingStart =>
    simp only [hp, Option.some.injEq] at he
    obtain rfl := he
    exact h.wait hp
  | auditingStopped =>
    simp only [hp, Option.some.injEq] at he
    obtain rfl := he
    exact inv_stopEmergencyStop s
  | recovering | startingLive | startingAudit | startingReservation | startingEmergencyStop
  | stoppingEmergencyStop | stoppingLive | stoppingAudit =>
    simp only [hp, Option.some.injEq] at he
    obtain rfl := he
    exact .of_over rfl

theorem inv_of_cancelRun (he : s.cancelRun = some t) : Inv t := by
  unfold cancelRun at he
  split at he
  · cases he
    exact inv_stop s
  · cases he
    exact inv_stop s
  · cases he
  · cases he
  · cases he
  · cases he
    exact .of_over rfl

/-! ## What else runs -/

/-- What sets the event that `run()` waits for, or will wait for. -/
theorem Inv.of_awaited (h : Inv s) (hp : t.phase = s.phase)
    (hm : s.phase ≠ .waiting → t.lost = s.lost ∧ t.asked = s.asked)
    (ha : s.phase = .auditingStart ∨ s.phase = .waiting → t.awaited) : Inv t where
  unmarked hs := by
    rw [hp] at hs
    obtain ⟨hl, hk⟩ := hm (by rintro hw; rcases hs with hs | hs <;> simp [hw, RunPhase.starting] at hs)
    rw [hl, hk]
    exact h.unmarked hs
  lost hw _ := ha (.inr (hp ▸ hw))
  asked hw _ := .inl (ha (.inr (hp ▸ hw)))
  counted hw _ := ha (hp ▸ hw)

/-- What leaves the wait and the running flag alone. -/
theorem Inv.of_same (h : Inv s) (hp : t.phase = s.phase) (hl : t.lost = s.lost)
    (hk : t.asked = s.asked) (hr : t.running = s.running) (ha : s.awaited → t.awaited)
    (hc : s.phase = .waiting → s.asked → s.awaited ∨ 0 < s.calls → t.awaited ∨ 0 < t.calls) :
    Inv t where
  unmarked hs := by
    rw [hl, hk]
    exact h.unmarked (hp ▸ hs)
  lost hw hlost := ha (h.lost (hp ▸ hw) (hl ▸ hlost))
  asked hw hasked := hc (hp ▸ hw) (hk ▸ hasked) (h.asked (hp ▸ hw) (hk ▸ hasked))
  counted hw hrun := ha (h.counted (hp ▸ hw) (hr ▸ hrun))

/-- A loss of the lock that is heeded sets the event `run()` counts on. -/
theorem Inv.onLockLost (h : Inv s) (hok : s.Heeded .lockLost) : Inv s.noteLoss.onLockLost := by
  refine h.of_awaited rfl (fun hw => ⟨by simp [EngineLifecycle.onLockLost, noteLoss, hw], rfl⟩) ?_
  intro hp
  by_cases hg : s.config.gracefulShutdown = true
  · simp [awaited, EngineLifecycle.onLockLost, noteLoss, hg, hok.loss rfl hp hg]
  · simp [awaited, EngineLifecycle.onLockLost, noteLoss, hg]

@[simp] theorem awaited_triggerShutdown (s : EngineLifecycle) : s.triggerShutdown.awaited := by
  unfold triggerShutdown
  split <;> rename_i hg <;> simp [awaited, hg]

theorem triggerShutdown_same (s : EngineLifecycle) :
    s.triggerShutdown.phase = s.phase ∧ s.triggerShutdown.lost = s.lost ∧
      s.triggerShutdown.asked = s.asked := by
  unfold triggerShutdown
  split <;> exact ⟨rfl, rfl, rfl⟩

/-- A call of `shutdown()` sets the event once its audit row is written, or
has failed. -/
theorem awaited_of_audited (hc : 0 < s.calls) :
    ∃ t, s.step .shutdownAudited = some t ∧ t.awaited :=
  ⟨_, if_pos hc, awaited_triggerShutdown _⟩

theorem Inv.shutdown (h : Inv s) : Inv s.noteCall.shutdown := by
  unfold EngineLifecycle.shutdown
  have hasked : s.phase ≠ .waiting → s.noteCall.asked = s.asked := fun hw => by simp [noteCall, hw]
  split
  · split
    · exact
        { unmarked := fun hs => by
            have hw : s.phase ≠ .waiting := by
              rintro hw
              rcases hs with hs | hs <;> simp [noteCall, hw, RunPhase.starting] at hs
            exact ⟨(h.unmarked hs).1, (hasked hw).trans (h.unmarked hs).2⟩
          lost := h.lost
          asked := fun _ _ => .inr (Nat.succ_pos _)
          counted := h.counted }
    · obtain ⟨hp, hl, hk⟩ := triggerShutdown_same s.noteCall
      exact h.of_awaited hp (fun hw => ⟨hl, hk.trans (hasked hw)⟩) fun _ => awaited_triggerShutdown _
  · -- nothing is done, and the event that the flag stands for is set
    rename_i hr
    exact h.of_awaited rfl (fun hw => ⟨rfl, hasked hw⟩) fun hp => h.counted hp (by simpa [noteCall] using hr)

/-- **One step** that is heeded keeps the invariant. -/
theorem Inv.step (h : Inv s) (hok : s.Heeded e) (he : s.step e = some t) : Inv t := by
  cases e with
  | run =>
    simp only [EngineLifecycle.step] at he
    split at he
    · rename_i hp
      cases he
      exact .of_starting rfl (h.unmarked (.inl (by rw [hp]; rfl)))
    · cases he
  | reply => exact h.of_resume he
  | fail => exact h.of_raise he
  | cancel => exact inv_of_cancelRun he
  | signal =>
    simp only [EngineLifecycle.step] at he
    split at he
    · cases he
      have ha : s.awaited → awaited { s with gracefulEvent := true } := by
        unfold awaited
        split <;> simp
      exact h.of_same rfl rfl rfl rfl ha fun _ _ hc => hc.imp ha id
    · cases he
  | lockLost =>
    cases he
    exact h.onLockLost hok
  | shutdown =>
    cases he
    exact h.shutdown
  | shutdownAudited =>
    simp only [EngineLifecycle.step] at he
    split at he
    · cases he
      obtain ⟨hp, hl, hk⟩ := triggerShutdown_same { s with calls := s.calls - 1 }
      exact h.of_awaited hp (fun _ => ⟨hl, hk⟩) fun _ => awaited_triggerShutdown _
    · cases he
  | shutdownCancelled =>
    simp only [EngineLifecycle.step] at he
    split at he
    · cases he
      refine h.of_same rfl rfl rfl rfl id fun hw hk _ => ?_
      exact (hok.call rfl hw hk).imp id Nat.sub_pos_of_lt
    · cases he

/-! ## The wait ends -/

/-- A loss of the lock that is not heeded leaves `run()` in its wait, and so
does a cancelled call of `shutdown()`. -/
theorem heeded_of_stoppable (hw : s.phase = .waiting) (he : s.step e = some t) (ht : t.Stoppable) :
    s.Heeded e where
  loss hl _ hg := by
    subst hl
    cases he
    have haw : s.noteLoss.onLockLost.awaited := (ht hw).1 (by simp [onLockLost, noteLoss, hw])
    simpa [awaited, onLockLost, noteLoss, hg] using haw
  call hc _ hk := by
    subst hc
    simp only [step] at he
    split at he
    · cases he
      exact ((ht hw).2.1 hk).imp id fun hpos => Nat.lt_of_sub_pos hpos
    · cases he

/-- **What ends the wait of `run()`.** In every run in which a loss of the
lock is reported without a `GracefulShutdown`, or once its event is set, or
while `run()` does not count on the running flag, and in which no call of
`shutdown()` that alone was to end the wait is cancelled in its audit row,
the engine can be stopped in every state; and each other report or
cancellation during the wait leaves it waiting. -/
theorem stoppable_of_heeded (config : LifecycleConfig) {es : List LifecycleEvent}
    (h : Lib.RunWhere step Heeded { config } es s) :
    s.Stoppable ∧ (0 < s.calls → ∃ t, s.step .shutdownAudited = some t ∧ t.awaited) ∧
      ∀ e t, s.phase = .waiting → s.step e = some t → (t.Stoppable ↔ s.Heeded e) := by
  have hinv : Inv s := h.invariant_state Inv (inv_init config) fun _ _ _ hi hok he => hi.step hok he
  exact ⟨hinv.stoppable, awaited_of_audited, fun e t hw he =>
    ⟨heeded_of_stoppable hw he, fun hok => (hinv.step hok he).stoppable⟩⟩

/-- A start with an audit service. -/
def auditedStart : List LifecycleEvent := [.run, .reply, .reply, .reply, .reply]

/-- Without a `GracefulShutdown` two calls of `shutdown()` during the wait,
one of them cancelled, and then a loss of the lock. -/
theorem stoppable_of_heeded_lost :
    ∃ s, Lib.RunWhere step Heeded { config := { auditService := true } }
        (auditedStart ++ [.shutdown, .shutdown, .shutdownCancelled, .lockLost]) s ∧
      s.Stoppable ∧ (0 < s.calls → ∃ t, s.step .shutdownAudited = some t ∧ t.awaited) ∧
        ∀ e t, s.phase = .waiting → s.step e = some t → (t.Stoppable ↔ s.Heeded e) := by
  obtain ⟨s, hrun, -⟩ := Lib.RunWhere.exists_of_checked step Heeded
    { config := { auditService := true } }
    (auditedStart ++ [.shutdown, .shutdown, .shutdownCancelled, .lockLost])
    (fun s => s.phase = .waiting) (by decide +kernel) (by decide +kernel)
  exact ⟨s, hrun, stoppable_of_heeded _ hrun⟩

/-- **With a `GracefulShutdown` a loss of the lock does not end the wait**,
and `shutdown()` does nothing any more. -/
theorem lost_lock_keeps_waiting :
    ¬ ∀ config es s, Lib.Run step { config } es s → s.Stoppable := by
  intro hall
  obtain ⟨s, hrun, hs⟩ := Lib.Run.exists_of_exec step { config := { gracefulShutdown := true } }
    [.run, .reply, .reply, .lockLost] (fun s => decide (¬ s.Stoppable)) (by decide +kernel)
  exact of_decide_eq_true hs (hall _ _ _ hrun)

end EngineLifecycle

end TdSandboxed
