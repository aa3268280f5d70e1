/-
TdSandboxed.Notification.StopCommandTheorems — when the bot keeps the law
of the emergency stop.

`Known` ties the bot's two flags to the log: the stop flag is set exactly
when a stop was published and neither a restart nor a resume of all
accounts came since, and a pending confirmation is a request made since
that stop, while the flag is set. Every step keeps it (`Known.step`), so a
command meets its law exactly when it is `Guarded`, whatever came before.
-/
import TdSandboxed.Notification.StopCommands

namespace TdSandboxed

open Lib

/-! ## The log -/

theorem sinceStop_cons (x : BotRecord) (log : List BotRecord) :
    sinceStop (x :: log) = if x.isStop then [] else x :: sinceStop log := by
  cases h : x.isStop <;> simp [sinceStop, h]

theorem stopPublished_cons (x : BotRecord) (log : List BotRecord) :
    stopPublished (x :: log) = (x.isStop || stopPublished log) := by
  simp [stopPublished]

namespace BotRecord

variable {u : BotUpdate} {c : StopCommand} {reply : BotReply} {p : Option BotCommand}

@[simp] theorem isStop_handled : (handled u c p reply).isStop = p.any BotCommand.isStop := rfl

@[simp] theorem isResumeAll_handled :
    (handled u c p reply).isResumeAll = p.any BotCommand.isResumeAll := rfl

@[simp] theorem isRestart_handled : (handled u c p reply).isRestart = false := rfl

end BotRecord

/-! ## What is known of the flags -/

namespace BotHistory

/-- Neither a restart nor a resume of all accounts since the last published
stop. -/
def StillStopped (log : List BotRecord) : Prop :=
  stopPublished log ∧ ∀ x ∈ sinceStop log, x.isRestart = false ∧ x.isResumeAll = false

/-- A `/resume_all` of this chat and this moment since the last published
stop. -/
def Asked (log : List BotRecord) (chatId timestamp : ℤ) : Prop :=
  ∃ u p reply, .handled u .resumeAll p reply ∈ sinceStop log ∧ u.chatId = chatId ∧ u.now = timestamp

structure Known (h : BotHistory) : Prop where
  stopActive : h.bot.stopActive = true ↔ StillStopped h.log
  pending : h.bot.pendingResume.active → h.bot.stopActive = true ∧
    Asked h.log h.bot.pendingResume.chatId h.bot.pendingResume.timestamp

variable {h : BotHistory} {b : StopBot} {x : BotRecord} {log : List BotRecord}

theorem known_init : Known {} where
  stopActive := by simp [StillStopped, stopPublished]
  pending := fun hactive => (by cases hactive)

theorem stillStopped_cons (hstop : x.isStop = false) :
    StillStopped (x :: log) ↔ StillStopped log ∧ x.isRestart = false ∧ x.isResumeAll = false := by
  simp only [StillStopped, stopPublished_cons, sinceStop_cons, hstop, Bool.false_or,
    Bool.false_eq_true, if_false, List.forall_mem_cons]
  tauto

theorem Asked.cons {chatId timestamp : ℤ} (ha : Asked log chatId timestamp)
    (hstop : x.isStop = false) : Asked (x :: log) chatId timestamp := by
  obtain ⟨u, p, reply, hmem, hchat, hnow⟩ := ha
  refine ⟨u, p, reply, ?_, hchat, hnow⟩
  rw [sinceStop_cons, hstop]
  exact List.mem_cons_of_mem _ hmem

/-- A step that publishes neither a stop nor a resume of all accounts, and
leaves the flags alone or drops the pending confirmation. -/
theorem Known.keep (hk : h.Known) (hstop : x.isStop = false) (hrestart : x.isRestart = false)
    (hall : x.isResumeAll = false) (hactive : b.stopActive = h.bot.stopActive)
    (hpending : b.pendingResume.active → b.pendingResume = h.bot.pendingResume) :
    Known { bot := b, log := x :: h.log } where
  stopActive := by
    rw [stillStopped_cons hstop]
    simp only [hactive, hk.stopActive, hrestart, hall, and_self, and_true]
  pending := by
    intro hb
    have heq : b.pendingResume = h.bot.pendingResume := hpending hb
    have ⟨hset, hasked⟩ := hk.pending (heq ▸ hb)
    refine ⟨hactive.trans hset, ?_⟩
    rw [heq]
    exact hasked.cons hstop

/-- A stop is published only while none is active, so nothing is pending. -/
theorem Known.stop (hk : h.Known) (hfree : h.bot.stopActive = false) (hstop : x.isStop = true) :
    Known { bot := { h.bot with stopActive := true }, log := x :: h.log } where
  stopActive := by
    simp [StillStopped, stopPublished_cons, sinceStop_cons, hstop]
  pending := by
    intro hb
    have hset : h.bot.stopActive = true := (hk.pending hb).1
    rw [hfree] at hset
    cases hset

/-- A record that ends the stop, and a bot without both flags. -/
theorem known_resumed (hstop : x.isStop = false) (hends : x.isRestart = true ∨ x.isResumeAll = true)
    (hactive : b.stopActive = false) (hpending : b.pendingResume.active = false) :
    Known { bot := b, log := x :: log } where
  stopActive := by
    rw [stillStopped_cons hstop]
    rcases hends with hx | hx <;> simp [hactive, hx]
  pending := by
    intro hb
    rw [hpending] at hb
    cases hb

/-- A request that is waited for. -/
theorem Known.request (hk : h.Known) (hset : h.bot.stopActive = true) (u : BotUpdate)
    (username : String) :
    Known
      { bot := h.bot.setPendingResume u.now username u.chatId
        log := .handled u .resumeAll none .askConfirmation :: h.log } where
  stopActive := by
    rw [stillStopped_cons rfl]
    have hstill : StillStopped h.log := hk.stopActive.mp hset
    exact iff_of_true hset ⟨hstill, rfl, rfl⟩
  pending := by
    intro _
    refine ⟨hset, u, none, .askConfirmation, ?_, rfl, rfl⟩
    rw [sinceStop_cons]
    exact List.mem_cons_self

/-! ## Each command -/

theorem Known.stopAll (hk : h.Known) (u : BotUpdate) :
    (h.record u .stopAll (h.bot.handleStopAll u)).Known := by
  unfold StopBot.handleStopAll StopBot.publishEmergencyStop
  split
  · exact hk.keep rfl rfl rfl rfl fun _ => rfl
  · rename_i hset
    have hfree : h.bot.stopActive = false := by simpa using hset
    cases u.publishError with
    | none => exact hk.stop hfree rfl
    | some e => exact hk.keep rfl rfl rfl rfl fun _ => rfl

theorem Known.resumeAll (hk : h.Known) (u : BotUpdate) :
    (h.record u .resumeAll (h.bot.handleResumeAll u)).Known := by
  unfold StopBot.handleResumeAll
  split
  · exact hk.keep rfl rfl rfl rfl fun _ => rfl
  · rename_i hfree
    have hset : h.bot.stopActive = true := by simpa using hfree
    exact hk.request hset u u.username

theorem Known.confirmResume (hk : h.Known) (u : BotUpdate) :
    (h.record u .confirmResume (h.bot.handleConfirmResume u)).Known := by
  unfold StopBot.handleConfirmResume StopBot.publishResumeCommand
  split
  · exact hk.keep rfl rfl rfl rfl fun hb => (by cases hb)
  · cases u.publishError with
    | none => exact known_resumed rfl (.inr rfl) rfl rfl
    | some e => exact hk.keep rfl rfl rfl rfl fun _ => rfl

theorem Known.resume (hk : h.Known) (u : BotUpdate) (arguments : String) :
    (h.record u (.resume arguments) (h.bot.handleResume u arguments)).Known := by
  unfold StopBot.handleResume StopBot.publishResumeCommand
  dsimp only
  split
  · exact hk.keep rfl rfl rfl rfl fun _ => rfl
  · cases u.publishError with
    | none => exact hk.keep rfl rfl rfl rfl fun _ => rfl
    | some e => exact hk.keep rfl rfl rfl rfl fun _ => rfl

theorem Known.step {e : BotEvent} {h' : BotHistory} (hk : h.Known) (hs : h.step e = some h') :
    h'.Known := by
  cases e with
  | restart =>
    obtain rfl := Option.some.inj hs
    exact known_resumed rfl (.inl rfl) rfl rfl
  | command u c =>
    obtain rfl := Option.some.inj hs
    cases c with
    | stopAll => exact hk.stopAll u
    | resumeAll => exact hk.resumeAll u
    | confirmResume => exact hk.confirmResume u
    | resume arguments => exact hk.resume u arguments

/-! ## What each command owes -/

/-- While the flag is set, nothing since the stop has ended it. -/
theorem Known.not_ended (hk : h.Known) (hset : h.bot.stopActive = true) :
    ¬ ∃ x ∈ sinceStop h.log, x.isResumeAll ∨ x.isRestart := by
  rintro ⟨x, hx, hends⟩
  have ⟨hrestart, hall⟩ := (hk.stopActive.mp hset).2 x hx
  rcases hends with hend | hend
  · exact Bool.noConfusion (hall.symm.trans hend)
  · exact Bool.noConfusion (hrestart.symm.trans hend)

/-- After a published stop, a flag that is not set was taken back. -/
theorem Known.ended (hk : h.Known) (hfree : h.bot.stopActive = false) (hstop : stopPublished h.log) :
    ∃ x ∈ sinceStop h.log, x.isResumeAll ∨ x.isRestart := by
  by_contra hnone
  have hstill : StillStopped h.log := by
    refine ⟨hstop, fun x hx => ?_⟩
    by_contra hx'
    refine hnone ⟨x, hx, ?_⟩
    cases hall : x.isResumeAll <;> cases hrestart : x.isRestart <;> simp_all
  have hset : h.bot.stopActive = true := hk.stopActive.mpr hstill
  exact Bool.noConfusion (hfree.symm.trans hset)

/-- A handler that does not resume all accounts owes no confirmation. -/
theorem resumeConfirmed_of_not {u : BotUpdate} {c : StopCommand} {r : Handled}
    (hr : r.published.any BotCommand.isResumeAll = false) : h.ResumeConfirmed u c r := by
  intro hall
  rw [hr] at hall
  cases hall

theorem not_isResumeAll_stopAll (b : StopBot) (u : BotUpdate) :
    (b.handleStopAll u).published.any BotCommand.isResumeAll = false := by
  unfold StopBot.handleStopAll StopBot.publishEmergencyStop
  cases b.stopActive <;> cases u.publishError <;> rfl

theorem not_isResumeAll_resumeAll (b : StopBot) (u : BotUpdate) :
    (b.handleResumeAll u).published.any BotCommand.isResumeAll = false := by
  unfold StopBot.handleResumeAll
  cases b.stopActive <;> rfl

theorem not_isResumeAll_resume (b : StopBot) (u : BotUpdate) (arguments : String) :
    (b.handleResume u arguments).published.any BotCommand.isResumeAll = false := by
  unfold StopBot.handleResume StopBot.publishResumeCommand
  dsimp only
  split
  · rfl
  · cases u.publishError <;> rfl

/-- `/stop_all` goes through exactly when the flag is not set. -/
theorem stopHeard_iff (u : BotUpdate) :
    h.StopHeard u (h.bot.handleStopAll u) ↔
      h.bot.stopActive = false ∨ ¬ ∃ x ∈ sinceStop h.log, x.isResume := by
  unfold StopHeard StopBot.handleStopAll StopBot.publishEmergencyStop
  cases hset : h.bot.stopActive with
  | true => simp
  | false =>
    refine iff_of_true (fun _ => ?_) (.inl rfl)
    cases u.publishError with
    | none => exact ⟨by simp, fun _ => rfl⟩
    | some e => exact ⟨by simp, fun hnone => (by cases hnone)⟩

theorem Known.stopHeard_iff_guarded (hk : h.Known) (u : BotUpdate) :
    h.StopHeard u (h.bot.handleStopAll u) ↔ h.Guarded (.command u .stopAll) := by
  rw [stopHeard_iff]
  cases hset : h.bot.stopActive with
  | true =>
    have hstop : stopPublished h.log := (hk.stopActive.mp hset).1
    have hended := hk.not_ended hset
    constructor
    · intro hno _ hresume
      exact absurd hresume (hno.resolve_left (by simp))
    · intro hguarded
      exact .inr fun hresume => hended (hguarded hstop hresume)
  | false => exact iff_of_true (.inl rfl) fun hstop _ => hk.ended hset hstop

theorem Known.resumeHeard_iff_guarded (hk : h.Known) (u : BotUpdate) :
    h.ResumeHeard (h.bot.handleResumeAll u) ↔ h.Guarded (.command u .resumeAll) := by
  unfold ResumeHeard StopBot.handleResumeAll
  cases hset : h.bot.stopActive with
  | true =>
    refine iff_of_true (fun _ _ => by simp) fun _ hrestart => ?_
    obtain ⟨x, hx, hend⟩ := hrestart
    exact absurd ⟨x, hx, .inr hend⟩ (hk.not_ended hset)
  | false =>
    constructor
    · intro hheard hstop _
      by_contra hnone
      refine hheard hstop (fun x hx hall => hnone ⟨x, hx, hall⟩) ?_
      simp
    · intro hguarded hstop hnone _
      obtain ⟨x, hx, hend⟩ := hk.ended hset hstop
      obtain ⟨y, hy, hall⟩ := hguarded hstop ⟨x, hx, hend.resolve_left (hnone x hx)⟩
      exact hnone y hy hall

/-- The pending request is one of the records since the stop. -/
theorem Known.asks (hk : h.Known) {now : ℤ} (hvalid : h.bot.pendingValid now) :
    ∃ x ∈ sinceStop h.log, x.asks h.bot.pendingResume.chatId now := by
  simp only [StopBot.pendingValid, Bool.and_eq_true, Bool.not_eq_true', decide_eq_false_iff_not,
    not_lt] at hvalid
  obtain ⟨u, p, reply, hmem, hchat, hnow⟩ := (hk.pending hvalid.1).2
  refine ⟨_, hmem, ?_⟩
  have htime : now - u.now ≤ confirmationTimeout := hnow ▸ hvalid.2
  simp [BotRecord.asks, hchat, htime]

theorem Known.resumeConfirmed_iff_guarded (hk : h.Known) (u : BotUpdate) :
    h.ResumeConfirmed u .confirmResume (h.bot.handleConfirmResume u) ↔
      h.Guarded (.command u .confirmResume) := by
  unfold ResumeConfirmed StopBot.handleConfirmResume StopBot.publishResumeCommand
  show _ ↔ (u.publishError = none → h.bot.pendingValid u.now → _)
  cases hvalid : h.bot.pendingValid u.now with
  | false => exact iff_of_true (fun hall => (by cases hall)) fun _ hv => (by cases hv)
  | true =>
    cases u.publishError with
    | some e => exact iff_of_true (fun hall => (by cases hall)) fun hnone => (by cases hnone)
    | none =>
      constructor
      · intro hconfirmed _ _
        exact .inr (hconfirmed rfl).2
      · intro hguarded _
        refine ⟨rfl, ?_⟩
        rcases hguarded rfl rfl with hchat | hasks
        · exact hchat ▸ hk.asks hvalid
        · exact hasks

/-- Under what is known of the flags, a command meets its law exactly when
it is guarded. -/
theorem Known.obeys_iff (hk : h.Known) (e : BotEvent) : h.Obeys e ↔ h.Guarded e := by
  cases e with
  | restart => rfl
  | command u c =>
    cases c with
    | stopAll =>
      have hconfirmed : h.ResumeConfirmed u .stopAll (h.bot.handleStopAll u) :=
        resumeConfirmed_of_not (not_isResumeAll_stopAll _ _)
      rw [← hk.stopHeard_iff_guarded u]
      exact ⟨fun ho => ho.1 rfl, fun hheard => ⟨fun _ => hheard, hconfirmed, fun hc => (by cases hc)⟩⟩
    | resumeAll =>
      have hconfirmed : h.ResumeConfirmed u .resumeAll (h.bot.handleResumeAll u) :=
        resumeConfirmed_of_not (not_isResumeAll_resumeAll _ _)
      rw [← hk.resumeHeard_iff_guarded u]
      exact ⟨fun ho => ho.2.2 rfl, fun hheard => ⟨fun hc => (by cases hc), hconfirmed, fun _ => hheard⟩⟩
    | confirmResume =>
      rw [← hk.resumeConfirmed_iff_guarded u]
      exact ⟨fun ho => ho.2.1, fun hok => ⟨fun hc => (by cases hc), hok, fun hc => (by cases hc)⟩⟩
    | resume arguments =>
      have hconfirmed : h.ResumeConfirmed u (.resume arguments) (h.bot.handleResume u arguments) :=
        resumeConfirmed_of_not (not_isResumeAll_resume _ _ _)
      exact iff_of_true ⟨fun hc => (by cases hc), hconfirmed, fun hc => (by cases hc)⟩ trivial

/-! ## Whole runs -/

theorem exec_isSome (h : BotHistory) (es : List BotEvent) : ∃ t, exec step h es = some t := by
  induction es generalizing h with
  | nil => exact ⟨h, rfl⟩
  | cons e es ih =>
    obtain ⟨h', hs⟩ : ∃ h', h.step e = some h' := by cases e <;> exact ⟨_, rfl⟩
    obtain ⟨t, ht⟩ := ih h'
    exact ⟨t, by rw [exec, hs]; exact ht⟩

/-- **The law of the emergency stop holds along exactly the runs of guarded
commands**, from a bot that has just started: any commands, from any chats
and at any times, with publishes that succeed or fail and with restarts. -/
theorem obeys_iff_guarded (es : List BotEvent) :
    Checked step Obeys {} es ↔ Checked step Guarded {} es := by
  obtain ⟨t, ht⟩ := exec_isSome {} es
  constructor
  · exact Checked.mono_of_invariant Known
      (fun _ e _ hk ho hs => ⟨hk.step hs, (hk.obeys_iff e).mp ho⟩) known_init ht
  · exact Checked.mono_of_invariant Known
      (fun _ e _ hk hg hs => ⟨hk.step hs, (hk.obeys_iff e).mpr hg⟩) known_init ht

end BotHistory

/-! ## Runs that break the law -/

/-- A command from a chat at a second, whose publish succeeds. -/
def botCommand (chatId seconds : ℤ) (c : StopCommand) : BotEvent :=
  .command { now := seconds * 1000000000, timestamp := "", chatId, sender := some ("trader", 1) } c

/-- A stop after the resume of one account is answered with "already
stopped"; a chat that asked for nothing confirms the resume; and after a
restart the stop cannot be resumed from. -/
theorem stop_refused :
    ¬ Checked BotHistory.step BotHistory.Obeys {}
        [botCommand 7 0 .stopAll, botCommand 7 10 (.resume "ftmo-001"), botCommand 7 20 .stopAll] ∧
      ¬ Checked BotHistory.step BotHistory.Obeys {}
        [botCommand 7 0 .stopAll, botCommand 7 10 .resumeAll, botCommand 8 20 .confirmResume] ∧
      ¬ Checked BotHistory.step BotHistory.Obeys {}
        [botCommand 7 0 .stopAll, .restart, botCommand 7 10 .resumeAll] := by
  decide

/-- Stopped, resumed and stopped again. -/
example : Checked BotHistory.step BotHistory.Guarded {}
    [botCommand 7 0 .stopAll, botCommand 7 10 .resumeAll, botCommand 7 20 .confirmResume,
     botCommand 7 30 .stopAll] := by
  decide

end TdSandboxed
