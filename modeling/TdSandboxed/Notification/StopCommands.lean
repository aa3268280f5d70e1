/-
TdSandboxed.Notification.StopCommands — the emergency commands of the
Telegram bot (`telegram/commands.go`, `telegram/bot.go`).

The bot takes its updates one after the other, so the handling of a command
is one step. What it keeps between two commands, the stop flag and the
pending confirmation, is in memory only: a restart loses both. A restart in
the middle of a command is the command, or nothing of it, and a restart.

Instants and durations are int64 nanoseconds. `log` is what an observer of
the chat and of Redis knows, and no handler reads it.
-/
import TdSandboxed.Lib.GoText
import TdSandboxed.Lib.Run
import TdSandboxed.Notification.EmergencyChannels

namespace TdSandboxed

open Lib

/-! ## The bot -/

/-- `pendingConfirmation` -/
structure PendingConfirmation where
  timestamp : ℤ := 0
  username : String := ""
  chatId : ℤ := 0
  active : Bool := false
  deriving DecidableEq

structure StopBot where
  stopActive : Bool := false
  pendingResume : PendingConfirmation := {}
  deriving DecidableEq

/-- A message that carries a command, and how the publish of its handler
would end. -/
structure BotUpdate where
  now : ℤ
  /-- `now` as RFC 3339. -/
  timestamp : String
  chatId : ℤ
  /-- User name and id. -/
  sender : Option (String × ℤ)
  publishError : Option String := none
  deriving DecidableEq

inductive StopCommand
  | stopAll
  | resumeAll
  | confirmResume
  | resume (arguments : String)
  deriving DecidableEq

inductive BotReply
  | alreadyStopped
  | stopFailed (error : String)
  | stopInitiated
  | alreadyActive
  | askConfirmation
  | noPending
  | resumeFailed (error : String)
  | resumeInitiated
  | missingAccount
  | accountResumed (accountId : String)
  deriving DecidableEq

def BotReply.text : BotReply → String
  | alreadyStopped => "⚠️ All accounts already stopped"
  | stopFailed error =>
    s!"*EMERGENCY STOP FAILED*\n\nFailed to send stop command.\nError: {error}"
  | stopInitiated =>
    "🛑 *EMERGENCY STOP INITIATED*\n\nCommand sent to trading engine.\nAwaiting confirmation..."
  | alreadyActive => "⚠️ Trading is already active - no emergency stop to resume from"
  | askConfirmation =>
    "⚠️ *Resume trading for all accounts?*\n\nReply /confirm_resume within 60 seconds to proceed." ++
      "\n\n_This will restart all previously active accounts._"
  | noPending =>
    "⚠️ No pending resume request.\n\nUse /resume_all first, then /confirm_resume within 60 seconds."
  | resumeFailed error => s!"*RESUME FAILED*\n\nFailed to send resume command.\nError: {error}"
  | resumeInitiated =>
    "🟢 *TRADING RESUME INITIATED*\n\nCommand sent to trading engine.\nAwaiting confirmation..."
  | missingAccount =>
    "⚠️ Please specify an account ID.\n\nUsage: /resume <account_id>\nExample: /resume ftmo-gold-001"
  | accountResumed accountId =>
    s!"🟢 *RESUME INITIATED*\n\nAccount: {accountId}\nCommand sent to trading engine."

/-- What a handler leaves, publishes and answers. -/
structure Handled where
  bot : StopBot
  published : Option BotCommand
  reply : BotReply
  deriving DecidableEq

def BotUpdate.username (u : BotUpdate) : String :=
  match u.sender with
  | none => "unknown"
  | some (name, id) => if name = "" then s!"user_{id}" else name

/-- The time a confirmation may take. -/
def confirmationTimeout : ℤ := 60 * 1000000000

namespace StopBot

/-- `PublishEmergencyStop` -/
def publishEmergencyStop (u : BotUpdate) : Except String BotCommand :=
  match u.publishError with
  | none => .ok (.stopAll u.username u.chatId u.timestamp)
  | some e => .error ("failed to publish emergency stop: " ++ e)

/-- `PublishResumeCommand` -/
def publishResumeCommand (u : BotUpdate) (username : String) (chatId : ℤ) (accounts : List String) :
    Except String BotCommand :=
  match u.publishError with
  | none => .ok (.resume username chatId accounts u.timestamp)
  | some e => .error ("failed to publish resume command: " ++ e)

/-- `SetPendingResume` -/
def setPendingResume (b : StopBot) (now : ℤ) (username : String) (chatId : ℤ) : StopBot :=
  { b with pendingResume := { timestamp := now, username, chatId, active := true } }

/-- `ClearPendingResume` -/
def clearPendingResume (b : StopBot) : StopBot :=
  { b with pendingResume := { b.pendingResume with active := false } }

/-- `GetPendingResume` gives a confirmation back. -/
def pendingValid (b : StopBot) (now : ℤ) : Bool :=
  b.pendingResume.active && !(now - b.pendingResume.timestamp > confirmationTimeout)

def handleStopAll (b : StopBot) (u : BotUpdate) : Handled :=
  if b.stopActive then ⟨b, none, .alreadyStopped⟩
  else
    match publishEmergencyStop u with
    | .error e => ⟨b, none, .stopFailed e⟩
    | .ok c => ⟨{ b with stopActive := true }, some c, .stopInitiated⟩

def handleResumeAll (b : StopBot) (u : BotUpdate) : Handled :=
  if !b.stopActive then ⟨b, none, .alreadyActive⟩
  else ⟨b.setPendingResume u.now u.username u.chatId, none, .askConfirmation⟩

def handleConfirmResume (b : StopBot) (u : BotUpdate) : Handled :=
  if !b.pendingValid u.now then
    -- a confirmation that is too old is not active any more
    ⟨b.clearPendingResume, none, .noPending⟩
  else
    match publishResumeCommand u b.pendingResume.username b.pendingResume.chatId [] with
    | .error e => ⟨b, none, .resumeFailed e⟩
    | .ok c => ⟨{ b with stopActive := false }.clearPendingResume, some c, .resumeInitiated⟩

def handleResume (b : StopBot) (u : BotUpdate) (arguments : String) : Handled :=
  let accountId := String.ofList (trimSpace arguments.toList)
  if accountId = "" then ⟨b, none, .missingAccount⟩
  else
    match publishResumeCommand u u.username u.chatId [accountId] with
    | .error e => ⟨b, none, .resumeFailed e⟩
    | .ok c => ⟨b, some c, .accountResumed accountId⟩

/-- `Handle`, for the emergency commands. -/
def handle (b : StopBot) (u : BotUpdate) : StopCommand → Handled
  | .stopAll => b.handleStopAll u
  | .resumeAll => b.handleResumeAll u
  | .confirmResume => b.handleConfirmResume u
  | .resume arguments => b.handleResume u arguments

end StopBot

/-! ## What an observer knows -/

inductive BotRecord
  | handled (u : BotUpdate) (c : StopCommand) (published : Option BotCommand) (reply : BotReply)
  | restarted
  deriving DecidableEq

def BotCommand.isStop : BotCommand → Bool
  | .stopAll .. => true
  | .resume .. => false

def BotCommand.isResumeAll : BotCommand → Bool
  | .resume _ _ accounts _ => accounts = []
  | .stopAll .. => false

namespace BotRecord

def published : BotRecord → Option BotCommand
  | handled _ _ p _ => p
  | restarted => none

def isStop (x : BotRecord) : Bool := x.published.any BotCommand.isStop

/-- A resume of any accounts is published. -/
def isResume (x : BotRecord) : Bool := x.published.any fun c => !c.isStop

def isResumeAll (x : BotRecord) : Bool := x.published.any BotCommand.isResumeAll

def isRestart (x : BotRecord) : Bool := x = restarted

/-- A `/resume_all` of this chat, at most 60 s before `now`. -/
def asks (chatId now : ℤ) : BotRecord → Bool
  | handled u .resumeAll _ _ => u.chatId = chatId && now - u.now ≤ confirmationTimeout
  | _ => false

end BotRecord

/-- The records since the last published stop; the newest is first. -/
def sinceStop (log : List BotRecord) : List BotRecord := log.takeWhile fun x => !x.isStop

/-- A stop was published. -/
def stopPublished (log : List BotRecord) : Bool := log.any BotRecord.isStop

structure BotHistory where
  bot : StopBot := {}
  log : List BotRecord := []
  deriving DecidableEq

inductive BotEvent
  | command (u : BotUpdate) (c : StopCommand)
  | restart
  deriving DecidableEq

namespace BotHistory

def record (h : BotHistory) (u : BotUpdate) (c : StopCommand) (r : Handled) : BotHistory :=
  { bot := r.bot, log := .handled u c r.published r.reply :: h.log }

def step (h : BotHistory) : BotEvent → Option BotHistory
  | .command u c => some (h.record u c (h.bot.handle u c))
  | .restart => some { bot := {}, log := .restarted :: h.log }

/-! ## The law of the stop -/

/-- A stop is not refused once a resume was published. -/
def StopHeard (h : BotHistory) (u : BotUpdate) (r : Handled) : Prop :=
  (∃ x ∈ sinceStop h.log, x.isResume) →
    r.reply ≠ .alreadyStopped ∧ (u.publishError = none → r.published.any BotCommand.isStop)

/-- All accounts are resumed only by a confirmation of the chat's own
request. -/
def ResumeConfirmed (h : BotHistory) (u : BotUpdate) (c : StopCommand) (r : Handled) : Prop :=
  r.published.any BotCommand.isResumeAll →
    c = .confirmResume ∧ ∃ x ∈ sinceStop h.log, x.asks u.chatId u.now

/-- After a stop, a resume is not refused until one was published. -/
def ResumeHeard (h : BotHistory) (r : Handled) : Prop :=
  stopPublished h.log → (∀ x ∈ sinceStop h.log, ¬ x.isResumeAll) → r.reply ≠ .alreadyActive

/-- What the handling of a command owes to the commands before it. -/
def Obeys (h : BotHistory) : BotEvent → Prop
  | .command u c =>
    (c = .stopAll → h.StopHeard u (h.bot.handle u c)) ∧
      h.ResumeConfirmed u c (h.bot.handle u c) ∧
      (c = .resumeAll → h.ResumeHeard (h.bot.handle u c))
  | .restart => True

instance (h : BotHistory) : DecidablePred h.Obeys
  | .command _ _ =>
    inferInstanceAs (Decidable ((_ → ((∃ x ∈ sinceStop h.log, _) → _ ∧ (_ → _))) ∧
      (_ → _ ∧ ∃ x ∈ sinceStop h.log, _) ∧ (_ → (_ → (∀ x ∈ sinceStop h.log, _) → _))))
  | .restart => .isTrue trivial

/-- When a command is safe to handle, by what was published and asked for
since the last published stop: a stop, when a resume comes with a resume of
all accounts or with a restart; a request, when a restart comes with a
resume of all accounts; and a confirmation, when the pending request is the
chat's own, or took the place of one of its own. -/
def Guarded (h : BotHistory) : BotEvent → Prop
  | .command _ .stopAll => stopPublished h.log → (∃ x ∈ sinceStop h.log, x.isResume) →
      ∃ x ∈ sinceStop h.log, x.isResumeAll ∨ x.isRestart
  | .command _ .resumeAll => stopPublished h.log → (∃ x ∈ sinceStop h.log, x.isRestart) →
      ∃ x ∈ sinceStop h.log, x.isResumeAll
  | .command u .confirmResume => u.publishError = none → h.bot.pendingValid u.now →
      h.bot.pendingResume.chatId = u.chatId ∨ ∃ x ∈ sinceStop h.log, x.asks u.chatId u.now
  | .command _ (.resume _) | .restart => True

instance (h : BotHistory) : DecidablePred h.Guarded
  | .command _ .stopAll => inferInstanceAs (Decidable (_ → (∃ x ∈ sinceStop h.log, _) →
      ∃ x ∈ sinceStop h.log, _))
  | .command _ .resumeAll => inferInstanceAs (Decidable (_ → (∃ x ∈ sinceStop h.log, _) →
      ∃ x ∈ sinceStop h.log, _))
  | .command _ .confirmResume =>
    inferInstanceAs (Decidable (_ → _ → _ ∨ ∃ x ∈ sinceStop h.log, _))
  | .command _ (.resume _) | .restart => .isTrue trivial

end BotHistory

end TdSandboxed
