/-
TdSandboxed.Notification.EmergencyChannels — the messages of an emergency
stop, between the engine (`state/emergency_stop_handler.py`) and the
notification service (`telegram/bot.go`, `subscriber/redis_subscriber.go`,
`handlers/emergency_handler.go`, `formatters/alert_formatter.go`).

A message is a channel and the JSON value of its text. What ties the two
sides together are strings only: the channel a publisher names and the
patterns a subscriber gave, the `type` of the value, and its field names.

* The handlers of the other channels are told apart, and not modelled.
* `clock` is `formatAlertTimestamp`.
* The texts of the errors are left out: `Route` logs them.
-/
import TdSandboxed.Adapters.Json
import TdSandboxed.State.EmergencyStop

namespace TdSandboxed

/-! ## Redis channels -/

/-- How Redis matches a channel with a pattern: `*` is any text and `?` any
character. The patterns here have no classes and no escapes. -/
def globMatch : List Char → List Char → Bool
  | [], s => s.isEmpty
  | '*' :: p, s => s.tails.any (globMatch p)
  | '?' :: p, _ :: s => globMatch p s
  | c :: p, d :: s => c = d && globMatch p s
  | _ :: _, [] => false

/-- `EMERGENCY_STOP_CHANNEL` -/
def emergencyStopChannel : String := "emergency:stop"

/-- `EMERGENCY_STOP_CONFIRMATION_CHANNEL` -/
def emergencyStopConfirmationChannel : String := "emergency:stop_confirmation"

/-! ## Messages of the engine -/

/-- `to_payload` -/
def EmergencyStopResult.toPayload (r : EmergencyStopResult) (startedAt completedAt : String)
    (command : List (String × Json)) : Json :=
  .obj
    [("type", .str "emergency_stop_confirmation"),
     ("accounts_processed", .int r.accountsProcessed),
     ("positions_closed", .int r.positionsClosed),
     ("accounts_paused", .int r.accountsPaused),
     ("failures", .arr (r.failures.map fun f => .arr [.str f.1, .str f.2])),
     ("started_at", .str startedAt),
     ("completed_at", .str completedAt),
     ("originating_command", .obj command)]

/-! ## Commands of the bot -/

/-- What the bot publishes on the emergency channels. -/
inductive BotCommand
  /-- `PublishEmergencyStop` -/
  | stopAll (username : String) (chatId : ℤ) (timestamp : String)
  /-- `PublishResumeCommand`; no accounts are all accounts. -/
  | resume (username : String) (chatId : ℤ) (accounts : List String) (timestamp : String)
  deriving DecidableEq

namespace BotCommand

def channel : BotCommand → String
  | stopAll .. => "emergency:stop"
  | resume .. => "emergency:resume"

def type : BotCommand → String
  | stopAll .. => "emergency_stop"
  | resume .. => "resume_command"

/-- The fields of `EmergencyStopCommand` and of `ResumeCommand`. -/
def fields : BotCommand → List (String × Json)
  | stopAll username chatId timestamp =>
    [("type", .str (stopAll username chatId timestamp).type), ("command", .str "stop_all"),
     ("initiator", .str "telegram"), ("initiated_by", .str ("@" ++ username)),
     ("chat_id", .int chatId), ("timestamp", .str timestamp)]
  | resume username chatId accounts timestamp =>
    [("type", .str (resume username chatId accounts timestamp).type),
     ("command", .str (if accounts.length > 0 then "resume" else "resume_all")),
     ("initiator", .str "telegram"), ("initiated_by", .str ("@" ++ username)),
     ("chat_id", .int chatId)] ++
    -- `omitempty`
    (if accounts = [] then [] else [("accounts", .arr (accounts.map .str))]) ++
    [("timestamp", .str timestamp)]

def payload (c : BotCommand) : Json := .obj c.fields

end BotCommand

/-! ## The engine's subscriptions -/

/-- What listens to Redis in the engine. -/
inductive EngineListener
  /-- `EmergencyStopHandler` -/
  | emergencyStop
  /-- `LiveOrchestrator`, for the phase of an account. -/
  | phaseChanged
  /-- `RedisDataClient` and `RedisAdapter`: symbol and timeframe. -/
  | bars (subscriptions : List (String × String))

/-- What a listener does with a message. -/
inductive EngineAction
  /-- `_handle_stop_command` -/
  | handleStop (command : List (String × Json))
  /-- `reload_account` -/
  | reloadAccount
  | bar

namespace EngineListener

def receives : EngineListener → String → Bool
  | emergencyStop, channel => channel = emergencyStopChannel
  | phaseChanged, channel => globMatch "account:phase-changed:*".toList channel.toList
  | bars subscriptions, channel => subscriptions.any fun s => channel = "bars:" ++ s.1 ++ ":" ++ s.2

/-- `_listen_loop` of the emergency stop takes every JSON object for a stop;
what the other two listeners parse is left out. -/
def action : EngineListener → Json → Option EngineAction
  | emergencyStop, .obj command => some (.handleStop command)
  | emergencyStop, _ => none
  | phaseChanged, _ => some .reloadAccount
  | bars _, _ => some .bar

end EngineListener

/-- The action is the one the command asks for. -/
def BotCommand.PerformedBy (c : BotCommand) : EngineAction → Prop
  | .handleStop command => command = c.fields ∧ ∃ u i t, c = .stopAll u i t
  | .reloadAccount | .bar => False

/-! ## Reading a message into a struct -/

inductive UnmarshalError
  | notAnObject
  | typeError (field : String)
  deriving DecidableEq

def foldChar (c : Char) : Char :=
  if c = 'ſ' then 's' else if c = 'K' then 'k' else c.toLower

/-- `strings.EqualFold` with a name in lower case: how `json.Unmarshal` finds
the field of a key. -/
def equalFold (key name : String) : Bool := key.toList.map foldChar = name.toList

/-- One key of the object, for the field `name`. A `null` leaves the field
as it is. -/
def unmarshalKey (name : String) (read : Json → Option α) (a : α) (kv : String × Json) :
    Except UnmarshalError α :=
  if equalFold kv.1 name then
    match kv.2 with
    | .null => .ok a
    | v => (read v).elim (.error (.typeError name)) .ok
  else .ok a

/-- The field `name` of the struct; `zero` is its value when no key sets it. -/
def unmarshalField (name : String) (read : Json → Option α) (zero : α) :
    Json → Except UnmarshalError α
  | .obj fields => fields.foldlM (unmarshalKey name read) zero
  | .null => .ok zero
  | _ => .error .notAnObject

/-- A Go `string`. -/
def Json.goString : Json → Option String
  | .str s => some s
  | _ => none

/-- A Go `int`. -/
def Json.goInt : Json → Option ℤ
  | .int n => if -2 ^ 63 ≤ n ∧ n < 2 ^ 63 then some n else none
  | _ => none

/-! ## The notification service -/

structure EmergencyStopConfirmation where
  type : String
  status : String
  accountsPaused : ℤ
  positionsPreserved : ℤ
  ordersCancelled : ℤ
  timestamp : String
  deriving DecidableEq

structure ResumeConfirmation where
  type : String
  status : String
  accountsRestarted : ℤ
  timestamp : String
  deriving DecidableEq

def EmergencyStopConfirmation.unmarshal (j : Json) :
    Except UnmarshalError EmergencyStopConfirmation := do
  let type ← unmarshalField "type" Json.goString "" j
  let status ← unmarshalField "status" Json.goString "" j
  let accountsPaused ← unmarshalField "accounts_paused" Json.goInt 0 j
  let positionsPreserved ← unmarshalField "positions_preserved" Json.goInt 0 j
  let ordersCancelled ← unmarshalField "orders_cancelled" Json.goInt 0 j
  let timestamp ← unmarshalField "timestamp" Json.goString "" j
  return { type, status, accountsPaused, positionsPreserved, ordersCancelled, timestamp }

def ResumeConfirmation.unmarshal (j : Json) : Except UnmarshalError ResumeConfirmation := do
  let type ← unmarshalField "type" Json.goString "" j
  let status ← unmarshalField "status" Json.goString "" j
  let accountsRestarted ← unmarshalField "accounts_restarted" Json.goInt 0 j
  let timestamp ← unmarshalField "timestamp" Json.goString "" j
  return { type, status, accountsRestarted, timestamp }

/-- `FormatEmergencyStopConfirmation` -/
def EmergencyStopConfirmation.format (clock : String → String) (e : EmergencyStopConfirmation) :
    String :=
  let orderStatus := if e.ordersCancelled = 0 then "None pending" else "Cancelled"
  s!"🔴 *EMERGENCY STOP COMPLETE*\nAccounts Paused: {e.accountsPaused}\n" ++
    s!"Pending Orders: {orderStatus}\nOpen Positions: {e.positionsPreserved} (preserved)\n" ++
    s!"Action: Use /resume_all to restart trading\nTime: {clock e.timestamp}"

/-- `FormatResumeConfirmation` -/
def ResumeConfirmation.format (clock : String → String) (e : ResumeConfirmation) : String :=
  s!"🟢 *TRADING RESUMED*\nAccounts Restarted: {e.accountsRestarted}\n" ++
    s!"Status: Normal operation\nTime: {clock e.timestamp}"

/-- What `EmergencyHandler.Handle` makes of a message. -/
inductive EmergencyEvent
  /-- The bot's own command, or a type that is not known. -/
  | ignored
  | stopConfirmation (e : EmergencyStopConfirmation)
  | resumeConfirmation (e : ResumeConfirmation)
  deriving DecidableEq

namespace EmergencyHandler

/-- The `switch` over the type of a message. -/
def decodeAs (type : String) (payload : Json) : Except UnmarshalError EmergencyEvent :=
  if type = "emergency_stop_confirmation" then
    (EmergencyStopConfirmation.unmarshal payload).map .stopConfirmation
  else if type = "resume_confirmation" then
    (ResumeConfirmation.unmarshal payload).map .resumeConfirmation
  else
    -- among them the echoes "emergency_stop" and "resume_command"
    .ok .ignored

def decode (payload : Json) : Except UnmarshalError EmergencyEvent := do
  let type ← unmarshalField "type" Json.goString "" payload
  decodeAs type payload

/-- `Handle`; the empty text is not sent. -/
def handle (clock : String → String) (payload : Json) : Except UnmarshalError String :=
  (decode payload).map fun
    | .ignored => ""
    | .stopConfirmation e => e.format clock
    | .resumeConfirmation e => e.format clock

end EmergencyHandler

inductive AlertHandler
  | trade
  | risk
  | system
  | emergency
  deriving DecidableEq

/-- The handler `Route` passes a message of this channel to. -/
def Router.handlerOf (channel : String) : Option AlertHandler :=
  if "alerts:trade:".toList.isPrefixOf channel.toList then some .trade
  else if "alerts:risk:".toList.isPrefixOf channel.toList then some .risk
  else if channel = "alerts:system" then some .system
  else if channel = "emergency:stop" then some .emergency
  else if channel = "emergency:resume" then some .emergency
  else none

/-- The patterns of `PSubscribe`. -/
def Subscriber.channels : List String :=
  ["alerts:trade:*", "alerts:risk:*", "alerts:system", "emergency:stop", "emergency:resume"]

def Subscriber.receives (channel : String) : Bool :=
  channels.any fun pattern => globMatch pattern.toList channel.toList

end TdSandboxed
