/-
TdSandboxed.Notification.EmergencyChannelTheorems — which messages of an
emergency stop reach the other side.

The engine's confirmation is published on a channel that the notification
service has no pattern and `Route` no case for. Given to `EmergencyHandler`
by hand it would show the right number of accounts, and 0 positions: the
handler reads `positions_preserved`, and the engine writes
`positions_closed`. The bot's resume commands go out on a channel nothing
in the engine listens to. A stop command reaches the engine as it is.

The reading of a struct is taken apart first: `unmarshalField_of_mem` and
`unmarshalField_of_not_mem` say what one field is, from the keys alone.
-/
import TdSandboxed.Notification.EmergencyChannels

namespace TdSandboxed

/-! ## One field of a struct -/

variable {α : Type} {name : String} {read : Json → Option α} {zero : α}

/-- A field that was read goes on to the next. -/
theorem unmarshal_bind {β : Type} (a : α) (f : α → Except UnmarshalError β) :
    (Except.ok a >>= f) = f a := rfl

theorem foldlM_unmarshalKey {fields : List (String × Json)}
    (h : ∀ kv ∈ fields, equalFold kv.1 name = false) (a : α) :
    fields.foldlM (unmarshalKey name read) a = .ok a := by
  induction fields with
  | nil => rfl
  | cons kv rest ih =>
    obtain ⟨hkv, hrest⟩ := List.forall_mem_cons.1 h
    have hkey : unmarshalKey name read a kv = .ok a := by simp [unmarshalKey, hkv]
    rw [List.foldlM_cons, hkey]
    exact ih hrest

/-- A field that no key sets is its zero value. -/
theorem unmarshalField_of_not_mem {fields : List (String × Json)}
    (h : ∀ kv ∈ fields, equalFold kv.1 name = false) :
    unmarshalField name read zero (.obj fields) = .ok zero :=
  foldlM_unmarshalKey h zero

/-- A field that one key sets is what is read there. -/
theorem unmarshalField_of_mem (before : List (String × Json)) {after : List (String × Json)}
    {key : String} {v : Json} (hkey : equalFold key name = true) (hv : v ≠ .null)
    (hbefore : ∀ kv ∈ before, equalFold kv.1 name = false)
    (hafter : ∀ kv ∈ after, equalFold kv.1 name = false) :
    unmarshalField name read zero (.obj (before ++ (key, v) :: after)) =
      (read v).elim (.error (.typeError name)) .ok := by
  have hread : unmarshalKey name read zero (key, v) =
      (read v).elim (.error (.typeError name)) .ok := by
    cases v <;> simp_all [unmarshalKey]
  show (before ++ (key, v) :: after).foldlM (unmarshalKey name read) zero = _
  rw [List.foldlM_append, foldlM_unmarshalKey hbefore]
  show ((key, v) :: after).foldlM (unmarshalKey name read) zero = _
  rw [List.foldlM_cons, hread]
  cases read v with
  | none => rfl
  | some a => exact foldlM_unmarshalKey hafter a

/-! ## The confirmation -/

section
variable (r : EmergencyStopResult) (startedAt completedAt : String)
  (command : List (String × Json))

/-- The keys of a confirmation, and the fields the handler looks for. -/
theorem unmarshalField_toPayload_type :
    unmarshalField "type" Json.goString "" (r.toPayload startedAt completedAt command) =
      .ok "emergency_stop_confirmation" :=
  unmarshalField_of_mem [] (by decide) (by simp) (by simp) (by simp; decide)

theorem unmarshalField_toPayload_accounts :
    unmarshalField "accounts_paused" Json.goInt 0 (r.toPayload startedAt completedAt command) =
      (Json.goInt (.int r.accountsPaused)).elim (.error (.typeError "accounts_paused")) .ok :=
  unmarshalField_of_mem
    [("type", .str "emergency_stop_confirmation"), ("accounts_processed", .int r.accountsProcessed),
     ("positions_closed", .int r.positionsClosed)]
    (by decide) (by simp) (by simp; decide) (by simp; decide)

/-- Every other field of the struct is missing in the engine's message. -/
theorem unmarshalField_toPayload_missing {name : String}
    (h : name ∈ ["status", "positions_preserved", "orders_cancelled", "timestamp"]) :
    unmarshalField name read zero (r.toPayload startedAt completedAt command) = .ok zero := by
  apply unmarshalField_of_not_mem
  simp only [List.mem_cons, List.not_mem_nil, or_false] at h
  rcases h with rfl | rfl | rfl | rfl <;> simp <;> decide

theorem goInt_natCast (n : ℕ) :
    Json.goInt (.int n) = if n < 2 ^ 63 then some (n : ℤ) else none := by
  simp only [Json.goInt]
  split_ifs <;> first | rfl | omega

/-- What the handler makes of a confirmation of the engine. -/
theorem decode_toPayload :
    EmergencyHandler.decode (r.toPayload startedAt completedAt command) =
      if r.accountsPaused < 2 ^ 63 then
        .ok (.stopConfirmation
          { type := "emergency_stop_confirmation", status := ""
            accountsPaused := r.accountsPaused, positionsPreserved := 0, ordersCancelled := 0
            timestamp := "" })
      else .error (.typeError "accounts_paused") := by
  have hstatus : unmarshalField "status" Json.goString "" (r.toPayload startedAt completedAt command)
      = .ok "" := unmarshalField_toPayload_missing r startedAt completedAt command (by simp)
  have hpositions : unmarshalField "positions_preserved" Json.goInt 0
      (r.toPayload startedAt completedAt command) = .ok 0 :=
    unmarshalField_toPayload_missing r startedAt completedAt command (by simp)
  have horders : unmarshalField "orders_cancelled" Json.goInt 0
      (r.toPayload startedAt completedAt command) = .ok 0 :=
    unmarshalField_toPayload_missing r startedAt completedAt command (by simp)
  have htime : unmarshalField "timestamp" Json.goString ""
      (r.toPayload startedAt completedAt command) = .ok "" :=
    unmarshalField_toPayload_missing r startedAt completedAt command (by simp)
  have htype := unmarshalField_toPayload_type r startedAt completedAt command
  have haccounts := unmarshalField_toPayload_accounts r startedAt completedAt command
  rw [EmergencyHandler.decode, htype, unmarshal_bind, EmergencyHandler.decodeAs, if_pos rfl,
    EmergencyStopConfirmation.unmarshal, htype, unmarshal_bind, hstatus, unmarshal_bind, haccounts,
    goInt_natCast]
  split_ifs with hfits
  · rw [Option.elim_some, unmarshal_bind, hpositions, unmarshal_bind, horders, unmarshal_bind, htime]
    rfl
  · rw [Option.elim_none]
    rfl

/-- The counts of the result are those of the decoded confirmation. -/
def EmergencyStopResult.ShownBy (r : EmergencyStopResult) (payload : Json) : Prop :=
  ∃ e, EmergencyHandler.decode payload = .ok (.stopConfirmation e) ∧
    e.accountsPaused = r.accountsPaused ∧ e.positionsPreserved = r.positionsClosed

/-- The handler itself gets the counts right only where no position was
closed. -/
theorem shownBy_toPayload_iff :
    r.ShownBy (r.toPayload startedAt completedAt command) ↔
      r.positionsClosed = 0 ∧ r.accountsPaused < 2 ^ 63 := by
  unfold EmergencyStopResult.ShownBy
  rw [decode_toPayload]
  constructor
  · rintro ⟨e, hdecode, -, hpositions⟩
    split_ifs at hdecode with hfits
    cases hdecode
    exact ⟨by simpa using hpositions.symm, hfits⟩
  · rintro ⟨hclosed, hfits⟩
    exact ⟨_, if_pos hfits, rfl, by simp [hclosed]⟩

end

/-! ## The bot's commands -/

/-- The bot's own command comes back to the notification service, and is
ignored there. -/
theorem decode_payload (c : BotCommand) : EmergencyHandler.decode c.payload = .ok .ignored := by
  have htype : unmarshalField "type" Json.goString "" c.payload = .ok c.type := by
    cases c with
    | stopAll username chatId timestamp =>
      exact unmarshalField_of_mem [] (by decide) (by simp) (by simp) (by simp; decide)
    | resume username chatId accounts timestamp =>
      refine unmarshalField_of_mem [] (by decide) (by simp) (by simp) ?_
      by_cases hnone : accounts = [] <;> simp [hnone] <;> decide
  rw [EmergencyHandler.decode, htype, unmarshal_bind, EmergencyHandler.decodeAs]
  cases c with
  | stopAll =>
    show (if "emergency_stop" = "emergency_stop_confirmation" then _ else _) = _
    rw [if_neg (by decide)]
    exact if_neg (by decide : "emergency_stop" ≠ "resume_confirmation")
  | resume =>
    show (if "resume_command" = "emergency_stop_confirmation" then _ else _) = _
    rw [if_neg (by decide)]
    exact if_neg (by decide : "resume_command" ≠ "resume_confirmation")

/-- No listener of the engine receives what is published on
`emergency:resume`. -/
theorem receives_resume (l : EngineListener) : l.receives "emergency:resume" = false := by
  cases l with
  | emergencyStop => decide
  | phaseChanged => decide
  | bars subscriptions =>
    simp only [EngineListener.receives, List.any_eq_false, decide_eq_true_eq]
    intro s _ hchannel
    have hchars := congrArg String.toList hchannel
    simp at hchars

/-! ## Both directions -/

/-- A message of either side. -/
inductive EmergencyMessage
  | confirmation (r : EmergencyStopResult) (startedAt completedAt : String)
      (originating : List (String × Json))
  | command (c : BotCommand)

namespace EmergencyMessage

/-- A confirmation is shown with the result's counts; a command is carried
out by something that listens in the engine. -/
def ReachesPeer : EmergencyMessage → Prop
  | confirmation r startedAt completedAt originating =>
    Subscriber.receives emergencyStopConfirmationChannel ∧
      Router.handlerOf emergencyStopConfirmationChannel = some .emergency ∧
      r.ShownBy (r.toPayload startedAt completedAt originating)
  | command c =>
    ∃ (l : EngineListener) (a : EngineAction),
      l.receives c.channel ∧ l.action c.payload = some a ∧ c.PerformedBy a

/-- The bot's `/stop_all`. -/
def IsStopCommand (m : EmergencyMessage) : Prop := ∃ u i t, m = command (.stopAll u i t)

/-- The notification service is not subscribed to the confirmations. -/
theorem not_reachesPeer_confirmation (r : EmergencyStopResult) (startedAt completedAt : String)
    (originating : List (String × Json)) :
    ¬ (confirmation r startedAt completedAt originating).ReachesPeer := by
  rintro ⟨hreceives, -, -⟩
  have hnone : Subscriber.receives emergencyStopConfirmationChannel = false := by decide
  rw [hnone] at hreceives
  exact Bool.noConfusion hreceives

/-- `Route` drops a confirmation, were it received. -/
theorem handlerOf_confirmation : Router.handlerOf emergencyStopConfirmationChannel = none := by
  decide

theorem reachesPeer_stopAll (username : String) (chatId : ℤ) (timestamp : String) :
    (command (.stopAll username chatId timestamp)).ReachesPeer :=
  ⟨.emergencyStop, .handleStop _, decide_eq_true (Eq.refl emergencyStopChannel), rfl, rfl, username,
    chatId, timestamp, rfl⟩

theorem not_reachesPeer_resume (username : String) (chatId : ℤ) (accounts : List String)
    (timestamp : String) :
    ¬ (command (.resume username chatId accounts timestamp)).ReachesPeer := by
  rintro ⟨l, a, hreceives, -, -⟩
  have hnone : l.receives "emergency:resume" = false := receives_resume l
  rw [BotCommand.channel, hnone] at hreceives
  exact Bool.noConfusion hreceives

/-- **The messages that reach the other side are the stop commands**, of all
results the engine confirms and all commands the bot publishes. -/
theorem reachesPeer_iff (m : EmergencyMessage) : m.ReachesPeer ↔ m.IsStopCommand := by
  constructor
  · intro h
    match m with
    | confirmation r startedAt completedAt originating =>
      exact absurd h (not_reachesPeer_confirmation r startedAt completedAt originating)
    | command (.stopAll username chatId timestamp) => exact ⟨username, chatId, timestamp, rfl⟩
    | command (.resume username chatId accounts timestamp) =>
      exact absurd h (not_reachesPeer_resume username chatId accounts timestamp)
  · rintro ⟨username, chatId, timestamp, rfl⟩
    exact reachesPeer_stopAll username chatId timestamp

end EmergencyMessage

/-- Two accounts paused and three positions closed. -/
def threeClosed : EmergencyStopResult :=
  { accountsProcessed := 2, positionsClosed := 3, accountsPaused := 2, failures := [] }

/-- A confirmation that nobody receives, and that would show no position;
and a resume that nobody carries out. -/
theorem threeClosed_not_reachesPeer :
    ¬ (EmergencyMessage.confirmation threeClosed "" "" []).ReachesPeer ∧
      ¬ threeClosed.ShownBy (threeClosed.toPayload "" "" []) ∧
      ¬ (EmergencyMessage.command (.resume "alice" 7 [] "")).ReachesPeer := by
  refine ⟨EmergencyMessage.not_reachesPeer_confirmation _ _ _ _, ?_,
    EmergencyMessage.not_reachesPeer_resume _ _ _ _⟩
  rw [shownBy_toPayload_iff]
  decide

end TdSandboxed
