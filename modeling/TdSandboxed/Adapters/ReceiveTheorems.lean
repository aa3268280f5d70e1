/-
TdSandboxed.Adapters.ReceiveTheorems — which messages the receive loop
survives.

`Harmless` lists them by what they hold: for each topic the values that
raise nothing, or something the handler of that topic catches. It follows
the order in which the handlers read, because the first thing that goes
wrong decides: a missing key is caught wherever it comes first, a wrong
type never is.

`robust_iff` says that the loop outlives a sequence of messages, and then
hands every order result and every position reply to the future that waits
for it, exactly when every message is harmless.
-/
import TdSandboxed.Adapters.ReceiveTicks

namespace TdSandboxed

open Lib

variable {c : ReceiverConfig} {lib : PyLib} {s : Receiver} {payload : String}
  {callback : Option ReceiveError} {C : ReceiveError → Prop}

/-! ## How the operations end -/

section Operations
variable {α : Type} {P : Json → Prop} {fields : List (String × Json)} {key : String}

@[simp] theorem ends_elim {Q : α → Prop} (o : Option α) (e : ReceiveError) :
    Ends C Q (o.elim (.error e) .ok) ↔ o.elim (C e) Q := by
  cases o <;> rfl

@[simp] theorem ends_getItem_obj :
    Ends C P (Json.getItem (.obj fields) key) ↔ (fields.lookup key).elim (C .keyError) P := by
  rw [Json.getItem, ends_elim]

/-- Only an object has items. -/
theorem ends_getItem (hC : ¬ C .typeError) (data : Json) :
    Ends C P (data.getItem key) ↔
      ∃ fields, data = .obj fields ∧ (fields.lookup key).elim (C .keyError) P := by
  cases data with
  | obj fields => simp
  | _ => simp [Json.getItem, hC]

@[simp] theorem ends_get_obj (default : Json) :
    Ends C P (Json.get (.obj fields) key default) ↔ P ((fields.lookup key).getD default) := Iff.rfl

@[simp] theorem ends_require {Q : Unit → Prop} (b : Bool) :
    Ends C Q (require b) ↔ if b then Q () else C .valueError := by
  cases b <;> rfl

@[simp] theorem ends_decimalOf {Q : PyFloat → Prop} (v : Json) :
    Ends C Q (lib.decimalOf v) ↔ (lib.decimal? v).elim (C .invalidOperation) Q := by
  rw [PyLib.decimalOf, ends_elim]

@[simp] theorem ends_number {Q : PyFloat → Prop} (v : Json) :
    Ends C Q v.number ↔ v.number?.elim (C .typeError) Q := by
  rw [Json.number, ends_elim]

@[simp] theorem ends_callbackEnds {Q : Unit → Prop} :
    Ends C Q (callbackEnds callback) ↔ callback.elim (Q ()) C := by
  cases callback <;> rfl

/-- A value that a dict can be asked for raises nothing. -/
theorem ends_completeAt (hC : ¬ C .typeError) (p : PendingFutures α) (id : Json) (a : α) :
    Ends C (fun _ => True) (p.completeAt id a) ↔ id.hashable := by
  cases id <;> simp [PendingFutures.completeAt, Json.hashable, hC]

end Operations

namespace Receiver

/-! ## Harmless messages -/

/-- An exception of the tick branch that does not end the loop. -/
def TickSurvives (e : ReceiveError) : Prop := caughtForTick e ∨ caughtByLoop e

/-- The same for the other branches. -/
def OtherSurvives (e : ReceiveError) : Prop := caughtElsewhere e ∨ caughtByLoop e

instance (e : ReceiveError) : Decidable (TickSurvives e) := inferInstanceAs (Decidable (_ ∨ _))

instance (e : ReceiveError) : Decidable (OtherSurvives e) := inferInstanceAs (Decidable (_ ∨ _))

/-- A callback that returns, or raises such an exception. -/
def CallbackHarmless (survives : ReceiveError → Prop) (callback : Option ReceiveError) : Prop :=
  ∀ e ∈ callback, survives e

/-- A number above zero, or NaN. -/
def Above (v : Json) (x : PyFloat) : Prop := v.number? = some x ∧ ¬ x.leZero

def IsDecimal (lib : PyLib) (v : Json) : Prop := (lib.decimal? v).isSome

/-- A tick with all fields, none of them empty, the bid and the ask above
zero and the ask not below the bid; with a registry both are numbers proper
and the callback is harmless. -/
def GoodTick (c : ReceiverConfig) (callback : Option ReceiveError)
    (accountId symbol bid ask timestamp : Json) : Prop :=
  accountId.truthy ∧ symbol.truthy ∧
    (∃ b k, Above bid b ∧ Above ask k ∧ ¬ k.lt b) ∧ timestamp.truthy ∧
    (c.pnlRegistry → IsDecimal c.lib bid ∧ IsDecimal c.lib ask ∧
      CallbackHarmless TickSurvives callback)

/-- An object without one of the fields, or a good tick. -/
def TickHarmless (c : ReceiverConfig) (callback : Option ReceiveError)
    (fields : List (String × Json)) : Prop :=
  match fields.lookup "account_id", fields.lookup "symbol", fields.lookup "bid",
    fields.lookup "ask", fields.lookup "timestamp" with
  | some accountId, some symbol, some bid, some ask, some timestamp =>
    GoodTick c callback accountId symbol bid ask timestamp
  | _, _, _, _, _ => True

/-- Without an id or a status, with a status that does not exist, or with
an id that a dict can be asked for. -/
def OrderResultHarmless (fields : List (String × Json)) : Prop :=
  match fields.lookup "order_id", fields.lookup "status" with
  | some orderId, some status => OrderStatus.ofJson? status = none ∨ orderId.hashable
  | _, _ => True

/-- Without a field, or with what `Decimal` takes in the fields before it. -/
def AccountInfoHarmless (c : ReceiverConfig) (callback : Option ReceiveError)
    (fields : List (String × Json)) : Prop :=
  match fields.lookup "account_id", fields.lookup "balance", fields.lookup "equity" with
  | some _, some balance, some equity =>
    IsDecimal c.lib balance ∧ IsDecimal c.lib equity ∧ CallbackHarmless OtherSurvives callback
  | some _, some balance, none => IsDecimal c.lib balance
  | _, _, _ => True

/-- How a field of a position is converted. -/
inductive Conversion
  | text
  | decimal
  | integer

/-- The fields of a position in the order in which they are read. -/
def positionFields : List (String × Conversion) :=
  [("ticket", .integer), ("symbol", .text), ("side", .text), ("volume", .decimal),
    ("entry_price", .decimal), ("entry_time", .text), ("current_price", .decimal),
    ("profit", .decimal), ("swap", .decimal), ("commission", .decimal)]

/-- The value is converted and `next` holds, or it is no integer in a way
that is caught: NaN, or a text that is not one. -/
def ConversionHarmless (lib : PyLib) (v : Json) (next : Prop) : Conversion → Prop
  | .text => next
  | .decimal => IsDecimal lib v ∧ next
  | .integer =>
    match v with
    | .int _ | .bool _ | .float (.finite _) => next
    | .float .nan => True
    | .str text => (lib.int text).isSome → next
    | _ => False

/-- The fields up to the first that is missing are harmless, and `next`
holds if none is. -/
def FieldsHarmless (lib : PyLib) (fields : List (String × Json)) (next : Prop) :
    List (String × Conversion) → Prop
  | [] => next
  | (key, conversion) :: rest =>
    match fields.lookup key with
    | none => True
    | some v => ConversionHarmless lib v (FieldsHarmless lib fields next rest) conversion

/-- Each item is an object with harmless fields, up to one that is not read
to its end. -/
def ItemsHarmless (lib : PyLib) (next : Prop) : List Json → Prop
  | [] => next
  | item :: items =>
    ∃ fields, item = .obj fields ∧
      FieldsHarmless lib fields (ItemsHarmless lib next items) positionFields

/-- Without an id, or with a list of harmless items and an id that a dict
can be asked for. -/
def PositionsHarmless (lib : PyLib) (fields : List (String × Json)) : Prop :=
  match fields.lookup "request_id" with
  | none => True
  | some requestId =>
    ∃ items, ((fields.lookup "positions").getD (.arr [])).items = .ok items ∧
      ItemsHarmless lib requestId.hashable items

/-- The payload is the text of an object with `good`, or `json.loads`
raises what is caught. -/
def PayloadHarmless (lib : PyLib) (survives : ReceiveError → Prop)
    (good : List (String × Json) → Prop) (payload : String) : Prop :=
  match lib.loads payload with
  | .error e => survives e
  | .ok data => ∃ fields, data = .obj fields ∧ good fields

def RouteHarmless (c : ReceiverConfig) (topic payload : String) (callback : Option ReceiveError) :
    Prop :=
  if startsWith topic "tick:" then
    PayloadHarmless c.lib TickSurvives (TickHarmless c callback) payload
  else if startsWith topic "order_result:" then
    PayloadHarmless c.lib OtherSurvives OrderResultHarmless payload
  else if startsWith topic "account_info:" then
    c.metricsService → PayloadHarmless c.lib OtherSurvives (AccountInfoHarmless c callback) payload
  else if startsWith topic "positions_result:" then
    PayloadHarmless c.lib OtherSurvives (PositionsHarmless c.lib) payload
  else True

/-- Fewer than two parts, or a topic and a payload in UTF-8 that are
harmless for the topic. -/
def Harmless (c : ReceiverConfig) (parts : List ByteArray) (callback : Option ReceiveError) : Prop :=
  match parts with
  | topic :: payload :: _ =>
    ∃ t p, String.fromUTF8? topic = some t ∧ String.fromUTF8? payload = some p ∧
      RouteHarmless c t p callback
  | _ => True

/-! ## Each branch -/

theorem callbackHarmless_iff {survives : ReceiveError → Prop} :
    callback.elim True survives ↔ CallbackHarmless survives callback := by
  cases callback <;> simp [CallbackHarmless]

/-- The text of an object, for a handler that starts with `json.loads`. -/
theorem ends_loads {α : Type} {f : Json → Except ReceiveError α}
    {good : List (String × Json) → Prop}
    (hobj : ∀ fields, Ends C (fun _ => True) (f (.obj fields)) ↔ good fields)
    (hother : ∀ data, (∀ fields, data ≠ .obj fields) → ¬ Ends C (fun _ => True) (f data)) :
    Ends C (fun _ => True) (lib.loads payload >>= f) ↔
      PayloadHarmless lib C good payload := by
  rw [ends_bind, PayloadHarmless]
  cases lib.loads payload with
  | error e => rfl
  | ok data =>
    simp only [ends_ok]
    constructor
    · intro h
      cases data with
      | obj fields => exact ⟨fields, rfl, (hobj fields).mp h⟩
      | _ => exact absurd h (hother _ fun _ hne => by cases hne)
    · rintro ⟨fields, rfl, hgood⟩
      exact (hobj fields).mpr hgood

theorem tickSurvives_keyError : TickSurvives .keyError := .inl rfl

theorem not_tickSurvives_typeError : ¬ TickSurvives .typeError := by decide

theorem not_tickSurvives_valueError : ¬ TickSurvives .valueError := by decide

theorem not_tickSurvives_invalidOperation : ¬ TickSurvives .invalidOperation := by decide

theorem otherSurvives_keyError : OtherSurvives .keyError := .inl rfl

theorem otherSurvives_valueError : OtherSurvives .valueError := .inl rfl

theorem not_otherSurvives_typeError : ¬ OtherSurvives .typeError := by decide

theorem not_otherSurvives_invalidOperation : ¬ OtherSurvives .invalidOperation := by decide

theorem not_otherSurvives_overflowError : ¬ OtherSurvives .overflowError := by decide

/-- A price is read: it is a number above zero, and the rest ends well. -/
theorem ends_price (v : Json) {α : Type} {Q : α → Prop} (f : PyFloat → Except ReceiveError α) :
    Ends TickSurvives Q (do
      let x ← v.number
      require (!x.leZero)
      f x) ↔ ∃ x, Above v x ∧ Ends TickSurvives Q (f x) := by
  rw [ends_bind, ends_number]
  cases hv : v.number? with
  | none => simp [Above, hv, not_tickSurvives_typeError]
  | some x =>
    cases hx : x.leZero <;> simp [Above, hv, hx, not_tickSurvives_valueError]

theorem ends_isDecimal {survives : ReceiveError → Prop} (hs : ¬ survives .invalidOperation)
    (v : Json) {α : Type} {Q : α → Prop} (x : Except ReceiveError α) :
    Ends survives Q (do let _ ← lib.decimalOf v; x) ↔ IsDecimal lib v ∧ Ends survives Q x := by
  rw [ends_bind, ends_decimalOf]
  cases hv : lib.decimal? v <;> simp [IsDecimal, hv, hs]

theorem ends_required {survives : ReceiveError → Prop} (hs : ¬ survives .valueError)
    (b : Bool) {α : Type} {Q : α → Prop} (x : Except ReceiveError α) :
    Ends survives Q (do require b; x) ↔ b ∧ Ends survives Q x := by
  cases b <;> simp [hs]

/-- What a tick's fields make of it. -/
theorem ends_goodTick (accountId symbol bid ask timestamp : Json) (tick : RawTick) :
    Ends TickSurvives (fun _ => True) (do
      require accountId.truthy
      require symbol.truthy
      let b ← bid.number
      require (!b.leZero)
      let k ← ask.number
      require (!k.leZero)
      require (!k.lt b)
      require timestamp.truthy
      if c.pnlRegistry then
        let _ ← c.lib.decimalOf bid
        let _ ← c.lib.decimalOf ask
        callbackEnds callback
        return { s with ticks := s.ticks ++ [tick] }
      else return { s with ticks := s.ticks ++ [tick] }) ↔
      GoodTick c callback accountId symbol bid ask timestamp := by
  simp only [ends_price, ends_required not_tickSurvives_valueError, ends_ite,
    ends_isDecimal not_tickSurvives_invalidOperation]
  simp only [ends_bind, ends_callbackEnds, ends_pure, callbackHarmless_iff, imp_true_iff, and_true]
  rw [GoodTick]
  constructor
  · rintro ⟨hid, hsymbol, b, hb, k, hk, hlt, ht, hreg⟩
    exact ⟨hid, hsymbol, ⟨b, k, hb, hk, by simpa using hlt⟩, ht, hreg⟩
  · rintro ⟨hid, hsymbol, ⟨b, k, hb, hk, hlt⟩, ht, hreg⟩
    exact ⟨hid, hsymbol, b, hb, k, hk, by simpa using hlt, ht, hreg⟩

/-- A missing field is caught. -/
theorem ends_field {survives : ReceiveError → Prop} (hs : survives .keyError)
    (fields : List (String × Json)) (key : String) {α : Type} {Q : α → Prop}
    (f : Json → Except ReceiveError α) :
    Ends survives Q (Json.getItem (.obj fields) key >>= f) ↔
      match fields.lookup key with
      | none => True
      | some v => Ends survives Q (f v) := by
  rw [ends_bind, ends_getItem_obj]
  cases fields.lookup key <;> simp [hs]

/-- **The tick branch.** -/
theorem ends_handleTick :
    Ends (fun e => caughtByLoop e = true) (fun _ => True) (handleTick c s payload callback) ↔
      PayloadHarmless c.lib TickSurvives (TickHarmless c callback) payload := by
  rw [handleTick, ends_catching_true]
  refine ends_loads (C := TickSurvives) ?_ ?_
  · intro fields
    simp only [RawTick.parse, bind_assoc, pure_bind, ends_field tickSurvives_keyError, ends_goodTick]
    rw [TickHarmless]
    cases fields.lookup "account_id" with
    | none => simp
    | some accountId =>
    cases fields.lookup "symbol" with
    | none => simp
    | some symbol =>
    cases fields.lookup "bid" with
    | none => simp
    | some bid =>
    cases fields.lookup "ask" with
    | none => simp
    | some ask => cases fields.lookup "timestamp" <;> rfl
  · intro data hdata h
    rw [RawTick.parse, bind_assoc, ends_bind, ends_getItem not_tickSurvives_typeError] at h
    obtain ⟨fields, rfl, -⟩ := h
    exact hdata fields rfl

/-- **The order result branch.** -/
theorem ends_handleOrderResult :
    Ends (fun e => caughtByLoop e = true) (fun _ => True) (handleOrderResult c s payload) ↔
      PayloadHarmless c.lib OtherSurvives OrderResultHarmless payload := by
  rw [handleOrderResult, ends_catching_true]
  refine ends_loads (C := OtherSurvives) ?_ ?_
  · intro fields
    simp only [RawOrderResult.parse, bind_assoc, pure_bind, ends_field otherSurvives_keyError]
    simp only [ends_bind, ends_elim, ends_get_obj, ends_pure,
      ends_completeAt not_otherSurvives_typeError]
    rw [OrderResultHarmless]
    cases fields.lookup "order_id" with
    | none => simp
    | some orderId =>
    cases fields.lookup "status" with
    | none => simp
    | some status =>
    cases h : OrderStatus.ofJson? status with
    | none => simp [h, otherSurvives_valueError]
    | some _ => simp [h]
  · intro data hdata h
    rw [RawOrderResult.parse, bind_assoc, ends_bind, ends_getItem not_otherSurvives_typeError] at h
    obtain ⟨fields, rfl, -⟩ := h
    exact hdata fields rfl

/-- **The account branch.** -/
theorem ends_handleAccountInfo :
    Ends (fun e => caughtByLoop e = true) (fun _ => True) (handleAccountInfo c s payload callback) ↔
      (c.metricsService →
        PayloadHarmless c.lib OtherSurvives (AccountInfoHarmless c callback) payload) := by
  rw [handleAccountInfo, ends_ite]
  simp only [ends_ok, imp_true_iff, and_true, ends_catching_true]
  refine imp_congr_right fun _ => ends_loads (C := OtherSurvives) ?_ ?_
  · intro fields
    simp only [bind_assoc, ends_field otherSurvives_keyError,
      ends_isDecimal not_otherSurvives_invalidOperation]
    simp only [ends_bind, ends_callbackEnds, ends_pure, callbackHarmless_iff]
    rw [AccountInfoHarmless]
    cases fields.lookup "account_id" with
    | none => simp
    | some _ =>
    cases fields.lookup "balance" with
    | none => simp
    | some balance => cases fields.lookup "equity" <;> simp
  · intro data hdata h
    rw [ends_bind, ends_getItem not_otherSurvives_typeError] at h
    obtain ⟨fields, rfl, -⟩ := h
    exact hdata fields rfl

theorem ends_intOf (v : Json) (next : Prop) :
    Ends OtherSurvives (fun _ => next) (lib.intOf v) ↔ ConversionHarmless lib v next .integer := by
  cases v with
  | str text =>
    cases h : lib.int text <;> simp [PyLib.intOf, ConversionHarmless, h, otherSurvives_valueError]
  | float x =>
    cases x <;> simp [PyLib.intOf, ConversionHarmless, otherSurvives_valueError,
      not_otherSurvives_overflowError]
  | _ => simp [PyLib.intOf, ConversionHarmless, not_otherSurvives_typeError]

theorem ends_decimal (v : Json) (next : Prop) :
    Ends OtherSurvives (fun _ => next) (lib.decimalOf v) ↔ ConversionHarmless lib v next .decimal := by
  rw [ends_decimalOf, ConversionHarmless, IsDecimal]
  cases lib.decimal? v <;> simp [not_otherSurvives_invalidOperation]

theorem conversionHarmless_text (v : Json) (next : Prop) :
    ConversionHarmless lib v next .text ↔ next := Iff.rfl

theorem fieldsHarmless_nil (fields : List (String × Json)) (next : Prop) :
    FieldsHarmless lib fields next [] ↔ next := Iff.rfl

theorem fieldsHarmless_cons (fields : List (String × Json)) (next : Prop) (key : String)
    (conversion : Conversion) (rest : List (String × Conversion)) :
    FieldsHarmless lib fields next ((key, conversion) :: rest) ↔
      (fields.lookup key).elim True fun v =>
        ConversionHarmless lib v (FieldsHarmless lib fields next rest) conversion := by
  rw [FieldsHarmless]
  cases fields.lookup key <;> rfl

/-- A position ends as its fields do, in the order of `positionFields`. -/
theorem ends_fromDict (fields : List (String × Json)) (next : Prop) :
    Ends OtherSurvives (fun _ => next) (RawPosition.fromDict lib (.obj fields)) ↔
      FieldsHarmless lib fields next positionFields := by
  simp only [RawPosition.fromDict, ends_bind, ends_getItem_obj, ends_pure, ends_decimal, ends_intOf,
    otherSurvives_keyError, positionFields, fieldsHarmless_cons, fieldsHarmless_nil,
    conversionHarmless_text]

theorem ends_mapM_fromDict (next : Prop) (items : List Json) :
    Ends OtherSurvives (fun _ => next) (items.mapM (RawPosition.fromDict lib)) ↔
      ItemsHarmless lib next items := by
  induction items with
  | nil => rfl
  | cons item items ih =>
    rw [List.mapM_cons, ends_bind, ItemsHarmless]
    simp only [ends_bind, ends_pure, ih]
    constructor
    · intro h
      cases item with
      | obj fields => exact ⟨fields, rfl, (ends_fromDict fields _).mp h⟩
      | _ => exact absurd h (by
          simp [RawPosition.fromDict, Json.getItem, not_otherSurvives_typeError])
    · rintro ⟨fields, rfl, h⟩
      exact (ends_fromDict fields _).mpr h

theorem ends_items {P : List Json → Prop} (v : Json) :
    Ends OtherSurvives P v.items ↔ ∃ items, v.items = .ok items ∧ P items := by
  cases v <;> simp [Json.items, not_otherSurvives_typeError]

/-- **The position branch.** -/
theorem ends_handlePositionsResult :
    Ends (fun e => caughtByLoop e = true) (fun _ => True) (handlePositionsResult c s payload) ↔
      PayloadHarmless c.lib OtherSurvives (PositionsHarmless c.lib) payload := by
  rw [handlePositionsResult, ends_catching_true]
  refine ends_loads (C := OtherSurvives) ?_ ?_
  · intro fields
    rw [ends_field otherSurvives_keyError, PositionsHarmless]
    simp only [ends_bind, ends_get_obj, ends_items, ends_pure,
      ends_completeAt not_otherSurvives_typeError, ends_mapM_fromDict]
  · intro data hdata h
    rw [ends_bind, ends_getItem not_otherSurvives_typeError] at h
    obtain ⟨fields, rfl, -⟩ := h
    exact hdata fields rfl

theorem ends_route (topic : String) :
    Ends (fun e => caughtByLoop e = true) (fun _ => True) (route c s topic payload callback) ↔
      RouteHarmless c topic payload callback := by
  unfold route RouteHarmless
  split
  · exact ends_handleTick
  · split
    · exact ends_handleOrderResult
    · split
      · exact ends_handleAccountInfo
      · split
        · exact ends_handlePositionsResult
        · exact Iff.rfl

theorem ends_decodeUtf8 {P : String → Prop} (bytes : ByteArray) :
    Ends (fun e => caughtByLoop e = true) P (decodeUtf8 bytes) ↔
      ∃ t, String.fromUTF8? bytes = some t ∧ P t := by
  rw [decodeUtf8, ends_elim]
  cases String.fromUTF8? bytes <;> simp [caughtByLoop]

/-- **One message.** The loop goes on after it exactly when it is
harmless. -/
theorem receiveOne_ok_iff (c : ReceiverConfig) (s : Receiver) (parts : List ByteArray)
    (callback : Option ReceiveError) :
    (∃ t, receiveOne c s parts callback = .ok t) ↔ Harmless c parts callback := by
  rw [exists_ok_iff]
  match parts with
  | [] | [_] => exact Iff.rfl
  | topic :: payload :: _ =>
    rw [receiveOne, ends_catching_true]
    simp only [or_false, ends_bind, ends_decodeUtf8, ends_route, Harmless]
    constructor
    · rintro ⟨t, ht, p, hp, h⟩
      exact ⟨t, p, ht, hp, h⟩
    · rintro ⟨t, p, ht, hp, h⟩
      exact ⟨t, ht, p, hp, h⟩

/-! ## Order results and position replies -/

/-- An order result in JSON with a text as its id. -/
def IsOrderResult (lib : PyLib) (parts : List ByteArray) (id : String) (result : RawOrderResult) :
    Prop :=
  ∃ topic payload rest t p data, parts = topic :: payload :: rest ∧
    String.fromUTF8? topic = some t ∧ String.fromUTF8? payload = some p ∧
    startsWith t "order_result:" ∧ lib.loads p = .ok data ∧
    RawOrderResult.parse data = .ok result ∧ result.orderId = .str id

/-- A reply in JSON with a text as its id and a list of positions. -/
def IsPositionReply (lib : PyLib) (parts : List ByteArray) (id : String)
    (positions : List RawPosition) : Prop :=
  ∃ topic payload rest t p fields items, parts = topic :: payload :: rest ∧
    String.fromUTF8? topic = some t ∧ String.fromUTF8? payload = some p ∧
    startsWith t "positions_result:" ∧ lib.loads p = .ok (.obj fields) ∧
    fields.lookup "request_id" = some (.str id) ∧ fields.lookup "positions" = some (.arr items) ∧
    items.mapM (RawPosition.fromDict lib) = .ok positions

/-- A text starts with one of two texts that do not start alike. -/
theorem not_startsWith {text a b : String} (h : startsWith text a)
    (hab : ¬ a.toList <+: b.toList ∧ ¬ b.toList <+: a.toList) : startsWith text b = false := by
  rw [Bool.eq_false_iff]
  intro hb
  simp only [startsWith, List.isPrefixOf_iff_prefix] at h hb
  obtain hpre | hpre := List.prefix_or_prefix_of_prefix h hb
  · exact hab.1 hpre
  · exact hab.2 hpre

theorem receiveOne_orderResult {parts : List ByteArray} {id : String} {result : RawOrderResult}
    (h : IsOrderResult c.lib parts id result) (s : Receiver) (callback : Option ReceiveError) :
    receiveOne c s parts callback = .ok { s with orders := s.orders.complete id result } := by
  obtain ⟨topic, payload, rest, t, p, data, rfl, ht, hp, htopic, hload, hparse, hid⟩ := h
  have htick : startsWith t "tick:" = false := not_startsWith htopic (by decide)
  simp [receiveOne, decodeUtf8, ht, hp, route, htick, htopic, handleOrderResult, hload, hparse, hid,
    PendingFutures.completeAt, catching, bind, Except.bind, pure, Except.pure]

theorem receiveOne_positionReply {parts : List ByteArray} {id : String} {positions : List RawPosition}
    (h : IsPositionReply c.lib parts id positions) (s : Receiver) (callback : Option ReceiveError) :
    receiveOne c s parts callback = .ok { s with queries := s.queries.complete id positions } := by
  obtain ⟨topic, payload, rest, t, p, fields, items, rfl, ht, hp, htopic, hload, hid, hitems, hmap⟩ := h
  have htick : startsWith t "tick:" = false := not_startsWith htopic (by decide)
  have horder : startsWith t "order_result:" = false := not_startsWith htopic (by decide)
  have haccount : startsWith t "account_info:" = false := not_startsWith htopic (by decide)
  simp [receiveOne, decodeUtf8, ht, hp, route, htick, horder, haccount, htopic,
    handlePositionsResult, hload, Json.getItem, Json.get, hid, hitems, hmap, Json.items,
    PendingFutures.completeAt, catching, bind, Except.bind, pure, Except.pure]

/-! ## Runs -/

theorem receiveTicks_append (c : ReceiverConfig) (s : Receiver) (es fs : List ReceiveEvent) :
    receiveTicks c s (es ++ fs) =
      match receiveTicks c s es with
      | (t, none) => receiveTicks c t fs
      | ended => ended := by
  fun_induction receiveTicks c s es <;> simp_all [receiveTicks]

theorem forall_message_cons {p : List ByteArray → Option ReceiveError → Prop}
    (parts : List ByteArray) (callback : Option ReceiveError) (es : List ReceiveEvent) :
    (∀ ps cb, .message ps cb ∈ ReceiveEvent.message parts callback :: es → p ps cb) ↔
      p parts callback ∧ ∀ ps cb, .message ps cb ∈ es → p ps cb := by
  constructor
  · intro h
    exact ⟨h _ _ List.mem_cons_self, fun ps cb hm => h ps cb (List.mem_cons_of_mem _ hm)⟩
  · rintro ⟨hp, h⟩ ps cb hm
    obtain heq | hm := List.mem_cons.mp hm
    · cases heq
      exact hp
    · exact h ps cb hm

/-- The loop outlives the events exactly when every message is harmless. -/
theorem survives_iff (c : ReceiverConfig) (s : Receiver) (es : List ReceiveEvent) :
    (receiveTicks c s es).2 = none ↔
      ∀ parts callback, .message parts callback ∈ es → Harmless c parts callback := by
  induction es generalizing s with
  | nil => simp [receiveTicks]
  | cons e es ih =>
    cases e with
    | elsewhere orders queries => simp [receiveTicks, ih]
    | message parts callback =>
      rw [forall_message_cons, ← receiveOne_ok_iff c s parts callback, receiveTicks]
      cases receiveOne c s parts callback <;> simp [ih]

/-- The loop outlives the events, and each order result and each position
reply reaches the future that waits for its id when it comes. -/
structure Robust (c : ReceiverConfig) (s : Receiver) (es : List ReceiveEvent) : Prop where
  survives : (receiveTicks c s es).2 = none
  orders : ∀ before parts callback after, es = before ++ .message parts callback :: after →
    ∀ id result, IsOrderResult c.lib parts id result →
    ∀ i, (receiveTicks c s before).1.orders.waiting id = some i →
      (receiveTicks c s before).1.orders.futures i = some .pending →
      (receiveTicks c s (before ++ [.message parts callback])).1.orders.futures i = some (.done result)
  queries : ∀ before parts callback after, es = before ++ .message parts callback :: after →
    ∀ id positions, IsPositionReply c.lib parts id positions →
    ∀ i, (receiveTicks c s before).1.queries.waiting id = some i →
      (receiveTicks c s before).1.queries.futures i = some .pending →
      (receiveTicks c s (before ++ [.message parts callback])).1.queries.futures i = some (.done positions)

/-- What the loop is after a message it could read. -/
theorem receiveTicks_message {before after : List ReceiveEvent} {parts : List ByteArray}
    {t : Receiver → Receiver}
    (hs : (receiveTicks c s (before ++ .message parts callback :: after)).2 = none)
    (hone : ∀ s, receiveOne c s parts callback = .ok (t s)) :
    (receiveTicks c s (before ++ [.message parts callback])).1 = t (receiveTicks c s before).1 := by
  rw [receiveTicks_append] at hs ⊢
  cases h : receiveTicks c s before with
  | mk s' ended =>
    cases ended with
    | none => simp [receiveTicks, hone]
    | some e => simp [h] at hs

/-- **Robust receive loop.** The loop outlives a sequence of messages, and
completes what waits for the well-formed results and replies among them,
exactly when every message is harmless. -/
theorem robust_iff (c : ReceiverConfig) (s : Receiver) (es : List ReceiveEvent) :
    Robust c s es ↔ ∀ parts callback, .message parts callback ∈ es → Harmless c parts callback := by
  rw [← survives_iff c s es]
  refine ⟨Robust.survives, fun hs => ⟨hs, ?_, ?_⟩⟩
  · rintro before parts callback after rfl id result hresult i hw hp
    rw [receiveTicks_message hs fun s => receiveOne_orderResult hresult s callback]
    exact PendingFutures.futures_complete _ result hw hp
  · rintro before parts callback after rfl id positions hreply i hw hp
    rw [receiveTicks_message hs fun s => receiveOne_positionReply hreply s callback]
    exact PendingFutures.futures_complete _ positions hw hp

/-! ## A topic of a tick with a byte that is no text -/

def resultText : String := "\x7b\"order_id\": \"o1\", \"status\": \"filled\"\x7d"

def resultData : Json := .obj [("order_id", .str "o1"), ("status", .str "filled")]

/-- `json.loads` on the text of that result. -/
def resultConfig : ReceiverConfig where
  lib :=
    { loads := fun text => if text = resultText then .ok resultData else .error .jsonDecodeError
      decimal := fun _ => none, int := fun _ => none, str := fun _ => "" }
  pnlRegistry := false
  metricsService := false

/-- A future waits for the order `o1`. -/
def waitingReceiver : Receiver where
  orders :=
    { waiting := fun id => if id = "o1" then some 0 else none, futures := fun _ => some .pending }

def badPayload : ReceiveEvent := .message ["tick:demo".toUTF8, ⟨#[0xff]⟩] none

def resultMessage : List ByteArray := ["order_result:demo".toUTF8, resultText.toUTF8]

theorem resultMessage_isOrderResult :
    ∃ result, IsOrderResult resultConfig.lib resultMessage "o1" result :=
  ⟨⟨.str "o1", .filled, .null, .null, .str "", .null⟩, _, _, [], "order_result:demo", resultText,
    resultData, rfl, by decide +kernel, by decide +kernel, by decide +kernel, rfl, rfl, rfl⟩

/-- The payload is not decoded, the loop ends, and the result that comes
next stays unread. -/
theorem badPayload_not_robust :
    receiveTicks resultConfig waitingReceiver [badPayload, .message resultMessage none] =
        (waitingReceiver, some .unicodeDecodeError) ∧
      (∃ result, IsOrderResult resultConfig.lib resultMessage "o1" result) ∧
      ¬ Robust resultConfig waitingReceiver [badPayload, .message resultMessage none] := by
  have hend : receiveTicks resultConfig waitingReceiver [badPayload, .message resultMessage none] =
      (waitingReceiver, some .unicodeDecodeError) := by
    rfl
  exact ⟨hend, resultMessage_isOrderResult, fun h => by simpa [hend] using h.survives⟩

end Receiver

end TdSandboxed
