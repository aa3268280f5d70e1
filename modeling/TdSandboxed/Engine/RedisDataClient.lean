/-
TdSandboxed.Engine.RedisDataClient — the bar listener
(`engine/clients/redis_data_client.py`, `engine/clients/bar_translator.py`,
`adapters/redis_models.py`).

A message passes the decoding of its bytes, `json.loads`, the `Bar` model
and the translation. The listener catches `ValueError` around the first
three and every `Exception` around the last and around the callback, so a
bar that is translated is handed on whatever the callback does. The bar
type is that of the channel.

What pydantic, Nautilus and the text functions of Python compute is a
parameter, `BarLib`. A failed check of the model is a `ValidationError`,
which is a `ValueError`.
-/
import Mathlib.Data.List.Forall2
import TdSandboxed.Adapters.Json
import TdSandboxed.Lib.Ends

namespace TdSandboxed

open Lib

/-! ## Bars -/

inductive BarAggregation
  | second
  | minute
  | hour
  | day
  | week
  deriving DecidableEq

/-- A Nautilus `BarType`. -/
structure BarType where
  symbol : String
  venue : String
  step : ℤ
  aggregation : BarAggregation
  priceType : String := "LAST"
  deriving DecidableEq

/-- `redis_models.Bar` -/
structure InternalBar (δ : Type) where
  symbol : String
  timeframe : String
  time : δ
  openPrice : PyFloat
  high : PyFloat
  low : PyFloat
  close : PyFloat
  volume : PyFloat

/-- The prices, the volume and the times of a Nautilus bar. -/
structure BarContent where
  openPrice : ℚ
  high : ℚ
  low : ℚ
  close : ℚ
  volume : ℚ
  tsEvent : ℤ
  tsInit : ℤ
  deriving DecidableEq

structure NautilusBar where
  barType : BarType
  content : BarContent
  deriving DecidableEq

/-- What the libraries compute; `none` where they raise. -/
structure BarLib (δ : Type) extends PyLib where
  /-- `str.strip`, `str.lower` -/
  strip : String → String
  lower : String → String
  /-- A value read for a `float` and for a `datetime` field. -/
  float : Json → Option PyFloat
  datetime : Json → Option δ
  /-- `int(dt.timestamp() * 1_000_000_000)` -/
  timestampNs : δ → Option ℤ
  /-- `Price(x, price_precision)`, `Quantity(x, size_precision)` -/
  price : PyFloat → Option ℚ
  quantity : PyFloat → Option ℚ
  /-- The constructors of Nautilus' `BarType` and `Bar` accept. -/
  acceptsType : BarType → Bool
  acceptsBar : BarContent → Bool

variable {δ : Type}

/-! ## Bar types -/

/-- `_TIMEFRAME_SUFFIX` -/
def timeframeSuffix : Char → Option BarAggregation
  | 's' => some .second
  | 'm' => some .minute
  | 'h' => some .hour
  | 'd' => some .day
  | 'w' => some .week
  | _ => none

/-- `parse_timeframe`; `none`: it raises. -/
def parseTimeframe (lib : BarLib δ) (timeframe : String) : Option (ℤ × BarAggregation) :=
  if timeframe = "" then none
  else
    let chars := (lib.lower (lib.strip timeframe)).toList
    chars.getLast?.bind fun suffix =>
      (timeframeSuffix suffix).bind fun aggregation =>
        (lib.int (String.ofList chars.dropLast)).bind fun step =>
          if step ≤ 0 then none else some (step, aggregation)

/-- `make_bar_type` -/
def makeBarType (lib : BarLib δ) (venue symbol timeframe : String) : Option BarType :=
  (parseTimeframe lib timeframe).bind fun p =>
    let t : BarType := { symbol, venue, step := p.1, aggregation := p.2 }
    if lib.acceptsType t then some t else none

/-! ## The model -/

/-- A `str` field with `min_length=1`, stripped. -/
def InternalBar.strField (lib : BarLib δ) (fields : List (String × Json)) (key : String) :
    Except ReceiveError String :=
  match fields.lookup key with
  | some (.str s) => if s = "" then .error .valueError else .ok (lib.strip s)
  | _ => .error .valueError

/-- A `float` field; `low`: the check of its lower bound fails. -/
def InternalBar.floatField (lib : BarLib δ) (low : PyFloat → Bool) (fields : List (String × Json))
    (key : String) : Except ReceiveError PyFloat :=
  match (fields.lookup key).bind lib.float with
  | some x => if low x then .error .valueError else .ok x
  | none => .error .valueError

/-- `gt=0` -/
def InternalBar.priceField (lib : BarLib δ) :
    List (String × Json) → String → Except ReceiveError PyFloat :=
  floatField lib PyFloat.leZero

/-- `ge=0` -/
def InternalBar.volumeField (lib : BarLib δ) :
    List (String × Json) → String → Except ReceiveError PyFloat :=
  floatField lib fun x => x.lt (.finite 0)

def InternalBar.timeField (lib : BarLib δ) (fields : List (String × Json)) (key : String) :
    Except ReceiveError δ :=
  ((fields.lookup key).bind lib.datetime).elim (.error .valueError) .ok

/-- `Bar(**fields)` -/
def InternalBar.ofFields (lib : BarLib δ) (fields : List (String × Json)) :
    Except ReceiveError (InternalBar δ) := do
  let symbol ← strField lib fields "symbol"
  let timeframe ← strField lib fields "timeframe"
  let time ← timeField lib fields "time"
  let openPrice ← priceField lib fields "open"
  let high ← priceField lib fields "high"
  let low ← priceField lib fields "low"
  let close ← priceField lib fields "close"
  let volume ← volumeField lib fields "volume"
  if high.lt low then .error .valueError
  else return { symbol, timeframe, time, openPrice, high, low, close, volume }

/-- `Bar.from_json` of a payload that was decoded, or not. `**` takes an
object only. -/
def InternalBar.fromJson (lib : BarLib δ) (text : Except ReceiveError String) :
    Except ReceiveError (InternalBar δ) := do
  let parsed ← text >>= lib.loads
  match parsed with
  | .obj fields => ofFields lib fields
  | _ => .error .typeError

/-! ## The translation -/

def InternalBar.content (lib : BarLib δ) (b : InternalBar δ) : Option BarContent := do
  let tsEvent ← lib.timestampNs b.time
  let openPrice ← lib.price b.openPrice
  let high ← lib.price b.high
  let low ← lib.price b.low
  let close ← lib.price b.close
  let volume ← lib.quantity b.volume
  let content : BarContent := { openPrice, high, low, close, volume, tsEvent, tsInit := tsEvent }
  if lib.acceptsBar content then some content else none

/-- `to_nautilus_bar`; `none`: it raises. -/
def toNautilusBar (lib : BarLib δ) (b : InternalBar δ) (barType : BarType) : Option NautilusBar :=
  (b.content lib).map fun content => { barType, content }

/-! ## The listener -/

/-- What `pubsub.listen` yields. -/
inductive Frame
  /-- Not a dict, or of another type than `message`. -/
  | other
  /-- A message, with what it has under `data`. -/
  | message (channel : String) (data : Option ByteArray)

structure BarListener (δ : Type) where
  lib : BarLib δ
  venue : String
  subscriptions : List (String × String)
  /-- The Redis client decodes what it receives. -/
  decodeResponses : Bool

namespace BarListener

/-- `bar_types`; `none`: a subscription has none, and the listener does
not start. A later subscription to a channel replaces an earlier one. -/
def barTypes (c : BarListener δ) : Option (List (String × BarType)) :=
  (c.subscriptions.reverse).mapM fun p =>
    (makeBarType c.lib c.venue p.1 p.2).map fun t => ("bars:" ++ p.1 ++ ":" ++ p.2, t)

/-- The bar a message makes, if one, or what it ends the listener with. -/
def handle (c : BarListener δ) (types : List (String × BarType)) : Frame →
    Except ReceiveError (Option NautilusBar)
  | .other => .ok none
  | .message channel data =>
    match data with
    | none => .ok none
    | some bytes =>
      match c.decodeResponses, decodeUtf8 bytes with
      -- raised by `listen` itself
      | true, .error e => .error e
      | _, text =>
        match types.lookup channel with
        | none => .ok none
        | some barType =>
          match InternalBar.fromJson c.lib text with
          | .ok b => .ok (toNautilusBar c.lib b barType)
          | .error e => if e.isValueError then .ok none else .error e

/-- `run_redis_bar_listener` over some messages: the bars it emits, and
what it ends with, if it does. -/
def listen (c : BarListener δ) (types : List (String × BarType)) :
    List Frame → List NautilusBar × Option ReceiveError
  | [] => ([], none)
  | f :: fs =>
    match c.handle types f with
    | .ok bar => (bar.toList ++ (c.listen types fs).1, (c.listen types fs).2)
    | .error e => ([], some e)

/-! ## What it should emit -/

/-- The well-formed bar of a message on a subscribed channel: its payload
is a bar of the model that has a translation. -/
def wellFormed (c : BarListener δ) (types : List (String × BarType)) : Frame →
    Option (InternalBar δ)
  | .message channel (some bytes) =>
    if (types.lookup channel).isSome then
      match InternalBar.fromJson c.lib (decodeUtf8 bytes) with
      | .ok b => if (b.content c.lib).isSome then some b else none
      | .error _ => none
    else none
  | _ => none

/-- The bar type of a bar's own symbol and timeframe. -/
def ownBarType (c : BarListener δ) (b : InternalBar δ) : Option BarType :=
  makeBarType c.lib c.venue b.symbol b.timeframe

/-- `n` is the translation of `b` under its own bar type. -/
def Translates (c : BarListener δ) (b : InternalBar δ) (n : NautilusBar) : Prop :=
  ∃ t, c.ownBarType b = some t ∧ toNautilusBar c.lib b t = some n

/-- The listener goes on, and has emitted the well-formed bars, once each
and in order, each under its own bar type. -/
structure Faithful (c : BarListener δ) (types : List (String × BarType)) (fs : List Frame) :
    Prop where
  running : (c.listen types fs).2 = none
  emitted : List.Forall₂ c.Translates (fs.filterMap (c.wellFormed types)) (c.listen types fs).1

/-- A payload on which `from_json` raises a `ValueError` or nothing: it is
not a text, or the text of an object, or one on which `json.loads` raises
a `ValueError`. -/
def Readable (lib : BarLib δ) (bytes : ByteArray) : Prop :=
  ∀ text, decodeUtf8 bytes = .ok text →
    match lib.loads text with
    | .ok j => ∃ fields, j = .obj fields
    | .error e => e.isValueError

/-- A message the listener handles as it should: it can be decoded if the
client does that; and on a subscribed channel it is readable, and a
well-formed bar is one of the channel's bar type. -/
def Harmless (c : BarListener δ) (types : List (String × BarType)) : Frame → Prop
  | .message channel (some bytes) =>
    (c.decodeResponses = true → (decodeUtf8 bytes).isOk) ∧
      ∀ t, types.lookup channel = some t → Readable c.lib bytes ∧
        ∀ b, c.wellFormed types (.message channel (some bytes)) = some b →
          c.ownBarType b = some t
  | _ => True

/-! ## When it does -/

section Handle
variable {c : BarListener δ} {types : List (String × BarType)} {lib : BarLib δ}
  {bytes : ByteArray} {fields : List (String × Json)}

/-- The model raises nothing but a `ValidationError`. -/
theorem ofFields_error : Ends (· = .valueError) (fun _ => True) (InternalBar.ofFields lib fields) := by
  have hstr : ∀ {P : String → Prop} key, (∀ s, P s) →
      Ends (· = .valueError) P (InternalBar.strField lib fields key) := by
    intro P key hP
    unfold InternalBar.strField
    split
    · split
      · rfl
      · exact hP _
    · rfl
  have hfloat : ∀ {P : PyFloat → Prop} low key, (∀ x, P x) →
      Ends (· = .valueError) P (InternalBar.floatField lib low fields key) := by
    intro P low key hP
    unfold InternalBar.floatField
    split
    · split
      · rfl
      · exact hP _
    · rfl
  have htime : ∀ {P : δ → Prop} key, (∀ x, P x) →
      Ends (· = .valueError) P (InternalBar.timeField lib fields key) := by
    intro P key hP
    unfold InternalBar.timeField
    cases (fields.lookup key).bind lib.datetime with
    | none => rfl
    | some x => exact hP x
  simp only [InternalBar.ofFields, ends_bind]
  refine hstr _ fun _ => hstr _ fun _ => htime _ fun _ => hfloat _ _ fun _ => hfloat _ _ fun _ => ?_
  refine hfloat _ _ fun _ => hfloat _ _ fun _ => hfloat _ _ fun _ => ?_
  split
  · rfl
  · trivial

/-- What `from_json` raises is caught just on a readable payload. -/
theorem readable_iff :
    Readable lib bytes ↔
      Ends (fun e => e.isValueError) (fun _ => True) (InternalBar.fromJson lib (decodeUtf8 bytes)) := by
  cases hd : decodeUtf8 bytes with
  | error e =>
    have he : e = .unicodeDecodeError := by
      unfold decodeUtf8 at hd
      cases hs : String.fromUTF8? bytes <;> simp [hs] at hd
      exact hd.symm
    subst he
    simp [Readable, InternalBar.fromJson, hd, bind, Except.bind, ReceiveError.isValueError]
  | ok text =>
    cases hl : lib.loads text with
    | error e => simp [Readable, InternalBar.fromJson, hd, hl, bind, Except.bind]
    | ok j =>
      cases j with
      | obj fields =>
        have hfields : Ends (fun e => e.isValueError) (fun _ => True)
            (InternalBar.ofFields lib fields) := by
          have hends := @ofFields_error _ lib fields
          cases hb : InternalBar.ofFields lib fields with
          | ok b => trivial
          | error e =>
            rw [hb] at hends
            obtain rfl : e = .valueError := hends
            rfl
        simpa [Readable, InternalBar.fromJson, hd, hl, bind, Except.bind] using hfields
      | _ =>
        simp [Readable, InternalBar.fromJson, hd, hl, bind, Except.bind, ReceiveError.isValueError]

/-- A message that was received goes by its channel and its payload. -/
theorem handle_received {channel : String} (h : c.decodeResponses = true → (decodeUtf8 bytes).isOk) :
    c.handle types (.message channel (some bytes)) =
      match types.lookup channel with
      | none => .ok none
      | some t =>
        match InternalBar.fromJson c.lib (decodeUtf8 bytes) with
        | .ok b => .ok (toNautilusBar c.lib b t)
        | .error e => if e.isValueError then .ok none else .error e := by
  cases hraw : c.decodeResponses with
  | false => simp only [handle, hraw]
  | true =>
    cases hd : decodeUtf8 bytes with
    | error e => simp [hd, Except.isOk, Except.toBool] at h; exact absurd hraw (by simp [h])
    | ok text => simp only [handle, hraw, hd]

/-- A readable message without a well-formed bar does no harm. -/
theorem harmless_of_not_wellFormed {channel : String}
    (hdec : c.decodeResponses = true → (decodeUtf8 bytes).isOk)
    (hno : c.wellFormed types (.message channel (some bytes)) = none)
    (hread : ∀ t, types.lookup channel = some t → Readable c.lib bytes) :
    c.Harmless types (.message channel (some bytes)) := by
  refine ⟨hdec, fun t ht => ⟨hread t ht, fun b hwf => ?_⟩⟩
  rw [hno] at hwf
  cases hwf

/-- What a message comes to: the listener ends and the message is to
blame; or it is passed over; or its bar is emitted under the channel's bar
type. -/
theorem handle_cases (c : BarListener δ) (types : List (String × BarType)) (f : Frame) :
    (∃ e, c.handle types f = .error e ∧ ¬ c.Harmless types f) ∨
    (c.handle types f = .ok none ∧ c.wellFormed types f = none ∧ c.Harmless types f) ∨
    ∃ b t n, c.handle types f = .ok (some n) ∧ c.wellFormed types f = some b ∧
      toNautilusBar c.lib b t = some n ∧ (c.Harmless types f ↔ c.ownBarType b = some t) := by
  match f with
  | .other => exact .inr (.inl ⟨rfl, rfl, trivial⟩)
  | .message channel none => exact .inr (.inl ⟨rfl, rfl, trivial⟩)
  | .message channel (some bytes) =>
    by_cases hdec : c.decodeResponses = true → (decodeUtf8 bytes).isOk
    · rw [handle_received hdec]
      cases ht : types.lookup channel with
      | none =>
        have hno : c.wellFormed types (.message channel (some bytes)) = none := by
          simp [wellFormed, ht]
        refine .inr (.inl ⟨rfl, hno, harmless_of_not_wellFormed hdec hno fun t htt => ?_⟩)
        rw [ht] at htt
        cases htt
      | some t =>
        have hread := @readable_iff _ c.lib bytes
        cases hb : InternalBar.fromJson c.lib (decodeUtf8 bytes) with
        | error e =>
          rw [hb, ends_error] at hread
          have hno : c.wellFormed types (.message channel (some bytes)) = none := by
            simp [wellFormed, ht, hb]
          by_cases he : e.isValueError
          · exact .inr (.inl ⟨by simp [he], hno,
              harmless_of_not_wellFormed hdec hno fun _ _ => hread.mpr he⟩)
          · refine .inl ⟨e, by simp [he], ?_⟩
            intro h
            exact he (hread.mp (h.2 t ht).1)
        | ok b =>
          rw [hb, ends_ok] at hread
          cases hc : b.content c.lib with
          | none =>
            have hno : c.wellFormed types (.message channel (some bytes)) = none := by
              simp [wellFormed, ht, hb, hc]
            exact .inr (.inl ⟨by simp [toNautilusBar, hc], hno,
              harmless_of_not_wellFormed hdec hno fun _ _ => hread.mpr trivial⟩)
          | some content =>
            have hwf : c.wellFormed types (.message channel (some bytes)) = some b := by
              simp [wellFormed, ht, hb, hc]
            refine .inr (.inr ⟨b, t, { barType := t, content }, by simp [toNautilusBar, hc], hwf,
              by simp [toNautilusBar, hc], ?_⟩)
            constructor
            · intro h
              exact (h.2 t ht).2 b hwf
            · intro hown
              refine ⟨hdec, fun t' ht' => ⟨hread.mpr trivial, fun b' hb' => ?_⟩⟩
              rw [hwf, Option.some.injEq] at hb'
              rw [ht] at ht'
              rw [← hb', hown, ht']
    · -- the client cannot decode the message
      refine .inl ?_
      obtain ⟨hraw, hbad⟩ := Classical.not_imp.mp hdec
      cases hd : decodeUtf8 bytes with
      | error e => exact ⟨e, by simp only [handle, hraw, hd], fun h => hdec h.1⟩
      | ok text => simp [hd, Except.isOk, Except.toBool] at hbad

theorem translates_iff {b : InternalBar δ} {t : BarType} {n : NautilusBar}
    (h : toNautilusBar c.lib b t = some n) : c.Translates b n ↔ c.ownBarType b = some t := by
  constructor
  · intro htr
    obtain ⟨t', hown, ht'⟩ := htr
    obtain ⟨x, -, rfl⟩ := Option.map_eq_some_iff.mp h
    obtain ⟨y, -, hy⟩ := Option.map_eq_some_iff.mp ht'
    obtain rfl : t' = t := congrArg NautilusBar.barType hy
    exact hown
  · intro hown
    exact ⟨t, hown, h⟩

end Handle

section Listen
variable {c : BarListener δ} {types : List (String × BarType)}

theorem faithful_nil : c.Faithful types [] := ⟨rfl, .nil⟩

/-- The listener is faithful on a message and the rest just if it handles
the message as it should and is faithful on the rest. -/
theorem faithful_cons (f : Frame) (fs : List Frame) :
    c.Faithful types (f :: fs) ↔ c.Harmless types f ∧ c.Faithful types fs := by
  rcases handle_cases c types f with ⟨e, he, hbad⟩ | ⟨hnone, hwf, hgood⟩ |
    ⟨b, t, n, hsome, hwf, htr, hiff⟩
  · constructor
    · intro h
      have hrun := h.running
      simp [listen, he] at hrun
    · intro h
      exact absurd h.1 hbad
  · constructor
    · intro h
      refine ⟨hgood, ⟨by simpa [listen, hnone] using h.running, ?_⟩⟩
      simpa [listen, hnone, List.filterMap_cons, hwf] using h.emitted
    · intro h
      refine ⟨by simpa [listen, hnone] using h.2.running, ?_⟩
      simpa [listen, hnone, List.filterMap_cons, hwf] using h.2.emitted
  · have hemit : List.Forall₂ c.Translates ((f :: fs).filterMap (c.wellFormed types))
        (c.listen types (f :: fs)).1 ↔
        c.ownBarType b = some t ∧
          List.Forall₂ c.Translates (fs.filterMap (c.wellFormed types)) (c.listen types fs).1 := by
      simp only [listen, hsome, List.filterMap_cons, hwf, Option.toList_some, List.singleton_append,
        List.forall₂_cons, translates_iff htr]
    constructor
    · intro h
      obtain ⟨hown, hrest⟩ := hemit.mp h.emitted
      exact ⟨hiff.mpr hown, by simpa [listen, hsome] using h.running, hrest⟩
    · intro h
      refine ⟨by simpa [listen, hsome] using h.2.running, ?_⟩
      exact hemit.mpr ⟨hiff.mp h.1, h.2.emitted⟩

/-- **When no bar is lost to a bad message.** Over any messages the
listener goes on and emits the well-formed bars, in order, under their own
bar types, exactly when every message is harmless. -/
theorem listener_faithful_iff (c : BarListener δ) (types : List (String × BarType))
    (fs : List Frame) : c.Faithful types fs ↔ ∀ f ∈ fs, c.Harmless types f := by
  induction fs with
  | nil => exact iff_of_true faithful_nil (by simp)
  | cons f fs ih => rw [faithful_cons, ih, List.forall_mem_cons]

end Listen

/-! ## A payload that is no object -/

def goldText (symbol : String) : String := "\x7b\"symbol\": \"" ++ symbol ++ "\"\x7d"

def goldFields (symbol : String) : List (String × Json) :=
  [("symbol", .str symbol), ("timeframe", .str "1m"), ("time", .int 60), ("open", .int 2),
   ("high", .int 3), ("low", .int 1), ("close", .int 2), ("volume", .int 5)]

def wholeFloat : Json → Option PyFloat
  | .int n => some (.finite n)
  | _ => none

def finiteFloat : PyFloat → Option ℚ
  | .finite q => some q
  | _ => none

/-- The libraries on the texts of two bars and of an empty list. -/
def goldLib : BarLib ℤ where
  loads := fun text =>
    if text = goldText "XAUUSD" then .ok (.obj (goldFields "XAUUSD"))
    else if text = goldText "EURUSD" then .ok (.obj (goldFields "EURUSD"))
    else if text = "[]" then .ok (.arr [])
    else .error .jsonDecodeError
  decimal := fun _ => none
  int := fun text => if text = "1" then some 1 else none
  str := fun _ => ""
  strip := id
  lower := id
  float := wholeFloat
  datetime := fun j => match j with | .int n => some n | _ => none
  timestampNs := fun t => some (t * 1000000000)
  price := finiteFloat
  quantity := finiteFloat
  acceptsType := fun _ => true
  acceptsBar := fun _ => true

/-- A listener for gold, with a client that does not decode. -/
def goldListener : BarListener ℤ where
  lib := goldLib
  venue := "MT5"
  subscriptions := [("XAUUSD", "1m")]
  decodeResponses := false

def goldType (symbol : String) : BarType :=
  { symbol, venue := "MT5", step := 1, aggregation := .minute }

def goldTypes : List (String × BarType) := [("bars:XAUUSD:1m", goldType "XAUUSD")]

/-- A message on the channel of gold. -/
def goldFrame (text : String) : Frame := .message "bars:XAUUSD:1m" (some text.toUTF8)

/-- A bar of gold after a text that is no JSON. -/
example : goldListener.barTypes = some goldTypes ∧
    (goldListener.listen goldTypes [goldFrame "?", goldFrame (goldText "XAUUSD")]).2 = none ∧
    ((goldListener.listen goldTypes [goldFrame "?", goldFrame (goldText "XAUUSD")]).1.map
      NautilusBar.barType) = [goldType "XAUUSD"] := by decide +kernel

/-- The payload `[]` ends the listener with a `TypeError`, and the bar that
comes next is lost. The bar of another symbol goes out as one of gold. -/
theorem list_payload_ends_listener :
    goldListener.listen goldTypes [goldFrame "[]", goldFrame (goldText "XAUUSD")] =
        ([], some .typeError) ∧
      ¬ goldListener.Faithful goldTypes [goldFrame "[]", goldFrame (goldText "XAUUSD")] ∧
      (goldListener.listen goldTypes [goldFrame (goldText "EURUSD")]).1.map NautilusBar.barType =
        [goldType "XAUUSD"] := by
  have hend : goldListener.listen goldTypes [goldFrame "[]", goldFrame (goldText "XAUUSD")] =
      ([], some .typeError) := by decide +kernel
  refine ⟨hend, ?_, by decide +kernel⟩
  intro h
  have hrun := h.running
  rw [hend] at hrun
  cases hrun

end BarListener

end TdSandboxed
