/-
TdSandboxed.TvApi.SessionFeed — from a message to the sessions
(`handleMessage` of `pkg/tradingview/client.go`, `RoutePacketBatch` of
`internal/session/manager.go`, `internal/session/chart.go` for the periods,
`internal/session/quote.go`, `internal/session/replay.go` for `OnData`).

The client reads the packets of a message, answers the system packets
itself and groups the others by session. A chart takes its group as one
batch; a quote session takes it packet by packet and stops at the first
error, and then the client emits the whole group as events. A replay
session, which every chart of the client is paired with, takes it packet by
packet too, and has no error to return.

Go ranges over a map in any order. There are two such loops on the way: over
the groups, and over the members of the object that a chart packet carries.
Both orders are arguments here. What `fmt` prints and how a float becomes an
integer are parameters.
-/
import Mathlib
import TdSandboxed.Lib.OrderedDict
import TdSandboxed.TvApi.ReplaySession
import TdSandboxed.TvApi.WireCodec

namespace TdSandboxed.TvApi

open Lib WireCodec

/-! ## Packets -/

/-- A packet of this type. -/
def WireCodec.Packet.Is (p : Packet) (type : String) : Prop := p.type = type.toList

instance (p : Packet) (type : String) : Decidable (p.Is type) :=
  inferInstanceAs (Decidable (p.type = type.toList))

/-- `packet.Data`; the nil slice is empty. -/
def WireCodec.Packet.items (p : Packet) : List GoValue := p.data.getD []

/-- The object at `packet.Data[1]`, if that is one. -/
def WireCodec.Packet.object (p : Packet) : Option (List (List Char × GoValue)) :=
  match p.items with
  | _ :: .object ms :: _ => some ms
  | _ => none

/-- A packet, with the order in which a loop ranges over its object. -/
structure Visited where
  packet : Packet
  order : List (List Char × GoValue)
  perm : ∀ ms, packet.object = some ms → order.Perm ms

/-! ## The chart session -/

structure Period where
  time : ℤ
  openPrice : Float64
  close : Float64
  high : Float64
  low : Float64
  volume : Float64
  deriving DecidableEq

theorem roundFloat64_zero : roundFloat64 0 = some 0 := by decide +kernel

def Float64.zero : Float64 := ⟨false, 0, le_rfl, roundFloat64_zero⟩

/-- What Go computes. -/
structure GoLib where
  /-- `int64(x)`, which is not defined out of range. -/
  int64 : Float64 → ℤ
  /-- `float64(n)` -/
  float64 : ℤ → Float64
  /-- `fmt.Sprintf("%v", v)` -/
  print : GoValue → String

/-- `getFloat64FromInterface` -/
def GoLib.number (lib : GoLib) : GoValue → Float64
  | .number x => x
  | .int n => lib.float64 n
  | _ => Float64.zero

/-- `getInt64FromInterface` -/
def GoLib.integer (lib : GoLib) : GoValue → ℤ
  | .int n => n
  | .number x => lib.int64 x
  | _ => 0

/-- `s, _ := v.(string)` -/
def assertString : GoValue → String
  | .string s => String.ofList s
  | _ => ""

/-- One item of a series: `{i: index, v: [time, open, high, low, close, volume]}`. -/
def readPeriod (lib : GoLib) : GoValue → Option Period
  | .object ms =>
    match ms.lookup ['v'] with
    | some (.array (time :: openPrice :: high :: low :: close :: volume :: _)) =>
      some { time := lib.int64 (lib.number time), openPrice := lib.number openPrice
             high := lib.number high, low := lib.number low, close := lib.number close
             volume := lib.number volume }
    | _ => none
  | _ => none

/-- The periods of one member of the object. -/
def seriesPeriods (lib : GoLib) : List Char × GoValue → List Period
  | (key, .object series) =>
    if key = "$prices".toList ∨ "sds_".toList <+: key then
      match series.lookup ['s'] with
      | some (.array items) => items.filterMap (readPeriod lib)
      | _ => []
    else []
  | _ => []

/-- What `parsePeriodData` stores, in the order of its writes. -/
def Visited.periods (lib : GoLib) (v : Visited) : List Period :=
  if v.packet.object = none then [] else v.order.flatMap (seriesPeriods lib)

inductive ChartEvent
  | update (periods : List Period)
  /-- "symbol_loaded" with the object of the packet. -/
  | symbolLoaded (info : List (List Char × GoValue))
  | error (text : String)

structure ChartSession where
  symbolID : String := ""
  periods : OrderedDict ℤ Period := .empty
  infos : Option (List (List Char × GoValue)) := none
  /-- Context and logger are set. -/
  reconnects : Bool := false
  reconnecting : Bool := false
  emitted : List ChartEvent := []

namespace ChartSession

def store (cs : ChartSession) (ps : List Period) : ChartSession :=
  { cs with periods := ps.foldl (fun d p => d.set p.time p) cs.periods }

/-- `GetPeriods`: the least in the order of the sort comes first. -/
def getPeriods (periods : OrderedDict ℤ Period) : List Period :=
  periods.values.mergeSort fun p q => q.time ≤ p.time

def emit (cs : ChartSession) (e : ChartEvent) : ChartSession :=
  { cs with emitted := cs.emitted ++ [e] }

/-- The end of the three error handlers. -/
def fail (cs : ChartSession) (text : String) : ChartSession :=
  let cs := cs.emit (.error text)
  if cs.reconnects then { cs with reconnecting := true } else cs

/-- The text behind the prefix of an error: the item at `i`, or all. -/
def errorText (lib : GoLib) (p : Packet) (i : ℕ) : String :=
  match p.items[i]? with
  | some v => lib.print v
  | none => lib.print (.array p.items)

/-- One packet of a batch. -/
def handle (lib : GoLib) (cs : ChartSession) (v : Visited) : ChartSession :=
  if v.packet.Is "symbol_resolved" then
    match v.packet.object with
    | some info => { cs with infos := some info }.emit (.symbolLoaded info)
    | none => cs
  else if v.packet.Is "du" ∨ v.packet.Is "timescale_update" then
    cs.store (v.periods lib)
  else if v.packet.Is "symbol_error" then
    let text := errorText lib v.packet 1
    cs.fail (if cs.symbolID ≠ "" then s!"invalid symbol '{cs.symbolID}': {text}"
      else s!"symbol error: {text}")
  else if v.packet.Is "series_error" then
    cs.fail s!"series error (timeframe may be invalid): {errorText lib v.packet 1}"
  else if v.packet.Is "critical_error" then
    cs.fail (s!"critical error: " ++
      if v.packet.items = [] then "unknown critical error" else errorText lib v.packet 0)
  else cs

/-- `OnDataBatch`: closed candles come with a `timescale_update`. -/
def onDataBatch (lib : GoLib) (cs : ChartSession) (batch : List Visited) : ChartSession :=
  let cs := batch.foldl (handle lib) cs
  if batch.any fun v => v.packet.Is "timescale_update" then
    cs.emit (.update (getPeriods cs.periods))
  else cs

end ChartSession

/-! ## The quote session -/

/-- `={"session":"regular","symbol":"%s"}` -/
def symbolKey (symbol : List Char) : List Char :=
  "=\x7b\"session\":\"regular\",\"symbol\":\"".toList ++ (symbol ++ "\"\x7d".toList)

structure QuoteMarket where
  symbolKey : List Char
  lastData : OrderedDict (List Char) GoValue := .empty
  /-- What a listener that was there from the start was called with. -/
  heard : List (OrderedDict (List Char) GoValue) := []

/-- `updateData` -/
def QuoteMarket.updateData (m : QuoteMarket) (data : List (List Char × GoValue)) : QuoteMarket :=
  let lastData := data.foldl (fun d p => d.set p.1 p.2) m.lastData
  { m with lastData, heard := m.heard ++ [lastData] }

inductive QuotePacket
  | addSymbols (symbolKey : List Char)
  | removeSymbols (symbolKey : List Char)
  deriving DecidableEq

structure QuoteSession where
  markets : OrderedDict (List Char) QuoteMarket := .empty
  /-- The packets that were sent. -/
  sent : List QuotePacket := []

namespace QuoteSession

/-- `AddSymbol`; `ok` is how the send ends. -/
def addSymbol (qs : QuoteSession) (symbol : List Char) (ok : Bool) : QuoteSession :=
  if (qs.markets.get? symbol).isSome then qs
  else if ok then
    { markets := qs.markets.set symbol { symbolKey := symbolKey symbol }
      sent := qs.sent ++ [.addSymbols (symbolKey symbol)] }
  else qs

/-- `RemoveSymbol` -/
def removeSymbol (qs : QuoteSession) (symbol : List Char) (ok : Bool) : QuoteSession :=
  match qs.markets.get? symbol with
  | none => qs
  | some market =>
    if ok then
      { markets := qs.markets.filterKeys fun s => s ≠ symbol
        sent := qs.sent ++ [.removeSymbols market.symbolKey] }
    else qs

/-- The market of a key: the first one in the order of the map. -/
def marketOf (qs : QuoteSession) (key : List Char) : Option (List Char × QuoteMarket) :=
  qs.markets.items.find? fun p => p.2.symbolKey = key

/-- A `qsd` packet, as `handleQuoteData` reads it. -/
inductive QuoteData
  | invalid (text : String)
  | failed (key : List Char) (text : String)
  /-- A status that is neither "ok" nor "error". -/
  | ignored
  | quote (key : List Char) (data : List (List Char × GoValue))

def readQuote (p : Packet) : QuoteData :=
  match p.items with
  | _ :: .object ms :: _ =>
    match ms.lookup ['n'] with
    | some (.string key) =>
      match ms.lookup ['s'] with
      | some (.string status) =>
        if status = "error".toList then
          match ms.lookup ['v'] with
          | some (.object errData) =>
            match errData.lookup "message".toList with
            | some (.string text) => .failed key (String.ofList text)
            | _ => .failed key "unknown error"
          | _ => .failed key "unknown error"
        else if status ≠ "ok".toList then .ignored
        else
          match ms.lookup ['v'] with
          | some (.object data) => .quote key data
          | _ => .quote key []
      | _ => .invalid "invalid qsd packet: missing or invalid 's' field"
    | _ => .invalid "invalid qsd packet: missing or invalid 'n' field"
  | _ :: _ :: _ => .invalid "invalid qsd packet: data[1] is not an object"
  | _ => .invalid "invalid qsd packet: insufficient data"

/-- `handleQuoteData`, with a quote. -/
def receive (qs : QuoteSession) (key : List Char) (data : List (List Char × GoValue)) :
    QuoteSession :=
  match qs.marketOf key with
  | some (symbol, market) =>
    { qs with markets := qs.markets.set symbol (market.updateData data) }
  | none => qs

/-- `handleSymbolError` -/
def symbolErrorText (lib : GoLib) (qs : QuoteSession) (p : Packet) : String :=
  let symbol := match p.items.head? with
    | some (.string id) => (qs.marketOf id).map Prod.fst
    | _ => none
  let text := ChartSession.errorText lib p 1
  match symbol with
  | some symbol =>
    if symbol ≠ [] then s!"invalid symbol '{String.ofList symbol}': {text}"
    else s!"symbol error: {text}"
  | none => s!"symbol error: {text}"

def onData (lib : GoLib) (qs : QuoteSession) (p : Packet) : Except String QuoteSession :=
  if p.Is "qsd" then
    match readQuote p with
    | .invalid text => .error text
    | .failed key text => .error s!"quote data error for {String.ofList key}: {text}"
    | .ignored => .ok qs
    | .quote key data => .ok (qs.receive key data)
  else if p.Is "symbol_error" then .error (qs.symbolErrorText lib p)
  else .ok qs

/-- The fallback of `RoutePacketBatch`: the session, and whether all packets
were taken. -/
def onPackets (lib : GoLib) (qs : QuoteSession) : List Packet → QuoteSession × Bool
  | [] => (qs, true)
  | p :: ps =>
    match qs.onData lib p with
    | .ok qs => qs.onPackets lib ps
    | .error _ => (qs, false)

end QuoteSession

/-! ## The replay session -/

inductive ReplayEvent
  | loaded (instanceID : String)
  | point (index : ℤ)
  | resolution (timeframe : String) (index : ℤ)
  | ended
  | error (text : String)
  deriving DecidableEq

structure ReplaySession where
  /-- What the calls of `Step`, `Start` and `Stop` share with `OnData`. -/
  acks : TdSandboxed.ReplaySession.Shared := {}
  emitted : List ReplayEvent := []

namespace ReplaySession

def emit (rs : ReplaySession) (e : ReplayEvent) : ReplaySession :=
  { rs with emitted := rs.emitted ++ [e] }

/-- `handleReplayOK`, with no other goroutine in between. -/
def handleReplayOK (rs : ReplaySession) (p : Packet) : ReplaySession :=
  match ReplaySession.ackedId p.items with
  | none => rs
  | some reqId =>
    match rs.acks.pendingAcks.get? reqId with
    | none => rs
    | some ch =>
      let acks := rs.acks.delete reqId
      { rs with acks := { acks with closings := acks.closings ++ [(ch, .ack reqId)] } }

def onData (lib : GoLib) (rs : ReplaySession) (p : Packet) : ReplaySession :=
  if p.Is "replay_ok" then rs.handleReplayOK p
  else if p.Is "replay_instance_id" then
    match p.items with
    | _ :: instanceID :: _ => rs.emit (.loaded (assertString instanceID))
    | _ => rs
  else if p.Is "replay_point" then
    match p.items with
    | _ :: index :: _ => rs.emit (.point (lib.integer index))
    | _ => rs
  else if p.Is "replay_resolutions" then
    match p.items with
    | _ :: timeframe :: index :: _ =>
      rs.emit (.resolution (assertString timeframe) (lib.integer index))
    | _ => rs
  else if p.Is "replay_data_end" then rs.emit .ended
  else if p.Is "critical_error" then
    rs.emit (.error (if p.items = [] then "replay critical error" else lib.print (.array p.items)))
  else rs

end ReplaySession

/-! ## The client -/

inductive FeedSession
  | chart (cs : ChartSession)
  | quote (qs : QuoteSession)
  | replay (rs : ReplaySession)

/-- `RoutePacketBatch`, with a session: what becomes of it, and no error. -/
def FeedSession.routeBatch (lib : GoLib) (batch : List Visited) : FeedSession → FeedSession × Bool
  | .chart cs => (.chart (cs.onDataBatch lib batch), true)
  | .quote qs =>
    let (qs, ok) := qs.onPackets lib (batch.map (·.packet))
    (.quote qs, ok)
  | .replay rs => (.replay ((batch.map (·.packet)).foldl (ReplaySession.onData lib) rs), true)

/-- What the client does by itself. -/
inductive ClientEffect
  | pong (pingID : ℤ)
  | protocolError (data : List GoValue)
  | rateLimit (data : List GoValue)
  | event (type : List Char) (data : List GoValue)

/-- Where a packet goes. -/
inductive Route
  | own (effects : List ClientEffect)
  | session (id : List Char)

/-- The body of the loop over the packets of a message. -/
def route (lib : GoLib) (p : Packet) : Route :=
  if p.Is "ping" then
    match p.items.head? with
    | some (.int n) => .own [.pong n]
    | some (.number x) => .own [.pong (lib.int64 x)]
    | _ => .own []
  else if p.Is "protocol_error" then .own [.protocolError p.items]
  else if p.Is "rate_limit" then .own [.rateLimit p.items]
  else
    match p.items.head? with
    | some (.string id) => .session id
    | _ => .own [.event p.type p.items]

def Route.target : Route → Option (List Char)
  | .own _ => none
  | .session id => some id

def Route.effects : Route → List ClientEffect
  | .own effects => effects
  | .session _ => []

structure FeedClient where
  sessions : OrderedDict (List Char) FeedSession := .empty
  effects : List ClientEffect := []

namespace FeedClient

/-- `sessionPackets` -/
def groups (lib : GoLib) (vs : List Visited) : OrderedDict (List Char) (List Visited) :=
  vs.foldl (fun d v =>
    match (route lib v.packet).target with
    | some id => d.set id ((d.get? id).getD [] ++ [v])
    | none => d) .empty

def events (batch : List Visited) : List ClientEffect :=
  batch.map fun v => .event v.packet.type v.packet.items

/-- The batch of one session. -/
def routeBatch (lib : GoLib) (c : FeedClient) (b : List Char × List Visited) : FeedClient :=
  match c.sessions.get? b.1 with
  | some s =>
    let (s, ok) := s.routeBatch lib b.2
    { sessions := c.sessions.set b.1 s, effects := c.effects ++ if ok then [] else events b.2 }
  | none => { c with effects := c.effects ++ events b.2 }

/-- The packets of a message; `batches` are the groups in some order. -/
def deliver (lib : GoLib) (c : FeedClient) (vs : List Visited)
    (batches : List (List Char × List Visited)) : FeedClient :=
  let c := { c with effects := c.effects ++ vs.flatMap fun v => (route lib v.packet).effects }
  batches.foldl (routeBatch lib) c

end FeedClient

end TdSandboxed.TvApi
