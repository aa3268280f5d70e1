/-
TdSandboxed.TvApi.TimescaleStore — the buffered store of ticks and candles
(`internal/store/timescaledb.go`).

`SaveTick` and `SaveCandle` put an item into a channel and return. The
batch processor takes the items out of the channels into two local slices
and flushes a slice in one transaction. Its `select` takes any of the
branches that are ready, so `Close` and a cancelled context compete with
the items in the channels.

The two kinds of items are treated alike, each in its `Series`. What became
of an item whose flush is over is written down in `settled`, in the order
of the flushes, and `accepted` lists the items whose save returned nil. The
gauges of `StoreStats` and the durations are left out.

In a transaction PostgreSQL refuses every statement after a failed one, the
COMMIT among them. A row that `ON CONFLICT DO NOTHING` leaves out is no
failure: the store counts it as written, and it is `inserted` here.
-/
import Mathlib.Data.List.Perm.Subperm
import TdSandboxed.Lib.Run

namespace TdSandboxed

open Lib

/-! ## State -/

inductive SeriesKind
  | tick
  | candle
  deriving DecidableEq

instance {P : SeriesKind → Prop} [DecidablePred P] : Decidable (∀ kind, P kind) :=
  decidable_of_iff (P .tick ∧ P .candle)
    ⟨fun h kind => SeriesKind.rec h.1 h.2 kind, fun h => ⟨h .tick, h .candle⟩⟩

/-- How a flush ends for an item of its batch. -/
inductive Settlement
  /-- The transaction that inserted it is committed. -/
  | inserted
  /-- The flush failed, and `ErrorsCount` became this number. -/
  | counted (error : ℕ)
  deriving DecidableEq

structure Series (α : Type*) where
  /-- `tickBuffer`, `candleBuffer` -/
  buffer : List α := []
  /-- `tickBatch`, `candleBatch` -/
  batch : List α := []
  /-- `TicksWritten`, `CandlesWritten` -/
  written : ℕ := 0
  accepted : List α := []
  settled : List (α × Settlement) := []
  /-- How many had been accepted when `Close` was called. -/
  savedBeforeClose : ℕ := 0
  deriving DecidableEq

/-- Where the batch processor is. -/
inductive BatchProcessor
  | notStarted
  | selecting
  /-- The flushes of these batches are to be done, and then it returns. -/
  | flushing (todo : List SeriesKind) (last : Bool)
  | returned
  deriving DecidableEq

structure TimescaleStore (α : Type*) where
  ticks : Series α := {}
  candles : Series α := {}
  errorsCount : ℕ := 0
  processor : BatchProcessor := .notStarted
  /-- `stopChan` is closed. -/
  stopping : Bool := false
  cancelled : Bool := false
  /-- `Close` has returned. -/
  closed : Bool := false
  deriving DecidableEq

/-- What the database answers to the calls of one flush; a row without an
answer is accepted. -/
structure TxnAnswers where
  beginTx : Bool := true
  prepare : Bool := true
  rows : List Bool := []
  commit : Bool := true
  deriving DecidableEq

inductive StoreEvent (α : Type*)
  /-- `SaveTick` or `SaveCandle` returns nil. -/
  | save (kind : SeriesKind) (item : α)
  /-- The channel is full. -/
  | bufferFull (kind : SeriesKind)
  | start
  /-- The branches of the `select`. -/
  | receive (kind : SeriesKind)
  | timer
  | stop
  | ctxDone
  /-- The next flush. -/
  | flush (db : TxnAnswers)
  | cancel
  | close
  | closeReturns
  deriving DecidableEq

/-! ## Steps -/

/-- `make(chan TickData, 1000)` -/
def bufferCapacity : ℕ := 1000

/-- The loop over a batch: the rows inserted, and whether a statement of
the transaction failed. -/
def insertRows {α : Type*} (failed : Bool) : List α → List Bool → List α × Bool
  | [], _ => ([], failed)
  | item :: batch, answers =>
    if failed || !answers.headD true then insertRows true batch answers.tail
    else
      let (rows, failed) := insertRows false batch answers.tail
      (item :: rows, failed)

/-- `flushTicks`, `flushCandles`: the series and `ErrorsCount` after it. -/
def Series.flush {α : Type*} (s : Series α) (errorsCount : ℕ) (db : TxnAnswers) : Series α × ℕ :=
  let error :=
    ({ s with
      batch := []
      settled := s.settled ++ s.batch.map (·, .counted (errorsCount + 1)) }, errorsCount + 1)
  if !db.beginTx then error
  else if !db.prepare then error
  else
    let (rows, failed) := insertRows false s.batch db.rows
    if failed || !db.commit then error
    else ({ s with
      batch := []
      settled := s.settled ++ rows.map (·, .inserted)
      written := s.written + rows.length }, errorsCount)

namespace TimescaleStore

variable {α : Type*}

def series (s : TimescaleStore α) : SeriesKind → Series α
  | .tick => s.ticks
  | .candle => s.candles

def setSeries (s : TimescaleStore α) (kind : SeriesKind) (x : Series α) : TimescaleStore α :=
  { s with
    ticks := if kind = .tick then x else s.ticks
    candles := if kind = .candle then x else s.candles }

/-- The batches that are not empty, in the order of the branches. -/
def toFlush (s : TimescaleStore α) : List SeriesKind :=
  [.tick, .candle].filter fun kind => (s.series kind).batch.length > 0

/-- On to the flushes, or, when there are none, to the `select` or out. -/
def flushPhase (todo : List SeriesKind) (last : Bool) : BatchProcessor :=
  if todo = [] then if last then .returned else .selecting else .flushing todo last

def step (batchSize : ℕ) (s : TimescaleStore α) (e : StoreEvent α) : Option (TimescaleStore α) :=
  match e, s.processor with
  | .save kind item, _ =>
    let x := s.series kind
    if x.buffer.length < bufferCapacity then
      some (s.setSeries kind
        { x with buffer := x.buffer ++ [item], accepted := x.accepted ++ [item] })
    else none
  | .bufferFull kind, _ =>
    if (s.series kind).buffer.length < bufferCapacity then none
    else some { s with errorsCount := s.errorsCount + 1 }
  | .start, .notStarted => some { s with processor := .selecting }
  | .receive kind, .selecting =>
    let x := s.series kind
    match x.buffer with
    | [] => none
    | item :: rest =>
      let batch := x.batch ++ [item]
      some { s.setSeries kind { x with buffer := rest, batch } with
        processor := if batch.length ≥ batchSize then .flushing [kind] false else .selecting }
  | .timer, .selecting => some { s with processor := flushPhase s.toFlush false }
  | .stop, .selecting =>
    if s.stopping then some { s with processor := flushPhase s.toFlush true } else none
  | .ctxDone, .selecting => if s.cancelled then some { s with processor := .returned } else none
  | .flush db, .flushing (kind :: todo) last =>
    let (x, errorsCount) := (s.series kind).flush s.errorsCount db
    some { s.setSeries kind x with errorsCount, processor := flushPhase todo last }
  | .cancel, _ => some { s with cancelled := true }
  | .close, _ =>
    if s.stopping then none
    else some { s with
      stopping := true
      ticks := { s.ticks with savedBeforeClose := s.ticks.accepted.length }
      candles := { s.candles with savedBeforeClose := s.candles.accepted.length } }
  | .closeReturns, .returned => if s.stopping then some { s with closed := true } else none
  | _, _ => none

/-! ## What the store should do -/

/-- Every item accepted before `Close` was called is inserted, or its flush
failed with an error that `ErrorsCount` counts. -/
structure Lossless (s : TimescaleStore α) : Prop where
  settled : ∀ kind, ((s.series kind).accepted.take (s.series kind).savedBeforeClose).Subperm
    ((s.series kind).settled.map Prod.fst)
  counted : ∀ kind item error, (item, .counted error) ∈ (s.series kind).settled →
    1 ≤ error ∧ error ≤ s.errorsCount

/-- How many items are to be settled: those accepted before `Close`. -/
def owed (s : TimescaleStore α) (kind : SeriesKind) : ℕ :=
  if s.stopping then (s.series kind).savedBeforeClose else (s.series kind).accepted.length

/-- The processor leaves no such item behind, and none is accepted behind
its back: `stop` flushes the batches and looks at the channels no more, and
`ctxDone` flushes nothing. -/
def Kept (s : TimescaleStore α) : StoreEvent α → Prop
  | .save _ _ => s.processor = .returned → s.stopping = true
  | .stop => ∀ kind, (s.series kind).buffer.length + s.owed kind ≤ (s.series kind).accepted.length
  | .ctxDone => ∀ kind, (s.series kind).batch.length + (s.series kind).buffer.length +
      s.owed kind ≤ (s.series kind).accepted.length
  | _ => True

instance (s : TimescaleStore α) : DecidablePred s.Kept
  | .save _ _ => inferInstanceAs (Decidable (_ → _))
  | .stop => inferInstanceAs (Decidable (∀ _, _))
  | .ctxDone => inferInstanceAs (Decidable (∀ _, _))
  | .bufferFull _ | .start | .receive _ | .timer | .flush _ | .cancel | .close
  | .closeReturns => .isTrue trivial

end TimescaleStore

end TdSandboxed
