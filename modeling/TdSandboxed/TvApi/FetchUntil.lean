/-
TdSandboxed.TvApi.FetchUntil — the walk backward through history
(`fetchUntil` of `pkg/tradingview/chart.go`; `pkg/tradingview/fetch_options.go`;
`MinPeriodTime` and `SubscribeUpdate` of `internal/session/chart.go`).

The walk reads the session between its waits, and each wait ends with a
signal, its timer or the context. Bars, update events and the cancellation
come at any moment: the server may answer a request late or never, and it
may send bars that nobody asked for. A batch of bars is stored before its
update event.

A period is its Unix second. `MinPeriodTime` ranges over a map, so a read
comes with the order of the keys it met.
-/
import Mathlib.Data.Finset.Basic
import TdSandboxed.TvApi.ClientReconnect

namespace TdSandboxed

open Lib

/-! ## Options -/

/-- Durations are nanoseconds. -/
structure FetchConfig where
  batchSize : ℤ := 1000
  throttle : ℤ := 150 * 1000000
  responseTimeout : ℤ := 2 * second
  maxBatches : ℤ := 1000
  deriving DecidableEq

inductive FetchOption
  | batchSize (n : ℤ)
  | throttle (d : ℤ)
  | responseTimeout (d : ℤ)
  | maxBatches (n : ℤ)

/-- `WithBatchSize` and its like; a value out of bounds changes nothing. -/
def FetchOption.apply (c : FetchConfig) : FetchOption → FetchConfig
  | batchSize n => if n > 0 then { c with batchSize := n } else c
  | throttle d => if d ≥ 0 then { c with throttle := d } else c
  | responseTimeout d => if d > 0 then { c with responseTimeout := d } else c
  | maxBatches n => if n > 0 then { c with maxBatches := n } else c

def fetchConfig (opts : List FetchOption) : FetchConfig := opts.foldl FetchOption.apply {}

/-! ## The session -/

/-- The body of the loop of `MinPeriodTime`: 0 is no time yet. -/
def lowerPeriodTime (least ts : ℤ) : ℤ := if least = 0 ∨ ts < least then ts else least

/-- `MinPeriodTime`, over the keys in the order of the map. -/
def minPeriodTime (order : List ℤ) : ℤ := order.foldl lowerPeriodTime 0

/-- An order in which a map with these keys may be ranged over. -/
def Ranges (order : List ℤ) (periods : Finset ℤ) : Prop :=
  order.Nodup ∧ order.toFinset = periods

instance (order : List ℤ) (periods : Finset ℤ) : Decidable (Ranges order periods) :=
  inferInstanceAs (Decidable (_ ∧ _))

/-- The buffer of the channel that `SubscribeUpdate` makes. -/
def updateBuffer : ℕ := 16

/-! ## The walk -/

inductive FetchResult
  /-- nil -/
  | done
  | cancelledBeforeInitial
  | noInitialBatch
  | cancelled
  | requestFailed (batch : ℕ) (minTs : ℤ)
  | exceededMaxBatches (prevMin : ℤ)
  deriving DecidableEq

/-- The text of the error; `cause` is that of the context or of the
request, and `str` writes a duration. -/
def FetchResult.error (c : FetchConfig) (untilTs : ℤ) (str : ℤ → String) (cause : String) :
    FetchResult → Option String
  | done => none
  | cancelledBeforeInitial => some s!"fetch_until cancelled before initial batch: {cause}"
  | noInitialBatch => some s!"fetch_until: no initial batch within {str c.responseTimeout}"
  | cancelled => some s!"fetch_until cancelled: {cause}"
  | requestFailed batch minTs =>
    some s!"fetch_until request batch={batch} at min_ts={minTs}: {cause}"
  | exceededMaxBatches prevMin =>
    some (s!"fetch_until exceeded max_batches={c.maxBatches} " ++
      s!"(min_ts={prevMin}, target={untilTs})")

inductive FetchUntil.Phase
  /-- Before the first look at the session. -/
  | start
  /-- `waitForUpdate` for the initial batch, and its failure. -/
  | awaitInitial
  | noInitial
  /-- The head of the loop. -/
  | head
  /-- `minTs := sess.MinPeriodTime()` -/
  | look
  | send (minTs : ℤ)
  /-- `waitForUpdate` after a request. -/
  | await
  | afterWait
  | throttling
  /-- `newMin := sess.MinPeriodTime()` -/
  | sample
  | returned (result : FetchResult)
  deriving DecidableEq

structure FetchUntil where
  phase : FetchUntil.Phase := .start
  /-- The keys of the session's periods. -/
  periods : Finset ℤ
  /-- What the channel holds. -/
  signals : ℕ := 0
  /-- The context is cancelled. -/
  contextDone : Bool := false
  batch : ℕ := 0
  prevMin : ℤ := 0
  sameStreak : ℕ := 0
  /-- The calls of `RequestMoreData`, and the `minTs` of the last. -/
  requests : ℕ := 0
  lastSent : Option ℤ := none
  /-- What `newMin` was after each request, and the keys at that time. -/
  samples : List (ℤ × Finset ℤ) := []
  deriving DecidableEq

inductive FetchUntil.Event
  /-- Bars are stored. -/
  | bars (times : List ℤ)
  /-- The session emits "update". -/
  | update
  /-- The context is cancelled. -/
  | cancel
  /-- `MinPeriodTime`, over the keys in this order. -/
  | read (order : List ℤ)
  /-- A `select` takes a signal, its timer or the context. -/
  | signal
  | timer
  | contextDone
  /-- The walk looks at the context, at the head of the loop after its
  condition. -/
  | check
  /-- `RequestMoreData` returns. -/
  | request (sent : Bool)
  deriving DecidableEq

/-- What the walk does itself. -/
def FetchUntil.Event.own : FetchUntil.Event → Bool
  | .bars _ | .update | .cancel => false
  | .read _ | .signal | .timer | .contextDone | .check | .request _ => true

namespace FetchUntil

/-- The end of a batch: the streak of batches without progress. -/
def record (s : FetchUntil) (newMin : ℤ) : FetchUntil :=
  let s := { s with samples := s.samples ++ [(newMin, s.periods)] }
  if newMin = s.prevMin ∧ newMin > 0 then
    let s := { s with sameStreak := s.sameStreak + 1 }
    if s.sameStreak ≥ 2 then { s with phase := .returned .done }
    else { s with prevMin := newMin, batch := s.batch + 1, phase := .head }
  else { s with sameStreak := 0, prevMin := newMin, batch := s.batch + 1, phase := .head }

/-- How a wait ends. -/
def endWait (s : FetchUntil) (onSignal onOther : Phase) : Event → Option FetchUntil
  | .signal =>
    if 0 < s.signals then some { s with signals := s.signals - 1, phase := onSignal } else none
  | .timer => some { s with phase := onOther }
  | .contextDone => if s.contextDone then some { s with phase := onOther } else none
  | _ => none

def step (c : FetchConfig) (untilTs : ℤ) (s : FetchUntil) (e : Event) : Option FetchUntil :=
  match s.phase, e with
  | _, .bars times => some { s with periods := s.periods ∪ times.toFinset }
  | _, .update => some { s with signals := min (s.signals + 1) updateBuffer }
  | _, .cancel => some { s with contextDone := true }
  | .start, .read order =>
    if Ranges order s.periods then
      some { s with phase := if minPeriodTime order = 0 then .awaitInitial else .head }
    else none
  | .awaitInitial, e => s.endWait .head .noInitial e
  | .noInitial, .check =>
    some { s with
      phase := .returned (if s.contextDone then .cancelledBeforeInitial else .noInitialBatch) }
  | .head, .check =>
    if (s.batch : ℤ) < c.maxBatches then
      some { s with phase := if s.contextDone then .returned .cancelled else .look }
    else some { s with phase := .returned (.exceededMaxBatches s.prevMin) }
  | .look, .read order =>
    if Ranges order s.periods then
      let minTs := minPeriodTime order
      some { s with
        phase := if minTs > 0 ∧ minTs ≤ untilTs then .returned .done else .send minTs }
    else none
  | .send minTs, .request sent =>
    some { s with
      requests := s.requests + 1
      lastSent := some minTs
      phase := if sent then .await else .returned (.requestFailed s.batch minTs) }
  | .await, e => s.endWait .afterWait .afterWait e
  | .afterWait, .check =>
    some { s with phase := if s.contextDone then .returned .cancelled else .throttling }
  | .throttling, .timer => some { s with phase := .sample }
  | .throttling, .contextDone =>
    if s.contextDone then some { s with phase := .returned .cancelled } else none
  | .sample, .read order =>
    if Ranges order s.periods then some (s.record (minPeriodTime order)) else none
  | _, _ => none

end FetchUntil

end TdSandboxed
