/-
TdSandboxed.TvApi.ReplaySession — the acknowledgements of a replay session
(`internal/session/replay.go`: `Step`, `Start`, `Stop`, `handleReplayOK`,
`Close` and `Delete`).

Any number of goroutines share the session. `mu` guards `pendingAcks` and is
held for one access at a time, so a call is many steps: it registers its
channel, sends, and takes the entry out again when the send fails. The
sends are outside the lock, and so is the close of an acknowledged channel.

Each goroutine is a task, and the channel that a call makes is the task's
own number. `closings` is what an observer of the channels knows: each
`close` there was, and who did it.
-/
import TdSandboxed.Lib.GoJson
import TdSandboxed.Lib.OrderedDict
import TdSandboxed.Lib.TaskSystem

namespace TdSandboxed

open Lib

namespace ReplaySession

/-! ## Tasks -/

inductive Closer
  /-- `handleReplayOK` with this request id. -/
  | ack (reqId : String)
  /-- `Close` or `Delete`. -/
  | drain
  deriving DecidableEq

/-- Where `sendCorrelated` is. -/
inductive CallPhase
  /-- It has its request id and its channel. -/
  | registering
  | sending
  /-- The send failed: the entry is taken out. -/
  | failing
  /-- With the channel, or with the error. -/
  | returned (ok : Bool)
  deriving DecidableEq

inductive Task
  | call (reqId : String) (phase : CallPhase)
  /-- `handleReplayOK`, before it takes the lock. -/
  | looking (reqId : String)
  /-- It has taken this channel out, and is about to close it. -/
  | closing (reqId : String) (ch : ℕ)
  /-- `Delete`, before its send. -/
  | deleting
  /-- `Close`, or `Delete` after its send. -/
  | draining
  | finished
  deriving DecidableEq

/-- What a goroutine is started with. -/
inductive Start
  /-- `Step`, `Start` or `Stop`, with the id that it generates. -/
  | call (reqId : String)
  /-- `OnData` with a `replay_ok` packet of this data. -/
  | replayOk (data : List GoValue)
  | close
  | delete

inductive Event
  | proceed
  /-- `client.Send` returns. -/
  | sent (ok : Bool)
  deriving DecidableEq

/-! ## Steps -/

/-- What the tasks share. -/
structure Shared where
  pendingAcks : OrderedDict String ℕ := .empty
  closings : List (ℕ × Closer) := []
  /-- A `Close` or `Delete` has returned. -/
  closed : Bool := false

/-- The request id of a packet; without one, nothing is done. -/
def ackedId : List GoValue → Option String
  | _ :: .string reqId :: _ => some (String.ofList reqId)
  | _ => none

def start : Start → Task
  | .call reqId => .call reqId .registering
  | .replayOk data =>
    match ackedId data with
    | some reqId => .looking reqId
    | none => .finished
  | .close => .draining
  | .delete => .deleting

/-- `delete(rs.pendingAcks, reqID)` -/
def Shared.delete (s : Shared) (reqId : String) : Shared :=
  { s with pendingAcks := s.pendingAcks.filterKeys fun k => k ≠ reqId }

/-- Every pending channel is closed; their order is not known. -/
def Shared.drain (s : Shared) : Shared where
  pendingAcks := .empty
  closings := s.closings ++ s.pendingAcks.values.map fun ch => (ch, .drain)
  closed := true

def task (s : Shared) (i : ℕ) : Task → Event → Option (Shared × Task)
  | .call reqId .registering, .proceed =>
    some ({ s with pendingAcks := s.pendingAcks.set reqId i }, .call reqId .sending)
  | .call reqId .sending, .sent true => some (s, .call reqId (.returned true))
  | .call reqId .sending, .sent false => some (s, .call reqId .failing)
  | .call reqId .failing, .proceed => some (s.delete reqId, .call reqId (.returned false))
  | .looking reqId, .proceed =>
    match s.pendingAcks.get? reqId with
    | some ch => some (s.delete reqId, .closing reqId ch)
    | none => some (s, .finished)
  | .closing reqId ch, .proceed =>
    some ({ s with closings := s.closings ++ [(ch, .ack reqId)] }, .finished)
  | .deleting, .sent _ => some (s, .draining)
  | .draining, .proceed => some (s.drain, .finished)
  | _, _ => none

/-- The session with its goroutines. -/
def system : TaskSystem Shared Start Task Event Empty where
  init _ := start
  task := task
  env _ := Empty.elim

abbrev State := TaskSystem.State Shared Task

abbrev Step := TaskSystem.Event Start Event Empty

/-- A new session. -/
def init : State := { shared := {}, tasks := [] }

end ReplaySession

end TdSandboxed
