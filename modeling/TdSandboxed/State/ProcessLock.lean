/-
TdSandboxed.State.ProcessLock — the process lock
(`state/crash_recovery.py`).

The engine instances that share one Redis. The lock is one key with a
time to live: an instance sets it when the key is free, its heartbeat
extends it, and its shutdown deletes it. Neither the heartbeat nor the
shutdown looks at the value of the key.

* A command is sent, executed by the server and answered; anything may
  happen in between. A command whose sender no longer waits for it (the
  await raised, the task was cancelled, the process died) is a stray: the
  server may still execute it.
* Instances are numbered, and the number stands for the value
  `hostname:pid:timestamp` that an instance writes.
* Time is in whole seconds. A heartbeat sleeps at least its interval.
* Of the commands on the clean-shutdown flag only the awaits are kept.
-/
import Mathlib.Logic.Function.Basic
import TdSandboxed.Lib.Run

namespace TdSandboxed

/-- `LOCK_TTL_SECONDS` -/
def lockTtlSeconds : ℕ := 60

/-- `HEARTBEAT_TTL_SECONDS / 2` -/
def heartbeatInterval : ℕ := 15

inductive LockCommand
  /-- `SET NX EX` -/
  | acquire
  /-- `EXPIRE` -/
  | refresh
  /-- `DEL` -/
  | release
  deriving DecidableEq

/-- Where an instance is. A command that was sent comes with its reply once
the server has executed it. -/
inductive LockPhase
  | idle
  | acquiring (reply : Option Bool)
  /-- The lock was acquired: `clear_clean_shutdown_flag`. -/
  | clearingFlag
  /-- The heartbeat sleeps. -/
  | sleeping (wake : ℕ)
  | refreshing (reply : Option Bool)
  /-- The heartbeat found the key gone and has reported the loss. -/
  | lost
  /-- `shutdown_sequence`: the heartbeat is stopped, the flag is being set. -/
  | settingFlag
  | releasing (reply : Option Bool)
  | ended
  deriving DecidableEq

namespace LockPhase

/-- The command the server has still to execute. -/
def pending : LockPhase → Option LockCommand
  | .acquiring none => some .acquire
  | .refreshing none => some .refresh
  | .releasing none => some .release
  | _ => none

/-- From the lock's acquisition until the heartbeat is stopped or finds the
lock lost. -/
def believes : LockPhase → Bool
  | .clearingFlag | .sleeping _ | .refreshing _ => true
  | _ => false

/-- The server has executed an acquisition or extension with success. -/
def granted : LockPhase → Bool
  | .acquiring (some true) | .refreshing (some true) => true
  | _ => false

end LockPhase

/-- The lock key: who set it, and when it expires. -/
structure LockKey where
  owner : ℕ
  deadline : ℕ
  deriving DecidableEq

/-- Redis and the instances. The last three fields are history. -/
structure LockSystem where
  now : ℕ := 0
  key : Option LockKey := none
  phase : ℕ → LockPhase := fun _ => .idle
  strays : List (ℕ × LockCommand) := []
  /-- When the time to live ends that the instance last gave to the key,
  unless it has deleted the key since. -/
  own : ℕ → Option ℕ := fun _ => none
  /-- Since the last expiry the server has executed an acquisition or a
  heartbeat the instance was waiting for. -/
  fresh : ℕ → Bool := fun _ => false
  /-- Since the last expiry the instance has completed an acquisition or a
  heartbeat. -/
  current : ℕ → Bool := fun _ => false

inductive LockEvent
  /-- A second passes. -/
  | tick
  | start (i : ℕ)
  /-- The server executes the command the instance waits for. -/
  | execute (i : ℕ)
  /-- The await completes. -/
  | reply (i : ℕ)
  /-- The await raises. -/
  | fail (i : ℕ)
  /-- The heartbeat wakes up. -/
  | beat (i : ℕ)
  /-- `shutdown_sequence` -/
  | shutdown (i : ℕ)
  /-- The process dies. -/
  | crash (i : ℕ)
  /-- The server executes a command nobody waits for. -/
  | stray (i : ℕ) (c : LockCommand)

/-- The instance an event is about. -/
def LockEvent.actor : LockEvent → Option ℕ
  | .tick => none
  | .start i | .execute i | .reply i | .fail i | .beat i | .shutdown i | .crash i | .stray i _ =>
    some i

namespace LockSystem

def goto (s : LockSystem) (i : ℕ) (p : LockPhase) : LockSystem :=
  { s with phase := Function.update s.phase i p }

/-- The instance no longer waits for its command. -/
def abandon (s : LockSystem) (i : ℕ) (p : LockPhase) : LockSystem :=
  { s with strays := (s.phase i).pending.toList.map (i, ·) ++ s.strays }.goto i p

def write (s : LockSystem) (i : ℕ) (k : LockKey) : LockSystem :=
  { s with key := some k, own := Function.update s.own i (some k.deadline) }

def delete (s : LockSystem) (i : ℕ) : LockSystem :=
  { s with key := none, own := Function.update s.own i none }

/-- The server executes a command of an instance. -/
def run (s : LockSystem) (i : ℕ) : LockCommand → LockSystem × Bool
  | .acquire =>
    match s.key with
    | none => (s.write i { owner := i, deadline := s.now + lockTtlSeconds }, true)
    | some _ => (s, false)
  | .refresh =>
    match s.key with
    | none => (s, false)
    -- the owner is not compared
    | some k => (s.write i { k with deadline := s.now + lockTtlSeconds }, true)
  | .release => (s.delete i, s.key.isSome)

/-- A key whose time is over is gone. -/
def expire (s : LockSystem) : LockSystem :=
  match s.key with
  | none => s
  | some k =>
    if k.deadline ≤ s.now then
      { s with key := none, fresh := fun _ => false, current := fun _ => false }
    else s

def tick (s : LockSystem) : LockSystem := { s with now := s.now + 1 }.expire

def setFresh (s : LockSystem) (i : ℕ) : LockSystem :=
  { s with fresh := Function.update s.fresh i true }

/-- An acquisition or a heartbeat has completed. -/
def completed (s : LockSystem) (i : ℕ) : LockSystem :=
  { s with current := Function.update s.current i (s.fresh i) }

/-- The server answers the command the instance waits for. -/
def answer (s : LockSystem) (i : ℕ) : Option LockSystem :=
  match s.phase i with
  | .acquiring none =>
    let (t, r) := s.run i .acquire
    some ((t.setFresh i).goto i (.acquiring (some r)))
  | .refreshing none =>
    let (t, r) := s.run i .refresh
    some ((t.setFresh i).goto i (.refreshing (some r)))
  | .releasing none =>
    let (t, r) := s.run i .release
    some (t.goto i (.releasing (some r)))
  | _ => none

/-- The instance goes on after an await. -/
def resume (s : LockSystem) (i : ℕ) : Option LockSystem :=
  match s.phase i with
  | .acquiring (some true) => some ((s.completed i).goto i .clearingFlag)
  -- "Another instance is already running."
  | .acquiring (some false) => some (s.goto i .ended)
  | .clearingFlag => some (s.goto i (.sleeping s.now))
  | .refreshing (some true) =>
    some ((s.completed i).goto i (.sleeping (s.now + heartbeatInterval)))
  | .refreshing (some false) => some (s.goto i .lost)
  | .settingFlag => some (s.goto i (.releasing none))
  | .releasing (some _) => some (s.goto i .ended)
  | _ => none

/-- The await raises. A heartbeat that fails is only logged. -/
def raise (s : LockSystem) (i : ℕ) : Option LockSystem :=
  match s.phase i with
  | .refreshing _ => some (s.abandon i (.sleeping (s.now + heartbeatInterval)))
  | .acquiring _ | .clearingFlag | .settingFlag | .releasing _ => some (s.abandon i .ended)
  | _ => none

def step (s : LockSystem) : LockEvent → Option LockSystem
  | .tick => some s.tick
  | .start i => if s.phase i = .idle then some (s.goto i (.acquiring none)) else none
  | .execute i => s.answer i
  | .reply i => s.resume i
  | .fail i => s.raise i
  | .beat i =>
    match s.phase i with
    | .sleeping wake => if wake ≤ s.now then some (s.goto i (.refreshing none)) else none
    | _ => none
  | .shutdown i =>
    match s.phase i with
    | .sleeping _ | .refreshing _ | .lost => some (s.abandon i .settingFlag)
    | _ => none
  | .crash i =>
    match s.phase i with
    | .idle | .ended => none
    | _ => some (s.abandon i .ended)
  | .stray i c =>
    if (i, c) ∈ s.strays then some ({ s with strays := s.strays.erase (i, c) }.run i c).1 else none

/-- The command the server executes in a step. -/
def command (s : LockSystem) : LockEvent → Option (ℕ × LockCommand)
  | .execute i => (s.phase i).pending.map (i, ·)
  | .stray i c => some (i, c)
  | _ => none

/-- The time lasts that the instance last gave to the key, or there is no
key. -/
def Timely (s : LockSystem) (i : ℕ) : Prop := s.key ≠ none → ∃ d ∈ s.own i, s.now < d

instance (s : LockSystem) (i : ℕ) : Decidable (s.Timely i) := inferInstanceAs (Decidable (_ → _))

/-- An instance that extends or deletes the lock is timely. -/
def WithinTtl (s : LockSystem) (e : LockEvent) : Prop :=
  ∀ ic ∈ s.command e, ic.2 ≠ .acquire → s.Timely ic.1

instance (s : LockSystem) (e : LockEvent) : Decidable (s.WithinTtl e) :=
  inferInstanceAs (Decidable (∀ _ ∈ _, _))

/-- An instance extends or deletes a lock that another instance acquired. -/
def TouchesForeign (s : LockSystem) (e : LockEvent) : Prop :=
  ∃ ic ∈ s.command e, ic.2 ≠ .acquire ∧ ∃ k ∈ s.key, k.owner ≠ ic.1

instance (s : LockSystem) (e : LockEvent) : Decidable (s.TouchesForeign e) :=
  inferInstanceAs (Decidable (∃ _ ∈ _, _))

/-- The instance is the one that set the key. -/
def Owns (s : LockSystem) (i : ℕ) : Prop := ∃ d, s.key = some { owner := i, deadline := d }

/-- At most one instance believes it holds the lock, once every running
instance has completed a heartbeat since the last expiry. -/
def Exclusive (s : LockSystem) : Prop :=
  (∀ i, (s.phase i).believes → s.current i) →
    ∀ i j, (s.phase i).believes → (s.phase j).believes → i = j

end LockSystem

end TdSandboxed
