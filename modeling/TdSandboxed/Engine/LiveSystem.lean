/-
TdSandboxed.Engine.LiveSystem — the live engine as one task system.

Its tasks are the calls of `dispatch_submit_order` that the accounts'
clients make and the account-manager operations of whoever changes a
status: the risk-isolation handler, the emergency stop, the crash isolation
of `LiveOrchestrator._isolate_failed_session`, the command line. They share
the validated adapter's books, the gateway and the statuses in Redis.

An order is submitted when `dispatch_submit_order` starts on it: it is
translated and checked in one stretch. `Submission.halted` is history. It
says that the account was paused, stopped or in error at that moment, and
no step reads it.
-/
import TdSandboxed.Accounts.AccountManager
import TdSandboxed.Engine.OrderTranslator
import TdSandboxed.Execution.ValidatedAdapterSteps

namespace TdSandboxed

open Lib

structure EngineShared where
  adapter : Shared := {}
  manager : AccountManager

/-! ## Submissions -/

inductive SubmissionPhase
  | created
  | denied (reason : String)
  | cancelled
  /-- In `send_order_and_wait`, or past it. -/
  | running (c : Call)

/-- `dispatch_submit_order` on an account's client. -/
structure Submission where
  order : NautilusOrder
  account : AccountId
  phase : SubmissionPhase := .created
  halted : Bool := false

namespace Submission

/-- The order was handed to the gateway's `send_order_and_wait`. -/
def sent (u : Submission) : Bool :=
  match u.phase with
  | .running c => c.sent
  | _ => false

/-- Translate and, if that works, run the call's first stretch. -/
def start (w : Wiring) (sh : EngineShared) (i : ℕ) (u : Submission) (now : ℚ) :
    EngineShared × Submission :=
  let u := { u with halted := Halted (sh.manager.status u.account.id) }
  match toInternalOrder u.order u.account with
  | .error reason => (sh, { u with phase := .denied reason })
  | .ok o =>
    let (adapter, c) := Call.start w sh.adapter i { order := o } now
    ({ sh with adapter }, { u with phase := .running c })

def step (w : Wiring) (sh : EngineShared) (i : ℕ) (u : Submission) (e : CallEvent) :
    Option (EngineShared × Submission) :=
  match u.phase, e with
  | .created, .start now => some (start w sh i u now)
  | .created, .cancel => some (sh, { u with phase := .cancelled })
  | .running c, e =>
    (Call.step w sh.adapter i c e).map fun (adapter, c) =>
      ({ sh with adapter }, { u with phase := .running c })
  | _, _ => none

end Submission

/-! ## The system -/

inductive EngineTask
  | submit (u : Submission)
  | manage (c : AccountCall)

inductive EngineArgs
  | submit (n : NautilusOrder) (account : AccountId)
  | manage (operation : Operation) (accountId : String)

inductive EngineTaskEvent
  | submit (e : CallEvent)
  | manage (e : OperationEvent)

inductive EngineEnv
  | adapter (e : EnvEvent)
  /-- Another writer sets a status: the resumer, a spawned account. -/
  | status (a : String) (s : AccountState)

def EngineTask.init : EngineArgs → EngineTask
  | .submit order account => .submit { order, account }
  | .manage operation accountId => .manage { operation, accountId }

def EngineTask.step (w : Wiring) (sh : EngineShared) (i : ℕ) :
    EngineTask → EngineTaskEvent → Option (EngineShared × EngineTask)
  | .submit u, .submit e => (u.step w sh i e).map fun (sh, u) => (sh, .submit u)
  | .manage c, .manage e =>
    (c.step sh.manager e).map fun (manager, c) => ({ sh with manager }, .manage c)
  | _, _ => none

def liveEnvStep (sh : EngineShared) : EngineEnv → Option EngineShared
  | .adapter e => (envStep sh.adapter e).map fun adapter => { sh with adapter }
  | .status a s => some { sh with manager := sh.manager.saveAccountStatus a s }

/-- Any number of submissions and account operations. -/
def liveSystem (w : Wiring) :
    TaskSystem EngineShared EngineArgs EngineTask EngineTaskEvent EngineEnv where
  init _ := EngineTask.init
  task := EngineTask.step w
  env := liveEnvStep

abbrev LiveState := TaskSystem.State EngineShared EngineTask
abbrev LiveEvent := TaskSystem.Event EngineArgs EngineTaskEvent EngineEnv

/-! ## What a submission's step can do -/

/-- The steps of a submission: the first stretch, a cancellation before it,
or a step of the call. -/
theorem Submission.step_cases {w : Wiring} {sh sh' : EngineShared} {i : ℕ} {u u' : Submission}
    {e : CallEvent} (h : u.step w sh i e = some (sh', u')) :
    (∃ now, e = .start now ∧ u.phase = .created ∧ (sh', u') = start w sh i u now) ∨
    (e = .cancel ∧ u.phase = .created ∧ sh' = sh ∧ u' = { u with phase := .cancelled }) ∨
    ∃ c adapter c', u.phase = .running c ∧ Call.step w sh.adapter i c e = some (adapter, c') ∧
      sh' = { sh with adapter } ∧ u' = { u with phase := .running c' } := by
  unfold step at h
  split at h
  case h_1 now hp => exact .inl ⟨now, rfl, hp, (Option.some.inj h).symm⟩
  case h_2 hp =>
    obtain ⟨rfl, rfl⟩ := Prod.mk.inj (Option.some.inj h)
    exact .inr (.inl ⟨rfl, hp, rfl, rfl⟩)
  case h_3 c hp =>
    obtain ⟨⟨adapter, c'⟩, hc, hpair⟩ := Option.map_eq_some_iff.mp h
    obtain ⟨rfl, rfl⟩ := Prod.mk.inj hpair
    exact .inr (.inr ⟨c, adapter, c', hp, hc, rfl, rfl⟩)
  case h_4 => contradiction

/-- The steps of a task: a submission's or an operation's. -/
theorem EngineTask.step_cases {w : Wiring} {sh sh' : EngineShared} {i : ℕ} {t t' : EngineTask}
    {e : EngineTaskEvent} (h : t.step w sh i e = some (sh', t')) :
    (∃ u d u', t = .submit u ∧ e = .submit d ∧ u.step w sh i d = some (sh', u') ∧
      t' = .submit u') ∨
    ∃ c d m c', t = .manage c ∧ e = .manage d ∧ c.step sh.manager d = some (m, c') ∧
      sh' = { sh with manager := m } ∧ t' = .manage c' := by
  unfold step at h
  split at h
  case h_1 u d =>
    obtain ⟨⟨sh₁, u'⟩, hu, hpair⟩ := Option.map_eq_some_iff.mp h
    obtain ⟨rfl, rfl⟩ := Prod.mk.inj hpair
    exact .inl ⟨u, d, u', rfl, rfl, hu, rfl⟩
  case h_2 c d =>
    obtain ⟨⟨m, c'⟩, hc, hpair⟩ := Option.map_eq_some_iff.mp h
    obtain ⟨rfl, rfl⟩ := Prod.mk.inj hpair
    exact .inr ⟨c, d, m, c', rfl, rfl, hc, rfl, rfl⟩
  case h_3 => contradiction

end TdSandboxed
