/-
TdSandboxed.Execution.ValidatedAdapterSteps — what one step of a call can
do, said once.

`Call.step` has a branch for every pair of an await and what may happen
there. `Call.Moves` sorts these branches by what they change: which of
the counter, the tracker and the pending orders move, and how the phase
moves with them. `Call.moves` is the only place where `Call.step` is
unfolded; every invariant of the calls is a case analysis over `Moves`.
-/
import TdSandboxed.Execution.ValidatedAdapter

namespace TdSandboxed

/-! ## Kinds of phases -/

namespace Phase

/-- An accepted reservation is held: the counter contains its lots and a
release is still to come. -/
def held : Phase → Bool
  | .reserved _ res => res.accepted
  | .sending h | .awaiting h | .readingBalance h _ | .updatingEquity h _ _
  | .persistingRisk h _ | .savingBalance h _ => h
  | .releasing _ => true
  | _ => false

/-- The stretches of a call. -/
inductive Kind
  /-- Not handed to the gateway yet. -/
  | gating
  /-- Handed to the gateway, no result seen. -/
  | waiting
  /-- A filled result is seen and the tracker is being created. -/
  | loading
  /-- The tracker has taken the fill and its bookkeeping is going on. -/
  | tracking
  | leaving
  deriving DecidableEq

def kind : Phase → Kind
  | .created | .reserving _ | .readingReserved _ | .reserved _ _ => .gating
  | .sending _ | .awaiting _ => .waiting
  | .readingBalance _ _ => .loading
  | .updatingEquity _ _ _ | .persistingRisk _ _ | .savingBalance _ _ => .tracking
  | .releasing _ | .released _ | .finished _ => .leaving

/-- On the way out, with this outcome. -/
def leaving? : Phase → Option Outcome
  | .releasing out | .released out | .finished out => some out
  | _ => none

def isFinished : Phase → Bool
  | .finished _ => true
  | _ => false

@[simp] theorem held_gating : held created = false ∧ (∀ g, held (reserving g) = false) ∧
    (∀ g, held (readingReserved g) = false) ∧ ∀ g res, held (reserved g res) = res.accepted :=
  ⟨rfl, fun _ => rfl, fun _ => rfl, fun _ _ => rfl⟩

@[simp] theorem held_waiting : (∀ h, held (sending h) = h) ∧ ∀ h, held (awaiting h) = h :=
  ⟨fun _ => rfl, fun _ => rfl⟩

@[simp] theorem held_told : (∀ h r, held (readingBalance h r) = h) ∧
    (∀ h r q, held (updatingEquity h r q) = h) ∧ (∀ h r, held (persistingRisk h r) = h) ∧
    ∀ h r, held (savingBalance h r) = h :=
  ⟨fun _ _ => rfl, fun _ _ _ => rfl, fun _ _ => rfl, fun _ _ => rfl⟩

@[simp] theorem held_leaving : (∀ out, held (releasing out) = true) ∧
    (∀ out, held (released out) = false) ∧ ∀ out, held (finished out) = false :=
  ⟨fun _ => rfl, fun _ => rfl, fun _ => rfl⟩

@[simp] theorem kind_gating : kind created = .gating ∧ (∀ g, kind (reserving g) = .gating) ∧
    (∀ g, kind (readingReserved g) = .gating) ∧ ∀ g res, kind (reserved g res) = .gating :=
  ⟨rfl, fun _ => rfl, fun _ => rfl, fun _ _ => rfl⟩

@[simp] theorem kind_waiting : (∀ h, kind (sending h) = .waiting) ∧
    ∀ h, kind (awaiting h) = .waiting :=
  ⟨fun _ => rfl, fun _ => rfl⟩

@[simp] theorem kind_told : (∀ h r, kind (readingBalance h r) = .loading) ∧
    (∀ h r q, kind (updatingEquity h r q) = .tracking) ∧
    (∀ h r, kind (persistingRisk h r) = .tracking) ∧
    ∀ h r, kind (savingBalance h r) = .tracking :=
  ⟨fun _ _ => rfl, fun _ _ _ => rfl, fun _ _ => rfl, fun _ _ => rfl⟩

@[simp] theorem kind_leaving : (∀ out, kind (releasing out) = .leaving) ∧
    (∀ out, kind (released out) = .leaving) ∧ ∀ out, kind (finished out) = .leaving :=
  ⟨fun _ => rfl, fun _ => rfl, fun _ => rfl⟩

@[simp] theorem leaving?_leaving : (∀ out, leaving? (releasing out) = some out) ∧
    (∀ out, leaving? (released out) = some out) ∧ ∀ out, leaving? (finished out) = some out :=
  ⟨fun _ => rfl, fun _ => rfl, fun _ => rfl⟩

end Phase

/-! ## Fields after a step -/

namespace Call

section
variable {c : Call} {held : Bool} {out : Outcome} {p : Phase}

@[simp] theorem goto_phase : (c.goto p).phase = p := rfl
@[simp] theorem goto_order : (c.goto p).order = c.order := rfl
@[simp] theorem goto_sent : (c.goto p).sent = c.sent := rfl
@[simp] theorem goto_recorded : (c.goto p).recorded = c.recorded := rfl

@[simp] theorem leave_order : (c.leave held out).order = c.order := rfl
@[simp] theorem leave_sent : (c.leave held out).sent = c.sent := rfl
@[simp] theorem leave_recorded : (c.leave held out).recorded = c.recorded := rfl

@[simp] theorem leave_held : (c.leave held out).phase.held = held := by
  cases held <;> rfl

@[simp] theorem leave_leaving? : (c.leave held out).phase.leaving? = some out := by
  cases held <;> rfl

@[simp] theorem leave_kind : (c.leave held out).phase.kind = .leaving := by
  cases held <;> rfl

end

/-! ## What a step can do -/

/-- The steps of a call, sorted by what they change. -/
inductive Moves (w : Wiring) (sh : Shared) (i : ℕ) (c : Call) : CallEvent → Shared → Call → Prop
  /-- Allowed by the rules, and the gate is asked. -/
  | toGate {now g p} :
      c.phase = .created →
      (w.validator.validateOrder now c.order (buildAccountState w sh.books c.order)).isBlocked = false →
      (gateHead w c.order (buildAccountState w sh.books c.order) = .evalsha g ∧ p = .reserving g ∨
        gateHead w c.order (buildAccountState w sh.books c.order) = .readCounter g ∧
          p = .readingReserved g) →
      Moves w sh i c (.start now) sh (c.goto p)
  /-- Allowed by the rules, and the gate is not engaged. -/
  | ungated {now} :
      c.phase = .created →
      (w.validator.validateOrder now c.order (buildAccountState w sh.books c.order)).isBlocked = false →
      gateHead w c.order (buildAccountState w sh.books c.order) = .skip →
      Moves w sh i c (.start now) (hand sh i c false).1 (hand sh i c false).2
  | reserve {g} :
      c.phase = .reserving g →
      Moves w sh i c .script
        (sh.setReserved c.order.accountId
          (atomicReserve (sh.books.reserved c.order.accountId) c.order.volume g.cap).2)
        (c.goto (.reserved g
          (atomicReserve (sh.books.reserved c.order.accountId) c.order.volume g.cap).1))
  | readCounter {g res} :
      c.phase = .readingReserved g → res.accepted = false →
      Moves w sh i c .script sh (c.goto (.reserved g res))
  /-- The reservation was accepted. -/
  | admitted {g res} :
      c.phase = .reserved g res → res.accepted = true →
      Moves w sh i c .reply (hand sh i c true).1 (hand sh i c true).2
  /-- Redis raised: the order goes out without a reservation. -/
  | gateFailed {x} :
      c.phase.kind = .gating → c.phase ≠ .created →
      Moves w sh i c (.fail x) (hand sh i c false).1 (hand sh i c false).2
  /-- Blocked by a rule. -/
  | blocked {now x} :
      c.phase = .created →
      (w.validator.validateOrder now c.order (buildAccountState w sh.books c.order)).isBlocked = true →
      Moves w sh i c (.start now) sh (c.goto (.finished (.raised (.blocked x))))
  /-- Rejected by the gate. -/
  | rejected {g res x} :
      c.phase = .reserved g res → res.accepted = false →
      Moves w sh i c .reply sh (c.goto (.finished (.raised (.blocked x))))
  | gateCancelled :
      c.phase.kind = .gating →
      Moves w sh i c .cancel sh (c.goto (.finished (.raised .cancelled)))
  | sent {held} :
      c.phase = .sending held → Moves w sh i c .reply sh (c.goto (.awaiting held))
  /-- The send raises or is cancelled. -/
  | unsent {held e x} :
      c.phase = .sending held → ((∃ s, e = .fail s ∧ x = .other s) ∨ e = .cancel ∧ x = .cancelled) →
      Moves w sh i c e sh (c.leave held (.raised x))
  | timedOut {held} :
      c.phase = .awaiting held →
      Moves w sh i c .timeout { sh with zmq := sh.zmq.timeOut c.order.orderId i }
        (c.leave held (.raised .timeout))
  | waitCancelled {held} :
      c.phase = .awaiting held →
      Moves w sh i c .cancel { sh with zmq := sh.zmq.cancelWait i }
        (c.leave held (.raised .cancelled))
  /-- A filled result, and the account has a tracker. -/
  | recordFill {held r t} :
      c.phase = .awaiting held → sh.zmq.futures i = some (.done r) →
      w.pnlRegistry = true → r.isFilled = true → sh.books.pnl c.order.accountId = some t →
      Moves w sh i c .reply (record sh c held r t).1 (record sh c held r t).2
  /-- A filled result, and the tracker has to be created. -/
  | loadBalance {held r} :
      c.phase = .awaiting held → sh.zmq.futures i = some (.done r) →
      w.pnlRegistry = true → r.isFilled = true → sh.books.pnl c.order.accountId = none →
      w.registryRedis = true →
      Moves w sh i c .reply sh (c.goto (.readingBalance held r))
  /-- A filled result, and no tracker can be had. -/
  | noTracker {held r x} :
      c.phase = .awaiting held → sh.zmq.futures i = some (.done r) →
      w.pnlRegistry = true → r.isFilled = true → sh.books.pnl c.order.accountId = none →
      w.registryRedis = false →
      Moves w sh i c .reply sh (c.leave held (.raised (.other x)))
  /-- A result the tracker is not told of. -/
  | untold {held r} :
      c.phase = .awaiting held → sh.zmq.futures i = some (.done r) →
      (w.pnlRegistry && r.isFilled) = false →
      Moves w sh i c .reply sh (c.leave held (.returned r))
  | createTracker {held r b} :
      c.phase = .readingBalance held r →
      Moves w sh i c (.balance b) (record sh c held r (.init c.order.accountId (b.getD 0))).1
        (record sh c held r (.init c.order.accountId (b.getD 0))).2
  | equityLoaded {held r equity stored rs} :
      c.phase = .updatingEquity held r equity →
      Moves w sh i c (.riskLoaded stored)
        (sh.setRisk c.order.accountId rs) (c.goto (.persistingRisk held r))
  | balanceNext {held r} :
      c.phase = .persistingRisk held r → w.registryRedis = true →
      Moves w sh i c .reply sh (c.goto (.savingBalance held r))
  /-- The tracker's bookkeeping is done. -/
  | kept {held r} :
      c.phase = .persistingRisk held r ∨ c.phase = .savingBalance held r →
      Moves w sh i c .reply sh (c.leave held (.returned r))
  /-- The tracker raises, or the call is cancelled while it works. -/
  | trackerFailed {e held x} :
      c.phase.kind = .loading ∨ c.phase.kind = .tracking → c.phase.held = held →
      ((∃ s, e = .fail s ∧ x = .other s) ∨ e = .cancel ∧ x = .cancelled) →
      Moves w sh i c e sh (c.leave held (.raised x))
  | release {out} :
      c.phase = .releasing out →
      Moves w sh i c .script
        (sh.setReserved c.order.accountId
          (atomicRelease (sh.books.reserved c.order.accountId) c.order.volume))
        (c.goto (.released out))
  | settled {e out} :
      c.phase = .released out ∧ e = .reply ∨
        (c.phase = .releasing out ∨ c.phase = .released out) ∧ (∃ x, e = .fail x) →
      Moves w sh i c e sh (c.goto (.finished out))
  | releaseCancelled {out} :
      c.phase = .releasing out ∨ c.phase = .released out →
      Moves w sh i c .cancel sh (c.goto (.finished (.raised .cancelled)))

section
variable {w : Wiring} {sh : Shared} {i : ℕ} {c : Call} {held : Bool} {r : OrderResult}

theorem wake_moves (hp : c.phase = .awaiting held) (hf : sh.zmq.futures i = some (.done r)) :
    Moves w sh i c .reply (wake w sh c held r).1 (wake w sh c held r).2 := by
  unfold wake
  split
  · rename_i htold
    simp only [Bool.and_eq_true] at htold
    cases ht : sh.books.pnl c.order.accountId with
    | some t => exact .recordFill hp hf htold.1 htold.2 ht
    | none =>
      dsimp only
      split
      · rename_i hr
        exact .loadBalance hp hf htold.1 htold.2 ht hr
      · rename_i hr
        exact .noTracker hp hf htold.1 htold.2 ht (by simpa using hr)
  · rename_i htold
    exact .untold hp hf (by simpa using htold)

theorem start_moves {now : ℚ} (hp : c.phase = .created) :
    Moves w sh i c (.start now) (start w sh i c now).1 (start w sh i c now).2 := by
  unfold start
  dsimp only
  split
  · rename_i hb
    exact .blocked hp hb
  · rename_i hb
    have hb' := Bool.eq_false_of_not_eq_true hb
    split
    · rename_i hg
      exact .ungated hp hb' hg
    · rename_i g hg
      exact .toGate hp hb' (.inr ⟨hg, rfl⟩)
    · rename_i g hg
      exact .toGate hp hb' (.inl ⟨hg, rfl⟩)

theorem Moves.of_eq {e : CallEvent} {p : Shared × Call} {sh' : Shared} {c' : Call}
    (h : some p = some (sh', c')) (hm : Moves w sh i c e p.1 p.2) : Moves w sh i c e sh' c' := by
  obtain rfl := Option.some.inj h
  exact hm

/-- **Every step of a call is one of the moves.** -/
theorem moves {e : CallEvent} {sh' : Shared} {c' : Call}
    (h : step w sh i c e = some (sh', c')) : Moves w sh i c e sh' c' := by
  unfold step at h
  dsimp only at h
  split at h
  case h_1 => exact .of_eq h (start_moves ‹_›)
  case h_2 => exact .of_eq h (.gateCancelled (by simp [*]))
  -- the gate
  case h_3 => exact .of_eq h (.reserve ‹_›)
  case h_4 => exact .of_eq h (.readCounter ‹_› rfl)
  case h_5 =>
    split at h
    · exact .of_eq h (.admitted ‹_› ‹_›)
    · exact .of_eq h (.rejected ‹_› (Bool.eq_false_of_not_eq_true ‹_›))
  case h_6 | h_7 | h_8 => exact .of_eq h (.gateFailed (by simp [*]) (by simp [*]))
  case h_9 | h_10 | h_11 => exact .of_eq h (.gateCancelled (by simp [*]))
  -- the gateway
  case h_12 => exact .of_eq h (.sent ‹_›)
  case h_13 => exact .of_eq h (.unsent ‹_› (.inl ⟨_, rfl, rfl⟩))
  case h_14 => exact .of_eq h (.unsent ‹_› (.inr ⟨rfl, rfl⟩))
  case h_15 =>
    split at h
    · exact .of_eq h (wake_moves ‹_› ‹_›)
    · contradiction
  case h_16 => exact .of_eq h (.timedOut ‹_›)
  case h_17 => exact .of_eq h (.waitCancelled ‹_›)
  -- the tracker
  case h_18 => exact .of_eq h (.createTracker ‹_›)
  case h_19 => exact .of_eq h (.equityLoaded ‹_›)
  case h_20 =>
    cases hr : w.registryRedis with
    | true =>
      rw [hr] at h
      exact .of_eq h (.balanceNext ‹_› hr)
    | false =>
      rw [hr] at h
      exact .of_eq h (.kept (.inl ‹_›))
  case h_21 => exact .of_eq h (.kept (.inr ‹_›))
  case h_22 | h_23 | h_24 | h_25 =>
    exact .of_eq h (.trackerFailed (by simp [*]) (by simp [*]) (.inl ⟨_, rfl, rfl⟩))
  case h_26 | h_27 | h_28 | h_29 =>
    exact .of_eq h (.trackerFailed (by simp [*]) (by simp [*]) (.inr ⟨rfl, rfl⟩))
  -- the release
  case h_30 => exact .of_eq h (.release ‹_›)
  case h_31 => exact .of_eq h (.settled (.inl ⟨‹_›, rfl⟩))
  case h_32 => exact .of_eq h (.settled (.inr ⟨.inl ‹_›, _, rfl⟩))
  case h_33 => exact .of_eq h (.settled (.inr ⟨.inr ‹_›, _, rfl⟩))
  case h_34 => exact .of_eq h (.releaseCancelled (.inl ‹_›))
  case h_35 => exact .of_eq h (.releaseCancelled (.inr ‹_›))
  case h_36 => contradiction

end

end Call

end TdSandboxed
