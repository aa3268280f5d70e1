/-
TdSandboxed.State.EmergencyStopTheorems — what an emergency stop leaves
open.

The handler closes what MT5 held when it answered the position query and
pauses the account afterwards. An order of the account's strategy that is
on its way to MT5 by then, or is submitted before the pause, is executed
after the answer and nobody closes it. `flat_at_confirmation_iff` is exact:
the account is flat when the confirmation goes out if and only if these
late executions net out.

MT5 is a netting venue, as the execution client declares it: a book of
signed volumes by symbol for each account. It may execute an order that was
handed to the gateway at any later moment, also after the account is
paused.
-/
import TdSandboxed.Engine.PauseTheorems
import TdSandboxed.Lib.Netting
import TdSandboxed.State.EmergencyStop

namespace TdSandboxed

open Lib Lib.Netting

/-- Signed volumes by symbol. -/
abbrev Book := List (String × ℚ)

/-- No open position. -/
def Flat (b : Book) : Prop := ∀ symbol, net symbol b = 0

/-! ## Engine, handler and venue -/

structure StopState where
  live : LiveState
  handler : StopHandler
  /-- What MT5 executed, by account. -/
  book : String → Book
  /-- The submissions MT5 has executed. -/
  executed : List ℕ := []
  /-- History: what MT5 executed of the strategies' orders since it answered
  the account's position query. -/
  late : String → Book := fun _ => []

inductive StopEvent
  | live (e : LiveEvent)
  | handler (e : StopHandlerEvent)
  /-- MT5 answers the position query. -/
  | answer (positions : List MT5Position)
  /-- MT5 executes this much of the close order. -/
  | close (volume : ℚ) (r : OrderResult)
  /-- MT5 executes this much of a strategy's order. -/
  | execute (i : ℕ) (volume : ℚ)

/-- The order a task has handed to the gateway. -/
def EngineTask.sentOrder : EngineTask → Option Order
  | .submit u =>
    match u.phase with
    | .running c => if c.sent then some c.order else none
    | _ => none
  | .manage _ => none

def bookEntry (f : String → Book) (a : String) (x : String × ℚ) : String → Book :=
  Function.update f a (f a ++ [x])

namespace StopState

def setManager (s : StopState) (m : AccountManager) : StopState :=
  { s with live := { s.live with shared := { s.live.shared with manager := m } } }

def step (w : Wiring) (s : StopState) : StopEvent → Option StopState
  | .live e => ((liveSystem w).step s.live e).map fun live => { s with live }
  | .handler e =>
    (s.handler.step s.live.shared.manager e).map fun (m, handler) =>
      { s.setManager m with handler }
  | .answer positions =>
    match s.handler.phase with
    | .querying a => some
      { s with handler := s.handler.goto (.answered a positions)
               late := Function.update s.late a.id [] }
    | _ => none
  | .close volume r =>
    match s.handler.phase with
    | .closing a o rest closed => some
      { s with handler := s.handler.goto (.closeAnswered a r rest closed)
               book := bookEntry s.book o.accountId (o.symbol, o.action.sign * volume) }
    | _ => none
  | .execute i volume =>
    match s.live.tasks[i]?.bind EngineTask.sentOrder with
    | some o =>
      if i ∉ s.executed ∧ 0 < volume ∧ volume ≤ o.volume then
        let x := (o.symbol, o.action.sign * volume)
        some
          { s with executed := i :: s.executed
                   book := bookEntry s.book o.accountId x
                   late := bookEntry s.late o.accountId x }
      else none
    | none => none

end StopState

/-! ## The assumptions -/

/-- MT5 answers with the positions it holds. -/
structure Holds (positions : List MT5Position) (b : Book) : Prop where
  wellFormed : ∀ p ∈ positions, p.WellFormed
  net : SameNet (positions.map MT5Position.booking) b

instance (positions : List MT5Position) (b : Book) : Decidable (Holds positions b) :=
  decidable_of_iff (_ ∧ _) ⟨fun h => ⟨h.1, h.2⟩, fun h => ⟨h.wellFormed, h.net⟩⟩

/-- The account whose query MT5 has to answer. -/
def StopPhase.query? : StopPhase → Option AccountId
  | .querying a => some a
  | _ => none

/-- The close order MT5 has to deal with. -/
def StopPhase.closeOrder? : StopPhase → Option Order
  | .closing _ o _ _ => some o
  | _ => none

/-- A close raises in this step. -/
def StopHandler.closeFails (h : StopHandler) (e : StopHandlerEvent) : Bool :=
  match h.phase, e with
  | .closing _ _ _ _, .fail _ _ | .closeAnswered _ _ _ _, .fail _ _ => true
  | _, _ => false

/-- Position queries are answered with what MT5 holds at that moment, and
every close order is filled. -/
def StopAssumptions (s : StopState) : StopEvent → Prop
  | .answer positions => ∀ a ∈ s.handler.phase.query?, Holds positions (s.book a.id)
  | .close volume r =>
    ∀ o ∈ s.handler.phase.closeOrder?, volume = o.volume ∧ r.isFilled = true
  | .handler e => s.handler.closeFails e = false
  | .live _ | .execute _ _ => True

instance (s : StopState) : DecidablePred (StopAssumptions s)
  | .answer positions =>
    inferInstanceAs (Decidable (∀ a ∈ s.handler.phase.query?, Holds positions (s.book a.id)))
  | .close volume r =>
    inferInstanceAs (Decidable
      (∀ o ∈ s.handler.phase.closeOrder?, volume = o.volume ∧ r.isFilled = true))
  | .handler e => inferInstanceAs (Decidable (s.handler.closeFails e = false))
  | .live _ | .execute _ _ => .isTrue trivial

/-! ## What the handler has still to close -/

namespace StopPhase

/-- What the handler is still going to close on an account. -/
def pending (a : String) : StopPhase → Book
  | .answered b positions => if b.id = a then positions.map MT5Position.booking else []
  | .closing b o rest _ =>
    if b.id = a then (o.symbol, -o.signed) :: rest.map MT5Position.booking else []
  | .closeAnswered b _ rest _ => if b.id = a then rest.map MT5Position.booking else []
  | _ => []

def positions : StopPhase → List MT5Position
  | .answered _ positions => positions
  | .closing _ _ rest _ | .closeAnswered _ _ rest _ => rest
  | _ => []

/-- Past the loop over the accounts. -/
def isResult : StopPhase → Bool
  | .auditingResult | .publishing | .published | .finished => true
  | _ => false

end StopPhase

namespace StopHandler

/-- The loop is past the account, and no failure names it. -/
structure Clear (h : StopHandler) (a : String) : Prop where
  past : ∀ b ∈ h.todo, b.id ≠ a
  noFailure : ∀ f ∈ h.failures, f.1 ≠ a

/-- MT5 has answered the account's query, and no failure names it. -/
structure Answered (h : StopHandler) (a : String) : Prop extends Clear h a where
  notQuerying : ∀ b, h.phase = .querying b → b.id ≠ a
  notCancelled : h.phase ≠ .cancelled

structure WellFormed (h : StopHandler) : Prop where
  positions : ∀ p ∈ h.phase.positions, p.WellFormed
  account : ∀ a o rest closed, h.phase = .closing a o rest closed → o.accountId = a.id
  todo : h.phase.isResult = true → h.todo = []

/-- The handler leaves an account behind: nothing is pending any more. -/
structure Leaves (h h' : StopHandler) : Prop where
  active : h'.active = h.active
  clear : ∀ a, h'.Answered a → h.Clear a
  pending : ∀ a, h'.phase.pending a = []
  positions : h'.phase.positions = []
  todo : h'.phase.isResult = true → h'.todo = []

/-- What a step of the handler keeps: it answers no query by itself and
drops nothing that is pending, of an account without a failure. -/
structure Keeps (h h' : StopHandler) : Prop where
  active : h'.active = h.active
  wellFormed : h'.WellFormed
  answered : ∀ a, h'.Answered a → h.Answered a
  pending : ∀ a, h'.Answered a → SameNet (h'.phase.pending a) (h.phase.pending a)

section
variable {m m' : AccountManager} {h h₁ h' : StopHandler} {a : AccountId}

theorem Clear.congr {x : String} (hc : h'.Clear x) (htodo : h'.todo = h.todo)
    (hfailures : h'.failures = h.failures) : h.Clear x :=
  ⟨htodo ▸ hc.past, hfailures ▸ hc.noFailure⟩

theorem Clear.of_addFailure {x reason : String} (hc : (h.addFailure a reason).Clear x) :
    h.Clear x ∧ a.id ≠ x := by
  obtain ⟨hpast, hno⟩ := hc
  refine ⟨⟨hpast, fun f hf => hno f ?_⟩, hno (a.id, reason) ?_⟩
  · exact List.mem_append_left _ hf
  · exact List.mem_append_right _ (List.mem_singleton.mpr rfl)

/-- What was left behind from a later state was left behind from here. -/
theorem Leaves.of_clear (hl : Leaves h₁ h') (hactive : h₁.active = h.active)
    (hclear : ∀ x, h₁.Clear x → h.Clear x) : Leaves h h' where
  active := hl.active.trans hactive
  clear := fun x hx => hclear x (hl.clear x hx)
  pending := hl.pending
  positions := hl.positions
  todo := hl.todo

theorem leaves_nextAccount (h : StopHandler) : Leaves h h.nextAccount := by
  unfold nextAccount
  cases htodo : h.todo with
  | nil =>
    refine ⟨rfl, fun x hx => ?_, fun _ => rfl, rfl, fun _ => htodo⟩
    exact hx.toClear.congr rfl rfl
  | cons a rest =>
    refine ⟨rfl, fun x hx => ⟨?_, hx.noFailure⟩, fun _ => rfl, rfl, fun hr => ?_⟩
    · intro b hb
      rw [htodo] at hb
      rcases List.mem_cons.mp hb with rfl | hb
      · exact hx.notQuerying b rfl
      · exact hx.past b hb
    · simp [StopPhase.isResult] at hr

theorem leaves_paused (h : StopHandler) (a : AccountId) (out : OperationOutcome) :
    Leaves h (h.paused a out) := by
  cases out with
  | returned => exact (leaves_nextAccount _).of_clear rfl fun _ hx => hx.congr rfl rfl
  | raised repr =>
    exact (leaves_nextAccount _).of_clear rfl fun _ hx => hx.of_addFailure.1
  | cancelled =>
    refine ⟨rfl, fun x hx => hx.toClear.congr rfl rfl, fun _ => rfl, rfl, fun hr => ?_⟩
    simp [paused, goto, StopPhase.isResult] at hr

theorem leaves_continuePause (h : StopHandler) (a : AccountId) (call : AccountCall) :
    Leaves h (h.continuePause a call) := by
  unfold continuePause
  split
  · exact leaves_paused h a _
  · refine ⟨rfl, fun x hx => hx.toClear.congr rfl rfl, fun _ => rfl, rfl, fun hr => ?_⟩
    simp [goto, StopPhase.isResult] at hr

theorem leaves_pauseAccount (m : AccountManager) (h : StopHandler) (a : AccountId) :
    Leaves h (h.pauseAccount m a) :=
  leaves_continuePause h a _

theorem leaves_flattened (m : AccountManager) (h : StopHandler) (a : AccountId) (closed : ℕ) :
    Leaves h (h.flattened m a closed) :=
  (leaves_pauseAccount m _ a).of_clear rfl fun _ hx => hx.congr rfl rfl

theorem Leaves.wellFormed (hl : Leaves h h') : h'.WellFormed where
  positions := by
    intro p hp
    simp [hl.positions] at hp
  account := by
    intro b o rest closed hphase
    have hpending := hl.pending b.id
    simp [hphase, StopPhase.pending] at hpending
  todo := hl.todo

/-- Leaving is fine when nothing was pending on the accounts in question. -/
theorem Leaves.keeps (hl : Leaves h h')
    (hquery : ∀ x, h'.Answered x → ∀ b, h.phase = .querying b → b.id ≠ x)
    (hcancelled : h.phase ≠ .cancelled)
    (hpending : ∀ x, h'.Answered x → h.phase.pending x = []) : Keeps h h' where
  active := hl.active
  wellFormed := hl.wellFormed
  answered := fun x hx => ⟨hl.clear x hx, hquery x hx, hcancelled⟩
  pending := fun x hx => by
    rw [hl.pending, hpending x hx]
    exact fun _ => rfl

/-- **The loop over the positions** sends a close order for the next one,
and nothing is dropped on the way. -/
theorem keeps_closeNext {uuid : String} {closed : ℕ} {positions : List MT5Position}
    (hp : ∀ p ∈ positions, p.WellFormed) (hquery : ∀ b, h.phase ≠ .querying b)
    (hcancelled : h.phase ≠ .cancelled)
    (hpending : ∀ x, h.phase.pending x =
      if a.id = x then positions.map MT5Position.booking else []) :
    Keeps h (h.closeNext m a uuid closed positions) := by
  cases positions with
  | nil =>
    refine (leaves_flattened m h a closed).keeps (fun _ _ b hb => absurd hb (hquery b))
      hcancelled ?_
    intro x _
    simp [hpending x]
  | cons p rest =>
    have hpw := hp p (List.mem_cons_self ..)
    obtain ⟨o, ho, haccount, hsymbol, hsigned⟩ :=
      exists_buildCloseOrder hpw a.id_ne (flat_ne uuid)
    have hnext : h.closeNext m a uuid closed (p :: rest) = h.goto (.closing a o rest closed) := by
      simp only [closeNext, ho]
    rw [hnext]
    refine ⟨rfl, ⟨?_, ?_, ?_⟩, ?_, ?_⟩
    · intro q hq
      exact hp q (List.mem_cons_of_mem _ hq)
    · intro b o' rest' closed' hphase
      obtain ⟨rfl, rfl, -, -⟩ := StopPhase.closing.inj hphase
      exact haccount
    · intro hr
      simp [goto, StopPhase.isResult] at hr
    · intro x hx
      exact ⟨hx.toClear.congr rfl rfl, fun b hb => absurd hb (hquery b), hcancelled⟩
    · intro x _
      have hsame : (h.goto (.closing a o rest closed)).phase.pending x = h.phase.pending x := by
        rw [hpending x]
        simp [goto, StopPhase.pending, hsymbol, hsigned, MT5Position.booking]
      rw [hsame]
      exact fun _ => rfl

theorem leaves_queryFailed (m : AccountManager) (h : StopHandler) (a : AccountId) (reason : String) :
    Leaves h (h.queryFailed m a reason) :=
  (leaves_pauseAccount m _ a).of_clear rfl fun _ hx => hx.of_addFailure.1

/-- The failed query is a failure of its account. -/
theorem ne_of_queryFailed {reason x : String} (hx : (h.queryFailed m a reason).Answered x) :
    a.id ≠ x :=
  ((leaves_pauseAccount m _ a).clear x hx).of_addFailure.2

/-- Nothing is said about a cancelled handler. -/
theorem keeps_cancelled (h : StopHandler) : Keeps h (h.goto .cancelled) where
  active := rfl
  wellFormed := ⟨by simp [goto, StopPhase.positions], by simp [goto], by simp [goto, StopPhase.isResult]⟩
  answered := fun _ hx => absurd rfl hx.notCancelled
  pending := fun _ hx => absurd rfl hx.notCancelled

/-- From a phase outside the loop over the accounts to another. -/
theorem keeps_goto {p q : StopPhase} (hq : h.phase = q) (hquery : ∀ b, q ≠ .querying b)
    (hcancelled : q ≠ .cancelled) (hpending : ∀ x, q.pending x = [])
    (hp : ∀ x, p.pending x = []) (hpositions : p.positions = [])
    (htodo : p.isResult = true → h.todo = []) : Keeps h (h.goto p) := by
  subst hq
  have hl : Leaves h (h.goto p) :=
    ⟨rfl, fun x hx => hx.toClear.congr rfl rfl, hp, hpositions, htodo⟩
  exact hl.keeps (fun _ _ b hb => absurd hb (hquery b)) hcancelled fun x _ => hpending x

/-- **Every step of the handler** keeps what is pending, unless a close
fails. -/
theorem keeps_step {e : StopHandlerEvent} (hw : h.WellFormed) (hclose : h.closeFails e = false)
    (hs : h.step m e = some (m', h')) : Keeps h h' := by
  unfold step at hs
  split at hs
  case h_1 hp =>
    obtain ⟨-, rfl⟩ := Prod.mk.inj (Option.some.inj hs)
    exact keeps_goto hp (by simp) (by simp) (fun _ => rfl) (fun _ => rfl) rfl
      (by simp [StopPhase.isResult])
  case h_2 hp | h_3 hp =>
    obtain ⟨-, rfl⟩ := Prod.mk.inj (Option.some.inj hs)
    refine (leaves_nextAccount h).keeps ?_ (by simp [hp]) fun x _ => by rw [hp]; rfl
    intro x _ b hb
    simp [hp] at hb
  case h_4 hp | h_7 hp =>
    obtain ⟨-, rfl⟩ := Prod.mk.inj (Option.some.inj hs)
    refine keeps_closeNext ?_ (by simp [hp]) (by simp [hp]) fun x => by rw [hp]; rfl
    intro p hmem
    exact hw.positions p (by rw [hp]; exact hmem)
  case h_5 hp =>
    obtain ⟨-, rfl⟩ := Prod.mk.inj (Option.some.inj hs)
    refine (leaves_queryFailed m h _ _).keeps ?_ (by simp [hp]) fun x _ => by rw [hp]; rfl
    intro x hx b hb
    obtain rfl := StopPhase.querying.inj (hp.symm.trans hb)
    exact ne_of_queryFailed hx
  case h_6 hp =>
    obtain ⟨-, rfl⟩ := Prod.mk.inj (Option.some.inj hs)
    refine (leaves_queryFailed m h _ _).keeps ?_ (by simp [hp]) ?_
    · intro x _ b hb
      simp [hp] at hb
    · intro x hx
      simp [hp, StopPhase.pending, ne_of_queryFailed hx]
  case h_8 hp | h_9 hp => simp [closeFails, hp] at hclose
  case h_10 hp =>
    obtain ⟨⟨m₁, call⟩, -, hpair⟩ := Option.map_eq_some_iff.mp hs
    obtain ⟨-, rfl⟩ := Prod.mk.inj hpair
    refine (leaves_continuePause h _ call).keeps ?_ (by simp [hp]) fun x _ => by rw [hp]; rfl
    intro x _ b hb
    simp [hp] at hb
  case h_11 hp | h_12 hp | h_13 hp | h_14 hp | h_15 hp | h_16 hp =>
    obtain ⟨-, rfl⟩ := Prod.mk.inj (Option.some.inj hs)
    refine keeps_goto hp (by simp) (by simp) (fun _ => rfl) (fun _ => rfl) rfl fun _ => hw.todo ?_
    rw [hp]
    rfl
  case h_17 | h_18 | h_19 | h_20 | h_21 | h_22 | h_23 | h_24 | h_25 =>
    obtain ⟨-, rfl⟩ := Prod.mk.inj (Option.some.inj hs)
    exact keeps_cancelled h
  case h_26 => contradiction

end

end StopHandler

/-! ## The whole run -/

/-- Of an account whose query MT5 has answered, MT5 holds what is still
going to be closed and what came late. -/
structure Flattening (active : List AccountId) (s : StopState) : Prop where
  accounts : s.handler.active = active
  wellFormed : s.handler.WellFormed
  book : ∀ a ∈ active, s.handler.Answered a.id → ∀ symbol,
    net symbol (s.book a.id) =
      net symbol (s.late a.id) + net symbol (s.handler.phase.pending a.id)

theorem net_bookEntry (f : String → Book) (a b : String) (x : String × ℚ) (symbol : String) :
    net symbol (bookEntry f a x b) =
      net symbol (f b) + if a = b ∧ x.1 = symbol then x.2 else 0 := by
  by_cases hab : b = a
  · subst hab
    simp [bookEntry, net_cons]
  · simp [bookEntry, hab, Ne.symm hab]

section
variable {w : Wiring} {active : List AccountId} {s t : StopState}

theorem Flattening.answer {positions : List MT5Position} (hf : Flattening active s)
    (hok : StopAssumptions s (.answer positions)) (hs : s.step w (.answer positions) = some t) :
    Flattening active t := by
  simp only [StopState.step] at hs
  split at hs
  · rename_i a hp
    have hholds : Holds positions (s.book a.id) := hok a (by rw [hp]; rfl)
    obtain rfl := Option.some.inj hs
    refine ⟨hf.accounts, ⟨hholds.wellFormed, ?_, ?_⟩, ?_⟩
    · intro b o rest closed hphase
      contradiction
    · intro hr
      contradiction
    · intro b hb hans symbol
      by_cases hab : a.id = b.id
      · have hnet := hholds.net symbol
        rw [hab] at hnet
        simp [StopHandler.goto, StopPhase.pending, hab, hnet]
      · have hbefore : s.handler.Answered b.id := by
          refine ⟨hans.toClear.congr rfl rfl, fun c hc => ?_, by simp [hp]⟩
          obtain rfl := StopPhase.querying.inj (hp.symm.trans hc)
          exact hab
        have hbook := hf.book b hb hbefore symbol
        simpa [StopHandler.goto, StopPhase.pending, hp, hab, Ne.symm hab] using hbook
  · contradiction

theorem Flattening.close {volume : ℚ} {r : OrderResult} (hf : Flattening active s)
    (hok : StopAssumptions s (.close volume r)) (hs : s.step w (.close volume r) = some t) :
    Flattening active t := by
  simp only [StopState.step] at hs
  split at hs
  · rename_i a o rest closed hp
    have hfilled : volume = o.volume := (hok o (by rw [hp]; rfl)).1
    obtain rfl := Option.some.inj hs
    have haccount : o.accountId = a.id := hf.wellFormed.account a o rest closed hp
    refine ⟨hf.accounts, ⟨?_, ?_, ?_⟩, ?_⟩
    · intro p hmem
      exact hf.wellFormed.positions p (by rw [hp]; exact hmem)
    · intro b o' rest' closed' hphase
      contradiction
    · intro hr
      contradiction
    · intro b hb hans symbol
      have hbefore : s.handler.Answered b.id :=
        ⟨hans.toClear.congr rfl rfl, fun c hc => by simp [hp] at hc, by simp [hp]⟩
      have hbook := hf.book b hb hbefore symbol
      rw [hp] at hbook
      rw [net_bookEntry, hbook, haccount, hfilled]
      by_cases hab : a.id = b.id
      · simp only [StopHandler.goto, StopPhase.pending, hab, if_true, net_cons, Order.signed,
          true_and]
        split
        · ring
        · ring
      · simp [StopHandler.goto, StopPhase.pending, hab]
  · contradiction

/-- What the handler closes is not what came late: a late execution is on
both sides of the equation. -/
theorem Flattening.execute {i : ℕ} {volume : ℚ} (hf : Flattening active s)
    (hs : s.step w (.execute i volume) = some t) : Flattening active t := by
  simp only [StopState.step] at hs
  split at hs
  · split at hs
    · obtain rfl := Option.some.inj hs
      refine ⟨hf.accounts, hf.wellFormed, fun b hb hans symbol => ?_⟩
      rw [net_bookEntry, net_bookEntry, hf.book b hb hans symbol]
      ring
    · contradiction
  · contradiction

/-- **Step lemma.** -/
theorem Flattening.step {e : StopEvent} (hf : Flattening active s) (hok : StopAssumptions s e)
    (hs : s.step w e = some t) : Flattening active t := by
  cases e with
  | live e =>
    obtain ⟨live, -, rfl⟩ := Option.map_eq_some_iff.mp hs
    exact ⟨hf.accounts, hf.wellFormed, hf.book⟩
  | handler e =>
    obtain ⟨⟨m, h⟩, hstep, rfl⟩ := Option.map_eq_some_iff.mp hs
    have hkeeps := StopHandler.keeps_step hf.wellFormed hok hstep
    refine ⟨hkeeps.active.trans hf.accounts, hkeeps.wellFormed, fun b hb hans symbol => ?_⟩
    have hbook := hf.book b hb (hkeeps.answered b.id hans) symbol
    rw [← hkeeps.pending b.id hans symbol] at hbook
    exact hbook
  | answer positions => exact hf.answer hok hs
  | close volume r => exact hf.close hok hs
  | execute i volume => exact hf.execute hs

theorem flattening_init (h : s.handler = .init active) : Flattening active s := by
  refine ⟨by rw [h]; rfl, ⟨?_, ?_, ?_⟩, ?_⟩
  · intro p hp
    simp [h, StopHandler.init, StopPhase.positions] at hp
  · intro a o rest closed hphase
    simp [h, StopHandler.init] at hphase
  · intro hr
    simp [h, StopHandler.init, StopPhase.isResult] at hr
  · intro a ha hans
    rw [h] at hans
    exact absurd rfl (hans.past a ha)

end

/-- **The exact condition.** Position queries are answered with what MT5
holds and every close order is filled. Then an account that was processed
without a failure entry is flat when the confirmation is published if and
only if what MT5 executed of its strategies' orders, since it answered the
account's query, nets out in every symbol. -/
theorem flat_at_confirmation_iff {w : Wiring} {s₀ s : StopState} {es : List StopEvent}
    {active : List AccountId} {a : AccountId} (h₀ : s₀.handler = .init active)
    (h : RunWhere (StopState.step w) StopAssumptions s₀ es s)
    (hpublished : s.handler.phase = .published) (ha : a ∈ active)
    (hno : ∀ f ∈ s.handler.result.failures, f.1 ≠ a.id) :
    Flat (s.book a.id) ↔ ∀ symbol, net symbol (s.late a.id) = 0 := by
  have hf : Flattening active s :=
    h.invariant_state (Flattening active) (flattening_init h₀)
      fun _ _ _ hf hok hs => hf.step hok hs
  have hans : s.handler.Answered a.id := by
    refine ⟨⟨?_, hno⟩, by simp [hpublished], by simp [hpublished]⟩
    rw [hf.wellFormed.todo (by rw [hpublished]; rfl)]
    simp
  have hbook := hf.book a ha hans
  simp only [hpublished, StopPhase.pending, net_nil, add_zero] at hbook
  simp only [Flat, hbook]

/-! ## One lot left open -/

/-- The account whose order a step of the engine hands to the gateway. -/
def handedOver (w : Wiring) (s : LiveState) : LiveEvent → Option String
  | .task i (.submit e) =>
    match s.tasks[i]? with
    | some (.submit u) =>
      if !u.sent && (u.step w s.shared i e).any fun p => p.2.sent then some u.account.id else none
    | _ => none
  | _ => none

/-- No order of an account is sent after its status is paused. -/
def NoSendPaused (w : Wiring) (s : StopState) : StopEvent → Prop
  | .live e => ∀ a ∈ handedOver w s.live e, s.live.shared.manager.status a ≠ some .paused
  | _ => True

instance (w : Wiring) (s : StopState) : DecidablePred (NoSendPaused w s)
  | .live e => inferInstanceAs
      (Decidable (∀ a ∈ handedOver w s.live e, s.live.shared.manager.status a ≠ some .paused))
  | .handler _ | .answer _ | .close _ _ | .execute _ _ => .isTrue trivial

/-- MT5 holds two lots of gold for the one active account. -/
def twoLotsHeld : StopState :=
  { live := oneActiveAccount, handler := .init [ftmo], book := fun _ => [("XAUUSD", 2)] }

def goldLong (volume : ℚ) : MT5Position :=
  { ticket := 1, symbol := "XAUUSD", side := "BUY", volume
    entryPrice := 2650, currentPrice := 2655 }

/-- An order for one lot is under way when the stop command arrives. MT5
executes it before or after it answers the position query with what it
holds. -/
def stopRun (before after : List StopEvent) (held : ℚ) : List StopEvent :=
  [.live (.spawn (.submit goldBuy ftmo)), .live (.task 0 (.submit (.start 0))),
    .live (.task 0 (.submit .reply)), .handler .start, .handler (.reply "1")] ++ before ++
  [.answer [goldLong held]] ++ after ++
  [.handler (.reply "2"), .close held { orderId := "flat-2", status := .filled },
    .handler (.reply "3"), .handler (.pause .server), .handler (.pause .reply),
    .handler (.pause .server), .handler (.pause .reply), .handler (.reply "4"), .handler .server]

/-- Confirmed without a failure, with this much gold left. -/
def confirmed (left : ℚ) (s : StopState) : Bool :=
  s.handler.phase = .published && s.handler.failures.isEmpty &&
    net "XAUUSD" (s.book "ftmo-001") = left

/-- The order is executed after the query is answered: the confirmation
reports no failure, and a lot is left open. -/
theorem emergency_stop_leaves_open :
    ¬ ∀ (w : Wiring) (s₀ s : StopState) (es : List StopEvent) (active : List AccountId)
        (a : AccountId), s₀.handler = .init active →
      RunWhere (StopState.step w) (fun s e => StopAssumptions s e ∧ NoSendPaused w s e) s₀ es s →
      s.handler.phase = .published → a ∈ active →
      (∀ f ∈ s.handler.result.failures, f.1 ≠ a.id) → Flat (s.book a.id) := by
  intro hall
  obtain ⟨s, hrun, hs⟩ := RunWhere.exists_of_checked (StopState.step openWiring)
    (fun s e => StopAssumptions s e ∧ NoSendPaused openWiring s e) twoLotsHeld
    (stopRun [] [.execute 0 1] 2) (confirmed 1) (by decide +kernel) (by decide +kernel)
  simp only [confirmed, Bool.and_eq_true, decide_eq_true_eq, List.isEmpty_iff] at hs
  obtain ⟨⟨hpublished, hfailures⟩, hleft⟩ := hs
  have hflat := hall openWiring twoLotsHeld s _ [ftmo] ftmo rfl hrun hpublished
    (List.mem_singleton.mpr rfl) (by simp [StopHandler.result, hfailures]) "XAUUSD"
  rw [show ftmo.id = "ftmo-001" from rfl, hleft] at hflat
  exact one_ne_zero hflat

/-- Executed before the query is answered, the order is part of what is
closed, and the account is flat. -/
theorem flat_at_confirmation_gold :
    ∃ s : StopState, s.handler.phase = .published ∧ Flat (s.book ftmo.id) := by
  obtain ⟨s, hrun, hs⟩ := RunWhere.exists_of_checked (StopState.step openWiring)
    StopAssumptions twoLotsHeld (stopRun [.execute 0 1] [] 3)
    (fun s => confirmed 0 s && decide (s.late "ftmo-001" = [])) (by decide +kernel)
    (by decide +kernel)
  simp only [confirmed, Bool.and_eq_true, decide_eq_true_eq, List.isEmpty_iff] at hs
  obtain ⟨⟨⟨hpublished, hfailures⟩, -⟩, hlate⟩ := hs
  refine ⟨s, hpublished, (flat_at_confirmation_iff rfl hrun hpublished
    (List.mem_singleton.mpr rfl) (by simp [StopHandler.result, hfailures])).mpr ?_⟩
  intro symbol
  rw [show ftmo.id = "ftmo-001" from rfl, hlate]
  rfl

end TdSandboxed
