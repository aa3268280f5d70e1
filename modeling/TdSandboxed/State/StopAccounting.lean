/-
TdSandboxed.State.StopAccounting — what the summary of an emergency stop
says (`state/emergency_stop_handler.py`, `_handle_stop_command` and
`_flatten_account`).

The sequence is taken here from start to end, for every answer its calls
can give: what the summary counts and lists is then a function of the
answers. `closes_feed` says that the handler of `StopHandler`, whose
awaits interleave with the engine, counts the same way.

A position's close order is built or refused, and the call that sends it
returns a result of any status or raises. The position is closed when the
result says FILLED; every other position stays open, in whole or in part.
-/
import Mathlib.Algebra.Order.BigOperators.Group.List
import Mathlib.Logic.Relation
import TdSandboxed.State.EmergencyStop

namespace TdSandboxed

/-- How `send_order_and_wait` ends. -/
inductive CloseOutcome
  | returned (status : OrderStatus)
  /-- A timeout, or any other exception. -/
  | raised (repr : String)
  deriving DecidableEq

/-- What MT5 holds when the stop command is handled, and what the calls
come back with. Close orders are numbered by their position in the
account's list. -/
structure StopInput where
  active : List AccountId
  positions : String → List MT5Position
  /-- `query_positions` raises. -/
  query : String → Option String := fun _ => none
  close : String → ℕ → CloseOutcome := fun _ _ => .returned .filled
  uuid : String → ℕ → String := fun _ _ => ""
  /-- `pause_account` raises. -/
  pause : String → Option String := fun _ => none
  active_nodup : (active.map AccountId.id).Nodup

namespace StopInput

/-- What becomes of a position's close order, if one is sent. -/
def attempt (x : StopInput) (a : String) (v : MT5Position × ℕ) : Option CloseOutcome :=
  match buildCloseOrder v.1 a ("flat-" ++ x.uuid a v.2) with
  | .error _ => none
  | .ok _ => some (x.close a v.2)

/-- The body of the loop over the positions. -/
def closeOne (x : StopInput) (a : String) (closed : ℕ) (v : MT5Position × ℕ) : ℕ :=
  match x.attempt a v with
  | some (.returned _) => closed + 1
  | _ => closed

/-- `_flatten_account` -/
def flattenAccount (x : StopInput) (a : String) : ℕ × Option String :=
  match x.query a with
  | some repr => (0, some ("query_positions failed: " ++ repr))
  | none => ((x.positions a).zipIdx.foldl (x.closeOne a) 0, none)

/-- The body of the loop over the accounts. -/
def visit (x : StopInput) (r : EmergencyStopResult) (a : AccountId) : EmergencyStopResult :=
  let (closed, error) := x.flattenAccount a.id
  let r :=
    { r with
      positionsClosed := r.positionsClosed + closed
      failures := r.failures ++ (error.map fun reason => (a.id, reason)).toList }
  match x.pause a.id with
  | none => { r with accountsPaused := r.accountsPaused + 1 }
  | some repr => { r with failures := r.failures ++ [(a.id, "pause failed: " ++ repr)] }

/-- `_handle_stop_command` -/
def handleStopCommand (x : StopInput) : EmergencyStopResult :=
  x.active.foldl x.visit
    { accountsProcessed := x.active.length, positionsClosed := 0, accountsPaused := 0
      failures := [] }

/-! ## What is true afterwards -/

/-- The account is gone through, and MT5 answers its query. -/
def Visited (x : StopInput) (a : String) : Prop := a ∈ x.active.map AccountId.id ∧ x.query a = none

/-- The close order of a position was filled. -/
def filled (x : StopInput) (a : String) (v : MT5Position × ℕ) : Bool :=
  x.attempt a v = some (.returned .filled)

/-- The call that sent a position's close order returned. -/
def returns (x : StopInput) (a : String) (v : MT5Position × ℕ) : Bool :=
  match x.attempt a v with
  | some (.returned _) => true
  | _ => false

/-- The positions whose close order was filled. -/
def filledCount (x : StopInput) : ℕ :=
  (x.active.map fun a =>
    if x.query a.id = none then (x.positions a.id).zipIdx.countP (x.filled a.id) else 0).sum

/-- The account still has an open position. -/
def OpenAfter (x : StopInput) (a : String) : Prop :=
  ∃ v ∈ (x.positions a).zipIdx, ¬ (x.Visited a ∧ x.filled a v)

/-- The summary counts the positions that were closed, and lists every
account that is not flat. -/
def Accounted (x : StopInput) : Prop :=
  x.handleStopCommand.positionsClosed = x.filledCount ∧
    ∀ a, x.OpenAfter a → a ∈ x.handleStopCommand.failures.map Prod.fst

/-- What MT5's answers must be for that: a close that returns is FILLED;
an account that answers and is paused has every position closed, none of
them refused by `build_close_order` or raised; and accounts that are not
active hold nothing. -/
structure Truthful (x : StopInput) : Prop where
  returned_filled : ∀ a, x.Visited a → ∀ v ∈ (x.positions a).zipIdx, x.returns a v → x.filled a v
  unlisted_filled : ∀ a, x.Visited a → x.pause a = none → ∀ v ∈ (x.positions a).zipIdx, x.filled a v
  inactive_empty : ∀ a, a ∉ x.active.map AccountId.id → x.positions a = []

/-! ## The summary in closed form -/

variable {x : StopInput}

theorem returns_of_filled {a : String} {v : MT5Position × ℕ} (h : x.filled a v) : x.returns a v := by
  simp only [filled, decide_eq_true_eq] at h
  simp [returns, h]

theorem foldl_closeOne (a : String) (closed : ℕ) (vs : List (MT5Position × ℕ)) :
    vs.foldl (x.closeOne a) closed = closed + vs.countP (x.returns a) := by
  induction vs generalizing closed with
  | nil => rfl
  | cons v vs ih =>
    have hone : x.closeOne a closed v = closed + if x.returns a v then 1 else 0 := by
      unfold closeOne returns
      split <;> rfl
    rw [List.foldl_cons, ih, hone, List.countP_cons]
    omega

/-- The closes an account is credited with. -/
def closes (x : StopInput) (a : String) : ℕ :=
  if x.query a = none then (x.positions a).zipIdx.countP (x.returns a) else 0

theorem flattenAccount_closes (a : String) : (x.flattenAccount a).1 = x.closes a := by
  unfold flattenAccount closes
  cases hq : x.query a with
  | some repr => rfl
  | none => simp [foldl_closeOne]

theorem positionsClosed_foldl (accounts : List AccountId) (r : EmergencyStopResult) :
    (accounts.foldl x.visit r).positionsClosed =
      r.positionsClosed + (accounts.map fun a => x.closes a.id).sum := by
  induction accounts generalizing r with
  | nil => simp
  | cons a accounts ih =>
    have hone : (x.visit r a).positionsClosed = r.positionsClosed + x.closes a.id := by
      rw [← flattenAccount_closes]
      unfold visit
      cases x.pause a.id <;> rfl
    rw [List.foldl_cons, ih, hone, List.map_cons, List.sum_cons, add_assoc]

theorem positionsClosed_eq :
    x.handleStopCommand.positionsClosed = (x.active.map fun a => x.closes a.id).sum := by
  rw [handleStopCommand, positionsClosed_foldl, zero_add]

theorem mem_failures_visit (r : EmergencyStopResult) (a : AccountId) (b : String) :
    b ∈ (x.visit r a).failures.map Prod.fst ↔
      b ∈ r.failures.map Prod.fst ∨ b = a.id ∧ ¬ (x.query a.id = none ∧ x.pause a.id = none) := by
  unfold visit flattenAccount
  cases hq : x.query a.id <;> cases hp : x.pause a.id <;> simp

theorem mem_failures_foldl (accounts : List AccountId) (r : EmergencyStopResult) (b : String) :
    b ∈ (accounts.foldl x.visit r).failures.map Prod.fst ↔
      b ∈ r.failures.map Prod.fst ∨
        b ∈ accounts.map AccountId.id ∧ ¬ (x.query b = none ∧ x.pause b = none) := by
  induction accounts generalizing r with
  | nil => simp
  | cons a accounts ih =>
    rw [List.foldl_cons, ih, mem_failures_visit, List.map_cons, List.mem_cons]
    constructor
    · rintro ((hr | ⟨rfl, hf⟩) | ⟨hb, hf⟩)
      · exact .inl hr
      · exact .inr ⟨.inl rfl, hf⟩
      · exact .inr ⟨.inr hb, hf⟩
    · rintro (hr | ⟨rfl | hb, hf⟩)
      · exact .inl (.inl hr)
      · exact .inl (.inr ⟨rfl, hf⟩)
      · exact .inr ⟨hb, hf⟩

/-- **An account is listed exactly when it is active and its query or its
pause raised**: what became of its close orders does not matter. -/
theorem mem_failures_iff (a : String) :
    a ∈ x.handleStopCommand.failures.map Prod.fst ↔
      a ∈ x.active.map AccountId.id ∧ ¬ (x.query a = none ∧ x.pause a = none) := by
  rw [handleStopCommand, mem_failures_foldl]
  simp

/-! ## When the summary is right -/

/-- Two sums over the accounts, one below the other at each account, are
equal when they are at each account. -/
theorem sum_map_eq_iff {accounts : List AccountId} {f g : AccountId → ℕ} (hle : ∀ a, g a ≤ f a) :
    (accounts.map f).sum = (accounts.map g).sum ↔ ∀ a ∈ accounts, f a = g a := by
  induction accounts with
  | nil => simp
  | cons a accounts ih =>
    have hrest : (accounts.map g).sum ≤ (accounts.map f).sum :=
      List.sum_le_sum fun b _ => hle b
    have ha := hle a
    rw [List.map_cons, List.map_cons, List.sum_cons, List.sum_cons, List.forall_mem_cons, ← ih]
    omega

/-- Of the positions of a list, those with `p` are as many as those with
`q`, which `q` has in addition to `p`, only if they are the same. -/
theorem countP_eq_iff {vs : List (MT5Position × ℕ)} {p q : MT5Position × ℕ → Bool}
    (hqp : ∀ v, q v → p v) : vs.countP p = vs.countP q ↔ ∀ v ∈ vs, p v → q v := by
  induction vs with
  | nil => simp
  | cons v vs ih =>
    have hrest : vs.countP q ≤ vs.countP p := List.countP_mono_left fun w _ => hqp w
    rw [List.countP_cons, List.countP_cons, List.forall_mem_cons, ← ih]
    cases hp : p v with
    | false =>
      have hq : q v = false := by
        rw [← Bool.not_eq_true]
        exact fun hq => by simp [hqp v hq] at hp
      simp [hq]
    | true =>
      cases hq : q v with
      | true => simp
      | false =>
        simp only [if_true, Bool.false_eq_true, if_false, forall_const, false_and,
          iff_false]
        omega

theorem positionsClosed_eq_iff :
    x.handleStopCommand.positionsClosed = x.filledCount ↔
      ∀ a, x.Visited a → ∀ v ∈ (x.positions a).zipIdx, x.returns a v → x.filled a v := by
  rw [positionsClosed_eq, filledCount, sum_map_eq_iff]
  · constructor
    · intro h a ha v hv hret
      obtain ⟨b, hb, rfl⟩ := List.mem_map.mp ha.1
      have heq := h b hb
      rw [closes, if_pos ha.2, if_pos ha.2, countP_eq_iff fun _ => returns_of_filled] at heq
      exact heq v hv hret
    · intro h a ha
      by_cases hq : x.query a.id = none
      · rw [closes, if_pos hq, if_pos hq, countP_eq_iff fun _ => returns_of_filled]
        exact h a.id ⟨List.mem_map_of_mem ha, hq⟩
      · rw [closes, if_neg hq, if_neg hq]
  · intro a
    unfold closes
    split
    · exact List.countP_mono_left fun v _ => returns_of_filled
    · exact le_rfl

/-- **The summary is right exactly for truthful answers.** -/
theorem accounted_iff (x : StopInput) : x.Accounted ↔ x.Truthful := by
  rw [Accounted, positionsClosed_eq_iff]
  constructor
  · rintro ⟨hret, hopen⟩
    refine ⟨hret, ?_, ?_⟩
    · intro a ha hp v hv
      by_contra hnot
      have hlisted := (mem_failures_iff a).mp (hopen a ⟨v, hv, fun h => hnot h.2⟩)
      exact hlisted.2 ⟨ha.2, hp⟩
    · intro a ha
      by_contra hne
      obtain ⟨p, hp⟩ := List.exists_mem_of_ne_nil _ hne
      obtain ⟨i, hi⟩ := List.mem_iff_getElem?.mp hp
      have hv : (p, i) ∈ (x.positions a).zipIdx := List.mk_mem_zipIdx_iff_getElem?.mpr hi
      exact ha ((mem_failures_iff a).mp (hopen a ⟨_, hv, fun h => ha h.1.1⟩)).1
  · rintro ⟨hret, hflat, hempty⟩
    refine ⟨hret, fun a ⟨v, hv, hnot⟩ => (mem_failures_iff a).mpr ?_⟩
    have hactive : a ∈ x.active.map AccountId.id := by
      by_contra ha
      simp [hempty a ha] at hv
    exact ⟨hactive, fun h => hnot ⟨⟨hactive, h.1⟩, hflat a ⟨hactive, h.1⟩ h.2 v hv⟩⟩

/-- Gold at 100, one lot long. -/
def goldHeld : MT5Position :=
  { ticket := 1, symbol := "XAUUSD", side := "BUY", volume := 1, entryPrice := 100
    currentPrice := 100 }

/-- The one close order is rejected: it counts as closed, and the account
with the open position is not listed. -/
theorem rejected_close_counts :
    let x : StopInput :=
      { active := [{ id := "ftmo-001", id_ne := ftmo_ne }]
        positions := fun _ => [goldHeld], close := fun _ _ => .returned .rejected
        active_nodup := List.nodup_singleton _ }
    x.filledCount = 0 ∧ x.OpenAfter "ftmo-001" ∧ x.handleStopCommand =
      { accountsProcessed := 1, positionsClosed := 1, accountsPaused := 1, failures := [] } := by
  intro x
  refine ⟨by decide +kernel, ⟨(goldHeld, 0), List.mem_singleton_self _, ?_⟩, by decide +kernel⟩
  rintro ⟨-, hfilled⟩
  revert hfilled
  decide +kernel

/-! ## The handler that interleaves with the engine -/

/-- The reply to a close order reaches the handler. -/
def Feeds (x : StopInput) (m : AccountManager) (h h' : StopHandler) : Prop :=
  ∃ a order rest closed uuid, h.phase = .closing a order rest closed ∧
    match x.close a.id ((x.positions a.id).length - rest.length - 1) with
    | .returned status => ∃ r : OrderResult, r.status = status ∧
        (h.goto (.closeAnswered a r rest closed)).step m (.reply uuid) = some (m, h')
    | .raised repr => h.step m (.fail repr uuid) = some (m, h')

/-- The checks an order is built under. -/
theorem exists_buildCloseOrder_iff {p : MT5Position} {a orderId : String} :
    (∃ o, buildCloseOrder p a orderId = .ok o) ↔
      oppositeSide p.upperSide ≠ none ∧ 0 < p.volume ∧
        a ≠ "" ∧ p.symbol ≠ "" ∧ 0 < p.closePrice ∧ orderId ≠ "" := by
  unfold buildCloseOrder
  cases oppositeSide p.upperSide with
  | none => simp
  | some side =>
    by_cases hv : 0 < p.volume
    · by_cases hc : a ≠ "" ∧ p.symbol ≠ "" ∧ 0 < p.closePrice ∧ orderId ≠ ""
      · simp [hv, hc]
      · simp only [hv, dif_pos, dif_neg hc]
        simp [hc]
    · simp [hv]

/-- Whether an order is built does not depend on its id. -/
theorem exists_buildCloseOrder_flat {p : MT5Position} {a : String} (uuid uuid' : String) :
    (∃ o, buildCloseOrder p a ("flat-" ++ uuid) = .ok o) ↔
      ∃ o, buildCloseOrder p a ("flat-" ++ uuid') = .ok o := by
  rw [exists_buildCloseOrder_iff, exists_buildCloseOrder_iff]
  simp only [flat_ne, ne_eq, not_false_eq_true]

/-- What follows the loop over the positions does not look at the phase. -/
theorem flattened_goto (m : AccountManager) (h : StopHandler) (p : StopPhase) (a : AccountId)
    (closed : ℕ) : (h.goto p).flattened m a closed = h.flattened m a closed := by
  simp only [StopHandler.flattened, StopHandler.pauseAccount, StopHandler.continuePause]
  split
  · rename_i out _
    cases out with
    | returned => cases h with | mk active todo => cases todo <;> rfl
    | raised repr => cases h with | mk active todo => cases todo <;> rfl
    | cancelled => rfl
  · rfl

/-- **The interleaved handler counts as the loop over the positions
does**, from the position with number `i` on. -/
theorem closes_feed (x : StopInput) (m : AccountManager) (a : AccountId) (ps : List MT5Position)
    (i closed : ℕ) (h : StopHandler) (uuid : String)
    (hlen : i + ps.length = (x.positions a.id).length) :
    Relation.ReflTransGen (x.Feeds m) (h.closeNext m a uuid closed ps)
      (h.flattened m a ((ps.zipIdx i).foldl (x.closeOne a.id) closed)) := by
  induction ps generalizing i closed h uuid with
  | nil => exact .refl
  | cons p ps ih =>
    have hrest : i + 1 + ps.length = (x.positions a.id).length := by
      rw [← hlen, List.length_cons]
      omega
    have hbuilt := @exists_buildCloseOrder_flat p a.id uuid (x.uuid a.id i)
    rw [List.zipIdx_cons, List.foldl_cons]
    cases hb : buildCloseOrder p a.id ("flat-" ++ uuid) with
    | error e =>
      have hskip : x.closeOne a.id closed (p, i) = closed := by
        cases ho : buildCloseOrder p a.id ("flat-" ++ x.uuid a.id i) with
        | error e' => simp [closeOne, attempt, ho]
        | ok o => simp [hb, ho] at hbuilt
      simp only [StopHandler.closeNext, hb, hskip]
      exact ih (i + 1) closed h uuid hrest
    | ok order =>
      obtain ⟨o, ho⟩ := hbuilt.mp ⟨order, hb⟩
      have hindex : (x.positions a.id).length - ps.length - 1 = i := by omega
      simp only [StopHandler.closeNext, hb, closeOne, attempt, ho]
      cases hc : x.close a.id i with
      | returned status =>
        let r : OrderResult := { orderId := order.orderId, status }
        refine .head ⟨a, order, ps, closed, uuid, rfl, ?_⟩
          (b := (h.goto (.closeAnswered a r ps closed)).closeNext m a uuid (closed + 1) ps) ?_
        · rw [hindex, hc]
          exact ⟨r, rfl, rfl⟩
        · rw [← flattened_goto m h (.closeAnswered a r ps closed)]
          exact ih (i + 1) (closed + 1) _ uuid hrest
      | raised repr =>
        refine .head ⟨a, order, ps, closed, uuid, rfl, ?_⟩
          (b := (h.goto (.closing a order ps closed)).closeNext m a uuid closed ps) ?_
        · rw [hindex, hc]
          rfl
        · rw [← flattened_goto m h (.closing a order ps closed)]
          exact ih (i + 1) closed _ uuid hrest

end StopInput

end TdSandboxed
