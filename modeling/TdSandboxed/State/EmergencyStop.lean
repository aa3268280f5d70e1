/-
TdSandboxed.State.EmergencyStop — the emergency stop
(`state/emergency_stop_handler.py`, `orders/close_order_builder.py`).

One handling of a stop command is a task that goes through the active
accounts one after the other: it queries the account's positions, closes
them one at a time with an opposite market order, and then pauses the
account. Each phase is an await; what runs between two awaits is one step.

* A query that fails is a failure entry of its account. A close that fails
  is logged only, and what the result of a close says is not looked at.
* `uuid` supplies the random part of a close order's id.
* The pause is `pause_account`, await by await.
* The audit rows, timestamps and the payload's JSON are left out, and so is
  the listener: it handles one command at a time.
-/
import TdSandboxed.Accounts.AccountManager
import TdSandboxed.Engine.OrderTranslator

namespace TdSandboxed

/-! ## Close orders -/

/-- `position.side.upper()`, as far as "BUY" and "SELL" can tell: outside of
ASCII, only the long s has one of their letters as its capital. -/
def MT5Position.upperSide (p : MT5Position) : String :=
  p.side.map fun c => if c = 'ſ' then 'S' else c.toUpper

/-- `_OPPOSITE_SIDE` -/
def oppositeSide (side : String) : Option OrderSide :=
  if side = "BUY" then some .sell else if side = "SELL" then some .buy else none

/-- The first of the prices that is not zero. -/
def MT5Position.closePrice (p : MT5Position) : ℚ :=
  if p.currentPrice ≠ 0 then p.currentPrice else if p.entryPrice ≠ 0 then p.entryPrice else 1

/-- The close order, or the text of the `ValueError`. A field check of
`Order` that fails is a `ValueError` too. -/
def buildCloseOrder (p : MT5Position) (accountId orderId : String) : Except String Order :=
  match oppositeSide p.upperSide with
  | none => .error (s!"Cannot build close order: unsupported position side {Lib.pyRepr p.side} " ++
      "(expected 'BUY' or 'SELL')")
  | some side =>
    if hv : 0 < p.volume then
      if h : accountId ≠ "" ∧ p.symbol ≠ "" ∧ 0 < p.closePrice ∧ orderId ≠ "" then
        .ok
          { accountId, action := side, symbol := p.symbol, volume := p.volume
            price := p.closePrice, orderId, accountId_ne := h.1, symbol_ne := h.2.1
            volume_pos := hv, price_pos := h.2.2.1, orderId_ne := h.2.2.2 }
      else .error "validation error for Order"
    else
      .error s!"Cannot build close order: position volume must be > 0, got {pyFloat p.volume}"

theorem flat_ne (uuid : String) : "flat-" ++ uuid ≠ "" := by
  intro hempty
  have hlen := congrArg String.length hempty
  simp at hlen

/-- A position as MT5 really holds it. -/
def MT5Position.WellFormed (p : MT5Position) : Prop :=
  (p.upperSide = "BUY" ∨ p.upperSide = "SELL") ∧ p.symbol ≠ "" ∧ 0 < p.volume ∧
    0 ≤ p.currentPrice ∧ 0 ≤ p.entryPrice

instance (p : MT5Position) : Decidable p.WellFormed := inferInstanceAs (Decidable (_ ∧ _))

/-- The volume, negative for a short position. -/
def MT5Position.signed (p : MT5Position) : ℚ :=
  if p.upperSide = "BUY" then p.volume else -p.volume

/-- A position's entry in a book of signed volumes by symbol. -/
def MT5Position.booking (p : MT5Position) : String × ℚ := (p.symbol, p.signed)

theorem MT5Position.closePrice_pos {p : MT5Position} (hc : 0 ≤ p.currentPrice)
    (he : 0 ≤ p.entryPrice) : 0 < p.closePrice := by
  unfold closePrice
  split
  · rename_i h
    exact lt_of_le_of_ne hc (Ne.symm h)
  · split
    · rename_i h
      exact lt_of_le_of_ne he (Ne.symm h)
    · exact one_pos

/-- **A close order undoes its position**, for every position MT5 holds. -/
theorem exists_buildCloseOrder {p : MT5Position} (hp : p.WellFormed) {accountId orderId : String}
    (ha : accountId ≠ "") (hid : orderId ≠ "") :
    ∃ o, buildCloseOrder p accountId orderId = .ok o ∧ o.accountId = accountId ∧
      o.symbol = p.symbol ∧ o.signed = -p.signed := by
  obtain ⟨hside, hsymbol, hvolume, hcurrent, hentry⟩ := hp
  have hchecks : accountId ≠ "" ∧ p.symbol ≠ "" ∧ 0 < p.closePrice ∧ orderId ≠ "" :=
    ⟨ha, hsymbol, MT5Position.closePrice_pos hcurrent hentry, hid⟩
  unfold buildCloseOrder
  rcases hside with hbuy | hsell
  · simp only [oppositeSide, hbuy, if_true, dif_pos hvolume, dif_pos hchecks]
    exact ⟨_, rfl, rfl, rfl, by simp [Order.signed, OrderSide.sign, MT5Position.signed, hbuy]⟩
  · have hne : p.upperSide ≠ "BUY" := by
      rw [hsell]
      decide
    simp only [oppositeSide, hsell, if_true, dif_pos hvolume, dif_pos hchecks]
    exact ⟨_, rfl, rfl, rfl, by simp [Order.signed, OrderSide.sign, MT5Position.signed, hne]⟩

/-! ## The handler -/

structure EmergencyStopResult where
  accountsProcessed : ℕ
  positionsClosed : ℕ
  accountsPaused : ℕ
  /-- Account and reason. -/
  failures : List (String × String)
  deriving DecidableEq

/-- Where the handling of a command is suspended. -/
inductive StopPhase
  | created
  /-- The audit row of the trigger. -/
  | auditing
  /-- The position query is on its way to MT5. -/
  | querying (a : AccountId)
  /-- MT5 has answered; the answer is on its way. -/
  | answered (a : AccountId) (positions : List MT5Position)
  /-- A close order is on its way to MT5. -/
  | closing (a : AccountId) (order : Order) (rest : List MT5Position) (closed : ℕ)
  /-- MT5 has dealt with the close order; its result is on its way. -/
  | closeAnswered (a : AccountId) (r : OrderResult) (rest : List MT5Position) (closed : ℕ)
  | pausing (a : AccountId) (call : AccountCall)
  /-- The audit row of the result. -/
  | auditingResult
  /-- `publish` of the confirmation, not executed yet. -/
  | publishing
  | published
  | finished
  | cancelled
  deriving DecidableEq

/-- One handling of a stop command. `todo` are the active accounts the loop
has still to visit. -/
structure StopHandler where
  active : List AccountId
  todo : List AccountId
  phase : StopPhase := .created
  positionsClosed : ℕ := 0
  accountsPaused : ℕ := 0
  failures : List (String × String) := []

inductive StopHandlerEvent
  | start
  /-- The await completes. -/
  | reply (uuid : String)
  /-- The await raises an `Exception` with this `repr`. -/
  | fail (repr uuid : String)
  /-- A step of `pause_account`. -/
  | pause (e : OperationEvent)
  /-- The server publishes the confirmation. -/
  | server
  | cancel

namespace StopHandler

def init (active : List AccountId) : StopHandler := { active, todo := active }

def goto (h : StopHandler) (p : StopPhase) : StopHandler := { h with phase := p }

def addFailure (h : StopHandler) (a : AccountId) (reason : String) : StopHandler :=
  { h with failures := h.failures ++ [(a.id, reason)] }

/-- What the confirmation says. -/
def result (h : StopHandler) : EmergencyStopResult :=
  { accountsProcessed := h.active.length
    positionsClosed := h.positionsClosed
    accountsPaused := h.accountsPaused
    failures := h.failures }

/-- The head of the loop over the accounts. -/
def nextAccount (h : StopHandler) : StopHandler :=
  match h.todo with
  | [] => h.goto .auditingResult
  | a :: rest => { h with todo := rest, phase := .querying a }

/-- What follows `pause_account`. -/
def paused (h : StopHandler) (a : AccountId) : OperationOutcome → StopHandler
  | .returned => { h with accountsPaused := h.accountsPaused + 1 }.nextAccount
  | .raised repr => (h.addFailure a ("pause failed: " ++ repr)).nextAccount
  | .cancelled => h.goto .cancelled

def continuePause (h : StopHandler) (a : AccountId) (call : AccountCall) : StopHandler :=
  match call.phase with
  | .finished out => h.paused a out
  | _ => h.goto (.pausing a call)

def pauseAccount (m : AccountManager) (h : StopHandler) (a : AccountId) : StopHandler :=
  let call : AccountCall := { operation := .pauseAccount, accountId := a.id }
  h.continuePause a (call.goto (call.start m))

/-- `_flatten_account` returns `(closed, None)`. -/
def flattened (m : AccountManager) (h : StopHandler) (a : AccountId) (closed : ℕ) : StopHandler :=
  { h with positionsClosed := h.positionsClosed + closed }.pauseAccount m a

/-- `_flatten_account` returns `(0, error)`: "still attempt to pause". -/
def queryFailed (m : AccountManager) (h : StopHandler) (a : AccountId) (repr : String) : StopHandler :=
  (h.addFailure a ("query_positions failed: " ++ repr)).pauseAccount m a

/-- The loop over the positions, up to the next close order. -/
def closeNext (m : AccountManager) (h : StopHandler) (a : AccountId) (uuid : String) (closed : ℕ) :
    List MT5Position → StopHandler
  | [] => h.flattened m a closed
  | p :: rest =>
    match buildCloseOrder p a.id ("flat-" ++ uuid) with
    | .error _ => closeNext m h a uuid closed rest
    | .ok order => h.goto (.closing a order rest closed)

/-- One step of the handler. -/
def step (m : AccountManager) (h : StopHandler) (e : StopHandlerEvent) :
    Option (AccountManager × StopHandler) :=
  match h.phase, e with
  | .created, .start => some (m, h.goto .auditing)
  | .auditing, .reply _ | .auditing, .fail _ _ => some (m, h.nextAccount)
  -- one account
  | .answered a positions, .reply uuid => some (m, h.closeNext m a uuid 0 positions)
  | .querying a, .fail x _ | .answered a _, .fail x _ => some (m, h.queryFailed m a x)
  | .closeAnswered a _ rest closed, .reply uuid => some (m, h.closeNext m a uuid (closed + 1) rest)
  | .closing a _ rest closed, .fail _ uuid | .closeAnswered a _ rest closed, .fail _ uuid =>
    some (m, h.closeNext m a uuid closed rest)
  | .pausing a call, .pause e => (call.step m e).map fun (m, call) => (m, h.continuePause a call)
  -- the result
  | .auditingResult, .reply _ | .auditingResult, .fail _ _ => some (m, h.goto .publishing)
  | .publishing, .server => some (m, h.goto .published)
  | .published, .reply _ | .publishing, .fail _ _ | .published, .fail _ _ =>
    some (m, h.goto .finished)
  | .created, .cancel | .auditing, .cancel | .querying _, .cancel | .answered _ _, .cancel
  | .closing _ _ _ _, .cancel | .closeAnswered _ _ _ _, .cancel | .auditingResult, .cancel
  | .publishing, .cancel | .published, .cancel => some (m, h.goto .cancelled)
  | _, _ => none

end StopHandler

end TdSandboxed
