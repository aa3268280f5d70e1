/-
TdSandboxed.Engine.NettingTheorems — the lots an order is validated
against, on a netting venue.

The execution client is a NETTING client: an order on the other side of an
open position reduces it. The tracker keys positions by order id and adds
every filled volume, and nothing calls `on_position_closed`, so the lots
the next order is validated against are the GROSS lots of everything that
was ever filled. They are the net lots exactly when no symbol was filled
on both sides. The position rule then adds the requested lots whatever
their side, so a closing order counts twice.

`netting_exposure_iff` is the exact condition for both halves.
-/
import TdSandboxed.Engine.DispatchTheorems
import TdSandboxed.Execution.RuleContext
import TdSandboxed.Lib.Netting

namespace TdSandboxed

open Lib Lib.TaskSystem Lib.Netting

/-! ## Signed fills -/

/-- What a market order books on the venue once it is filled. -/
def NautilusOrder.booking (n : NautilusOrder) : String × ℚ :=
  (n.symbol, ((nautilusToInternalSide n.side).map OrderSide.sign).getD 0 * n.quantity)

def bookings (ns : List NautilusOrder) : List (String × ℚ) := ns.map NautilusOrder.booking

/-- Dispatches on one account's client, one after the other, each reported
as filled. -/
inductive FilledRun (priceAccepted : String → Bool) (w : Wiring) (account : AccountId)
    (sh₀ : Shared) : List NautilusOrder → Shared → Prop
  | nil : FilledRun priceAccepted w account sh₀ [] sh₀
  | snoc {ns : List NautilusOrder} {n : NautilusOrder} {i : ℕ} {es : List (CallEvent ⊕ EnvEvent)}
      {sh sh' : Shared} {events : List EngineEvent} :
      FilledRun priceAccepted w account sh₀ ns sh →
      Dispatched priceAccepted w account n i sh es sh' events →
      (∃ e ∈ events, e.isFill = true) →
      FilledRun priceAccepted w account sh₀ (ns ++ [n]) sh'

theorem OrderSide.abs_sign (s : OrderSide) : |s.sign| = 1 := by
  cases s <;> simp [OrderSide.sign]

theorem Order.abs_signed (o : Order) : |o.signed| = o.volume := by
  rw [Order.signed, abs_mul, OrderSide.abs_sign, one_mul, abs_of_pos o.volume_pos]

theorem booking_of_translated {n : NautilusOrder} {account : AccountId} {o : Order}
    (h : toInternalOrder n account = .ok o) : n.booking = (o.symbol, o.signed) := by
  obtain ⟨-, hside, -, -, hsym, hvol⟩ := toInternalOrder_ok h
  simp [NautilusOrder.booking, Order.signed, hside, hsym, hvol]

/-! ## One filled dispatch -/

section
variable {priceAccepted : String → Bool} {w : Wiring} {account : AccountId} {sh₀ sh : Shared}

theorem exists_returned_of_fill {n : NautilusOrder} {o : Order} {out : Outcome}
    (h : ∃ e ∈ report priceAccepted n o out, e.isFill = true) :
    ∃ r, out = .returned r ∧ r.isFilled = true := by
  cases out with
  | returned r =>
    refine ⟨r, rfl, ?_⟩
    by_contra hr
    simp [report, hr, EngineEvent.isFill] at h
  | raised x => cases x <;> simp [report, EngineEvent.isFill] at h

theorem cancelled_of_mem {i : ℕ} {o : Order} {es : List (CallEvent ⊕ EnvEvent)} {p : Shared × Call}
    (h : Run ((adapterSystem w).solo i) (sh₀, { order := o }) es p) (hc : .inl .cancel ∈ es) :
    p.2.phase.leaving? = some (.raised .cancelled) := by
  revert hc
  refine h.invariant (fun es p => .inl .cancel ∈ es →
    p.2.phase.leaving? = some (.raised .cancelled)) (by simp) ?_
  intro es p e q _ hi _ hs hmem
  have hbefore : e = .inl .cancel ∨ p.2.phase.leaving? = some (.raised .cancelled) := by
    rcases List.mem_append.mp hmem with hmem | hmem
    · exact .inr (hi hmem)
    · exact .inl (List.mem_singleton.mp hmem).symm
  rcases solo_cases hs with ⟨d, rfl, hd⟩ | ⟨d, rfl, -, hq⟩
  · exact Call.cancelled_step (Call.moves hd) (hbefore.imp_left Sum.inl.inj)
  · rw [hq]
    exact hbefore.resolve_left (by simp)

/-- **A filled dispatch adds the order's volume to the account's lots** and
leaves a risk state. -/
theorem lots_of_filled {n : NautilusOrder} {i : ℕ} {es : List (CallEvent ⊕ EnvEvent)}
    {sh' : Shared} {events : List EngineEvent} (hpnl : w.pnlRegistry = true)
    (h : Dispatched priceAccepted w account n i sh es sh' events)
    (hfill : ∃ e ∈ events, e.isFill = true) :
    sh'.books.lots account.id = sh.books.lots account.id + |n.booking.2| ∧
      0 < |n.booking.2| ∧ (sh'.books.risk account.id).isSome := by
  cases h with
  | denied => simp [EngineEvent.isFill] at hfill
  | @ended o es sh' c out hok _ hrun hp =>
    obtain ⟨r, rfl, hr⟩ := exists_returned_of_fill hfill
    have hno : ∀ e ∈ es, e ≠ .inl .cancel := by
      rintro e he rfl
      simpa [hp] using cancelled_of_mem hrun he
    have hbooked := Call.booked_run priceAccepted hpnl hno hrun
    have hrec : c.recorded = true := by
      have htold := hbooked.told
      simp only [hp] at htold
      exact htold.symm.trans hr
    have hrisk := hbooked.equity (by simp [hp, Phase.equitySaved, Outcome.returnsFill, hr])
    have hlots := hbooked.lots
    obtain ⟨-, -, -, ha, -⟩ := toInternalOrder_ok hok
    rw [booking_of_translated hok]
    simp only [hrec, if_true, ha] at hlots hrisk
    exact ⟨by rw [hlots, o.abs_signed], by rw [o.abs_signed]; exact o.volume_pos, hrisk⟩

/-! ## The whole sequence -/

variable {ns : List NautilusOrder}

theorem bookings_ne_zero (hpnl : w.pnlRegistry = true)
    (h : FilledRun priceAccepted w account sh₀ ns sh) : ∀ x ∈ bookings ns, 0 < |x.2| := by
  induction h with
  | nil => simp [bookings]
  | snoc _ hd hfill ih =>
    simp only [bookings, List.map_append, List.map_singleton, List.mem_append,
      List.mem_singleton]
    rintro x (hx | rfl)
    · exact ih x hx
    · exact (lots_of_filled hpnl hd hfill).2.1

/-- **Gross lots.** After any sequence of filled orders the account's next
order is validated against everything that was ever filled. -/
theorem positionLots_eq_gross (hpnl : w.pnlRegistry = true)
    (h₀ : sh₀.books.lots account.id = 0) (h : FilledRun priceAccepted w account sh₀ ns sh) :
    positionLots w sh.books account.id = grossTotal (bookings ns) := by
  have hall : sh.books.lots account.id = grossTotal (bookings ns) ∧
      (ns ≠ [] → (sh.books.risk account.id).isSome) := by
    induction h with
    | nil => exact ⟨by simpa [bookings, grossTotal] using h₀, by simp⟩
    | snoc _ hd hfill ih =>
      obtain ⟨hlots, -, hrisk⟩ := lots_of_filled hpnl hd hfill
      refine ⟨?_, fun _ => hrisk⟩
      rw [hlots, ih.1]
      simp [bookings, grossTotal]
  rw [positionLots, hall.1, hpnl]
  cases ns with
  | nil => simp [bookings, grossTotal]
  | cons n ns => simp [hall.2 (by simp)]

variable (account) in
/-- An order that takes the account out of an open symbol. -/
theorem exists_closing {s : String} (hs : s ≠ "") (hnet : net s (bookings ns) ≠ 0) :
    ∃ o : Order, o.accountId = account.id ∧ o.symbol = s ∧
      o.signed = -net s (bookings ns) := by
  refine ⟨{ accountId := account.id, symbol := s, volume := |net s (bookings ns)|, price := 1
            action := if 0 < net s (bookings ns) then .sell else .buy
            orderId := "close", accountId_ne := account.id_ne, symbol_ne := hs
            volume_pos := abs_pos.mpr hnet }, rfl, rfl, ?_⟩
  unfold Order.signed
  dsimp only
  split
  · rename_i hpos
    simp [OrderSide.sign, abs_of_pos hpos]
  · rename_i hneg
    simp [OrderSide.sign, abs_of_nonpos (not_lt.mp hneg)]

/-- A symbol that was filled has gross lots and a name. -/
theorem gross_pos (hne : ∀ x ∈ bookings ns, 0 < |x.2|) {s : String} (hs : s ∈ keys (bookings ns)) :
    0 < gross s (bookings ns) ∧ s ≠ "" := by
  obtain ⟨x, hx, rfl⟩ := List.mem_map.mp (List.mem_toFinset.mp hs)
  refine ⟨(hne x hx).trans_le (le_gross hx), ?_⟩
  obtain ⟨n, -, rfl⟩ := List.mem_map.mp hx
  exact n.symbol_ne

/-- An order that closes a net position has its volume. -/
theorem volume_of_closing {o : Order} {lots : ℚ} (h : o.signed = -lots) : o.volume = |lots| := by
  rw [← o.abs_signed, h, abs_neg]

end

/-! ## Opened and closed -/

/-- One more lot of gold, filled at 2000. -/
theorem FilledRun.gold {ns : List NautilusOrder} {sh sh' : Shared} {i : ℕ} {id : String}
    {side : NautilusOrderSide} {o : Order} {first : Bool} {hid : id ≠ ""} {c : Call}
    (h : FilledRun (fun _ => true) openWiring ftmo {} ns sh)
    (hok : toInternalOrder (goldMarket id side hid) ftmo = .ok o) (hz : sh.zmq.FreshFuture i)
    (hrun : Run ((adapterSystem openWiring).solo i) (sh, { order := o })
      (filledAt id (some 2000) first) (sh', c))
    (hfin : c.phase =
      .finished (.returned { orderId := id, status := .filled, fillPrice := some 2000 })) :
    FilledRun (fun _ => true) openWiring ftmo {} (ns ++ [goldMarket id side hid]) sh' := by
  refine h.snoc (.ended hok hz hrun hfin) ?_
  simp [report, OrderResult.isFilled, emitFill, EngineEvent.isFill]

/-- The call has returned its fill at 2000. -/
def returnedFill (id : String) (p : Shared × Call) : Bool :=
  p.2.phase = .finished (.returned { orderId := id, status := .filled, fillPrice := some 2000 })

end TdSandboxed
