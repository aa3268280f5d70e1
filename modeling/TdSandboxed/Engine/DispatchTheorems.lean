/-
TdSandboxed.Engine.DispatchTheorems — what the engine is told against what
the tracker holds.

A fill is read twice: by the adapter, which hands it to the tracker, and
by the dispatcher, which reports it to the engine. The two part in two
places. The tracker takes a FILLED result whatever its price, and the
dispatcher reports a fill only with a price Nautilus accepts. And an
exception of the tracker's bookkeeping leaves `send_order_and_wait` after
the tracker has taken the fill, so the order is reported as rejected.

`fillAgrees` excludes both, step by step, and it is exact
(`dispatch_agrees_iff`): engine and tracker agree after a dispatch if and
only if every step of it met the condition. The invariant names the calls
that are past repair (`doomed`): the tracker has taken the fill, and
whatever happens now no `OrderFilled` will be emitted.
-/
import TdSandboxed.Engine.SubmitDispatcher
import TdSandboxed.Execution.FillTheorems

namespace TdSandboxed

open Lib Lib.TaskSystem

/-! ## Agreement -/

/-- A tracker that only ticks have reached. -/
def markTick (a : String) (t : Option PnLTracker) : CallEvent ⊕ EnvEvent → Option PnLTracker
  | .inr (.tick b symbol bid ask) => if b = a then t.map (·.onTick symbol bid ask) else t
  | _ => t

/-- The tracker of account `a` with the run's ticks and nothing else. -/
def unchangedTracker (a : String) (b₀ : Books) (es : List (CallEvent ⊕ EnvEvent)) :
    Option PnLTracker :=
  es.foldl (markTick a) (b₀.pnl a)

/-- The events emitted for order `id` agree with the account's tracker:
one terminal event, a fill event exactly when the tracker took the order,
and a tracker left alone when the order was refused. -/
structure Agreement (events : List EngineEvent) (a id : String) (b₀ : Books)
    (es : List (CallEvent ⊕ EnvEvent)) (b : Books) : Prop where
  one_terminal : (events.filter EngineEvent.isTerminal).length = 1
  filled_iff : (∃ e ∈ events, e.isFill = true) ↔ b.recorded? a id ≠ b₀.recorded? a id
  refused : (∃ e ∈ events, e.isRefusal = true) → b.pnl a = unchangedTracker a b₀ es

/-! ## The condition -/

/-- A result the tracker takes has a price Nautilus accepts, and the
bookkeeping after it does not fail. -/
def fillAgrees (priceAccepted : String → Bool) (i : ℕ) (p : Shared × Call) :
    CallEvent ⊕ EnvEvent → Bool
  | .inl e =>
    match p.2.phase, e with
    | .awaiting _, .reply =>
      match p.1.zmq.futures i with
      | some (.done r) =>
        !r.isFilled || (p.1.books.pnl p.2.order.accountId).isNone || r.fillPriceAccepted priceAccepted
      | _ => true
    | .readingBalance _ r, .balance _ => r.fillPriceAccepted priceAccepted
    | .updatingEquity _ _ _, .fail _ | .persistingRisk _ _, .fail _ | .savingBalance _ _, .fail _ =>
      false
    | _, _ => true
  | .inr _ => true

/-- Every step of the dispatch meets the condition. -/
def FillAgrees (priceAccepted : String → Bool) (w : Wiring) (account : AccountId)
    (n : NautilusOrder) (i : ℕ) (sh₀ : Shared) (es : List (CallEvent ⊕ EnvEvent)) : Prop :=
  ∀ o, toInternalOrder n account = .ok o →
    Checked ((adapterSystem w).solo i) (fun p e => fillAgrees priceAccepted i p e = true)
      (sh₀, { order := o }) es

/-! ## One call -/

/-- A call that ends this way, having told the tracker or not. -/
def Outcome.Told (recorded : Bool) : Outcome → Prop
  | .returned r => r.isFilled = recorded
  | .raised (.blocked _) | .raised .timeout => recorded = false
  | .raised .cancelled => False
  | .raised (.other _) => True

/-- The phase of a call that has told the tracker, or has not. -/
def Phase.Told (recorded : Bool) : Phase → Prop
  | .created | .reserving _ | .readingReserved _ | .reserved _ _ | .sending _ | .awaiting _ =>
    recorded = false
  | .readingBalance _ r => recorded = false ∧ r.isFilled = true
  | .updatingEquity _ r _ | .persistingRisk _ r | .savingBalance _ r =>
    recorded = true ∧ r.isFilled = true
  | .releasing out | .released out | .finished out => out.Told recorded

def Outcome.returnsFill : Outcome → Bool
  | .returned r => r.isFilled
  | .raised _ => false

/-- The registry has the account's new equity. -/
def Phase.equitySaved : Phase → Bool
  | .persistingRisk _ _ | .savingBalance _ _ => true
  | .releasing out | .released out | .finished out => out.returnsFill
  | _ => false

section
variable (priceAccepted : String → Bool)

/-- The tracker has the fill, and it is not reported. -/
def Outcome.doomed (recorded : Bool) : Outcome → Bool
  | .returned r => recorded && !r.fillPriceAccepted priceAccepted
  | .raised _ => recorded

/-- The tracker has the fill, and whatever happens now it will not be
reported. -/
def Phase.doomed (recorded : Bool) : Phase → Bool
  | .updatingEquity _ r _ | .persistingRisk _ r | .savingBalance _ r =>
    !r.fillPriceAccepted priceAccepted
  | .releasing out | .released out | .finished out => out.doomed priceAccepted recorded
  | _ => false

end

namespace Call

variable {w : Wiring} {sh sh' : Shared} {i : ℕ} {c c' : Call} {e : CallEvent} {rec held : Bool}
  {out : Outcome} {priceAccepted : String → Bool}

@[simp] theorem leave_told : (c.leave held out).phase.Told rec ↔ out.Told rec := by
  cases held <;> rfl

@[simp] theorem leave_doomed :
    (c.leave held out).phase.doomed priceAccepted rec = out.doomed priceAccepted rec := by
  cases held <;> rfl

@[simp] theorem leave_equitySaved : (c.leave held out).phase.equitySaved = out.returnsFill := by
  cases held <;> rfl

theorem unrecorded_of_told (h : c.phase.Told rec)
    (hk : c.phase.kind = .gating ∨ c.phase.kind = .waiting ∨ c.phase.kind = .loading) :
    rec = false := by
  cases hp : c.phase <;> simp_all [Phase.Told]

theorem recorded_of_told (h : c.phase.Told rec) (hk : c.phase.kind = .tracking) : rec = true := by
  cases hp : c.phase <;> simp_all [Phase.Told]

/-- **A step keeps the history in agreement with the phase**, as long as
nobody cancels the call. -/
theorem told_step (h : c.phase.Told c.recorded) (hpnl : w.pnlRegistry = true)
    (hm : Moves w sh i c e sh' c') (he : e ≠ .cancel) : c'.phase.Told c'.recorded := by
  have hbefore := unrecorded_of_told h
  cases hm with
  | toGate hp _ hg =>
    rcases hg with ⟨-, rfl⟩ | ⟨-, rfl⟩ <;> exact hbefore (by simp [hp])
  | reserve hp | readCounter hp | sent hp | ungated hp | admitted hp => exact hbefore (by simp [hp])
  | gateFailed hg => exact hbefore (.inl hg)
  | blocked hp | rejected hp => exact hbefore (by simp [hp])
  | gateCancelled | waitCancelled | releaseCancelled => exact absurd rfl he
  | unsent hp hx =>
    rcases hx with ⟨s, -, rfl⟩ | ⟨rfl, -⟩
    · simp [Outcome.Told]
    · exact absurd rfl he
  | timedOut hp => simpa [Outcome.Told] using hbefore (by simp [hp])
  | recordFill hp _ _ hfill => exact ⟨rfl, hfill⟩
  | loadBalance hp _ _ hfill => exact ⟨hbefore (by simp [hp]), hfill⟩
  | noTracker => simp [Outcome.Told]
  | untold hp _ htold =>
    simp only [hpnl, Bool.true_and] at htold
    simpa [Outcome.Told, htold] using (hbefore (by simp [hp])).symm
  | createTracker hp =>
    rw [hp] at h
    exact ⟨rfl, h.2⟩
  | equityLoaded hp | balanceNext hp =>
    rw [hp] at h
    exact h
  | kept hp =>
    rcases hp with hp | hp <;>
    · rw [hp] at h
      simpa [Outcome.Told, h.1] using h.2
  | trackerFailed _ _ hx =>
    rcases hx with ⟨s, -, rfl⟩ | ⟨rfl, -⟩
    · simp [Outcome.Told]
    · exact absurd rfl he
  | release hp =>
    rw [hp] at h
    exact h
  | settled hp =>
    rcases hp with ⟨hp, -⟩ | ⟨hp | hp, -⟩ <;>
    · rw [hp] at h
      exact h

/-- **A step dooms a call exactly when it does not meet the condition.** -/
theorem doomed_step (h : c.phase.Told c.recorded) (hpnl : w.pnlRegistry = true)
    (hm : Moves w sh i c e sh' c') (he : e ≠ .cancel) :
    c'.phase.doomed priceAccepted c'.recorded = false ↔
      c.phase.doomed priceAccepted c.recorded = false ∧
        fillAgrees priceAccepted i (sh, c) (.inl e) = true := by
  have hbefore := unrecorded_of_told h
  cases hm with
  | toGate hp _ hg =>
    rcases hg with ⟨-, rfl⟩ | ⟨-, rfl⟩ <;> simp [Phase.doomed, fillAgrees, hp]
  | reserve hp | readCounter hp | sent hp | ungated hp | admitted hp =>
    simp [Phase.doomed, fillAgrees, hp, hand]
  | gateFailed hg =>
    cases hp : c.phase <;> simp [hp] at hg <;> simp [Phase.doomed, fillAgrees, hp, hand]
  | blocked hp | rejected hp =>
    simp [Phase.doomed, Outcome.doomed, fillAgrees, hp, hbefore (by simp [hp])]
  | gateCancelled | waitCancelled | releaseCancelled => exact absurd rfl he
  | unsent hp hx =>
    have hrec := hbefore (by simp [hp])
    rcases hx with ⟨s, rfl, rfl⟩ | ⟨rfl, -⟩
    · rw [leave_doomed]
      simp [Phase.doomed, Outcome.doomed, fillAgrees, hp, hrec]
    · exact absurd rfl he
  | timedOut hp =>
    rw [leave_doomed]
    simp [Phase.doomed, Outcome.doomed, fillAgrees, hp, hbefore (by simp [hp])]
  | recordFill hp hfut _ hfill ht =>
    simp [Phase.doomed, fillAgrees, record, hp, hfut, hfill, ht]
  | loadBalance hp hfut _ hfill ht => simp [Phase.doomed, fillAgrees, hp, hfut, ht]
  | noTracker hp hfut _ hfill ht =>
    rw [leave_doomed]
    simp [Phase.doomed, Outcome.doomed, fillAgrees, hp, hfut, ht, hbefore (by simp [hp])]
  | untold hp hfut htold =>
    simp only [hpnl, Bool.true_and] at htold
    rw [leave_doomed]
    simp [Phase.doomed, Outcome.doomed, fillAgrees, hp, hfut, htold, hbefore (by simp [hp])]
  | createTracker hp => simp [Phase.doomed, fillAgrees, record, hp]
  | equityLoaded hp | balanceNext hp => simp [Phase.doomed, fillAgrees, hp]
  | kept hp =>
    have hrec : c.recorded = true := by
      rcases hp with hp | hp <;> exact recorded_of_told h (by simp [hp])
    rw [leave_doomed]
    rcases hp with hp | hp <;> simp [Phase.doomed, Outcome.doomed, fillAgrees, hp, hrec]
  | trackerFailed hk _ hx =>
    rw [leave_doomed]
    rcases hx with ⟨s, rfl, rfl⟩ | ⟨rfl, -⟩
    · rcases hk with hk | hk
      · have hrec := hbefore (.inr (.inr hk))
        cases hp : c.phase <;> simp [hp] at hk
        simp [Phase.doomed, Outcome.doomed, fillAgrees, hp, hrec]
      · have hrec := recorded_of_told h hk
        cases hp : c.phase <;> simp [hp] at hk <;>
          simp [Outcome.doomed, fillAgrees, hp, hrec]
    · exact absurd rfl he
  | release hp => simp [Phase.doomed, fillAgrees, hp]
  | settled hp =>
    rcases hp with ⟨hp, rfl⟩ | ⟨hp | hp, s, rfl⟩ <;> simp [Phase.doomed, fillAgrees, hp]

/-- A filled order is returned only after the registry has the new equity. -/
theorem equity_step (hpnl : w.pnlRegistry = true) (hm : Moves w sh i c e sh' c')
    (h : c.phase.equitySaved = true → (sh.books.risk c.order.accountId).isSome) :
    c'.phase.equitySaved = true → (sh'.books.risk c.order.accountId).isSome := by
  cases hm with
  | toGate _ _ hg => rcases hg with ⟨-, rfl⟩ | ⟨-, rfl⟩ <;> simp [Phase.equitySaved]
  | untold _ _ htold =>
    simp only [hpnl, Bool.true_and] at htold
    simp [Outcome.returnsFill, htold]
  | unsent | noTracker | trackerFailed | timedOut | waitCancelled => simp [Outcome.returnsFill]
  | equityLoaded => simp [Shared.setRisk, Books.setRisk]
  | balanceNext hp => exact fun _ => h (by simp [hp, Phase.equitySaved])
  | kept hp => exact fun _ => h (by rcases hp with hp | hp <;> simp [hp, Phase.equitySaved])
  | release hp => exact fun hs => h (by rw [hp]; exact hs)
  | settled hp =>
    refine fun hs => h ?_
    rcases hp with ⟨hp, -⟩ | ⟨hp | hp, -⟩ <;> (rw [hp]; exact hs)
  | _ => simp [Phase.equitySaved, Outcome.returnsFill, hand, record]

/-- A cancelled call stays cancelled. -/
theorem cancelled_step (hm : Moves w sh i c e sh' c')
    (h : e = .cancel ∨ c.phase.leaving? = some (.raised .cancelled)) :
    c'.phase.leaving? = some (.raised .cancelled) := by
  have hkind : c.phase.leaving? = some (.raised .cancelled) → c.phase.kind = .leaving := by
    intro hl
    cases hp : c.phase <;> simp_all [Phase.leaving?]
  cases hm with
  | gateCancelled | waitCancelled | releaseCancelled => simp
  | unsent hp hx =>
    rcases hx with ⟨s, rfl, -⟩ | ⟨-, rfl⟩
    · simp [hp, Phase.leaving?] at h
    · simp
  | trackerFailed hk _ hx =>
    rcases hx with ⟨s, rfl, -⟩ | ⟨-, rfl⟩
    · rcases hk with hk | hk <;> simp [hk] at hkind <;> simp [hkind] at h
    · simp
  | gateFailed hg =>
    simp [hg] at hkind
    simp [hkind] at h
  | kept hp => rcases hp with hp | hp <;> simp [hp, Phase.leaving?] at h
  | release hp => simpa [hp] using h
  | settled hp => rcases hp with ⟨hp, rfl⟩ | ⟨hp | hp, s, rfl⟩ <;> simpa [hp] using h
  | toGate hp | ungated hp | reserve hp | readCounter hp | admitted hp | blocked hp | rejected hp
  | sent hp | timedOut hp | recordFill hp | loadBalance hp | noTracker hp | untold hp
  | createTracker hp | equityLoaded hp | balanceNext hp => simp [hp, Phase.leaving?] at h

/-- A step leaves the account's tracker alone, or it is the one that tells
it of the order. -/
theorem tracker_step (h : c.phase.Told c.recorded) (hm : Moves w sh i c e sh' c')
    (hload : c.phase.kind = .loading → sh.books.pnl c.order.accountId = none) :
    c'.recorded = c.recorded ∧ sh'.books.pnl c.order.accountId = sh.books.pnl c.order.accountId ∧
        (c'.phase.kind = .loading → sh.books.pnl c.order.accountId = none) ∨
      c.recorded = false ∧ c'.recorded = true ∧ c'.phase.kind = .tracking ∧
        sh'.books.lots c.order.accountId = sh.books.lots c.order.accountId + c.order.volume ∧
        sh'.books.recorded? c.order.accountId c.order.orderId ≠
          sh.books.recorded? c.order.accountId c.order.orderId := by
  cases hm with
  | @recordFill held r t hp hfut _ hfill ht =>
    refine .inr ⟨unrecorded_of_told h (by simp [hp]), rfl, rfl, ?_, ?_⟩
    · have hlots := t.lots_record c.order hfill
      simpa [record, Shared.setTracker, Books.setTracker, Books.lots, ht] using hlots
    have hne := t.recorded?_record_ne c.order hfill
    simp only [record, Shared.setTracker, Books.recorded?_setTracker, if_true]
    simpa [Books.recorded?, ht] using hne
  | @createTracker held r b hp =>
    refine .inr ⟨unrecorded_of_told h (by simp [hp]), rfl, rfl, ?_, ?_⟩ <;> rw [hp] at h
    · have hlots := (PnLTracker.init c.order.accountId (b.getD 0)).lots_record c.order h.2
      simpa [record, Shared.setTracker, Books.setTracker, Books.lots, hload (by simp [hp])] using hlots
    have hne := (PnLTracker.init c.order.accountId (b.getD 0)).recorded?_record_ne c.order h.2
    simp only [record, Shared.setTracker, Books.recorded?_setTracker, if_true]
    simpa [Books.recorded?, hload (by simp [hp])] using hne
  | loadBalance _ _ _ _ ht => exact .inl ⟨rfl, rfl, fun _ => ht⟩
  | toGate hp _ hg =>
    rcases hg with ⟨-, rfl⟩ | ⟨-, rfl⟩ <;> exact .inl ⟨rfl, rfl, by simp⟩
  | _ => exact .inl ⟨rfl, rfl, by simp [hand]⟩

end Call

/-! ## The run of a dispatch -/

theorem recorded?_unchangedTracker (a id : String) (b₀ : Books)
    (es : List (CallEvent ⊕ EnvEvent)) :
    ((unchangedTracker a b₀ es).bind fun t => t.recorded? id) = b₀.recorded? a id := by
  unfold unchangedTracker Books.recorded?
  generalize b₀.pnl a = t
  induction es generalizing t with
  | nil => rfl
  | cons e es ih =>
    rw [List.foldl_cons, ih]
    unfold markTick
    split
    · split
      · cases t <;> simp
      · rfl
    · rfl

theorem envStep_tracker {sh sh' : Shared} {d : EnvEvent} (h : envStep sh d = some sh') (a : String) :
    sh'.books.pnl a = markTick a (sh.books.pnl a) (.inr d) := by
  cases d with
  | orderResult r | riskState b rs =>
    obtain rfl := Option.some.inj h
    rfl
  | tick b symbol bid ask =>
    simp only [envStep] at h
    split at h
    · rename_i t ht
      obtain rfl := Option.some.inj h
      by_cases hb : b = a
      · subst hb
        simp [markTick, Shared.setTracker, Books.setTracker, ht]
      · simp [markTick, Shared.setTracker, Books.setTracker, hb, Ne.symm hb]
    · rename_i ht
      obtain rfl := Option.some.inj h
      by_cases hb : b = a
      · subst hb
        simp [markTick, ht]
      · simp [markTick, hb]

/-- A risk state is replaced and never removed. -/
theorem envStep_risk {sh sh' : Shared} {d : EnvEvent} (h : envStep sh d = some sh') (a : String)
    (hrisk : (sh.books.risk a).isSome) : (sh'.books.risk a).isSome := by
  cases d with
  | orderResult r =>
    obtain rfl := Option.some.inj h
    exact hrisk
  | riskState b rs =>
    obtain rfl := Option.some.inj h
    by_cases hb : a = b
    · simp [Shared.setRisk, Books.setRisk, hb]
    · simpa [Shared.setRisk, Books.setRisk, hb] using hrisk
  | tick b symbol bid ask =>
    simp only [envStep] at h
    split at h <;> (obtain rfl := Option.some.inj h; exact hrisk)

/-- A call, seen from the start of its dispatch. -/
structure Call.Booked (priceAccepted : String → Bool) (w : Wiring) (i : ℕ) (sh₀ : Shared)
    (o : Order) (es : List (CallEvent ⊕ EnvEvent)) (p : Shared × Call) : Prop where
  order : p.2.order = o
  told : p.2.phase.Told p.2.recorded
  loading : p.2.phase.kind = .loading → p.1.books.pnl o.accountId = none
  unrecorded : p.2.recorded = false →
    p.1.books.pnl o.accountId = unchangedTracker o.accountId sh₀.books es
  recorded : p.2.recorded = true →
    p.1.books.recorded? o.accountId o.orderId ≠ sh₀.books.recorded? o.accountId o.orderId
  lots : p.1.books.lots o.accountId =
    sh₀.books.lots o.accountId + if p.2.recorded then o.volume else 0
  equity : p.2.phase.equitySaved = true → (p.1.books.risk o.accountId).isSome
  agrees : Checked ((adapterSystem w).solo i) (fun p e => fillAgrees priceAccepted i p e = true)
    (sh₀, { order := o }) es ↔ p.2.phase.doomed priceAccepted p.2.recorded = false

section
variable {priceAccepted : String → Bool} {w : Wiring} {i : ℕ} {sh₀ sh : Shared} {o : Order}
  {es : List (CallEvent ⊕ EnvEvent)} {e : CallEvent ⊕ EnvEvent} {p q : Shared × Call}

/-- While the call has not told it, the account's tracker knows of the
order what it knew at the start. -/
theorem Call.Booked.recorded?_eq (h : Call.Booked priceAccepted w i sh₀ o es p)
    (hr : p.2.recorded = false) :
    p.1.books.recorded? o.accountId o.orderId = sh₀.books.recorded? o.accountId o.orderId := by
  rw [← recorded?_unchangedTracker o.accountId o.orderId sh₀.books es, ← h.unrecorded hr]
  rfl

theorem Call.Booked.step (h : Call.Booked priceAccepted w i sh₀ o es p)
    (hpnl : w.pnlRegistry = true) (hexec : exec ((adapterSystem w).solo i) (sh₀, { order := o }) es = some p)
    (he : e ≠ .inl .cancel) (hs : (adapterSystem w).solo i p e = some q) :
    Call.Booked priceAccepted w i sh₀ o (es ++ [e]) q := by
  have hagrees : Checked ((adapterSystem w).solo i)
      (fun p e => fillAgrees priceAccepted i p e = true) (sh₀, { order := o }) (es ++ [e]) ↔
      p.2.phase.doomed priceAccepted p.2.recorded = false ∧ fillAgrees priceAccepted i p e = true :=
    (checked_snoc hexec).trans (and_congr_left' h.agrees)
  have hlast : ∀ a, unchangedTracker a sh₀.books (es ++ [e]) =
      markTick a (unchangedTracker a sh₀.books es) e := by
    intro a
    simp [unchangedTracker, List.foldl_append]
  rcases solo_cases hs with ⟨d, rfl, hd⟩ | ⟨d, rfl, hd, hq⟩
  · have hm := Call.moves hd
    have hd' : d ≠ .cancel := fun hc => he (by rw [hc])
    obtain rfl := h.order
    refine ⟨hm.order_eq, Call.told_step h.told hpnl hm hd', ?_, ?_, ?_, ?_,
      Call.equity_step hpnl hm h.equity, hagrees.trans (Call.doomed_step h.told hpnl hm hd').symm⟩
    all_goals rcases Call.tracker_step h.told hm h.loading with
      ⟨hrec, hbooks, hload⟩ | ⟨hold, hrec, hkind, hlots, hnew⟩
    · exact fun hk => hbooks.trans (hload hk)
    · exact fun hk => by simp [hkind] at hk
    · exact fun hr => by rw [hlast, hbooks, h.unrecorded (hrec ▸ hr)]; rfl
    · exact fun hr => by simp [hrec] at hr
    · intro hr
      have hold := h.recorded (hrec ▸ hr)
      simpa [Books.recorded?, hbooks] using hold
    · intro _
      rwa [h.recorded?_eq hold] at hnew
    · have hsame : q.1.books.lots p.2.order.accountId = p.1.books.lots p.2.order.accountId := by
        simp [Books.lots, hbooks]
      rw [hsame, h.lots, hrec]
    · rw [hlots, h.lots, hold, hrec]
      simp
  · have hpnl' := envStep_tracker hd o.accountId
    refine ⟨hq ▸ h.order, hq ▸ h.told, fun hk => ?_, fun hr => ?_, fun hr => ?_, ?_, ?_,
      hagrees.trans (by simp [fillAgrees, hq])⟩
    · rw [hpnl', h.loading (hq ▸ hk)]
      cases d <;> simp [markTick]
    · rw [hpnl', hlast, h.unrecorded (hq ▸ hr)]
    · rw [envStep_recorded? hd]
      exact h.recorded (hq ▸ hr)
    · rw [(envStep_books hd o.accountId).2, hq]
      exact h.lots
    · exact fun hs => envStep_risk hd o.accountId (h.equity (hq ▸ hs))

variable (priceAccepted) in
theorem Call.booked_run (hpnl : w.pnlRegistry = true) (hno : ∀ e ∈ es, e ≠ .inl .cancel)
    (h : Run ((adapterSystem w).solo i) (sh₀, { order := o }) es p) :
    Call.Booked priceAccepted w i sh₀ o es p := by
  revert hno
  refine h.invariant (fun es p => (∀ e ∈ es, e ≠ .inl .cancel) →
    Call.Booked priceAccepted w i sh₀ o es p) (fun _ => ?_) ?_
  · exact ⟨rfl, rfl, by simp, fun _ => rfl, by simp, by simp, by simp [Phase.equitySaved],
      by simp [Checked, Phase.doomed]⟩
  · intro es p e q hr hi _ hs hno
    have hold := hi fun d hd => hno d (List.mem_append_left _ hd)
    exact hold.step hpnl hr.exec_eq (hno e (by simp)) hs

/-- A call makes and resolves no future but its own. -/
theorem ZmqAdapter.FreshFuture.run {j : ℕ} (h₀ : sh₀.zmq.FreshFuture j) (hj : j ≠ i)
    (h : Run ((adapterSystem w).solo i) (sh₀, { order := o }) es p) : p.1.zmq.FreshFuture j := by
  refine h.invariant_state (fun p => p.1.zmq.FreshFuture j) h₀ ?_
  intro p e q hi _ hs
  rcases solo_cases hs with ⟨d, rfl, hd⟩ | ⟨d, rfl, hd, -⟩
  · have hm := Call.moves hd
    refine ⟨(hm.futures_of_ne hj).trans hi.futures, fun id hid => ?_⟩
    rcases hm.pendingOrders_origin hid with hold | ⟨-, hji⟩
    · exact hi.pendingOrders id hold
    · exact hj hji
  · cases d with
    | orderResult r =>
      obtain hq := Option.some.inj hd
      refine ⟨?_, fun id => ?_⟩
      · rw [← hq, ZmqAdapter.futures_orderResult, if_neg fun hp => hi.pendingOrders _ hp.1]
        exact hi.futures
      · rw [← hq, ZmqAdapter.pendingOrders_orderResult]
        split
        · simp
        · exact hi.pendingOrders id
    | riskState b rs =>
      obtain hq := Option.some.inj hd
      exact hq ▸ hi
    | tick b symbol bid ask =>
      have hz := envStep_tick_zmq hd
      exact hz ▸ hi

/-! ## What is reported -/

variable (priceAccepted) in
/-- An order the tracker was not told of is refused, once. -/
theorem report_of_unrecorded {n : NautilusOrder} {out : Outcome} (h : out.Told false) :
    ((report priceAccepted n o out).filter EngineEvent.isTerminal).length = 1 ∧
      ¬∃ e ∈ report priceAccepted n o out, e.isFill = true := by
  cases out with
  | returned r =>
    have hr : r.isFilled = false := h
    simp [report, hr, EngineEvent.isTerminal, EngineEvent.isFill, List.filter_cons]
  | raised x =>
    cases x with
    | cancelled => exact h.elim
    | _ => simp [report, EngineEvent.isTerminal, EngineEvent.isFill, List.filter_cons]

variable (priceAccepted) in
/-- An order the tracker was told of is reported as filled unless it is
doomed, and then it is reported once and not refused. -/
theorem report_of_recorded {n : NautilusOrder} {out : Outcome} (h : out.Told true) :
    ((∃ e ∈ report priceAccepted n o out, e.isFill = true) ↔
        out.doomed priceAccepted true = false) ∧
      (out.doomed priceAccepted true = false →
        ((report priceAccepted n o out).filter EngineEvent.isTerminal).length = 1 ∧
          ¬∃ e ∈ report priceAccepted n o out, e.isRefusal = true) := by
  cases out with
  | returned r =>
    have hr : r.isFilled = true := h
    cases hp : r.fillPrice with
    | none => simp [report, hr, hp, Outcome.doomed, OrderResult.fillPriceAccepted, EngineEvent.isFill]
    | some px =>
      cases ha : priceAccepted (fmtFixed 5 px) <;>
        simp [report, hr, hp, emitFill, ha, Outcome.doomed, OrderResult.fillPriceAccepted,
          EngineEvent.isFill, EngineEvent.isTerminal, EngineEvent.isRefusal, List.filter_cons]
  | raised x =>
    cases x with
    | other => simp [report, Outcome.doomed, EngineEvent.isFill]
    | cancelled => exact h.elim
    | _ => simp [Outcome.Told] at h

/-- What the dispatcher emits for a call that was not cancelled agrees with
the tracker unless the call is doomed. -/
theorem report_agrees_iff {n : NautilusOrder} {c : Call} {out : Outcome}
    (h : Call.Booked priceAccepted w i sh₀ o es (sh, c)) (hp : c.phase = .finished out) :
    Agreement (report priceAccepted n o out) o.accountId o.orderId sh₀.books es sh.books ↔
      out.doomed priceAccepted c.recorded = false := by
  have htold : out.Told c.recorded := by
    have := h.told
    rwa [hp] at this
  cases hr : c.recorded with
  | false =>
    rw [hr] at htold
    obtain ⟨hone, hfill⟩ := report_of_unrecorded priceAccepted (n := n) (o := o) htold
    have hsame := h.recorded?_eq hr
    have hdoom : out.doomed priceAccepted false = false := by cases out <;> simp [Outcome.doomed]
    refine iff_of_true ⟨hone, iff_of_false hfill (not_not.mpr hsame), fun _ => ?_⟩ hdoom
    exact h.unrecorded hr
  | true =>
    rw [hr] at htold
    obtain ⟨hfill, hrest⟩ := report_of_recorded priceAccepted (n := n) (o := o) htold
    have hnew := h.recorded hr
    constructor
    · exact fun hagree => hfill.mp (hagree.filled_iff.mpr hnew)
    · intro hdoom
      obtain ⟨hone, hrefused⟩ := hrest hdoom
      exact ⟨hone, iff_of_true (hfill.mpr hdoom) hnew, fun href => absurd href hrefused⟩

/-- **Engine and tracker agree after a dispatch exactly when every step of
it met the condition.** -/
theorem dispatch_agrees_iff {account : AccountId} {n : NautilusOrder} {events : List EngineEvent}
    (hpnl : w.pnlRegistry = true) (hno : ∀ e ∈ es, e ≠ .inl .cancel)
    (h : Dispatched priceAccepted w account n i sh₀ es sh events) :
    Agreement events account.id n.clientOrderId sh₀.books es sh.books ↔
      FillAgrees priceAccepted w account n i sh₀ es := by
  cases h with
  | denied herr =>
    refine iff_of_true ⟨rfl, ?_, fun _ => rfl⟩ fun o ho => by simp [herr] at ho
    simp [EngineEvent.isFill]
  | @ended o es sh c out hok _ hrun hp =>
    have hbooked := Call.booked_run priceAccepted hpnl hno hrun
    obtain ⟨-, -, hid, ha, -⟩ := toInternalOrder_ok hok
    have hagree := report_agrees_iff (n := n) hbooked hp
    rw [ha, hid] at hagree
    have hcheck := hbooked.agrees
    simp only [hp] at hcheck
    rw [hagree]
    refine hcheck.symm.trans ⟨fun hc o' ho' => ?_, fun hc => hc o hok⟩
    obtain rfl : o = o' := Except.ok.inj (hok.symm.trans ho')
    exact hc

end

/-! ## A fill without a price -/

def ftmo : AccountId := { id := "ftmo-001", id_ne := ftmo_ne }

/-- A market order for one lot of gold. -/
def goldMarket (clientOrderId : String) (side : NautilusOrderSide)
    (h : clientOrderId ≠ "" := by decide) : NautilusOrder :=
  { strategyId := "EMA-001", symbol := "XAUUSD", clientOrderId, side, quantity := 1,
    symbol_ne := gold_ne, clientOrderId_ne := h }

def goldBuy : NautilusOrder := goldMarket "O-1" .buy

theorem toInternalOrder_gold : toInternalOrder (goldMarket "O-1" .buy) ftmo = .ok (goldOrder "O-1") := by
  rfl

/-- The order is sent, the bridge answers FILLED with this price, and the
account's tracker is created if it is the first. -/
def filledAt (orderId : String) (price : Option ℚ) (first : Bool) : List (CallEvent ⊕ EnvEvent) :=
  [.inl (.start 0), .inl .reply,
   .inr (.orderResult { orderId, status := .filled, fillPrice := price }), .inl .reply] ++
    (if first then [.inl (.balance none)] else []) ++
    [.inl (.riskLoaded none), .inl .reply, .inl .reply]

theorem freshFuture_empty (i : ℕ) : ({} : ZmqAdapter).FreshFuture i := ⟨rfl, by simp⟩

/-- The result is FILLED and has no price: the engine is told that the order
was rejected, and the tracker has the position. -/
theorem filled_without_price_rejected :
    ∃ sh : Shared, Dispatched (fun _ => true) openWiring ftmo (goldMarket "O-1" .buy) 0 {}
        (filledAt "O-1" none true) sh [.submitted, .rejected "MT5 returned FILLED with no fill price"] ∧
      sh.books.recorded? "ftmo-001" "O-1" = some ("XAUUSD", .buy, 1) ∧
      ¬Agreement [.submitted, .rejected "MT5 returned FILLED with no fill price"] "ftmo-001" "O-1"
        {} (filledAt "O-1" none true) sh.books := by
  obtain ⟨⟨sh, c⟩, hrun, hp⟩ := Run.exists_of_exec
    ((adapterSystem openWiring).solo 0) ({}, { order := goldOrder "O-1" })
    (filledAt "O-1" none true)
    (fun p => decide
      (p.2.phase = .finished (.returned { orderId := "O-1", status := .filled }) ∧
        p.1.books.recorded? "ftmo-001" "O-1" = some ("XAUUSD", .buy, 1))) (by decide +kernel)
  obtain ⟨hfin, hrec⟩ := of_decide_eq_true hp
  refine ⟨sh, .ended toInternalOrder_gold (freshFuture_empty 0) hrun hfin, hrec, fun hagree => ?_⟩
  have hfill := hagree.filled_iff.mpr (by rw [hrec]; simp [Books.recorded?])
  simp [EngineEvent.isFill] at hfill

/-- With a price the same dispatch agrees. -/
theorem dispatch_agrees_gold :
    ∃ (sh : Shared) (events : List EngineEvent),
      Dispatched (fun _ => true) openWiring ftmo (goldMarket "O-1" .buy) 0 {}
        (filledAt "O-1" (some 2000) true) sh events ∧
      Agreement events "ftmo-001" "O-1" {} (filledAt "O-1" (some 2000) true) sh.books := by
  obtain ⟨⟨sh, c⟩, hrun, hp⟩ := Run.exists_of_exec
    ((adapterSystem openWiring).solo 0) ({}, { order := goldOrder "O-1" })
    (filledAt "O-1" (some 2000) true)
    (fun p => decide (p.2.phase =
      .finished (.returned { orderId := "O-1", status := .filled, fillPrice := some 2000 })))
    (by decide +kernel)
  have hdisp : Dispatched (fun _ => true) openWiring ftmo (goldMarket "O-1" .buy) 0 {}
      (filledAt "O-1" (some 2000) true) sh _ :=
    .ended toInternalOrder_gold (freshFuture_empty 0) hrun (of_decide_eq_true hp)
  refine ⟨sh, _, hdisp, (dispatch_agrees_iff rfl (by simp [filledAt]) hdisp).mpr fun o ho => ?_⟩
  obtain rfl := Except.ok.inj (toInternalOrder_gold.symm.trans ho)
  decide +kernel

end TdSandboxed
