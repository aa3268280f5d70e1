/-
TdSandboxed.Execution.FillTheorems — which fills reach the tracker.

A fill the bridge reports is recorded when it finds the call still waiting
and the call can hand it to the account's tracker. Four things lose one
(`fill_lost` is the first): the status is PARTIALLY_FILLED, which
`is_filled` does not accept; the call has timed out, was cancelled or has
failed before the result arrives or while it holds it; the registry has
neither a tracker nor Redis; a second call creates the account's tracker
over the first one's.

`CleanDelivery` excludes these step by step. Under it the tracker is exact
(`fills_recorded_exactly_once`): every order with a reported fill has
exactly one position, of its own symbol, side and volume, once its call is
past the tracker, and every other order id keeps what it had. The
invariant ties three places together for each call: its future, its
position, and its history.
-/
import TdSandboxed.Execution.ExposureTheorems

namespace TdSandboxed

open Lib Lib.TaskSystem

/-! ## What the bridge reports and what the tracker knows -/

/-- What the tracker of account `a` knows of an order id. -/
def Books.recorded? (b : Books) (a id : String) : Option (String × OrderSide × ℚ) :=
  (b.pnl a).bind fun t => t.recorded? id

def Order.key (o : Order) : String × OrderSide × ℚ := (o.symbol, o.action, o.volume)

/-- The event is the bridge's report of a fill, full or partial, for an
order it was sent. -/
def reportsFillOf (id : String) (s : AdapterState) : AdapterEvent → Bool
  | .env (.orderResult r) =>
    r.orderId = id && r.reportsFill && s.tasks.any fun c => c.order.orderId = id && c.sent
  | _ => false

/-- The bridge reported a fill for this order id during the run. -/
def FillReported (w : Wiring) (id : String) (s₀ : AdapterState) (es : List AdapterEvent) : Prop :=
  true ∈ observe (adapterSystem w).step (reportsFillOf id) s₀ es

instance (w : Wiring) (id : String) (s₀ : AdapterState) (es : List AdapterEvent) :
    Decidable (FillReported w id s₀ es) :=
  inferInstanceAs (Decidable (true ∈ observe (adapterSystem w).step (reportsFillOf id) s₀ es))

/-- The future holds a FILLED result. -/
def holdsFill : Option FutureState → Bool
  | some (.done r) => r.isFilled
  | _ => false

/-! ## The condition -/

/-- A step of a call that holds a fill brings it to the tracker. -/
def keepsFill (w : Wiring) (sh : Shared) (i : ℕ) (c : Call) (e : CallEvent) : Bool :=
  let pnl := sh.books.pnl c.order.accountId
  match c.phase, e with
  | .sending _, .fail _ | .sending _, .cancel | .awaiting _, .timeout | .awaiting _, .cancel =>
    !holdsFill (sh.zmq.futures i)
  | .awaiting _, .reply => !holdsFill (sh.zmq.futures i) || pnl.isSome || w.registryRedis
  | .readingBalance _ _, .fail _ | .readingBalance _ _, .cancel => false
  | .readingBalance _ _, .balance _ => pnl.isNone
  | _, _ => true

/-- The call can take the fill that arrives, or has taken it already. -/
def takesFill (sh : Shared) (i : ℕ) (c : Call) : Bool :=
  holdsFill (sh.zmq.futures i) ||
    (c.phase.kind = .waiting && sh.zmq.futures i = some .pending)

/-- Order ids are used once; a reported fill is FILLED and finds its call
waiting; a call that holds a fill gets it to the tracker. -/
def CleanDelivery (w : Wiring) (s : AdapterState) : AdapterEvent → Prop
  | .spawn o => (∀ c ∈ s.tasks, c.order.orderId ≠ o.orderId) ∧
    s.shared.books.recorded? o.accountId o.orderId = none
  | .task i e => ∀ c ∈ s.tasks[i]?, keepsFill w s.shared i c e = true
  | .env (.orderResult r) => r.reportsFill = true → ∀ i < s.tasks.length, ∀ c ∈ s.tasks[i]?,
    c.order.orderId = r.orderId → c.sent = true → r.isFilled = true ∧ takesFill s.shared i c = true
  | .env _ => True

instance (w : Wiring) (s : AdapterState) : DecidablePred (CleanDelivery w s)
  | .spawn o => inferInstanceAs (Decidable ((∀ c ∈ s.tasks, c.order.orderId ≠ o.orderId) ∧
      s.shared.books.recorded? o.accountId o.orderId = none))
  | .task i e => inferInstanceAs (Decidable (∀ c ∈ s.tasks[i]?, keepsFill w s.shared i c e = true))
  | .env (.orderResult r) => inferInstanceAs (Decidable (r.reportsFill = true →
      ∀ i < s.tasks.length, ∀ c ∈ s.tasks[i]?, c.order.orderId = r.orderId → c.sent = true →
        r.isFilled = true ∧ takesFill s.shared i c = true))
  | .env (.riskState _ _) | .env (.tick _ _ _ _) => .isTrue trivial

/-! ## One call -/

/-- A call's future, its position and its history agree. -/
structure Call.Delivered (sh : Shared) (i : ℕ) (c : Call) : Prop where
  gating : c.phase.kind = .gating → c.sent = false ∧ c.recorded = false
  unsent : c.sent = false → sh.zmq.futures i = none
  waiting : c.phase.kind = .waiting → c.recorded = false ∧
    (sh.zmq.futures i = some .pending → sh.zmq.pendingOrders c.order.orderId = some i)
  loading : ∀ h r, c.phase = .readingBalance h r →
    r.isFilled = true ∧ c.recorded = false ∧ holdsFill (sh.zmq.futures i) = true
  tracking : c.phase.kind = .tracking → c.recorded = true
  filled : holdsFill (sh.zmq.futures i) = true →
    c.recorded = true ∨ c.phase.kind = .waiting ∨ c.phase.kind = .loading
  recorded : c.recorded = true → holdsFill (sh.zmq.futures i) = true ∧
    sh.books.recorded? c.order.accountId c.order.orderId = some c.order.key
  unrecorded : c.recorded = false →
    sh.books.recorded? c.order.accountId c.order.orderId = none

namespace Books

@[simp] theorem recorded?_setReserved (b : Books) (a a' id : String) (raw : Option ℚ) :
    (b.setReserved a' raw).recorded? a id = b.recorded? a id := rfl

@[simp] theorem recorded?_setRisk (b : Books) (a a' id : String) (rs : RiskState) :
    (b.setRisk a' rs).recorded? a id = b.recorded? a id := rfl

theorem recorded?_setTracker (b : Books) (a a' id : String) (t : PnLTracker) :
    (b.setTracker a' t).recorded? a id = if a = a' then t.recorded? id else b.recorded? a id := by
  simp only [setTracker, recorded?, Function.update_apply]
  split <;> rfl

end Books

namespace Call

variable {w : Wiring} {sh sh' : Shared} {i j : ℕ} {c c' : Call} {e : CallEvent} {a id : String}

/-- **Frame.** A step leaves the future of every other call alone. -/
theorem Moves.futures_of_ne (hm : Moves w sh i c e sh' c') (hj : j ≠ i) :
    sh'.zmq.futures j = sh.zmq.futures j := by
  cases hm with
  | ungated | admitted | gateFailed => simp [hand, ZmqAdapter.futures_register, hj]
  | timedOut => simp [ZmqAdapter.timeOut, ZmqAdapter.pop, ZmqAdapter.futures_cancelWait, hj]
  | waitCancelled => simp [ZmqAdapter.futures_cancelWait, hj]
  | _ => rfl

/-- **Frame.** A step leaves the pending entry of every other id alone. -/
theorem Moves.pendingOrders_of_ne (hm : Moves w sh i c e sh' c') (hid : id ≠ c.order.orderId) :
    sh'.zmq.pendingOrders id = sh.zmq.pendingOrders id := by
  cases hm with
  | ungated | admitted | gateFailed => simp [hand, ZmqAdapter.register, hid]
  | timedOut => simp [ZmqAdapter.timeOut, ZmqAdapter.pendingOrders_pop, hid]
  | waitCancelled => simp
  | _ => rfl

/-- **Frame.** A step leaves what is known of every other order id alone,
unless it creates a tracker over an existing one. -/
theorem Moves.recorded?_of_ne (hm : Moves w sh i c e sh' c') (hid : id ≠ c.order.orderId)
    (hfirst : ∀ b, e = .balance b → sh.books.pnl c.order.accountId = none) :
    sh'.books.recorded? a id = sh.books.recorded? a id := by
  cases hm with
  | @recordFill held r t hp hfut hpnl hfill ht =>
    simp only [record, Shared.setTracker, Books.recorded?_setTracker]
    split
    · rename_i ha
      rw [PnLTracker.recorded?_record_of_ne hid]
      simp [Books.recorded?, ha, ht]
    · rfl
  | @createTracker held r b hp =>
    simp only [record, Shared.setTracker, Books.recorded?_setTracker]
    split
    · rename_i ha
      rw [PnLTracker.recorded?_record_of_ne hid]
      simp [Books.recorded?, ha, hfirst b rfl]
    · rfl
  | _ => rfl

theorem delivered_init {o : Order} (hf : sh.zmq.futures i = none)
    (hr : sh.books.recorded? o.accountId o.orderId = none) : Delivered sh i { order := o } where
  gating := by simp
  unsent _ := hf
  waiting := by simp
  loading := by simp
  tracking := by simp
  filled := by simp [holdsFill, hf]
  recorded := by simp
  unrecorded _ := hr

/-- `Delivered` reads the shared state in three places. -/
theorem Delivered.congr (h : c.Delivered sh i) (hf : sh'.zmq.futures i = sh.zmq.futures i)
    (hp : sh'.zmq.pendingOrders c.order.orderId = sh.zmq.pendingOrders c.order.orderId)
    (hr : sh'.books.recorded? c.order.accountId c.order.orderId =
      sh.books.recorded? c.order.accountId c.order.orderId) : c.Delivered sh' i where
  gating := h.gating
  unsent := by rw [hf]; exact h.unsent
  waiting := by rw [hf, hp]; exact h.waiting
  loading := by rw [hf]; exact h.loading
  tracking := h.tracking
  filled := by rw [hf]; exact h.filled
  recorded := by rw [hf, hr]; exact h.recorded
  unrecorded := by rw [hr]; exact h.unrecorded

theorem Delivered.goto_gating (h : c.Delivered sh i) (hg : c.phase.kind = .gating) {p : Phase}
    (hp : p.kind = .gating) : (c.goto p).Delivered sh i where
  gating _ := h.gating hg
  unsent := h.unsent
  waiting hw := by simp [hp] at hw
  loading held r hl := by simp [show p = .readingBalance held r from hl] at hp
  tracking ht := by simp [hp] at ht
  filled hf := by simp [holdsFill, h.unsent (h.gating hg).1] at hf
  recorded := h.recorded
  unrecorded := h.unrecorded

theorem Delivered.hand (h : c.Delivered sh i) (hg : c.phase.kind = .gating) (held : Bool) :
    (hand sh i c held).2.Delivered (hand sh i c held).1 i where
  gating := by simp [Call.hand]
  unsent := by simp [Call.hand]
  waiting _ := ⟨(h.gating hg).2, by simp [Call.hand, ZmqAdapter.register]⟩
  loading := by simp [Call.hand]
  tracking := by simp [Call.hand]
  filled := by simp [Call.hand]
  recorded hr := by simp [Call.hand, (h.gating hg).2] at hr
  unrecorded := h.unrecorded

/-- On the way out, nothing is asked but that a held fill is recorded. -/
theorem Delivered.leave (h : c.Delivered sh i) (hk : c'.phase.kind = .leaving)
    (hsent : c'.sent = c.sent) (hrec : c'.recorded = c.recorded) (hord : c'.order = c.order)
    (hfill : holdsFill (sh.zmq.futures i) = true → c.recorded = true) : c'.Delivered sh i where
  gating hg := by simp [hk] at hg
  unsent hs := h.unsent (hsent ▸ hs)
  waiting hw := by simp [hk] at hw
  loading held r hl := by simp [hl] at hk
  tracking ht := by simp [hk] at ht
  filled hf := .inl (hrec ▸ hfill hf)
  recorded hr := hord ▸ h.recorded (hrec ▸ hr)
  unrecorded hr := hord ▸ h.unrecorded (hrec ▸ hr)

/-- Giving up a wait touches the call's own future, and only when it is
still pending. -/
theorem Delivered.cancelWait (h : c.Delivered sh i) (hw : c.phase.kind = .waiting) (out : Outcome)
    (held : Bool) (hno : holdsFill (sh.zmq.futures i) = false) {z : ZmqAdapter}
    (hz : z.futures = (sh.zmq.cancelWait i).futures) :
    (c.leave held out).Delivered { sh with zmq := z } i where
  gating hg := by simp at hg
  unsent hs := by simp [hz, ZmqAdapter.futures_cancelWait, h.unsent hs]
  waiting hw := by simp at hw
  loading held r hl := by simpa using congrArg Phase.kind hl
  tracking ht := by simp at ht
  filled hf := by
    simp only [hz, ZmqAdapter.futures_cancelWait] at hf
    split at hf
    · simp [holdsFill] at hf
    · simp [hno] at hf
  recorded hr := by simp [(h.waiting hw).1] at hr
  unrecorded hr := h.unrecorded hr

/-- The tracker takes the fill the call holds. -/
theorem Delivered.record (h : c.Delivered sh i) {r : OrderResult} (hr : r.isFilled = true)
    (hf : holdsFill (sh.zmq.futures i) = true) (held : Bool) {t : PnLTracker}
    (ht : t.recorded? c.order.orderId = none) :
    (record sh c held r t).2.Delivered (record sh c held r t).1 i where
  gating := by simp [Call.record]
  unsent := h.unsent
  waiting := by simp [Call.record]
  loading := by simp [Call.record]
  tracking := by simp [Call.record]
  filled := by simp [Call.record]
  recorded _ := by
    refine ⟨hf, ?_⟩
    simp [Call.record, Shared.setTracker, Books.recorded?_setTracker,
      PnLTracker.recorded?_record_self hr ht, Order.key]
  unrecorded hr := by simp [Call.record] at hr

/-- **A step that keeps a held fill keeps the three places in agreement.** -/
theorem Delivered.step (h : c.Delivered sh i) (hpnl : w.pnlRegistry = true)
    (hm : Moves w sh i c e sh' c') (hk : keepsFill w sh i c e = true) : c'.Delivered sh' i := by
  cases hm with
  | toGate hp _ hg =>
    rcases hg with ⟨-, rfl⟩ | ⟨-, rfl⟩ <;> exact h.goto_gating (by simp [hp]) (by simp)
  | reserve hp => exact (h.goto_gating (by simp [hp]) (by simp)).congr rfl rfl rfl
  | readCounter hp => exact h.goto_gating (by simp [hp]) (by simp)
  | ungated hp | admitted hp => exact h.hand (by simp [hp]) _
  | gateFailed hg => exact h.hand hg _
  | blocked hp | rejected hp =>
    have hsent := (h.gating (by simp [hp])).1
    exact h.leave (by simp) rfl rfl rfl (by simp [holdsFill, h.unsent hsent])
  | gateCancelled hg =>
    have hsent := (h.gating hg).1
    exact h.leave (by simp) rfl rfl rfl (by simp [holdsFill, h.unsent hsent])
  | sent hp =>
    have hw := h.waiting (by simp [hp])
    refine ⟨by simp, h.unsent, fun _ => hw, by simp, by simp, by simp, h.recorded, h.unrecorded⟩
  | unsent hp he =>
    have hno : holdsFill (sh.zmq.futures i) = false := by
      rcases he with ⟨s, rfl, -⟩ | ⟨rfl, -⟩ <;> simpa [keepsFill, hp] using hk
    exact h.leave (by simp) rfl rfl rfl (by simp [hno])
  | timedOut hp =>
    refine h.cancelWait (by simp [hp]) _ _ (by simpa [keepsFill, hp] using hk) ?_
    simp [ZmqAdapter.timeOut, ZmqAdapter.pop]
  | waitCancelled hp =>
    exact h.cancelWait (by simp [hp]) _ _ (by simpa [keepsFill, hp] using hk) rfl
  | @recordFill held r t hp hfut _ hfill ht =>
    have hrec := (h.waiting (by simp [hp])).1
    refine h.record hfill (by simp [holdsFill, hfut, hfill]) _ ?_
    simpa [Books.recorded?, ht] using h.unrecorded hrec
  | loadBalance hp hfut _ hfill =>
    have hrec := (h.waiting (by simp [hp])).1
    refine ⟨by simp, h.unsent, by simp, ?_, by simp, by simp, h.recorded, h.unrecorded⟩
    rintro held r hl
    obtain ⟨rfl, rfl⟩ : _ ∧ _ := by simpa using hl
    exact ⟨hfill, hrec, by simp [holdsFill, hfut, hfill]⟩
  | noTracker hp hfut _ hfill hpnl' hredis =>
    simp [keepsFill, hp, holdsFill, hfut, hfill, hpnl', hredis] at hk
  | untold hp hfut htold =>
    refine h.leave (by simp) rfl rfl rfl fun hf => ?_
    simp only [hpnl, Bool.true_and] at htold
    simp [holdsFill, hfut, htold] at hf
  | @createTracker held r b hp =>
    obtain ⟨hfill, -, hf⟩ := h.loading held r hp
    exact h.record hfill hf _ rfl
  | equityLoaded hp | balanceNext hp =>
    have hrec := h.tracking (by simp [hp])
    refine ⟨by simp, h.unsent, by simp, by simp, by simp [hrec], by simp [hrec], h.recorded,
      h.unrecorded⟩
  | kept hp =>
    have hrec : c.recorded = true := by rcases hp with hp | hp <;> exact h.tracking (by simp [hp])
    exact h.leave (by simp) rfl rfl rfl fun _ => hrec
  | trackerFailed hkind _ he =>
    refine h.leave (by simp) rfl rfl rfl fun _ => ?_
    rcases hkind with hkind | hkind
    · cases hp : c.phase <;> simp [hp] at hkind
      rcases he with ⟨s, rfl, -⟩ | ⟨rfl, -⟩ <;> simp [keepsFill, hp] at hk
    · exact h.tracking hkind
  | @release out hp =>
    have hleave : (c.goto (.released out)).Delivered sh i :=
      h.leave (by simp) rfl rfl rfl fun hf => by simpa [hp] using h.filled hf
    exact hleave.congr rfl rfl rfl
  | settled hp =>
    refine h.leave (by simp) rfl rfl rfl fun hf => ?_
    rcases hp with ⟨hp, -⟩ | ⟨hp | hp, -⟩ <;> simpa [hp] using h.filled hf
  | releaseCancelled hp =>
    refine h.leave (by simp) rfl rfl rfl fun hf => ?_
    rcases hp with hp | hp <;> simpa [hp] using h.filled hf

/-- A step neither gives a call a filled future nor takes it away. -/
theorem Delivered.holdsFill_step (h : c.Delivered sh i) (hm : Moves w sh i c e sh' c') :
    holdsFill (sh'.zmq.futures i) = holdsFill (sh.zmq.futures i) := by
  have hhand : c.phase.kind = .gating → ∀ held,
      holdsFill ((Call.hand sh i c held).1.zmq.futures i) = holdsFill (sh.zmq.futures i) := by
    intro hg held
    simp [Call.hand, ZmqAdapter.futures_register, holdsFill, h.unsent (h.gating hg).1]
  have hcancel : holdsFill ((sh.zmq.cancelWait i).futures i) = holdsFill (sh.zmq.futures i) := by
    rw [ZmqAdapter.futures_cancelWait]
    split
    · rename_i hf
      simp [holdsFill, hf]
    · rfl
  cases hm with
  | ungated hp | admitted hp => exact hhand (by simp [hp]) _
  | gateFailed hg => exact hhand hg _
  | timedOut | waitCancelled => exact hcancel
  | _ => rfl

/-- The receive loop keeps a call's three places in agreement, when a fill
it brings is one the call can take. -/
theorem Delivered.orderResult (h : c.Delivered sh i) {r : OrderResult}
    (hpend : sh.zmq.pendingOrders r.orderId = some i → c.order.orderId = r.orderId)
    (hok : r.reportsFill = true → c.order.orderId = r.orderId → c.sent = true →
      r.isFilled = true ∧ takesFill sh i c = true) :
    c.Delivered { sh with zmq := sh.zmq.orderResult r } i := by
  by_cases hres : sh.zmq.pendingOrders r.orderId = some i ∧ sh.zmq.futures i = some .pending
  · -- the call's own future is resolved
    have hfut : (sh.zmq.orderResult r).futures i = some (.done r) := by
      rw [ZmqAdapter.futures_orderResult, if_pos hres]
    have hnot : holdsFill (sh.zmq.futures i) = false := by simp [holdsFill, hres.2]
    have hsent : c.sent = true := by
      by_contra hs
      simp [h.unsent (by simpa using hs)] at hres
    refine ⟨h.gating, ?_, fun hw => ⟨(h.waiting hw).1, ?_⟩, fun held r' hl => ?_, h.tracking,
      fun hf => ?_, fun hr => ?_, h.unrecorded⟩
    · simp [hsent]
    · simp [hfut]
    · exact absurd (h.loading held r' hl).2.2 (by rw [hnot]; exact Bool.false_ne_true)
    · simp only [hfut, holdsFill] at hf
      have htake := (hok (OrderResult.isFilled.reportsFill hf) (hpend hres.1) hsent).2
      simp only [takesFill, hnot, Bool.false_or, Bool.and_eq_true, decide_eq_true_eq] at htake
      exact .inr (.inl htake.1)
    · exact absurd (h.recorded hr).1 (by rw [hnot]; exact Bool.false_ne_true)
  · have hfut : (sh.zmq.orderResult r).futures i = sh.zmq.futures i := by
      rw [ZmqAdapter.futures_orderResult, if_neg hres]
    refine ⟨h.gating, by rw [hfut]; exact h.unsent, fun hw => ⟨(h.waiting hw).1, fun hf => ?_⟩,
      by rw [hfut]; exact h.loading, h.tracking, by rw [hfut]; exact h.filled,
      by rw [hfut]; exact h.recorded, h.unrecorded⟩
    rw [hfut] at hf
    have hid := (h.waiting hw).2 hf
    rw [ZmqAdapter.pendingOrders_orderResult, if_neg, hid]
    intro heq
    exact hres ⟨heq ▸ hid, hf⟩

theorem Moves.recorded_mono (hm : Moves w sh i c e sh' c') (hr : c.recorded = true) :
    c'.recorded = true := by
  cases hm with
  | recordFill | createTracker => rfl
  | _ => exact hr

/-- A new entry of the pending map is the call's own. -/
theorem Moves.pendingOrders_origin (hm : Moves w sh i c e sh' c')
    (hid : sh'.zmq.pendingOrders id = some j) :
    sh.zmq.pendingOrders id = some j ∨ id = c.order.orderId ∧ j = i := by
  by_cases heq : id = c.order.orderId
  · subst heq
    cases hm with
    | ungated | admitted | gateFailed =>
      exact .inr ⟨rfl, by simpa [Call.hand, ZmqAdapter.register] using hid.symm⟩
    | timedOut => simp [ZmqAdapter.timeOut, ZmqAdapter.pendingOrders_pop] at hid
    | waitCancelled => exact .inl (by simpa using hid)
    | _ => exact .inl hid
  · exact .inl (hm.pendingOrders_of_ne heq ▸ hid)

/-- A tracker learns of an order only from the call that sent it. -/
theorem Moves.recorded?_origin (hm : Moves w sh i c e sh' c')
    (hfirst : ∀ b, e = .balance b → sh.books.pnl c.order.accountId = none) (a id : String) :
    sh'.books.recorded? a id = sh.books.recorded? a id ∨
      c.order.accountId = a ∧ c.order.orderId = id ∧ c'.recorded = true := by
  by_cases hid : id = c.order.orderId
  · by_cases ha : a = c.order.accountId
    · cases hm with
      | recordFill | createTracker => exact .inr ⟨ha.symm, hid.symm, rfl⟩
      | _ => exact .inl rfl
    · left
      cases hm with
      | recordFill | createTracker =>
        simp [Call.record, Shared.setTracker, Books.recorded?_setTracker, ha]
      | _ => rfl
  · exact .inl (hm.recorded?_of_ne hid hfirst)

/-- Under the condition, a tracker is created only where there is none. -/
theorem Moves.first_of_keepsFill (hm : Moves w sh i c e sh' c') (hk : keepsFill w sh i c e = true) :
    ∀ b, e = .balance b → sh.books.pnl c.order.accountId = none := by
  rintro b rfl
  cases hm with
  | createTracker hp => simpa [keepsFill, hp] using hk
  | unsent _ he | trackerFailed _ _ he => simp at he
  | settled hp => simp at hp

end Call

/-! ## All calls -/

variable {w : Wiring} {s s₀ t : AdapterState} {es : List AdapterEvent}

/-- Some call with this order id holds a fill. -/
def FilledFuture (id : String) (s : AdapterState) : Prop :=
  ∃ i c, s.tasks[i]? = some c ∧ c.order.orderId = id ∧ holdsFill (s.shared.zmq.futures i) = true

/-- The tracker is exact at `s`, seen from the start `s₀` of the run. -/
structure TrackerExact (s₀ s : AdapterState) : Prop where
  calls : AllTasks Call.Delivered s
  distinct : ∀ (i j : ℕ) (c d : Call), s.tasks[i]? = some c → s.tasks[j]? = some d →
    c.order.orderId = d.order.orderId → i = j
  pending : ∀ id j, s.shared.zmq.pendingOrders id = some j →
    ∃ c, s.tasks[j]? = some c ∧ c.order.orderId = id
  unused : ∀ j, s.tasks.length ≤ j → s.shared.zmq.futures j = none
  origin : ∀ a id, s.shared.books.recorded? a id = s₀.shared.books.recorded? a id ∨
    ∃ c ∈ s.tasks, c.order.accountId = a ∧ c.order.orderId = id ∧ c.recorded = true

/-- The books an environment step leaves, as far as orders are known. -/
theorem envStep_recorded? {sh sh' : Shared} {e : EnvEvent} (h : envStep sh e = some sh')
    (a id : String) : sh'.books.recorded? a id = sh.books.recorded? a id := by
  cases e with
  | orderResult r =>
    obtain rfl := Option.some.inj h
    rfl
  | riskState b rs =>
    obtain rfl := Option.some.inj h
    rfl
  | tick b symbol bid ask =>
    simp only [envStep] at h
    split at h
    · rename_i t ht
      obtain rfl := Option.some.inj h
      simp only [Shared.setTracker, Books.recorded?_setTracker]
      split
      · rename_i hab
        simp [Books.recorded?, hab, ht]
      · rfl
    · obtain rfl := Option.some.inj h
      rfl

theorem envStep_tick_zmq {sh sh' : Shared} {a symbol : String} {bid ask : ℚ}
    (h : envStep sh (.tick a symbol bid ask) = some sh') : sh'.zmq = sh.zmq := by
  simp only [envStep] at h
  split at h <;> (obtain rfl := Option.some.inj h; rfl)

namespace TrackerExact

theorem init (h₀ : Idle s₀) : TrackerExact s₀ s₀ where
  calls := by simp [AllTasks, h₀.1]
  distinct := by simp [h₀.1]
  pending := by simp [h₀.2]
  unused := by simp [h₀.2]
  origin _ _ := .inl rfl

theorem spawn (h : TrackerExact s₀ s) {o : Order} (hok : CleanDelivery w s (.spawn o)) :
    TrackerExact s₀ { s with tasks := s.tasks ++ [{ order := o }] } where
  calls j c hc := by
    rcases getElem?_spawn hc with hc | ⟨rfl, rfl⟩
    · exact h.calls j c hc
    · exact Call.delivered_init (h.unused _ le_rfl) hok.2
  distinct i j c d hc hd hid := by
    rcases getElem?_spawn hc with hc | ⟨rfl, rfl⟩ <;> rcases getElem?_spawn hd with hd | ⟨rfl, rfl⟩
    · exact h.distinct i j c d hc hd hid
    · exact absurd hid (hok.1 c (List.mem_of_getElem? hc))
    · exact absurd hid.symm (hok.1 d (List.mem_of_getElem? hd))
    · rfl
  pending id j hj := by
    obtain ⟨c, hc, hid⟩ := h.pending id j hj
    exact ⟨c, TaskSystem.getElem?_spawn_of_some hc _, hid⟩
  unused j hj := h.unused j (by simp at hj; omega)
  origin a id := (h.origin a id).imp_right fun ⟨c, hc, hrest⟩ =>
    ⟨c, List.mem_append_left _ hc, hrest⟩

theorem task (h : TrackerExact s₀ s) (hpnl : w.pnlRegistry = true) {i : ℕ} {c c' : Call}
    {d : CallEvent} {sh : Shared} (hc : s.tasks[i]? = some c)
    (hm : Call.Moves w s.shared i c d sh c') (hk : keepsFill w s.shared i c d = true) :
    TrackerExact s₀ { shared := sh, tasks := s.tasks.set i c' } := by
  have hfirst := hm.first_of_keepsFill hk
  have hne : ∀ j b, j ≠ i → s.tasks[j]? = some b → b.order.orderId ≠ c.order.orderId :=
    fun j b hj hb heq => hj (h.distinct j i b c hb hc heq)
  -- every task of the new list has the order of the old task at its index
  have horder : ∀ (j : ℕ) (b : Call), (s.tasks.set i c')[j]? = some b →
      ∃ b₀ : Call, s.tasks[j]? = some b₀ ∧ b₀.order = b.order := by
    intro j b hb
    rcases getElem?_task hb with ⟨rfl, rfl⟩ | ⟨-, hb⟩
    · exact ⟨c, hc, hm.order_eq.symm⟩
    · exact ⟨b, hb, rfl⟩
  refine ⟨fun j b hb => ?_, fun j k b b' hb hb' hid => ?_, fun id j hj => ?_, fun j hj => ?_,
    fun a id => ?_⟩
  · rcases getElem?_task hb with ⟨rfl, rfl⟩ | ⟨hj, hb⟩
    · exact (h.calls j c hc).step hpnl hm hk
    · have hid := hne j b hj hb
      exact (h.calls j b hb).congr (hm.futures_of_ne hj) (hm.pendingOrders_of_ne hid)
        (hm.recorded?_of_ne hid hfirst)
  · obtain ⟨b₀, hb₀, hbo⟩ := horder j b hb
    obtain ⟨b₁, hb₁, hbo'⟩ := horder k b' hb'
    exact h.distinct j k b₀ b₁ hb₀ hb₁ (by rw [hbo, hbo']; exact hid)
  · rcases hm.pendingOrders_origin hj with hold | ⟨rfl, rfl⟩
    · obtain ⟨b, hb, hid⟩ := h.pending id j hold
      by_cases hji : j = i
      · subst hji
        obtain rfl : c = b := by simpa [hc] using hb
        exact ⟨c', getElem?_task_self hc, by rw [hm.order_eq]; exact hid⟩
      · exact ⟨b, by rw [getElem?_task_of_ne c' hji]; exact hb, hid⟩
    · exact ⟨c', getElem?_task_self hc, by rw [hm.order_eq]⟩
  · have hlt : i < s.tasks.length := (List.getElem?_eq_some_iff.mp hc).1
    simp only [List.length_set] at hj
    exact (hm.futures_of_ne (by omega)).trans (h.unused j hj)
  · rcases hm.recorded?_origin hfirst a id with hsame | ⟨ha, hid, hrec⟩
    · rw [hsame]
      refine (h.origin a id).imp_right fun ⟨b, hb, ha, hid, hrec⟩ => ?_
      obtain ⟨j, hj⟩ := List.getElem?_of_mem hb
      by_cases hji : j = i
      · subst hji
        obtain rfl : c = b := by simpa [hc] using hj
        exact ⟨c', List.mem_of_getElem? (getElem?_task_self hc), by rw [hm.order_eq]; exact ha,
          by rw [hm.order_eq]; exact hid, hm.recorded_mono hrec⟩
      · exact ⟨b, List.mem_of_getElem? ((getElem?_task_of_ne c' hji).trans hj), ha, hid, hrec⟩
    · exact .inr ⟨c', List.mem_of_getElem? (getElem?_task_self hc), by rw [hm.order_eq]; exact ha,
        by rw [hm.order_eq]; exact hid, hrec⟩

theorem env (h : TrackerExact s₀ s) {d : EnvEvent} {sh : Shared}
    (hok : CleanDelivery w s (.env d)) (hd : envStep s.shared d = some sh) :
    TrackerExact s₀ { s with shared := sh } := by
  have hrec := envStep_recorded? hd
  cases d with
  | orderResult r =>
    obtain rfl := Option.some.inj hd
    refine ⟨fun j b hb => ?_, h.distinct, fun id j hj => ?_, fun j hj => ?_, h.origin⟩
    · refine (h.calls j b hb).orderResult (fun hp => ?_) fun hr hid hsent => ?_
      · obtain ⟨b', hb', hid⟩ := h.pending _ j hp
        obtain rfl : b = b' := by simpa [hb] using hb'
        exact hid
      · exact hok hr j (List.getElem?_eq_some_iff.mp hb).1 b hb hid hsent
    · rw [ZmqAdapter.pendingOrders_orderResult] at hj
      split at hj
      · simp at hj
      · exact h.pending id j hj
    · simp [ZmqAdapter.futures_orderResult, h.unused j hj]
  | riskState b rs =>
    obtain rfl := Option.some.inj hd
    exact ⟨fun j b hb => (h.calls j b hb).congr rfl rfl rfl, h.distinct, h.pending, h.unused, h.origin⟩
  | tick b symbol bid ask =>
    have hz := envStep_tick_zmq hd
    refine ⟨fun j b hb => (h.calls j b hb).congr (by rw [hz]) (by rw [hz]) (hrec _ _), h.distinct,
      by rw [hz]; exact h.pending, by rw [hz]; exact h.unused, fun a id => ?_⟩
    rw [hrec]
    exact h.origin a id

theorem step (h : TrackerExact s₀ s) (hpnl : w.pnlRegistry = true) {e : AdapterEvent}
    (hok : CleanDelivery w s e) (hs : (adapterSystem w).step s e = some t) : TrackerExact s₀ t := by
  rcases step_cases hs with ⟨o, rfl, rfl⟩ | ⟨i, d, c, sh, c', rfl, hc, hd, rfl⟩ | ⟨d, sh, rfl, hd, rfl⟩
  · exact h.spawn hok
  · exact h.task hpnl hc (Call.moves hd) (hok c hc)
  · exact h.env hok hd

end TrackerExact

/-! ## Reported fills and filled futures -/

theorem filledFuture_spawn (h : TrackerExact s₀ s) (o : Order) (id : String) :
    FilledFuture id { s with tasks := s.tasks ++ [{ order := o }] } ↔ FilledFuture id s := by
  constructor
  · rintro ⟨j, c, hc, hid, hf⟩
    rcases getElem?_spawn hc with hc | ⟨rfl, rfl⟩
    · exact ⟨j, c, hc, hid, hf⟩
    · simp [h.unused _ le_rfl, holdsFill] at hf
  · rintro ⟨j, c, hc, hid, hf⟩
    exact ⟨j, c, TaskSystem.getElem?_spawn_of_some hc _,
      hid, hf⟩

/-- A call's own step neither fills nor empties a future. -/
theorem filledFuture_task (h : TrackerExact s₀ s) {i : ℕ} {d : CallEvent} {c c' : Call}
    {sh : Shared} (hc : s.tasks[i]? = some c) (hm : Call.Moves w s.shared i c d sh c') (id : String) :
    FilledFuture id { shared := sh, tasks := s.tasks.set i c' } ↔ FilledFuture id s := by
  have hown := (h.calls i c hc).holdsFill_step hm
  constructor
  · rintro ⟨j, b, hb, hid, hf⟩
    rcases getElem?_task hb with ⟨rfl, rfl⟩ | ⟨hj, hb⟩
    · exact ⟨j, c, hc, by rw [← hm.order_eq]; exact hid, by rw [← hown]; exact hf⟩
    · exact ⟨j, b, hb, hid, by rw [← hm.futures_of_ne hj]; exact hf⟩
  · rintro ⟨j, b, hb, hid, hf⟩
    by_cases hj : j = i
    · subst hj
      obtain rfl : c = b := by simpa [hc] using hb
      exact ⟨j, c', getElem?_task_self hc, by rw [hm.order_eq]; exact hid, by rw [hown]; exact hf⟩
    · exact ⟨j, b, (getElem?_task_of_ne c' hj).trans hb, hid,
        by rw [hm.futures_of_ne hj]; exact hf⟩

/-- A result fills the future of the order it names, and no other. -/
theorem filledFuture_orderResult (h : TrackerExact s₀ s) {r : OrderResult}
    (hok : CleanDelivery w s (.env (.orderResult r))) (id : String) :
    FilledFuture id
        { s with shared := { s.shared with zmq := s.shared.zmq.orderResult r } } ↔
      FilledFuture id s ∨ reportsFillOf id s (.env (.orderResult r)) = true := by
  simp only [reportsFillOf, Bool.and_eq_true, decide_eq_true_eq, List.any_eq_true]
  constructor
  · rintro ⟨j, c, hc, hid, hf⟩
    rw [ZmqAdapter.futures_orderResult] at hf
    split at hf
    · -- the result resolved the future, so it is the order's own
      rename_i hres
      obtain ⟨b, hb, hbid⟩ := h.pending _ j hres.1
      obtain rfl : c = b := by simpa [hc] using hb
      have hsent : c.sent = true := by
        by_contra hs
        simp [(h.calls j c hc).unsent (by simpa using hs)] at hres
      exact .inr ⟨⟨hbid.symm.trans hid, OrderResult.isFilled.reportsFill hf⟩, c,
        List.mem_of_getElem? hc, hid, hsent⟩
    · exact .inl ⟨j, c, hc, hid, hf⟩
  · rintro (⟨j, c, hc, hid, hf⟩ | ⟨⟨rfl, hr⟩, c, hc, hid, hsent⟩)
    · refine ⟨j, c, hc, hid, ?_⟩
      rw [ZmqAdapter.futures_orderResult, if_neg]
      · exact hf
      · rintro ⟨-, hp⟩
        simp [hp, holdsFill] at hf
    · obtain ⟨j, hj⟩ := List.getElem?_of_mem hc
      obtain ⟨hfilled, htake⟩ := hok hr j (List.getElem?_eq_some_iff.mp hj).1 c hj hid hsent
      refine ⟨j, c, hj, hid, ?_⟩
      simp only [takesFill, Bool.or_eq_true, Bool.and_eq_true, decide_eq_true_eq] at htake
      rw [ZmqAdapter.futures_orderResult]
      rcases htake with hf | ⟨hw, hp⟩
      · split
        · exact hfilled
        · exact hf
      · have hpend := ((h.calls j c hj).waiting hw).2 hp
        rw [if_pos ⟨hid ▸ hpend, hp⟩]
        exact hfilled

/-- A step adds a filled future exactly when it reports a fill. -/
theorem filledFuture_step (h : TrackerExact s₀ s) {e : AdapterEvent} (hok : CleanDelivery w s e)
    (hs : (adapterSystem w).step s e = some t) (id : String) :
    FilledFuture id t ↔ FilledFuture id s ∨ reportsFillOf id s e = true := by
  rcases step_cases hs with ⟨o, rfl, rfl⟩ | ⟨i, d, c, sh, c', rfl, hc, hd, rfl⟩ | ⟨d, sh, rfl, hd, rfl⟩
  · simp only [reportsFillOf, Bool.false_eq_true, or_false]
    exact filledFuture_spawn h o id
  · simp only [reportsFillOf, Bool.false_eq_true, or_false]
    exact filledFuture_task h hc (Call.moves hd) id
  · cases d with
    | orderResult r =>
      obtain rfl := Option.some.inj hd
      exact filledFuture_orderResult h hok id
    | riskState b rs =>
      obtain rfl := Option.some.inj hd
      exact ⟨.inl, fun hf => hf.resolve_right Bool.false_ne_true⟩
    | tick b symbol bid ask =>
      have hz : sh.zmq = s.shared.zmq := envStep_tick_zmq hd
      simp only [FilledFuture, hz, reportsFillOf, Bool.false_eq_true, or_false]

/-- **The tracker is exact on every clean run**, and it is filled exactly by
what the bridge reported. -/
theorem trackerExact_run (hpnl : w.pnlRegistry = true) (h₀ : Idle s₀)
    (h : RunWhere (adapterSystem w).step (CleanDelivery w) s₀ es s) :
    TrackerExact s₀ s ∧ ∀ id, FillReported w id s₀ es ↔ FilledFuture id s := by
  refine h.invariant (fun es s => TrackerExact s₀ s ∧
    ∀ id, FillReported w id s₀ es ↔ FilledFuture id s) ⟨.init h₀, fun id => ?_⟩ ?_
  · simp [FillReported, observe, FilledFuture, h₀.1]
  · rintro es t e u hr ⟨hexact, hiff⟩ hok hs
    refine ⟨hexact.step hpnl hok hs, fun id => ?_⟩
    rw [filledFuture_step hexact hok hs id, ← hiff id]
    simp only [FillReported, observe_snoc _ hr.exec_eq hs, List.mem_append, List.mem_singleton]
    exact or_congr_right eq_comm

/-- **No lost fill.** On a clean run every order with a reported fill is
recorded with exactly its symbol, side and volume once its call is past
the tracker, and nothing else is recorded. -/
theorem fills_recorded_exactly_once (hpnl : w.pnlRegistry = true) (h₀ : Idle s₀)
    (h : RunWhere (adapterSystem w).step (CleanDelivery w) s₀ es s) :
    (∀ c ∈ s.tasks, FillReported w c.order.orderId s₀ es →
        c.phase.kind ≠ .waiting → c.phase.kind ≠ .loading →
        s.shared.books.recorded? c.order.accountId c.order.orderId = some c.order.key) ∧
      ∀ a id, ¬(FillReported w id s₀ es ∧
          ∃ c ∈ s.tasks, c.order.orderId = id ∧ c.order.accountId = a) →
        s.shared.books.recorded? a id = s₀.shared.books.recorded? a id := by
  obtain ⟨hexact, hiff⟩ := trackerExact_run hpnl h₀ h
  constructor
  · intro c hc hrep hw hl
    obtain ⟨i, hi⟩ := List.getElem?_of_mem hc
    obtain ⟨j, d, hj, hid, hf⟩ := (hiff _).mp hrep
    obtain rfl := hexact.distinct i j c d hi hj hid.symm
    rcases (hexact.calls i c hi).filled hf with hrec | hk | hk
    · exact ((hexact.calls i c hi).recorded hrec).2
    · exact absurd hk hw
    · exact absurd hk hl
  · intro a id hnot
    rcases hexact.origin a id with hsame | ⟨c, hc, ha, hid, hrec⟩
    · exact hsame
    · obtain ⟨i, hi⟩ := List.getElem?_of_mem hc
      exact absurd ⟨(hiff id).mpr ⟨i, c, hi, hid, ((hexact.calls i c hi).recorded hrec).1⟩,
        c, hc, hid, ha⟩ hnot

/-! ## A fill that is lost -/

/-- No rules and no gate. -/
def openWiring : Wiring := { validator := { ruleEngine := .init "desk" [] } }

/-- The bridge reports a partial fill while the call waits for it: the call
returns the result, and the tracker never hears of it. -/
theorem partial_fill_lost :
    ∃ s : AdapterState, Run (adapterSystem openWiring).step emptyState
        [.spawn (goldOrder "a"), .task 0 (.start 0), .task 0 .reply,
          .env (.orderResult { orderId := "a", status := .partiallyFilled, fillPrice := some 2000 }),
          .task 0 .reply] s ∧
      FillReported openWiring "a" emptyState
        [.spawn (goldOrder "a"), .task 0 (.start 0), .task 0 .reply,
          .env (.orderResult { orderId := "a", status := .partiallyFilled, fillPrice := some 2000 }),
          .task 0 .reply] ∧
      (∀ c ∈ s.tasks, c.phase.isFinished) ∧ s.shared.books.recorded? "ftmo-001" "a" = none := by
  obtain ⟨s, hrun, hs⟩ := Run.exists_of_exec
    (adapterSystem openWiring).step emptyState
    [.spawn (goldOrder "a"), .task 0 (.start 0), .task 0 .reply,
      .env (.orderResult { orderId := "a", status := .partiallyFilled, fillPrice := some 2000 }),
      .task 0 .reply]
    (fun s => decide (s.tasks.all (fun c => c.phase.isFinished) = true ∧
      s.shared.books.recorded? "ftmo-001" "a" = none)) (by decide +kernel)
  simp only [decide_eq_true_eq, List.all_eq_true] at hs
  exact ⟨s, hrun, by decide +kernel, hs.1, hs.2⟩

/-- Two calls in flight, the first filled and the second rejected. -/
def filledAndRejected : List AdapterEvent :=
  [.spawn orderA, .spawn orderB, .task 0 (.start 0), .task 1 (.start 0),
   .task 0 .reply, .task 1 .reply, .env (.orderResult { orderId := "b", status := .rejected }),
   .env (.orderResult { orderId := "a", status := .filled, fillPrice := some 2000 }),
   .task 0 .reply, .task 0 (.balance none), .task 0 (.riskLoaded none), .task 1 .reply]

/-- The filled order has its position, the rejected one has none. -/
theorem fills_recorded_exactly_once_two :
    ∃ s : AdapterState,
      RunWhere (adapterSystem openWiring).step (CleanDelivery openWiring) emptyState
        filledAndRejected s ∧
      s.shared.books.recorded? "ftmo-001" "a" = some ("XAUUSD", .buy, 1) ∧
      s.shared.books.recorded? "ftmo-001" "b" = none := by
  obtain ⟨s, hrun, hs⟩ := RunWhere.exists_of_checked
    (adapterSystem openWiring).step (CleanDelivery openWiring) emptyState
    filledAndRejected
    (fun s => decide (∃ c ∈ s.tasks, c.order = goldOrder "a" ∧ c.phase.kind = .tracking))
    (by decide +kernel) (by decide +kernel)
  obtain ⟨c, hc, ho, hk⟩ := of_decide_eq_true hs
  obtain ⟨hrec, hsame⟩ := fills_recorded_exactly_once rfl ⟨rfl, rfl⟩ hrun
  have ha := hrec c hc (by rw [ho]; decide +kernel) (by simp [hk]) (by simp [hk])
  rw [ho] at ha
  have hb : ¬FillReported openWiring "b" emptyState filledAndRejected := by decide +kernel
  exact ⟨s, hrun, ha, hsame "ftmo-001" "b" fun h => hb h.1⟩

end TdSandboxed
