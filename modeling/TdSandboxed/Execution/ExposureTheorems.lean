/-
TdSandboxed.Execution.ExposureTheorems — realized lots plus lots in flight
against the ceiling.

The gate caps what is in flight at the ceiling less the realized lots of
the SNAPSHOT, taken when the call began. Between the snapshot and the
script another call may have filled, told the tracker and released its
reservation; then the lots it brought are neither in the snapshot nor on
the counter, and the script admits an order the ceiling has no room for
(`exposure_exceeds_ceiling`).

`FreshSnapshot` excludes exactly this: the lots recorded since the
snapshot are still on the counter when the script runs. Under it, and with
every fill reaching the tracker, the ceiling holds over all interleavings
(`exposure_le_ceiling`). The invariant is that the realized lots plus what
the open calls hold stay under the ceiling, and it rests on conservation:
the counter contains both what the open calls hold and what the recorded
calls have not released yet.
-/
import TdSandboxed.Execution.ReservationTheorems

namespace TdSandboxed

open Lib Lib.TaskSystem

/-! ## Exposure by call -/

namespace Call

/-- The gateway reported something other than a fill. -/
def knownUnfilled (c : Call) : Bool :=
  match c.phase.leaving? with
  | some (.returned r) => !r.reportsFill
  | _ => false

/-- The lots of account `a` sent to the gateway that may be filled and that
the tracker has not taken. -/
def unrecordedLots (a : String) (c : Call) : ℚ :=
  if c.order.accountId = a ∧ c.sent ∧ !c.recorded ∧ !c.knownUnfilled then c.order.volume else 0

/-- The lots of account `a` that the tracker has taken and that are still
on the counter. -/
def recordedHeldLots (a : String) (c : Call) : ℚ :=
  if c.order.accountId = a ∧ c.recorded ∧ c.phase.held then c.order.volume else 0

/-- The lots of account `a` that are on the counter and may still be
filled. -/
def openLots (a : String) (c : Call) : ℚ :=
  if c.order.accountId = a ∧ c.phase.held ∧ c.phase.kind ≠ .tracking ∧ c.phase.kind ≠ .leaving then
    c.order.volume
  else 0

end Call

/-! ## The steps of a run, and the condition -/

/-- No failure, no timeout, no cancellation; results are FILLED or
REJECTED. -/
def Faultless : AdapterEvent → Prop
  | .task _ (.fail _) | .task _ .timeout | .task _ .cancel => False
  | .env (.orderResult r) => r.status = .filled ∨ r.status = .rejected
  | _ => True

instance : DecidablePred Faultless
  | .task _ (.fail _) | .task _ .timeout | .task _ .cancel => .isFalse id
  | .task _ (.start _) | .task _ .script | .task _ .reply | .task _ (.balance _)
  | .task _ (.riskLoaded _) => .isTrue trivial
  | .env (.orderResult r) => inferInstanceAs (Decidable (r.status = .filled ∨ r.status = .rejected))
  | .env (.riskState _ _) | .env (.tick _ _ _ _) | .spawn _ => .isTrue trivial

/-- When the server admits a request, the lots of the tracker beyond those
that the call's account state reported are still on the counter. An account
without a `RiskState` reports none. -/
def freshSnapshot (a : String) (s : AdapterState) (_ : ℕ) (c : Call) : CallEvent → Bool
  | .script =>
    match c.phase with
    | .reserving g =>
      c.order.accountId ≠ a ∨ g.cap < s.shared.books.counter a + c.order.volume ∨
        s.shared.books.lots a - g.position ≤ total (Call.recordedHeldLots a) s.tasks
    | _ => true
  | _ => true

/-- A fill finds the account's tracker, or can create the first one. -/
def trackerReady (w : Wiring) (a : String) (s : AdapterState) (i : ℕ) (c : Call) : CallEvent → Bool
  | .reply =>
    match c.phase, s.shared.zmq.futures i with
    | .awaiting _, some (.done r) =>
      c.order.accountId ≠ a ∨ !r.isFilled ∨ (s.shared.books.pnl a).isSome ∨ w.registryRedis
    | _, _ => true
  | .balance _ => c.order.accountId ≠ a ∨ (s.shared.books.pnl a).isNone
  | _ => true

/-- Faultless, with a fresh snapshot and a tracker for every fill. -/
def FreshStep (w : Wiring) (a : String) (s : AdapterState) (e : AdapterEvent) : Prop :=
  Faultless e ∧ OnTask (fun s i c e => freshSnapshot a s i c e = true) s e ∧
    OnTask (fun s i c e => trackerReady w a s i c e = true) s e

instance (w : Wiring) (a : String) (s : AdapterState) (e : AdapterEvent) :
    Decidable (FreshStep w a s e) := by
  unfold FreshStep
  infer_instance

/-- The gate is engaged for account `a` with the fixed ceiling `M`, and
fills go to a registry. -/
structure GatedAt (w : Wiring) (a : String) (M : ℚ) : Prop where
  pnl : w.pnlRegistry = true
  reservation : ∃ r, w.reservation = some r ∧ r.started = true
  ceiling : ∃ provider, w.maxLotsProvider = some provider ∧ ∀ st, provider a st = some M

/-- With the gate engaged, every order of the account asks it. -/
theorem gateHead_of_gatedAt {w : Wiring} {a : String} {M : ℚ} (hw : GatedAt w a M) {o : Order}
    (ho : o.accountId = a) (st : Dict) :
    ∃ g : Gate, g.maxLots = M ∧ (gateHead w o st = .evalsha g ∨ gateHead w o st = .readCounter g) := by
  obtain ⟨res, hres, hstarted⟩ := hw.reservation
  obtain ⟨provider, hprov, hM⟩ := hw.ceiling
  refine ⟨{ maxLots := M, position := currentPositionLots st }, rfl, ?_⟩
  have hvol := not_lt.mpr o.volume_pos.le
  simp only [gateHead, hres, hprov, ho, hM, ExposureReservation.reserveHead, hstarted, hvol]
  by_cases hcap : Gate.cap { maxLots := M, position := currentPositionLots st } < 0
  · simp [hcap]
  · simp [hcap]

theorem gateHead_ne_skip {w : Wiring} {a : String} {M : ℚ} (hw : GatedAt w a M) {o : Order}
    (ho : o.accountId = a) (st : Dict) : gateHead w o st ≠ .skip := by
  intro hskip
  obtain ⟨g, -, hg | hg⟩ := gateHead_of_gatedAt hw ho st
  · simp [hskip] at hg
  · simp [hskip] at hg

/-- The reservation it asks for is under the account's ceiling. -/
theorem maxLots_of_evalsha {w : Wiring} {a : String} {M : ℚ} (hw : GatedAt w a M) {o : Order}
    (ho : o.accountId = a) {st : Dict} {g : Gate} (hg : gateHead w o st = .evalsha g) :
    g.maxLots = M := by
  obtain ⟨g', hM, hg' | hg'⟩ := gateHead_of_gatedAt hw ho st
  · obtain rfl : g' = g := by simpa [hg] using hg'.symm
    exact hM
  · simp [hg] at hg'

/-! ## What every call satisfies on a faultless run -/

/-- The history of a call of account `a` agrees with its phase. -/
structure Call.Orderly (a : String) (M : ℚ) (c : Call) : Prop where
  ceiling : c.order.accountId = a → ∀ g, c.phase = .reserving g → g.maxLots = M
  gating : c.phase.kind = .gating → c.sent = false ∧ c.recorded = false
  waiting : c.order.accountId = a → c.phase.kind = .waiting ∨ c.phase.kind = .loading →
    c.phase.held = true ∧ c.recorded = false
  tracking : c.phase.kind = .tracking → c.recorded = true
  leaving : c.order.accountId = a → c.phase.kind = .leaving → c.sent = true →
    c.recorded = true ∨ c.knownUnfilled = true

namespace Call

variable {w : Wiring} {sh sh' : Shared} {i : ℕ} {c c' : Call} {e : CallEvent} {a : String} {M : ℚ}

theorem openLots_nonneg (a : String) (c : Call) : 0 ≤ openLots a c := by
  unfold openLots
  split
  · exact c.order.volume_pos.le
  · exact le_refl 0

theorem Orderly.unrecorded_le_open (h : c.Orderly a M) : unrecordedLots a c ≤ openLots a c := by
  unfold unrecordedLots
  split
  · rename_i hc
    obtain ⟨ha, hsent, hrec, hunf⟩ := hc
    have hrec' : c.recorded = false := by simpa using hrec
    have hunf' : c.knownUnfilled = false := by simpa using hunf
    have hopen : c.phase.held = true ∧ c.phase.kind ≠ .tracking ∧ c.phase.kind ≠ .leaving := by
      cases hk : c.phase.kind with
      | gating => simp [(h.gating hk).1] at hsent
      | waiting => exact ⟨(h.waiting ha (.inl hk)).1, by simp, by simp⟩
      | loading => exact ⟨(h.waiting ha (.inr hk)).1, by simp, by simp⟩
      | tracking => simp [h.tracking hk] at hrec'
      | leaving => rcases h.leaving ha hk hsent with hr | hr <;> simp_all
    simp [openLots, ha, hopen]
  · exact openLots_nonneg a c

/-- What is open and what is recorded are different parts of what is held. -/
theorem Orderly.open_add_recorded_le (h : c.Orderly a M) :
    openLots a c + recordedHeldLots a c ≤ heldLots a c := by
  unfold openLots recordedHeldLots heldLots
  by_cases ha : c.order.accountId = a
  · by_cases hh : c.phase.held = true
    · cases hk : c.phase.kind with
      | gating => simp [ha, hh, (h.gating hk).2]
      | waiting => simp [ha, hh, (h.waiting ha (.inl hk)).2]
      | loading => simp [ha, hh, (h.waiting ha (.inr hk)).2]
      | tracking => simp [ha, hh, h.tracking hk]
      | leaving =>
        simp only [ha, hh, ne_eq, not_true_eq_false, and_false, if_false, true_and, and_true]
        split
        · simp
        · simpa using c.order.volume_pos.le
    · simp [hh]
  · simp [ha]

theorem orderly_init (o : Order) : Orderly a M { order := o } where
  ceiling := by simp
  gating := by simp
  waiting := by simp
  tracking := by simp
  leaving := by simp

theorem Orderly.of_leaving (hk : c.phase.kind = .leaving)
    (hl : c.order.accountId = a → c.sent = true → c.recorded = true ∨ c.knownUnfilled = true) :
    c.Orderly a M where
  ceiling _ g hp := by simp [hp] at hk
  gating hg := by simp [hk] at hg
  waiting _ hg := by simp [hk] at hg
  tracking hg := by simp [hk] at hg
  leaving ha _ := hl ha

/-- A faultless step keeps a call orderly. -/
theorem Orderly.step (h : c.Orderly a M) (hw : GatedAt w a M) (hm : Moves w sh i c e sh' c')
    (hf : Faultless (.task i e)) (hready : e = .reply → c.order.accountId = a → ∀ held r,
      c.phase = .awaiting held → sh.zmq.futures i = some (.done r) → r.isFilled = true →
      sh.books.pnl a = none → w.registryRedis = true)
    (hclean : ∀ r, sh.zmq.futures i = some (.done r) → r.reportsFill = true → r.isFilled = true) :
    c'.Orderly a M := by
  cases hm with
  | @toGate _ g _ hp _ hg =>
    obtain ⟨hsent, hrec⟩ := h.gating (by simp [hp])
    rcases hg with ⟨hg, rfl⟩ | ⟨hg, rfl⟩
    · refine ⟨fun ha g' hph => ?_, by simp [hsent, hrec], by simp, by simp, by simp⟩
      obtain rfl : g' = g := by simpa using hph.symm
      exact maxLots_of_evalsha hw ha hg
    · exact ⟨by simp, by simp [hsent, hrec], by simp, by simp, by simp⟩
  | ungated hp _ hg =>
    refine ⟨by simp [hand], by simp [hand], fun ha => ?_, by simp [hand], by simp [hand]⟩
    exact absurd hg (gateHead_ne_skip hw ha _)
  | reserve hp | readCounter hp =>
    obtain ⟨hsent, hrec⟩ := h.gating (by simp [hp])
    exact ⟨by simp, by simp [hsent, hrec], by simp, by simp, by simp⟩
  | admitted hp =>
    obtain ⟨-, hrec⟩ := h.gating (by simp [hp])
    exact ⟨by simp [hand], by simp [hand], by simp [hand, hrec], by simp [hand], by simp [hand]⟩
  | blocked hp | rejected hp =>
    obtain ⟨hsent, -⟩ := h.gating (by simp [hp])
    exact .of_leaving (by simp) (by simp [hsent])
  | sent hp =>
    refine ⟨by simp, by simp, fun ha _ => ?_, by simp, by simp⟩
    simpa [hp] using h.waiting ha (by simp [hp])
  | loadBalance hp =>
    refine ⟨by simp, by simp, fun ha _ => ?_, by simp, by simp⟩
    simpa [hp] using h.waiting ha (by simp [hp])
  | recordFill hp | createTracker hp =>
    exact ⟨by simp [record], by simp [record], by simp [record], by simp [record], by simp [record]⟩
  | noTracker hp hfut _ hfill hpnl hredis =>
    refine .of_leaving (by simp) fun ha _ => ?_
    have := hready rfl ha _ _ hp hfut hfill (ha ▸ hpnl)
    simp_all
  | untold hp hfut htold =>
    refine .of_leaving (by simp) fun _ _ => .inr ?_
    have hunf := hclean _ hfut
    simp only [hw.pnl, Bool.true_and] at htold
    simp [knownUnfilled, htold] at hunf ⊢
    exact hunf
  | equityLoaded hp | balanceNext hp =>
    have hrec := h.tracking (by simp [hp])
    exact ⟨by simp, by simp, by simp, by simp [hrec], by simp⟩
  | kept hp =>
    have hrec : c.recorded = true := by rcases hp with hp | hp <;> exact h.tracking (by simp [hp])
    exact .of_leaving (by simp) (by simp [hrec])
  | release hp =>
    refine .of_leaving (by simp) fun ha hsent => ?_
    simpa [knownUnfilled, hp] using h.leaving ha (by simp [hp]) hsent
  | settled hp =>
    refine .of_leaving (by simp) fun ha hsent => ?_
    rcases hp with ⟨hp, -⟩ | ⟨hp | hp, -⟩ <;>
      simpa [knownUnfilled, hp] using h.leaving ha (by simp [hp]) hsent
  | gateFailed | timedOut | waitCancelled | gateCancelled | releaseCancelled => exact hf.elim
  | unsent _ he | trackerFailed _ _ he =>
    rcases he with ⟨s, rfl, -⟩ | ⟨rfl, -⟩ <;> exact hf.elim

/-- No step of a call resolves a future. -/
theorem Moves.futures_done (hm : Moves w sh i c e sh' c') {j : ℕ} {r : OrderResult}
    (hj : sh'.zmq.futures j = some (.done r)) : sh.zmq.futures j = some (.done r) := by
  have hhand : ∀ held, (hand sh i c held).1.zmq.futures j = some (.done r) →
      sh.zmq.futures j = some (.done r) := by
    intro held h
    simp only [hand, ZmqAdapter.futures_register] at h
    split at h
    · simp at h
    · exact h
  have hcancel : (sh.zmq.cancelWait i).futures j = some (.done r) →
      sh.zmq.futures j = some (.done r) := by
    intro h
    rw [ZmqAdapter.futures_cancelWait] at h
    split at h
    · simp at h
    · exact h
  cases hm with
  | ungated | admitted | gateFailed => exact hhand _ hj
  | timedOut | waitCancelled => exact hcancel hj
  | _ => exact hj

/-- An open call that records its fill moves its lots from the open part
to the tracker; only an admitted request adds to the two together. -/
theorem exposure_step (hm : Moves w sh i c e sh' c') (h : c.Orderly a M)
    (hfirst : ∀ b, e = .balance b → c.order.accountId = a → sh.books.pnl a = none) :
    sh'.books.lots a + openLots a c' ≤ sh.books.lots a + openLots a c ∨
      ∃ g, c.phase = .reserving g ∧ e = .script ∧ c.order.accountId = a ∧
        sh.books.counter a + c.order.volume ≤ g.cap ∧
        sh'.books.lots a = sh.books.lots a ∧ openLots a c' = openLots a c + c.order.volume := by
  have hopen : ∀ d : Call, d.phase.held = false ∨ d.phase.kind = .leaving → openLots a d = 0 := by
    rintro d (hd | hd) <;> simp [openLots, hd]
  by_cases ha : c.order.accountId = a
  · cases hm with
    | toGate hp _ hg =>
      left
      rcases hg with ⟨-, rfl⟩ | ⟨-, rfl⟩ <;> simp [hopen, hp]
    | ungated hp => left; simp [hopen, hp, hand]
    | @reserve g hp =>
      subst ha
      cases hacc : (atomicReserve (sh.books.reserved c.order.accountId) c.order.volume g.cap).1.accepted
      · left
        simp [hopen, hacc, openLots_nonneg]
      · right
        refine ⟨g, hp, rfl, rfl, atomicReserve_accepted_iff.mp hacc, rfl, ?_⟩
        simp [openLots, hp, hacc]
    | readCounter hp hres => left; simp [hopen, hp, hres]
    | admitted hp hres => left; simp [openLots, hp, hres, hand]
    | gateFailed => left; simp [hopen, hand, openLots_nonneg]
    | blocked | rejected | gateCancelled => left; simp [hopen, openLots_nonneg]
    | sent hp => left; simp [openLots, hp]
    | unsent | timedOut | waitCancelled | noTracker | untold | kept | trackerFailed =>
      left; simp [hopen, openLots_nonneg]
    | @recordFill held r t hp _ _ hfill ht =>
      left
      have hheld : held = true := by simpa [hp] using (h.waiting ha (by simp [hp])).1
      have hlots : sh.books.lots a = t.lots := by simp [Books.lots, ← ha, ht]
      simp only [record, Shared.lots_setTracker, ha, if_true, PnLTracker.lots_record _ _ hfill, hlots]
      simp [openLots, hp, hheld, ha]
    | loadBalance hp => left; simp [openLots, hp]
    | @createTracker held r b hp =>
      left
      have hheld : held = true := by simpa [hp] using (h.waiting ha (by simp [hp])).1
      have hlots : sh.books.lots a = 0 := by simp [Books.lots, hfirst b rfl ha]
      have hnew : ((PnLTracker.init a (b.getD 0)).record c.order r).lots ≤ c.order.volume := by
        by_cases hfill : r.isFilled = true
        · simp [PnLTracker.lots_record _ _ hfill]
        · simpa [PnLTracker.record, hfill] using c.order.volume_pos.le
      simp only [record, Shared.lots_setTracker, ha, if_true, hlots]
      simpa [openLots, hp, hheld, ha] using hnew
    | equityLoaded hp | balanceNext hp => left; simp [openLots, hp]
    | release => left; simp [hopen, openLots_nonneg]
    | settled | releaseCancelled => left; simp [hopen, openLots_nonneg]
  · left
    have hlots : sh'.books.lots a = sh.books.lots a := by
      cases hm <;> first | rfl | simp [record, Shared.lots_setTracker, Ne.symm ha]
    simp [hlots, openLots, hm.order_eq, ha]

end Call

/-! ## Runs -/

variable {w : Wiring} {a : String} {M : ℚ} {s s₀ t : AdapterState} {es : List AdapterEvent}

/-- Every result that reports a fill is FILLED. -/
def CleanResults (sh : Shared) : Prop :=
  ∀ j r, sh.zmq.futures j = some (.done r) → r.reportsFill = true → r.isFilled = true

theorem cleanResults_envStep {sh sh' : Shared} {e : EnvEvent} (h : CleanResults sh)
    (hf : Faultless (.env e)) (hs : envStep sh e = some sh') : CleanResults sh' := by
  cases e with
  | orderResult r =>
    obtain rfl := Option.some.inj hs
    intro j r' hj
    rw [ZmqAdapter.futures_orderResult] at hj
    split at hj
    · obtain rfl : r = r' := by simpa using hj
      rcases hf with hf | hf <;> simp [OrderResult.reportsFill, OrderResult.isFilled, hf]
    · exact h j r' hj
  | riskState b rs =>
    obtain rfl := Option.some.inj hs
    exact h
  | tick b symbol bid ask =>
    simp only [envStep] at hs
    split at hs <;> (obtain rfl := Option.some.inj hs; exact h)

/-- What holds after every fresh run: every call is orderly, and the
realized lots leave room for all open calls. -/
structure RoomForOpen (a : String) (M : ℚ) (s : AdapterState) : Prop where
  orderly : AllTasks (fun _ _ c => c.Orderly a M) s
  clean : CleanResults s.shared
  room : s.shared.books.lots a + total (Call.openLots a) s.tasks ≤ M

theorem orderly_total_le (h : AllTasks (fun _ _ c => Call.Orderly a M c) s) :
    total (Call.unrecordedLots a) s.tasks ≤ total (Call.openLots a) s.tasks ∧
      total (Call.openLots a) s.tasks + total (Call.recordedHeldLots a) s.tasks ≤
        total (Call.heldLots a) s.tasks := by
  have hc : ∀ c ∈ s.tasks, c.Orderly a M := by
    intro c hc
    obtain ⟨i, hi⟩ := List.getElem?_of_mem hc
    exact h i c hi
  rw [← total_add]
  exact ⟨List.sum_le_sum fun c hmem => (hc c hmem).unrecorded_le_open,
    List.sum_le_sum fun c hmem => (hc c hmem).open_add_recorded_le⟩

theorem RoomForOpen.step {e : AdapterEvent} (h : RoomForOpen a M s) (hw : GatedAt w a M)
    (hheld : total (Call.heldLots a) s.tasks ≤ s.shared.books.counter a)
    (hok : FreshStep w a s e) (hs : (adapterSystem w).step s e = some t) : RoomForOpen a M t := by
  obtain ⟨hf, hfresh, hready⟩ := hok
  have horderly : AllTasks (fun _ _ c => c.Orderly a M) t := by
    refine h.orderly.step (fun o _ => Call.orderly_init o) (fun i d c sh c' he hc hd hinv => ?_)
      (fun _ _ _ _ _ _ _ hb => hb) hs
    subst he
    refine ⟨hinv.step hw (Call.moves hd) hf ?_ (h.clean i), fun _ _ _ _ hb => hb⟩
    rintro rfl ha held r hp hfut hfill hpnl
    simpa [trackerReady, hp, hfut, ha, hfill, hpnl] using hready c hc
  rcases step_cases hs with ⟨o, rfl, rfl⟩ | ⟨i, d, c, sh, c', rfl, hc, hd, rfl⟩ | ⟨d, sh, rfl, hd, rfl⟩
  · refine ⟨horderly, h.clean, ?_⟩
    simpa [adapterSystem, Call.openLots] using h.room
  · refine ⟨horderly, fun j r hj => h.clean j r ((Call.moves hd).futures_done hj), ?_⟩
    have hfirst : ∀ b, d = .balance b → c.order.accountId = a → s.shared.books.pnl a = none := by
      rintro b rfl ha
      simpa [trackerReady, ha] using hready c hc
    rw [total_task _ hc c']
    rcases Call.exposure_step (Call.moves hd) (h.orderly i c hc) hfirst with
      hle | ⟨g, hp, rfl, ha, hcap, hlots, hopen⟩
    · linarith [h.room]
    · -- admitted: what is open and what is recorded are both on the counter
      have hM := (h.orderly i c hc).ceiling ha g hp
      have hparts := (orderly_total_le h.orderly).2
      have hsnap : s.shared.books.lots a - g.position ≤ total (Call.recordedHeldLots a) s.tasks := by
        have := hfresh c hc
        simp only [freshSnapshot, hp, ha] at this
        simpa [not_lt.mpr hcap] using this
      simp only [Gate.cap, hM] at hcap
      linarith
  · exact ⟨horderly, cleanResults_envStep h.clean hf hd, by simpa [(envStep_books hd a).2] using h.room⟩

/-- **The ceiling holds over every fresh run.** -/
theorem exposure_le_ceiling (hw : GatedAt w a M) (h₀ : Idle s₀)
    (hc₀ : 0 ≤ s₀.shared.books.counter a)
    (hM : s₀.shared.books.lots a + s₀.shared.books.counter a ≤ M)
    (h : RunWhere (adapterSystem w).step (FreshStep w a) s₀ es s) :
    s.shared.books.lots a + total (Call.unrecordedLots a) s.tasks ≤ M := by
  have hinv : RoomForOpen a M s := by
    refine h.invariant (fun _ s => RoomForOpen a M s) ?_ ?_
    · refine ⟨by simp [AllTasks, h₀.1], by simp [CleanResults, h₀.2], ?_⟩
      simp only [h₀.1, total_nil, add_zero]
      linarith
    · intro es t e u hr hi hok hs
      refine hi.step hw ?_ hok hs
      -- conservation: the counter contains everything that is held
      have hcons := counter_eq (a := a) h₀.1 hc₀ hr.toRun
      have horph := observe_sum_nonneg (w := w) a s₀ es
      linarith
  linarith [hinv.room, (orderly_total_le hinv.orderly).1]

/-! ## The stale snapshot -/

/-- Two calls take their snapshot of an empty account. The first fills, is
recorded and released; the script of the second then runs with a cap that
still knows nothing of it. -/
def staleSnapshotRun : List AdapterEvent :=
  [.spawn orderA, .spawn orderB, .task 0 (.start 0), .task 1 (.start 0),
   .task 0 .script, .task 0 .reply, .task 0 .reply,
   .env (.orderResult { orderId := "a", status := .filled, fillPrice := some 2000 }),
   .task 0 .reply, .task 0 (.balance none), .task 0 (.riskLoaded none), .task 0 .reply,
   .task 0 .reply, .task 0 .script, .task 1 .script, .task 1 .reply]

/-- With a ceiling of one lot and no fault of any kind, two lots are on
the market or in the tracker. -/
theorem exposure_exceeds_ceiling :
    ∃ s : AdapterState, GatedAt (gatedWiring 1) "ftmo-001" 1 ∧
      RunWhere (adapterSystem (gatedWiring 1)).step (fun _ e => Faultless e) emptyState
        staleSnapshotRun s ∧
      emptyState.shared.books.lots "ftmo-001" + emptyState.shared.books.counter "ftmo-001" ≤ 1 ∧
      1 < s.shared.books.lots "ftmo-001" + total (Call.unrecordedLots "ftmo-001") s.tasks := by
  obtain ⟨s, hrun, hs⟩ := RunWhere.exists_of_checked
    (adapterSystem (gatedWiring 1)).step (fun _ e => Faultless e)
    emptyState staleSnapshotRun
    (fun s => decide
      (1 < s.shared.books.lots "ftmo-001" + total (Call.unrecordedLots "ftmo-001") s.tasks))
    (by decide +kernel) (by decide +kernel)
  exact ⟨s, ⟨rfl, ⟨{}, rfl, rfl⟩, _, rfl, fun _ => rfl⟩, hrun, by decide +kernel, by simpa using hs⟩

/-- The same two orders one after the other: the second is sent with room
for it, and the ceiling of two lots holds. -/
theorem exposure_le_ceiling_sequential :
    ∃ s : AdapterState, total (Call.unrecordedLots "ftmo-001") s.tasks = 1 ∧
      s.shared.books.lots "ftmo-001" + total (Call.unrecordedLots "ftmo-001") s.tasks ≤ 2 := by
  obtain ⟨s, hrun, hs⟩ := RunWhere.exists_of_checked
    (adapterSystem (gatedWiring 2)).step (FreshStep (gatedWiring 2) "ftmo-001")
    emptyState
    [.spawn (goldOrder "a"), .task 0 (.start 0), .task 0 .script, .task 0 .reply,
      .task 0 .reply, .env (.orderResult { orderId := "a", status := .filled, fillPrice := some 2000 }),
      .task 0 .reply, .task 0 (.balance none), .task 0 (.riskLoaded none), .task 0 .reply,
      .task 0 .reply, .task 0 .script, .spawn (goldOrder "b"), .task 1 (.start 0), .task 1 .script,
      .task 1 .reply]
    (fun s => decide (total (Call.unrecordedLots "ftmo-001") s.tasks = 1))
    (by decide +kernel) (by decide +kernel)
  refine ⟨s, by simpa using hs, ?_⟩
  exact exposure_le_ceiling ⟨rfl, ⟨{}, rfl, rfl⟩, _, rfl, fun _ => rfl⟩ ⟨rfl, rfl⟩
    (by decide +kernel) (by decide +kernel) hrun

end TdSandboxed
