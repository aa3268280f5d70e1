/-
TdSandboxed.Adapters.MT5ConnectionTheorems — which sends of one order can
be in flight together.

An account's current set holds the orders in flight that were sent since
the account's connection was last started (`Tracked`). A start makes a new
set, so an order that is still in flight then may be sent once more.
-/
import TdSandboxed.Adapters.MT5ConnectionManager

namespace TdSandboxed

open Lib

/-! ## What changes the pending orders -/

namespace PendingOrders

/-- What a start of the connection of `a` does: a set of its own that is
empty, everything else as it was. -/
@[simp] theorem current_start (p : PendingOrders) (a b : String) :
    (p.start a).current b = if b = a then some (p.made a) else p.current b := by
  simp [start, new, Function.update_apply]

@[simp] theorem made_start (p : PendingOrders) (a b : String) :
    (p.start a).made b = if b = a then p.made a + 1 else p.made b := by
  simp [start, new, Function.update_apply]

@[simp] theorem starts_start (p : PendingOrders) (a b : String) :
    (p.start a).starts b = if b = a then p.starts a + 1 else p.starts b := by
  simp [start, Function.update_apply]

@[simp] theorem sets_start (p : PendingOrders) (a b : String) (n : ℕ) :
    (p.start a).sets b n = if b = a ∧ n = p.made a then ∅ else p.sets b n := by
  by_cases hb : b = a
  · subst hb
    simp [start, new, Function.update_apply]
  · simp [start, new, hb]

@[simp] theorem sets_put (p : PendingOrders) (a b : String) (n k : ℕ) (ids : Finset String) :
    (p.put a n ids).sets b k = if b = a ∧ k = n then ids else p.sets b k := by
  by_cases hb : b = a
  · subst hb
    simp [put, Function.update_apply]
  · simp [put, hb]

theorem get_start (p : PendingOrders) (a : String) : (p.start a).get a = ∅ := by
  simp [get]

end PendingOrders

namespace MT5ConnectionManager

variable (m : MT5ConnectionManager)

@[simp] theorem pendingOrders_scheduleReconnection (a : String) :
    (m.scheduleReconnection a).pendingOrders = m.pendingOrders := by
  unfold scheduleReconnection
  split <;> rfl

@[simp] theorem connections_scheduleReconnection (a : String) :
    (m.scheduleReconnection a).connections = m.connections := by
  unfold scheduleReconnection
  split <;> rfl

@[simp] theorem pendingOrders_connect (a : String) (x : Option String) :
    (m.connect a x).pendingOrders = m.pendingOrders.start a := by
  cases x with
  | none => rfl
  | some e => simp [connect, updateHealth]

theorem connections_connect {a b : String} {x : Option String}
    (h : ((m.connect a x).connections b).isSome) : b = a ∨ (m.connections b).isSome := by
  by_cases hb : b = a
  · exact .inl hb
  · cases x with
    | none => exact .inr (by simpa [connect, updateHealth, hb] using h)
    | some e => exact .inr (by simpa [connect, updateHealth] using h)

/-- An adapter is connected only for an account whose set was made. -/
def Ready : Prop := ∀ a, (m.connections a).isSome → (m.pendingOrders.current a).isSome

/-- A step leaves the pending orders alone or starts one connection. -/
def Moved (m m' : MT5ConnectionManager) : Prop :=
  m'.Ready ∧ (m'.pendingOrders = m.pendingOrders ∨
    ∃ a, m'.pendingOrders = m.pendingOrders.start a)

variable {m} {m' : MT5ConnectionManager}

/-- Fewer connections and the same pending orders. -/
theorem Ready.moved (h : m.Ready) (hp : m'.pendingOrders = m.pendingOrders)
    (hc : ∀ a, (m'.connections a).isSome → (m.connections a).isSome) : Moved m m' := by
  refine ⟨?_, .inl hp⟩
  intro a ha
  rw [hp]
  exact h a (hc a ha)

theorem Ready.connect (h : m.Ready) (a : String) (x : Option String) : (m.connect a x).Ready := by
  intro b hb
  rw [pendingOrders_connect, PendingOrders.current_start]
  split_ifs with hba
  · rfl
  · rcases connections_connect m hb with heq | hold
    · exact absurd heq hba
    · exact h b hold

theorem Ready.startConnection (h : m.Ready) (a : String) (x : Option String) :
    Moved m (m.startConnection a x) := by
  unfold MT5ConnectionManager.startConnection
  split_ifs
  · exact ⟨h, .inl rfl⟩
  · exact ⟨h.connect a x, .inr ⟨a, pendingOrders_connect m a x⟩⟩
  · exact ⟨h, .inl rfl⟩

theorem Ready.cleanUp (h : m.Ready) (a : String) : (m.cleanUp a).Ready := by
  intro b hb
  refine h b ?_
  by_cases hba : b = a
  · simp [MT5ConnectionManager.cleanUp, hba] at hb
  · simpa [MT5ConnectionManager.cleanUp, hba] using hb

/-- A reconnection starts the connection anew, so it has nothing to
recover: the set is empty already. -/
theorem Ready.reconnect (h : m.Ready) (a : String) (x : Option String) :
    Moved m (m.reconnect a x) := by
  unfold MT5ConnectionManager.reconnect
  by_cases hknown : (m.cleanUp a).accounts a
  · have hstart : (m.cleanUp a).startConnection a x = (m.cleanUp a).connect a x := by
      have hnone : (m.cleanUp a).connections a = none := by simp [MT5ConnectionManager.cleanUp]
      rw [MT5ConnectionManager.startConnection, hnone, if_neg (by simp), if_pos hknown]
    have hget : ((m.cleanUp a).connect a x).pendingOrders.get a = ∅ := by
      rw [pendingOrders_connect, PendingOrders.get_start]
    simp only [hknown, if_true, hstart, recoverPendingOrders, hget, ite_self]
    exact ⟨(h.cleanUp a).connect a x, .inr ⟨a, pendingOrders_connect _ a x⟩⟩
  · simp only [hknown]
    exact ⟨h.cleanUp a, .inl rfl⟩

/-- What a step of the manager does to the pending orders. -/
theorem moved_manage {e : ManagerEvent} (hr : m.Ready) (h : m.manage e = some m') :
    Moved m m' := by
  cases e with
  | setAccount a known =>
    obtain rfl := Option.some.inj h
    exact hr.moved rfl fun _ => id
  | setRunning on =>
    obtain rfl := Option.some.inj h
    exact hr.moved rfl fun _ => id
  | startConnection a x =>
    obtain rfl := Option.some.inj h
    exact hr.startConnection a x
  | stopReceiver a =>
    obtain ⟨n, -, rfl⟩ := Option.map_eq_some_iff.mp h
    exact hr.moved rfl fun _ => id
  | stopReconnection a =>
    simp only [manage] at h
    split at h <;> obtain rfl := Option.some.inj h <;> exact hr.moved rfl fun _ => id
  | stopConnection a =>
    obtain rfl := Option.some.inj h
    exact ⟨hr.cleanUp a, .inl rfl⟩
  | tick n =>
    obtain ⟨a, -, rfl⟩ := Option.map_eq_some_iff.mp h
    exact hr.moved rfl fun _ => id
  | receiverFails n error =>
    obtain ⟨a, -, rfl⟩ := Option.map_eq_some_iff.mp h
    refine hr.moved (by simp [updateHealth]) fun b hb => ?_
    simpa [updateHealth] using hb
  | wake n x =>
    obtain ⟨a, -, rfl⟩ := Option.map_eq_some_iff.mp h
    exact Ready.reconnect (m := { m with asleep := Function.update m.asleep n none }) hr a x

end MT5ConnectionManager

/-! ## What the sets hold -/

/-- Call `i` is in flight with set `n`. -/
def Took (calls : List SendCall) (i : ℕ) (c : SendCall) (n : ℕ) : Prop :=
  calls[i]? = some c ∧ c.phase = .inFlight n

section Took

variable {calls : List SendCall} {i j : ℕ} {c c' d : SendCall} {k : ℕ}

/-- After one call changed, a call in flight is that one or was in flight. -/
theorem Took.of_set (h : Took (calls.set i c') j d k) :
    j = i ∧ d = c' ∧ c'.phase = .inFlight k ∨ j ≠ i ∧ Took calls j d k := by
  rcases TaskSystem.getElem?_task h.1 with ⟨hj, hd⟩ | ⟨hj, hd⟩
  · exact .inl ⟨hj, hd, hd ▸ h.2⟩
  · exact .inr ⟨hj, hd, h.2⟩

/-- The other calls in flight stay so. -/
theorem Took.set (h : Took calls j d k) (hj : j ≠ i) (c' : SendCall) :
    Took (calls.set i c') j d k :=
  ⟨by rw [TaskSystem.getElem?_task_of_ne c' hj, h.1], h.2⟩

theorem Took.ne_of_idle (h : Took calls j d k) (hc : calls[i]? = some c)
    (hp : ∀ n, c.phase ≠ .inFlight n) : j ≠ i := by
  intro hj
  subst hj
  obtain rfl : c = d := Option.some.inj (hc.symm.trans h.1)
  exact hp k h.2

end Took

/-- The sets of the pending orders are the sends in flight. -/
structure Tracked (p : PendingOrders) (calls : List SendCall) : Prop where
  /-- The current set is the last one made, and only starts made sets. -/
  current : ∀ a n, p.current a = some n ↔ n + 1 = p.made a
  made : ∀ a, p.made a = p.starts a
  /-- A send in flight is in the set it took. -/
  held : ∀ i c n, Took calls i c n →
    n + 1 = c.since ∧ n < p.made c.order.accountId ∧
      c.order.orderId ∈ p.sets c.order.accountId n
  /-- What is in a set is a send in flight, and only one. -/
  sent : ∀ a n id, id ∈ p.sets a n →
    ∃ i c, Took calls i c n ∧ c.order.accountId = a ∧ c.order.orderId = id
  unique : ∀ i j c d n, Took calls i c n → Took calls j d n →
    c.order.accountId = d.order.accountId → c.order.orderId = d.order.orderId → i = j

namespace Tracked

variable {p : PendingOrders} {calls : List SendCall}

theorem empty : Tracked {} [] where
  current := by simp
  made := fun _ => rfl
  held := by simp [Took]
  sent := by simp
  unique := by simp [Took]

/-- A new set for an account leaves the sends in flight in theirs. -/
theorem start (h : Tracked p calls) (a : String) : Tracked (p.start a) calls where
  current := by
    intro b n
    by_cases hb : b = a
    · subst hb
      simp [eq_comm]
    · simp [hb, h.current]
  made := by
    intro b
    by_cases hb : b = a
    · subst hb
      simp [h.made]
    · simp [hb, h.made]
  held := by
    intro i c n hc
    obtain ⟨hsince, hlt, hmem⟩ := h.held i c n hc
    by_cases ha : c.order.accountId = a
    · subst ha
      refine ⟨hsince, ?_, ?_⟩
      · simp only [PendingOrders.made_start, if_true]
        omega
      · rw [PendingOrders.sets_start, if_neg (by omega)]
        exact hmem
    · simpa [ha] using ⟨hsince, hlt, hmem⟩
  sent := by
    intro b n id hid
    rw [PendingOrders.sets_start] at hid
    split_ifs at hid
    · simp at hid
    · exact h.sent b n id hid
  unique := h.unique

/-- Calls that take the same sets are tracked alike. -/
theorem congr {ds : List SendCall} (h : Tracked p calls)
    (ht : ∀ i c n, Took ds i c n ↔ Took calls i c n) : Tracked p ds where
  current := h.current
  made := h.made
  held := fun i c n hc => h.held i c n ((ht i c n).mp hc)
  sent := by
    intro a n id hid
    obtain ⟨i, c, hc, ha, ho⟩ := h.sent a n id hid
    exact ⟨i, c, (ht i c n).mpr hc, ha, ho⟩
  unique := fun i j c d n hc hd => h.unique i j c d n ((ht i c n).mp hc) ((ht j d n).mp hd)

variable {i : ℕ} {c c' : SendCall} {n : ℕ}

/-- A call that neither was in flight nor is. -/
theorem idle (h : Tracked p calls) (hc : calls[i]? = some c) (hp : ∀ n, c.phase ≠ .inFlight n)
    (hp' : ∀ n, c'.phase ≠ .inFlight n) : Tracked p (calls.set i c') := by
  refine h.congr fun j d n => ?_
  constructor
  · intro hd
    rcases hd.of_set with ⟨-, -, hphase⟩ | ⟨-, hd'⟩
    · exact absurd hphase (hp' n)
    · exact hd'
  · intro hd
    exact hd.set (hd.ne_of_idle hc hp) c'

theorem spawn (h : Tracked p calls) (order : Order) : Tracked p (calls ++ [{ order := order }]) := by
  refine h.congr fun j d n => ?_
  constructor
  · intro hd
    rcases TaskSystem.getElem?_spawn hd.1 with hd' | ⟨-, rfl⟩
    · exact ⟨hd', hd.2⟩
    · exact absurd hd.2 (by simp)
  · intro hd
    exact ⟨TaskSystem.getElem?_spawn_of_some hd.1 _, hd.2⟩

/-- A send goes out: its id was not in the current set, and is now. -/
theorem flight (h : Tracked p calls) (hc : calls[i]? = some c) (ho : c'.order = c.order)
    (hcur : p.current c.order.accountId = some n) (hn : c'.phase = .inFlight n)
    (hsince : c'.since = p.starts c.order.accountId)
    (hnew : c.order.orderId ∉ p.sets c.order.accountId n) (hp : ∀ k, c.phase ≠ .inFlight k) :
    Tracked (p.put c.order.accountId n (insert c.order.orderId (p.sets c.order.accountId n)))
      (calls.set i c') := by
  have hmade := (h.current _ n).mp hcur
  have htook : ∀ j d k, Took (calls.set i c') j d k → j = i ∧ d = c' ∧ k = n ∨
      j ≠ i ∧ Took calls j d k := by
    intro j d k hd
    refine hd.of_set.imp_left fun ⟨hj, heq, hphase⟩ => ⟨hj, heq, ?_⟩
    exact (SendPhase.inFlight.inj (hn.symm.trans hphase)).symm
  have hkeep : ∀ j d k, Took calls j d k → Took (calls.set i c') j d k := by
    intro j d k hd
    exact hd.set (hd.ne_of_idle hc hp) c'
  constructor
  · exact h.current
  · exact h.made
  · intro j d k hd
    rcases htook j d k hd with ⟨rfl, rfl, rfl⟩ | ⟨-, hd'⟩
    · rw [hsince, ← h.made, ho, PendingOrders.sets_put, if_pos ⟨rfl, rfl⟩]
      exact ⟨hmade, by simp only [PendingOrders.put]; omega, Finset.mem_insert_self _ _⟩
    · obtain ⟨h1, h2, h3⟩ := h.held j d k hd'
      refine ⟨h1, h2, ?_⟩
      rw [PendingOrders.sets_put]
      split_ifs with heq
      · rw [heq.1, heq.2] at h3
        exact Finset.mem_insert_of_mem h3
      · exact h3
  · intro a k id hid
    rw [PendingOrders.sets_put] at hid
    split_ifs at hid with heq
    · obtain ⟨rfl, rfl⟩ := heq
      rcases Finset.mem_insert.mp hid with rfl | hold
      · exact ⟨i, c', ⟨TaskSystem.getElem?_task_self hc, hn⟩, by rw [ho], by rw [ho]⟩
      · obtain ⟨j, d, hd, hrest⟩ := h.sent _ _ _ hold
        exact ⟨j, d, hkeep j d _ hd, hrest⟩
    · obtain ⟨j, d, hd, hrest⟩ := h.sent _ _ _ hid
      exact ⟨j, d, hkeep j d _ hd, hrest⟩
  · intro j k d e l hd he hacc hid
    have hclash : ∀ j d, Took calls j d n → d.order.accountId = c'.order.accountId →
        d.order.orderId ≠ c'.order.orderId := by
      intro j d hd ha hi
      have hmem := (h.held j d n hd).2.2
      rw [ha, hi, ho] at hmem
      exact hnew hmem
    rcases htook j d l hd with ⟨rfl, rfl, rfl⟩ | ⟨-, hd'⟩
    · rcases htook k e l he with ⟨rfl, -, -⟩ | ⟨-, he'⟩
      · rfl
      · exact absurd hid.symm (hclash k e he' hacc.symm)
    · rcases htook k e l he with ⟨rfl, rfl, rfl⟩ | ⟨-, he'⟩
      · exact absurd hid (hclash j d hd' hacc)
      · exact h.unique j k d e l hd' he' hacc hid

/-- A send ends: its id leaves the set it took. -/
theorem release (h : Tracked p calls) (hc : Took calls i c n) (hp' : ∀ k, c'.phase ≠ .inFlight k) :
    Tracked
      (p.put c.order.accountId n ((p.sets c.order.accountId n).erase c.order.orderId))
      (calls.set i c') := by
  have htook : ∀ j d k, Took (calls.set i c') j d k → j ≠ i ∧ Took calls j d k := by
    intro j d k hd
    exact hd.of_set.resolve_left fun hthis => hp' k hthis.2.2
  constructor
  · exact h.current
  · exact h.made
  · intro j d k hd
    obtain ⟨hj, hd'⟩ := htook j d k hd
    obtain ⟨h1, h2, h3⟩ := h.held j d k hd'
    refine ⟨h1, h2, ?_⟩
    rw [PendingOrders.sets_put]
    split_ifs with heq
    · obtain ⟨ha, rfl⟩ := heq
      rw [ha] at h3
      refine Finset.mem_erase.mpr ⟨?_, h3⟩
      intro hid
      exact hj (h.unique j i d c k hd' hc ha hid)
    · exact h3
  · intro a k id hid
    rw [PendingOrders.sets_put] at hid
    have hold : id ∈ p.sets a k ∧ ¬ (a = c.order.accountId ∧ k = n ∧ id = c.order.orderId) := by
      split_ifs at hid with heq
      · obtain ⟨rfl, rfl⟩ := heq
        have hmem := Finset.mem_erase.mp hid
        exact ⟨hmem.2, fun hall => hmem.1 hall.2.2⟩
      · exact ⟨hid, fun hall => heq ⟨hall.1, hall.2.1⟩⟩
    obtain ⟨j, d, hd, ha, ho⟩ := h.sent a k id hold.1
    refine ⟨j, d, hd.set ?_ c', ha, ho⟩
    intro hj
    subst hj
    obtain rfl : c = d := by simpa [hc.1] using hd.1
    exact hold.2 ⟨ha.symm, by simpa [hc.2, eq_comm] using hd.2, ho.symm⟩
  · intro j k d e l hd he
    exact h.unique j k d e l (htook j d l hd).2 (htook k e l he).2

end Tracked

/-! ## Every run -/

/-- A manager is ready and its sets are the sends in flight. -/
def Sound (s : SendState) : Prop :=
  s.shared.Ready ∧ Tracked s.shared.pendingOrders s.tasks

theorem sound_noSends (accounts : String → Bool) : Sound (noSends accounts) :=
  ⟨fun _ h => by simp [noSends] at h, Tracked.empty⟩

theorem Sound.send {s : SendState} {i : ℕ} {c c' : SendCall} {m' : MT5ConnectionManager}
    {e : SendEvent} (h : Sound s) (hc : s.tasks[i]? = some c)
    (hs : c.step s.shared i e = some (m', c')) :
    Sound { shared := m', tasks := s.tasks.set i c' } := by
  obtain ⟨hready, htracked⟩ := h
  cases hp : c.phase with
  | created =>
    have hidle : ∀ n, c.phase ≠ .inFlight n := by simp [hp]
    cases e with
    | start =>
      simp only [SendCall.step, hp, Option.some.injEq] at hs
      unfold SendCall.start at hs
      by_cases hnone : (s.shared.connections c.order.accountId).isNone
      · rw [if_pos hnone] at hs
        obtain ⟨rfl, rfl⟩ := Prod.mk.inj hs
        exact ⟨hready, htracked.idle hc hidle (by simp)⟩
      · -- a connection has a set, so `setdefault` makes none
        obtain ⟨n, hn⟩ := Option.isSome_iff_exists.mp
          (hready c.order.accountId (by simpa [Option.isSome_iff_ne_none] using hnone))
        simp only [hnone, hn, Option.isNone_some, Bool.false_eq_true, if_false,
          Option.getD_some] at hs
        split_ifs at hs with hmem
        · obtain ⟨rfl, rfl⟩ := Prod.mk.inj hs
          exact ⟨hready, htracked.idle hc hidle (by simp)⟩
        · obtain ⟨rfl, rfl⟩ := Prod.mk.inj hs
          exact ⟨hready, htracked.flight hc rfl hn rfl rfl hmem hidle⟩
    | fails x =>
      simp only [SendCall.step, hp, Option.some.injEq] at hs
      obtain ⟨rfl, rfl⟩ := Prod.mk.inj hs
      exact ⟨hready, htracked.idle hc hidle (by simp)⟩
    | ends r => simp [SendCall.step, hp] at hs
  | inFlight n =>
    cases e with
    | start => simp [SendCall.step, hp] at hs
    | ends r =>
      simp only [SendCall.step, hp, Option.some.injEq] at hs
      obtain ⟨rfl, rfl⟩ := Prod.mk.inj hs
      exact ⟨hready, htracked.release ⟨hc, hp⟩ (by simp)⟩
    | fails x =>
      simp only [SendCall.step, hp, Option.some.injEq] at hs
      obtain ⟨rfl, rfl⟩ := Prod.mk.inj hs
      exact ⟨hready, htracked.release ⟨hc, hp⟩ (by simp)⟩
  | finished out => cases e <;> simp [SendCall.step, hp] at hs

theorem Sound.manage {s : SendState} {m' : MT5ConnectionManager} {e : ManagerEvent} (h : Sound s)
    (hs : s.shared.manage e = some m') : Sound { s with shared := m' } := by
  obtain ⟨hready, hp | ⟨a, hp⟩⟩ := MT5ConnectionManager.moved_manage h.1 hs
  · exact ⟨hready, by rw [hp]; exact h.2⟩
  · exact ⟨hready, by rw [hp]; exact h.2.start a⟩

theorem Sound.step {s t : SendState} {e : SendSystemEvent} (h : Sound s)
    (hs : sendSystem.step s e = some t) : Sound t := by
  rcases TaskSystem.step_cases hs with ⟨order, rfl, rfl⟩ | ⟨i, d, c, m', c', rfl, hc, hd, rfl⟩ |
    ⟨d, m', rfl, hd, rfl⟩
  · exact ⟨h.1, h.2.spawn order⟩
  · exact h.send hc hd
  · exact h.manage hd

theorem Sound.of_run {accounts : String → Bool} {es : List SendSystemEvent} {s : SendState}
    (h : Run sendSystem.step (noSends accounts) es s) : Sound s :=
  h.invariant_state Sound (sound_noSends accounts) fun _ _ _ hi _ hs => hi.step hs

/-- Call `i` of the state is in flight. -/
def SendingAt (s : SendState) (i : ℕ) (c : SendCall) : Prop :=
  s.tasks[i]? = some c ∧ c.InFlight

/-- **No duplicate order in flight.** In every state a run reaches, two
sends in flight for one account, with one order id and sent since the same
start of its connection, are one send; and the account's pending ids are
those of its sends in flight since the last start. -/
theorem no_duplicate_in_flight {accounts : String → Bool} {es : List SendSystemEvent}
    {s : SendState} (h : Run sendSystem.step (noSends accounts) es s) :
    (∀ i j c d, SendingAt s i c → SendingAt s j d → c.order.accountId = d.order.accountId →
      c.order.orderId = d.order.orderId → c.since = d.since → i = j) ∧
    ∀ a id, id ∈ s.shared.pendingOrders.get a ↔
      ∃ i c, SendingAt s i c ∧ c.order.accountId = a ∧ c.order.orderId = id ∧
        c.since = s.shared.pendingOrders.starts a := by
  obtain ⟨-, ht⟩ := Sound.of_run h
  constructor
  · intro i j c d hci hdj hacc hid hsince
    obtain ⟨hc, n, hn⟩ := hci
    obtain ⟨hd, k, hk⟩ := hdj
    have hcn := (ht.held i c n ⟨hc, hn⟩).1
    have hdk := (ht.held j d k ⟨hd, hk⟩).1
    obtain rfl : n = k := by omega
    exact ht.unique i j c d n ⟨hc, hn⟩ ⟨hd, hk⟩ hacc hid
  · intro a id
    constructor
    · intro hid
      cases hcur : s.shared.pendingOrders.current a with
      | none => simp [PendingOrders.get, hcur] at hid
      | some n =>
        simp only [PendingOrders.get, hcur] at hid
        obtain ⟨i, c, hc, ha, ho⟩ := ht.sent a n id hid
        have hsince := (ht.held i c n hc).1
        have hmade := (ht.current a n).mp hcur
        rw [ht.made] at hmade
        exact ⟨i, c, ⟨hc.1, n, hc.2⟩, ha, ho, by omega⟩
    · intro hex
      obtain ⟨i, c, ⟨hc, n, hn⟩, rfl, rfl, hsince⟩ := hex
      obtain ⟨hn', -, hmem⟩ := ht.held i c n ⟨hc, hn⟩
      have hcur : s.shared.pendingOrders.current c.order.accountId = some n := by
        rw [ht.current, ht.made]
        omega
      simpa [PendingOrders.get, hcur] using hmem

/-- A connection is started and an order is sent on it. -/
def sentEvents : List SendSystemEvent :=
  [.env (.setRunning true), .env (.startConnection "ftmo-001" none), .spawn orderA, .task 0 .start]

theorem no_duplicate_in_flight_sent :
    ∃ s, Run sendSystem.step (noSends fun _ => true) sentEvents s ∧
      "a" ∈ s.shared.pendingOrders.get "ftmo-001" := by
  have hrun : Run sendSystem.step (noSends fun _ => true) sentEvents _ := .of_exec rfl
  refine ⟨_, hrun, ((no_duplicate_in_flight hrun).2 "ftmo-001" "a").mpr ?_⟩
  exact ⟨0, _, ⟨rfl, 0, rfl⟩, rfl, rfl, rfl⟩

/-- The receiver fails, and the connection is back after the first sleep. -/
def reconnectedEvents : List SendSystemEvent :=
  sentEvents ++ [.env (.receiverFails 0 "ZMQError"), .env (.wake 1 none)]

/-- A reconnection frees an order id whose send is in flight; the order is
then sent once more, and two sends of it are in flight. -/
theorem resent_after_reconnect :
    (∃ s, Run sendSystem.step (noSends fun _ => true) reconnectedEvents s ∧
      (∃ c, SendingAt s 0 c ∧ c.order = orderA) ∧ s.shared.pendingOrders.get "ftmo-001" = ∅) ∧
    ∃ s, Run sendSystem.step (noSends fun _ => true)
        (reconnectedEvents ++ [.spawn orderA, .task 1 .start]) s ∧
      ∃ c d, SendingAt s 0 c ∧ SendingAt s 1 d ∧ c.order = orderA ∧ d.order = orderA :=
  ⟨⟨_, .of_exec rfl, ⟨_, ⟨rfl, 0, rfl⟩, rfl⟩, rfl⟩,
    ⟨_, .of_exec rfl, _, _, ⟨rfl, 0, rfl⟩, ⟨rfl, 1, rfl⟩, rfl, rfl⟩⟩

end TdSandboxed
