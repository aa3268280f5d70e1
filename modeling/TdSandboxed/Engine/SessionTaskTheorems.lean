/-
TdSandboxed.Engine.SessionTaskTheorems — when the orchestrator keeps track
of its run tasks.

`Known` says more than `WellTracked`: a live task is the recorded one, and
its session is the account's current one and is running; a session being
torn down is no account's current one, and the teardown holds its task. So
a call can neither overwrite a live task nor lose one, and only a
done-callback can: it drops whatever its account has recorded by then. With
callbacks that are `Timely` every step keeps `Known`.
-/
import TdSandboxed.Engine.SessionTasks

namespace TdSandboxed

open Lib

/-! ## The invariant -/

/-- The session's task is not alive. -/
def Settled (all : List TaskSession) (i : ℕ) : Prop :=
  ∃ x, all[i]? = some x ∧ x.nodeRun ≠ .alive

/-- If the session's task is alive, it is this one. -/
def Held (all : List TaskSession) (i : ℕ) (runTask : Option ℕ) : Prop :=
  ∃ x, all[i]? = some x ∧ (x.nodeRun = .alive → runTask = some i)

/-- The teardown holds the task of its session. -/
def SessionCall.Holds (all : List TaskSession) (c : SessionCall) : Prop :=
  match c.phase with
  | .stopping i runTask => Held all i runTask
  | .joining i runTask => Held all i (some runTask)
  | .created | .finished => True

structure KnownSessions (s : SessionSystem) : Prop where
  current : ∀ a i, s.shared.sessions a = some i ∨ s.shared.nodeRunTasks a = some i →
    (∃ x, s.shared.all[i]? = some x ∧ x.accountId = a) ∧ ¬ TornDown s.tasks i
  live : ∀ i x, Live s i x → s.shared.nodeRunTasks x.accountId = some i ∧
    s.shared.sessions x.accountId = some i ∧ x.state = .running
  holds : ∀ c ∈ s.tasks, c.Holds s.shared.all
  isolation : ∀ p ∈ s.shared.pendingIsolation, p.1 = p.2.1 ∧ Settled s.shared.all p.1
  marks : ∀ m ∈ s.shared.marks, m.1 = m.2

theorem knownSessions_init : KnownSessions noSessions where
  current := fun _ _ h => (by rcases h with h | h <;> cases h)
  live := fun _ _ h => (by cases h.1)
  holds := fun _ h => (by cases h)
  isolation := fun _ h => (by cases h)
  marks := fun _ h => (by cases h)

/-! ## Later session lists -/

/-- No session goes away, changes its account or gets a live task. -/
def LaterSessions (all all' : List TaskSession) : Prop :=
  ∀ (i : ℕ) (x : TaskSession), all[i]? = some x →
    ∃ x', all'[i]? = some x' ∧ x'.accountId = x.accountId ∧ (x'.nodeRun = .alive → x.nodeRun = .alive)

section
variable {all all' : List TaskSession} {i j : ℕ} {x : TaskSession}

theorem LaterSessions.settled (h : LaterSessions all all') (hi : Settled all i) : Settled all' i := by
  obtain ⟨x, hx, hdead⟩ := hi
  obtain ⟨x', hx', -, hrun⟩ := h i x hx
  exact ⟨x', hx', fun halive => hdead (hrun halive)⟩

theorem LaterSessions.held {r : Option ℕ} (h : LaterSessions all all') (hi : Held all i r) :
    Held all' i r := by
  obtain ⟨x, hx, hheld⟩ := hi
  obtain ⟨x', hx', -, hrun⟩ := h i x hx
  exact ⟨x', hx', fun halive => hheld (hrun halive)⟩

theorem LaterSessions.holds {c : SessionCall} (h : LaterSessions all all') (hc : c.Holds all) :
    c.Holds all' := by
  unfold SessionCall.Holds at hc ⊢
  split at hc
  · exact h.held hc
  · exact h.held hc
  · trivial
  · trivial

theorem laterSessions_append (all : List TaskSession) (x : TaskSession) :
    LaterSessions all (all ++ [x]) :=
  fun _ y hy => ⟨y, TaskSystem.getElem?_spawn_of_some hy x, rfl, id⟩

theorem laterSessions_modify {f : TaskSession → TaskSession}
    (haccount : ∀ x, (f x).accountId = x.accountId)
    (hdead : ∀ x, all[j]? = some x → (f x).nodeRun ≠ .alive) :
    LaterSessions all (all.modify j f) := by
  intro i x hx
  rw [List.getElem?_modify, hx]
  by_cases hij : j = i
  · subst hij
    exact ⟨f x, by simp, haccount x, fun halive => absurd halive (hdead x hx)⟩
  · exact ⟨x, by simp [hij], rfl, id⟩

/-- A session with a live task is one that was not changed. -/
theorem getElem?_of_modify {f : TaskSession → TaskSession}
    (hdead : ∀ x, all[j]? = some x → (f x).nodeRun ≠ .alive)
    (hx : (all.modify j f)[i]? = some x) (halive : x.nodeRun = .alive) : all[i]? = some x := by
  rw [List.getElem?_modify] at hx
  cases hy : all[i]? with
  | none => simp [hy] at hx
  | some y =>
    by_cases hij : j = i
    · subst hij
      obtain rfl : f y = x := by simpa [hy] using hx
      exact absurd halive (hdead y hy)
    · simpa [hy, hij] using hx

end

/-! ## Tearing down -/

section
variable {calls : List SessionCall} {c c' : SessionCall} {k i : ℕ}

theorem TornDown.of_set (h : TornDown (calls.set k c') i) : TornDown calls i ∨ c'.tearsDown i := by
  obtain ⟨d, hd, hdi⟩ := h
  rcases List.mem_or_eq_of_mem_set hd with hd | rfl
  · exact .inl ⟨d, hd, hdi⟩
  · exact .inr hdi

theorem TornDown.set (h : TornDown calls i) (hc : calls[k]? = some c) (c' : SessionCall) :
    TornDown (calls.set k c') i ∨ c.tearsDown i := by
  obtain ⟨d, hd, hdi⟩ := h
  obtain ⟨l, hl⟩ := List.mem_iff_getElem?.mp hd
  by_cases hlk : l = k
  · subst hlk
    obtain rfl := Option.some.inj (hc.symm.trans hl)
    exact .inr hdi
  · have hmem : (calls.set k c')[l]? = some d := (TaskSystem.getElem?_task_of_ne c' hlk).trans hl
    exact .inl ⟨d, List.mem_of_getElem? hmem, hdi⟩

theorem tornDown_set_self (hc : calls[k]? = some c) (hi : c'.tearsDown i) :
    TornDown (calls.set k c') i :=
  ⟨c', List.mem_of_getElem? (TaskSystem.getElem?_task_self hc), hi⟩

theorem not_tearsDown_finished : ¬ (c.goto .finished).tearsDown i := by
  rintro (⟨r, h⟩ | ⟨r, h⟩) <;> cases h

end

/-! ## What a change of the table keeps -/

/-- A callback runs for a run task that has ended. -/
theorem SessionTable.callback_eq_some {s s' : SessionTable} {i : ℕ}
    (h : s.callback i = some s') :
    ∃ x e, s.all[i]? = some x ∧ x.nodeRun = .done e ∧ s' = s.onNodeRunDone i x.accountId e := by
  unfold SessionTable.callback at h
  rw [Option.bind_eq_some_iff] at h
  obtain ⟨x, hx, h⟩ := h
  cases hrun : x.nodeRun with
  | done e => exact ⟨x, e, hx, hrun, by simpa [hrun] using h.symm⟩
  | _ => simp [hrun] at h

namespace KnownSessions

variable {sh : SessionTable} {calls : List SessionCall} {c : SessionCall} {k i : ℕ}
  {accountId : String}

/-- A session that ends up without a live task is changed. -/
theorem modify (hk : KnownSessions ⟨sh, calls⟩) (j : ℕ) (f : TaskSession → TaskSession)
    (haccount : ∀ x, (f x).accountId = x.accountId)
    (hdead : ∀ x, sh.all[j]? = some x → (f x).nodeRun ≠ .alive) :
    KnownSessions ⟨{ sh with all := sh.all.modify j f }, calls⟩ := by
  have hlater : LaterSessions sh.all (sh.all.modify j f) := laterSessions_modify haccount hdead
  refine ⟨fun a i hi => ?_, fun i x hx => ?_, fun c hc => hlater.holds (hk.holds c hc),
    fun p hp => ⟨(hk.isolation p hp).1, hlater.settled (hk.isolation p hp).2⟩, hk.marks⟩
  · obtain ⟨⟨x, hx, hxa⟩, htorn⟩ := hk.current a i hi
    obtain ⟨x', hx', hacc, -⟩ := hlater i x hx
    exact ⟨⟨x', hx', hacc.trans hxa⟩, htorn⟩
  · exact hk.live i x ⟨getElem?_of_modify hdead hx.1 hx.2.1, hx.2⟩

theorem markStopped (hk : KnownSessions ⟨sh, calls⟩) (hi : Settled sh.all i) :
    KnownSessions ⟨sh.markStopped i, calls⟩ := by
  obtain ⟨x, hx, hdead⟩ := hi
  refine hk.modify i .markStopped (fun _ => rfl) fun y hy => ?_
  obtain rfl := Option.some.inj (hx.symm.trans hy)
  exact hdead

theorem addAccount (hk : KnownSessions ⟨sh, calls⟩) (accountId : String) (b : SessionBuild) :
    KnownSessions ⟨sh.addAccount accountId b, calls⟩ := by
  unfold SessionTable.addAccount
  split
  · exact hk
  · rename_i hidle
    have hlater : LaterSessions sh.all (sh.all ++ [({ accountId } : TaskSession).start b]) :=
      laterSessions_append _ _
    -- the new number is in nobody's hands
    have hfresh : ¬ TornDown calls sh.all.length := by
      rintro ⟨c, hc, hcn⟩
      have hholds := hk.holds c hc
      unfold SessionCall.Holds at hholds
      rcases hcn with ⟨r, hr⟩ | ⟨r, hr⟩ <;> rw [hr] at hholds <;>
        obtain ⟨x, hx, -⟩ := hholds <;> simp at hx
    have haccount : (({ accountId } : TaskSession).start b).accountId = accountId := by cases b <;> rfl
    refine ⟨fun a i hi => ?_, fun i x hx => ?_, fun c hc => hlater.holds (hk.holds c hc),
      fun p hp => ⟨(hk.isolation p hp).1, hlater.settled (hk.isolation p hp).2⟩, hk.marks⟩
    · have hold : sh.sessions a = some i ∨ sh.nodeRunTasks a = some i ∨
          a = accountId ∧ sh.all.length = i := by
        dsimp only at hi
        by_cases ha : a = accountId
        · subst ha
          split at hi
          · simp_all
          · simp_all
            tauto
        · split at hi <;> simp_all
      rw [← or_assoc] at hold
      rcases hold with hold | ⟨rfl, rfl⟩
      · obtain ⟨⟨x, hx, hxa⟩, htorn⟩ := hk.current a i hold
        exact ⟨⟨x, TaskSystem.getElem?_spawn_of_some hx _, hxa⟩, htorn⟩
      · exact ⟨⟨_, by simp, haccount⟩, hfresh⟩
    · obtain ⟨hlast, halive, htorn⟩ := hx
      rcases TaskSystem.getElem?_spawn hlast with hx | ⟨rfl, rfl⟩
      · -- a live session of this account would be running
        obtain ⟨hrecorded, hcurrent, hrunning⟩ := hk.live i x ⟨hx, halive, htorn⟩
        have hne : x.accountId ≠ accountId := by
          rintro rfl
          refine hidle ?_
          dsimp only at hcurrent
          rw [SessionTable.isRunning, hcurrent]
          simp [hx, hrunning]
        refine ⟨?_, by simpa [hne] using hcurrent, hrunning⟩
        dsimp only
        split
        · simpa [hne] using hrecorded
        · exact hrecorded
      · cases b with
        | raises | skeleton => cases halive
        | node => exact ⟨by simp [haccount], by simp [haccount], rfl⟩

/-- A call that tears down no live session is over. -/
theorem drop (hk : KnownSessions ⟨sh, calls⟩) (hc : calls[k]? = some c)
    (hsettled : ∀ i, c.tearsDown i → Settled sh.all i) :
    KnownSessions ⟨sh, calls.set k (c.goto .finished)⟩ := by
  have htorn : ∀ i, TornDown (calls.set k (c.goto .finished)) i → TornDown calls i := fun i h =>
    h.of_set.resolve_right not_tearsDown_finished
  refine ⟨fun a i hi => ⟨(hk.current a i hi).1, fun h => (hk.current a i hi).2 (htorn i h)⟩,
    fun i x hx => ?_, fun d hd => ?_, hk.isolation, hk.marks⟩
  · refine hk.live i x ⟨hx.1, hx.2.1, fun h => ?_⟩
    rcases h.set hc (c.goto .finished) with h | h
    · exact hx.2.2 h
    · obtain ⟨y, hy, hdead⟩ := hsettled i h
      obtain rfl := Option.some.inj (hx.1.symm.trans hy)
      exact hdead hx.2.1
  · rcases List.mem_or_eq_of_mem_set hd with hd | rfl
    · exact hk.holds d hd
    · trivial

theorem finish (hk : KnownSessions ⟨sh, calls⟩) (hc : calls[k]? = some c)
    (hsettled : ∀ i, c.tearsDown i → Settled sh.all i) (b : SessionBuild) :
    KnownSessions ⟨(c.finish sh b).1, calls.set k (c.finish sh b).2⟩ := by
  have hdrop := hk.drop hc hsettled
  unfold SessionCall.finish
  split
  · exact hdrop
  · exact hdrop.addAccount c.accountId b

/-- An account's session and task are taken out, by a call that then holds
the task if it is alive. -/
theorem pop (hk : KnownSessions ⟨sh, calls⟩) (hi : sh.sessions accountId = some i)
    {calls' : List SessionCall}
    (hfrom : ∀ j, TornDown calls' j → TornDown calls j ∨ j = i)
    (hto : ∀ j, TornDown calls j → TornDown calls' j)
    (hlive : ∀ x, ¬ Live ⟨sh, calls'⟩ i x) (hholds : ∀ d ∈ calls', d.Holds sh.all) :
    KnownSessions ⟨sh.pop accountId, calls'⟩ := by
  obtain ⟨⟨x, hx, hxa⟩, hxtorn⟩ := hk.current accountId i (.inl hi)
  refine ⟨fun a j hj => ?_, fun j y hy => ?_, hholds, hk.isolation, hk.marks⟩
  · have ha : a ≠ accountId := by
      rintro rfl
      simp [SessionTable.pop] at hj
    have hj : sh.sessions a = some j ∨ sh.nodeRunTasks a = some j := by
      simpa [SessionTable.pop, ha] using hj
    obtain ⟨⟨y, hy, hya⟩, htorn⟩ := hk.current a j hj
    refine ⟨⟨y, hy, hya⟩, fun h => ?_⟩
    rcases hfrom j h with h | rfl
    · exact htorn h
    · obtain rfl := Option.some.inj (hx.symm.trans hy)
      exact ha (hya.symm.trans hxa)
  · obtain ⟨hrecorded, hcurrent, hrunning⟩ :=
      hk.live j y ⟨hy.1, hy.2.1, fun h => hy.2.2 (hto j h)⟩
    have hne : y.accountId ≠ accountId := by
      intro heq
      have hij : some j = some i := hcurrent.symm.trans (heq ▸ hi)
      obtain rfl := Option.some.inj hij
      exact hlive y hy
    exact ⟨by simpa [SessionTable.pop, hne] using hrecorded,
      by simpa [SessionTable.pop, hne] using hcurrent, hrunning⟩

/-! ## Each call -/

theorem removeAccount (hk : KnownSessions ⟨sh, calls⟩) (hc : calls[k]? = some c)
    (hcreated : c.phase = .created) (b : SessionBuild) :
    KnownSessions ⟨(c.removeAccount sh b).1, calls.set k (c.removeAccount sh b).2⟩ := by
  have hidle : ∀ i, ¬ c.tearsDown i := by
    rintro i (⟨r, h⟩ | ⟨r, h⟩) <;> rw [hcreated] at h <;> cases h
  unfold SessionCall.removeAccount
  split
  · exact hk.finish hc (fun i h => absurd h (hidle i)) b
  · rename_i i hi
    obtain ⟨⟨x, hx, hxa⟩, hxtorn⟩ := hk.current c.accountId i (.inl hi)
    have hpop : (sh.pop c.accountId).all = sh.all := rfl
    by_cases hnode : x.nodeRun = .absent
    · -- no node: the session is stopped at once
      have hsettled : Settled sh.all i := ⟨x, hx, by simp [hnode]⟩
      have hknown : KnownSessions ⟨sh.pop c.accountId, calls⟩ := by
        refine hk.pop hi (fun _ h => .inl h) (fun _ h => h) (fun y hy => ?_) hk.holds
        obtain rfl := Option.some.inj (hx.symm.trans hy.1)
        exact absurd hy.2.1 (by simp [hnode])
      dsimp only
      rw [if_neg (by simp [hpop, hx, hnode])]
      exact (hknown.markStopped hsettled).finish hc (fun i h => absurd h (hidle i)) b
    · dsimp only
      rw [if_pos (by simp [hpop, hx, hnode])]
      have htears : (c.goto (.stopping i (sh.nodeRunTasks c.accountId))).tearsDown i := .inl ⟨_, rfl⟩
      refine hk.pop hi (fun j h => ?_) (fun j h => (h.set hc _).resolve_right (hidle j))
        (fun y hy => hy.2.2 (tornDown_set_self hc htears)) fun d hd => ?_
      · refine h.of_set.imp_right fun htear => ?_
        rcases htear with ⟨r, h⟩ | ⟨r, h⟩
        · exact (SessionPhase.stopping.inj h).1.symm
        · cases h
      · rcases List.mem_or_eq_of_mem_set hd with hd | rfl
        · exact hk.holds d hd
        · refine ⟨x, hx, fun halive => ?_⟩
          exact hxa ▸ (hk.live i x ⟨hx, halive, hxtorn⟩).1

/-- A teardown whose session has no live task any more goes on to its end. -/
theorem stopped (hk : KnownSessions ⟨sh, calls⟩) (hc : calls[k]? = some c)
    (htears : ∀ j, c.tearsDown j → j = i) (hsettled : Settled sh.all i) (b : SessionBuild) :
    KnownSessions
      ⟨(c.finish (sh.markStopped i) b).1, calls.set k (c.finish (sh.markStopped i) b).2⟩ := by
  have hlater : LaterSessions sh.all (sh.markStopped i).all :=
    laterSessions_modify (fun _ => rfl) fun x hx => by
      obtain ⟨y, hy, hdead⟩ := hsettled
      obtain rfl := Option.some.inj (hx.symm.trans hy)
      exact hdead
  refine (hk.markStopped hsettled).finish hc (fun j hj => ?_) b
  obtain rfl := htears j hj
  exact hlater.settled hsettled

theorem afterStop (hk : KnownSessions ⟨sh, calls⟩) (hc : calls[k]? = some c) {runTask : Option ℕ}
    (hphase : c.phase = .stopping i runTask) (b : SessionBuild) :
    KnownSessions ⟨(c.afterStop sh i runTask b).1, calls.set k (c.afterStop sh i runTask b).2⟩ := by
  have hheld : Held sh.all i runTask := by
    have hholds : c.Holds sh.all := hk.holds c (List.mem_of_getElem? hc)
    unfold SessionCall.Holds at hholds
    rw [hphase] at hholds
    exact hholds
  have htears : ∀ j, c.tearsDown j → j = i := by
    rintro j (⟨r, h⟩ | ⟨r, h⟩) <;> rw [hphase] at h <;> cases h
    rfl
  obtain ⟨x, hx, hx'⟩ := hheld
  unfold SessionCall.afterStop
  cases runTask with
  | none => exact hk.stopped hc htears ⟨x, hx, fun halive => nomatch hx' halive⟩ b
  | some t =>
    dsimp only
    split
    · -- the task is cancelled, and the teardown waits for it
      have hstill : ∀ j, TornDown (calls.set k (c.goto (.joining i t))) j ↔ TornDown calls j := by
        refine fun j => ⟨fun h => ?_, fun h => ?_⟩
        · refine h.of_set.elim id fun htear => ⟨c, List.mem_of_getElem? hc, .inl ⟨some t, ?_⟩⟩
          rcases htear with ⟨r, h⟩ | ⟨r, h⟩
          · cases h
          · rw [hphase, (SessionPhase.joining.inj h).1]
        · refine (h.set hc (c.goto (.joining i t))).elim id fun htear => ?_
          exact tornDown_set_self hc (.inr ⟨t, by rw [htears j htear]; rfl⟩)
      refine ⟨fun a j hj => ⟨(hk.current a j hj).1, fun h => (hk.current a j hj).2 ((hstill j).mp h)⟩,
        fun j y hy => hk.live j y ⟨hy.1, hy.2.1, fun h => hy.2.2 ((hstill j).mpr h)⟩,
        fun d hd => ?_, hk.isolation, hk.marks⟩
      rcases List.mem_or_eq_of_mem_set hd with hd | rfl
      · exact hk.holds d hd
      · exact ⟨x, hx, hx'⟩
    · rename_i hdead
      refine hk.stopped hc htears ⟨x, hx, fun halive => hdead ?_⟩ b
      obtain rfl := Option.some.inj (hx' halive)
      simp [SessionTable.alive, hx, halive]

theorem joined (hk : KnownSessions ⟨sh, calls⟩) (hc : calls[k]? = some c) {runTask : ℕ}
    (hphase : c.phase = .joining i runTask) (hreported : sh.reported runTask) (b : SessionBuild) :
    KnownSessions
      ⟨(c.finish (sh.markStopped i) b).1, calls.set k (c.finish (sh.markStopped i) b).2⟩ := by
  have hheld : Held sh.all i (some runTask) := by
    have hholds : c.Holds sh.all := hk.holds c (List.mem_of_getElem? hc)
    unfold SessionCall.Holds at hholds
    rw [hphase] at hholds
    exact hholds
  obtain ⟨x, hx, hx'⟩ := hheld
  refine hk.stopped hc ?_ ⟨x, hx, fun halive => ?_⟩ b
  · rintro j (⟨r, h⟩ | ⟨r, h⟩) <;> rw [hphase] at h <;> cases h
    rfl
  · obtain rfl := Option.some.inj (hx' halive)
    simp [SessionTable.reported, hx, halive] at hreported

theorem task {sh' : SessionTable} {c' : SessionCall} {b : SessionBuild}
    (hk : KnownSessions ⟨sh, calls⟩) (hc : calls[k]? = some c)
    (hs : SessionCall.step sh k c b = some (sh', c')) : KnownSessions ⟨sh', calls.set k c'⟩ := by
  unfold SessionCall.step at hs
  split at hs
  · rename_i hcreated
    split at hs
    · obtain ⟨rfl, rfl⟩ := Prod.mk.inj (Option.some.inj hs)
      refine hk.finish hc (fun i h => ?_) b
      rcases h with ⟨r, h⟩ | ⟨r, h⟩ <;> rw [hcreated] at h <;> cases h
    · obtain ⟨rfl, rfl⟩ := Prod.mk.inj (Option.some.inj hs)
      exact hk.removeAccount hc hcreated b
  · rename_i hphase
    obtain ⟨rfl, rfl⟩ := Prod.mk.inj (Option.some.inj hs)
    exact hk.afterStop hc hphase b
  · rename_i hphase
    split at hs
    · rename_i hreported
      obtain ⟨rfl, rfl⟩ := Prod.mk.inj (Option.some.inj hs)
      exact hk.joined hc hphase hreported b
    · cases hs
  · cases hs

/-! ## The run tasks -/

theorem runEnds {e : RunEnd} {sh' : SessionTable} (hk : KnownSessions ⟨sh, calls⟩)
    (hs : sh.runEnds i e = some sh') : KnownSessions ⟨sh', calls⟩ := by
  unfold SessionTable.runEnds at hs
  split at hs
  · obtain rfl := Option.some.inj hs
    exact hk.modify i _ (fun _ => rfl) fun _ _ => (by simp)
  · cases hs

/-- The account's entry is dropped while no live task is recorded there. -/
theorem dropEntry (hk : KnownSessions ⟨sh, calls⟩)
    (hdone : ∀ t ∈ sh.nodeRunTasks accountId, sh.alive t = false) :
    KnownSessions
      ⟨{ sh with nodeRunTasks := Function.update sh.nodeRunTasks accountId none }, calls⟩ := by
  refine ⟨fun a j hj => hk.current a j (hj.imp_right fun hj => ?_), fun j y hy => ?_, hk.holds,
    hk.isolation, hk.marks⟩
  · by_cases ha : a = accountId
    · simp [ha] at hj
    · simpa [ha] using hj
  obtain ⟨hrecorded, hcurrent, hrunning⟩ := hk.live j y hy
  have hne : y.accountId ≠ accountId := by
    rintro rfl
    have hnot : sh.alive j = false := hdone j hrecorded
    have halive : sh.alive j = true := by
      have hget : sh.all[j]? = some y := hy.1
      simp [SessionTable.alive, hget, hy.2.1]
    exact Bool.noConfusion (hnot.symm.trans halive)
  exact ⟨by simpa [hne] using hrecorded, hcurrent, hrunning⟩

/-- Crashes are handed to their own sessions. -/
theorem handOver (hk : KnownSessions ⟨sh, calls⟩) {new : List (ℕ × ℕ × String)}
    (hnew : ∀ p ∈ new, p.1 = p.2.1 ∧ Settled sh.all p.1) :
    KnownSessions ⟨{ sh with pendingIsolation := sh.pendingIsolation ++ new }, calls⟩ := by
  refine ⟨hk.current, hk.live, hk.holds, fun p hp => ?_, hk.marks⟩
  rcases List.mem_append.mp hp with hp | hp
  · exact hk.isolation p hp
  · exact hnew p hp

theorem callback {sh' : SessionTable} (hk : KnownSessions ⟨sh, calls⟩)
    (ht : Timely ⟨sh, calls⟩ (.env (.callback i))) (hs : sh.callback i = some sh') :
    KnownSessions ⟨sh', calls⟩ := by
  obtain ⟨x, e, hx, he, rfl⟩ := SessionTable.callback_eq_some hs
  obtain ⟨hentry, hown⟩ := ht x hx
  have hreported : KnownSessions ⟨{ sh with all := sh.all.modify i (.report e) }, calls⟩ :=
    hk.modify i _ (fun _ => rfl) fun _ _ => (by simp [TaskSession.report])
  have hsettled : Settled (sh.all.modify i (.report e)) i := by
    refine ⟨x.report e, ?_, by simp [TaskSession.report]⟩
    rw [List.getElem?_modify, hx]
    simp
  have hdone : ∀ t ∈ sh.nodeRunTasks x.accountId,
      SessionTable.alive { sh with all := sh.all.modify i (.report e) } t = false := by
    intro t ht
    by_contra hlive
    simp only [SessionTable.alive, Bool.not_eq_false, Option.any_eq_true, decide_eq_true_eq] at hlive
    obtain ⟨y, hy, halive⟩ := hlive
    rcases hentry t ht with rfl | hnot
    · obtain ⟨z, hz, hdead⟩ := hsettled
      obtain rfl := Option.some.inj (hz.symm.trans hy)
      exact hdead halive
    · have hy' : sh.all[t]? = some y :=
        getElem?_of_modify (fun _ _ => by simp [TaskSession.report]) hy halive
      simp [SessionTable.alive, hy', halive] at hnot
  refine (hreported.dropEntry hdone).handOver fun p hp => ?_
  cases e with
  | returned | cancelled => cases hp
  | raised repr =>
    simp only [SessionTable.crashIsolation, Option.mem_toList, Option.map_eq_some_iff] at hp
    obtain ⟨j, hj, rfl⟩ := hp
    obtain rfl : j = i := (hown j hj).resolve_right (by simp [TaskSession.crashed, he])
    exact ⟨rfl, hsettled⟩

theorem isolate {sh' : SessionTable} (hk : KnownSessions ⟨sh, calls⟩)
    (hs : sh.isolate = some sh') : KnownSessions ⟨sh', calls⟩ := by
  unfold SessionTable.isolate at hs
  split at hs
  · cases hs
  · rename_i i j error rest hpending
    obtain rfl := Option.some.inj hs
    have hfirst := hk.isolation (i, j, error) (by rw [hpending]; exact List.mem_cons_self)
    obtain rfl : i = j := hfirst.1
    obtain ⟨x, hx, hdead⟩ := hfirst.2
    have hknown := hk.modify i (.markFailed error) (fun _ => rfl) fun y hy => by
      obtain rfl := Option.some.inj (hx.symm.trans hy)
      exact hdead
    refine ⟨hknown.current, hknown.live, hknown.holds, fun p hp => hknown.isolation p ?_,
      fun m hm => ?_⟩
    · show p ∈ sh.pendingIsolation
      rw [hpending]
      exact List.mem_cons_of_mem _ hp
    · rcases List.mem_append.mp hm with hm | hm
      · exact hknown.marks m hm
      · obtain rfl := List.mem_singleton.mp hm
        rfl

/-! ## Every step -/

/-- A new call has touched nothing. -/
theorem spawn (hk : KnownSessions ⟨sh, calls⟩) (a : SessionOp × String) :
    KnownSessions ⟨sh, calls ++ [sessionSystem.init sh a]⟩ := by
  have htorn : ∀ i, TornDown (calls ++ [sessionSystem.init sh a]) i ↔ TornDown calls i := by
    refine fun i => ⟨?_, fun ⟨c, hc, hci⟩ => ⟨c, List.mem_append_left _ hc, hci⟩⟩
    rintro ⟨c, hc, hci⟩
    rcases List.mem_append.mp hc with hc | hc
    · exact ⟨c, hc, hci⟩
    · obtain rfl := List.mem_singleton.mp hc
      rcases hci with ⟨r, h⟩ | ⟨r, h⟩ <;> cases h
  refine ⟨fun a i hi => ⟨(hk.current a i hi).1, fun h => (hk.current a i hi).2 ((htorn i).mp h)⟩,
    fun i x hx => hk.live i x ⟨hx.1, hx.2.1, fun h => hx.2.2 ((htorn i).mpr h)⟩,
    fun c hc => ?_, hk.isolation, hk.marks⟩
  rcases List.mem_append.mp hc with hc | hc
  · exact hk.holds c hc
  · obtain rfl := List.mem_singleton.mp hc
    trivial

theorem step {s t : SessionSystem} {e : SessionEvent} (hk : KnownSessions s) (ht : Timely s e)
    (hs : sessionSystem.step s e = some t) : KnownSessions t := by
  rcases TaskSystem.step_cases hs with ⟨a, rfl, rfl⟩ | ⟨k, b, c, sh, c', rfl, hc, hd, rfl⟩ |
    ⟨d, sh, rfl, hd, rfl⟩
  · exact hk.spawn a
  · exact hk.task hc hd
  · cases d with
    | runEnds i e => exact hk.runEnds hd
    | callback i => exact hk.callback ht hd
    | isolate => exact hk.isolate hd

theorem wellTracked {s : SessionSystem} (hk : KnownSessions s) : WellTracked s where
  one := by
    intro i j x y hx hy haccount
    have hi := (hk.live i x hx).1
    have hj := (hk.live j y hy).1
    rw [haccount] at hi
    exact Option.some.inj (hi.symm.trans hj)
  recorded := fun i x hx => (hk.live i x hx).1
  own := hk.marks

end KnownSessions

/-- **Run tasks are tracked while callbacks are in time**: in every state
reached by any interleaving of the calls with the run tasks, whose
done-callbacks are all `Timely`. -/
theorem wellTracked_of_timely {s : SessionSystem} {es : List SessionEvent}
    (h : RunWhere sessionSystem.step Timely noSessions es s) : WellTracked s :=
  (h.invariant_state KnownSessions knownSessions_init
    fun _ _ _ hk ht hs => hk.step ht hs).wellTracked

/-! ## A callback that is late -/

/-- The first callback that is late loses a live task, or hands a crash to a
session that did not launch the node. -/
theorem late_callback_breaks {s t : SessionSystem} {es : List SessionEvent} {i : ℕ}
    (h : RunWhere sessionSystem.step Timely noSessions es s)
    (hs : sessionSystem.step s (.env (.callback i)) = some t)
    (hlate : ¬ Timely s (.env (.callback i))) :
    ¬ WellTracked t ∨ ∃ p ∈ t.shared.pendingIsolation, p.1 ≠ p.2.1 := by
  have hk : KnownSessions s := h.invariant_state KnownSessions knownSessions_init
    fun _ _ _ hk ht hs => hk.step ht hs
  obtain ⟨sh, calls⟩ := s
  obtain ⟨sh', hc, rfl⟩ := Option.map_eq_some_iff.mp hs
  obtain ⟨x, e, hx, he, rfl⟩ := SessionTable.callback_eq_some hc
  have hcases : (∃ u, sh.nodeRunTasks x.accountId = some u ∧ u ≠ i ∧ sh.alive u = true) ∨
      ∃ j repr, sh.sessions x.accountId = some j ∧ j ≠ i ∧ e = .raised repr := by
    by_contra hnone
    push Not at hnone
    refine hlate fun y hy => ?_
    obtain rfl := Option.some.inj (hx.symm.trans hy)
    refine ⟨fun u hu => ?_, fun j hj => ?_⟩
    · by_cases hui : u = i
      · exact .inl hui
      · exact .inr (Bool.eq_false_of_not_eq_true (hnone.1 u hu hui))
    · by_cases hji : j = i
      · exact .inl hji
      · refine .inr ?_
        cases e with
        | returned | cancelled => simp [TaskSession.crashed, he]
        | raised repr => exact absurd rfl (hnone.2 j repr hj hji)
  rcases hcases with ⟨u, hu, hui, halive⟩ | ⟨j, repr, hj, hji, rfl⟩
  · -- the live task was recorded, and is not any more
    left
    intro htracked
    obtain ⟨⟨y, hy, hya⟩, htorn⟩ := hk.current x.accountId u (.inr hu)
    have hrun : y.nodeRun = .alive := by simpa [SessionTable.alive, hy] using halive
    have hlive : Live ⟨sh.onNodeRunDone i x.accountId e, calls⟩ u y := by
      refine ⟨?_, hrun, htorn⟩
      show (sh.all.modify i (.report e))[u]? = some y
      rw [List.getElem?_modify, hy]
      simp [Ne.symm hui]
    have hrecorded := htracked.recorded u y hlive
    simp [SessionTable.onNodeRunDone, hya] at hrecorded
  · right
    refine ⟨(i, j, repr), ?_, Ne.symm hji⟩
    simp [SessionTable.onNodeRunDone, SessionTable.crashIsolation, hj]

/-! ## Concrete runs -/

instance (s : SessionSystem) : DecidablePred (Timely s)
  | .env (.callback i) =>
    inferInstanceAs (Decidable (∀ x ∈ s.shared.all[i]?,
      (∀ t ∈ s.shared.nodeRunTasks x.accountId, t = i ∨ s.shared.alive t = false) ∧
        ∀ j ∈ s.shared.sessions x.accountId, j = i ∨ x.crashed = false))
  | .env (.runEnds _ _) | .env .isolate | .spawn _ | .task _ _ => .isTrue trivial

instance (s : SessionSystem) (i : ℕ) (x : TaskSession) : Decidable (Live s i x) :=
  inferInstanceAs (Decidable (_ ∧ _ ∧ ¬ _))

/-- An account is added and reloaded, and its second node crashes. -/
def reloadRun : List SessionEvent :=
  [.spawn (.addAccount, "ftmo"), .task 0 .node, .spawn (.reloadAccount, "ftmo"), .task 1 .node,
   .env (.runEnds 0 .returned), .env (.callback 0), .task 1 .node,
   .env (.runEnds 1 (.raised "boom")), .env (.callback 1), .env .isolate]

/-- The crash marks the second session, which launched the node. -/
theorem reloadRun_wellTracked :
    ∃ s, RunWhere sessionSystem.step Timely noSessions reloadRun s ∧
      s.shared.marks = [(1, 1)] ∧ WellTracked s := by
  obtain ⟨s, hrun, hmarks⟩ :=
    RunWhere.exists_of_checked sessionSystem.step Timely noSessions reloadRun
      (fun s => s.shared.marks = [(1, 1)]) (by decide) (by decide)
  exact ⟨s, hrun, of_decide_eq_true hmarks, wellTracked_of_timely hrun⟩

/-- An account is removed, added again while its first node is stopping, and
then the first node crashes. After that it is added once more. -/
def addDuringRemoveRun : List SessionEvent :=
  [.spawn (.addAccount, "ftmo"), .task 0 .node, .spawn (.removeAccount, "ftmo"), .task 1 .node,
   .spawn (.addAccount, "ftmo"), .task 2 .node,
   .env (.runEnds 0 (.raised "boom")), .env (.callback 0), .env .isolate,
   .spawn (.addAccount, "ftmo"), .task 3 .node]

/-- The crash of the first node marks the second session FAILED and drops
its task, so that a third session runs beside it. -/
theorem addDuringRemoveRun_not_wellTracked :
    ∃ s, Run sessionSystem.step noSessions addDuringRemoveRun s ∧
      Live s 1 { accountId := "ftmo", state := .failed, lastError := some "boom", nodeRun := .alive } ∧
      Live s 2 { accountId := "ftmo", state := .running, nodeRun := .alive } ∧
      s.shared.nodeRunTasks "ftmo" ≠ some 1 ∧ (0, 1) ∈ s.shared.marks ∧ ¬ WellTracked s := by
  obtain ⟨s, hrun, hs⟩ := Run.exists_of_exec sessionSystem.step noSessions addDuringRemoveRun
    (fun s =>
      Live s 1 { accountId := "ftmo", state := .failed, lastError := some "boom", nodeRun := .alive } ∧
      Live s 2 { accountId := "ftmo", state := .running, nodeRun := .alive } ∧
      s.shared.nodeRunTasks "ftmo" ≠ some 1 ∧ (0, 1) ∈ s.shared.marks) (by decide)
  obtain ⟨hfirst, hsecond, hentry, hmark⟩ := of_decide_eq_true hs
  refine ⟨s, hrun, hfirst, hsecond, hentry, hmark, fun htracked => ?_⟩
  exact hentry (htracked.recorded 1 _ hfirst)

end TdSandboxed
