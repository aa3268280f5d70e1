/-
TdSandboxed.Snapshots.SnapshotTheorems — which accounts a tick leaves with
a task.

An account is covered when a task of its session is on time: it sleeps until
the next reset of the session, it is due at the one that has just come, or
it is about to go to sleep until the next one.

A tick leaves the other tasks as they are, so what matters is whether a
session without a task gets one (it does unless a running task has its
name), and whether the task that ticks and the new ones will compute the
next reset: `covered_after_tick_iff`. Where the clock jumps over no reset
and repeats none they will, and a task is on time unless it slept through a
whole trading day: tasks sleep until resets of their session (`Timed`, kept
by every step).
-/
import TdSandboxed.Config.SessionDays
import TdSandboxed.Lib.Run
import TdSandboxed.Snapshots.DailySnapshotService

namespace TdSandboxed

namespace DailySnapshotService

variable {zoneInfo : String → Zone} {s s' s₀ : DailySnapshotService}

/-- The task goes for the next reset of its session, or for the one that has
just come. -/
def OnTime (zoneInfo : String → Zone) (now : ℤ) (t : SchedulerTask) : Prop :=
  match t.phase with
  | .sleeping target =>
    t.session.IsNextReset zoneInfo now target ∨ t.session.IsDayStart zoneInfo now target
  -- the head of the loop computes the reset that it will sleep until
  | .created | .snapshotting _ =>
    t.session.IsNextReset zoneInfo now (t.session.nextResetAt zoneInfo now)
  | .done => False

/-- A running task goes through the account at the next reset of its
session. -/
def CoveredBy (zoneInfo : String → Zone) (s : DailySnapshotService) (a : String)
    (t : SchedulerTask) : Prop :=
  OnTime zoneInfo s.now t ∧ a ∈ s.accountsForSession t.session

/-- Every active account is covered. -/
def Covered (zoneInfo : String → Zone) (s : DailySnapshotService) : Prop :=
  ∀ a ∈ s.active, ∃ t ∈ s.schedulerTasks, CoveredBy zoneInfo s a t

/-- What the tick of a task has to find: for the session of each account a
task on time beside it, or, where the next reset is computed rightly, that
the task itself is of the session, or that no running task has its name. -/
def Provides (zoneInfo : String → Zone) (i : ℕ) (s : DailySnapshotService) : Prop :=
  ∀ a ∈ s.active,
    (∃ j t, j ≠ i ∧ s.schedulerTasks[j]? = some t ∧ t.session = s.resolveSession a ∧
      OnTime zoneInfo s.now t) ∨
    (s.resolveSession a).IsNextReset zoneInfo s.now
        ((s.resolveSession a).nextResetAt zoneInfo s.now) ∧
      ((∃ t, s.schedulerTasks[i]? = some t ∧ t.session = s.resolveSession a) ∨
        (s.resolveSession a).taskName ∉ s.runningNames)

/-- Names tell sessions apart: where the name of an account's session is
that of a running task, a running task has the session. -/
def NamesApart (s : DailySnapshotService) : Prop :=
  ∀ a ∈ s.active, (s.resolveSession a).taskName ∈ s.runningNames →
    ∃ t ∈ s.schedulerTasks, t.phase ≠ .done ∧ t.session = s.resolveSession a

/-- No task has slept through a trading day of its session. -/
def Punctual (zoneInfo : String → Zone) (s : DailySnapshotService) : Prop :=
  ∀ t ∈ s.schedulerTasks, ∀ target, t.phase = .sleeping target →
    s.now < t.session.nextResetAt zoneInfo target

/-- The task sleeps until a reset of its session, if it sleeps. -/
def TimedTask (zoneInfo : String → Zone) (now : ℤ) (t : SchedulerTask) : Prop :=
  ∀ target, t.phase = .sleeping target →
    ∃ since ≤ now, target = t.session.nextResetAt zoneInfo since

def Timed (zoneInfo : String → Zone) (s : DailySnapshotService) : Prop :=
  ∀ t ∈ s.schedulerTasks, TimedTask zoneInfo s.now t

/-! ## Every step keeps the targets -/

theorem TimedTask.mono {now now' : ℤ} {t : SchedulerTask} (h : TimedTask zoneInfo now t)
    (hle : now ≤ now') : TimedTask zoneInfo now' t := by
  intro target ht
  obtain ⟨since, hsince, heq⟩ := h target ht
  exact ⟨since, Int.le_trans hsince hle, heq⟩

theorem timedTask_loopHead (session : SessionConfig) :
    TimedTask zoneInfo s.now { session, phase := s.loopHead zoneInfo session } := by
  intro target h
  unfold loopHead at h
  split at h
  · cases h
    exact ⟨s.now, Int.le_refl _, rfl⟩
  · cases h

theorem timed_setPhase {i : ℕ} {t : SchedulerTask} {p : SchedulerPhase} (h : s.Timed zoneInfo)
    (hp : TimedTask zoneInfo s.now { t with phase := p }) : (s.setPhase i t p).Timed zoneInfo := by
  intro u hu
  rcases List.mem_or_eq_of_mem_set hu with hu | rfl
  · exact h u hu
  · exact hp

theorem timed_append {ts : List SchedulerTask} (h : s.Timed zoneInfo)
    (hts : ∀ t ∈ ts, t.phase = .created) :
    ({ s with schedulerTasks := s.schedulerTasks ++ ts } : DailySnapshotService).Timed zoneInfo := by
  intro t ht
  rcases List.mem_append.mp ht with ht | ht
  · exact h t ht
  · intro target hp
    rw [hts t ht] at hp
    cases hp

theorem startTasks_created : ∀ t ∈ s.startTasks, t.phase = .created := by
  intro t ht
  unfold startTasks at ht
  split at ht
  · obtain rfl := List.mem_singleton.mp ht
    rfl
  · obtain ⟨g, -, rfl⟩ := List.mem_map.mp ht
    rfl

theorem timed_ensureSessionTasks (h : s.Timed zoneInfo) : s.ensureSessionTasks.Timed zoneInfo := by
  refine timed_append h fun t ht => ?_
  obtain ⟨g, -, rfl⟩ := List.mem_map.mp ht
  rfl

/-- **Step.** Tasks sleep until resets of their session. -/
theorem timed_step {e : SnapshotEvent} (h : s.Timed zoneInfo) (hs : s.step zoneInfo e = some s') :
    s'.Timed zoneInfo := by
  cases e with
  | start =>
    simp only [step] at hs
    split at hs
    · exact Option.some.inj hs ▸ h
    · obtain rfl := Option.some.inj hs
      exact timed_append h startTasks_created
  | stop =>
    simp only [step] at hs
    split at hs
    · obtain rfl := Option.some.inj hs
      intro t ht
      cases ht
    · exact Option.some.inj hs ▸ h
  | configure active firmId =>
    obtain rfl := Option.some.inj hs
    exact h
  | elapse d =>
    obtain rfl := Option.some.inj hs
    intro t ht
    have hlater : s.now ≤ s.now + (d : ℤ) := by omega
    exact (h t ht).mono hlater
  | enter i =>
    simp only [step, Option.bind_eq_some_iff] at hs
    obtain ⟨t, -, hs⟩ := hs
    split at hs
    · obtain rfl := Option.some.inj hs
      exact timed_setPhase h (timedTask_loopHead t.session)
    · cases hs
  | wake i =>
    simp only [step, Option.bind_eq_some_iff] at hs
    obtain ⟨t, -, hs⟩ := hs
    split at hs
    · split at hs
      · split at hs
        · obtain rfl := Option.some.inj hs
          exact timed_setPhase (timed_ensureSessionTasks h) fun _ hp => by cases hp
        · obtain rfl := Option.some.inj hs
          exact timed_setPhase h fun _ hp => by cases hp
      · cases hs
    · cases hs
  | finish i =>
    simp only [step, Option.bind_eq_some_iff] at hs
    obtain ⟨t, -, hs⟩ := hs
    split at hs
    · obtain rfl := Option.some.inj hs
      exact timed_setPhase h (timedTask_loopHead t.session)
    · cases hs

/-- **Run.** From a service without tasks, they always do. -/
theorem timed_run {es : List SnapshotEvent} (h0 : s₀.schedulerTasks = [])
    (h : Lib.Run (step zoneInfo) s₀ es s) : s.Timed zoneInfo := by
  refine h.invariant_state (Timed zoneInfo) ?_ fun t e u ht _ hu => timed_step ht hu
  intro t ht
  simp [h0] at ht

/-! ## The tick -/

theorem mem_accountsForSession {a : String} (ha : a ∈ s.active) {session : SessionConfig} :
    a ∈ s.accountsForSession session ↔ s.resolveSession a = session := by
  simp [accountsForSession, ha]

theorem mem_groups {session : SessionConfig} :
    session ∈ s.groupAccountsBySession.map Prod.fst ↔ ∃ a ∈ s.active, s.resolveSession a = session := by
  simp [groupAccountsBySession, List.mem_eraseDups]

/-- What a tick of a running service makes of the tasks. -/
theorem step_wake {i : ℕ} (hs : s.step zoneInfo (.wake i) = some s') (hrun : s.running) :
    ∃ t target, s.schedulerTasks[i]? = some t ∧ t.phase = .sleeping target ∧
      s' = s.ensureSessionTasks.setPhase i t (.snapshotting (s.accountsForSession t.session)) := by
  simp only [step, Option.bind_eq_some_iff] at hs
  obtain ⟨t, ht, hs⟩ := hs
  split at hs
  · rename_i target hphase
    split at hs
    · exact ⟨t, target, ht, hphase, (Option.some.inj hs).symm⟩
    · cases hs
  · cases hs

/-- The tasks after a tick are those before it, the ticking one with its new
phase, and one for each session of an active account whose name no running
task has. -/
theorem exists_task_after_tick {i : ℕ} {t : SchedulerTask} (ht : s.schedulerTasks[i]? = some t)
    (p : SchedulerPhase) (P : SchedulerTask → Prop) :
    (∃ u ∈ (s.ensureSessionTasks.setPhase i t p).schedulerTasks, P u) ↔
      (∃ j u, j ≠ i ∧ s.schedulerTasks[j]? = some u ∧ P u) ∨ P { t with phase := p } ∨
        ∃ a ∈ s.active, (s.resolveSession a).taskName ∉ s.runningNames ∧
          P { session := s.resolveSession a } := by
  have hlt : i < s.schedulerTasks.length := (List.getElem?_eq_some_iff.mp ht).1
  have hset : (s.ensureSessionTasks.setPhase i t p).schedulerTasks =
      s.schedulerTasks.set i { t with phase := p } ++
        (s.groupAccountsBySession.filter fun g => g.1.taskName ∉ s.runningNames).map
          fun g => { session := g.1 } :=
    List.set_append_left _ _ hlt
  rw [hset]
  constructor
  · rintro ⟨u, hu, hP⟩
    obtain hu | hu := List.mem_append.mp hu
    · obtain ⟨j, hj⟩ := List.mem_iff_getElem?.mp hu
      by_cases hij : j = i
      · subst hij
        rw [List.getElem?_set_self hlt] at hj
        exact .inr (.inl (Option.some.inj hj ▸ hP))
      · rw [List.getElem?_set_ne (Ne.symm hij)] at hj
        exact .inl ⟨j, u, hij, hj, hP⟩
    · obtain ⟨g, hg, rfl⟩ := List.mem_map.mp hu
      obtain ⟨hg, hname⟩ := List.mem_filter.mp hg
      obtain ⟨a, ha, hsession⟩ := mem_groups.mp (List.mem_map_of_mem hg)
      refine .inr (.inr ⟨a, ha, ?_, ?_⟩)
      · rw [hsession]
        exact of_decide_eq_true hname
      · rw [hsession]
        exact hP
  · rintro (⟨j, u, hij, hj, hP⟩ | hP | ⟨a, ha, hname, hP⟩)
    · refine ⟨u, List.mem_append_left _ (List.mem_of_getElem? (i := j) ?_), hP⟩
      rw [List.getElem?_set_ne (Ne.symm hij)]
      exact hj
    · exact ⟨_, List.mem_append_left _ (List.mem_set hlt _), hP⟩
    · obtain ⟨g, hg, hsession⟩ := List.mem_map.mp (mem_groups.mpr ⟨a, ha, rfl⟩)
      refine ⟨{ session := g.1 }, List.mem_append_right _ (List.mem_map_of_mem ?_), hsession ▸ hP⟩
      exact List.mem_filter.mpr ⟨hg, decide_eq_true (hsession ▸ hname)⟩

/-- **After a tick every account is covered, exactly when** the tick finds
what it has to. -/
theorem covered_tick_iff {i : ℕ} (hs : s.step zoneInfo (.wake i) = some s') (hrun : s.running) :
    s'.Covered zoneInfo ↔ s.Provides zoneInfo i := by
  obtain ⟨t, target, ht, -, rfl⟩ := step_wake hs hrun
  refine forall₂_congr fun a ha => ?_
  have hmem : ∀ u : SchedulerTask,
      CoveredBy zoneInfo (s.ensureSessionTasks.setPhase i t
          (.snapshotting (s.accountsForSession t.session))) a u ↔
        OnTime zoneInfo s.now u ∧ s.resolveSession a = u.session := fun u =>
    and_congr_right fun _ => mem_accountsForSession ha
  simp only [hmem]
  rw [exists_task_after_tick ht _ fun u => OnTime zoneInfo s.now u ∧ s.resolveSession a = u.session]
  constructor
  · rintro (⟨j, u, hij, hj, hon, hsession⟩ | ⟨hon, hsession⟩ | ⟨b, -, hname, hon, hsession⟩)
    · exact .inl ⟨j, u, hij, hj, hsession.symm, hon⟩
    · exact .inr ⟨hsession ▸ hon, .inl ⟨t, ht, hsession.symm⟩⟩
    · exact .inr ⟨hsession ▸ hon, .inr (hsession ▸ hname)⟩
  · rintro (⟨j, u, hij, hj, hsession, hon⟩ | ⟨hnext, ⟨u, hu, hsession⟩ | hname⟩)
    · exact .inl ⟨j, u, hij, hj, hon, hsession.symm⟩
    · obtain rfl : t = u := Option.some.inj (ht.symm.trans hu)
      exact .inr (.inl ⟨hsession ▸ hnext, hsession.symm⟩)
    · exact .inr (.inr ⟨a, ha, hname, hnext, rfl⟩)

/-! ## Clear resets -/

section

variable {tables : String → ZoneTable}

/-- A running task is on time until it has slept through a day. -/
theorem onTime_of_clear {t : SchedulerTask} (ht : t ∈ s.schedulerTasks)
    (hclear : t.session.ClearResets (tables t.session.timezone))
    (htimed : s.Timed fun name => (tables name).zone)
    (hpunctual : s.Punctual fun name => (tables name).zone) (hnd : t.phase ≠ .done) :
    OnTime (fun name => (tables name).zone) s.now t := by
  unfold OnTime
  split
  case h_1 target hphase =>
    obtain ⟨since, hsince, rfl⟩ := htimed t ht target hphase
    have hnext := SessionConfig.isNextReset_of_clear hclear since
    obtain hle | hlt := le_or_gt (t.session.nextResetAt (fun name => (tables name).zone) since) s.now
    · exact .inr (hnext.isDayStart (SessionConfig.isNextReset_of_clear hclear _) hle
        (hpunctual t ht _ hphase))
    · exact .inl (hnext.later hsince hlt)
  case h_2 => exact SessionConfig.isNextReset_of_clear hclear s.now
  case h_3 => exact SessionConfig.isNextReset_of_clear hclear s.now
  case h_4 hphase => exact hnd hphase

/-- Where the resets are clear, all that matters is that names tell the
sessions apart. -/
theorem provides_iff_namesApart {i : ℕ} {t : SchedulerTask} (ht : s.schedulerTasks[i]? = some t)
    (hclear : ∀ a ∈ s.active,
      (s.resolveSession a).ClearResets (tables (s.resolveSession a).timezone))
    (htimed : s.Timed fun name => (tables name).zone)
    (hpunctual : s.Punctual fun name => (tables name).zone) (hnd : t.phase ≠ .done) :
    s.Provides (fun name => (tables name).zone) i ↔ s.NamesApart := by
  refine forall₂_congr fun a ha => ?_
  constructor
  · rintro (⟨j, u, -, hj, hsession, hon⟩ | ⟨-, ⟨u, hu, hsession⟩ | hnew⟩) hname
    · refine ⟨u, List.mem_of_getElem? hj, fun hdone => ?_, hsession⟩
      simp [OnTime, hdone] at hon
    · obtain rfl : t = u := Option.some.inj (ht.symm.trans hu)
      exact ⟨t, List.mem_of_getElem? ht, hnd, hsession⟩
    · exact absurd hname hnew
  · intro hapart
    by_cases hname : (s.resolveSession a).taskName ∈ s.runningNames
    · obtain ⟨u, hu, hund, hsession⟩ := hapart hname
      obtain ⟨j, hj⟩ := List.mem_iff_getElem?.mp hu
      by_cases hij : j = i
      · subst hij
        exact .inr ⟨SessionConfig.isNextReset_of_clear (hclear a ha) s.now, .inl ⟨u, hj, hsession⟩⟩
      · refine .inl ⟨j, u, hij, hj, hsession, onTime_of_clear hu ?_ htimed hpunctual hund⟩
        exact hsession ▸ hclear a ha
    · exact .inr ⟨SessionConfig.isNextReset_of_clear (hclear a ha) s.now, .inr hname⟩

end

/-- **After a tick every active account is covered, exactly when** the tick
finds what it has to. Where the resets of the accounts' sessions are clear
and no task has slept through a day, that is when the names of the running
tasks tell the sessions apart. This is for every tick of every run, whatever
the accounts were at each step. -/
theorem covered_after_tick_iff {es : List SnapshotEvent} {i : ℕ} (h0 : s₀.schedulerTasks = [])
    (h : Lib.Run (step zoneInfo) s₀ es s) (hrun : s.running)
    (hs : s.step zoneInfo (.wake i) = some s') :
    (s'.Covered zoneInfo ↔ s.Provides zoneInfo i) ∧
    ∀ tables : String → ZoneTable, zoneInfo = (fun name => (tables name).zone) →
      (∀ a ∈ s.active, (s.resolveSession a).ClearResets (tables (s.resolveSession a).timezone)) →
      s.Punctual zoneInfo → (s'.Covered zoneInfo ↔ s.NamesApart) := by
  have hcovered := covered_tick_iff hs hrun
  refine ⟨hcovered, ?_⟩
  rintro tables rfl hclear hpunctual
  obtain ⟨t, target, ht, hphase, -⟩ := step_wake hs hrun
  exact hcovered.trans (provides_iff_namesApart ht hclear (timed_run h0 h) hpunctual (by simp [hphase]))

/-- New York, 17:00. -/
def newYorkClose : SessionConfig :=
  { timezone := "America/New_York", resetTime := "17:00", timezone_ne := SessionConfig.newYorkName_ne
    resetTime_ok := fivePm_ok }

/-- New York, midnight. -/
def newYorkMidnight : SessionConfig :=
  { timezone := "America/New_York", resetTime := "00:00", timezone_ne := SessionConfig.newYorkName_ne
    resetTime_ok := midnight_ok }

/-- Two firms, one that resets at the close and one at midnight. -/
def twoFirms : String → Option SessionConfig := fun firm =>
  if firm = "close" then some newYorkClose else if firm = "midnight" then some newYorkMidnight else none

/-- A service with the accounts of `firmId`, before its start. -/
def serviceOf (active : List String) (firmId : String → Option String) : DailySnapshotService :=
  { active, firmId, firmRegistry := some twoFirms }

/-- The clocks of all zones are at UTC. -/
def utcZones : String → Zone := fun _ => ZoneTable.utc.zone

/-- An account of a new time zone, added between two ticks, is covered
after the next one. -/
theorem covered_after_tick_iff_late :
    ∃ s, Lib.Run (step utcZones) (serviceOf ["a"] fun _ => none)
        [.start, .enter 0, .configure ["a", "b"] fun a => if a = "b" then some "close" else none,
          .elapse 86400000000, .wake 0] s ∧
      s.Covered utcZones := by
  let es : List SnapshotEvent :=
    [.start, .enter 0, .configure ["a", "b"] fun a => if a = "b" then some "close" else none,
      .elapse 86400000000]
  obtain ⟨s, hrun, hs⟩ := Lib.Run.exists_of_exec (step utcZones) (serviceOf ["a"] fun _ => none)
    es (fun s => s.running && (s.step utcZones (.wake 0)).isSome &&
      decide (∀ t ∈ s.schedulerTasks, t.phase = .sleeping 86400000000 ∧
        s.now < t.session.nextResetAt utcZones 86400000000) &&
      decide (∀ a ∈ s.active, (s.resolveSession a).taskName ∈ s.runningNames →
        ∃ t ∈ s.schedulerTasks, t.phase ≠ .done ∧ t.session = s.resolveSession a))
    (by decide +kernel)
  simp only [Bool.and_eq_true, decide_eq_true_eq, Option.isSome_iff_exists] at hs
  obtain ⟨⟨⟨hrunning, s', hwake⟩, hslept⟩, hapart⟩ := hs
  have hpunctual : s.Punctual utcZones := by
    intro t ht target hphase
    obtain ⟨hphase', hlt⟩ := hslept t ht
    obtain rfl : 86400000000 = target := by simpa [hphase'] using hphase
    exact hlt
  refine ⟨s', .snoc hrun trivial hwake, ?_⟩
  exact ((covered_after_tick_iff rfl hrun hrunning hwake).2 (fun _ => .utc) rfl
    (fun _ _ => SessionConfig.clearResets_fixed rfl) hpunctual).mpr hapart

/-- An account with another reset time in the zone of a running task is not
covered after the tick. -/
theorem same_zone_uncovered :
    ∃ s, Lib.Run (step utcZones) (serviceOf ["a"] fun _ => some "close")
        [.start, .enter 0,
          .configure ["a", "b"] fun a => if a = "b" then some "midnight" else some "close",
          .elapse 86400000000, .wake 0] s ∧
      ¬ s.Covered utcZones := by
  refine ⟨_, .of_exec rfl, fun hcovered => ?_⟩
  obtain ⟨t, ht, -, hmem⟩ := hcovered "b" (by decide)
  revert hmem
  revert t
  decide +kernel

end DailySnapshotService

end TdSandboxed
