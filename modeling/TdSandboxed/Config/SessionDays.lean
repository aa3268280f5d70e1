/-
TdSandboxed.Config.SessionDays — when a trading day starts and ends, by the
clock of its session alone.

A trading day starts when the clock comes to the reset time: when it shows
the time, or has just jumped over it. The start of the present day is the
last such instant, its end the next one (`IsDayStart`, `IsNextReset`).
Every instant has both (`exists_isDayStart`, `exists_isNextReset`).

`config/session_clock.py` computes them where no reset is jumped over or
repeated (`isDayStart_of_clear`, `isNextReset_of_clear`). Elsewhere it may
not: right behind a jump the previous reset that it gives is in the future.
-/
import Mathlib.Data.Int.LeastGreatest
import TdSandboxed.Config.ClockTheorems

namespace TdSandboxed

namespace SessionConfig

variable {zoneInfo : String → Zone} {tables : String → ZoneTable} {session : SessionConfig}
variable {now now' t r : ℤ}

/-- The clock comes to the reset time. -/
def ResetsAt (zoneInfo : String → Zone) (session : SessionConfig) (t : ℤ) : Prop :=
  ∃ w, session.IsReset w ∧
    (session.wallAt zoneInfo t = w ∨
      session.wallAt zoneInfo (t - 1) < w ∧ w < session.wallAt zoneInfo t)

/-- The present trading day started then. -/
def IsDayStart (zoneInfo : String → Zone) (session : SessionConfig) (now t : ℤ) : Prop :=
  IsGreatest { t | session.ResetsAt zoneInfo t ∧ t ≤ now } t

/-- The next trading day starts then. -/
def IsNextReset (zoneInfo : String → Zone) (session : SessionConfig) (now t : ℤ) : Prop :=
  IsLeast { t | session.ResetsAt zoneInfo t ∧ now < t } t

theorem IsDayStart.eq {b b' : ℤ} (h : session.IsDayStart zoneInfo now b)
    (h' : session.IsDayStart zoneInfo now b') : b = b' :=
  IsGreatest.unique h h'

/-- The next reset stays the next one until it comes. -/
theorem IsNextReset.later (h : session.IsNextReset zoneInfo now r) (hle : now ≤ now')
    (hlt : now' < r) : session.IsNextReset zoneInfo now' r := by
  refine ⟨⟨h.1.1, hlt⟩, fun t ht => h.2 ⟨ht.1, ?_⟩⟩
  exact hle.trans_lt ht.2

/-- The next reset is the start of the day once it has come, and until the
one after it. -/
theorem IsNextReset.isDayStart {next : ℤ} (h : session.IsNextReset zoneInfo now r)
    (hnext : session.IsNextReset zoneInfo r next) (hle : r ≤ now') (hlt : now' < next) :
    session.IsDayStart zoneInfo now' r := by
  refine ⟨⟨h.1.1, hle⟩, fun t ht => not_lt.mp fun hrt => ?_⟩
  have := hnext.2 ⟨ht.1, hrt⟩
  have := ht.2
  omega

/-! ## Every instant is in a trading day -/

/-- A clock that is set by `o` comes to the reset time every day. -/
theorem resetsAt_of_offset {o : ℤ} {n : ℤ}
    (h : session.wallAt zoneInfo (n * day + session.resetOfDay - o) = n * day + session.resetOfDay) :
    session.ResetsAt zoneInfo (n * day + session.resetOfDay - o) := by
  have hbounds := session.resetOfDay_bounds
  refine ⟨n * day + session.resetOfDay, ?_, .inl h⟩
  simp only [IsReset, day] at hbounds ⊢
  omega

theorem exists_isDayStart (tables : String → ZoneTable) (session : SessionConfig) (now : ℤ) :
    ∃ b, session.IsDayStart (fun name => (tables name).zone) now b := by
  obtain ⟨o, T, hat⟩ : ∃ o T, ∀ t < T,
      session.wallAt (fun name => (tables name).zone) t = t + o := by
    simp only [wallAt, ZoneTable.zone]
    cases (tables session.timezone).changes with
    | nil => exact ⟨_, 0, fun t _ => rfl⟩
    | cons c rest =>
      refine ⟨(tables session.timezone).initial, c.instant, fun t ht => ?_⟩
      rw [offsetAt_cons, if_pos ht]
  -- a reset long before the first change
  obtain ⟨n, hn⟩ : ∃ n : ℤ, n * day + day - o ≤ min T now :=
    ⟨min 0 (min T now + o) - 1, by simp only [day]; omega⟩
  have hbounds := session.resetOfDay_bounds
  have hreset : session.ResetsAt (fun name => (tables name).zone)
      (n * day + session.resetOfDay - o) :=
    resetsAt_of_offset (by rw [hat _ (by omega), sub_add_cancel])
  obtain ⟨b, hb, hlast⟩ := Int.exists_greatest_of_bdd
    (P := fun t => session.ResetsAt (fun name => (tables name).zone) t ∧ t ≤ now)
    ⟨now, fun t ht => ht.2⟩ ⟨_, hreset, by omega⟩
  exact ⟨b, hb, fun t ht => hlast t ht⟩

theorem exists_isNextReset (tables : String → ZoneTable) (session : SessionConfig) (now : ℤ) :
    ∃ r, session.IsNextReset (fun name => (tables name).zone) now r := by
  obtain ⟨o, T, hat, -⟩ := (tables session.timezone).regular.eventually
  -- a reset far behind the last change
  obtain ⟨n, hn⟩ : ∃ n : ℤ, max T (now + 1) ≤ n * day - o :=
    ⟨max 0 (max T (now + 1) + o), by simp only [day]; omega⟩
  have hbounds := session.resetOfDay_bounds
  have hreset : session.ResetsAt (fun name => (tables name).zone)
      (n * day + session.resetOfDay - o) := by
    refine resetsAt_of_offset ?_
    simp only [wallAt, ZoneTable.zone]
    rw [(hat _ (by omega)).1, sub_add_cancel]
  obtain ⟨r, hr, hfirst⟩ := Int.exists_least_of_bdd
    (P := fun t => session.ResetsAt (fun name => (tables name).zone) t ∧ now < t)
    ⟨now, fun t ht => ht.2.le⟩ ⟨_, hreset, by omega⟩
  exact ⟨r, hr, fun t ht => hfirst t ht⟩

/-! ## Clear resets -/

/-- Where no reset is jumped over or repeated, the clock comes to each reset
time at the one instant that it resolves to. -/
theorem resetsAt_iff (h : session.ClearResets (tables session.timezone)) :
    session.ResetsAt (fun name => (tables name).zone) t ↔
      ∃ w, session.IsReset w ∧ session.resolve (fun name => (tables name).zone) w = t := by
  constructor
  · rintro ⟨w, hw, hshows | ⟨hbefore, hafter⟩⟩
    · subst hshows
      exact ⟨_, hw, resolve_wallAt h hw⟩
    · refine ⟨w, hw, ?_⟩
      have hto := (wallAt_lt_iff h hw).mp hbefore
      have hfrom := (resolve_le_iff h hw).mpr hafter.le
      omega
  · rintro ⟨w, hw, rfl⟩
    refine ⟨w, hw, ?_⟩
    have hto := (resolve_le_iff h hw).mp le_rfl
    have hfrom := (wallAt_lt_iff h hw).mpr (sub_one_lt _)
    obtain heq | hlt := eq_or_lt_of_le hto
    · exact .inl heq.symm
    · exact .inr ⟨hfrom, hlt⟩

/-- **`previous_reset_at` is the start of the day** where resets are clear. -/
theorem isDayStart_of_clear (h : session.ClearResets (tables session.timezone)) (now : ℤ) :
    session.IsDayStart (fun name => (tables name).zone) now
      (session.previousResetAt (fun name => (tables name).zone) now) := by
  obtain ⟨hreset, hpassed, hbefore⟩ :=
    session.lastReset_spec (session.wallAt (fun name => (tables name).zone) now)
  rw [previousResetAt_eq (foldFree_of_clear h now)]
  refine ⟨⟨(resetsAt_iff h).mpr ⟨_, hreset, rfl⟩, (resolve_le_iff h hreset).mpr hpassed⟩, ?_⟩
  rintro t ⟨ht, hle⟩
  obtain ⟨w, hw, rfl⟩ := (resetsAt_iff h).mp ht
  -- a reset that the clock has passed is not a day behind the last one
  refine resolve_mono h hw hreset (not_lt.mp fun hlt => ?_)
  have := (resolve_le_iff h hw).mp hle
  have := hreset.add_day_le hw hlt
  omega

/-- **`next_reset_at` is the start of the next day** where resets are clear. -/
theorem isNextReset_of_clear (h : session.ClearResets (tables session.timezone)) (now : ℤ) :
    session.IsNextReset (fun name => (tables name).zone) now
      (session.nextResetAt (fun name => (tables name).zone) now) := by
  obtain ⟨hreset, hpassed, hbefore⟩ :=
    session.lastReset_spec (session.wallAt (fun name => (tables name).zone) now)
  rw [nextResetAt_eq (foldFree_of_clear h now)]
  refine ⟨⟨(resetsAt_iff h).mpr ⟨_, hreset.add_day, rfl⟩,
    (wallAt_lt_iff h hreset.add_day).mp hbefore⟩, ?_⟩
  rintro t ⟨ht, hlt⟩
  obtain ⟨w, hw, rfl⟩ := (resetsAt_iff h).mp ht
  -- a reset that the clock has yet to come to is a day behind the last one
  refine resolve_mono h hreset.add_day hw (hreset.add_day_le hw (not_le.mp fun hle => ?_))
  have := (wallAt_lt_iff h hw).mpr hlt
  omega

/-- A clock that is never changed jumps over no reset. -/
theorem clearResets_fixed {o : ℤ} (ho : o % second = 0) : session.ClearResets (.fixed o ho) :=
  fun _ _ _ hc => absurd hc List.not_mem_nil

end SessionConfig

end TdSandboxed
