/-
TdSandboxed.Snapshots.SnapshotWindow — which trades a daily snapshot counts
(`snapshots/daily_snapshot_service.py`).

A reset becomes a date, the local date a second before it, and the date
becomes the window of the queries, from the reset of that date to the reset
of the next one. The two agree for a session that resets at midnight: the
window then ends at the reset. For any other reset time the date is that of
the reset itself, and the window begins where it should end.

A day is its number, counted as the wall clock is.
-/
import Mathlib.Algebra.Order.Ring.Int
import TdSandboxed.Config.ClockTheorems
import TdSandboxed.Snapshots.DailySnapshotService

namespace TdSandboxed

namespace DailySnapshotService

open SessionConfig (day second resolve wallAt lastReset)

/-- `_snapshot_date_for_target` -/
def snapshotDateForTarget (zoneInfo : String → Zone) (session : SessionConfig)
    (targetResetUtc : ℤ) : ℤ :=
  ((zoneInfo session.timezone).wall (targetResetUtc - second)).1 / day

/-- `_query_window_for_date` -/
def queryWindowForDate (zoneInfo : String → Zone) (snapshotDate : ℤ) :
    Option SessionConfig → ℤ × ℤ
  | none => (snapshotDate * day, snapshotDate * day + day)
  | some session =>
    let zone := zoneInfo session.timezone
    let startLocal := snapshotDate * day + session.resetOfDay
    let endLocal := (snapshotDate + 1) * day + session.resetOfDay
    (startLocal - zone.utcOffset startLocal false, endLocal - zone.utcOffset endLocal false)

/-- The window of the snapshot that the scheduler takes after an instant. -/
def nextWindow (zoneInfo : String → Zone) (session : SessionConfig) (now : ℤ) : ℤ × ℤ :=
  queryWindowForDate zoneInfo
    (snapshotDateForTarget zoneInfo session (session.nextResetAt zoneInfo now)) (some session)

/-- The windows of the snapshots are the trading days: each ends at its
reset and begins at the one before, so every time is in the window of one
date. -/
structure WindowsAreDays (zoneInfo : String → Zone) (session : SessionConfig) : Prop where
  window : ∀ now, nextWindow zoneInfo session now =
    (session.previousResetAt zoneInfo now, session.nextResetAt zoneInfo now)
  partition : ∀ x, ∃! date,
    (∃ now, date = snapshotDateForTarget zoneInfo session (session.nextResetAt zoneInfo now)) ∧
      (queryWindowForDate zoneInfo date (some session)).1 ≤ x ∧
      x < (queryWindowForDate zoneInfo date (some session)).2

variable {tables : String → ZoneTable} {session : SessionConfig} {now t w : ℤ}

/-! ## Resets at midnight -/

theorem isReset_iff_dvd (hmidnight : session.resetOfDay = 0) : session.IsReset w ↔ day ∣ w := by
  rw [SessionConfig.IsReset, hmidnight]
  exact Int.dvd_iff_emod_eq_zero.symm

/-- At midnight a window is that of two resolved times. -/
theorem queryWindow_eq (zoneInfo : String → Zone) (session : SessionConfig) (date : ℤ) :
    queryWindowForDate zoneInfo date (some session) =
      (session.resolve zoneInfo (date * day + session.resetOfDay),
        session.resolve zoneInfo (date * day + session.resetOfDay + day)) := by
  have hnext : (date + 1) * day + session.resetOfDay = date * day + session.resetOfDay + day := by
    simp only [day]
    omega
  simp only [queryWindowForDate, SessionConfig.resolve, hnext]

theorem date_eq {date wall : ℤ} (hle : date * day ≤ wall) (hlt : wall < date * day + day) :
    wall / day = date := by
  simp only [day] at hle hlt ⊢
  omega

/-- The date of a reset is read off the wall clock one second before. -/
theorem snapshotDate_eq {zoneInfo : String → Zone} {date : ℤ}
    (hwall : session.wallAt zoneInfo (t - second) = w) (hle : date * day ≤ w)
    (hlt : w < date * day + day) : snapshotDateForTarget zoneInfo session t = date := by
  rw [← hwall] at hle hlt
  exact date_eq hle hlt

/-- The day of that date begins at the previous reset. -/
theorem WindowsAreDays.start_eq {zoneInfo : String → Zone} {date : ℤ}
    (h : WindowsAreDays zoneInfo session)
    (hdate : snapshotDateForTarget zoneInfo session (session.nextResetAt zoneInfo now) = date) :
    session.resolve zoneInfo (date * day + session.resetOfDay) =
      session.previousResetAt zoneInfo now := by
  have hwindow := congrArg Prod.fst (h.window now)
  rw [nextWindow, hdate, queryWindow_eq] at hwindow
  exact hwindow

theorem resolve_seconds (tables : String → ZoneTable) (hw : session.IsReset w) :
    session.resolve (fun name => (tables name).zone) w % second = 0 := by
  have hoffset := (tables session.timezone).regular.offsetOfWall_seconds w
  have hbounds := session.resetOfDay_bounds
  unfold SessionConfig.IsReset at hw
  simp only [SessionConfig.resolve, ZoneTable.zone]
  simp only [day, second] at hw hoffset hbounds ⊢
  omega

/-- **Midnight resets that are clear** give each reset the date of the day
that ends there. -/
theorem snapshotDate_of_clear (h : session.ClearResets (tables session.timezone))
    (hmidnight : session.resetOfDay = 0) (now : ℤ) :
    snapshotDateForTarget (fun name => (tables name).zone) session
        (session.nextResetAt (fun name => (tables name).zone) now) * day =
      session.lastReset (session.wallAt (fun name => (tables name).zone) now) := by
  obtain ⟨hreset, hpassed, hbefore⟩ :=
    session.lastReset_spec (session.wallAt (fun name => (tables name).zone) now)
  rw [SessionConfig.nextResetAt_eq (SessionConfig.foldFree_of_clear h now)]
  generalize session.lastReset (session.wallAt (fun name => (tables name).zone) now) = m at *
  obtain ⟨date, rfl⟩ := (isReset_iff_dvd hmidnight).mp hreset
  -- the two resets are different instants, so whole seconds apart
  have hstart := (SessionConfig.resolve_le_iff h hreset).mpr hpassed
  have hend := (SessionConfig.wallAt_lt_iff h hreset.add_day).mp hbefore
  have hstartSeconds := resolve_seconds tables hreset
  have hendSeconds := resolve_seconds tables hreset.add_day
  have hsecond : session.resolve (fun name => (tables name).zone) (day * date) ≤
      session.resolve (fun name => (tables name).zone) (day * date + day) - second := by
    simp only [second] at hstartSeconds hendSeconds ⊢
    omega
  have hfrom := (SessionConfig.resolve_le_iff h hreset).mp hsecond
  have hto := (SessionConfig.wallAt_lt_iff h hreset.add_day).mpr
    (sub_lt_self (session.resolve (fun name => (tables name).zone) (day * date + day))
      (show (0 : ℤ) < second by decide))
  rw [mul_comm day date] at *
  exact congrArg (· * day) (date_eq hfrom hto)

/-- **Clear resets at midnight make the windows the trading days.** -/
theorem windowsAreDays_of_clear (h : session.ClearResets (tables session.timezone))
    (hmidnight : session.resetOfDay = 0) :
    WindowsAreDays (fun name => (tables name).zone) session := by
  have hlawful := SessionConfig.lawful_of_clear h
  have hwindow : ∀ now, nextWindow (fun name => (tables name).zone) session now =
      (session.previousResetAt (fun name => (tables name).zone) now,
        session.nextResetAt (fun name => (tables name).zone) now) := by
    intro now
    have hfree := SessionConfig.foldFree_of_clear h now
    rw [nextWindow, queryWindow_eq, hmidnight, add_zero, snapshotDate_of_clear h hmidnight now,
      SessionConfig.previousResetAt_eq hfree, SessionConfig.nextResetAt_eq hfree]
  refine ⟨hwindow, fun x => ⟨_, ⟨⟨x, rfl⟩, ?_⟩, ?_⟩⟩
  · have hx := hwindow x
    rw [nextWindow] at hx
    rw [hx]
    exact ⟨hlawful.previous_le x, hlawful.lt_next x⟩
  · rintro date ⟨⟨now, rfl⟩, hfrom, hto⟩
    have hnow := hwindow now
    rw [nextWindow] at hnow
    rw [hnow] at hfrom hto
    -- the last reset before `now` is the last one before `x`
    have hfree := SessionConfig.foldFree_of_clear h now
    obtain ⟨hreset, -, -⟩ :=
      session.lastReset_spec (session.wallAt (fun name => (tables name).zone) now)
    rw [SessionConfig.previousResetAt_eq hfree] at hfrom
    rw [SessionConfig.nextResetAt_eq hfree] at hto
    have hpassed := (SessionConfig.resolve_le_iff h hreset).mp hfrom
    have hbefore := (SessionConfig.wallAt_lt_iff h hreset.add_day).mpr hto
    have hsame := SessionConfig.lastReset_eq hreset hpassed hbefore
    rw [SessionConfig.nextResetAt_eq hfree,
      SessionConfig.nextResetAt_eq (SessionConfig.foldFree_of_clear h x), hsame]

/-! ## Other resets -/

/-- **A session that does not reset at midnight** has a window that begins
at the reset that it should end at. -/
theorem midnight_of_windowsAreDays
    (h : WindowsAreDays (fun name => (tables name).zone) session) : session.resetOfDay = 0 := by
  obtain ⟨last, T, hat, hwall⟩ := (tables session.timezone).regular.eventually
  have hbounds := session.resetOfDay_bounds
  by_contra hne
  -- far behind the last change, where the offset is one
  obtain ⟨n, hn⟩ : ∃ n : ℤ, T ≤ n * day ∧ T + last ≤ n * day :=
    ⟨max 0 (max T (T + last)), by simp only [day]; omega, by simp only [day]; omega⟩
  have hday := day_pos
  have hreset : session.IsReset (n * day + session.resetOfDay) := by
    simp only [SessionConfig.IsReset, day] at hbounds ⊢
    omega
  have hsecond : second ≤ session.resetOfDay ∧ second ≤ day := by
    simp only [second, day] at hbounds ⊢
    omega
  have hpos : 0 < second := by decide
  have hresolve : ∀ w, T ≤ w → session.resolve (fun name => (tables name).zone) w = w - last :=
    fun w hw => congrArg (w - ·) (hwall w false hw)
  have hshows : ∀ t, T ≤ t → session.wallAt (fun name => (tables name).zone) t = t + last :=
    fun t ht => congrArg (t + ·) (hat t ht).1
  have hfree : session.FoldFree (fun name => (tables name).zone)
      (n * day + session.resetOfDay - last) := by
    simp only [SessionConfig.FoldFree, ZoneTable.zone,
      (hat (n * day + session.resetOfDay - last) (by omega)).2]
  have hlast : session.lastReset (n * day + session.resetOfDay) = n * day + session.resetOfDay :=
    SessionConfig.lastReset_eq hreset le_rfl (lt_add_of_pos_right _ hday)
  have hnext : session.nextResetAt (fun name => (tables name).zone)
      (n * day + session.resetOfDay - last) = n * day + session.resetOfDay + day - last := by
    rw [SessionConfig.nextResetAt_eq hfree, hshows _ (by omega), sub_add_cancel, hlast,
      hresolve _ (by omega)]
  have hprevious : session.previousResetAt (fun name => (tables name).zone)
      (n * day + session.resetOfDay - last) = n * day + session.resetOfDay - last := by
    rw [SessionConfig.previousResetAt_eq hfree, hshows _ (by omega), sub_add_cancel, hlast,
      hresolve _ (by omega)]
  have hafter : (n + 1) * day = n * day + day := by rw [add_mul, one_mul]
  -- a second before the reset it is already the day of the reset
  have hdate : snapshotDateForTarget (fun name => (tables name).zone) session
      (n * day + session.resetOfDay + day - last) = n + 1 :=
    snapshotDate_eq (hshows (n * day + session.resetOfDay + day - last - second) (by omega))
      (by omega) (by omega)
  have hstart := h.start_eq (hnext ▸ hdate)
  rw [hprevious, hresolve _ (by omega), hafter] at hstart
  omega

/-- **A midnight that is jumped over** gives its reset the date after the
change. -/
theorem not_skips_of_windowsAreDays (h : WindowsAreDays (fun name => (tables name).zone) session)
    {c : ClockChange} (hc : c ∈ (tables session.timezone).changes) (n : ℤ) :
    ¬c.Skips (n * day) := by
  rintro ⟨hafter, hbefore⟩
  have hmidnight := midnight_of_windowsAreDays h
  have hregular := (tables session.timezone).regular
  obtain ⟨hinstant, hbeforeSeconds, hafterSeconds⟩ := hregular.seconds_of_mem hc
  have hshift := hregular.shift_le hc
  have hbounds := c.wall_bounds
  have hday := day_pos
  have hresolve := hregular.skipped hc ⟨hafter, hbefore⟩
  have hreset : session.IsReset (n * day - day) := by
    simp only [SessionConfig.IsReset, hmidnight, day]
    omega
  obtain ⟨hoffset, hfold⟩ := hregular.before_change hc (t := c.instant - 1) (by omega) (by omega)
  have hwall : session.wallAt (fun name => (tables name).zone) (c.instant - 1) =
      c.instant - 1 + c.before := congrArg (c.instant - 1 + ·) hoffset
  have hfree : session.FoldFree (fun name => (tables name).zone) (c.instant - 1) := by
    simp only [SessionConfig.FoldFree, ZoneTable.zone, hfold]
  have hlast : session.lastReset (c.instant - 1 + c.before) = n * day - day :=
    SessionConfig.lastReset_eq hreset (by omega) (by omega)
  have hnext : session.nextResetAt (fun name => (tables name).zone) (c.instant - 1) =
      n * day - c.before := by
    rw [SessionConfig.nextResetAt_eq hfree, hwall, hlast, sub_add_cancel]
    exact congrArg (n * day - ·) hresolve
  -- the reset lies behind the change, and so does the second before it
  have hseconds : c.instant + second ≤ n * day - c.before ∧ second ≤ c.after - c.before := by
    simp only [day, second] at *
    omega
  have hpos : 0 < second := by decide
  have hdate : snapshotDateForTarget (fun name => (tables name).zone) session
      (n * day - c.before) = n := by
    obtain ⟨hbehind, -⟩ := hregular.behind_change hc (t := n * day - c.before - second)
      (by omega) (by omega)
    exact snapshotDate_eq (congrArg (n * day - c.before - second + ·) hbehind) (by omega) (by omega)
  have hstart := h.start_eq (hnext ▸ hdate)
  rw [SessionConfig.previousResetAt_eq hfree, hwall, hlast, hmidnight, add_zero] at hstart
  have hresolved : session.resolve (fun name => (tables name).zone) (n * day) = n * day - c.before :=
    congrArg (n * day - ·) hresolve
  have hbeforeChange : session.resolve (fun name => (tables name).zone) (n * day - day) ≤ c.instant :=
    hregular.resolve_le hc (by omega)
  omega

/-- **A midnight that is repeated** begins two days, and one window. -/
theorem not_repeats_of_windowsAreDays (h : WindowsAreDays (fun name => (tables name).zone) session)
    {c : ClockChange} (hc : c ∈ (tables session.timezone).changes) (n : ℤ) :
    ¬c.Repeats (n * day) := by
  intro hrepeats
  have hmidnight := midnight_of_windowsAreDays h
  have hregular := (tables session.timezone).regular
  have hshift := hregular.shift_le hc
  have hday := day_pos
  obtain ⟨hresolve, hagain, hnextDay⟩ := hregular.repeated hc hrepeats
  obtain ⟨hafter, hbefore⟩ := hrepeats
  obtain ⟨hoffset, hfold⟩ := hregular.behind_change hc (t := n * day - c.after) (by omega) (by omega)
  rw [decide_eq_true (by omega)] at hfold
  have hcandidate : session.candidate (n * day) = n * day := by
    simp only [SessionConfig.candidate_eq, hmidnight, day]
    omega
  have hwall : (tables session.timezone).zone.wall (n * day - c.after) = (n * day, true) := by
    simp only [ZoneTable.zone, hoffset, hfold, sub_add_cancel]
  have hprevious : session.previousResetAt (fun name => (tables name).zone) (n * day - c.after) =
      n * day - c.after := by
    simp only [SessionConfig.previousResetAt, hwall, hcandidate, lt_irrefl, if_false]
    exact congrArg (n * day - ·) hagain
  have hnext : session.nextResetAt (fun name => (tables name).zone) (n * day - c.after) =
      n * day + day - c.after := by
    simp only [SessionConfig.nextResetAt, hwall, hcandidate, le_refl, if_true]
    exact congrArg (n * day + day - ·) hnextDay
  have hpos : 0 < second ∧ second ≤ day := by decide
  have hdate : snapshotDateForTarget (fun name => (tables name).zone) session
      (n * day + day - c.after) = n := by
    obtain ⟨hbehind, -⟩ := hregular.behind_change hc (t := n * day + day - c.after - second)
      (by omega) (by omega)
    exact snapshotDate_eq (congrArg (n * day + day - c.after - second + ·) hbehind) (by omega)
      (by omega)
  have hstart := h.start_eq (hnext ▸ hdate)
  rw [hprevious, hmidnight, add_zero] at hstart
  have hresolved : session.resolve (fun name => (tables name).zone) (n * day) = n * day - c.before :=
    congrArg (n * day - ·) hresolve
  omega

/-- **The windows of the daily snapshots are the trading days exactly when**
the session resets at midnight, and no change of its clock jumps over a
midnight or repeats one. -/
theorem windowsAreDays_iff (tables : String → ZoneTable) (session : SessionConfig) :
    WindowsAreDays (fun name => (tables name).zone) session ↔
      parseResetTime session.resetTime = some (0, 0) ∧
        ∀ c ∈ (tables session.timezone).changes, ∀ w, w % day = 0 → ¬c.Skips w ∧ ¬c.Repeats w := by
  rw [← session.resetOfDay_eq_zero_iff]
  constructor
  · intro h
    refine ⟨midnight_of_windowsAreDays h, fun c hc w hw => ?_⟩
    obtain ⟨n, rfl⟩ := Int.dvd_of_emod_eq_zero hw
    rw [mul_comm]
    exact ⟨not_skips_of_windowsAreDays h hc n, not_repeats_of_windowsAreDays h hc n⟩
  · rintro ⟨hmidnight, hclear⟩
    refine windowsAreDays_of_clear (fun w hw c hc => hclear c hc w ?_) hmidnight
    rw [SessionConfig.IsReset, hmidnight] at hw
    exact hw

/-! ## A session that resets at 17:00 -/

def fiveSession : SessionConfig :=
  { timezone := "UTC", resetTime := "17:00", timezone_ne := utc_ne, resetTime_ok := fivePm_ok }

/-- From midnight UTC on, the next reset is at 17:00 of the day, and its snapshot counts the
trades from then to 17:00 of the day after. -/
theorem fiveSession_window_ahead :
    fiveSession.nextResetAt (fun _ => .utc) 0 = SessionConfig.hours 17 ∧
      nextWindow (fun _ => .utc) fiveSession 0 = (SessionConfig.hours 17, SessionConfig.hours 41) ∧
      fiveSession.previousResetAt (fun _ => .utc) 0 = SessionConfig.hours (-7) := by
  decide +kernel

end DailySnapshotService

end TdSandboxed
