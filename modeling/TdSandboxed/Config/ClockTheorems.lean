/-
TdSandboxed.Config.ClockTheorems — the resets of a session
(`config/session_clock.py`) in a zone whose clock is changed.

Both functions find the last reset time that the wall clock has passed,
and resolve it or the next one (`previousResetAt_eq`, `nextResetAt_eq`).
When no reset time is repeated or jumped over, the wall clock crosses each
at the instant it resolves to, so the two bracket every instant, grow with
it, and have no other reset between them.

A single reset time that is jumped over or repeated breaks this at the
change (`not_lawful_of_skips`, `not_lawful_of_repeats`).
-/
import Mathlib
import TdSandboxed.Config.ZoneTable

namespace TdSandboxed

namespace SessionConfig

variable {zoneInfo : String → Zone} {session : SessionConfig} {table : ZoneTable} {now t w : ℤ}

/-! ## The reset of a day -/

theorem parseResetTime_lt {text : String} {hour minute : ℕ}
    (h : parseResetTime text = some (hour, minute)) : hour < 24 ∧ minute < 60 := by
  unfold parseResetTime at h
  split at h
  · rename_i h₁ h₂ colon m₁ m₂ _
    dsimp only at h
    split at h
    · rename_i hok
      obtain ⟨hdigits, -, hhour, hminute⟩ := hok
      obtain ⟨rfl, rfl⟩ := Prod.mk.inj (Option.some.inj h)
      have hlast : m₂.isDigit = true := by
        simp only [List.all_cons, Bool.and_eq_true] at hdigits
        exact hdigits.2.2.2.1
      have hnine : m₂.toNat ≤ 57 := by
        simp only [Char.isDigit, Bool.and_eq_true, decide_eq_true_eq, UInt32.le_iff_toNat_le] at hlast
        exact hlast.2
      omega
    · cases h
  · cases h

/-- Microseconds from midnight to the reset. -/
def resetOfDay (session : SessionConfig) : ℤ := session.candidate 0

theorem candidate_eq (session : SessionConfig) (wall : ℤ) :
    session.candidate wall = wall - wall % day + session.resetOfDay := by
  simp [resetOfDay, candidate]

theorem resetOfDay_bounds (session : SessionConfig) :
    0 ≤ session.resetOfDay ∧ session.resetOfDay < day ∧ session.resetOfDay % second = 0 := by
  obtain ⟨⟨hour, minute⟩, hparse⟩ := Option.isSome_iff_exists.mp session.resetTime_ok
  have hreset : session.resetOfDay = (hour * 60 + minute) * 60 * 1000000 := by
    simp [resetOfDay, candidate, hparse]
  have hlt := parseResetTime_lt hparse
  simp only [hreset, day, second]
  omega

theorem resetOfDay_eq_zero_iff (session : SessionConfig) :
    session.resetOfDay = 0 ↔ parseResetTime session.resetTime = some (0, 0) := by
  obtain ⟨⟨hour, minute⟩, hparse⟩ := Option.isSome_iff_exists.mp session.resetTime_ok
  have hreset : session.resetOfDay = (hour * 60 + minute) * 60 * 1000000 := by
    simp [resetOfDay, candidate, hparse]
  rw [hreset, hparse, Option.some.injEq, Prod.mk.injEq]
  omega

/-- A wall time at which the clock of the session shows its reset time. -/
def IsReset (session : SessionConfig) (w : ℤ) : Prop := w % day = session.resetOfDay

/-- The last reset time at or before a wall time. -/
def lastReset (session : SessionConfig) (wall : ℤ) : ℤ :=
  if wall < session.candidate wall then session.candidate wall - day else session.candidate wall

theorem lastReset_of_lt {wall : ℤ} (h : wall < session.candidate wall) :
    session.lastReset wall = session.candidate wall - day := if_pos h

theorem lastReset_of_le {wall : ℤ} (h : session.candidate wall ≤ wall) :
    session.lastReset wall = session.candidate wall := if_neg (not_lt.mpr h)

theorem lastReset_spec (session : SessionConfig) (wall : ℤ) :
    session.IsReset (session.lastReset wall) ∧ session.lastReset wall ≤ wall ∧
      wall < session.lastReset wall + day := by
  have hbounds := session.resetOfDay_bounds
  simp only [IsReset, lastReset, candidate_eq]
  by_cases hlt : wall < wall - wall % day + session.resetOfDay
  · rw [if_pos hlt]
    simp only [day] at hbounds hlt ⊢
    omega
  · rw [if_neg hlt]
    simp only [day] at hbounds hlt ⊢
    omega

/-- Two reset times are a day apart. -/
theorem IsReset.add_day_le {w w' : ℤ} (hw : session.IsReset w) (hw' : session.IsReset w')
    (hlt : w < w') : w + day ≤ w' := by
  unfold IsReset at hw hw'
  simp only [day] at hw hw' ⊢
  omega

theorem IsReset.add_day {w : ℤ} (hw : session.IsReset w) : session.IsReset (w + day) := by
  unfold IsReset at hw ⊢
  rw [Int.add_emod_right]
  exact hw

theorem lastReset_eq {wall : ℤ} (hw : session.IsReset w) (hle : w ≤ wall) (hlt : wall < w + day) :
    session.lastReset wall = w := by
  obtain ⟨hreset, hle', hlt'⟩ := session.lastReset_spec wall
  have := day_pos
  by_contra hne
  obtain h | h := lt_or_gt_of_ne hne
  · have := hreset.add_day_le hw h
    omega
  · have := hw.add_day_le hreset h
    omega

theorem abs_candidate_sub (session : SessionConfig) (wall : ℤ) :
    |session.candidate wall - wall| < day := by
  have hbounds := session.resetOfDay_bounds
  rw [candidate_eq, abs_lt]
  simp only [day] at hbounds ⊢
  omega

theorem isReset_candidate (session : SessionConfig) (wall : ℤ) :
    session.IsReset (session.candidate wall) := by
  have hbounds := session.resetOfDay_bounds
  unfold IsReset
  rw [candidate_eq]
  simp only [day] at hbounds ⊢
  omega

/-! ## What the clock functions compute -/

/-- The instant that a wall time of the session's zone resolves to. -/
def resolve (zoneInfo : String → Zone) (session : SessionConfig) (w : ℤ) : ℤ :=
  w - (zoneInfo session.timezone).utcOffset w false

def wallAt (zoneInfo : String → Zone) (session : SessionConfig) (now : ℤ) : ℤ :=
  ((zoneInfo session.timezone).wall now).1

/-- The `fold` of the present makes no difference to the reset of its day. -/
def FoldFree (zoneInfo : String → Zone) (session : SessionConfig) (now : ℤ) : Prop :=
  let zone := zoneInfo session.timezone
  let c := session.candidate (zone.wall now).1
  zone.utcOffset c (zone.wall now).2 = zone.utcOffset c false

theorem previousResetAt_eq (h : session.FoldFree zoneInfo now) :
    session.previousResetAt zoneInfo now =
      session.resolve zoneInfo (session.lastReset (session.wallAt zoneInfo now)) := by
  obtain hlt | hle := lt_or_ge (session.wallAt zoneInfo now)
    (session.candidate (session.wallAt zoneInfo now))
  · rw [lastReset_of_lt hlt]
    exact if_pos hlt
  · rw [lastReset_of_le hle]
    exact (if_neg (not_lt.mpr hle)).trans (congrArg _ h)

theorem nextResetAt_eq (h : session.FoldFree zoneInfo now) :
    session.nextResetAt zoneInfo now =
      session.resolve zoneInfo (session.lastReset (session.wallAt zoneInfo now) + day) := by
  obtain hlt | hle := lt_or_ge (session.wallAt zoneInfo now)
    (session.candidate (session.wallAt zoneInfo now))
  · rw [lastReset_of_lt hlt, sub_add_cancel]
    exact (if_neg (not_le.mpr hlt)).trans (congrArg _ h)
  · rw [lastReset_of_le hle]
    exact if_pos hle

/-! ## The law of the clock -/

/-- The instants at which the wall clock shows the reset time. -/
def ShowsReset (zoneInfo : String → Zone) (session : SessionConfig) (t : ℤ) : Prop :=
  session.IsReset (session.wallAt zoneInfo t)

structure Lawful (zoneInfo : String → Zone) (session : SessionConfig) : Prop where
  previous_le : ∀ now, session.previousResetAt zoneInfo now ≤ now
  lt_next : ∀ now, now < session.nextResetAt zoneInfo now
  monotone_previous : Monotone (session.previousResetAt zoneInfo)
  monotone_next : Monotone (session.nextResetAt zoneInfo)
  between : ∀ now t, session.previousResetAt zoneInfo now < t →
    t < session.nextResetAt zoneInfo now → ¬session.ShowsReset zoneInfo t

/-- No reset time is jumped over, and none is repeated. -/
def ClearResets (session : SessionConfig) (table : ZoneTable) : Prop :=
  ∀ w, session.IsReset w → OffChanges table.changes w

section

variable {tables : String → ZoneTable}

theorem foldFree_of_clear (h : session.ClearResets (tables session.timezone)) (now : ℤ) :
    session.FoldFree (fun name => (tables name).zone) now := by
  simp only [FoldFree, ZoneTable.zone]
  cases hfold : foldAt (tables session.timezone).changes now with
  | false => rfl
  | true =>
    exact (tables session.timezone).regular.fold_eq (h _ (session.isReset_candidate _)) hfold
      (session.abs_candidate_sub _)

/-- **The wall clock crosses each reset time once**, at the instant that it
resolves to. -/
theorem wallAt_lt_iff (h : session.ClearResets (tables session.timezone)) (hw : session.IsReset w) :
    session.wallAt (fun name => (tables name).zone) t < w ↔
      t < session.resolve (fun name => (tables name).zone) w :=
  (tables session.timezone).regular.crossing (h w hw) t

theorem resolve_wallAt (h : session.ClearResets (tables session.timezone))
    (ht : session.ShowsReset (fun name => (tables name).zone) t) :
    session.resolve (fun name => (tables name).zone)
      (session.wallAt (fun name => (tables name).zone) t) = t :=
  (tables session.timezone).regular.resolve (h _ ht)

theorem resolve_le_iff (h : session.ClearResets (tables session.timezone))
    (hw : session.IsReset w) :
    session.resolve (fun name => (tables name).zone) w ≤ t ↔
      w ≤ session.wallAt (fun name => (tables name).zone) t := by
  rw [← not_lt, ← not_lt, wallAt_lt_iff h hw]

theorem resolve_mono (h : session.ClearResets (tables session.timezone)) {w' : ℤ}
    (hw : session.IsReset w) (hw' : session.IsReset w') (hle : w ≤ w') :
    session.resolve (fun name => (tables name).zone) w ≤
      session.resolve (fun name => (tables name).zone) w' :=
  (resolve_le_iff h hw).mpr (hle.trans ((resolve_le_iff h hw').mp le_rfl))

theorem lastReset_mono (h : session.ClearResets (tables session.timezone)) {now' : ℤ}
    (hle : now ≤ now') :
    session.lastReset (session.wallAt (fun name => (tables name).zone) now) ≤
      session.lastReset (session.wallAt (fun name => (tables name).zone) now') := by
  by_contra hlt
  -- then the later instant is before a reset that the earlier one has passed
  obtain ⟨hreset, hpassed, -⟩ :=
    session.lastReset_spec (session.wallAt (fun name => (tables name).zone) now)
  obtain ⟨hreset', -, hbefore⟩ :=
    session.lastReset_spec (session.wallAt (fun name => (tables name).zone) now')
  have hday := hreset'.add_day_le hreset (not_le.mp hlt)
  have hnow := (resolve_le_iff h hreset).mpr hpassed
  have hnow' := (wallAt_lt_iff h hreset).mp (hbefore.trans_le hday)
  omega

/-- **Clear resets make a lawful clock.** -/
theorem lawful_of_clear (h : session.ClearResets (tables session.timezone)) :
    session.Lawful fun name => (tables name).zone := by
  have hprevious := fun now => previousResetAt_eq (foldFree_of_clear h now)
  have hnext := fun now => nextResetAt_eq (foldFree_of_clear h now)
  have hspec := fun now =>
    session.lastReset_spec (session.wallAt (fun name => (tables name).zone) now)
  constructor
  case previous_le =>
    intro now
    rw [hprevious, resolve_le_iff h (hspec now).1]
    exact (hspec now).2.1
  case lt_next =>
    intro now
    rw [hnext, ← wallAt_lt_iff h (hspec now).1.add_day]
    exact (hspec now).2.2
  case monotone_previous =>
    intro now now' hle
    rw [hprevious, hprevious]
    exact resolve_mono h (hspec now).1 (hspec now').1 (lastReset_mono h hle)
  case monotone_next =>
    intro now now' hle
    rw [hnext, hnext]
    refine resolve_mono h (hspec now).1.add_day (hspec now').1.add_day ?_
    have := lastReset_mono h hle
    omega
  case between =>
    intro now t hlt hgt ht
    rw [hprevious] at hlt
    rw [hnext] at hgt
    -- the reset at `t` is the one that `now` has passed last, and that resolves to one instant
    have hpassed := (resolve_le_iff h (hspec now).1).mp hlt.le
    have hbefore := (wallAt_lt_iff h (hspec now).1.add_day).mpr hgt
    have hsame := lastReset_eq ht le_rfl (lt_add_of_pos_right _ day_pos)
    rw [lastReset_eq (hspec now).1 hpassed hbefore] at hsame
    rw [hsame, resolve_wallAt h ht] at hlt
    exact lt_irrefl t hlt

/-- **A reset time that is jumped over** is resolved behind the change, and
right at the change the previous reset lies ahead. -/
theorem not_lawful_of_skips {c : ClockChange} (hc : c ∈ (tables session.timezone).changes)
    (hw : session.IsReset w) (hskips : c.Skips w) :
    ¬session.Lawful fun name => (tables name).zone := by
  intro hlawful
  have hregular := (tables session.timezone).regular
  obtain ⟨hafter, hbefore⟩ := hskips
  have hshift := hregular.shift_le hc
  have hday := day_pos
  obtain ⟨hoffset, hfold⟩ := hregular.behind_change hc le_rfl (by omega)
  have hwall : session.wallAt (fun name => (tables name).zone) c.instant = c.instant + c.after :=
    congrArg (c.instant + ·) hoffset
  have hfree : session.FoldFree (fun name => (tables name).zone) c.instant := by
    simp only [FoldFree, ZoneTable.zone, hfold, decide_eq_false (show ¬c.instant - c.instant <
      c.before - c.after by omega)]
  have hprevious := hlawful.previous_le c.instant
  rw [previousResetAt_eq hfree, hwall, lastReset_eq hw hbefore.le (by omega)] at hprevious
  have hresolve := hregular.skipped hc ⟨hafter, hbefore⟩
  simp only [resolve, ZoneTable.zone, hresolve] at hprevious
  omega

/-- **A reset time that is repeated** comes once more before the next reset. -/
theorem not_lawful_of_repeats {c : ClockChange} (hc : c ∈ (tables session.timezone).changes)
    (hw : session.IsReset w) (hrepeats : c.Repeats w) :
    ¬session.Lawful fun name => (tables name).zone := by
  intro hlawful
  have hregular := (tables session.timezone).regular
  have hshift := hregular.shift_le hc
  have hday := day_pos
  obtain ⟨hresolve, -, hnextDay⟩ := hregular.repeated hc hrepeats
  obtain ⟨hafter, hbefore⟩ := hrepeats
  obtain ⟨hfirst, hfold⟩ := hregular.before_change hc (t := w - c.before) (by omega) (by omega)
  obtain ⟨hsecond, -⟩ := hregular.behind_change hc (t := w - c.after) (by omega) (by omega)
  have hwall : session.wallAt (fun name => (tables name).zone) (w - c.before) = w := by
    simp only [wallAt, ZoneTable.zone, hfirst]
    omega
  have hagain : session.ShowsReset (fun name => (tables name).zone) (w - c.after) := by
    simp only [ShowsReset, wallAt, ZoneTable.zone, hsecond, sub_add_cancel]
    exact hw
  have hfree : session.FoldFree (fun name => (tables name).zone) (w - c.before) := by
    simp only [FoldFree, ZoneTable.zone, hfold]
  have hlast : session.lastReset w = w := lastReset_eq hw le_rfl (lt_add_of_pos_right _ day_pos)
  refine hlawful.between (w - c.before) (w - c.after) ?_ ?_ hagain
  · rw [previousResetAt_eq hfree, hwall, hlast]
    simp only [resolve, ZoneTable.zone, hresolve]
    omega
  · rw [nextResetAt_eq hfree, hwall, hlast]
    simp only [resolve, ZoneTable.zone, hnextDay]
    omega

end

/-- **The clock of a session is lawful exactly when** no change of its zone
jumps over a reset time or repeats one. -/
theorem sessionClock_lawful_iff (tables : String → ZoneTable) (session : SessionConfig) :
    session.Lawful (fun name => (tables name).zone) ↔
      ∀ c ∈ (tables session.timezone).changes, ∀ w, w % day = session.resetOfDay →
        ¬c.Skips w ∧ ¬c.Repeats w := by
  constructor
  · intro hlawful c hc w hw
    exact ⟨fun hskips => not_lawful_of_skips hc hw hskips hlawful,
      fun hrepeats => not_lawful_of_repeats hc hw hrepeats hlawful⟩
  · intro h
    exact lawful_of_clear fun w hw c hc => h c hc w hw

/-! ## New York in 2025 -/

def hours (n : ℤ) : ℤ := n * 60 * 60 * 1000000

/-- The clock of New York in 2025: forward on 9 March at 07:00 UTC, back on
2 November at 06:00 UTC. -/
def newYork2025 : ZoneTable where
  initial := hours (-5)
  changes := [⟨1741503600000000, hours (-5), hours (-4)⟩, ⟨1762063200000000, hours (-4), hours (-5)⟩]
  regular := by decide

theorem newYorkName_ne : "America/New_York" ≠ "" := by decide

theorem halfPastTwo_ok : (parseResetTime "02:30").isSome := by decide +kernel

/-- A session that resets at half past two. -/
def nightSession : SessionConfig :=
  { timezone := "America/New_York", resetTime := "02:30", timezone_ne := newYorkName_ne,
    resetTime_ok := halfPastTwo_ok }

/-- At 07:15 UTC on the day of the change the previous reset is at 07:30 UTC. -/
theorem nightSession_previous_ahead :
    nightSession.previousResetAt (fun _ => newYork2025.zone) 1741504500000000 = 1741505400000000 ∧
      ¬nightSession.previousResetAt (fun _ => newYork2025.zone) 1741504500000000 ≤
        1741504500000000 := by
  decide +kernel

end SessionConfig

end TdSandboxed
