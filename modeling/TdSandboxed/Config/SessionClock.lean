/-
TdSandboxed.Config.SessionClock — the daily reset of a session
(`config/session_clock.py`, `SessionConfig` of `config/firm_profile.py`).

Instants are microseconds, in UTC or on a wall clock. A time zone says what
its wall clock shows at an instant, with Python's `fold`, and how far the
wall clock is ahead of UTC. Two wall times of one zone are compared as they
stand, and adding a day to one sets its `fold` to 0.
-/
import Mathlib.Data.Int.Notation
import Mathlib.Data.Nat.Notation

namespace TdSandboxed

inductive ResetAnchor
  | midnight
  | marketClose
  deriving DecidableEq, Repr

/-- `_TIME_RE` and `_parse_reset_time`: hour and minute of an `HH:MM`. -/
def parseResetTime (resetTime : String) : Option (ℕ × ℕ) :=
  match resetTime.toList with
  | [h₁, h₂, colon, m₁, m₂] =>
    let digit (c : Char) : ℕ := c.toNat - 48
    if [h₁, h₂, m₁, m₂].all Char.isDigit ∧ colon.toNat = 58 ∧
        10 * digit h₁ + digit h₂ < 24 ∧ digit m₁ < 6 then
      some (10 * digit h₁ + digit h₂, 10 * digit m₁ + digit m₂)
    else none
  | _ => none

/-- When a trading day starts, by the wall clock of a zone. -/
structure SessionConfig where
  timezone : String
  resetTime : String
  resetAnchor : ResetAnchor := .midnight
  timezone_ne : timezone ≠ ""
  resetTime_ok : (parseResetTime resetTime).isSome

instance : DecidableEq SessionConfig := fun a b =>
  decidable_of_iff (a.timezone = b.timezone ∧ a.resetTime = b.resetTime ∧
      a.resetAnchor = b.resetAnchor) <| by
    cases a
    cases b
    simp only [SessionConfig.mk.injEq]

theorem utc_ne : "UTC" ≠ "" := by decide

theorem midnight_ok : (parseResetTime "00:00").isSome := by decide +kernel

theorem fivePm_ok : (parseResetTime "17:00").isSome := by decide +kernel

/-- `_DEFAULT_SESSION` -/
def defaultSession : SessionConfig :=
  { timezone := "UTC", resetTime := "00:00", timezone_ne := utc_ne, resetTime_ok := midnight_ok }

/-- What `ZoneInfo` knows of a zone. -/
structure Zone where
  /-- The wall time at an instant, and its `fold`. -/
  wall : ℤ → ℤ × Bool
  utcOffset : ℤ → Bool → ℤ

/-- A zone without an offset. -/
def Zone.utc : Zone := { wall := fun t => (t, false), utcOffset := fun _ _ => 0 }

namespace SessionConfig

def day : ℤ := 24 * 60 * 60 * 1000000

/-- The reset on the day of a wall time. -/
def candidate (session : SessionConfig) (wall : ℤ) : ℤ :=
  let (hour, minute) := (parseResetTime session.resetTime).get session.resetTime_ok
  wall - wall % day + (hour * 60 + minute) * 60 * 1000000

/-- `next_reset_at` -/
def nextResetAt (zoneInfo : String → Zone) (session : SessionConfig) (now : ℤ) : ℤ :=
  let zone := zoneInfo session.timezone
  let (wall, fold) := zone.wall now
  let c := session.candidate wall
  if c ≤ wall then (c + day) - zone.utcOffset (c + day) false else c - zone.utcOffset c fold

/-- `previous_reset_at` -/
def previousResetAt (zoneInfo : String → Zone) (session : SessionConfig) (now : ℤ) : ℤ :=
  let zone := zoneInfo session.timezone
  let (wall, fold) := zone.wall now
  let c := session.candidate wall
  if wall < c then (c - day) - zone.utcOffset (c - day) false else c - zone.utcOffset c fold

end SessionConfig

end TdSandboxed
