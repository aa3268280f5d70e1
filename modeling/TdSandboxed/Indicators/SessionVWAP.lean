/-
TdSandboxed.Indicators.SessionVWAP — the volume-weighted average price of a
session (`indicators/session_vwap.py`).

A session is the local day of a bar, as the strategies tell it. A bar of
another session clears the sums, the value and `initialized`, whether or
not it brings volume; a bar without volume changes nothing else. Floats are
exact rationals.

`history` is the state as a function of the bars, and `after_eq_history`
has it after every sequence: the sums are over the bars with volume in the
last run of one session id.
-/
import TdSandboxed.Lib.Streaming
import TdSandboxed.Strategies.OpeningRange

namespace TdSandboxed

open Lib

structure VWAPBar where
  /-- Nanoseconds. -/
  tsInit : ℤ
  high : ℚ
  low : ℚ
  close : ℚ
  volume : ℚ
  low_nonneg : 0 ≤ low
  low_le : low ≤ close
  le_high : close ≤ high
  volume_nonneg : 0 ≤ volume

namespace VWAPBar

/-- The id of the session of a bar. -/
def sessionId (offset : ℤ → ℤ) (bar : VWAPBar) : ℤ :=
  TdSandboxed.sessionId offset (bar.tsInit / 1000000000)

def typical (bar : VWAPBar) : ℚ := (bar.high + bar.low + bar.close) / 3

/-- Bars are of one session exactly when they start on one local day, from
midnight to midnight. -/
theorem sessionId_eq_iff (offset : ℤ → ℤ) (bar bar' : VWAPBar) :
    bar.sessionId offset = bar'.sessionId offset ↔
      ∃ midnight, midnight % 86400 = 0 ∧
        ∀ b ∈ [bar, bar'], midnight ≤ localTime offset (b.tsInit / 1000000000) ∧
          localTime offset (b.tsInit / 1000000000) < midnight + 86400 := by
  simp only [sessionId, TdSandboxed.sessionId, List.forall_mem_cons, List.not_mem_nil,
    false_implies, implies_true, and_true]
  generalize localTime offset (bar.tsInit / 1000000000) = t
  generalize localTime offset (bar'.tsInit / 1000000000) = t'
  constructor
  · intro hday
    exact ⟨t / 86400 * 86400, by omega, by omega, by omega⟩
  · rintro ⟨midnight, hmidnight, ht, ht'⟩
    omega

end VWAPBar

structure SessionVWAP where
  hasInputs : Bool := false
  initialized : Bool := false
  currentSessionId : Option ℤ := none
  cumPv : ℚ := 0
  cumV : ℚ := 0
  value : Option ℚ := none
  deriving DecidableEq

namespace SessionVWAP

variable {offset : ℤ → ℤ}

def handleBar (offset : ℤ → ℤ) (s : SessionVWAP) (bar : VWAPBar) : SessionVWAP :=
  let s := { s with hasInputs := true }
  let sessionId := bar.sessionId offset
  let s :=
    if some sessionId ≠ s.currentSessionId then
      { s with
        currentSessionId := some sessionId
        cumPv := 0
        cumV := 0
        value := none
        initialized := false }
    else s
  if bar.volume ≤ 0 then s
  else
    let s := { s with
      cumPv := s.cumPv + bar.typical * bar.volume
      cumV := s.cumV + bar.volume }
    { s with value := some (s.cumPv / s.cumV), initialized := true }

/-- The indicator after a sequence of bars. -/
def after (offset : ℤ → ℤ) (bars : List VWAPBar) : SessionVWAP :=
  bars.foldl (handleBar offset) {}

/-! ## The definition -/

/-- The bars with volume of the current session. -/
def traded (offset : ℤ → ℤ) (bars : List VWAPBar) : List VWAPBar :=
  (lastRun (·.sessionId offset) bars).filter fun bar => 0 < bar.volume

/-- The state that bars with these as the traded ones lead to. -/
def history (offset : ℤ → ℤ) (bars : List VWAPBar) : SessionVWAP where
  hasInputs := !bars.isEmpty
  initialized := !(traded offset bars).isEmpty
  currentSessionId := bars.getLast?.map (·.sessionId offset)
  cumPv := ((traded offset bars).map fun bar => bar.typical * bar.volume).sum
  cumV := ((traded offset bars).map VWAPBar.volume).sum
  value :=
    if traded offset bars = [] then none
    else some (weightedMean VWAPBar.typical VWAPBar.volume (traded offset bars))

/-- What the next bar finds of the current session. -/
theorem traded_concat (offset : ℤ → ℤ) (bars : List VWAPBar) (bar : VWAPBar) :
    traded offset (bars ++ [bar]) =
      (if bars.getLast?.map (·.sessionId offset) = some (bar.sessionId offset) then
        traded offset bars else []) ++ if 0 < bar.volume then [bar] else [] := by
  rw [traded, lastRun_concat, List.filter_append]
  congr 1
  · split <;> simp [traded]
  · split <;> simp_all

/-! ## Every sequence -/

/-- **A bar more.** -/
theorem handleBar_history (offset : ℤ → ℤ) (bars : List VWAPBar) (bar : VWAPBar) :
    handleBar offset (history offset bars) bar = history offset (bars ++ [bar]) := by
  have htraded := traded_concat offset bars bar
  by_cases hsession : bars.getLast?.map (·.sessionId offset) = some (bar.sessionId offset)
  · rw [if_pos hsession] at htraded
    by_cases hvolume : 0 < bar.volume
    · rw [if_pos hvolume] at htraded
      simp [handleBar, history, htraded, hsession, hvolume.not_ge, weightedMean]
    · rw [if_neg hvolume, List.append_nil] at htraded
      simp [handleBar, history, htraded, hsession, not_lt.mp hvolume]
  · rw [if_neg hsession, List.nil_append] at htraded
    by_cases hvolume : 0 < bar.volume
    · rw [if_pos hvolume] at htraded
      simp [handleBar, history, htraded, Ne.symm hsession, hvolume.not_ge, weightedMean]
    · rw [if_neg hvolume] at htraded
      simp [handleBar, history, htraded, Ne.symm hsession, not_lt.mp hvolume]

theorem after_eq_history (offset : ℤ → ℤ) (bars : List VWAPBar) :
    after offset bars = history offset bars := by
  induction bars using List.reverseRecOn with
  | nil => rfl
  | append_singleton bars bar ih =>
    rw [← handleBar_history, ← ih, after, List.foldl_concat]
    rfl

theorem volume_pos_of_mem_traded {bars : List VWAPBar} {bar : VWAPBar}
    (h : bar ∈ traded offset bars) : 0 < bar.volume := by
  simpa using (List.mem_filter.mp h).2

theorem low_le_typical (bar : VWAPBar) : bar.low ≤ bar.typical := by
  have := bar.low_le
  have := bar.le_high
  rw [VWAPBar.typical]
  linarith

theorem typical_le_high (bar : VWAPBar) : bar.typical ≤ bar.high := by
  have := bar.low_le
  have := bar.le_high
  rw [VWAPBar.typical]
  linarith

/-- **The session VWAP is what its definition says**, after every sequence
of bars. -/
theorem value_eq_definition (offset : ℤ → ℤ) (bars : List VWAPBar) :
    (traded offset bars = [] →
      (after offset bars).value = none ∧ (after offset bars).initialized = false) ∧
    (traded offset bars ≠ [] →
      (after offset bars).initialized = true ∧
      ∃ v, (after offset bars).value = some v ∧
        v = ((traded offset bars).map fun bar =>
            (bar.high + bar.low + bar.close) / 3 * bar.volume).sum /
          ((traded offset bars).map VWAPBar.volume).sum ∧
        ∀ lo hi, (∀ bar ∈ traded offset bars, lo ≤ bar.low) →
          (∀ bar ∈ traded offset bars, bar.high ≤ hi) → lo ≤ v ∧ v ≤ hi) := by
  rw [after_eq_history]
  constructor
  · intro hnone
    simp [history, hnone]
  · intro htraded
    refine ⟨by simp [history, htraded],
      weightedMean VWAPBar.typical VWAPBar.volume (traded offset bars),
      by simp [history, htraded], rfl, ?_⟩
    intro lo hi hlo hhi
    exact weightedMean_mem_Icc htraded (fun bar => volume_pos_of_mem_traded)
      (fun bar h => (hlo bar h).trans (low_le_typical bar))
      (fun bar h => (typical_le_high bar).trans (hhi bar h))

end SessionVWAP

end TdSandboxed
