/-
TdSandboxed.Lib.CacheAside — a store that is filled on a miss.

A visit asks for a key at a moment. Its `value` is what the source holds
then, and what a miss puts into the store; a visit that bypasses the store
reads the source and overwrites the entry.

The store has a closed form in the visits so far (`filled_eq_written`): a
key holds what its last bypassing visit found, or else its first visit. So
a visit answers right exactly when the source holds that value again
(`answer_eq_iff`), and a key whose visits find one value holds no other
(`written_of_keyed`).
-/
import Mathlib.Data.List.Induction
import Mathlib.Logic.Function.Basic

namespace TdSandboxed.Lib

structure Visit (κ ν : Type*) where
  key : κ
  bypass : Bool
  value : ν

namespace Visit

variable {κ ν : Type*} [DecidableEq κ]

/-- What the visit returns. -/
def answer (store : κ → Option ν) (v : Visit κ ν) : ν :=
  if v.bypass then v.value else (store v.key).getD v.value

/-- The store after the visit. -/
def fill (store : κ → Option ν) (v : Visit κ ν) : κ → Option ν :=
  if v.bypass ∨ store v.key = none then Function.update store v.key (some v.value) else store

/-- The store after a list of visits, from an empty one. -/
def filled (visits : List (Visit κ ν)) : κ → Option ν := visits.foldl fill fun _ => none

def lastBypass (visits : List (Visit κ ν)) (key : κ) : Option (Visit κ ν) :=
  (visits.filter fun v => v.key = key ∧ v.bypass).getLast?

def firstVisit (visits : List (Visit κ ν)) (key : κ) : Option (Visit κ ν) :=
  visits.find? fun v => v.key = key

/-- What was last put under a key. -/
def written (visits : List (Visit κ ν)) (key : κ) : Option ν :=
  ((lastBypass visits key).or (firstVisit visits key)).map value

section
variable {visits : List (Visit κ ν)} {v : Visit κ ν} {key : κ}

theorem written_concat_of_ne (h : v.key ≠ key) :
    written (visits ++ [v]) key = written visits key := by
  simp [written, lastBypass, firstVisit, List.filter_append, List.find?_append, h]

theorem written_concat_of_bypass (h : v.bypass = true) :
    written (visits ++ [v]) v.key = some v.value := by
  simp [written, lastBypass, List.filter_append, h]

theorem written_concat_of_not_bypass (h : v.bypass = false) :
    written (visits ++ [v]) v.key = (written visits v.key).or (some v.value) := by
  have hlast : lastBypass (visits ++ [v]) v.key = lastBypass visits v.key := by
    simp [lastBypass, List.filter_append, h]
  have hfirst : firstVisit (visits ++ [v]) v.key = (firstVisit visits v.key).or (some v) := by
    simp [firstVisit, List.find?_append]
  rw [written, hlast, hfirst, written]
  cases lastBypass visits v.key <;> cases firstVisit visits v.key <;> rfl

theorem fill_of_ne (store : κ → Option ν) (h : v.key ≠ key) : fill store v key = store key := by
  unfold fill
  split
  · exact Function.update_of_ne h.symm _ _
  · rfl

theorem fill_self (store : κ → Option ν) (v : Visit κ ν) :
    fill store v v.key = if v.bypass then some v.value else (store v.key).or (some v.value) := by
  unfold fill
  cases hb : v.bypass with
  | true => simp
  | false =>
    cases hs : store v.key with
    | none => simp
    | some x => simp [hs]

theorem filled_concat (visits : List (Visit κ ν)) (v : Visit κ ν) :
    filled (visits ++ [v]) = fill (filled visits) v := by
  simp [filled]

/-- **The store holds what was last written.** -/
theorem filled_eq_written (visits : List (Visit κ ν)) (key : κ) :
    filled visits key = written visits key := by
  induction visits using List.reverseRecOn with
  | nil => rfl
  | append_singleton visits v ih =>
    rw [filled_concat]
    by_cases h : v.key = key
    · subst h
      rw [fill_self, ih]
      cases hb : v.bypass with
      | true => exact (written_concat_of_bypass hb).symm
      | false => exact (written_concat_of_not_bypass hb).symm
    · rw [fill_of_ne _ h, ih, written_concat_of_ne h]

/-- **A visit answers right exactly when it bypasses the store or the source
holds what was written.** -/
theorem answer_eq_iff (visits : List (Visit κ ν)) (v : Visit κ ν) :
    v.answer (filled visits) = v.value ↔
      v.bypass = true ∨ ∀ x ∈ written visits v.key, x = v.value := by
  unfold answer
  rw [filled_eq_written]
  cases hb : v.bypass with
  | true => simp
  | false =>
    cases written visits v.key with
    | none => simp
    | some x => simp

theorem exists_of_written {x : ν} (h : written visits key = some x) :
    ∃ w ∈ visits, w.key = key ∧ w.value = x := by
  obtain ⟨w, hw, rfl⟩ := Option.map_eq_some_iff.mp h
  cases Option.or_eq_some_iff.mp hw with
  | inl hlast =>
    have hmem := List.mem_filter.mp (List.mem_of_getLast? hlast)
    exact ⟨w, hmem.1, (of_decide_eq_true hmem.2).1, rfl⟩
  | inr hfirst =>
    have hkey := List.find?_some hfirst.2
    exact ⟨w, List.mem_of_find?_eq_some hfirst.2, of_decide_eq_true hkey, rfl⟩

/-- Where visits of one key find one value, nothing else was written. -/
theorem written_of_keyed {value : ν} (h : ∀ w ∈ visits, w.key = key → w.value = value) :
    ∀ x ∈ written visits key, x = value := by
  intro x hx
  obtain ⟨w, hw, hkey, hvalue⟩ := exists_of_written hx
  exact hvalue ▸ h w hw hkey

end

end Visit

end TdSandboxed.Lib
