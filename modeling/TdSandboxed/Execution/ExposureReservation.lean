/-
TdSandboxed.Execution.ExposureReservation — the per-account counter of
lots in flight (`execution/exposure_reservation.py`, `lua_scripts/`).

The Redis key `account:{id}:reserved_lots` is `none` when absent, which
both scripts read as 0. A script runs atomically, so each is a function
from the raw value to its reply and the new raw value. The TTL only
matters when it expires and is left out. Amounts are order volumes, which
are positive, so the scripts' error replies for missing or negative
arguments have no counterpart.
-/
import Mathlib.Algebra.Order.Ring.Rat
import TdSandboxed.Rules.BaseRule

namespace TdSandboxed

structure ReservationResult where
  accepted : Bool
  newReserved : ℚ
  previousReserved : ℚ
  deriving DecidableEq

/-! ## The scripts -/

/-- What both scripts and `get_reserved` read from the key. -/
def reservedLots (raw : Option ℚ) : ℚ := raw.getD 0

def atomicReserve (raw : Option ℚ) (requested maxTotal : ℚ) : ReservationResult × Option ℚ :=
  let current := reservedLots raw
  let new := current + requested
  if maxTotal < new then ({ accepted := false, newReserved := current, previousReserved := current }, raw)
  else ({ accepted := true, newReserved := new, previousReserved := current }, some new)

/-- The counter never goes below zero, and a zero counter is deleted. -/
def atomicRelease (raw : Option ℚ) (amount : ℚ) : Option ℚ :=
  let new := reservedLots raw - amount
  let new := if new < 0 then 0 else new
  if new = 0 then none else some new

theorem atomicReserve_accepted_iff {raw : Option ℚ} {requested maxTotal : ℚ} :
    (atomicReserve raw requested maxTotal).1.accepted ↔
      reservedLots raw + requested ≤ maxTotal := by
  unfold atomicReserve
  dsimp only
  split
  · rename_i h
    simpa using h
  · rename_i h
    simpa using h

/-- An accepted request adds its lots, a rejected one changes nothing. -/
theorem reservedLots_atomicReserve (raw : Option ℚ) (requested maxTotal : ℚ) :
    reservedLots (atomicReserve raw requested maxTotal).2 =
      reservedLots raw + if (atomicReserve raw requested maxTotal).1.accepted then requested else 0 := by
  unfold atomicReserve
  dsimp only
  split
  · simp
  · simp [reservedLots]

theorem reservedLots_atomicRelease (raw : Option ℚ) (amount : ℚ) :
    reservedLots (atomicRelease raw amount) = max 0 (reservedLots raw - amount) := by
  unfold atomicRelease
  dsimp only
  by_cases hneg : reservedLots raw - amount < 0
  · rw [if_pos hneg, if_pos rfl, max_eq_left hneg.le]
    rfl
  · rw [if_neg hneg, max_eq_right (not_lt.mp hneg)]
    split
    · rename_i h
      rw [h]
      rfl
    · rfl

/-- As long as what is released is on the counter, the floor at zero is
never used. -/
theorem reservedLots_atomicRelease_of_le {raw : Option ℚ} {amount : ℚ}
    (h : amount ≤ reservedLots raw) :
    reservedLots (atomicRelease raw amount) = reservedLots raw - amount := by
  rw [reservedLots_atomicRelease, max_eq_right (sub_nonneg.mpr h)]

/-! ## The client -/

/-- `started` once both scripts are loaded. -/
structure ExposureReservation where
  started : Bool := true

/-- What `reserve` does before its first await. -/
inductive ReserveHead
  | raises (e : PyException)
  | readCounter
  | evalsha

def ExposureReservation.reserveHead (r : ExposureReservation) (requestedLots maxTotalLots : ℚ) :
    ReserveHead :=
  if !r.started then
    .raises (.runtimeError "ExposureReservation.start() must be called before reserve()")
  else if requestedLots < 0 then .raises (.valueError "requested_lots must be non-negative")
  -- already over the limit: rejected without asking Redis to decide
  else if maxTotalLots < 0 then .readCounter
  else .evalsha

end TdSandboxed
