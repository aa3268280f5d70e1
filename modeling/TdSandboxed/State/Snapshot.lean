/-
TdSandboxed.State.Snapshot — the snapshot of an account
(`state/snapshot.py`).

* A position is a dict read back from JSON: any of its fields may be
  missing. A volume is a text; one number has several texts, and positions
  are compared by text in one place and by number in another.
* Numbers in the volumes keep their digits as `decimal.Decimal` does, so
  that 0.1 and 0.10 differ as texts. Texts that are no number, NaN and the
  infinities are left out: reading or comparing them raises.
* The checksum is a parameter: some text computed from the other fields.
-/
import Mathlib.Data.Rat.Defs
import Mathlib.Algebra.Order.Field.Rat

namespace TdSandboxed

/-- A finite `decimal.Decimal`. -/
structure Decimal where
  coefficient : ℤ
  exponent : ℤ
  deriving DecidableEq

def Decimal.value (d : Decimal) : ℚ := d.coefficient * 10 ^ d.exponent

/-- A text that `Decimal` reads. Without a spelling it is the text that
`str` writes for the number, and the spelling is any other. -/
structure NumberText where
  number : Decimal
  spelling : Option String := none
  deriving DecidableEq

/-- `str(number)` -/
def Decimal.str (d : Decimal) : NumberText := { number := d }

/-- A position as a snapshot keeps it. -/
structure PositionDict where
  symbol : Option String := none
  side : Option String := none
  volume : Option NumberText := none
  entryPrice : Option NumberText := none
  entryTime : Option String := none
  orderId : Option String := none
  ticket : Option String := none
  deriving DecidableEq

/-- All fields of a snapshot but the checksum. -/
structure SnapshotContent where
  accountId : String
  /-- Seconds since the epoch. -/
  timestamp : ℚ
  positions : List PositionDict
  pendingOrders : List String := []
  accountBalance : Decimal
  equity : Decimal
  peakBalance : Decimal
  dailyStartingBalance : Decimal
  deriving DecidableEq

structure StateSnapshot extends SnapshotContent where
  checksum : String
  deriving DecidableEq

/-- `compute_checksum`: the SHA-256 of the content's JSON. -/
abbrev Checksum := SnapshotContent → String

namespace StateSnapshot

def validateChecksum (computeChecksum : Checksum) (s : StateSnapshot) : Bool :=
  s.checksum = computeChecksum s.toSnapshotContent

/-- A snapshot with the checksum of its content. -/
def sealed (computeChecksum : Checksum) (c : SnapshotContent) : StateSnapshot :=
  { c with checksum := computeChecksum c }

end StateSnapshot

end TdSandboxed
