/-
TdSandboxed.State.SnapshotCodec — a snapshot as a Redis hash, and back
(`state/snapshot.py`, `RedisStateManager.get_snapshot`).

`Snapshot` leaves the texts out; here every field is what Python holds. A
decimal keeps its digits, the positions are any JSON value, and the hash is
any texts under any names.

`from_dict` reads the fields in turn, and the first that is missing or
refused ends it with the exception of its reader. `get_snapshot` catches
`KeyError` and `ValueError`. Neither `decimal.InvalidOperation` nor
`RecursionError` is one, so a hash is lost on it whose first bad field
raises either.

Datetimes, Unicode, the digest and the depth that the interpreter allows
are left to a `StdLib`.
-/
import TdSandboxed.Backtesting.ManifestTheorems
import TdSandboxed.Lib.DecimalText
import TdSandboxed.Lib.PyRoundTrip

namespace TdSandboxed.SnapshotCodec

open Lib
open Dataset (UtcDatetime)

/-- What the codec uses of Python. -/
structure StdLib where
  Datetime : Type
  utc : UtcDatetime → Datetime
  isoformat : Datetime → List Char
  isoformat_utc : ∀ d, isoformat (utc d) = d.isoformat
  /-- `none` is a `ValueError`. -/
  fromisoformat : List Char → Option Datetime
  fromisoformat_isoformat : ∀ d : UtcDatetime, fromisoformat d.isoformat = some (utc d)
  unicode : UnicodeData
  /-- How deep `json.loads` may recurse. -/
  depth : ℕ
  /-- `hashlib.sha256(_.encode()).hexdigest()` -/
  hexdigest : List Char → List Char

structure StateSnapshot (lib : StdLib) where
  accountId : List Char
  timestamp : lib.Datetime
  positions : PyObject
  pendingOrders : PyObject
  accountBalance : PyDecimal
  equity : PyDecimal
  peakBalance : PyDecimal
  dailyStartingBalance : PyDecimal
  checksum : List Char

/-- A hash of Redis. -/
abbrev Hash := List (String × List Char)

inductive PyError
  | keyError
  | valueError
  | recursionError
  | invalidOperation
  deriving DecidableEq

/-- `except (KeyError, ValueError, json.JSONDecodeError)` -/
def PyError.caught : PyError → Bool
  | .keyError | .valueError => true
  | .recursionError | .invalidOperation => false

namespace StateSnapshot

variable {lib : StdLib}

/-- All fields but the checksum. -/
def content (s : StateSnapshot lib) : Hash :=
  [("account_id", s.accountId), ("timestamp", lib.isoformat s.timestamp),
    ("positions", s.positions.dumps), ("pending_orders", s.pendingOrders.dumps),
    ("account_balance", s.accountBalance.str), ("equity", s.equity.str),
    ("peak_balance", s.peakBalance.str),
    ("daily_starting_balance", s.dailyStartingBalance.str)]

/-- `to_dict` -/
def toDict (s : StateSnapshot lib) : Hash := s.content ++ [("checksum", s.checksum)]

/-- `compute_checksum` -/
def computeChecksum (s : StateSnapshot lib) : List Char :=
  lib.hexdigest (PyObject.dict (s.content.map fun p => (p.1.toList, .str p.2))).dumps

/-- `validate_checksum` -/
def validateChecksum (s : StateSnapshot lib) : Bool := s.checksum = s.computeChecksum

/-- `snapshot.checksum = snapshot.compute_checksum()` -/
def sealed (s : StateSnapshot lib) : StateSnapshot lib := { s with checksum := s.computeChecksum }

/-- The snapshot with the keys of its dicts in order. -/
def inOrder (s : StateSnapshot lib) : StateSnapshot lib :=
  { s with positions := s.positions.sortKeys, pendingOrders := s.pendingOrders.sortKeys }

/-- `==`: the order of a dict's keys does not count. -/
def Same (s t : StateSnapshot lib) : Prop := s.inOrder = t.inOrder

/-- The snapshots that the program builds: taken at a time in UTC, and of
values that `json` can write and nests no deeper than it reads. -/
structure Buildable (s : StateSnapshot lib) : Prop where
  timestamp : ∃ d, s.timestamp = lib.utc d
  positions : s.positions.Fits lib.depth
  pendingOrders : s.pendingOrders.Fits lib.depth

end StateSnapshot

/-! ## Reading a hash -/

section
variable (lib : StdLib) (data : Hash)

/-- `data[name]` -/
def item (name : String) : Except PyError (List Char) :=
  match data.lookup name with
  | some text => .ok text
  | none => .error .keyError

def readTimestamp (text : List Char) : Except PyError lib.Datetime :=
  match lib.fromisoformat text with
  | some t => .ok t
  | none => .error .valueError

def readJson (text : List Char) : Except PyError PyObject :=
  match PyObject.loads lib.depth text with
  | .ok v => .ok v
  | .error .valueError => .error .valueError
  | .error .recursionError => .error .recursionError

def readDecimal (text : List Char) : Except PyError PyDecimal :=
  match PyDecimal.read lib.unicode text with
  | some d => .ok d
  | none => .error .invalidOperation

/-- `from_dict` -/
def fromDict : Except PyError (StateSnapshot lib) := do
  let accountId ← item data "account_id"
  let timestamp ← (item data "timestamp") >>= readTimestamp lib
  let positions ← (item data "positions") >>= readJson lib
  let pendingOrders ← (item data "pending_orders") >>= readJson lib
  let accountBalance ← (item data "account_balance") >>= readDecimal lib
  let equity ← (item data "equity") >>= readDecimal lib
  let peakBalance ← (item data "peak_balance") >>= readDecimal lib
  let dailyStartingBalance ← (item data "daily_starting_balance") >>= readDecimal lib
  let checksum ← item data "checksum"
  .ok { accountId, timestamp, positions, pendingOrders, accountBalance, equity, peakBalance,
        dailyStartingBalance, checksum }

/-- `get_snapshot`, for what `hgetall` returned. -/
def getSnapshot : Except PyError (Option (StateSnapshot lib)) :=
  if data = [] then .ok none
  else
    match fromDict lib data with
    | .ok s => .ok (some s)
    | .error e => if e.caught then .ok none else .error e

end

/-! ## Which field fails first -/

inductive Field
  | accountId
  | timestamp
  | positions
  | pendingOrders
  | accountBalance
  | equity
  | peakBalance
  | dailyStartingBalance
  | checksum
  deriving DecidableEq

namespace Field

def name : Field → String
  | .accountId => "account_id"
  | .timestamp => "timestamp"
  | .positions => "positions"
  | .pendingOrders => "pending_orders"
  | .accountBalance => "account_balance"
  | .equity => "equity"
  | .peakBalance => "peak_balance"
  | .dailyStartingBalance => "daily_starting_balance"
  | .checksum => "checksum"

/-- The fields, in the order in which they are read. -/
def all : List Field :=
  [.accountId, .timestamp, .positions, .pendingOrders, .accountBalance, .equity, .peakBalance,
    .dailyStartingBalance, .checksum]

/-- The exception that a text raises in a field. -/
def refusal (lib : StdLib) (text : List Char) : Field → Option PyError
  | .accountId | .checksum => none
  | .timestamp => if lib.fromisoformat text = none then some .valueError else none
  | .positions | .pendingOrders =>
    match PyObject.loads lib.depth text with
    | .ok _ => none
    | .error .valueError => some .valueError
    | .error .recursionError => some .recursionError
  | .accountBalance | .equity | .peakBalance | .dailyStartingBalance =>
    if PyDecimal.read lib.unicode text = none then some .invalidOperation else none

/-- The exception of a field, which may be missing. -/
def failure (lib : StdLib) (data : Hash) (f : Field) : Option PyError :=
  match data.lookup f.name with
  | none => some .keyError
  | some text => f.refusal lib text

end Field

/-- A field that fails with an exception beyond the catch comes after one
that fails within it. -/
def FailsCaught (lib : StdLib) (data : Hash) : Prop :=
  data = [] ∨ ∀ before f after, Field.all = before ++ f :: after →
    ∀ e, f.failure lib data = some e → e.caught = false →
      ∃ g ∈ before, ∃ e', g.failure lib data = some e' ∧ e'.caught = true

/-- What reading a hash should do: give a snapshot or none, and no snapshot
whose checksum is wrong without `validate_checksum` telling. -/
structure Answers (lib : StdLib) (data : Hash) : Prop where
  returns : ∃ answer, getSnapshot lib data = .ok answer
  detected : ∀ s, getSnapshot lib data = .ok (some s) → s.checksum ≠ s.computeChecksum →
    s.validateChecksum = false

/-! ## Errors -/

/-- The exception of a computation. -/
def errorOf {α : Type} : Except PyError α → Option PyError
  | .ok _ => none
  | .error e => some e

/-- The first exception of two steps. -/
theorem errorOf_bind {α β : Type} {x : Except PyError α} {k : α → Except PyError β}
    {first rest : Option PyError} (hx : errorOf x = first)
    (hk : ∀ a, errorOf (k a) = rest) : errorOf (x >>= k) = first.or rest := by
  subst hx
  cases x with
  | error e => rfl
  | ok a => exact hk a

variable {lib : StdLib} {data : Hash}

theorem errorOf_item (f : Field) (hf : ∀ text, f.refusal lib text = none) :
    errorOf (item data f.name) = f.failure lib data := by
  rw [item, Field.failure]
  cases data.lookup f.name with
  | none => rfl
  | some text => exact (hf text).symm

theorem errorOf_read {α : Type} (f : Field) (read : List Char → Except PyError α)
    (hread : ∀ text, errorOf (read text) = f.refusal lib text) :
    errorOf ((item data f.name) >>= read) = f.failure lib data := by
  rw [item, Field.failure]
  cases data.lookup f.name with
  | none => rfl
  | some text => exact hread text

theorem errorOf_readTimestamp (text : List Char) :
    errorOf (readTimestamp lib text) = Field.timestamp.refusal lib text := by
  rw [readTimestamp, Field.refusal]
  cases lib.fromisoformat text <;> rfl

theorem errorOf_readJson (text : List Char) :
    errorOf (readJson lib text) = Field.positions.refusal lib text := by
  rw [readJson, Field.refusal]
  cases PyObject.loads lib.depth text with
  | ok v => rfl
  | error e => cases e <;> rfl

theorem errorOf_readDecimal (text : List Char) :
    errorOf (readDecimal lib text) = Field.equity.refusal lib text := by
  rw [readDecimal, Field.refusal]
  cases PyDecimal.read lib.unicode text <;> rfl

/-- **`from_dict` raises what the first bad field raises.** -/
theorem errorOf_fromDict :
    errorOf (fromDict lib data) = Field.all.findSome? (Field.failure lib data) := by
  have hsteps : errorOf (fromDict lib data) =
      ((Field.accountId.failure lib data).or ((Field.timestamp.failure lib data).or
        ((Field.positions.failure lib data).or ((Field.pendingOrders.failure lib data).or
          ((Field.accountBalance.failure lib data).or ((Field.equity.failure lib data).or
            ((Field.peakBalance.failure lib data).or
              ((Field.dailyStartingBalance.failure lib data).or
                ((Field.checksum.failure lib data).or none))))))))) := by
    unfold fromDict
    refine errorOf_bind (errorOf_item .accountId fun _ => rfl) fun _ => ?_
    refine errorOf_bind (errorOf_read .timestamp _ errorOf_readTimestamp) fun _ => ?_
    refine errorOf_bind (errorOf_read .positions _ errorOf_readJson) fun _ => ?_
    refine errorOf_bind (errorOf_read .pendingOrders _ errorOf_readJson) fun _ => ?_
    refine errorOf_bind (errorOf_read .accountBalance _ errorOf_readDecimal) fun _ => ?_
    refine errorOf_bind (errorOf_read .equity _ errorOf_readDecimal) fun _ => ?_
    refine errorOf_bind (errorOf_read .peakBalance _ errorOf_readDecimal) fun _ => ?_
    refine errorOf_bind (errorOf_read .dailyStartingBalance _ errorOf_readDecimal) fun _ => ?_
    exact errorOf_bind (errorOf_item .checksum fun _ => rfl) fun _ => rfl
  have hor : ∀ f fs, (f :: fs).findSome? (Field.failure lib data) =
      (f.failure lib data).or (fs.findSome? (Field.failure lib data)) := by
    intro f fs
    rw [List.findSome?_cons]
    cases f.failure lib data <;> rfl
  rw [hsteps, Field.all]
  simp only [hor, List.findSome?_nil]

/-- `get_snapshot` answers unless the exception is one beyond the catch. -/
theorem getSnapshot_returns_iff :
    (∃ answer, getSnapshot lib data = .ok answer) ↔
      data = [] ∨ ∀ e, errorOf (fromDict lib data) = some e → e.caught = true := by
  rw [getSnapshot]
  by_cases hdata : data = []
  · simp [hdata]
  · rw [if_neg hdata]
    simp only [hdata, false_or]
    cases fromDict lib data with
    | ok s => simp [errorOf]
    | error e => cases hcaught : e.caught <;> simp [errorOf, hcaught]

/-- The first hit of a search passes a test exactly when every hit that does
not comes after one that does. -/
theorem findSome_passes_iff {α ε : Type} (l : List α) (f : α → Option ε) (p : ε → Bool) :
    (∀ e, l.findSome? f = some e → p e = true) ↔
      ∀ before a after, l = before ++ a :: after → ∀ e, f a = some e → p e = false →
        ∃ b ∈ before, ∃ e', f b = some e' ∧ p e' = true := by
  constructor
  · intro hfirst before a after heq e ha hp
    cases hbefore : before.findSome? f with
    | none =>
      have hhit : l.findSome? f = some e := by
        rw [heq, List.findSome?_append, hbefore, List.findSome?_cons, ha]
        rfl
      rw [hfirst e hhit] at hp
      cases hp
    | some e' =>
      have hhit : l.findSome? f = some e' := by
        rw [heq, List.findSome?_append, hbefore]
        rfl
      obtain ⟨b, hb, hfb⟩ := List.exists_of_findSome?_eq_some hbefore
      exact ⟨b, hb, e', hfb, hfirst e' hhit⟩
  · intro hall e hhit
    obtain ⟨before, a, after, heq, ha, hnone⟩ := List.findSome?_eq_some_iff.mp hhit
    by_contra hp
    obtain ⟨b, hb, e', hfb, -⟩ := hall before a after heq e ha (Bool.not_eq_true _ ▸ hp)
    rw [hnone b hb] at hfb
    cases hfb

theorem answers_iff : Answers lib data ↔ FailsCaught lib data := by
  constructor
  · intro hanswers
    have hreturns := getSnapshot_returns_iff.mp hanswers.returns
    rw [errorOf_fromDict, findSome_passes_iff] at hreturns
    exact hreturns
  · intro hfails
    refine ⟨?_, ?_⟩
    · rw [getSnapshot_returns_iff, errorOf_fromDict, findSome_passes_iff]
      exact hfails
    · intro s _ hne
      exact decide_eq_false hne

/-! ## There and back -/

namespace StateSnapshot

variable {s : StateSnapshot lib}

theorem same_inOrder (hs : s.Buildable) : s.inOrder.Same s := by
  simp only [Same, inOrder, PyObject.sortKeys_sortKeys _ _ hs.positions,
    PyObject.sortKeys_sortKeys _ _ hs.pendingOrders]

theorem content_inOrder (hs : s.Buildable) : s.inOrder.content = s.content := by
  simp only [content, inOrder, PyObject.dumps_sortKeys hs.positions,
    PyObject.dumps_sortKeys hs.pendingOrders]

theorem computeChecksum_inOrder (hs : s.Buildable) :
    s.inOrder.computeChecksum = s.computeChecksum := by
  rw [computeChecksum, content_inOrder hs, computeChecksum]

theorem sealed_buildable (hs : s.Buildable) : s.sealed.Buildable :=
  ⟨hs.timestamp, hs.positions, hs.pendingOrders⟩

/-- **A snapshot is read back from its hash.** -/
theorem fromDict_toDict (hs : s.Buildable) : fromDict lib s.toDict = .ok s.inOrder := by
  obtain ⟨d, hd⟩ := hs.timestamp
  have htimestamp : readTimestamp lib (lib.isoformat s.timestamp) = .ok s.timestamp := by
    rw [hd, lib.isoformat_utc, readTimestamp, lib.fromisoformat_isoformat]
  have hpositions : readJson lib s.positions.dumps = .ok s.positions.sortKeys := by
    rw [readJson, PyObject.loads_dumps hs.positions]
  have hpending : readJson lib s.pendingOrders.dumps = .ok s.pendingOrders.sortKeys := by
    rw [readJson, PyObject.loads_dumps hs.pendingOrders]
  have hdecimal : ∀ d : PyDecimal, readDecimal lib d.str = .ok d := by
    intro d
    rw [readDecimal, PyDecimal.read_str]
  have hitems : item s.toDict "account_id" = .ok s.accountId ∧
      item s.toDict "timestamp" = .ok (lib.isoformat s.timestamp) ∧
      item s.toDict "positions" = .ok s.positions.dumps ∧
      item s.toDict "pending_orders" = .ok s.pendingOrders.dumps ∧
      item s.toDict "account_balance" = .ok s.accountBalance.str ∧
      item s.toDict "equity" = .ok s.equity.str ∧
      item s.toDict "peak_balance" = .ok s.peakBalance.str ∧
      item s.toDict "daily_starting_balance" = .ok s.dailyStartingBalance.str ∧
      item s.toDict "checksum" = .ok s.checksum :=
    ⟨rfl, rfl, rfl, rfl, rfl, rfl, rfl, rfl, rfl⟩
  obtain ⟨h1, h2, h3, h4, h5, h6, h7, h8, h9⟩ := hitems
  rw [fromDict, h1, h2, h3, h4, h5, h6, h7, h8, h9]
  have hbind : ∀ {α β : Type} (a : α) (k : α → Except PyError β), (Except.ok a >>= k) = k a :=
    fun _ _ => rfl
  simp only [hbind, htimestamp, hpositions, hpending, hdecimal]
  rfl

end StateSnapshot

/-- Digits and blanks of ASCII. -/
def asciiData : UnicodeData where
  decimal c := if c.isDigit then some (c.toNat - 48) else none
  space c := c = ' ' || ('\t' ≤ c && c ≤ '\r') || ('\x1c' ≤ c && c ≤ '\x1f')
  decimal_ascii _ _ := rfl
  space_ascii := by
    intro c hlow _
    have hblank : ∀ d : Char, d ≤ ' ' → ¬c ≤ d := fun d hd hle => absurd (hle.trans hd) (not_le.mpr hlow)
    simp [hlow.ne', hblank '\r', hblank '\x1f']

open Classical in
/-- `fromisoformat` on the texts of `isoformat`, and a digest that is given. -/
noncomputable def isoLib (hexdigest : List Char → List Char) : StdLib where
  Datetime := UtcDatetime
  utc d := d
  isoformat d := d.isoformat
  isoformat_utc _ := rfl
  fromisoformat text := if h : ∃ d : UtcDatetime, d.isoformat = text then some h.choose else none
  fromisoformat_isoformat := by
    intro d
    have hd : ∃ d' : UtcDatetime, d'.isoformat = d.isoformat := ⟨d, rfl⟩
    rw [dif_pos hd, Dataset.isoformat_injective hd.choose_spec]
  unicode := asciiData
  depth := 900
  hexdigest

/-! ## Hashes of an account -/

def goldTime : UtcDatetime :=
  ⟨2026, 1, 3, 14, 32, 15, 0, by decide, by decide, by decide, by decide, by decide, by decide,
    by decide⟩

/-- The library, with the digest of the snapshot below. -/
noncomputable def goldLib : StdLib :=
  isoLib fun _ => "fb39de7d0c9f4e654371300b3681119674db8e5a99edeb648c759ade1341f9bf".toList

theorem inRange_halfThousands : ∀ c < 10 ^ 3, (DecimalForm.finite false (c * 50000) (-2)).InRange := by
  decide +kernel

def goldPositions : PyObject :=
  .list [.dict [("symbol".toList, .str "XAUUSD".toList), ("side".toList, .str "BUY".toList),
    ("volume".toList, .str "0.1".toList)]]

noncomputable def goldSnapshot : StateSnapshot goldLib where
  accountId := "ftmo-gold-001".toList
  timestamp := goldTime
  positions := goldPositions
  pendingOrders := .list []
  accountBalance := ⟨.finite false (200 * 50000) (-2), inRange_halfThousands 200 (by decide)⟩
  equity := ⟨.finite false (199 * 50000) (-2), inRange_halfThousands 199 (by decide)⟩
  peakBalance := ⟨.finite false (205 * 50000) (-2), inRange_halfThousands 205 (by decide)⟩
  dailyStartingBalance := ⟨.finite false (201 * 50000) (-2), inRange_halfThousands 201 (by decide)⟩
  checksum := []

theorem goldSnapshot_buildable : goldSnapshot.Buildable where
  timestamp := ⟨goldTime, rfl⟩
  positions := ⟨⟨by decide, trivial, trivial, trivial, trivial⟩, trivial⟩
  pendingOrders := trivial

/-- **The codec is sound, and `get_snapshot` answers, exactly when no field
fails first with an exception beyond its catch.** -/
theorem getSnapshot_answers_iff (lib : StdLib) :
    (∀ s : StateSnapshot lib, s.Buildable → ∃ t, fromDict lib s.sealed.toDict = .ok t ∧
      t.Same s.sealed ∧ t.validateChecksum = true) ∧
      ∀ data : Hash, Answers lib data ↔ FailsCaught lib data := by
  refine ⟨?_, fun _ => answers_iff⟩
  intro s hs
  have hsealed := StateSnapshot.sealed_buildable hs
  refine ⟨s.sealed.inOrder, StateSnapshot.fromDict_toDict hsealed,
    StateSnapshot.same_inOrder hsealed, ?_⟩
  rw [StateSnapshot.validateChecksum, StateSnapshot.computeChecksum_inOrder hsealed]
  exact decide_eq_true rfl

theorem goldSnapshot_answers :
    (∃ t, fromDict goldLib goldSnapshot.sealed.toDict = .ok t ∧ t.Same goldSnapshot.sealed ∧
      t.validateChecksum = true) ∧ Answers goldLib [] :=
  ⟨(getSnapshot_answers_iff goldLib).1 goldSnapshot goldSnapshot_buildable,
    ((getSnapshot_answers_iff goldLib).2 []).mpr (.inl rfl)⟩

/-- A hash whose balance is no number. -/
def corruptBalance : Hash :=
  [("account_id", "ftmo-gold-001".toList), ("timestamp", goldTime.isoformat),
    ("positions", "[]".toList), ("pending_orders", "[]".toList),
    ("account_balance", "abc".toList), ("equity", "99500.00".toList),
    ("peak_balance", "102500.00".toList), ("daily_starting_balance", "100500.00".toList),
    ("checksum", [])]

/-- `get_snapshot` lets the exception of the balance through. -/
theorem corruptBalance_raises : ¬Answers goldLib corruptBalance := by
  intro hanswers
  have hfields : Field.accountId.failure goldLib corruptBalance = none ∧
      Field.timestamp.failure goldLib corruptBalance = none ∧
      Field.positions.failure goldLib corruptBalance = none ∧
      Field.pendingOrders.failure goldLib corruptBalance = none ∧
      Field.accountBalance.failure goldLib corruptBalance = some .invalidOperation := by
    refine ⟨rfl, ?_, by decide, by decide, by decide⟩
    have hread : goldLib.fromisoformat goldTime.isoformat = some goldTime :=
      goldLib.fromisoformat_isoformat goldTime
    show (if goldLib.fromisoformat goldTime.isoformat = none then _ else _) = _
    rw [hread]
    rfl
  obtain ⟨haccount, htime, hpositions, hpending, hbalance⟩ := hfields
  have herror : errorOf (fromDict goldLib corruptBalance) = some .invalidOperation := by
    rw [errorOf_fromDict, Field.all]
    simp only [List.findSome?_cons, haccount, htime, hpositions, hpending, hbalance]
  obtain hdata | hcaught := getSnapshot_returns_iff.mp hanswers.returns
  · cases hdata
  · cases hcaught _ herror

end TdSandboxed.SnapshotCodec
