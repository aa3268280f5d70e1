/-
TdSandboxed.TvApi.DatasetManifest — the receipt of a shard, as
`internal/store/manifest.go` writes it.

`canonicalJSON` marshals a value, reads the text into an `any`, and prints
that with sorted keys: every number is a `float64` on the way. A nil slice
is `none`, and is written as `null`.
-/
import TdSandboxed.Lib.SharedJson

namespace TdSandboxed.TvApi

open Lib

structure Fingerprint where
  minTs : Int64
  maxTs : Int64
  rowCount : Int64
  sha256Short : String

structure BarGap where
  timeframe : String
  windowName : String
  before : String
  after : String
  durationHours : Float64

structure DatasetEntry where
  timeframe : String
  windowName : String
  windowKind : String
  start : String
  /-- `end` -/
  stop : String
  parquetPath : String
  fingerprint : Fingerprint
  rowCount : Int64
  gaps : Option (List BarGap)

structure DatasetManifest where
  schemaVersion : String
  specName : String
  datasetVersion : String
  symbol : String
  generatedAt : String
  maxGapHours : Float64
  entries : Option (List DatasetEntry)

/-! ## The members, in the order of the struct -/

def slice {α : Type} (value : α → GoValue) : Option (List α) → GoValue
  | none => .null
  | some items => .array (items.map value)

def Fingerprint.members (f : Fingerprint) : List (List Char × GoValue) :=
  [("min_ts".toList, .int f.minTs.toInt),
    ("max_ts".toList, .int f.maxTs.toInt),
    ("row_count".toList, .int f.rowCount.toInt),
    ("sha256_short".toList, .string f.sha256Short.toList)]

def Fingerprint.value (f : Fingerprint) : GoValue := .object f.members

def BarGap.members (g : BarGap) : List (List Char × GoValue) :=
  [("timeframe".toList, .string g.timeframe.toList),
    ("window_name".toList, .string g.windowName.toList),
    ("before".toList, .string g.before.toList),
    ("after".toList, .string g.after.toList),
    ("duration_hours".toList, .number g.durationHours)]

def BarGap.value (g : BarGap) : GoValue := .object g.members

def DatasetEntry.members (e : DatasetEntry) : List (List Char × GoValue) :=
  [("timeframe".toList, .string e.timeframe.toList),
    ("window_name".toList, .string e.windowName.toList),
    ("window_kind".toList, .string e.windowKind.toList),
    ("start".toList, .string e.start.toList),
    ("end".toList, .string e.stop.toList),
    ("parquet_path".toList, .string e.parquetPath.toList),
    ("fingerprint".toList, e.fingerprint.value),
    ("row_count".toList, .int e.rowCount.toInt),
    ("gaps".toList, slice BarGap.value e.gaps)]

def DatasetEntry.value (e : DatasetEntry) : GoValue := .object e.members

def DatasetManifest.members (m : DatasetManifest) : List (List Char × GoValue) :=
  [("schema_version".toList, .string m.schemaVersion.toList),
    ("spec_name".toList, .string m.specName.toList),
    ("dataset_version".toList, .string m.datasetVersion.toList),
    ("symbol".toList, .string m.symbol.toList),
    ("generated_at".toList, .string m.generatedAt.toList),
    ("max_gap_hours".toList, .number m.maxGapHours),
    ("entries".toList, slice DatasetEntry.value m.entries)]

def DatasetManifest.value (m : DatasetManifest) : GoValue := .object m.members

/-! ## Writing -/

/-- `json.Marshal` -/
def marshal (v : GoValue) : List Char := goCompact.value 0 v.toTree

/-- `json.Unmarshal` into an `any`. -/
def unmarshal (raw : List Char) : Option GoValue := (parse maxNestingDepth raw).bind GoValue.ofTree

/-- `marshalSorted(v, "  ", "")`. A map is held in the order of its keys. -/
def marshalSorted (v : GoValue) : List Char := goIndented.value 0 v.toTree

def canonicalJSON (v : GoValue) : Option (List Char) := (unmarshal (marshal v)).map marshalSorted

/-- The document that `WriteManifest` puts into the file; `none` is an
error. -/
def writeManifest (m : DatasetManifest) : Option (List Char) := canonicalJSON m.value

theorem canonicalJSON_eq {v : GoValue} (hv : v.Encodes) (hdepth : v.toTree.depth ≤ maxNestingDepth) :
    ∃ w : GoValue, canonicalJSON v = some (goIndented.value 0 w.toTree) ∧ w.toTree = v.goTree := by
  obtain ⟨w, hw, htree⟩ := GoValue.ofTree_toTree_generic v hv
  have hparse := Layout.parse_layout goCompact_escapes maxNestingDepth v.toTree (GoValue.valid_toTree v)
  rw [if_pos hdepth] at hparse
  refine ⟨w, ?_, htree⟩
  rw [canonicalJSON, unmarshal, marshal, hparse, Option.bind_some, hw, Option.map_some, marshalSorted]

/-- **The canonical text is that of `json.dumps` exactly when numbers and
strings are written alike.** -/
theorem canonicalJSON_eq_dumps_iff {v : GoValue} (hv : v.Encodes)
    (hdepth : v.toTree.depth ≤ maxNestingDepth) :
    canonicalJSON v = some (PyValue.ofGo v).dumps ↔ v.Shared := by
  obtain ⟨w, hw, htree⟩ := canonicalJSON_eq hv hdepth
  rw [hw, Option.some_inj]
  exact GoValue.goIndented_eq_dumps_iff hv htree

/-! ## A manifest can be written -/

theorem natAbs_toInt_le (n : Int64) : n.toInt.natAbs ≤ 2 ^ 63 := by
  have hlow := n.le_toInt
  have hhigh := n.toInt_lt
  omega

theorem encodesItems_map {α : Type} {value : α → GoValue} (h : ∀ a, (value a).Encodes) (items : List α) :
    GoValue.EncodesItems (items.map value) := by
  induction items with
  | nil => trivial
  | cons a items ih => exact ⟨h a, ih⟩

theorem depthItems_map_le {α : Type} {value : α → GoValue} {n : ℕ}
    (h : ∀ a, (value a).toTree.depth ≤ n) (items : List α) :
    JsonTree.depthItems (GoValue.toTrees (items.map value)) ≤ n := by
  induction items with
  | nil => exact Nat.zero_le n
  | cons a items ih => exact max_le (h a) ih

theorem encodes_slice {α : Type} {value : α → GoValue} (h : ∀ a, (value a).Encodes)
    (items : Option (List α)) : (slice value items).Encodes := by
  cases items with
  | none => trivial
  | some items => exact encodesItems_map h items

theorem depth_slice_le {α : Type} {value : α → GoValue} {n : ℕ}
    (h : ∀ a, (value a).toTree.depth ≤ n) (items : Option (List α)) :
    (slice value items).toTree.depth ≤ n + 1 := by
  cases items with
  | none => exact Nat.zero_le _
  | some items => exact Nat.succ_le_succ (depthItems_map_le h items)

theorem BarGap.keys_nodup (g : BarGap) : (g.members.map Prod.fst).Nodup := by
  simp [BarGap.members]

theorem Fingerprint.keys_nodup (f : Fingerprint) : (f.members.map Prod.fst).Nodup := by
  simp [Fingerprint.members]

theorem DatasetEntry.keys_nodup (e : DatasetEntry) : (e.members.map Prod.fst).Nodup := by
  simp [DatasetEntry.members]

theorem DatasetManifest.keys_nodup (m : DatasetManifest) : (m.members.map Prod.fst).Nodup := by
  simp [DatasetManifest.members]

theorem BarGap.encodes (g : BarGap) : g.value.Encodes :=
  ⟨g.keys_nodup, trivial, trivial, trivial, trivial, trivial, trivial⟩

theorem BarGap.depth (g : BarGap) : g.value.toTree.depth = 1 := rfl

theorem Fingerprint.encodes (f : Fingerprint) : f.value.Encodes :=
  ⟨f.keys_nodup, natAbs_toInt_le _, natAbs_toInt_le _, natAbs_toInt_le _, trivial, trivial⟩

theorem DatasetEntry.encodes (e : DatasetEntry) : e.value.Encodes :=
  ⟨e.keys_nodup, trivial, trivial, trivial, trivial, trivial, trivial, e.fingerprint.encodes,
    natAbs_toInt_le _, encodes_slice BarGap.encodes e.gaps, trivial⟩

theorem DatasetEntry.depth_le (e : DatasetEntry) : e.value.toTree.depth ≤ 3 := by
  have hgaps := depth_slice_le (fun g : BarGap => g.depth.le) e.gaps
  simp only [DatasetEntry.value, DatasetEntry.members, Fingerprint.value, Fingerprint.members,
    GoValue.toTree, GoValue.toMembers, JsonTree.depth, JsonTree.depthMembers]
  omega

theorem DatasetManifest.encodes (m : DatasetManifest) : m.value.Encodes :=
  ⟨m.keys_nodup, trivial, trivial, trivial, trivial, trivial, trivial,
    encodes_slice DatasetEntry.encodes m.entries, trivial⟩

theorem DatasetManifest.depth_le (m : DatasetManifest) : m.value.toTree.depth ≤ 5 := by
  have hentries := depth_slice_le DatasetEntry.depth_le m.entries
  simp only [DatasetManifest.value, DatasetManifest.members, GoValue.toTree, GoValue.toMembers,
    JsonTree.depth, JsonTree.depthMembers]
  omega

/-- **The file of a manifest is the text of `json.dumps` exactly when its
numbers and strings are written alike.** -/
theorem writeManifest_eq_dumps_iff (m : DatasetManifest) :
    writeManifest m = some (PyValue.ofGo m.value).dumps ↔ m.value.Shared :=
  canonicalJSON_eq_dumps_iff m.encodes (m.depth_le.trans (by decide))

end TdSandboxed.TvApi
