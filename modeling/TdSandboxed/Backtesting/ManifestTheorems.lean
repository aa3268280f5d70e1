/-
TdSandboxed.Backtesting.ManifestTheorems — the manifest that Go writes
(`tv-api`) and Python loads (`backtesting/dataset/manifest.py`).

The two have the same members in the same order, so a manifest of Go is a
payload of Python (`PyValue.ofGo`). `agrees_iff` says when the two texts
are the same and the values come back: strings and numbers are written
alike, and what is no plain text or number is spelled as Python spells it.
-/
import TdSandboxed.Backtesting.DatasetManifest
import TdSandboxed.Lib.Assoc
import TdSandboxed.TvApi.DatasetManifest

namespace TdSandboxed.Dataset

open Lib
open ForexFactory (daysInMonth)

variable {lib : PyLib}

/-! ## Items of a sorted dict -/

theorem getItem_sortKeys {ms : List (List Char × GoValue)} (h : (ms.map Prod.fst).Nodup) (k : String) :
    getItem k (PyValue.ofGo (.object ms)).sortKeys =
      (getItem k (PyValue.ofGo (.object ms))).map PyValue.sortKeys := by
  rw [← PyValue.keys_ofGoMembers] at h
  exact PyValue.itemOf_sortMembers h

/-! ## Datetimes -/

/-- Padded fields of one width are told apart, and from what follows. -/
theorem zeroPadded_append_inj {width m n : ℕ} {rest rest' : List Char} (hwidth : 0 < width)
    (hm : m < 10 ^ width) (hn : n < 10 ^ width)
    (h : zeroPadded width m ++ rest = zeroPadded width n ++ rest') : m = n ∧ rest = rest' := by
  have hlength : (zeroPadded width m).length = (zeroPadded width n).length :=
    (length_padZeros hm hwidth).trans (length_padZeros hn hwidth).symm
  obtain ⟨hfield, hrest⟩ := List.append_inj h hlength
  refine ⟨?_, hrest⟩
  rw [← ofDigitChars_padZeros width m, ← ofDigitChars_padZeros width n]
  exact congrArg (Nat.ofDigitChars 10 · 0) hfield

theorem fraction_inj {m n : ℕ} (hm : m < 1000000) (hn : n < 1000000)
    (h : (if m = 0 then [] else '.' :: zeroPadded 6 m) ++ "+00:00".toList =
      (if n = 0 then [] else '.' :: zeroPadded 6 n) ++ "+00:00".toList) : m = n := by
  have hfraction := List.append_cancel_right h
  split at hfraction
  · split at hfraction
    · omega
    · cases hfraction
  · split at hfraction
    · cases hfraction
    · have hfield : zeroPadded 6 m ++ [] = zeroPadded 6 n ++ [] := by
        rw [List.append_nil, List.append_nil]
        exact (List.cons.inj hfraction).2
      exact (zeroPadded_append_inj (by decide) hm hn hfield).1

theorem UtcDatetime.day_lt (d : UtcDatetime) : d.day < 10 ^ 2 := by
  have hle := d.day_bounds.2
  have hmonth : daysInMonth d.year d.month ≤ 31 := by
    unfold daysInMonth
    split
    · split <;> decide
    all_goals decide
  omega

/-- **Two instants have two texts.** -/
theorem isoformat_injective : Function.Injective UtcDatetime.isoformat := by
  intro a b h
  obtain ⟨hyear, h⟩ := zeroPadded_append_inj (by decide) (Nat.lt_succ_of_le a.year_bounds.2)
    (Nat.lt_succ_of_le b.year_bounds.2) h
  obtain ⟨hmonth, h⟩ := zeroPadded_append_inj (by decide) (a.month_bounds.2.trans_lt (by decide))
    (b.month_bounds.2.trans_lt (by decide)) (List.cons.inj h).2
  obtain ⟨hday, h⟩ := zeroPadded_append_inj (by decide) a.day_lt b.day_lt (List.cons.inj h).2
  obtain ⟨hhour, h⟩ := zeroPadded_append_inj (by decide) (a.hour_lt.trans (by decide))
    (b.hour_lt.trans (by decide)) (List.cons.inj h).2
  obtain ⟨hminute, h⟩ := zeroPadded_append_inj (by decide) (a.minute_lt.trans (by decide))
    (b.minute_lt.trans (by decide)) (List.cons.inj h).2
  obtain ⟨hsecond, h⟩ := zeroPadded_append_inj (by decide) (a.second_lt.trans (by decide))
    (b.second_lt.trans (by decide)) (List.cons.inj h).2
  have hmicrosecond := fraction_inj a.microsecond_lt b.microsecond_lt h
  cases a
  cases b
  simp_all only

theorem isoformat_suffix (d : UtcDatetime) : "+00:00".toList <:+ d.isoformat := by
  have hcons : ∀ (cs : List Char) (c : Char) (rest : List Char), "+00:00".toList <:+ rest →
      "+00:00".toList <:+ cs ++ c :: rest := fun cs c rest h =>
    (h.trans (List.suffix_cons c rest)).trans (List.suffix_append cs _)
  unfold UtcDatetime.isoformat
  repeat apply hcons
  exact (List.suffix_append ..).trans (List.suffix_append ..)

theorem parseIso_isoformat (d : UtcDatetime) : lib.parseIso (.str d.isoformat) = some d := by
  rw [PyLib.parseIso, lib.fromisoformat_isoformat]

/-! ## Gaps -/

theorem BarGap.fromDict_sorted (g : TvApi.BarGap) :
    BarGap.fromDict lib (PyValue.ofGo g.value).sortKeys =
      (lib.parseIso (.str g.before.toList)).bind fun before =>
        (lib.parseIso (.str g.after.toList)).bind fun after =>
          some { timeframe := g.timeframe.toList, windowName := g.windowName.toList, before, after } := by
  have hitem := getItem_sortKeys g.keys_nodup
  unfold BarGap.fromDict
  rw [TvApi.BarGap.value]
  simp only [hitem]
  rfl

def ReadableGap (g : TvApi.BarGap) : Prop :=
  ∃ before after : UtcDatetime, before.isoformat = g.before.toList ∧
    after.isoformat = g.after.toList ∧ durationHours before after = some g.durationHours

/-- A gap with the `Z` of `time.RFC3339Nano`, as `DetectGaps` writes it. -/
theorem not_readableGap_of_zulu {g : TvApi.BarGap} (h : g.before.toList.getLast? = some 'Z') :
    ¬ ReadableGap g := by
  intro hread
  obtain ⟨before, -, hbefore, -⟩ := hread
  obtain ⟨cs, hcs⟩ := isoformat_suffix before
  rw [← hbefore, ← hcs, List.getLast?_append_of_ne_nil _ (by decide)] at h
  exact absurd h (by decide)

theorem reload_gap_iff (lib : PyLib) (g : TvApi.BarGap) :
    (BarGap.fromDict lib (PyValue.ofGo g.value).sortKeys).bind BarGap.toDict =
      some (PyValue.ofGo g.value) ↔ ReadableGap g := by
  rw [BarGap.fromDict_sorted]
  constructor
  · intro h
    obtain ⟨gap, hgap, hdict⟩ := Option.bind_eq_some_iff.mp h
    obtain ⟨before, -, hgap⟩ := Option.bind_eq_some_iff.mp hgap
    obtain ⟨after, -, hgap⟩ := Option.bind_eq_some_iff.mp hgap
    obtain rfl := Option.some.inj hgap
    rw [BarGap.toDict, Option.map_eq_some_iff] at hdict
    obtain ⟨hours, hhours, hdict⟩ := hdict
    simp [PyValue.ofGo, PyValue.ofGoMembers, TvApi.BarGap.value, TvApi.BarGap.members] at hdict
    obtain ⟨hbefore, hafter, rfl⟩ := hdict
    exact ⟨before, after, hbefore, hafter, hhours⟩
  · intro h
    obtain ⟨before, after, hbefore, hafter, hhours⟩ := h
    rw [← hbefore, ← hafter, parseIso_isoformat, parseIso_isoformat, Option.bind_some,
      Option.bind_some, Option.bind_some, BarGap.toDict, hhours, Option.map_some, hbefore, hafter]
    rfl

/-! ## Slices -/

section Slices

variable {α β : Type} {value : α → GoValue} {read : PyValue → Option β} {write : β → Option PyValue}
  {P : α → Prop}

/-- **A slice comes back unchanged** if it is not nil and its items do. -/
theorem reload_slice_iff
    (h : ∀ a, (read (PyValue.ofGo (value a)).sortKeys).bind write = some (PyValue.ofGo (value a)) ↔ P a)
    (items : Option (List α)) :
    (((iterate (PyValue.ofGo (TvApi.slice value items)).sortKeys).bind (List.mapM read)).bind
        (List.mapM write)).map .list = some (PyValue.ofGo (TvApi.slice value items)) ↔
      ∃ as, items = some as ∧ ∀ a ∈ as, P a := by
  cases items with
  | none => simp [TvApi.slice, PyValue.ofGo, PyValue.sortKeys, iterate]
  | some as =>
    have hinj : ∀ ws : List PyValue, PyValue.list ws = PyValue.list (as.map fun a => PyValue.ofGo (value a)) ↔
        ws = as.map fun a => PyValue.ofGo (value a) := fun ws => ⟨PyValue.list.inj, congrArg _⟩
    simp only [TvApi.slice, PyValue.ofGo, PyValue.sortKeys, iterate, PyValue.ofGoItems_map, PyValue.sortItems_eq_map,
      List.map_map, Option.bind_some, Option.map_eq_some_iff, hinj, exists_eq_right, mapM_bind_mapM_iff,
      List.forall₂_map_left_iff, List.forall₂_map_right_iff, List.forall₂_same, Function.comp_apply, h,
      Option.some.injEq, exists_eq_left']

end Slices

/-! ## Entries -/

theorem DatasetEntry.fromDict_sorted (e : TvApi.DatasetEntry) :
    DatasetEntry.fromDict lib (PyValue.ofGo e.value).sortKeys =
      (WindowKind.ofValue (.str e.windowKind.toList)).bind fun windowKind =>
      (lib.parseIso (.str e.start.toList)).bind fun start =>
      (lib.parseIso (.str e.stop.toList)).bind fun stop =>
      (safeParquetPath lib (.str e.parquetPath.toList)).bind fun parquetPath =>
      (iterate (PyValue.ofGo (TvApi.slice TvApi.BarGap.value e.gaps)).sortKeys).bind fun raws =>
      (raws.mapM (BarGap.fromDict lib)).bind fun gaps =>
      some {
        timeframe := e.timeframe.toList, windowName := e.windowName.toList, windowKind, start, stop,
        parquetPath, rowCount := e.rowCount.toInt, gaps
        fingerprint := {
          minTs := e.fingerprint.minTs.toInt, maxTs := e.fingerprint.maxTs.toInt,
          rowCount := e.fingerprint.rowCount.toInt } } := by
  have hitem := getItem_sortKeys e.keys_nodup
  have hfp := getItem_sortKeys e.fingerprint.keys_nodup
  have hraw : getItem "fingerprint" (PyValue.ofGo e.value).sortKeys =
      some (PyValue.ofGo (.object e.fingerprint.members)).sortKeys := hitem "fingerprint"
  unfold DatasetEntry.fromDict
  rw [hraw, Option.bind_eq_bind, Option.bind_some, TvApi.DatasetEntry.value]
  simp only [hitem, hfp]
  rfl

/-- A path that `Path` leaves as it is, and that has no `..`. -/
def SafePath (path : String) : Prop :=
  (posixPath path.toList).text = path.toList ∧ ['.', '.'] ∉ (posixPath path.toList).tail

/-- The fingerprint as it is loaded. -/
def loadedFingerprint (f : TvApi.Fingerprint) : ContentHashFingerprint :=
  { minTs := f.minTs.toInt, maxTs := f.maxTs.toInt, rowCount := f.rowCount.toInt }

structure ReadableEntry (lib : PyLib) (e : TvApi.DatasetEntry) : Prop where
  windowKind : ∃ kind : WindowKind, kind.value = e.windowKind
  start : ∃ d : UtcDatetime, d.isoformat = e.start.toList
  stop : ∃ d : UtcDatetime, d.isoformat = e.stop.toList
  parquetPath : SafePath e.parquetPath
  sha256 : (loadedFingerprint e.fingerprint).sha256 lib = e.fingerprint.sha256Short.toList
  gaps : ∃ gaps, e.gaps = some gaps ∧ ∀ g ∈ gaps, ReadableGap g

theorem ofValue_value (kind : WindowKind) : WindowKind.ofValue (.str kind.value.toList) = some kind := by
  cases kind <;> rfl

theorem safeParquetPath_eq_some {path : String} {p : PosixPath} :
    safeParquetPath lib (.str path.toList) = some p ↔
      p = posixPath path.toList ∧ ['.', '.'] ∉ (posixPath path.toList).tail := by
  have hsafe : safeParquetPath lib (.str path.toList) =
      if ['.', '.'] ∈ (posixPath path.toList).tail then none else some (posixPath path.toList) := rfl
  rw [hsafe]
  split
  · rename_i hdots
    simp [hdots]
  · rename_i hdots
    simp [hdots, eq_comm]

theorem reload_entry_iff (lib : PyLib) (e : TvApi.DatasetEntry) :
    (DatasetEntry.fromDict lib (PyValue.ofGo e.value).sortKeys).bind (DatasetEntry.toDict lib) =
      some (PyValue.ofGo e.value) ↔ ReadableEntry lib e := by
  have hgaps := reload_slice_iff (reload_gap_iff lib) e.gaps
  rw [DatasetEntry.fromDict_sorted]
  constructor
  · intro h
    obtain ⟨entry, hentry, hdict⟩ := Option.bind_eq_some_iff.mp h
    obtain ⟨kind, hkind, hentry⟩ := Option.bind_eq_some_iff.mp hentry
    obtain ⟨start, -, hentry⟩ := Option.bind_eq_some_iff.mp hentry
    obtain ⟨stop, -, hentry⟩ := Option.bind_eq_some_iff.mp hentry
    obtain ⟨path, hpath, hentry⟩ := Option.bind_eq_some_iff.mp hentry
    obtain ⟨raws, hraws, hentry⟩ := Option.bind_eq_some_iff.mp hentry
    obtain ⟨gaps, hread, hentry⟩ := Option.bind_eq_some_iff.mp hentry
    obtain rfl := Option.some.inj hentry
    obtain ⟨rfl, hdots⟩ := safeParquetPath_eq_some.mp hpath
    rw [DatasetEntry.toDict, Option.map_eq_some_iff] at hdict
    obtain ⟨dicts, hwrite, hdict⟩ := hdict
    simp only [PyValue.ofGo, PyValue.ofGoMembers, TvApi.DatasetEntry.value, TvApi.DatasetEntry.members,
      TvApi.Fingerprint.value, TvApi.Fingerprint.members, PyValue.dict.injEq, List.cons.injEq,
      Prod.mk.injEq, PyValue.str.injEq, true_and, and_true] at hdict
    obtain ⟨hwindow, hstart, hstop, htext, hsha, hdicts⟩ := hdict
    refine ⟨⟨kind, String.toList_inj.mp hwindow⟩, ⟨start, hstart⟩, ⟨stop, hstop⟩, ⟨htext, hdots⟩, hsha,
      hgaps.mp ?_⟩
    rw [hraws, Option.bind_some, hread, Option.bind_some, hwrite, Option.map_some, hdicts]
  · intro h
    obtain ⟨⟨kind, hkind⟩, ⟨start, hstart⟩, ⟨stop, hstop⟩, ⟨htext, hdots⟩, hsha, hentries⟩ := h
    obtain ⟨dicts, hwrite, hdicts⟩ := Option.map_eq_some_iff.mp (hgaps.mpr hentries)
    obtain ⟨gaps, hread, hwrite⟩ := Option.bind_eq_some_iff.mp hwrite
    obtain ⟨raws, hraws, hread⟩ := Option.bind_eq_some_iff.mp hread
    rw [← hkind, ofValue_value, Option.bind_some, ← hstart, parseIso_isoformat, Option.bind_some,
      ← hstop, parseIso_isoformat, Option.bind_some, safeParquetPath_eq_some.mpr ⟨rfl, hdots⟩,
      Option.bind_some, hraws, Option.bind_some, hread, Option.bind_some, Option.bind_some,
      DatasetEntry.toDict, hwrite, Option.map_some, hkind, hstart, hstop, htext, hdicts]
    simp only [loadedFingerprint] at hsha
    rw [hsha]
    rfl

/-! ## Manifests -/

/-- What `load_json` needs to make the same manifest of the text. -/
structure Readable (lib : PyLib) (m : TvApi.DatasetManifest) : Prop where
  schemaVersion : m.schemaVersion = manifestSchemaVersion
  generatedAt : ∃ d : UtcDatetime, d.isoformat = m.generatedAt.toList
  entries : ∃ entries, m.entries = some entries ∧ ∀ e ∈ entries, ReadableEntry lib e

theorem DatasetManifest.ofRaw_sorted (m : TvApi.DatasetManifest) :
    DatasetManifest.ofRaw lib (PyValue.ofGo m.value).sortKeys =
      (if m.schemaVersion.toList = manifestSchemaVersion.toList then some () else none).bind fun _ =>
      (lib.parseIso (.str m.generatedAt.toList)).bind fun generatedAt =>
      (iterate (PyValue.ofGo (TvApi.slice TvApi.DatasetEntry.value m.entries)).sortKeys).bind fun raws =>
      (raws.mapM (DatasetEntry.fromDict lib)).bind fun entries =>
      some {
        specName := m.specName.toList, datasetVersion := m.datasetVersion.toList,
        symbol := m.symbol.toList, generatedAt, maxGapHours := m.maxGapHours, entries } := by
  have hitem := getItem_sortKeys m.keys_nodup
  unfold DatasetManifest.ofRaw checkSchema
  rw [TvApi.DatasetManifest.value]
  simp only [hitem]
  rfl

theorem reload_manifest_iff (m : TvApi.DatasetManifest) :
    (DatasetManifest.ofRaw lib (PyValue.ofGo m.value).sortKeys).bind (DatasetManifest.toDict lib) =
      some (PyValue.ofGo m.value) ↔ Readable lib m := by
  have hentries := reload_slice_iff (reload_entry_iff lib) m.entries
  rw [DatasetManifest.ofRaw_sorted]
  constructor
  · intro h
    obtain ⟨manifest, hmanifest, hdict⟩ := Option.bind_eq_some_iff.mp h
    obtain ⟨-, -, hmanifest⟩ := Option.bind_eq_some_iff.mp hmanifest
    obtain ⟨generatedAt, -, hmanifest⟩ := Option.bind_eq_some_iff.mp hmanifest
    obtain ⟨raws, hraws, hmanifest⟩ := Option.bind_eq_some_iff.mp hmanifest
    obtain ⟨entries, hread, hmanifest⟩ := Option.bind_eq_some_iff.mp hmanifest
    obtain rfl := Option.some.inj hmanifest
    rw [DatasetManifest.toDict, Option.map_eq_some_iff] at hdict
    obtain ⟨dicts, hwrite, hdict⟩ := hdict
    simp only [PyValue.ofGo, PyValue.ofGoMembers, TvApi.DatasetManifest.value,
      TvApi.DatasetManifest.members, PyValue.dict.injEq, List.cons.injEq, Prod.mk.injEq,
      PyValue.str.injEq, true_and, and_true] at hdict
    obtain ⟨hschema, hgenerated, hdicts⟩ := hdict
    refine ⟨(String.toList_inj.mp hschema).symm, ⟨generatedAt, hgenerated⟩, hentries.mp ?_⟩
    rw [hraws, Option.bind_some, hread, Option.bind_some, hwrite, Option.map_some, hdicts]
  · intro h
    obtain ⟨hschema, ⟨generatedAt, hgenerated⟩, hread⟩ := h
    obtain ⟨dicts, hwrite, hdicts⟩ := Option.map_eq_some_iff.mp (hentries.mpr hread)
    obtain ⟨entries, hread, hwrite⟩ := Option.bind_eq_some_iff.mp hwrite
    obtain ⟨raws, hraws, hread⟩ := Option.bind_eq_some_iff.mp hread
    rw [if_pos (congrArg String.toList hschema), Option.bind_some, ← hgenerated, parseIso_isoformat,
      Option.bind_some, hraws, Option.bind_some, hread, Option.bind_some, Option.bind_some,
      DatasetManifest.toDict, hwrite, Option.map_some, hgenerated, hdicts, ← hschema]
    rfl

/-! ## Both languages -/

/-- The file has the bytes of `json.dumps` of the same values, and Python
loads these values from it. -/
def Agrees (lib : PyLib) (m : TvApi.DatasetManifest) : Prop :=
  ∃ text, TvApi.writeManifest m = some text ∧
    text = (PyValue.ofGo m.value).dumps ∧
    (loadJson lib text).bind (DatasetManifest.toDict lib) = some (PyValue.ofGo m.value)

/-- **A manifest agrees across the languages exactly when its strings and
numbers are written alike and Python can read the rest.** -/
theorem agrees_iff (lib : PyLib) (m : TvApi.DatasetManifest) :
    Agrees lib m ↔ m.value.Shared ∧ Readable lib m := by
  have hload : loadJson lib (PyValue.ofGo m.value).dumps =
      DatasetManifest.ofRaw lib (PyValue.ofGo m.value).sortKeys := by
    rw [loadJson, PyValue.loads_dumps_ofGo m.encodes (m.depth_le.trans (by decide)), Option.bind_some]
  rw [← TvApi.writeManifest_eq_dumps_iff, ← reload_manifest_iff, ← hload]
  constructor
  · intro h
    obtain ⟨text, htext, rfl, hread⟩ := h
    exact ⟨htext, hread⟩
  · intro h
    exact ⟨_, h.1, rfl, h.2⟩

open Classical in
/-- `fromisoformat` on the texts of `isoformat`, for a given digest. -/
noncomputable def isoLib (hexdigest : String → String) : PyLib where
  reprOf _ := []
  intOf _ := none
  floatOf _ := none
  fromisoformat text := if h : ∃ d : UtcDatetime, d.isoformat = text then some (.aware h.choose) else none
  fromisoformat_isoformat := by
    intro d
    have hd : ∃ d' : UtcDatetime, d'.isoformat = d.isoformat := ⟨d, rfl⟩
    rw [dif_pos hd, isoformat_injective hd.choose_spec]
  hexdigest

theorem roundFloat64_halfHours : roundFloat64 (101 / 2) = some (101 / 2) := by decide +kernel

theorem halfHours_nonneg : (0 : ℚ) ≤ 101 / 2 := by norm_num

def halfHours : Float64 :=
  { negative := false, magnitude := 101 / 2, nonneg := halfHours_nonneg, exact := roundFloat64_halfHours }

/-- Two bars that are 50.5 hours apart. -/
def halfHoursGap : TvApi.BarGap where
  timeframe := "5"
  windowName := "in_sample"
  before := "2023-11-14T22:13:20+00:00"
  after := "2023-11-17T00:43:20+00:00"
  durationHours := halfHours

def halfHoursEntry : TvApi.DatasetEntry where
  timeframe := "5"
  windowName := "in_sample"
  windowKind := "in_sample"
  start := "2023-11-14T22:13:20+00:00"
  stop := "2023-11-17T00:43:20+00:00"
  parquetPath := "data/historical/XAUUSD/M5/in_sample.parquet"
  fingerprint :=
    { minTs := 1700000000000000000
      maxTs := 1700181800000000000
      rowCount := 2
      sha256Short := "e3ce5370d3e364ff" }
  rowCount := 2
  gaps := some [halfHoursGap]

def halfHoursManifest : TvApi.DatasetManifest where
  schemaVersion := "1"
  specName := "xauusd-validation"
  datasetVersion := "v1"
  symbol := "XAUUSD"
  generatedAt := "2023-11-17T00:43:20+00:00"
  maxGapHours := halfHours
  entries := some [halfHoursEntry]

theorem readable_halfHoursGap : ReadableGap halfHoursGap :=
  ⟨⟨2023, 11, 14, 22, 13, 20, 0, by decide, by decide, by decide, by decide, by decide, by decide,
      by decide⟩,
    ⟨2023, 11, 17, 0, 43, 20, 0, by decide, by decide, by decide, by decide, by decide, by decide,
      by decide⟩, by decide +kernel, by decide +kernel, by decide +kernel⟩

theorem shared_halfHours : SharedFloat halfHours := by decide +kernel

example : goNumber halfHours = pyNumber halfHours := by decide +kernel

theorem sharedNumbers_halfHoursEntry : halfHoursEntry.value.SharedNumbers := by
  have hmin : SurvivesFloat64 halfHoursEntry.fingerprint.minTs.toInt := by decide +kernel
  have hmax : SurvivesFloat64 halfHoursEntry.fingerprint.maxTs.toInt := by decide +kernel
  have hcount : SurvivesFloat64 halfHoursEntry.rowCount.toInt := by decide +kernel
  have hfingerprint : halfHoursEntry.fingerprint.value.SharedNumbers :=
    ⟨hmin, hmax, hcount, trivial, trivial⟩
  have hgap : halfHoursGap.value.SharedNumbers :=
    ⟨trivial, trivial, trivial, trivial, shared_halfHours, trivial⟩
  exact ⟨trivial, trivial, trivial, trivial, trivial, trivial, hfingerprint, hcount,
    ⟨hgap, trivial⟩, trivial⟩

/-- A manifest without integral floats agrees. -/
theorem halfHoursManifest_agrees :
    Agrees (isoLib fun _ => "e3ce5370d3e364ff4bc5ea9703e393fcae13f44748fdfd7f30853eb7fa312626")
      halfHoursManifest := by
  obtain ⟨before, after, hbefore, hafter, -⟩ := readable_halfHoursGap
  have hstrings : halfHoursManifest.value.toTree.strings.all fun s => s.all fun c => SharedChar c := by
    decide +kernel
  refine (agrees_iff _ halfHoursManifest).mpr ⟨⟨?_, ?_⟩, rfl, ⟨after, hafter⟩, [halfHoursEntry], rfl, ?_⟩
  · exact ⟨trivial, trivial, trivial, trivial, trivial, shared_halfHours,
      ⟨sharedNumbers_halfHoursEntry, trivial⟩, trivial⟩
  · simpa only [List.all_eq_true, decide_eq_true_eq] using hstrings
  · intro e he
    obtain rfl := List.mem_singleton.mp he
    refine ⟨⟨.inSample, rfl⟩, ⟨before, hbefore⟩, ⟨after, hafter⟩, ?_, ?_, [halfHoursGap], rfl, ?_⟩
    · exact ⟨by decide +kernel, by decide +kernel⟩
    · decide +kernel
    · intro g hg
      obtain rfl := List.mem_singleton.mp hg
      exact readable_halfHoursGap

theorem roundFloat64_fortyEight : roundFloat64 48 = some 48 := by decide +kernel

/-- A threshold of 48 hours, and no entry. -/
def fortyEightHours : TvApi.DatasetManifest where
  schemaVersion := "1"
  specName := "xauusd-validation"
  datasetVersion := "v1"
  symbol := "XAUUSD"
  generatedAt := "2026-05-03T12:00:00+00:00"
  maxGapHours := { negative := false, magnitude := 48, nonneg := Nat.cast_nonneg 48, exact := roundFloat64_fortyEight }
  entries := some []

/-- Go writes 48, and Python 48.0. -/
theorem fortyEightHours_not_agrees :
    TvApi.writeManifest fortyEightHours ≠ some (PyValue.ofGo fortyEightHours.value).dumps := by
  intro h
  obtain ⟨hnumbers, -⟩ := (TvApi.writeManifest_eq_dumps_iff fortyEightHours).mp h
  have hfloat : SharedFloat fortyEightHours.maxGapHours := hnumbers.2.2.2.2.2.1
  exact absurd hfloat (by decide +kernel)

end TdSandboxed.Dataset
