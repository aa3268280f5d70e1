/-
TdSandboxed.TvApi.WireMarkers — the two markers that the reader of the wire
protocol looks for, and where a JSON text can hold one.

No character of a marker is ever escaped, and a quote is in none. So a text
that Go writes holds a marker exactly when one of the value's strings does
(`clear_value_iff`).
-/
import Mathlib.Data.List.TakeWhile
import TdSandboxed.Lib.JsonWeight
import TdSandboxed.TvApi.WireCodec

namespace TdSandboxed.TvApi.WireCodec

open Lib

/-! ## The markers -/

/-- What `cleanerRegex` matches. -/
def cleanerWords : Set (List Char) := fun w => w = ['~', 'h', '~']

/-- What `splitterRegex` matches. -/
def splitterWords : Set (List Char) := fun w =>
  ∃ ds : List Char, ds ≠ [] ∧ (∀ d ∈ ds, d.isDigit) ∧ w = ['~', 'm', '~'] ++ (ds ++ ['~', 'm', '~'])

theorem recognizes_cleaner : Recognizes cleanerMatch cleanerWords where
  sound := by
    intro cs n h
    unfold cleanerMatch at h
    split at h
    · rename_i hpre
      exact ⟨_, rfl, h, hpre⟩
    · cases h
  complete := by
    rintro w cs rfl hpre
    exact ⟨if_pos hpre, List.cons_ne_nil _ _⟩

/-- The digits of a frame's head, and what follows them. -/
theorem digits_of_head {ds : List Char} (hds : ∀ d ∈ ds, d.isDigit) (rest : List Char) :
    (ds ++ (['~', 'm', '~'] ++ rest)).takeWhile Char.isDigit = ds ∧
      (ds ++ (['~', 'm', '~'] ++ rest)).dropWhile Char.isDigit = ['~', 'm', '~'] ++ rest := by
  apply takeWhile_isDigit_append hds
  intro c hc
  obtain rfl := Option.some.inj hc
  rfl

theorem recognizes_splitter : Recognizes splitterMatch splitterWords where
  sound := by
    intro cs n h
    unfold splitterMatch at h
    dsimp only at h
    split at h
    · rename_i hmatch
      obtain ⟨⟨rest, rfl⟩, hne, ⟨tail, htail⟩⟩ := hmatch
      have hdrop : (['~', 'm', '~'] ++ rest).drop 3 = rest := rfl
      rw [hdrop] at h hne htail
      refine ⟨_, ⟨rest.takeWhile Char.isDigit, hne, fun d hd => List.mem_takeWhile_imp hd, rfl⟩, ?_, ?_⟩
      · rw [← h, List.length_append, List.length_append]
        exact Nat.add_comm 3 _
      · refine ⟨tail, ?_⟩
        have hrest : rest = rest.takeWhile Char.isDigit ++ (['~', 'm', '~'] ++ tail) := by
          rw [htail, List.takeWhile_append_dropWhile]
        nth_rewrite 2 [hrest]
        simp
    · cases h
  complete := by
    rintro w cs ⟨ds, hne, hds, rfl⟩ ⟨rest, rfl⟩
    have hdrop : ((['~', 'm', '~'] ++ (ds ++ ['~', 'm', '~'])) ++ rest).drop 3 =
        ds ++ (['~', 'm', '~'] ++ rest) := by simp
    obtain ⟨htake, hafter⟩ := digits_of_head hds rest
    refine ⟨?_, List.cons_ne_nil _ _⟩
    unfold splitterMatch
    dsimp only
    rw [hdrop, htake, hafter, if_pos ⟨⟨ds ++ (['~', 'm', '~'] ++ rest), by simp⟩, hne,
      List.prefix_append _ _⟩]
    simp

theorem mem_splitterWord {w : List Char} (hw : w ∈ splitterWords) {c : Char} (hc : c ∈ w) :
    c = '~' ∨ c = 'm' ∨ c.isDigit := by
  have hends : ∀ d ∈ ['~', 'm', '~'], d = '~' ∨ d = 'm' ∨ d.isDigit :=
    forall_mem_of_all (by decide)
  obtain ⟨ds, -, hds, rfl⟩ := hw
  rcases List.mem_append.mp hc with hc | hc
  · exact hends c hc
  · rcases List.mem_append.mp hc with hc | hc
    · exact .inr (.inr (hds c hc))
    · exact hends c hc

/-- A word that JSON texts hold only within strings, and there as it is. -/
structure Markers (W : Set (List Char)) : Prop where
  starts : ∀ w ∈ W, ∃ w', w = '~' :: w'
  plain : ∀ w ∈ W, ∀ c ∈ w, goEscape c = [c]

theorem goEscape_of_isDigit {c : Char} (hc : c.isDigit) : goEscape c = [c] := by
  have hne : ∀ d : Char, d.isDigit = false → c ≠ d := by
    rintro d hd rfl
    rw [hc] at hd
    cases hd
  have hcontrol : ¬ c < ' ' := by
    intro hlt
    have hlow : '0'.toNat ≤ c.toNat := (Bool.and_eq_true _ _ ▸ hc : _ ∧ _).1 |> of_decide_eq_true
    have hlt : c.toNat < ' '.toNat := hlt
    exact absurd (hlow.trans_lt hlt) (by decide)
  simp [goEscape, shortEscape, htmlEscaped, hne, hcontrol]

theorem markers_cleaner : Markers cleanerWords where
  starts := by
    rintro w rfl
    exact ⟨_, rfl⟩
  plain := by
    rintro w rfl
    exact forall_mem_of_all (by decide)

theorem markers_splitter : Markers splitterWords where
  starts := by
    rintro w ⟨ds, -, -, rfl⟩
    exact ⟨_, rfl⟩
  plain := by
    intro w hw c hc
    rcases mem_splitterWord hw hc with rfl | rfl | hc
    · decide
    · decide
    · exact goEscape_of_isDigit hc

/-! ## Markers in texts -/

section
variable {W : Set (List Char)}

theorem goEscape_cases (c : Char) : goEscape c = [c] ∨ ∃ r, goEscape c = '\\' :: r := by
  unfold goEscape
  split
  · exact .inr ⟨_, rfl⟩
  · split
    · exact .inr ⟨_, rfl⟩
    · exact .inl rfl

/-- An escape holds no `~`. -/
theorem tilde_not_mem_goEscape {c : Char} (hc : c ≠ '~') : '~' ∉ goEscape c := by
  unfold goEscape
  split
  · rename_i e he
    have hne : e ≠ '~' := by
      rintro rfl
      unfold shortEscape at he
      split_ifs at he with hself <;> simp_all
    simp [hne.symm]
  · split
    · have hdigit : ∀ n < 16, n.digitChar ≠ '~' := by decide
      have hmod : ∀ n, '~' ≠ (n % 16).digitChar :=
        fun n => (hdigit _ (Nat.mod_lt n (by decide))).symm
      simp [unicodeEscape, hmod]
    · simp [hc.symm]

theorem Markers.nil_not_mem (hW : Markers W) : [] ∉ W := by
  intro hnil
  obtain ⟨w', hw'⟩ := hW.starts [] hnil
  cases hw'

theorem Markers.clear_nil (hW : Markers W) : Clear W [] := by
  intro w hw hin
  obtain rfl := List.infix_nil.mp hin
  exact hW.nil_not_mem hw

/-- What is escaped stands in no marker. -/
theorem Markers.not_mem (hW : Markers W) {c : Char} (hc : goEscape c ≠ [c]) : ∀ w ∈ W, c ∉ w :=
  fun w hw hmem => hc (hW.plain w hw c hmem)

theorem Markers.clear_cons_iff (hW : Markers W) {c : Char} (hc : c ≠ '~') {cs : List Char} :
    Clear W (c :: cs) ↔ Clear W cs := by
  apply clear_cons_iff_of_head
  intro w hw
  obtain ⟨w', rfl⟩ := hW.starts w hw
  exact ⟨'~', w', rfl, hc⟩

theorem Markers.clear_append_iff (hW : Markers W) {p : List Char} (hp : '~' ∉ p) (cs : List Char) :
    Clear W (p ++ cs) ↔ Clear W cs := by
  induction p with
  | nil => exact Iff.rfl
  | cons c p ih =>
    obtain ⟨hc, hp⟩ := List.ne_and_not_mem_of_not_mem_cons hp
    rw [List.cons_append, hW.clear_cons_iff hc.symm, ih hp]

theorem Markers.clear_of_not_mem (hW : Markers W) {p : List Char} (hp : '~' ∉ p) : Clear W p := by
  have hiff := hW.clear_append_iff hp []
  rw [List.append_nil] at hiff
  exact hiff.mpr hW.clear_nil

/-- A plain word starts the text of a string where it starts the string. -/
theorem prefix_flatMap_iff {w : List Char} (hw : ∀ c ∈ w, goEscape c = [c]) (s : List Char) :
    w <+: s.flatMap goEscape ↔ w <+: s := by
  induction w generalizing s with
  | nil => simp
  | cons c w ih =>
    have hslash : c ≠ '\\' := by
      rintro rfl
      exact absurd (hw _ (List.mem_cons_self ..)) (by decide)
    cases s with
    | nil => rfl
    | cons d s =>
      rw [List.flatMap_cons]
      rcases goEscape_cases d with hd | ⟨r, hr⟩
      · rw [hd, List.singleton_append, List.cons_prefix_cons, List.cons_prefix_cons,
          ih (fun x hx => hw x (List.mem_cons_of_mem _ hx)) s]
      · constructor
        · intro hpre
          rw [hr, List.cons_append] at hpre
          exact absurd (List.cons_prefix_cons.mp hpre).1 hslash
        · intro hpre
          obtain ⟨rfl, -⟩ := List.cons_prefix_cons.mp hpre
          rw [hw c (List.mem_cons_self ..)] at hr
          exact absurd (List.cons_eq_cons.mp hr).1 hslash

/-- Escaping a string neither makes nor hides a marker. -/
theorem Markers.clear_flatMap_iff (hW : Markers W) (s : List Char) :
    Clear W (s.flatMap goEscape) ↔ Clear W s := by
  induction s with
  | nil => exact Iff.rfl
  | cons c s ih =>
    rcases goEscape_cases c with hc | ⟨r, hr⟩
    · have hpre : ∀ w ∈ W, (w <+: c :: s.flatMap goEscape ↔ w <+: c :: s) := by
        intro w hw
        have hiff := prefix_flatMap_iff (hW.plain w hw) (c :: s)
        rwa [List.flatMap_cons, hc, List.singleton_append] at hiff
      rw [List.flatMap_cons, hc, List.singleton_append]
      constructor
      · intro h w hw hin
        rcases List.infix_cons_iff.mp hin with hin | hin
        · exact h w hw ((hpre w hw).mpr hin).isInfix
        · exact ih.mp (fun w hw hin => h w hw (List.infix_cons hin)) w hw hin
      · intro h w hw hin
        rcases List.infix_cons_iff.mp hin with hin | hin
        · exact h w hw ((hpre w hw).mp hin).isInfix
        · exact ih.mpr (fun w hw hin => h w hw (List.infix_cons hin)) w hw hin
    · have hc : c ≠ '~' := by
        rintro rfl
        cases hr
      rw [List.flatMap_cons, hW.clear_append_iff (tilde_not_mem_goEscape hc), hW.clear_cons_iff hc, ih]

theorem Markers.clear_quote_iff (hW : Markers W) (s rest : List Char) :
    Clear W (goCompact.quote s ++ rest) ↔ Clear W s ∧ Clear W rest := by
  have hquote : ∀ w ∈ W, '"' ∉ w := hW.not_mem (by decide)
  rw [Layout.quote_append, hW.clear_cons_iff (by decide), clear_append_sep_iff hquote]
  exact and_congr_left' (hW.clear_flatMap_iff s)

theorem tilde_not_mem_text {n : JsonNumber} (h : n.Valid) : '~' ∉ n.text := by
  intro hmem
  have hpos : 0 < textWeight n.text := by
    obtain ⟨p, q, hsplit⟩ := List.append_of_mem hmem
    have htilde : charWeight '~' = 1 := by decide
    rw [hsplit, textWeight_append, textWeight_cons, htilde]
    omega
  rw [textWeight_text h] at hpos
  exact Nat.lt_irrefl 0 hpos

/-- The strings of a tree hold no marker. -/
def ClearStrings (W : Set (List Char)) (ss : List (List Char)) : Prop := ∀ s ∈ ss, Clear W s

theorem clearStrings_cons {s : List Char} {ss : List (List Char)} :
    ClearStrings W (s :: ss) ↔ Clear W s ∧ ClearStrings W ss := List.forall_mem_cons

theorem clearStrings_append {ss ts : List (List Char)} :
    ClearStrings W (ss ++ ts) ↔ ClearStrings W ss ∧ ClearStrings W ts := List.forall_mem_append

theorem clearStrings_nil : ClearStrings W [] := by
  intro s hs
  cases hs

/-- A text without strings. -/
theorem Markers.clear_plain_iff (hW : Markers W) {p : List Char} (hp : '~' ∉ p) (rest : List Char) :
    Clear W (p ++ rest) ↔ ClearStrings W [] ∧ Clear W rest := by
  rw [hW.clear_append_iff hp]
  exact (and_iff_right clearStrings_nil).symm

mutual

theorem clear_value_append_iff (hW : Markers W) (level : ℕ) :
    ∀ (t : JsonTree) (rest : List Char), (∀ n ∈ t.numbers, n.Valid) →
      (Clear W (goCompact.value level t ++ rest) ↔ ClearStrings W t.strings ∧ Clear W rest)
  | .null, rest, _ => hW.clear_plain_iff (p := ['n', 'u', 'l', 'l']) (by decide) rest
  | .bool true, rest, _ => hW.clear_plain_iff (p := ['t', 'r', 'u', 'e']) (by decide) rest
  | .bool false, rest, _ => hW.clear_plain_iff (p := ['f', 'a', 'l', 's', 'e']) (by decide) rest
  | .number n, rest, h =>
    hW.clear_plain_iff (tilde_not_mem_text (h n (List.mem_singleton.mpr rfl))) rest
  | .string s, rest, _ => by
    rw [Layout.value, hW.clear_quote_iff, JsonTree.strings, clearStrings_cons]
    exact and_congr_left' (and_iff_left clearStrings_nil).symm
  | .array [], rest, _ => hW.clear_plain_iff (p := ['[', ']']) (by decide) rest
  | .object [], rest, _ => hW.clear_plain_iff (p := ['{', '}']) (by decide) rest
  | .array (v :: vs), rest, h => by
    have hv := clear_value_append_iff hW (level + 1) v (goCompact.items (level + 1) vs ++ ']' :: rest)
      fun n hn => h n (List.mem_append_left _ hn)
    have hvs := clear_items_append_iff hW (level + 1) vs (']' :: rest)
      fun n hn => h n (List.mem_append_right _ hn)
    have hvalue : goCompact.value level (.array (v :: vs)) ++ rest =
        '[' :: (goCompact.value (level + 1) v ++ (goCompact.items (level + 1) vs ++ ']' :: rest)) := by
      simp [Layout.value, Layout.newline, goCompact]
    rw [hvalue, hW.clear_cons_iff (by decide), hv, hvs, hW.clear_cons_iff (by decide),
      JsonTree.strings, JsonTree.stringsItems, clearStrings_append, and_assoc]
  | .object ((k, v) :: ms), rest, h => by
    have hv := clear_value_append_iff hW (level + 1) v
      (goCompact.members (level + 1) ms ++ '}' :: rest) fun n hn => h n (List.mem_append_left _ hn)
    have hms := clear_members_append_iff hW (level + 1) ms ('}' :: rest)
      fun n hn => h n (List.mem_append_right _ hn)
    have hvalue : goCompact.value level (.object ((k, v) :: ms)) ++ rest =
        '{' :: (goCompact.quote k ++ (':' :: (goCompact.value (level + 1) v ++
          (goCompact.members (level + 1) ms ++ '}' :: rest)))) := by
      simp [Layout.value, Layout.newline, Layout.colon, goCompact]
    rw [hvalue, hW.clear_cons_iff (by decide), hW.clear_quote_iff, hW.clear_cons_iff (by decide), hv,
      hms, hW.clear_cons_iff (by decide), JsonTree.strings, JsonTree.stringsMembers, clearStrings_cons,
      clearStrings_append, and_assoc, and_assoc]

theorem clear_items_append_iff (hW : Markers W) (level : ℕ) :
    ∀ (vs : List JsonTree) (rest : List Char), (∀ n ∈ JsonTree.numbersItems vs, n.Valid) →
      (Clear W (goCompact.items level vs ++ rest) ↔
        ClearStrings W (JsonTree.stringsItems vs) ∧ Clear W rest)
  | [], rest, _ => (and_iff_right clearStrings_nil).symm
  | v :: vs, rest, h => by
    have hv := clear_value_append_iff hW level v (goCompact.items level vs ++ rest)
      fun n hn => h n (List.mem_append_left _ hn)
    have hvs := clear_items_append_iff hW level vs rest fun n hn => h n (List.mem_append_right _ hn)
    have hitems : goCompact.items level (v :: vs) ++ rest =
        ',' :: (goCompact.value level v ++ (goCompact.items level vs ++ rest)) := by
      simp [Layout.items, Layout.newline, goCompact]
    rw [hitems, hW.clear_cons_iff (by decide), hv, hvs, JsonTree.stringsItems, clearStrings_append,
      and_assoc]

theorem clear_members_append_iff (hW : Markers W) (level : ℕ) :
    ∀ (ms : List (List Char × JsonTree)) (rest : List Char),
      (∀ n ∈ JsonTree.numbersMembers ms, n.Valid) →
        (Clear W (goCompact.members level ms ++ rest) ↔
          ClearStrings W (JsonTree.stringsMembers ms) ∧ Clear W rest)
  | [], rest, _ => (and_iff_right clearStrings_nil).symm
  | (k, v) :: ms, rest, h => by
    have hv := clear_value_append_iff hW level v (goCompact.members level ms ++ rest)
      fun n hn => h n (List.mem_append_left _ hn)
    have hms := clear_members_append_iff hW level ms rest fun n hn => h n (List.mem_append_right _ hn)
    have hmembers : goCompact.members level ((k, v) :: ms) ++ rest =
        ',' :: (goCompact.quote k ++ (':' :: (goCompact.value level v ++
          (goCompact.members level ms ++ rest)))) := by
      simp [Layout.members, Layout.newline, Layout.colon, goCompact]
    rw [hmembers, hW.clear_cons_iff (by decide), hW.clear_quote_iff, hW.clear_cons_iff (by decide), hv,
      hms, JsonTree.stringsMembers, clearStrings_cons, clearStrings_append, and_assoc, and_assoc]

end

/-- **A text holds a marker exactly when a string of its value does.** -/
theorem clear_value_iff (hW : Markers W) {t : JsonTree} (ht : ∀ n ∈ t.numbers, n.Valid) :
    Clear W (goCompact.value 0 t) ↔ ClearStrings W t.strings := by
  have hiff := clear_value_append_iff hW 0 t [] ht
  rw [List.append_nil] at hiff
  rw [hiff]
  exact and_iff_left hW.clear_nil

end

end TdSandboxed.TvApi.WireCodec
