/-
TdSandboxed.Lib.LayoutTexts — what stands in a printed text.

Every character is a digit, a mark, or part of an escape (`Writes.value`);
every character of an escaped string is in the text (`mem_value`); and two
layouts that escape the strings of a value alike print it alike
(`Alike.value`).
-/
import TdSandboxed.Lib.JsonLayout

namespace TdSandboxed.Lib

namespace Layout

variable {L : Layout}

/-! ## Characters -/

/-- What stands in a text besides strings and digits. -/
def marks : List Char :=
  ['\n', ' ', '"', '[', ']', '{', '}', ',', ':', '-', '+', '.', 'n', 'u', 'l', 't', 'r', 'e', 'f', 'a',
    's']

/-- Digits, marks and escapes all have the property. -/
structure Writes (L : Layout) (P : Char → Prop) : Prop where
  digit : ∀ c, c.isDigit → P c
  mark : ∀ c ∈ marks, P c
  esc : ∀ c, ∀ x ∈ L.esc c, P x

section
variable {P : Char → Prop}

theorem Writes.subset (hL : L.Writes P) {p : List Char} (hp : p ⊆ marks) : ∀ c ∈ p, P c :=
  fun c hc => hL.mark c (hp hc)

theorem Writes.text (hL : L.Writes P) {n : JsonNumber} (h : n.Valid) : ∀ c ∈ n.text, P c := by
  have hint : ∀ c ∈ n.int, P c := by
    rcases h.int with hzero | ⟨c, cs, hint, -, hds⟩
    · intro c hc
      rw [hzero] at hc
      exact hL.digit c (by rw [List.mem_singleton.mp hc]; rfl)
    · intro d hd
      exact hL.digit d (hds d (hint ▸ hd))
  have hfrac : ∀ c ∈ JsonNumber.fracText n.frac, P c := by
    have hfrac := h.frac
    cases hf : n.frac with
    | none =>
      intro c hc
      cases hc
    | some ds =>
      intro c hc
      rcases List.mem_cons.mp hc with rfl | hc
      · exact hL.mark _ (by decide)
      · exact hL.digit c ((hfrac ds hf).2 c hc)
  have hexp : ∀ c ∈ JsonNumber.expText n.exp, P c := by
    have hexp := h.exp
    cases he : n.exp with
    | none =>
      intro c hc
      cases hc
    | some e =>
      obtain ⟨negative, ds⟩ := e
      have hsign : ∀ c ∈ ['e', if negative then '-' else '+'], P c := by
        cases negative <;> exact hL.subset (by decide)
      intro c hc
      rcases List.mem_append.mp (show c ∈ ['e', if negative then '-' else '+'] ++ ds from hc) with hc | hc
      · exact hsign c hc
      · exact hL.digit c ((hexp _ he).2 c hc)
  have hsign : ∀ c ∈ (if n.negative then ['-'] else []), P c := by
    cases n.negative <;> exact hL.subset (by decide)
  simp only [JsonNumber.text, List.forall_mem_append]
  exact ⟨hsign, hint, hfrac, hexp⟩

theorem Writes.quote (hL : L.Writes P) (s : List Char) : ∀ c ∈ L.quote s, P c := by
  intro c hc
  rcases List.mem_cons.mp hc with rfl | hc
  · exact hL.mark _ (by decide)
  · rcases List.mem_append.mp hc with hc | hc
    · obtain ⟨x, -, hx⟩ := List.mem_flatMap.mp hc
      exact hL.esc x c hx
    · rw [List.mem_singleton.mp hc]
      exact hL.mark _ (by decide)

theorem Writes.blank (hL : L.Writes P) (level : ℕ) :
    (∀ c ∈ L.newline level, P c) ∧ ∀ c ∈ L.colon, P c := by
  have hnewline := hL.mark '\n' (by decide)
  have hspace := hL.mark ' ' (by decide)
  have hcolon := hL.mark ':' (by decide)
  unfold newline colon
  cases L.indent with
  | none => simp [hcolon]
  | some n =>
    refine ⟨?_, by simp [hcolon, hspace]⟩
    intro c hc
    rcases List.mem_cons.mp hc with rfl | hc
    · exact hnewline
    · rw [List.eq_of_mem_replicate hc]
      exact hspace

mutual

/-- **What holds of every escape and every mark holds of the whole text.** -/
theorem Writes.value (hL : L.Writes P) (level : ℕ) :
    ∀ t : JsonTree, (∀ n ∈ t.numbers, n.Valid) → ∀ c ∈ L.value level t, P c
  | .null, _ => hL.subset (p := ['n', 'u', 'l', 'l']) (by decide)
  | .bool true, _ => hL.subset (p := ['t', 'r', 'u', 'e']) (by decide)
  | .bool false, _ => hL.subset (p := ['f', 'a', 'l', 's', 'e']) (by decide)
  | .number n, h => hL.text (h n (List.mem_singleton.mpr rfl))
  | .string s, _ => hL.quote s
  | .array [], _ => hL.subset (p := ['[', ']']) (by decide)
  | .object [], _ => hL.subset (p := ['{', '}']) (by decide)
  | .array (v :: vs), h => by
    have hv := hL.value (level + 1) v fun n hn => h n (List.mem_append_left _ hn)
    have hvs := hL.items (level + 1) vs fun n hn => h n (List.mem_append_right _ hn)
    have hopen := hL.mark '[' (by decide)
    have hclose := hL.mark ']' (by decide)
    have hblank := fun level => (hL.blank level).1
    simp only [Layout.value, List.forall_mem_cons, List.forall_mem_append]
    exact ⟨hopen, hblank _, hv, hvs, hblank _, hclose, fun c hc => by cases hc⟩
  | .object ((k, v) :: ms), h => by
    have hv := hL.value (level + 1) v fun n hn => h n (List.mem_append_left _ hn)
    have hms := hL.members (level + 1) ms fun n hn => h n (List.mem_append_right _ hn)
    have hopen := hL.mark '{' (by decide)
    have hclose := hL.mark '}' (by decide)
    have hblank := hL.blank
    simp only [Layout.value, List.forall_mem_cons, List.forall_mem_append]
    exact ⟨hopen, (hblank _).1, hL.quote k, (hblank 0).2, hv, hms, (hblank _).1, hclose,
      fun c hc => by cases hc⟩

theorem Writes.items (hL : L.Writes P) (level : ℕ) :
    ∀ vs : List JsonTree, (∀ n ∈ JsonTree.numbersItems vs, n.Valid) → ∀ c ∈ L.items level vs, P c
  | [], _ => fun c hc => by cases hc
  | v :: vs, h => by
    have hv := hL.value level v fun n hn => h n (List.mem_append_left _ hn)
    have hvs := hL.items level vs fun n hn => h n (List.mem_append_right _ hn)
    have hcomma := hL.mark ',' (by decide)
    simp only [Layout.items, List.forall_mem_cons, List.forall_mem_append]
    exact ⟨hcomma, (hL.blank level).1, hv, hvs⟩

theorem Writes.members (hL : L.Writes P) (level : ℕ) :
    ∀ ms : List (List Char × JsonTree), (∀ n ∈ JsonTree.numbersMembers ms, n.Valid) →
      ∀ c ∈ L.members level ms, P c
  | [], _ => fun c hc => by cases hc
  | (k, v) :: ms, h => by
    have hv := hL.value level v fun n hn => h n (List.mem_append_left _ hn)
    have hms := hL.members level ms fun n hn => h n (List.mem_append_right _ hn)
    have hcomma := hL.mark ',' (by decide)
    have hblank := hL.blank level
    simp only [Layout.members, List.forall_mem_cons, List.forall_mem_append]
    exact ⟨hcomma, hblank.1, hL.quote k, hblank.2, hv, hms⟩

end

end

/-! ## Strings in a text -/

theorem mem_quote {s : List Char} {c : Char} (hc : c ∈ s.flatMap L.esc) : c ∈ L.quote s :=
  List.mem_cons_of_mem _ (List.mem_append_left _ hc)

mutual

/-- A string of the value stands in the text. -/
theorem mem_value (level : ℕ) {s : List Char} {c : Char} (hc : c ∈ s.flatMap L.esc) :
    ∀ t : JsonTree, s ∈ t.strings → c ∈ L.value level t
  | .null, h => by cases h
  | .bool _, h => by cases h
  | .number _, h => by cases h
  | .string _, h => by
    obtain rfl := List.mem_singleton.mp h
    exact mem_quote hc
  | .array [], h => by cases h
  | .object [], h => by cases h
  | .array (v :: vs), h => by
    simp only [value, List.mem_cons, List.mem_append]
    rcases List.mem_append.mp h with h | h
    · have hv := mem_value (level + 1) hc v h
      simp [hv]
    · have hvs := mem_items (level + 1) hc vs h
      simp [hvs]
  | .object ((k, v) :: ms), h => by
    simp only [value, List.mem_cons, List.mem_append]
    rcases List.mem_cons.mp h with rfl | h
    · have hk := mem_quote hc
      simp [hk]
    · rcases List.mem_append.mp h with h | h
      · have hv := mem_value (level + 1) hc v h
        simp [hv]
      · have hms := mem_members (level + 1) hc ms h
        simp [hms]

theorem mem_items (level : ℕ) {s : List Char} {c : Char} (hc : c ∈ s.flatMap L.esc) :
    ∀ vs : List JsonTree, s ∈ JsonTree.stringsItems vs → c ∈ L.items level vs
  | [], h => by cases h
  | v :: vs, h => by
    simp only [items, List.mem_cons, List.mem_append]
    rcases List.mem_append.mp h with h | h
    · have hv := mem_value level hc v h
      simp [hv]
    · have hvs := mem_items level hc vs h
      simp [hvs]

theorem mem_members (level : ℕ) {s : List Char} {c : Char} (hc : c ∈ s.flatMap L.esc) :
    ∀ ms : List (List Char × JsonTree), s ∈ JsonTree.stringsMembers ms → c ∈ L.members level ms
  | [], h => by cases h
  | (k, v) :: ms, h => by
    simp only [members, List.mem_cons, List.mem_append]
    rcases List.mem_cons.mp h with rfl | h
    · have hk := mem_quote hc
      simp [hk]
    · rcases List.mem_append.mp h with h | h
      · have hv := mem_value level hc v h
        simp [hv]
      · have hms := mem_members level hc ms h
        simp [hms]

end

/-! ## Two layouts -/

/-- Two printers that indent alike, and escape these strings alike. -/
structure Alike (L M : Layout) (ss : List (List Char)) : Prop where
  indent : L.indent = M.indent
  esc : ∀ s ∈ ss, ∀ c ∈ s, L.esc c = M.esc c

variable {M : Layout}

theorem Alike.blank {ss : List (List Char)} (h : Alike L M ss) (level : ℕ) :
    L.newline level = M.newline level ∧ L.colon = M.colon := by
  simp only [newline, colon, h.indent, and_self]

theorem Alike.quote {ss : List (List Char)} (h : Alike L M ss) {s : List Char} (hs : s ∈ ss) :
    L.quote s = M.quote s := by
  have hflat : s.flatMap L.esc = s.flatMap M.esc := List.flatMap_congr (h.esc s hs)
  simp only [Layout.quote, hflat]

theorem Alike.mono {ss ts : List (List Char)} (h : Alike L M ss) (hts : ts ⊆ ss) : Alike L M ts :=
  ⟨h.indent, fun s hs => h.esc s (hts hs)⟩

mutual

theorem Alike.value (level : ℕ) : ∀ t : JsonTree, Alike L M t.strings → L.value level t = M.value level t
  | .null, _ => rfl
  | .bool true, _ => rfl
  | .bool false, _ => rfl
  | .number _, _ => rfl
  | .string s, h => h.quote (List.mem_singleton.mpr rfl)
  | .array [], _ => rfl
  | .object [], _ => rfl
  | .array (v :: vs), h => by
    have hv := Alike.value (level + 1) v (h.mono (List.subset_append_left _ _))
    have hvs := Alike.items (level + 1) vs (h.mono (List.subset_append_right _ _))
    simp only [Layout.value, hv, hvs, (h.blank _).1]
  | .object ((k, v) :: ms), h => by
    have hsub := List.subset_cons_self k (v.strings ++ JsonTree.stringsMembers ms)
    have hk := h.quote (List.mem_cons_self ..)
    have hv := Alike.value (level + 1) v (h.mono (List.Subset.trans (List.subset_append_left _ _) hsub))
    have hms := Alike.members (level + 1) ms (h.mono (List.Subset.trans (List.subset_append_right _ _) hsub))
    simp only [Layout.value, hk, hv, hms, (h.blank _).1, (h.blank 0).2]

theorem Alike.items (level : ℕ) : ∀ vs : List JsonTree, Alike L M (JsonTree.stringsItems vs) →
    L.items level vs = M.items level vs
  | [], _ => rfl
  | v :: vs, h => by
    have hv := Alike.value level v (h.mono (List.subset_append_left _ _))
    have hvs := Alike.items level vs (h.mono (List.subset_append_right _ _))
    simp only [Layout.items, hv, hvs, (h.blank _).1]

theorem Alike.members (level : ℕ) :
    ∀ ms : List (List Char × JsonTree), Alike L M (JsonTree.stringsMembers ms) →
      L.members level ms = M.members level ms
  | [], _ => rfl
  | (k, v) :: ms, h => by
    have hsub := List.subset_cons_self k (v.strings ++ JsonTree.stringsMembers ms)
    have hk := h.quote (List.mem_cons_self ..)
    have hv := Alike.value level v (h.mono (List.Subset.trans (List.subset_append_left _ _) hsub))
    have hms := Alike.members level ms (h.mono (List.Subset.trans (List.subset_append_right _ _) hsub))
    simp only [Layout.members, hk, hv, hms, (h.blank _).1, (h.blank 0).2]

end

end Layout

end TdSandboxed.Lib
