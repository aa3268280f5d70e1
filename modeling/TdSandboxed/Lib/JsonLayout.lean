/-
TdSandboxed.Lib.JsonLayout — JSON texts as a printer writes them, and that
the reader undoes any of them.

A `Layout` is what printers differ in: how a character of a string is
escaped, and whether the items stand on lines of their own. The reader
needs one thing of it, `Layout.Escapes`: one character is read back from
the text of one character, whatever follows.

`parse_layout` is exact in the depth: a tree that is nested deeper than the
reader allows is refused.
-/
import TdSandboxed.Lib.JsonSyntax

namespace TdSandboxed.Lib

/-! ## Numbers -/

/-- What may follow a number: nothing that would continue it. -/
def EndsNumber (rest : List Char) : Prop :=
  ∀ c ∈ rest.head?, c.isDigit = false ∧ c ≠ '.' ∧ c ≠ 'e' ∧ c ≠ 'E'

theorem endsNumber_nil : EndsNumber [] := by
  intro c hc
  cases hc

theorem endsNumber_cons {c : Char} {rest : List Char}
    (h : c.isDigit = false ∧ c ≠ '.' ∧ c ≠ 'e' ∧ c ≠ 'E') : EndsNumber (c :: rest) := by
  intro x hx
  obtain rfl := Option.some.inj hx
  exact h

theorem takeWhile_isDigit_append {ds rest : List Char} (hds : ∀ d ∈ ds, d.isDigit)
    (hrest : ∀ c ∈ rest.head?, c.isDigit = false) :
    (ds ++ rest).takeWhile Char.isDigit = ds ∧ (ds ++ rest).dropWhile Char.isDigit = rest := by
  have hstop : rest.takeWhile Char.isDigit = [] ∧ rest.dropWhile Char.isDigit = rest := by
    cases rest with
    | nil => exact ⟨rfl, rfl⟩
    | cons c rest =>
      have hc : c.isDigit = false := hrest c rfl
      simp [hc]
  rw [List.takeWhile_append_of_pos hds, List.dropWhile_append_of_pos hds, hstop.1, hstop.2,
    List.append_nil]
  exact ⟨rfl, rfl⟩

theorem scanDigits_append {ds rest : List Char} (hne : ds ≠ []) (hds : ∀ d ∈ ds, d.isDigit)
    (hrest : ∀ c ∈ rest.head?, c.isDigit = false) : scanDigits (ds ++ rest) = some (ds, rest) := by
  obtain ⟨htake, hdrop⟩ := takeWhile_isDigit_append hds hrest
  simp only [scanDigits, htake, hdrop, if_neg hne]

theorem scanInt_append {n : JsonNumber} (h : n.Valid) {rest : List Char}
    (hrest : ∀ c ∈ rest.head?, c.isDigit = false) : scanInt (n.int ++ rest) = some (n.int, rest) := by
  rcases h.int with hzero | ⟨c, cs, hint, hc, hds⟩
  · rw [hzero]
    rfl
  · rw [hint, List.cons_append, scanInt, if_neg hc]
    exact scanDigits_append (List.cons_ne_nil c cs) hds hrest

theorem scanFrac_append {n : JsonNumber} (h : n.Valid) {rest : List Char}
    (hrest : ∀ c ∈ rest.head?, c.isDigit = false ∧ c ≠ '.') :
    scanFrac (JsonNumber.fracText n.frac ++ rest) = some (n.frac, rest) := by
  have hfrac := h.frac
  cases hf : n.frac with
  | none =>
    cases rest with
    | nil => rfl
    | cons c rest => simp [JsonNumber.fracText, scanFrac, (hrest c rfl).2]
  | some ds =>
    obtain ⟨hne, hds⟩ := hfrac ds hf
    have hscan := scanDigits_append hne hds fun c hc => (hrest c hc).1
    simp [JsonNumber.fracText, scanFrac, hscan]

theorem scanExp_append {n : JsonNumber} (h : n.Valid) {rest : List Char} (hrest : EndsNumber rest) :
    scanExp (JsonNumber.expText n.exp ++ rest) = some (n.exp, rest) := by
  have hexp := h.exp
  cases he : n.exp with
  | none =>
    cases rest with
    | nil => rfl
    | cons c rest =>
      obtain ⟨-, -, hlower, hupper⟩ := hrest c rfl
      simp [JsonNumber.expText, scanExp, hlower, hupper]
  | some e =>
    obtain ⟨negative, ds⟩ := e
    obtain ⟨hne, hds⟩ := hexp _ he
    have hscan := scanDigits_append hne hds fun c hc => (hrest c hc).1
    cases negative <;> simp [JsonNumber.expText, scanExp, scanSign, hscan]

/-- What follows the integer digits does not continue them. -/
theorem head_fracText_append (f : Option (List Char)) {rest : List Char}
    (hrest : ∀ c ∈ rest.head?, c.isDigit = false) :
    ∀ c ∈ (JsonNumber.fracText f ++ rest).head?, c.isDigit = false := by
  cases f with
  | none => exact hrest
  | some ds =>
    intro c hc
    obtain rfl := Option.some.inj hc
    rfl

theorem head_expText_append (e : Option (Bool × List Char)) {rest : List Char}
    (hrest : EndsNumber rest) :
    ∀ c ∈ (JsonNumber.expText e ++ rest).head?, c.isDigit = false ∧ c ≠ '.' := by
  cases e with
  | none => exact fun c hc => ⟨(hrest c hc).1, (hrest c hc).2.1⟩
  | some e =>
    intro c hc
    obtain rfl := Option.some.inj hc
    decide

theorem scanUnsigned_append {n : JsonNumber} (h : n.Valid) {rest : List Char}
    (hrest : EndsNumber rest) :
    scanUnsigned n.negative
      (n.int ++ (JsonNumber.fracText n.frac ++ (JsonNumber.expText n.exp ++ rest))) =
        some (n, rest) := by
  have hexp := head_expText_append n.exp hrest
  have hfrac := head_fracText_append n.frac fun c hc => (hexp c hc).1
  simp only [scanUnsigned, scanInt_append h hfrac, scanFrac_append h hexp, scanExp_append h hrest,
    Option.bind_some, Option.map_some]

/-- The first character of a number's digits. -/
theorem head_int {n : JsonNumber} (h : n.Valid) : ∃ c cs, n.int = c :: cs ∧ c.isDigit := by
  rcases h.int with hzero | ⟨c, cs, hint, -, hds⟩
  · exact ⟨'0', [], hzero, rfl⟩
  · exact ⟨c, cs, hint, hds c (List.mem_cons_self ..)⟩

theorem head_text {n : JsonNumber} (h : n.Valid) :
    ∃ c cs, n.text = c :: cs ∧ (c = '-' ∨ c.isDigit) := by
  obtain ⟨c, cs, hint, hc⟩ := head_int h
  unfold JsonNumber.text
  cases n.negative with
  | true => exact ⟨'-', _, rfl, .inl rfl⟩
  | false =>
    rw [hint]
    exact ⟨c, _, rfl, .inr hc⟩

/-- A number is told from the other values by its first character. -/
theorem ne_of_head_text {c d : Char} (hc : c = '-' ∨ c.isDigit) (hminus : d ≠ '-')
    (hdigit : d.isDigit = false) : c ≠ d := by
  rintro rfl
  rcases hc with rfl | hc
  · exact hminus rfl
  · rw [hc] at hdigit
    cases hdigit

theorem isJsonSpace_head_text {c : Char} (hc : c = '-' ∨ c.isDigit) : isJsonSpace c = false := by
  simp [isJsonSpace, ne_of_head_text hc]

/-- **A number is read back from its text.** -/
theorem scanNumber_text {n : JsonNumber} (h : n.Valid) {rest : List Char}
    (hrest : EndsNumber rest) : scanNumber (n.text ++ rest) = some (n, rest) := by
  have hscan := scanUnsigned_append h hrest
  cases hneg : n.negative with
  | true =>
    rw [hneg] at hscan
    simpa [JsonNumber.text, hneg, scanNumber] using hscan
  | false =>
    obtain ⟨c, cs, hint, hc⟩ := head_int h
    have hminus : c ≠ '-' := by
      rintro rfl
      cases hc
    rw [hneg, hint] at hscan
    simpa [JsonNumber.text, hneg, hint, scanNumber, hminus] using hscan

/-! ## Layouts -/

structure Layout where
  esc : Char → List Char
  /-- The blanks of one level of indentation; `none` prints on one line. -/
  indent : Option ℕ

namespace Layout

variable (L : Layout)

def newline (level : ℕ) : List Char :=
  match L.indent with
  | none => []
  | some n => '\n' :: List.replicate (n * level) ' '

def colon : List Char :=
  match L.indent with
  | none => [':']
  | some _ => [':', ' ']

def quote (s : List Char) : List Char := '"' :: (s.flatMap L.esc ++ ['"'])

mutual

def value (level : ℕ) : JsonTree → List Char
  | .null => ['n', 'u', 'l', 'l']
  | .bool true => ['t', 'r', 'u', 'e']
  | .bool false => ['f', 'a', 'l', 's', 'e']
  | .number n => n.text
  | .string s => L.quote s
  | .array [] => ['[', ']']
  | .array (v :: vs) =>
    '[' :: (L.newline (level + 1) ++
      (value (level + 1) v ++ (items (level + 1) vs ++ (L.newline level ++ [']']))))
  | .object [] => ['{', '}']
  | .object ((k, v) :: ms) =>
    '{' :: (L.newline (level + 1) ++ (L.quote k ++ (L.colon ++
      (value (level + 1) v ++ (members (level + 1) ms ++ (L.newline level ++ ['}']))))))

/-- The items after the first. -/
def items (level : ℕ) : List JsonTree → List Char
  | [] => []
  | v :: vs => ',' :: (L.newline level ++ (value level v ++ items level vs))

/-- The members after the first. -/
def members (level : ℕ) : List (List Char × JsonTree) → List Char
  | [] => []
  | (k, v) :: ms =>
    ',' :: (L.newline level ++ (L.quote k ++ (L.colon ++ (value level v ++ members level ms))))

end

end Layout

mutual

def JsonTree.depth : JsonTree → ℕ
  | .null | .bool _ | .number _ | .string _ => 0
  | .array vs => depthItems vs + 1
  | .object ms => depthMembers ms + 1

def JsonTree.depthItems : List JsonTree → ℕ
  | [] => 0
  | v :: vs => max v.depth (depthItems vs)

def JsonTree.depthMembers : List (List Char × JsonTree) → ℕ
  | [] => 0
  | (_, v) :: ms => max v.depth (depthMembers ms)

end

mutual

/-- The numbers of a tree. -/
def JsonTree.numbers : JsonTree → List JsonNumber
  | .null | .bool _ | .string _ => []
  | .number n => [n]
  | .array vs => numbersItems vs
  | .object ms => numbersMembers ms

def JsonTree.numbersItems : List JsonTree → List JsonNumber
  | [] => []
  | v :: vs => v.numbers ++ numbersItems vs

def JsonTree.numbersMembers : List (List Char × JsonTree) → List JsonNumber
  | [] => []
  | (_, v) :: ms => v.numbers ++ numbersMembers ms

end

mutual

/-- The strings of a tree, keys included. -/
def JsonTree.strings : JsonTree → List (List Char)
  | .null | .bool _ | .number _ => []
  | .string s => [s]
  | .array vs => stringsItems vs
  | .object ms => stringsMembers ms

def JsonTree.stringsItems : List JsonTree → List (List Char)
  | [] => []
  | v :: vs => v.strings ++ stringsItems vs

def JsonTree.stringsMembers : List (List Char × JsonTree) → List (List Char)
  | [] => []
  | (k, v) :: ms => k :: (v.strings ++ stringsMembers ms)

end

/-! ## Reading strings -/

namespace Layout

variable {L : Layout}

/-- One character is read back from its text. -/
def Escapes (L : Layout) : Prop := ∀ c rest, readChar (L.esc c ++ rest) = some (c, rest)

theorem Escapes.esc_ne_nil (hL : L.Escapes) (c : Char) : L.esc c ≠ [] := by
  intro hnil
  have hread := hL c []
  rw [hnil] at hread
  cases hread

theorem Escapes.head_ne_quote (hL : L.Escapes) (c : Char) (rest : List Char) :
    (L.esc c ++ rest).head? ≠ some '"' := by
  intro hquote
  obtain ⟨tail, htail⟩ := List.head?_eq_some_iff.mp hquote
  have hread := hL c rest
  rw [htail] at hread
  cases hread

theorem Escapes.length_le (hL : L.Escapes) (s : List Char) :
    s.length ≤ (s.flatMap L.esc).length := by
  induction s with
  | nil => exact Nat.le_refl 0
  | cons c s ih =>
    have hpos : 0 < (L.esc c).length := List.length_pos_of_ne_nil (hL.esc_ne_nil c)
    rw [List.flatMap_cons, List.length_append, List.length_cons]
    omega

theorem readString_flatMap (hL : L.Escapes) (rest : List Char) (s : List Char) (fuel : ℕ)
    (hfuel : s.length < fuel) :
    readString fuel (s.flatMap L.esc ++ '"' :: rest) = some (s, rest) := by
  induction s generalizing fuel with
  | nil =>
    obtain ⟨fuel, rfl⟩ := Nat.exists_eq_succ_of_ne_zero (Nat.ne_of_gt hfuel)
    rfl
  | cons c s ih =>
    obtain ⟨fuel, rfl⟩ := Nat.exists_eq_succ_of_ne_zero (Nat.ne_zero_of_lt hfuel)
    have hs := ih fuel (Nat.lt_of_succ_lt_succ hfuel)
    rw [List.flatMap_cons, List.append_assoc, readString, if_neg (hL.head_ne_quote c _), hL,
      Option.bind_some, hs, Option.map_some]

/-- A string is read back from what follows its opening quote. -/
theorem readString_quote (hL : L.Escapes) (s rest : List Char) :
    readString ((s.flatMap L.esc ++ '"' :: rest).length + 1) (s.flatMap L.esc ++ '"' :: rest) =
      some (s, rest) := by
  apply readString_flatMap hL
  have hs := hL.length_le s
  rw [List.length_append]
  omega

theorem quote_append (s rest : List Char) :
    L.quote s ++ rest = '"' :: (s.flatMap L.esc ++ '"' :: rest) := by
  simp [quote]

/-! ## Blanks -/

theorem skipSpace_newline (level : ℕ) (cs : List Char) :
    skipSpace (L.newline level ++ cs) = skipSpace cs := by
  unfold newline
  cases L.indent with
  | none => rfl
  | some n =>
    have hblank : ∀ c ∈ '\n' :: List.replicate (n * level) ' ', isJsonSpace c := by
      intro c hc
      rcases List.mem_cons.mp hc with rfl | hc
      · rfl
      · rw [List.eq_of_mem_replicate hc]
        rfl
    exact List.dropWhile_append_of_pos hblank

theorem endsNumber_newline (level : ℕ) {cs : List Char} (hcs : EndsNumber cs) :
    EndsNumber (L.newline level ++ cs) := by
  unfold newline
  cases L.indent with
  | none => exact hcs
  | some n => exact endsNumber_cons (by decide)

theorem skipSpace_cons {c : Char} (hc : isJsonSpace c = false) (cs : List Char) :
    skipSpace (c :: cs) = c :: cs := by
  simp [skipSpace, hc]

/-- A value may stand after blanks. -/
theorem parseValue_skip (fuel depth : ℕ) {cs ds : List Char} (h : skipSpace cs = skipSpace ds) :
    parseValue fuel depth cs = parseValue fuel depth ds := by
  cases fuel with
  | zero => rfl
  | succ fuel => rw [parseValue, parseValue, h]

theorem skipSpace_colon (cs : List Char) :
    ∃ ds, skipSpace (L.colon ++ cs) = ':' :: ds ∧ skipSpace ds = skipSpace cs := by
  unfold colon
  cases L.indent with
  | none => exact ⟨cs, rfl, rfl⟩
  | some n => exact ⟨' ' :: cs, rfl, rfl⟩

/-! ## Reading values -/

/-- With this fuel, the texts of values are read back down to the depth. -/
def ReadsValue (L : Layout) (fuel : ℕ) : Prop :=
  ∀ (t : JsonTree) (level depth : ℕ) (rest : List Char), (∀ n ∈ t.numbers, n.Valid) →
    EndsNumber rest → 2 * (L.value level t).length ≤ fuel →
      parseValue fuel depth (L.value level t ++ rest) =
        if t.depth ≤ depth then some (t, rest) else none

def ReadsItems (L : Layout) (fuel : ℕ) : Prop :=
  ∀ (v : JsonTree) (vs : List JsonTree) (level depth : ℕ) (tail rest : List Char),
    (∀ n ∈ JsonTree.numbersItems (v :: vs), n.Valid) → EndsNumber tail →
      skipSpace tail = ']' :: rest →
        2 * ((L.value level v).length + (L.items level vs).length) < fuel →
          parseItems fuel depth
              (L.newline level ++ (L.value level v ++ (L.items level vs ++ tail))) =
            if JsonTree.depthItems (v :: vs) ≤ depth then some (v :: vs, rest) else none

def ReadsMembers (L : Layout) (fuel : ℕ) : Prop :=
  ∀ (k : List Char) (v : JsonTree) (ms : List (List Char × JsonTree)) (level depth : ℕ)
    (tail rest : List Char),
    (∀ n ∈ JsonTree.numbersMembers ((k, v) :: ms), n.Valid) → EndsNumber tail →
      skipSpace tail = '}' :: rest →
        2 * ((L.value level v).length + (L.members level ms).length) < fuel →
          parseMembers fuel depth
              (L.newline level ++ (L.quote k ++ (L.colon ++
                (L.value level v ++ (L.members level ms ++ tail))))) =
            if JsonTree.depthMembers ((k, v) :: ms) ≤ depth then some ((k, v) :: ms, rest) else none

theorem parseValue_string (hL : L.Escapes) (fuel depth : ℕ) (s rest : List Char) :
    parseValue (fuel + 1) depth (L.quote s ++ rest) = some (.string s, rest) := by
  rw [quote_append, parseValue, skipSpace_cons rfl]
  dsimp only
  rw [if_pos rfl, readString_quote hL, Option.map_some]

theorem parseValue_number (fuel depth : ℕ) {n : JsonNumber} (h : n.Valid) {rest : List Char}
    (hrest : EndsNumber rest) :
    parseValue (fuel + 1) depth (n.text ++ rest) = some (.number n, rest) := by
  have hscan := scanNumber_text h hrest
  obtain ⟨c, cs, htext, hc⟩ := head_text h
  rw [htext, List.cons_append] at hscan ⊢
  rw [parseValue, skipSpace_cons (isJsonSpace_head_text hc)]
  simp [ne_of_head_text hc, hscan]

theorem parseValue_array (fuel depth : ℕ) (cs : List Char) :
    parseValue (fuel + 1) depth ('[' :: cs) =
      match depth with
      | 0 => none
      | depth + 1 =>
        if (skipSpace cs).head? = some ']' then some (.array [], (skipSpace cs).tail)
        else (parseItems fuel depth cs).map fun p => (.array p.1, p.2) := by
  rw [parseValue, skipSpace_cons rfl]
  rfl

theorem parseValue_object (fuel depth : ℕ) (cs : List Char) :
    parseValue (fuel + 1) depth ('{' :: cs) =
      match depth with
      | 0 => none
      | depth + 1 =>
        if (skipSpace cs).head? = some '}' then some (.object [], (skipSpace cs).tail)
        else (parseMembers fuel depth cs).map fun p => (.object p.1, p.2) := by
  rw [parseValue, skipSpace_cons rfl]
  rfl

/-- The first character of a value. -/
theorem head_value (level : ℕ) (t : JsonTree) (ht : ∀ n ∈ t.numbers, n.Valid) :
    ∃ c cs, L.value level t = c :: cs ∧ isJsonSpace c = false ∧ c ≠ ']' := by
  match t with
  | .null => exact ⟨'n', _, rfl, by decide⟩
  | .bool true => exact ⟨'t', _, rfl, by decide⟩
  | .bool false => exact ⟨'f', _, rfl, by decide⟩
  | .string s => exact ⟨'"', _, rfl, by decide⟩
  | .array [] => exact ⟨'[', _, rfl, by decide⟩
  | .array (v :: vs) => exact ⟨'[', _, rfl, by decide⟩
  | .object [] => exact ⟨'{', _, rfl, by decide⟩
  | .object ((k, v) :: ms) => exact ⟨'{', _, rfl, by decide⟩
  | .number n =>
    obtain ⟨c, cs, htext, hc⟩ := head_text (ht n (List.mem_singleton.mpr rfl))
    exact ⟨c, cs, htext, isJsonSpace_head_text hc, ne_of_head_text hc (by decide) rfl⟩

/-- What follows the items of an array or the members of an object. -/
theorem tail_reads (level : ℕ) {c : Char} (hc : c = ']' ∨ c = '}') (rest : List Char) :
    EndsNumber (L.newline level ++ c :: rest) ∧
      skipSpace (L.newline level ++ c :: rest) = c :: rest := by
  rw [skipSpace_newline]
  rcases hc with rfl | rfl
  · exact ⟨endsNumber_newline level (endsNumber_cons (by decide)), skipSpace_cons rfl rest⟩
  · exact ⟨endsNumber_newline level (endsNumber_cons (by decide)), skipSpace_cons rfl rest⟩

theorem readsValue_succ (hL : L.Escapes) {fuel : ℕ} (hitems : ReadsItems L fuel)
    (hmembers : ReadsMembers L fuel) : ReadsValue L (fuel + 1) := by
  intro t level depth rest ht hrest hfuel
  match t with
  | .null => rfl
  | .bool true => rfl
  | .bool false => rfl
  | .string s =>
    rw [value, parseValue_string hL]
    rfl
  | .number n =>
    rw [value, parseValue_number fuel depth (ht n (List.mem_singleton.mpr rfl)) hrest]
    rfl
  | .array [] =>
    rw [value, List.cons_append, parseValue_array]
    cases depth <;> rfl
  | .object [] =>
    rw [value, List.cons_append, parseValue_object]
    cases depth <;> rfl
  | .array (v :: vs) =>
    simp only [value, List.cons_append, List.append_assoc, List.nil_append, List.length_cons,
      List.length_append] at hfuel ⊢
    rw [parseValue_array]
    cases depth with
    | zero => rfl
    | succ depth =>
      obtain ⟨htail, hskip⟩ := tail_reads (L := L) level (.inl rfl) rest
      obtain ⟨c, cs, hc, hspace, hclose⟩ :=
        head_value (L := L) (level + 1) v fun n hn => ht n (List.mem_append_left _ hn)
      have hne : (skipSpace (L.newline (level + 1) ++ (L.value (level + 1) v ++
          (L.items (level + 1) vs ++ (L.newline level ++ ']' :: rest))))).head? ≠ some ']' := by
        rw [skipSpace_newline, hc, List.cons_append, skipSpace_cons hspace]
        exact fun h => hclose (Option.some.inj h)
      dsimp only
      rw [if_neg hne, hitems v vs (level + 1) depth _ rest ht htail hskip (by omega)]
      simp only [JsonTree.depth, Nat.add_le_add_iff_right]
      split <;> rfl
  | .object ((k, v) :: ms) =>
    simp only [value, List.cons_append, List.append_assoc, List.nil_append, List.length_cons,
      List.length_append] at hfuel ⊢
    rw [parseValue_object]
    cases depth with
    | zero => rfl
    | succ depth =>
      obtain ⟨htail, hskip⟩ := tail_reads (L := L) level (.inr rfl) rest
      have hne : (skipSpace (L.newline (level + 1) ++ (L.quote k ++ (L.colon ++
          (L.value (level + 1) v ++ (L.members (level + 1) ms ++
            (L.newline level ++ '}' :: rest))))))).head? ≠ some '}' := by
        rw [skipSpace_newline, quote_append, skipSpace_cons rfl]
        exact fun h => nomatch Option.some.inj h
      dsimp only
      rw [if_neg hne, hmembers k v ms (level + 1) depth _ rest ht htail hskip (by omega)]
      simp only [JsonTree.depth, Nat.add_le_add_iff_right]
      split <;> rfl

/-- What follows an item or a member: a comma, or the end. -/
theorem endsNumber_items (level : ℕ) (vs : List JsonTree) {tail : List Char}
    (htail : EndsNumber tail) : EndsNumber (L.items level vs ++ tail) := by
  cases vs with
  | nil => exact htail
  | cons v vs => exact endsNumber_cons (by decide)

theorem endsNumber_members (level : ℕ) (ms : List (List Char × JsonTree)) {tail : List Char}
    (htail : EndsNumber tail) : EndsNumber (L.members level ms ++ tail) := by
  cases ms with
  | nil => exact htail
  | cons m ms => exact endsNumber_cons (by decide)

theorem readsItems_succ {fuel : ℕ} (hvalue : ReadsValue L fuel) (hitems : ReadsItems L fuel) :
    ReadsItems L (fuel + 1) := by
  intro v vs level depth tail rest hvs htail hskip hfuel
  have hv := hvalue v level depth (L.items level vs ++ tail)
    (fun n hn => hvs n (List.mem_append_left _ hn)) (endsNumber_items level vs htail) (by omega)
  rw [parseItems, parseValue_skip fuel depth (skipSpace_newline level _), hv]
  by_cases hdepth : v.depth ≤ depth
  · rw [if_pos hdepth, Option.bind_some]
    dsimp only
    cases vs with
    | nil =>
      simp only [items, List.nil_append, hskip]
      simp [JsonTree.depthItems, hdepth]
    | cons w ws =>
      simp only [items, List.cons_append, List.append_assoc, List.length_cons,
        List.length_append] at hfuel ⊢
      have hws := hitems w ws level depth tail rest
        (fun n hn => hvs n (List.mem_append_right _ hn)) htail hskip (by omega)
      rw [skipSpace_cons rfl]
      dsimp only
      rw [if_pos rfl, hws]
      simp only [JsonTree.depthItems, max_le_iff, hdepth, true_and]
      split <;> rfl
  · have hmax : ¬ JsonTree.depthItems (v :: vs) ≤ depth :=
      fun h => hdepth ((le_max_left _ _).trans h)
    rw [if_neg hdepth, if_neg hmax, Option.bind_none]

theorem readsMembers_succ (hL : L.Escapes) {fuel : ℕ} (hvalue : ReadsValue L fuel)
    (hmembers : ReadsMembers L fuel) : ReadsMembers L (fuel + 1) := by
  intro k v ms level depth tail rest hms htail hskip hfuel
  have hv := hvalue v level depth (L.members level ms ++ tail)
    (fun n hn => hms n (List.mem_append_left _ hn)) (endsNumber_members level ms htail) (by omega)
  obtain ⟨ds, hcolon, hds⟩ :=
    skipSpace_colon (L := L) (L.value level v ++ (L.members level ms ++ tail))
  have hquote : expect ['"'] (skipSpace (L.newline level ++ (L.quote k ++ (L.colon ++
      (L.value level v ++ (L.members level ms ++ tail)))))) =
        some (k.flatMap L.esc ++ '"' :: (L.colon ++ (L.value level v ++
          (L.members level ms ++ tail)))) := by
    rw [skipSpace_newline, quote_append, skipSpace_cons rfl]
    rfl
  have hread : expect [':'] (':' :: ds) = some ds := rfl
  rw [parseMembers, hquote, Option.bind_some, readString_quote hL, Option.bind_some, hcolon, hread,
    Option.bind_some, parseValue_skip fuel depth hds, hv]
  by_cases hdepth : v.depth ≤ depth
  · rw [if_pos hdepth, Option.bind_some]
    dsimp only
    cases ms with
    | nil =>
      simp only [members, List.nil_append, hskip]
      simp [JsonTree.depthMembers, hdepth]
    | cons m ms =>
      obtain ⟨l, w⟩ := m
      simp only [members, List.cons_append, List.append_assoc, List.length_cons,
        List.length_append] at hfuel ⊢
      have hws := hmembers l w ms level depth tail rest
        (fun n hn => hms n (List.mem_append_right _ hn)) htail hskip (by omega)
      rw [skipSpace_cons rfl]
      dsimp only
      rw [if_pos rfl, hws]
      simp only [JsonTree.depthMembers, max_le_iff, hdepth, true_and]
      split <;> rfl
  · have hmax : ¬ JsonTree.depthMembers ((k, v) :: ms) ≤ depth :=
      fun h => hdepth ((le_max_left _ _).trans h)
    rw [if_neg hdepth, if_neg hmax, Option.bind_none]

/-- With fuel for its text, any value is read. -/
theorem reads (hL : L.Escapes) (fuel : ℕ) :
    ReadsValue L fuel ∧ ReadsItems L fuel ∧ ReadsMembers L fuel := by
  induction fuel with
  | zero =>
    refine ⟨?_, ?_, ?_⟩
    · intro t level depth rest ht hrest hfuel
      obtain ⟨c, cs, hc, -⟩ := head_value (L := L) level t ht
      simp [hc] at hfuel
    · intro v vs level depth tail rest hvs htail hskip hfuel
      omega
    · intro k v ms level depth tail rest hms htail hskip hfuel
      omega
  | succ fuel ih =>
    obtain ⟨hvalue, hitems, hmembers⟩ := ih
    exact ⟨readsValue_succ hL hitems hmembers, readsItems_succ hvalue hitems,
      readsMembers_succ hL hvalue hmembers⟩

/-- **A printed tree is read back, exactly when it is not nested too deep.** -/
theorem parse_layout (hL : L.Escapes) (depth : ℕ) (t : JsonTree) (ht : ∀ n ∈ t.numbers, n.Valid) :
    parse depth (L.value 0 t) = if t.depth ≤ depth then some t else none := by
  have hread := (reads hL (2 * (L.value 0 t).length + 2)).1 t 0 depth [] ht endsNumber_nil (by omega)
  rw [List.append_nil] at hread
  rw [parse, hread]
  split <;> rfl

end Layout

end TdSandboxed.Lib
