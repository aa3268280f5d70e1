/-
TdSandboxed.Lib.PyJson — `json.dumps(_, indent=2)` of Python, and where it
agrees with Go's `encoding/json`.

Python escapes everything outside printable ASCII, Go nothing but the
controls, `<`, `>`, `&` and the two line separators. Python marks every
float as one, with `.0` if need be, and writes two digits of an exponent;
Go writes 24 for 24.0, and changes to an exponent elsewhere.

`goIndented_eq_pyIndented_iff` and `goNumber_eq_pyNumber_iff` say exactly
which strings and which floats come out the same.
-/
import TdSandboxed.Lib.GoJson
import TdSandboxed.Lib.LayoutTexts

namespace TdSandboxed.Lib

/-! ## Strings -/

/-- `py_encode_basestring_ascii`, one character. -/
def pyEscape (c : Char) : List Char :=
  match shortEscape c with
  | some e => ['\\', e]
  | none =>
    if ' ' ≤ c ∧ c ≤ '~' then [c]
    else if c.toNat < 0x10000 then unicodeEscape c.toNat
    else
      unicodeEscape (0xD800 + (c.toNat - 0x10000) / 0x400) ++
        unicodeEscape (0xDC00 + (c.toNat - 0x10000) % 0x400)

def pyIndented : Layout := { esc := pyEscape, indent := some 2 }

theorem readLowSurrogate_unicodeEscape {low : ℕ} (h : 0xDC00 ≤ low ∧ low < 0xE000) (rest : List Char) :
    readLowSurrogate (unicodeEscape low ++ rest) = some (low, rest) := by
  have hread : readLowSurrogate (unicodeEscape low ++ rest) =
      (readHex ((unicodeEscape low).drop 2 ++ rest)).filter
        fun p => 0xDC00 ≤ p.1 ∧ p.1 < 0xE000 := rfl
  rw [hread, readHex_unicodeEscape (by omega)]
  exact Option.filter_eq_some_iff.mpr ⟨rfl, decide_eq_true h⟩

/-- A surrogate pair is read as one character. -/
theorem readUnicode_pair {high low : ℕ} (hhigh : 0xD800 ≤ high ∧ high < 0xDC00)
    (hlow : 0xDC00 ≤ low ∧ low < 0xE000) (rest : List Char) :
    readUnicode ((unicodeEscape high).drop 2 ++ (unicodeEscape low ++ rest)) =
      some (Char.ofNat (0x10000 + (high - 0xD800) * 0x400 + (low - 0xDC00)), rest) := by
  rw [readUnicode, readHex_unicodeEscape (by omega), Option.map_some]
  dsimp only
  rw [if_pos hhigh, readLowSurrogate_unicodeEscape hlow]

/-- The halves of a character above U+FFFF. -/
theorem surrogate_bounds {n high low : ℕ} (hn : 0x10000 ≤ n ∧ n < 0x110000)
    (hhigh : high = 0xD800 + (n - 0x10000) / 0x400) (hlow : low = 0xDC00 + (n - 0x10000) % 0x400) :
    (0xD800 ≤ high ∧ high < 0xDC00) ∧ (0xDC00 ≤ low ∧ low < 0xE000) ∧
      0x10000 + (high - 0xD800) * 0x400 + (low - 0xDC00) = n := by
  omega

theorem readChar_surrogates {c : Char} (hc : 0x10000 ≤ c.toNat) (rest : List Char) :
    readChar (unicodeEscape (0xD800 + (c.toNat - 0x10000) / 0x400) ++
      (unicodeEscape (0xDC00 + (c.toNat - 0x10000) % 0x400) ++ rest)) = some (c, rest) := by
  have hlimit : c.toNat < 0x110000 := by
    rcases c.valid with h | h
    · exact h.trans (by decide)
    · exact h.2
  obtain ⟨hhigh, hlow, hvalue⟩ := surrogate_bounds ⟨hc, hlimit⟩ rfl rfl
  have hread := readUnicode_pair hhigh hlow rest
  rw [hvalue, Char.ofNat_toNat] at hread
  exact hread

theorem pyIndented_escapes : pyIndented.Escapes := by
  intro c rest
  show readChar (pyEscape c ++ rest) = some (c, rest)
  unfold pyEscape
  cases h : shortEscape c with
  | some e => exact readChar_shortEscape h rest
  | none =>
    dsimp only
    split_ifs with hplain hbmp
    · exact readChar_plain h (not_lt.mpr hplain.1) rest
    · exact readChar_unicodeEscape hbmp rest
    · rw [List.append_assoc]
      exact readChar_surrogates (not_lt.mp hbmp) rest

/-- The characters that both write alike. -/
def SharedChar (c : Char) : Prop :=
  (c ≤ '~' ∧ c ≠ '<' ∧ c ≠ '>' ∧ c ≠ '&') ∨ c = '\u2028' ∨ c = '\u2029'

instance : DecidablePred SharedChar := fun _ =>
  inferInstanceAs (Decidable (_ ∨ _))

theorem goEscape_eq_pyEscape {c : Char} (h : SharedChar c) : goEscape c = pyEscape c := by
  rcases h with ⟨htilde, hlt, hgt, hamp⟩ | rfl | rfl
  · have hsmall : c.toNat < 0x10000 := lt_of_le_of_lt (show c.toNat ≤ '~'.toNat from htilde) (by decide)
    have hhtml : htmlEscaped c = false := by
      have hsep : c ≠ '\u2028' := fun h => absurd (h ▸ htilde) (by decide)
      have hpar : c ≠ '\u2029' := fun h => absurd (h ▸ htilde) (by decide)
      simp [htmlEscaped, hlt, hgt, hamp, hsep, hpar]
    unfold goEscape pyEscape
    cases shortEscape c with
    | some e => rfl
    | none =>
      by_cases hcontrol : c < ' '
      · simp [hcontrol, hsmall, not_le.mpr hcontrol]
      · simp [hcontrol, hhtml, htilde, not_lt.mp hcontrol]
  · decide
  · decide

theorem digitChar_printable : ∀ n < 16, ' ' ≤ n.digitChar ∧ n.digitChar ≤ '~' ∧
    htmlEscaped n.digitChar = false := by decide

theorem unicodeEscape_printable (n : ℕ) :
    ∀ x ∈ unicodeEscape n, ' ' ≤ x ∧ x ≤ '~' ∧ htmlEscaped x = false := by
  have hdigit : ∀ m, ' ' ≤ (m % 16).digitChar ∧ (m % 16).digitChar ≤ '~' ∧
      htmlEscaped (m % 16).digitChar = false :=
    fun m => digitChar_printable _ (Nat.mod_lt m (by decide))
  have hends : ∀ x ∈ ['\\', 'u'], ' ' ≤ x ∧ x ≤ '~' ∧ htmlEscaped x = false :=
    forall_mem_of_all (by decide)
  intro x hx
  simp only [unicodeEscape, List.mem_cons, List.not_mem_nil, or_false] at hx
  rcases hx with rfl | rfl | rfl | rfl | rfl | rfl
  · exact hends _ (by decide)
  · exact hends _ (by decide)
  all_goals exact hdigit _

theorem shortEscape_printable {c e : Char} (h : shortEscape c = some e) :
    ∀ x ∈ ['\\', e], ' ' ≤ x ∧ x ≤ '~' ∧ htmlEscaped x = false := by
  unfold shortEscape at h
  split_ifs at h with hself
  · obtain rfl := Option.some.inj h
    rcases hself with rfl | rfl <;> exact forall_mem_of_all (by decide)
  all_goals
    obtain rfl := Option.some.inj h
    exact forall_mem_of_all (by decide)

/-- Python writes printable ASCII only. -/
theorem pyEscape_printable (c : Char) : ∀ x ∈ pyEscape c, ' ' ≤ x ∧ x ≤ '~' := by
  intro x hx
  unfold pyEscape at hx
  split at hx
  · rename_i e he
    have hprint := shortEscape_printable he x hx
    exact ⟨hprint.1, hprint.2.1⟩
  · split_ifs at hx with hplain hbmp
    · rw [List.mem_singleton.mp hx]
      exact hplain
    · have hprint := unicodeEscape_printable _ x hx
      exact ⟨hprint.1, hprint.2.1⟩
    · rcases List.mem_append.mp hx with hx | hx
      · have hprint := unicodeEscape_printable _ x hx
        exact ⟨hprint.1, hprint.2.1⟩
      · have hprint := unicodeEscape_printable _ x hx
        exact ⟨hprint.1, hprint.2.1⟩

/-- Go writes none of the characters that it escapes for HTML. -/
theorem goEscape_not_html (c : Char) : ∀ x ∈ goEscape c, htmlEscaped x = false := by
  intro x hx
  unfold goEscape at hx
  split at hx
  · rename_i e he
    exact (shortEscape_printable he x hx).2.2
  · split at hx
    · exact (unicodeEscape_printable _ x hx).2.2
    · rename_i hplain
      rw [List.mem_singleton.mp hx, ← Bool.not_eq_true]
      exact fun hhtml => hplain (.inr hhtml)

/-- A character that is not shared shows in one of the texts, in which the
other cannot have it. -/
theorem mem_escape_of_not_shared {c : Char} (h : ¬ SharedChar c) :
    (c ∈ goEscape c ∧ ¬ c ≤ '~') ∨ (c ∈ pyEscape c ∧ htmlEscaped c) := by
  have hseps : c ≠ '\u2028' ∧ c ≠ '\u2029' := not_or.mp (not_or.mp h).2
  by_cases htilde : c ≤ '~'
  · right
    have hhtml : c = '<' ∨ c = '>' ∨ c = '&' := by
      by_contra hno
      simp only [not_or] at hno
      exact h (.inl ⟨htilde, hno⟩)
    rcases hhtml with rfl | rfl | rfl <;> decide
  · left
    have hne : ∀ d : Char, d ≤ '~' → c ≠ d := fun d hd heq => htilde (heq ▸ hd)
    have hshort : shortEscape c = none := by
      have hquote := hne '"' (by decide)
      have hslash := hne '\\' (by decide)
      have hb := hne '\x08' (by decide)
      have hf := hne '\x0c' (by decide)
      have hn := hne '\n' (by decide)
      have hr := hne '\r' (by decide)
      have ht := hne '\t' (by decide)
      simp [shortEscape, hquote, hslash, hb, hf, hn, hr, ht]
    have hcontrol : ¬ c < ' ' := fun hlt => htilde (hlt.le.trans (by decide))
    have hhtml : htmlEscaped c = false := by
      simp [htmlEscaped, hne '<' (by decide), hne '>' (by decide), hne '&' (by decide), hseps.1,
        hseps.2]
    refine ⟨?_, htilde⟩
    simp [goEscape, hshort, hcontrol, hhtml]

theorem pyIndented_writes : pyIndented.Writes fun c => c ≤ '~' where
  digit := by
    intro c hc
    have hnine : c ≤ '9' := (Bool.and_eq_true _ _ ▸ hc : _ ∧ _).2 |> of_decide_eq_true
    exact hnine.trans (by decide)
  mark := forall_mem_of_all (by decide)
  esc := fun c x hx => (pyEscape_printable c x hx).2

theorem goIndented_writes : goIndented.Writes fun c => htmlEscaped c = false where
  digit := by
    intro c hc
    have hne : ∀ d : Char, d.isDigit = false → c ≠ d := by
      rintro d hd rfl
      rw [hc] at hd
      cases hd
    simp [htmlEscaped, hne]
  mark := forall_mem_of_all (by decide)
  esc := goEscape_not_html

/-- **The two texts of a value are the same exactly when its strings are of
shared characters.** -/
theorem goIndented_eq_pyIndented_iff {t : JsonTree} (ht : ∀ n ∈ t.numbers, n.Valid) :
    goIndented.value 0 t = pyIndented.value 0 t ↔ ∀ s ∈ t.strings, ∀ c ∈ s, SharedChar c := by
  constructor
  · intro h s hs c hc
    by_contra hshared
    rcases mem_escape_of_not_shared hshared with ⟨hgo, htilde⟩ | ⟨hpy, hhtml⟩
    · have hmem := Layout.mem_value (L := goIndented) 0 (List.mem_flatMap.mpr ⟨c, hc, hgo⟩) t hs
      rw [h] at hmem
      exact htilde (pyIndented_writes.value 0 t ht c hmem)
    · have hmem := Layout.mem_value (L := pyIndented) 0 (List.mem_flatMap.mpr ⟨c, hc, hpy⟩) t hs
      rw [← h] at hmem
      have hnot := goIndented_writes.value 0 t ht c hmem
      rw [hnot] at hhtml
      cases hhtml
  · intro h
    exact Layout.Alike.value 0 t ⟨rfl, fun s hs c hc => goEscape_eq_pyEscape (h s hs c hc)⟩

/-! ## Numbers -/

/-- Where the point stands: before the first digit for 0. -/
def decimalPoint (x : Float64) : ℤ :=
  (Nat.toDigits 10 (shortestDecimal x.magnitude).1).length + (shortestDecimal x.magnitude).2

/-- `float_repr` -/
def pyNumber (x : Float64) : JsonNumber :=
  let s := shortestDecimal x.magnitude
  if decimalPoint x ≤ -4 ∨ 16 < decimalPoint x then scientificNumber 2 x.negative s.1 s.2
  else
    let n := fixedNumber x.negative s.1 s.2
    { n with frac := some (n.frac.getD ['0']) }

theorem valid_pyNumber (x : Float64) : (pyNumber x).Valid := by
  unfold pyNumber
  dsimp only
  split
  · exact valid_scientificNumber ..
  · have hfixed := valid_fixedNumber x.negative (shortestDecimal x.magnitude).1
      (shortestDecimal x.magnitude).2
    refine ⟨hfixed.int, ?_, hfixed.exp⟩
    intro ds hds
    obtain rfl := Option.some.inj hds
    cases hfrac : (fixedNumber x.negative (shortestDecimal x.magnitude).1
        (shortestDecimal x.magnitude).2).frac with
    | none => exact ⟨List.cons_ne_nil _ _, forall_mem_of_all (by decide)⟩
    | some ds => exact hfixed.frac ds hfrac

/-- The floats that Go writes with an exponent. -/
def GoScientific (x : Float64) : Prop :=
  x.magnitude ≠ 0 ∧ (x.magnitude < millionth ∨ 10 ^ 21 ≤ x.magnitude)

/-- The floats that both write alike: with a point and no exponent, or with
an exponent of two digits or more. -/
def SharedFloat (x : Float64) : Prop :=
  (¬ GoScientific x ∧ ¬ (decimalPoint x ≤ -4 ∨ 16 < decimalPoint x) ∧
      (shortestDecimal x.magnitude).2 < 0) ∨
    (GoScientific x ∧ (decimalPoint x ≤ -4 ∨ 16 < decimalPoint x) ∧
      10 ≤ (decimalPoint x - 1).natAbs)

instance : DecidablePred GoScientific := fun _ =>
  inferInstanceAs (Decidable (_ ∧ _))

instance : DecidablePred SharedFloat := fun _ =>
  inferInstanceAs (Decidable (_ ∨ _))

theorem fixedNumber_exp (negative : Bool) (d : ℕ) (k : ℤ) : (fixedNumber negative d k).exp = none := by
  unfold fixedNumber
  split <;> rfl

theorem fixedNumber_frac (negative : Bool) (d : ℕ) (k : ℤ) :
    (fixedNumber negative d k).frac = none ↔ 0 ≤ k := by
  unfold fixedNumber
  split
  · rename_i hk
    exact iff_of_true rfl hk
  · rename_i hk
    exact iff_of_false (by simp) hk

theorem padZeros_one_eq_two {n : ℕ} :
    padZeros 1 (Nat.toDigits 10 n) = padZeros 2 (Nat.toDigits 10 n) ↔ 10 ≤ n := by
  have hpos : 0 < (Nat.toDigits 10 n).length := Nat.length_toDigits_pos
  have hlength : 2 ≤ (Nat.toDigits 10 n).length ↔ 10 ≤ n := by
    have hiff := Nat.length_toDigits_le_iff (b := 10) (n := n) (k := 1) (by decide) (by decide)
    rw [pow_one] at hiff
    omega
  rw [← hlength]
  constructor
  · intro h
    have hlen := congrArg List.length h
    simp only [padZeros, List.length_append, List.length_replicate] at hlen
    omega
  · intro h
    simp only [padZeros, Nat.sub_eq_zero_of_le h, Nat.sub_eq_zero_of_le hpos]

theorem scientificNumber_eq_iff (negative : Bool) (d : ℕ) (k : ℤ) :
    scientificNumber 1 negative d k = scientificNumber 2 negative d k ↔
      10 ≤ (((Nat.toDigits 10 d).length : ℤ) + k - 1).natAbs := by
  have hexponent : ((Nat.toDigits 10 d).length : ℤ) - 1 + k =
      ((Nat.toDigits 10 d).length : ℤ) + k - 1 := by omega
  simp only [scientificNumber, JsonNumber.mk.injEq, Option.some.injEq, Prod.mk.injEq, true_and,
    hexponent]
  exact padZeros_one_eq_two

/-- An exponent tells the scientific form from the fixed one, with or
without a fraction put on. -/
theorem scientificNumber_ne_fixedNumber (width : ℕ) (negative : Bool) (d : ℕ) (k : ℤ)
    (frac : Option (List Char)) :
    scientificNumber width negative d k ≠ { fixedNumber negative d k with frac } := by
  intro h
  have hexp : (scientificNumber width negative d k).exp = none := by
    rw [h, fixedNumber_exp]
  cases hexp

/-- **The floats whose two texts are the same.** -/
theorem goNumber_eq_pyNumber_iff (x : Float64) : goNumber x = pyNumber x ↔ SharedFloat x := by
  have hsplit : ∀ n : JsonNumber, n = { n with frac := some (n.frac.getD ['0']) } ↔ n.frac ≠ none := by
    rintro ⟨negative, int, frac, exp⟩
    cases frac <;> simp
  unfold goNumber pyNumber SharedFloat
  dsimp only
  by_cases hgo : GoScientific x
  · rw [if_pos (show x.magnitude ≠ 0 ∧ _ from hgo)]
    by_cases hpy : decimalPoint x ≤ -4 ∨ 16 < decimalPoint x
    · rw [if_pos hpy, scientificNumber_eq_iff]
      simp only [hgo, hpy, not_true_eq_false, false_and, true_and, false_or]
      rfl
    · rw [if_neg hpy]
      exact iff_of_false (scientificNumber_ne_fixedNumber _ _ _ _ _) (by simp [hgo, hpy])
  · rw [if_neg (show ¬ (x.magnitude ≠ 0 ∧ _) from hgo)]
    by_cases hpy : decimalPoint x ≤ -4 ∨ 16 < decimalPoint x
    · rw [if_pos hpy]
      exact iff_of_false (scientificNumber_ne_fixedNumber _ _ _ _ _).symm (by simp [hgo, hpy])
    · rw [if_neg hpy, hsplit, ne_eq, fixedNumber_frac, not_le]
      simp [hgo, hpy]

/-- The shortest decimal of the float nearest to `n` is `n`. -/
def SurvivesFloat64 (n : ℤ) : Prop :=
  let s := shortestDecimal ((roundFloat64 n.natAbs).getD 0)
  0 ≤ s.2 ∧ s.1 * 10 ^ s.2.toNat = n.natAbs

instance : DecidablePred SurvivesFloat64 := fun _ =>
  inferInstanceAs (Decidable (_ ∧ _))

theorem magnitude_intNumber (n : ℤ) : (intNumber n).magnitude = n.natAbs := by
  simp [intNumber, JsonNumber.magnitude, JsonNumber.digits, JsonNumber.exponent, decimalValue,
    Nat.ofDigitChars_ten_toDigits]

theorem toDigits_inj {m n : ℕ} : Nat.toDigits 10 m = Nat.toDigits 10 n ↔ m = n := by
  refine ⟨fun h => ?_, fun h => by rw [h]⟩
  rw [← Nat.ofDigitChars_ten_toDigits (n := m), h, Nat.ofDigitChars_ten_toDigits]

theorem millionth_le_one : millionth ≤ 1 := by decide +kernel

/-- The float that an integer of 64 bits is nearest to. -/
theorem roundFloat64_natAbs {n : ℤ} (hn : n.natAbs ≤ 2 ^ 63) :
    ∃ v, roundFloat64 n.natAbs = some v ∧ ¬ (v ≠ 0 ∧ (v < millionth ∨ 10 ^ 21 ≤ v)) := by
  rcases Nat.eq_zero_or_pos n.natAbs with hzero | hpos
  · refine ⟨0, ?_, fun h => h.1 rfl⟩
    rw [hzero, Nat.cast_zero]
    exact roundFloat64_of_multiple 0 (by simp) (by positivity)
  · obtain ⟨v, hv, hlow, hhigh⟩ := roundFloat64_natCast hpos hn
    refine ⟨v, hv, ?_⟩
    rintro ⟨-, hsmall | hlarge⟩
    · exact absurd (hsmall.trans_le millionth_le_one) (not_lt.mpr hlow)
    · exact absurd (hlarge.trans hhigh) (by norm_num)

/-- The float that an integer is read as. -/
theorem parseFloat_intNumber {n : ℤ} (hn : n.natAbs ≤ 2 ^ 63) :
    ∃ x, parseFloat (intNumber n) = some x ∧ x.negative = decide (n < 0) ∧
      x.magnitude = (roundFloat64 n.natAbs).getD 0 ∧ ¬ GoScientific x := by
  obtain ⟨v, hv, hfixed⟩ := roundFloat64_natAbs hn
  have hnonneg : (0 : ℚ) ≤ (n.natAbs : ℚ) := Nat.cast_nonneg _
  let x : Float64 :=
    ⟨decide (n < 0), v, roundFloat64_nonneg hnonneg hv, roundFloat64_idem hnonneg hv⟩
  have hx : roundFloat64 (intNumber n).magnitude = some x.magnitude := by
    rw [magnitude_intNumber, hv]
  exact ⟨x, Float64.ofRat_eq x (decimalValue_nonneg _ _) hx, rfl, by rw [hv, Option.getD_some], hfixed⟩

/-- **An integer comes through a float unchanged if the float's shortest
decimal is that integer.** -/
theorem goNumber_eq_intNumber_iff {n : ℤ} {x : Float64} (hn : n.natAbs ≤ 2 ^ 63)
    (hx : parseFloat (intNumber n) = some x) : goNumber x = intNumber n ↔ SurvivesFloat64 n := by
  obtain ⟨y, hy, hnegative, hmagnitude, hfixed⟩ := parseFloat_intNumber hn
  obtain rfl := Option.some.inj (hx.symm.trans hy)
  unfold goNumber SurvivesFloat64
  dsimp only
  rw [if_neg (show ¬ (x.magnitude ≠ 0 ∧ _) from hfixed), hnegative, hmagnitude]
  generalize shortestDecimal ((roundFloat64 n.natAbs).getD 0) = s
  unfold fixedNumber intNumber
  split
  · rename_i hk
    simp [hk, toDigits_inj]
  · rename_i hk
    simp [hk]

end TdSandboxed.Lib
