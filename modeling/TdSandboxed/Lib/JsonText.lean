/-
TdSandboxed.Lib.JsonText — the pieces that JSON printers are made of: the
escapes of a character, and the texts of integers and of decimals.
-/
import TdSandboxed.Lib.JsonLayout

namespace TdSandboxed.Lib

/-- A test of every element, for lists of characters: all characters are
too many to run through. -/
theorem forall_mem_of_all {l : List Char} {p : Char → Prop} [DecidablePred p]
    (h : l.all (fun c => decide (p c)) = true) : ∀ c ∈ l, p c := by
  simpa using h

/-! ## Escapes -/

/-- The letter that a backslash puts before, if the character has one. -/
def shortEscape (c : Char) : Option Char :=
  if c = '"' ∨ c = '\\' then some c
  else if c = '\x08' then some 'b'
  else if c = '\x0c' then some 'f'
  else if c = '\n' then some 'n'
  else if c = '\r' then some 'r'
  else if c = '\t' then some 't'
  else none

/-- `\u` and four hexadecimal digits. -/
def unicodeEscape (n : ℕ) : List Char :=
  ['\\', 'u', (n / 4096 % 16).digitChar, (n / 256 % 16).digitChar, (n / 16 % 16).digitChar,
    (n % 16).digitChar]

theorem hexValue_digitChar : ∀ n < 16, hexValue n.digitChar = some n := by decide

theorem readHex_unicodeEscape {n : ℕ} (hn : n < 0x10000) (rest : List Char) :
    readHex ((unicodeEscape n).drop 2 ++ rest) = some (n, rest) := by
  have hvalue : ∀ m, hexValue (m % 16).digitChar = some (m % 16) :=
    fun m => hexValue_digitChar _ (Nat.mod_lt m (by decide))
  simp only [unicodeEscape, List.drop_succ_cons, List.drop_zero, List.cons_append, List.nil_append,
    readHex, hvalue, Option.bind_some, Option.map_some]
  congr 2
  omega

/-- A character below U+10000 is read back from its number. -/
theorem readChar_unicodeEscape {c : Char} (hc : c.toNat < 0x10000) (rest : List Char) :
    readChar (unicodeEscape c.toNat ++ rest) = some (c, rest) := by
  have hread : readChar (unicodeEscape c.toNat ++ rest) =
      readUnicode ((unicodeEscape c.toNat).drop 2 ++ rest) := rfl
  have hvalid : c.toNat < 0xD800 ∨ 0xDFFF < c.toNat := by
    rcases c.valid with h | h
    · exact .inl h
    · exact .inr h.1
  rw [hread, readUnicode, readHex_unicodeEscape hc, Option.map_some]
  dsimp only
  rw [if_neg (by omega), if_neg (by omega), Char.ofNat_toNat]

theorem readChar_shortEscape {c e : Char} (h : shortEscape c = some e) (rest : List Char) :
    readChar ('\\' :: e :: rest) = some (c, rest) := by
  have hread : readChar ('\\' :: e :: rest) = readEscape (e :: rest) := rfl
  rw [hread]
  unfold shortEscape at h
  split_ifs at h with hself hb hf hn hr ht
  · obtain rfl := Option.some.inj h
    rcases hself with rfl | rfl <;> rfl
  all_goals
    obtain rfl := Option.some.inj h
    subst c
    rfl

/-- A character that needs no escape stands for itself. -/
theorem readChar_plain {c : Char} (h : shortEscape c = none) (hc : ¬ c < ' ') (rest : List Char) :
    readChar (c :: rest) = some (c, rest) := by
  unfold shortEscape at h
  split_ifs at h with hself
  obtain ⟨hquote, hslash⟩ := not_or.mp hself
  rw [readChar, if_neg hslash, if_neg (not_or.mpr ⟨hquote, hc⟩)]

/-! ## Digits -/

theorem isDigit_toDigits {n : ℕ} : ∀ c ∈ Nat.toDigits 10 n, c.isDigit :=
  fun _ hc => Nat.isDigit_of_mem_toDigits (by decide) (by decide) hc

/-- A positive number has no leading zero. -/
theorem toDigits_eq_cons {n : ℕ} (hn : 0 < n) : ∃ c cs, Nat.toDigits 10 n = c :: cs ∧ c ≠ '0' := by
  induction n using Nat.strong_induction_on with
  | _ n ih =>
    rw [Nat.toDigits_eq_if (by decide)]
    split
    · exact ⟨_, [], rfl, by simpa using Nat.ne_of_gt hn⟩
    · rename_i hle
      obtain ⟨c, cs, hcs, hc⟩ := ih (n / 10) (by omega) (by omega)
      exact ⟨c, cs ++ [(n % 10).digitChar], by rw [hcs, List.cons_append], hc⟩

theorem valid_toDigits (n : ℕ) :
    Nat.toDigits 10 n = ['0'] ∨
      ∃ c cs, Nat.toDigits 10 n = c :: cs ∧ c ≠ '0' ∧ ∀ d ∈ c :: cs, d.isDigit := by
  rcases Nat.eq_zero_or_pos n with rfl | hn
  · exact .inl (Nat.toDigits_zero 10)
  · obtain ⟨c, cs, hcs, hc⟩ := toDigits_eq_cons hn
    exact .inr ⟨c, cs, hcs, hc, hcs ▸ isDigit_toDigits⟩

def padZeros (width : ℕ) (ds : List Char) : List Char :=
  List.replicate (width - ds.length) '0' ++ ds

theorem isDigit_padZeros (width n : ℕ) : ∀ c ∈ padZeros width (Nat.toDigits 10 n), c.isDigit := by
  intro c hc
  rcases List.mem_append.mp hc with hc | hc
  · rw [List.eq_of_mem_replicate hc]
    rfl
  · exact isDigit_toDigits c hc

theorem padZeros_ne_nil (width n : ℕ) : padZeros width (Nat.toDigits 10 n) ≠ [] :=
  List.append_ne_nil_of_right_ne_nil _ Nat.toDigits_ne_nil

theorem ofDigitChars_padZeros (width n : ℕ) :
    Nat.ofDigitChars 10 (padZeros width (Nat.toDigits 10 n)) 0 = n := by
  rw [padZeros, Nat.ofDigitChars_append, Nat.ofDigitChars_replicate_zero, Nat.mul_zero,
    Nat.ofDigitChars_ten_toDigits]

theorem length_padZeros {width n : ℕ} (hn : n < 10 ^ width) (hwidth : 0 < width) :
    (padZeros width (Nat.toDigits 10 n)).length = width := by
  have hlen := (Nat.length_toDigits_le_iff (b := 10) (by decide) hwidth).mpr hn
  rw [padZeros, List.length_append, List.length_replicate]
  omega

/-! ## Numbers -/

def intNumber (n : ℤ) : JsonNumber := { negative := n < 0, int := Nat.toDigits 10 n.natAbs }

theorem valid_integer (negative : Bool) (n : ℕ) :
    JsonNumber.Valid { negative, int := Nat.toDigits 10 n } where
  int := valid_toDigits n
  frac := by
    intro ds hds
    cases hds
  exp := by
    intro e he
    cases he

theorem valid_intNumber (n : ℤ) : (intNumber n).Valid := valid_integer _ _

/-- The decimal `d * 10 ^ k` without an exponent. -/
def fixedNumber (negative : Bool) (d : ℕ) (k : ℤ) : JsonNumber :=
  if 0 ≤ k then { negative, int := Nat.toDigits 10 (d * 10 ^ k.toNat) }
  else
    { negative
      int := Nat.toDigits 10 (d / 10 ^ (-k).toNat)
      frac := some (padZeros (-k).toNat (Nat.toDigits 10 (d % 10 ^ (-k).toNat))) }

theorem valid_fixedNumber (negative : Bool) (d : ℕ) (k : ℤ) :
    (fixedNumber negative d k).Valid := by
  unfold fixedNumber
  split
  · exact valid_integer _ _
  · refine ⟨valid_toDigits _, ?_, ?_⟩
    · intro ds hds
      obtain rfl := Option.some.inj hds
      exact ⟨padZeros_ne_nil _ _, isDigit_padZeros _ _⟩
    · intro e he
      cases he

theorem magnitude_fixedNumber (negative : Bool) (d : ℕ) (k : ℤ) :
    (fixedNumber negative d k).magnitude = decimalValue d k := by
  unfold fixedNumber
  split
  · rename_i hk
    obtain ⟨j, rfl⟩ := Int.eq_ofNat_of_zero_le hk
    simp [JsonNumber.magnitude, JsonNumber.digits, JsonNumber.exponent, decimalValue,
      Nat.ofDigitChars_ten_toDigits]
  · rename_i hk
    obtain ⟨j, rfl⟩ : ∃ j : ℕ, k = -j := ⟨(-k).toNat, by omega⟩
    have hj : 0 < j := by omega
    have hlen := length_padZeros (Nat.mod_lt d (Nat.pow_pos (n := j) (by decide : 0 < 10))) hj
    have hdigits : Nat.ofDigitChars 10 (Nat.toDigits 10 (d / 10 ^ j) ++
        padZeros j (Nat.toDigits 10 (d % 10 ^ j))) 0 = d := by
      rw [Nat.ofDigitChars_append, Nat.ofDigitChars_ten_toDigits, Nat.ofDigitChars_eq_ofDigitChars_zero,
        hlen, ofDigitChars_padZeros]
      exact Nat.div_add_mod d (10 ^ j)
    simp [JsonNumber.magnitude, JsonNumber.digits, JsonNumber.exponent, hdigits, hlen]

/-- The decimal `d * 10 ^ k` with one digit before the point, and an exponent
of at least `width` digits. -/
def scientificNumber (width : ℕ) (negative : Bool) (d : ℕ) (k : ℤ) : JsonNumber :=
  let ds := Nat.toDigits 10 d
  let e := (ds.length : ℤ) - 1 + k
  { negative
    int := ds.take 1
    frac := if ds.drop 1 = [] then none else some (ds.drop 1)
    exp := some (e < 0, padZeros width (Nat.toDigits 10 e.natAbs)) }

theorem valid_scientificNumber (width : ℕ) (negative : Bool) (d : ℕ) (k : ℤ) :
    (scientificNumber width negative d k).Valid where
  int := by
    show (Nat.toDigits 10 d).take 1 = ['0'] ∨ _
    rcases valid_toDigits d with hzero | ⟨c, cs, hcs, hc, hds⟩
    · rw [hzero]
      exact .inl rfl
    · refine .inr ⟨c, [], by rw [scientificNumber, hcs]; rfl, hc, ?_⟩
      intro x hx
      rw [List.mem_singleton.mp hx]
      exact hds c (List.mem_cons_self ..)
  frac := by
    intro ds hds
    simp only [scientificNumber] at hds
    split at hds
    · cases hds
    · rename_i hne
      obtain rfl := Option.some.inj hds
      exact ⟨hne, fun c hc => isDigit_toDigits c (List.mem_of_mem_drop hc)⟩
  exp := by
    intro e he
    obtain rfl := Option.some.inj he
    exact ⟨padZeros_ne_nil _ _, isDigit_padZeros _ _⟩

theorem magnitude_scientificNumber (width : ℕ) (negative : Bool) (d : ℕ) (k : ℤ) :
    (scientificNumber width negative d k).magnitude = decimalValue d k := by
  have hpos : 0 < (Nat.toDigits 10 d).length := List.length_pos_of_ne_nil Nat.toDigits_ne_nil
  have hfrac : ((scientificNumber width negative d k).frac).getD [] = (Nat.toDigits 10 d).drop 1 := by
    simp only [scientificNumber]
    split
    · rename_i hnil
      rw [hnil]
      rfl
    · rfl
  have hdigits : (scientificNumber width negative d k).digits = d := by
    rw [JsonNumber.digits, hfrac]
    show Nat.ofDigitChars 10 ((Nat.toDigits 10 d).take 1 ++ _) 0 = d
    rw [List.take_append_drop, Nat.ofDigitChars_ten_toDigits]
  have hexponent : (scientificNumber width negative d k).exponent = k := by
    unfold JsonNumber.exponent
    rw [hfrac, List.length_drop]
    simp only [scientificNumber]
    by_cases hneg : ((Nat.toDigits 10 d).length : ℤ) - 1 + k < 0
    · simp only [hneg, decide_true, ofDigitChars_padZeros]
      omega
    · simp only [hneg, decide_false, ofDigitChars_padZeros]
      omega
  rw [JsonNumber.magnitude, hdigits, hexponent]

end TdSandboxed.Lib
