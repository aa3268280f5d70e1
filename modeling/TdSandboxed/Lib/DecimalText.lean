/-
TdSandboxed.Lib.DecimalText — `decimal.Decimal` of a text, and `str` of a
`Decimal`.

A form is what the type may hold: a number as its sign, its digits and the
power of ten of the last one, an infinity, or a NaN with its payload. A
`PyDecimal` is a form within the bounds of the type. `read` takes any text:
blanks around it, underscores and the digits of any script count as they do
for Python, and a form out of bounds is refused as a text that is no number
is, with `InvalidOperation`.

`read_str` is the round trip. It needs nothing of Unicode beyond ASCII.
-/
import Mathlib.Data.List.DropRight
import Mathlib.Tactic.IntervalCases
import TdSandboxed.Lib.JsonLayout
import TdSandboxed.Lib.JsonText
import TdSandboxed.Lib.JsonWeight

namespace TdSandboxed.Lib

/-- What Python knows of a character. -/
structure UnicodeData where
  /-- The value of a decimal digit. -/
  decimal : Char → Option ℕ
  /-- `str.isspace` -/
  space : Char → Bool
  decimal_ascii : ∀ c, c ≤ '~' → decimal c = if c.isDigit then some (c.toNat - 48) else none
  space_ascii : ∀ c, ' ' < c → c ≤ '~' → space c = false

inductive DecimalForm
  | finite (negative : Bool) (coefficient : ℕ) (exponent : ℤ)
  | infinity (negative : Bool)
  | nan (negative signaling : Bool) (payload : ℕ)
  deriving DecidableEq

namespace DecimalForm

/-! ## Bounds -/

/-- `MAX_PREC`, which is `MAX_EMAX` too. -/
def maxPrec : ℕ := 999999999999999999

/-- `MIN_ETINY` -/
def minEtiny : ℤ := -1999999999999999997

/-- What the type can hold without rounding. -/
def InRange : DecimalForm → Prop
  | .finite _ coefficient exponent =>
    let digits := (Nat.toDigits 10 coefficient).length
    digits ≤ maxPrec ∧ minEtiny ≤ exponent ∧ exponent + digits - 1 ≤ maxPrec
  | .infinity _ => True
  | .nan _ _ payload => (Nat.toDigits 10 payload).length ≤ maxPrec

instance : DecidablePred InRange
  | .finite _ _ _ => inferInstanceAs (Decidable (_ ∧ _ ∧ _))
  | .infinity _ => inferInstanceAs (Decidable True)
  | .nan _ _ _ => inferInstanceAs (Decidable (_ ≤ _))

/-! ## Writing -/

def signText (negative : Bool) : List Char := if negative then ['-'] else []

/-- How many of the digits stand before the point. -/
def dotPlace (digits : ℕ) (exponent : ℤ) : ℤ :=
  if exponent ≤ 0 ∧ -6 < exponent + digits then exponent + digits else 1

def intPart (ds : List Char) (place : ℤ) : List Char :=
  if place ≤ 0 then ['0'] else ds.take place.toNat

def fracPart (ds : List Char) (place : ℤ) : List Char :=
  if place ≤ 0 then List.replicate (-place).toNat '0' ++ ds else ds.drop place.toNat

def fracText (frac : List Char) : List Char := if frac = [] then [] else '.' :: frac

/-- `"E%+d"`, where there is an exponent. -/
def expText (exp : ℤ) : List Char :=
  if exp = 0 then []
  else 'E' :: (if exp < 0 then '-' else '+') :: Nat.toDigits 10 exp.natAbs

/-- `str` -/
def str : DecimalForm → List Char
  | .finite negative coefficient exponent =>
    let ds := Nat.toDigits 10 coefficient
    let place := dotPlace ds.length exponent
    signText negative ++ (intPart ds place ++
      (fracText (fracPart ds place) ++ expText (exponent + ds.length - place)))
  | .infinity negative => signText negative ++ ['I', 'n', 'f', 'i', 'n', 'i', 't', 'y']
  | .nan negative signaling payload =>
    signText negative ++ ((if signaling then ['s'] else []) ++ ('N' :: 'a' :: 'N' ::
      (if payload = 0 then [] else Nat.toDigits 10 payload)))

/-! ## Reading -/

/-- The text without the blanks around it and without underscores, its
digits written in ASCII. -/
def numericAsAscii (unicode : UnicodeData) (cs : List Char) : List Char :=
  (((cs.dropWhile unicode.space).rdropWhile unicode.space).filter (· ≠ '_')).map fun c =>
    match unicode.decimal c with
    | some d => d.digitChar
    | none => c

/-- The exponent that a text ends with. -/
def readExponent : List Char → Option ℤ
  | [] => some 0
  | c :: cs =>
    if c = 'e' ∨ c = 'E' then
      let ds := (scanSign cs).2
      if ds ≠ [] ∧ ds.all Char.isDigit then
        some (if (scanSign cs).1 then -(Nat.ofDigitChars 10 ds 0 : ℤ) else Nat.ofDigitChars 10 ds 0)
      else none
    else none

/-- The digits after a point, and what follows them. -/
def readFraction : List Char → List Char × List Char
  | [] => ([], [])
  | c :: cs =>
    if c = '.' then (cs.takeWhile Char.isDigit, cs.dropWhile Char.isDigit) else ([], c :: cs)

def readNumber (negative : Bool) (cs : List Char) : Option DecimalForm :=
  let int := cs.takeWhile Char.isDigit
  let frac := (readFraction (cs.dropWhile Char.isDigit)).1
  if int ++ frac = [] then none
  else (readExponent (readFraction (cs.dropWhile Char.isDigit)).2).map fun exp =>
    .finite negative (Nat.ofDigitChars 10 (int ++ frac) 0) (exp - frac.length)

def readNaN (negative signaling : Bool) (ds : List Char) : Option DecimalForm :=
  if ds.all Char.isDigit then some (.nan negative signaling (Nat.ofDigitChars 10 ds 0)) else none

/-- The words, in either case. -/
def readSpecial (negative : Bool) (cs : List Char) : Option DecimalForm :=
  let lower := cs.map Char.toLower
  if lower = ['i', 'n', 'f'] ∨ lower = ['i', 'n', 'f', 'i', 'n', 'i', 't', 'y'] then
    some (.infinity negative)
  else
    match expect ['n', 'a', 'n'] lower with
    | some ds => readNaN negative false ds
    | none => (expect ['s', 'n', 'a', 'n'] lower).bind (readNaN negative true)

def parse (cs : List Char) : Option DecimalForm :=
  match readNumber (scanSign cs).1 (scanSign cs).2 with
  | some d => some d
  | none => readSpecial (scanSign cs).1 (scanSign cs).2

end DecimalForm

/-- `decimal.Decimal` -/
def PyDecimal : Type := { d : DecimalForm // d.InRange }

namespace PyDecimal

instance : DecidableEq PyDecimal := inferInstanceAs (DecidableEq { d : DecimalForm // d.InRange })

def str (d : PyDecimal) : List Char := d.1.str

/-- `Decimal(text)`; `none` is `InvalidOperation`. -/
def read (unicode : UnicodeData) (cs : List Char) : Option PyDecimal :=
  (DecimalForm.parse (DecimalForm.numericAsAscii unicode cs)).bind fun d =>
    if h : d.InRange then some ⟨d, h⟩ else none

end PyDecimal

/-! ## Texts that stay as they are -/

/-- A character of ASCII that is no blank, no underscore and no slash. -/
def PlainChar (c : Char) : Prop := ' ' < c ∧ c ≤ '~' ∧ c ≠ '_' ∧ c ≠ '/'

instance : DecidablePred PlainChar := fun _ => inferInstanceAs (Decidable (_ ∧ _ ∧ _))

theorem eq_digitChar_of_isDigit {c : Char} (h : c.isDigit) : ∃ n < 10, c = n.digitChar := by
  have hbounds : 48 ≤ c.toNat ∧ c.toNat ≤ 57 := by
    simpa [Char.isDigit, Char.le_def, UInt32.le_iff_toNat_le] using h
  obtain ⟨hlow, hhigh⟩ := hbounds
  refine ⟨c.toNat - 48, by omega, ?_⟩
  have hc : c = Char.ofNat c.toNat := (Char.ofNat_toNat c).symm
  generalize c.toNat = n at hlow hhigh hc
  rw [hc]
  interval_cases n <;> rfl

theorem digitChar_of_isDigit {c : Char} (h : c.isDigit) : (c.toNat - 48).digitChar = c := by
  have hall : ∀ n < 10, (n.digitChar.toNat - 48).digitChar = n.digitChar := by decide
  obtain ⟨n, hn, rfl⟩ := eq_digitChar_of_isDigit h
  exact hall n hn

theorem plainChar_of_isDigit {c : Char} (h : c.isDigit) : PlainChar c := by
  have hall : ∀ n < 10, PlainChar n.digitChar := by decide
  obtain ⟨n, hn, rfl⟩ := eq_digitChar_of_isDigit h
  exact hall n hn

theorem toLower_of_isDigit {c : Char} (h : c.isDigit) : c.toLower = c := by
  have hall : ∀ n < 10, n.digitChar.toLower = n.digitChar := by decide
  obtain ⟨n, hn, rfl⟩ := eq_digitChar_of_isDigit h
  exact hall n hn

namespace DecimalForm

theorem numericAsAscii_of_plain (unicode : UnicodeData) {cs : List Char}
    (h : ∀ c ∈ cs, PlainChar c) : numericAsAscii unicode cs = cs := by
  have hspace : ∀ c ∈ cs, unicode.space c = false := by
    intro c hc
    exact unicode.space_ascii c (h c hc).1 (h c hc).2.1
  have hleft : cs.dropWhile unicode.space = cs := by
    cases cs with
    | nil => rfl
    | cons c cs => rw [List.dropWhile_cons, hspace c List.mem_cons_self]; rfl
  have hright : cs.rdropWhile unicode.space = cs := by
    rw [List.rdropWhile_eq_self_iff]
    intro hne
    rw [hspace _ (List.getLast_mem hne)]
    exact Bool.false_ne_true
  have hfilter : cs.filter (· ≠ '_') = cs := by
    rw [List.filter_eq_self]
    intro c hc
    exact decide_eq_true (h c hc).2.2.1
  have hdigit : ∀ c ∈ cs, (match unicode.decimal c with
      | some d => d.digitChar
      | none => c) = c := by
    intro c hc
    rw [unicode.decimal_ascii c (h c hc).2.1]
    by_cases hd : c.isDigit
    · rw [if_pos hd]
      exact digitChar_of_isDigit hd
    · rw [if_neg hd]
  rw [numericAsAscii, hleft, hright, hfilter]
  exact (List.map_congr_left hdigit).trans (List.map_id cs)

/-! ## Numbers -/

theorem expText_cases (exp : ℤ) :
    expText exp = [] ∧ exp = 0 ∨
      ∃ (negative : Bool) (n : ℕ), expText exp =
          'E' :: (if negative then '-' else '+') :: Nat.toDigits 10 n ∧
        exp = if negative then -(n : ℤ) else n := by
  unfold expText
  by_cases hzero : exp = 0
  · exact .inl ⟨if_pos hzero, hzero⟩
  · refine .inr ⟨exp < 0, exp.natAbs, ?_, ?_⟩
    · rw [if_neg hzero]
      simp
    · simp only [decide_eq_true_eq]
      split <;> omega

/-- Neither a point nor an exponent continues the digits before it. -/
theorem head_expText (exp : ℤ) : ∀ c ∈ (expText exp).head?, c.isDigit = false := by
  intro c hc
  obtain ⟨hnil, -⟩ | ⟨negative, n, htext, -⟩ := expText_cases exp
  · rw [hnil] at hc
    cases hc
  · rw [htext] at hc
    obtain rfl := Option.some.inj hc
    rfl

theorem head_fracText_expText (frac : List Char) (exp : ℤ) :
    ∀ c ∈ (fracText frac ++ expText exp).head?, c.isDigit = false := by
  unfold fracText
  by_cases hnil : frac = []
  · rw [if_pos hnil]
    exact head_expText exp
  · rw [if_neg hnil]
    intro c hc
    obtain rfl := Option.some.inj hc
    rfl

theorem readExponent_expText (exp : ℤ) : readExponent (expText exp) = some exp := by
  obtain ⟨hnil, rfl⟩ | ⟨negative, n, htext, rfl⟩ := expText_cases exp
  · rw [hnil]
    rfl
  · have hall : (Nat.toDigits 10 n).all Char.isDigit := List.all_eq_true.mpr isDigit_toDigits
    have hvalue := Nat.ofDigitChars_ten_toDigits (n := n)
    rw [htext, readExponent, if_pos (.inr rfl)]
    cases negative <;> simp [scanSign, Nat.toDigits_ne_nil, hall, hvalue]

theorem readFraction_fracText {frac : List Char} (hfrac : ∀ d ∈ frac, d.isDigit) (exp : ℤ) :
    readFraction (fracText frac ++ expText exp) = (frac, expText exp) := by
  unfold fracText
  by_cases hnil : frac = []
  · rw [if_pos hnil, hnil, List.nil_append]
    obtain ⟨hexp, -⟩ | ⟨negative, n, htext, -⟩ := expText_cases exp
    · rw [hexp]
      rfl
    · rw [htext]
      rfl
  · obtain ⟨htake, hdrop⟩ := takeWhile_isDigit_append hfrac (head_expText exp)
    rw [if_neg hnil, List.cons_append, readFraction, if_pos rfl, htake, hdrop]

/-- A number is read back from its parts. -/
theorem readNumber_parts (negative : Bool) {int frac : List Char} (hint : ∀ d ∈ int, d.isDigit)
    (hfrac : ∀ d ∈ frac, d.isDigit) (hne : int ++ frac ≠ []) (exp : ℤ) :
    readNumber negative (int ++ (fracText frac ++ expText exp)) =
      some (.finite negative (Nat.ofDigitChars 10 (int ++ frac) 0) (exp - frac.length)) := by
  obtain ⟨htake, hdrop⟩ := takeWhile_isDigit_append hint (head_fracText_expText frac exp)
  rw [readNumber, htake, hdrop, readFraction_fracText hfrac, if_neg hne, readExponent_expText]
  rfl

section
variable {ds : List Char} {exponent : ℤ}

/-- The digits around the point are those of the coefficient, after zeros. -/
theorem intPart_append_fracPart (ds : List Char) (place : ℤ) :
    intPart ds place ++ fracPart ds place = ds ∨
      ∃ n, intPart ds place ++ fracPart ds place = List.replicate n '0' ++ ds := by
  unfold intPart fracPart
  by_cases hplace : place ≤ 0
  · rw [if_pos hplace, if_pos hplace]
    exact .inr ⟨(-place).toNat + 1, rfl⟩
  · rw [if_neg hplace, if_neg hplace]
    exact .inl (List.take_append_drop _ _)

theorem isDigit_intPart (hds : ∀ d ∈ ds, d.isDigit) (place : ℤ) :
    ∀ d ∈ intPart ds place, d.isDigit := by
  intro d hd
  unfold intPart at hd
  split at hd
  · rw [List.mem_singleton.mp hd]
    rfl
  · exact hds d (List.mem_of_mem_take hd)

theorem isDigit_fracPart (hds : ∀ d ∈ ds, d.isDigit) (place : ℤ) :
    ∀ d ∈ fracPart ds place, d.isDigit := by
  intro d hd
  unfold fracPart at hd
  split at hd
  · obtain hd | hd := List.mem_append.mp hd
    · rw [List.eq_of_mem_replicate hd]
      rfl
    · exact hds d hd
  · exact hds d (List.mem_of_mem_drop hd)

/-- The exponent of the last digit, from where the point stands. -/
theorem exponent_parts (hne : ds ≠ []) (exponent : ℤ) :
    exponent + ds.length - dotPlace ds.length exponent -
      (fracPart ds (dotPlace ds.length exponent)).length = exponent := by
  have hpos := List.length_pos_of_ne_nil hne
  unfold dotPlace fracPart
  split_ifs with hfixed hplace hplace
  · rw [List.length_append, List.length_replicate]
    omega
  · rw [List.length_drop]
    omega
  · omega
  · rw [List.length_drop]
    omega

end

/-- A number is read back from its text. -/
theorem readNumber_str (negative : Bool) (coefficient : ℕ) (exponent : ℤ) :
    let ds := Nat.toDigits 10 coefficient
    let place := dotPlace ds.length exponent
    readNumber negative (intPart ds place ++
        (fracText (fracPart ds place) ++ expText (exponent + ds.length - place))) =
      some (.finite negative coefficient exponent) := by
  intro ds place
  have hds : ∀ d ∈ ds, d.isDigit := isDigit_toDigits
  have hvalue : Nat.ofDigitChars 10 (intPart ds place ++ fracPart ds place) 0 = coefficient := by
    obtain heq | ⟨n, heq⟩ := intPart_append_fracPart ds place
    · rw [heq]
      exact Nat.ofDigitChars_ten_toDigits
    · rw [heq, Nat.ofDigitChars_append, Nat.ofDigitChars_replicate_zero, Nat.mul_zero]
      exact Nat.ofDigitChars_ten_toDigits
  have hne : intPart ds place ++ fracPart ds place ≠ [] := by
    have hdsne : ds ≠ [] := Nat.toDigits_ne_nil
    obtain heq | ⟨n, heq⟩ := intPart_append_fracPart ds place
    · rwa [heq]
    · rw [heq]
      exact List.append_ne_nil_of_right_ne_nil _ hdsne
  rw [readNumber_parts negative (isDigit_intPart hds place) (isDigit_fracPart hds place) hne, hvalue,
    exponent_parts Nat.toDigits_ne_nil]

/-! ## Whole texts -/

theorem intPart_ne_nil {ds : List Char} (hds : ds ≠ []) (place : ℤ) : intPart ds place ≠ [] := by
  have hpos := List.length_pos_of_ne_nil hds
  unfold intPart
  split
  · exact List.cons_ne_nil _ _
  · refine List.ne_nil_of_length_pos ?_
    rw [List.length_take]
    omega

/-- The sign of a text whose rest does not begin with one. -/
theorem scanSign_signText (negative : Bool) {body : List Char}
    (h : ∀ c ∈ body.head?, c ≠ '-' ∧ c ≠ '+') : scanSign (signText negative ++ body) = (negative, body) := by
  cases negative with
  | true => rfl
  | false =>
    cases body with
    | nil => rfl
    | cons c cs =>
      obtain ⟨hminus, hplus⟩ := h c rfl
      simp [signText, scanSign, hminus, hplus]

theorem head_intPart {ds : List Char} (hds : ds ≠ []) (hdigits : ∀ d ∈ ds, d.isDigit) (place : ℤ)
    (rest : List Char) : ∀ c ∈ (intPart ds place ++ rest).head?, c ≠ '-' ∧ c ≠ '+' := by
  intro c hc
  obtain ⟨d, cs, hcons⟩ := List.exists_cons_of_ne_nil (intPart_ne_nil hds place)
  have hd := isDigit_intPart hdigits place d (hcons ▸ List.mem_cons_self)
  rw [hcons] at hc
  obtain rfl := Option.some.inj hc
  constructor
  · rintro rfl
    cases hd
  · rintro rfl
    cases hd

/-- No word begins as a number does. -/
theorem readNumber_word (negative : Bool) {c : Char} (hc : c.isDigit = false ∧ c ≠ '.')
    (cs : List Char) : readNumber negative (c :: cs) = none := by
  obtain ⟨hdigit, hpoint⟩ := hc
  simp [readNumber, readFraction, hdigit, hpoint]

theorem parse_word (negative : Bool) {c : Char}
    (hc : (c.isDigit = false ∧ c ≠ '.') ∧ c ≠ '-' ∧ c ≠ '+') (cs : List Char) :
    parse (signText negative ++ c :: cs) = readSpecial negative (c :: cs) := by
  obtain ⟨hword, hsign⟩ := hc
  have hhead : ∀ d ∈ (c :: cs).head?, d ≠ '-' ∧ d ≠ '+' := by
    intro d hd
    obtain rfl := Option.some.inj hd
    exact hsign
  have hscan := scanSign_signText negative hhead
  rw [parse, hscan, readNumber_word negative hword]

theorem readNaN_payload (negative signaling : Bool) (payload : ℕ) :
    readNaN negative signaling (if payload = 0 then [] else Nat.toDigits 10 payload) =
      some (.nan negative signaling payload) := by
  by_cases hzero : payload = 0
  · rw [if_pos hzero, hzero]
    rfl
  · have hall : (Nat.toDigits 10 payload).all Char.isDigit := List.all_eq_true.mpr isDigit_toDigits
    rw [if_neg hzero, readNaN, if_pos hall, Nat.ofDigitChars_ten_toDigits]

theorem map_toLower_payload (payload : ℕ) :
    (if payload = 0 then [] else Nat.toDigits 10 payload).map Char.toLower =
      if payload = 0 then [] else Nat.toDigits 10 payload := by
  by_cases hzero : payload = 0
  · rw [if_pos hzero]
    rfl
  · rw [if_neg hzero]
    exact (List.map_congr_left fun c hc => toLower_of_isDigit (isDigit_toDigits c hc)).trans
      (List.map_id _)

theorem readSpecial_nan (negative : Bool) (ds : List Char) :
    readSpecial negative ('N' :: 'a' :: 'N' :: ds) = readNaN negative false (ds.map Char.toLower) := by
  have hlower : ('N' :: 'a' :: 'N' :: ds).map Char.toLower =
      'n' :: 'a' :: 'n' :: ds.map Char.toLower := rfl
  rw [readSpecial, hlower]
  simp [expect]

theorem readSpecial_snan (negative : Bool) (ds : List Char) :
    readSpecial negative ('s' :: 'N' :: 'a' :: 'N' :: ds) =
      readNaN negative true (ds.map Char.toLower) := by
  have hlower : ('s' :: 'N' :: 'a' :: 'N' :: ds).map Char.toLower =
      's' :: 'n' :: 'a' :: 'n' :: ds.map Char.toLower := rfl
  rw [readSpecial, hlower]
  simp [expect]

theorem parse_str (d : DecimalForm) : parse d.str = some d := by
  cases d with
  | finite negative coefficient exponent =>
    have hscan := scanSign_signText negative (head_intPart (Nat.toDigits_ne_nil (n := coefficient)
      (b := 10)) isDigit_toDigits (dotPlace (Nat.toDigits 10 coefficient).length exponent)
      (fracText (fracPart (Nat.toDigits 10 coefficient)
        (dotPlace (Nat.toDigits 10 coefficient).length exponent)) ++
        expText (exponent + (Nat.toDigits 10 coefficient).length -
          dotPlace (Nat.toDigits 10 coefficient).length exponent)))
    have hread := readNumber_str negative coefficient exponent
    simp only at hread
    rw [str, parse, hscan, hread]
  | infinity negative => exact parse_word negative (by decide) _
  | nan negative signaling payload =>
    cases signaling with
    | true =>
      refine (parse_word negative (c := 's') (by decide) _).trans ?_
      exact (readSpecial_snan ..).trans (by rw [map_toLower_payload, readNaN_payload])
    | false =>
      refine (parse_word negative (c := 'N') (by decide) _).trans ?_
      exact (readSpecial_nan ..).trans (by rw [map_toLower_payload, readNaN_payload])

theorem plainChar_str (d : DecimalForm) : ∀ c ∈ d.str, PlainChar c := by
  have hdigits : ∀ {ds : List Char}, (∀ d ∈ ds, d.isDigit) → ∀ c ∈ ds, PlainChar c := by
    intro ds hds c hc
    exact plainChar_of_isDigit (hds c hc)
  have hsign : ∀ (negative : Bool), ∀ c ∈ signText negative, PlainChar c := by
    intro negative
    cases negative <;> exact forall_mem_of_all (by decide)
  intro c hc
  cases d with
  | infinity negative =>
    obtain hc | hc := List.mem_append.mp hc
    · exact hsign negative c hc
    · exact forall_mem_of_all (l := ['I', 'n', 'f', 'i', 'n', 'i', 't', 'y']) (by decide) c hc
  | nan negative signaling payload =>
    obtain hc | hc := List.mem_append.mp hc
    · exact hsign negative c hc
    · obtain hc | hc := List.mem_append.mp hc
      · cases signaling with
        | true => rw [List.mem_singleton.mp hc]; decide
        | false => cases hc
      · simp only [List.mem_cons] at hc
        obtain rfl | rfl | rfl | hc := hc
        · decide
        · decide
        · decide
        · split at hc
          · cases hc
          · exact hdigits isDigit_toDigits c hc
  | finite negative coefficient exponent =>
    rw [str] at hc
    simp only [List.mem_append] at hc
    obtain hc | hc | hc | hc := hc
    · exact hsign negative c hc
    · exact hdigits (isDigit_intPart isDigit_toDigits _) c hc
    · unfold fracText at hc
      split at hc
      · cases hc
      · obtain rfl | hc := List.mem_cons.mp hc
        · decide
        · exact hdigits (isDigit_fracPart isDigit_toDigits _) c hc
    · obtain ⟨hnil, -⟩ | ⟨minus, n, htext, -⟩ := expText_cases (exponent +
        (Nat.toDigits 10 coefficient).length - dotPlace (Nat.toDigits 10 coefficient).length exponent)
      · rw [hnil] at hc
        cases hc
      · rw [htext] at hc
        simp only [List.mem_cons] at hc
        obtain rfl | rfl | hc := hc
        · decide
        · cases minus <;> decide
        · exact hdigits isDigit_toDigits c hc

end DecimalForm

/-- **A decimal is read back from its text**, with its sign, its digits and
its exponent. -/
theorem PyDecimal.read_str (unicode : UnicodeData) (d : PyDecimal) :
    read unicode d.str = some d := by
  rw [read, str, DecimalForm.numericAsAscii_of_plain unicode (DecimalForm.plainChar_str d.1),
    DecimalForm.parse_str, Option.bind_some, dif_pos d.2]
  rfl

end TdSandboxed.Lib
