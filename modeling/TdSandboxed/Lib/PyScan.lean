/-
TdSandboxed.Lib.PyScan — `json.dumps(_, sort_keys=True)` on one line, and
`json.loads` with the exception it raises.

`PyValue` reads what it needs of a text and refuses the rest. Here every
text has its outcome: a value, a `ValueError` (`JSONDecodeError` is one, and
so is an integer with too many digits), or a `RecursionError`, raised at the
bracket that is nested too deep, whatever follows it.

The scanner runs on fuel, and `loads_fuel` shows that it never lacks any. A
lone half of a surrogate pair is read as U+FFFD.
-/
import TdSandboxed.Lib.JsonWeight
import TdSandboxed.Lib.KeyOrder
import TdSandboxed.Lib.OrderedDict

namespace TdSandboxed.Lib

/-- A `float`: the numbers of `Float64`, and the three constants that
`json` writes and reads beside them. -/
inductive PyFloat
  | finite (x : Float64)
  | infinity (negative : Bool)
  | nan

inductive PyObject
  | null
  | bool (b : Bool)
  | int (n : ℤ)
  | float (x : PyFloat)
  | str (s : List Char)
  | list (items : List PyObject)
  | dict (items : List (List Char × PyObject))

inductive LoadsError
  | valueError
  | recursionError
  deriving DecidableEq

namespace PyObject

/-! ## Writing -/

def quoted (s : List Char) : List Char := pyIndented.quote s

def floatText : PyFloat → List Char
  | .finite x => (pyNumber x).text
  | .infinity true => ['-', 'I', 'n', 'f', 'i', 'n', 'i', 't', 'y']
  | .infinity false => ['I', 'n', 'f', 'i', 'n', 'i', 't', 'y']
  | .nan => ['N', 'a', 'N']

mutual

def write : PyObject → List Char
  | .null => ['n', 'u', 'l', 'l']
  | .bool true => ['t', 'r', 'u', 'e']
  | .bool false => ['f', 'a', 'l', 's', 'e']
  | .int n => (intNumber n).text
  | .float x => floatText x
  | .str s => quoted s
  | .list [] => ['[', ']']
  | .list (v :: vs) => '[' :: (write v ++ (writeItems vs ++ [']']))
  | .dict [] => ['{', '}']
  | .dict ((k, v) :: ms) =>
    '{' :: (quoted k ++ (':' :: ' ' :: (write v ++ (writeMembers ms ++ ['}']))))

/-- The items after the first. -/
def writeItems : List PyObject → List Char
  | [] => []
  | v :: vs => ',' :: ' ' :: (write v ++ writeItems vs)

/-- The members after the first. -/
def writeMembers : List (List Char × PyObject) → List Char
  | [] => []
  | (k, v) :: ms => ',' :: ' ' :: (quoted k ++ (':' :: ' ' :: (write v ++ writeMembers ms)))

end

mutual

def sortKeys : PyObject → PyObject
  | .list vs => .list (sortItems vs)
  | .dict ms => .dict (sortMembers ms)
  | v => v

def sortItems : List PyObject → List PyObject
  | [] => []
  | v :: vs => v.sortKeys :: sortItems vs

def sortMembers : List (List Char × PyObject) → List (List Char × PyObject)
  | [] => []
  | (k, v) :: ms => insertSorted k v.sortKeys (sortMembers ms)

end

/-- `json.dumps(_, sort_keys=True)` -/
def dumps (v : PyObject) : List Char := v.sortKeys.write

/-! ## Reading -/

/-- `sys.get_int_max_str_digits()` -/
def maxStrDigits : ℕ := 4300

/-- `parse_int` or `parse_float`. A float out of range is infinite. -/
def ofNumber (n : JsonNumber) : Except LoadsError PyObject :=
  if n.frac = none ∧ n.exp = none then
    if n.int.length ≤ maxStrDigits then
      .ok (.int (if n.negative then -(n.digits : ℤ) else n.digits))
    else .error .valueError
  else
    match parseFloat n with
    | some x => .ok (.float (.finite x))
    | none => .ok (.float (.infinity n.negative))

def constants : List (List Char × PyObject) :=
  [(['n', 'u', 'l', 'l'], .null), (['t', 'r', 'u', 'e'], .bool true),
    (['f', 'a', 'l', 's', 'e'], .bool false), (floatText .nan, .float .nan),
    (floatText (.infinity false), .float (.infinity false)),
    (floatText (.infinity true), .float (.infinity true))]

/-- The constant that a text starts with. -/
def readConstant (cs : List Char) : Option (PyObject × List Char) :=
  constants.findSome? fun p => (expect p.1 cs).map fun rest => (p.2, rest)

/-- What a scanner that came to nothing raises. -/
def orDecodeError {α : Type} : Option α → Except LoadsError α
  | some a => .ok a
  | none => .error .valueError

def scanScalar (cs : List Char) : Except LoadsError (PyObject × List Char) :=
  match readConstant cs with
  | some p => .ok p
  | none => (orDecodeError (scanNumber cs)).bind fun p => (ofNumber p.1).map fun v => (v, p.2)

mutual

/-- `scan_once`: the value that a text starts with, and the rest of the
text. Each bracket takes one from the depth. -/
def scanOnce : ℕ → ℕ → List Char → Except LoadsError (PyObject × List Char)
  | 0, _, _ => .error .valueError
  | _ + 1, _, [] => .error .valueError
  | fuel + 1, depth, c :: cs =>
    if c = '"' then
      (orDecodeError (readString (cs.length + 1) cs)).map fun p => (.str p.1, p.2)
    else if c = '[' then
      match depth with
      | 0 => .error .recursionError
      | depth + 1 =>
        if (skipSpace cs).head? = some ']' then .ok (.list [], (skipSpace cs).tail)
        else (scanItems fuel depth (skipSpace cs)).map fun p => (.list p.1, p.2)
    else if c = '{' then
      match depth with
      | 0 => .error .recursionError
      | depth + 1 =>
        if (skipSpace cs).head? = some '}' then .ok (.dict [], (skipSpace cs).tail)
        else (scanMembers fuel depth [] (skipSpace cs)).map fun p => (.dict p.1, p.2)
    else scanScalar (c :: cs)

/-- The items of a list that has some, and its closing bracket. -/
def scanItems : ℕ → ℕ → List Char → Except LoadsError (List PyObject × List Char)
  | 0, _, _ => .error .valueError
  | fuel + 1, depth, cs =>
    (scanOnce fuel depth cs).bind fun p =>
      match skipSpace p.2 with
      | [] => .error .valueError
      | c :: cs =>
        if c = ',' then
          (scanItems fuel depth (skipSpace cs)).map fun q => (p.1 :: q.1, q.2)
        else if c = ']' then .ok ([p.1], cs)
        else .error .valueError

/-- The members of a dict that has some, put into those before, and its
closing brace. -/
def scanMembers : ℕ → ℕ → List (List Char × PyObject) → List Char →
    Except LoadsError (List (List Char × PyObject) × List Char)
  | 0, _, _, _ => .error .valueError
  | fuel + 1, depth, before, cs =>
    (orDecodeError (expect ['"'] cs)).bind fun cs =>
      (orDecodeError (readString (cs.length + 1) cs)).bind fun k =>
        (orDecodeError (expect [':'] (skipSpace k.2))).bind fun cs =>
          (scanOnce fuel depth (skipSpace cs)).bind fun p =>
            match skipSpace p.2 with
            | [] => .error .valueError
            | c :: cs =>
              if c = ',' then scanMembers fuel depth (setItem k.1 p.1 before) (skipSpace cs)
              else if c = '}' then .ok (setItem k.1 p.1 before, cs)
              else .error .valueError

end

/-- The fuel that a text of a length needs. -/
def fuelOf (n : ℕ) : ℕ := 2 * n + 1

def decode (fuel depth : ℕ) (cs : List Char) : Except LoadsError PyObject :=
  (scanOnce fuel depth (skipSpace cs)).bind fun p =>
    if skipSpace p.2 = [] then .ok p.1 else .error .valueError

/-- `json.loads`, where `depth` brackets may be nested. -/
def loads (depth : ℕ) (cs : List Char) : Except LoadsError PyObject :=
  decode (fuelOf cs.length) depth cs

/-! ## What is left of a text -/

theorem readEscape_suffix {cs : List Char} {p : Char × List Char} (h : readEscape cs = some p) :
    p.2 <:+ cs := by
  cases cs with
  | nil => cases h
  | cons e cs =>
    rw [readEscape] at h
    split at h
    · exact (readUnicode_suffix h).trans (List.suffix_cons e cs)
    · obtain ⟨c, -, rfl⟩ := Option.map_eq_some_iff.mp h
      exact List.suffix_cons e cs

theorem readChar_suffix {cs : List Char} {p : Char × List Char} (h : readChar cs = some p) :
    p.2 <:+ cs := by
  cases cs with
  | nil => cases h
  | cons c cs =>
    rw [readChar] at h
    split at h
    · exact (readEscape_suffix h).trans (List.suffix_cons c cs)
    · split at h
      · cases h
      · obtain rfl := Option.some.inj h
        exact List.suffix_cons c cs

theorem readString_shortens {fuel : ℕ} {cs : List Char} {p : List Char × List Char}
    (h : readString fuel cs = some p) : p.2.length < cs.length := by
  induction fuel generalizing cs p with
  | zero => cases h
  | succ fuel ih =>
    rw [readString] at h
    split at h
    · rename_i hhead
      obtain rfl := Option.some.inj h
      obtain ⟨tail, rfl⟩ := List.head?_eq_some_iff.mp hhead
      exact Nat.lt_succ_self _
    · obtain ⟨q, hq, h⟩ := Option.bind_eq_some_iff.mp h
      obtain ⟨r, hr, rfl⟩ := Option.map_eq_some_iff.mp h
      exact (ih hr).trans_le (readChar_suffix hq).length_le

theorem expect_length {word cs rest : List Char} (h : expect word cs = some rest) :
    cs.length = word.length + rest.length := by
  rw [expect_eq_some h, List.length_append]

theorem skipSpace_length_le (cs : List Char) : (skipSpace cs).length ≤ cs.length :=
  (skipSpace_suffix cs).length_le

theorem scanDigits_shortens {cs : List Char} {p : List Char × List Char}
    (h : scanDigits cs = some p) : p.2.length < cs.length := by
  unfold scanDigits at h
  dsimp only at h
  split at h
  · cases h
  · rename_i hne
    obtain rfl := Option.some.inj h
    have hlength := congrArg List.length (List.takeWhile_append_dropWhile (p := Char.isDigit) (l := cs))
    rw [List.length_append] at hlength
    have hpos := List.length_pos_of_ne_nil hne
    dsimp only
    omega

theorem scanInt_shortens {cs : List Char} {p : List Char × List Char} (h : scanInt cs = some p) :
    p.2.length < cs.length := by
  cases cs with
  | nil => cases h
  | cons c cs =>
    rw [scanInt] at h
    split at h
    · obtain rfl := Option.some.inj h
      exact Nat.lt_succ_self _
    · exact scanDigits_shortens h

theorem scanUnsigned_shortens {negative : Bool} {cs : List Char} {p : JsonNumber × List Char}
    (h : scanUnsigned negative cs = some p) : p.2.length < cs.length := by
  obtain ⟨i, hi, h⟩ := Option.bind_eq_some_iff.mp h
  obtain ⟨f, hf, h⟩ := Option.bind_eq_some_iff.mp h
  obtain ⟨e, he, rfl⟩ := Option.map_eq_some_iff.mp h
  exact ((scanExp_suffix he).trans (scanFrac_suffix hf)).length_le.trans_lt (scanInt_shortens hi)

theorem scanNumber_shortens {cs : List Char} {p : JsonNumber × List Char}
    (h : scanNumber cs = some p) : p.2.length < cs.length := by
  cases cs with
  | nil => cases h
  | cons c cs =>
    rw [scanNumber] at h
    split at h
    · exact (scanUnsigned_shortens h).trans (Nat.lt_succ_self _)
    · exact scanUnsigned_shortens h

theorem orDecodeError_eq_ok {α : Type} {o : Option α} {a : α} :
    orDecodeError o = .ok a ↔ o = some a := by
  cases o with
  | none => exact ⟨nofun, nofun⟩
  | some b => exact ⟨fun h => congrArg some (Except.ok.inj h), fun h => congrArg _ (Option.some.inj h)⟩

theorem readConstant_shortens {cs : List Char} {p : PyObject × List Char}
    (h : readConstant cs = some p) : p.2.length < cs.length := by
  obtain ⟨w, hw, h⟩ := List.exists_of_findSome?_eq_some h
  obtain ⟨rest, hrest, rfl⟩ := Option.map_eq_some_iff.mp h
  have hlength := expect_length hrest
  have hpos : ∀ w ∈ constants, 0 < w.1.length := by simp [constants, floatText]
  have := hpos w hw
  dsimp only
  omega

theorem scanScalar_shortens {cs : List Char} {p : PyObject × List Char}
    (h : scanScalar cs = .ok p) : p.2.length < cs.length := by
  rw [scanScalar] at h
  split at h
  · rename_i hconstant
    exact readConstant_shortens (Except.ok.inj h ▸ hconstant)
  · obtain ⟨n, hn, h⟩ := bind_eq_ok.mp h
    obtain ⟨v, -, rfl⟩ := map_eq_ok.mp h
    exact scanNumber_shortens (orDecodeError_eq_ok.mp hn)

/-- With this fuel, what is read is taken off the text. -/
structure Shortens (fuel : ℕ) : Prop where
  once : ∀ depth cs p, scanOnce fuel depth cs = .ok p → p.2.length < cs.length
  items : ∀ depth cs p, scanItems fuel depth cs = .ok p → p.2.length < cs.length
  members : ∀ depth before cs p, scanMembers fuel depth before cs = .ok p → p.2.length < cs.length

theorem shortens_once_succ {fuel : ℕ} (h : Shortens fuel) (depth : ℕ) (cs : List Char)
    (p : PyObject × List Char) (hp : scanOnce (fuel + 1) depth cs = .ok p) :
    p.2.length < cs.length := by
  cases cs with
  | nil => cases hp
  | cons c cs =>
    have hskip := skipSpace_length_le cs
    have htail : (skipSpace cs).tail.length ≤ (skipSpace cs).length := by
      rw [List.length_tail]
      exact Nat.sub_le _ _
    rw [List.length_cons]
    cases depth with
    | zero =>
      rw [scanOnce] at hp
      split at hp
      · obtain ⟨q, hq, rfl⟩ := map_eq_ok.mp hp
        have hlt := readString_shortens (orDecodeError_eq_ok.mp hq)
        dsimp only
        omega
      · split at hp
        · cases hp
        · split at hp
          · cases hp
          · exact scanScalar_shortens hp
    | succ depth =>
      rw [scanOnce] at hp
      split at hp
      · obtain ⟨q, hq, rfl⟩ := map_eq_ok.mp hp
        have hlt := readString_shortens (orDecodeError_eq_ok.mp hq)
        dsimp only
        omega
      · split at hp
        · split at hp
          · obtain rfl := Except.ok.inj hp
            dsimp only
            omega
          · obtain ⟨q, hq, rfl⟩ := map_eq_ok.mp hp
            have hlt := h.items _ _ _ hq
            dsimp only
            omega
        · split at hp
          · split at hp
            · obtain rfl := Except.ok.inj hp
              dsimp only
              omega
            · obtain ⟨q, hq, rfl⟩ := map_eq_ok.mp hp
              have hlt := h.members _ _ _ _ hq
              dsimp only
              omega
          · exact scanScalar_shortens hp

theorem shortens_items_succ {fuel : ℕ} (h : Shortens fuel) (depth : ℕ) (cs : List Char)
    (p : List PyObject × List Char) (hp : scanItems (fuel + 1) depth cs = .ok p) :
    p.2.length < cs.length := by
  rw [scanItems] at hp
  obtain ⟨q, hq, hp⟩ := bind_eq_ok.mp hp
  have hlt := h.once _ _ _ hq
  have hskip := skipSpace_length_le q.2
  cases hrest : skipSpace q.2 with
  | nil => simp only [hrest, reduceCtorEq] at hp
  | cons c rest =>
    rw [hrest, List.length_cons] at hskip
    simp only [hrest] at hp
    split at hp
    · obtain ⟨r, hr, rfl⟩ := map_eq_ok.mp hp
      have hlt' := h.items _ _ _ hr
      have hskip' := skipSpace_length_le rest
      dsimp only
      omega
    · split at hp
      · obtain rfl := Except.ok.inj hp
        dsimp only
        omega
      · cases hp

/-- The key of a member, and where its value starts. -/
theorem scanMembers_succ_eq_ok {fuel depth : ℕ} {before : List (List Char × PyObject)}
    {cs : List Char} {p : List (List Char × PyObject) × List Char}
    (hp : scanMembers (fuel + 1) depth before cs = .ok p) :
    ∃ k value v rest c after, value.length < cs.length ∧ scanOnce fuel depth value = .ok (v, rest) ∧
      skipSpace rest = c :: after ∧
      (scanMembers fuel depth (setItem k v before) (skipSpace after) = .ok p ∨
        p = (setItem k v before, after)) := by
  rw [scanMembers] at hp
  obtain ⟨key, hkey, hp⟩ := bind_eq_ok.mp hp
  obtain ⟨k, hk, hp⟩ := bind_eq_ok.mp hp
  obtain ⟨colon, hcolon, hp⟩ := bind_eq_ok.mp hp
  obtain ⟨v, hv, hp⟩ := bind_eq_ok.mp hp
  have hkey := expect_length (orDecodeError_eq_ok.mp hkey)
  have hk := readString_shortens (orDecodeError_eq_ok.mp hk)
  have hcolon := expect_length (orDecodeError_eq_ok.mp hcolon)
  have hskip := skipSpace_length_le k.2
  have hskip' := skipSpace_length_le colon
  cases hrest : skipSpace v.2 with
  | nil => simp only [hrest, reduceCtorEq] at hp
  | cons c after =>
    refine ⟨k.1, skipSpace colon, v.1, v.2, c, after, by omega, hv, hrest, ?_⟩
    simp only [hrest] at hp
    split at hp
    · exact .inl hp
    · split at hp
      · exact .inr (Except.ok.inj hp).symm
      · cases hp

theorem shortens (fuel : ℕ) : Shortens fuel := by
  induction fuel with
  | zero => exact ⟨nofun, nofun, nofun⟩
  | succ fuel ih =>
    refine ⟨shortens_once_succ ih, shortens_items_succ ih, ?_⟩
    intro depth before cs p hp
    obtain ⟨k, value, v, rest, c, after, hvalue, hv, hrest, hp⟩ := scanMembers_succ_eq_ok hp
    have hlt : rest.length < value.length := ih.once _ _ _ hv
    have hskip := skipSpace_length_le rest
    rw [hrest, List.length_cons] at hskip
    obtain hp | rfl := hp
    · have hlt' := ih.members _ _ _ _ hp
      have hskip' := skipSpace_length_le after
      omega
    · dsimp only
      omega

/-! ## Fuel -/

/-- On texts that this fuel is for, one more changes nothing. -/
structure Fueled (fuel : ℕ) : Prop where
  once : ∀ depth cs, 2 * cs.length + 1 ≤ fuel →
    scanOnce (fuel + 1) depth cs = scanOnce fuel depth cs
  items : ∀ depth cs, 2 * cs.length + 2 ≤ fuel →
    scanItems (fuel + 1) depth cs = scanItems fuel depth cs
  members : ∀ depth before cs, 2 * cs.length + 2 ≤ fuel →
    scanMembers (fuel + 1) depth before cs = scanMembers fuel depth before cs

theorem fueled_once_succ {fuel : ℕ} (h : Fueled fuel) (depth : ℕ) (cs : List Char)
    (hfuel : 2 * cs.length + 1 ≤ fuel + 1) :
    scanOnce (fuel + 1 + 1) depth cs = scanOnce (fuel + 1) depth cs := by
  cases cs with
  | nil => rfl
  | cons c cs =>
    have hskip := skipSpace_length_le cs
    rw [List.length_cons] at hfuel
    cases depth with
    | zero => rfl
    | succ depth =>
      rw [scanOnce, scanOnce, h.items depth (skipSpace cs) (by omega),
        h.members depth [] (skipSpace cs) (by omega)]

theorem fueled_items_succ {fuel : ℕ} (h : Fueled fuel) (depth : ℕ) (cs : List Char)
    (hfuel : 2 * cs.length + 2 ≤ fuel + 1) :
    scanItems (fuel + 1 + 1) depth cs = scanItems (fuel + 1) depth cs := by
  rw [scanItems, scanItems, h.once depth cs (by omega)]
  cases hp : scanOnce fuel depth cs with
  | error e => rfl
  | ok p =>
    have hlt := (shortens fuel).once _ _ _ hp
    have hskip := skipSpace_length_le p.2
    cases hrest : skipSpace p.2 with
    | nil => simp only [Except.bind, hrest]
    | cons c rest =>
      rw [hrest, List.length_cons] at hskip
      have hskip' := skipSpace_length_le rest
      simp only [Except.bind, hrest]
      rw [h.items depth (skipSpace rest) (by omega)]

theorem fueled_members_succ {fuel : ℕ} (h : Fueled fuel) (depth : ℕ)
    (before : List (List Char × PyObject)) (cs : List Char)
    (hfuel : 2 * cs.length + 2 ≤ fuel + 1) :
    scanMembers (fuel + 1 + 1) depth before cs = scanMembers (fuel + 1) depth before cs := by
  rw [scanMembers, scanMembers]
  cases hkey : orDecodeError (expect ['"'] cs) with
  | error e => rfl
  | ok key =>
    have hkey := expect_length (orDecodeError_eq_ok.mp hkey)
    simp only [Except.bind]
    cases hk : orDecodeError (readString (key.length + 1) key) with
    | error e => rfl
    | ok k =>
      have hk := readString_shortens (orDecodeError_eq_ok.mp hk)
      have hskip := skipSpace_length_le k.2
      simp only []
      cases hcolon : orDecodeError (expect [':'] (skipSpace k.2)) with
      | error e => rfl
      | ok colon =>
        have hcolon := expect_length (orDecodeError_eq_ok.mp hcolon)
        have hskip' := skipSpace_length_le colon
        simp only []
        rw [h.once depth (skipSpace colon) (by omega)]
        cases hp : scanOnce fuel depth (skipSpace colon) with
        | error e => rfl
        | ok p =>
          have hlt := (shortens fuel).once _ _ _ hp
          have hrestLe := skipSpace_length_le p.2
          simp only []
          cases hrest : skipSpace p.2 with
          | nil => rfl
          | cons c rest =>
            rw [hrest, List.length_cons] at hrestLe
            have hskip'' := skipSpace_length_le rest
            simp only []
            rw [h.members depth _ (skipSpace rest) (by omega)]

theorem fueled (fuel : ℕ) : Fueled fuel := by
  induction fuel with
  | zero =>
    refine ⟨?_, ?_, ?_⟩
    · intro depth cs hfuel
      omega
    · intro depth cs hfuel
      omega
    · intro depth before cs hfuel
      omega
  | succ fuel ih =>
    exact ⟨fueled_once_succ ih, fueled_items_succ ih, fueled_members_succ ih⟩

/-- **No text lacks fuel**: with more of it the outcome is the same. -/
theorem loads_fuel (depth : ℕ) (cs : List Char) (extra : ℕ) :
    decode (fuelOf cs.length + extra) depth cs = loads depth cs := by
  induction extra with
  | zero => rfl
  | succ extra ih =>
    have hskip := skipSpace_length_le cs
    rw [← ih, decode, decode, ← Nat.add_assoc, (fueled _).once]
    rw [fuelOf]
    omega

end PyObject

end TdSandboxed.Lib
