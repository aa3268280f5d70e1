/-
TdSandboxed.Lib.PyRoundTrip — `json.loads` undoes `json.dumps`.

The scanner reads each text back that was written (`loads_write`), whatever
follows it, by one induction on the fuel. `dumps` writes the keys of a dict
in order, so a value comes back with its keys in order, which is the same
dict, and is dumped alike from then on (`dumps_sortKeys`).
-/
import TdSandboxed.Lib.PyScan

namespace TdSandboxed.Lib

namespace PyObject

/-! ## Reading back what was written -/

mutual

/-- A value that fits into a nesting: its integers may be written, and no
dict has a key twice. -/
def Fits : ℕ → PyObject → Prop
  | _, .null | _, .bool _ | _, .float _ | _, .str _ => True
  | _, .int n => (intNumber n).int.length ≤ maxStrDigits
  | 0, .list _ | 0, .dict _ => False
  | depth + 1, .list vs => FitsItems depth vs
  | depth + 1, .dict ms => (ms.map Prod.fst).Nodup ∧ FitsMembers depth ms

def FitsItems : ℕ → List PyObject → Prop
  | _, [] => True
  | depth, v :: vs => Fits depth v ∧ FitsItems depth vs

def FitsMembers : ℕ → List (List Char × PyObject) → Prop
  | _, [] => True
  | depth, (_, v) :: ms => Fits depth v ∧ FitsMembers depth ms

end

theorem scanOnce_scalar (fuel depth : ℕ) {c : Char} (hc : c ≠ '"' ∧ c ≠ '[' ∧ c ≠ '{')
    (cs : List Char) : scanOnce (fuel + 1) depth (c :: cs) = scanScalar (c :: cs) := by
  obtain ⟨hquote, hlist, hdict⟩ := hc
  cases depth <;> simp [scanOnce, hquote, hlist, hdict]

theorem scanScalar_constant {w : List Char × PyObject} (hw : w ∈ constants) (rest : List Char) :
    scanScalar (w.1 ++ rest) = .ok (w.2, rest) := by
  have hread : readConstant (w.1 ++ rest) = some (w.2, rest) := by
    simp only [constants, List.mem_cons, List.not_mem_nil, or_false] at hw
    obtain rfl | rfl | rfl | rfl | rfl | rfl := hw <;>
      simp [readConstant, constants, floatText, expect]
  rw [scanScalar, hread]

/-- A number is no constant. -/
theorem readConstant_number {n : JsonNumber} (h : n.Valid) (rest : List Char) :
    readConstant (n.text ++ rest) = none := by
  obtain ⟨d, ds, hint, hd⟩ := head_int h
  have hne : ∀ c : Char, c.isDigit = false → ¬c = d := by
    intro c hc heq
    rw [heq, hd] at hc
    cases hc
  unfold JsonNumber.text
  rw [hint]
  cases n.negative <;>
    simp [readConstant, constants, floatText, expect, hne 'n', hne 't', hne 'f', hne 'N', hne 'I',
      hne '-']

theorem scanScalar_number {n : JsonNumber} (h : n.Valid) {rest : List Char}
    (hrest : EndsNumber rest) {v : PyObject} (hv : ofNumber n = .ok v) :
    scanScalar (n.text ++ rest) = .ok (v, rest) := by
  rw [scanScalar, readConstant_number h]
  dsimp only
  rw [scanNumber_text h hrest]
  simp [orDecodeError, Except.bind, Except.map, hv]

theorem ofNumber_int {n : ℤ} (h : (intNumber n).int.length ≤ maxStrDigits) :
    ofNumber (intNumber n) = .ok (.int n) := by
  have hvalue : (if n < 0 then -(n.natAbs : ℤ) else n.natAbs) = n := by
    split <;> omega
  have hdigits : (intNumber n).digits = n.natAbs := by
    simp [intNumber, JsonNumber.digits, Nat.ofDigitChars_ten_toDigits]
  rw [ofNumber, if_pos ⟨rfl, rfl⟩, if_pos h, hdigits]
  simp only [intNumber, decide_eq_true_eq]
  rw [hvalue]

theorem ofNumber_float (x : Float64) : ofNumber (pyNumber x) = .ok (.float (.finite x)) := by
  rw [ofNumber, if_neg (PyValue.pyNumber_marked x), PyValue.parseFloat_pyNumber]

/-- With this fuel, the texts of values are read back. -/
structure Reads (fuel : ℕ) : Prop where
  once : ∀ v depth rest, Fits depth v → EndsNumber rest → 2 * v.write.length ≤ fuel →
    scanOnce fuel depth (v.write ++ rest) = .ok (v, rest)
  items : ∀ v vs depth rest, FitsItems depth (v :: vs) →
    2 * (v.write.length + (writeItems vs).length) < fuel →
    scanItems fuel depth (v.write ++ (writeItems vs ++ ']' :: rest)) = .ok (v :: vs, rest)
  members : ∀ k v ms depth before rest, FitsMembers depth ((k, v) :: ms) →
    ((before ++ (k, v) :: ms).map Prod.fst).Nodup →
    2 * (v.write.length + (writeMembers ms).length) < fuel →
    scanMembers fuel depth before
        (quoted k ++ (':' :: ' ' :: (v.write ++ (writeMembers ms ++ '}' :: rest)))) =
      .ok (before ++ (k, v) :: ms, rest)

/-- The first character of a value. -/
theorem head_write (v : PyObject) : ∃ c cs, v.write = c :: cs ∧ isJsonSpace c = false ∧ c ≠ ']' := by
  have hnumber : ∀ n : JsonNumber, n.Valid →
      ∃ c cs, n.text = c :: cs ∧ isJsonSpace c = false ∧ c ≠ ']' := by
    intro n hn
    obtain ⟨c, cs, htext, hc⟩ := head_text hn
    exact ⟨c, cs, htext, isJsonSpace_head_text hc, ne_of_head_text hc (by decide) rfl⟩
  match v with
  | .null => exact ⟨'n', _, rfl, by decide⟩
  | .bool true => exact ⟨'t', _, rfl, by decide⟩
  | .bool false => exact ⟨'f', _, rfl, by decide⟩
  | .int n => exact hnumber _ (valid_intNumber n)
  | .float (.finite x) => exact hnumber _ (valid_pyNumber x)
  | .float (.infinity true) => exact ⟨'-', _, rfl, by decide⟩
  | .float (.infinity false) => exact ⟨'I', _, rfl, by decide⟩
  | .float .nan => exact ⟨'N', _, rfl, by decide⟩
  | .str s => exact ⟨'"', _, rfl, by decide⟩
  | .list [] | .list (_ :: _) => exact ⟨'[', _, rfl, by decide⟩
  | .dict [] | .dict ((_, _) :: _) => exact ⟨'{', _, rfl, by decide⟩

theorem skipSpace_write (v : PyObject) (rest : List Char) :
    skipSpace (v.write ++ rest) = v.write ++ rest ∧ (v.write ++ rest).head? ≠ some ']' := by
  obtain ⟨c, cs, hc, hspace, hclose⟩ := head_write v
  rw [hc, List.cons_append]
  exact ⟨Layout.skipSpace_cons hspace _, fun h => hclose (Option.some.inj h)⟩

theorem quoted_append (s rest : List Char) :
    quoted s ++ rest = '"' :: (s.flatMap pyIndented.esc ++ '"' :: rest) :=
  Layout.quote_append s rest

theorem skipSpace_quoted (s rest : List Char) :
    skipSpace (quoted s ++ rest) = quoted s ++ rest := by
  rw [quoted_append]
  exact Layout.skipSpace_cons rfl _

theorem readString_quoted (s rest : List Char) :
    readString ((s.flatMap pyIndented.esc ++ '"' :: rest).length + 1)
      (s.flatMap pyIndented.esc ++ '"' :: rest) = some (s, rest) :=
  Layout.readString_quote pyIndented_escapes s rest

theorem scanOnce_number (fuel depth : ℕ) {n : JsonNumber} (h : n.Valid) {rest : List Char}
    (hrest : EndsNumber rest) {v : PyObject} (hv : ofNumber n = .ok v) :
    scanOnce (fuel + 1) depth (n.text ++ rest) = .ok (v, rest) := by
  have hscan := scanScalar_number h hrest hv
  obtain ⟨c, cs, htext, hc⟩ := head_text h
  rw [htext, List.cons_append] at hscan ⊢
  rw [scanOnce_scalar fuel depth ⟨ne_of_head_text hc (by decide) rfl,
    ne_of_head_text hc (by decide) rfl, ne_of_head_text hc (by decide) rfl⟩, hscan]

theorem reads_once_succ {fuel : ℕ} (h : Reads fuel) (v : PyObject) (depth : ℕ) (rest : List Char)
    (hv : Fits depth v) (hrest : EndsNumber rest) (hfuel : 2 * v.write.length ≤ fuel + 1) :
    scanOnce (fuel + 1) depth (v.write ++ rest) = .ok (v, rest) := by
  cases v with
  | null =>
    exact (scanOnce_scalar fuel depth (by decide) _).trans
      (scanScalar_constant (w := (['n', 'u', 'l', 'l'], .null)) (by simp [constants]) rest)
  | bool b =>
    cases b with
    | true =>
      exact (scanOnce_scalar fuel depth (by decide) _).trans
        (scanScalar_constant (w := (['t', 'r', 'u', 'e'], .bool true)) (by simp [constants]) rest)
    | false =>
      exact (scanOnce_scalar fuel depth (by decide) _).trans
        (scanScalar_constant (w := (['f', 'a', 'l', 's', 'e'], .bool false)) (by simp [constants])
          rest)
  | int n => exact scanOnce_number fuel depth (valid_intNumber n) hrest (ofNumber_int hv)
  | float x =>
    cases x with
    | finite x =>
      exact scanOnce_number fuel depth (valid_pyNumber x) hrest (ofNumber_float x)
    | infinity negative =>
      cases negative with
      | true =>
        exact (scanOnce_scalar fuel depth (by decide) _).trans
          (scanScalar_constant (w := (floatText (.infinity true), .float (.infinity true)))
            (by simp [constants]) rest)
      | false =>
        exact (scanOnce_scalar fuel depth (by decide) _).trans
          (scanScalar_constant (w := (floatText (.infinity false), .float (.infinity false)))
            (by simp [constants]) rest)
    | nan =>
      exact (scanOnce_scalar fuel depth (by decide) _).trans
        (scanScalar_constant (w := (floatText .nan, .float .nan)) (by simp [constants]) rest)
  | str s =>
    have hread := readString_quoted s rest
    rw [write, quoted_append]
    cases depth <;> rw [scanOnce, if_pos rfl, hread] <;> rfl
  | list items =>
    cases depth with
    | zero => cases items <;> cases hv
    | succ depth =>
      cases items with
      | nil => rfl
      | cons v vs =>
        simp only [write, List.cons_append, List.append_assoc, List.nil_append, List.length_cons,
          List.length_append] at hfuel ⊢
        obtain ⟨hskip, hclose⟩ := skipSpace_write v (writeItems vs ++ ']' :: rest)
        rw [scanOnce, if_neg (by decide), if_pos rfl, hskip, if_neg hclose,
          h.items v vs depth rest hv (by simp at hfuel; omega)]
        rfl
  | dict items =>
    cases depth with
    | zero => cases items <;> cases hv
    | succ depth =>
      cases items with
      | nil => rfl
      | cons m ms =>
        obtain ⟨k, v⟩ := m
        obtain ⟨hkeys, hms⟩ := hv
        simp only [write, List.cons_append, List.append_assoc, List.nil_append, List.length_cons,
          List.length_append] at hfuel ⊢
        have hskip :=
          skipSpace_quoted k (':' :: ' ' :: (v.write ++ (writeMembers ms ++ '}' :: rest)))
        have hclose : (quoted k ++ (':' :: ' ' :: (v.write ++
            (writeMembers ms ++ '}' :: rest)))).head? ≠ some '}' := by
          rw [quoted_append]
          intro h
          cases h
        rw [scanOnce, if_neg (by decide), if_neg (by decide), if_pos rfl, hskip, if_neg hclose,
          h.members k v ms depth [] rest hms hkeys (by simp at hfuel; omega)]
        rfl

/-- What follows an item or a member: a comma, or the end. -/
theorem endsNumber_items (vs : List PyObject) (rest : List Char) :
    EndsNumber (writeItems vs ++ ']' :: rest) := by
  cases vs with
  | nil => exact endsNumber_cons (by decide)
  | cons v vs => exact endsNumber_cons (by decide)

theorem endsNumber_members (ms : List (List Char × PyObject)) (rest : List Char) :
    EndsNumber (writeMembers ms ++ '}' :: rest) := by
  cases ms with
  | nil => exact endsNumber_cons (by decide)
  | cons m ms => exact endsNumber_cons (by decide)

/-- The blank after a comma or a colon. -/
theorem skipSpace_blank (cs : List Char) : skipSpace (' ' :: cs) = skipSpace cs := rfl

theorem reads_items_succ {fuel : ℕ} (h : Reads fuel) (v : PyObject) (vs : List PyObject)
    (depth : ℕ) (rest : List Char) (hv : FitsItems depth (v :: vs))
    (hfuel : 2 * (v.write.length + (writeItems vs).length) < fuel + 1) :
    scanItems (fuel + 1) depth (v.write ++ (writeItems vs ++ ']' :: rest)) = .ok (v :: vs, rest) := by
  obtain ⟨hv, hvs⟩ := hv
  rw [scanItems, h.once v depth _ hv (endsNumber_items vs rest) (by omega)]
  cases vs with
  | nil => rfl
  | cons w ws =>
    simp only [writeItems, List.cons_append, List.append_assoc, List.length_cons,
      List.length_append] at hfuel ⊢
    have hws := h.items w ws depth rest hvs (by omega)
    rw [Except.bind, Layout.skipSpace_cons rfl]
    dsimp only
    rw [if_pos rfl, skipSpace_blank, (skipSpace_write w _).1, hws]
    rfl

theorem reads_members_succ {fuel : ℕ} (h : Reads fuel) (k : List Char) (v : PyObject)
    (ms : List (List Char × PyObject)) (depth : ℕ) (before : List (List Char × PyObject))
    (rest : List Char) (hms : FitsMembers depth ((k, v) :: ms))
    (hkeys : ((before ++ (k, v) :: ms).map Prod.fst).Nodup)
    (hfuel : 2 * (v.write.length + (writeMembers ms).length) < fuel + 1) :
    scanMembers (fuel + 1) depth before
        (quoted k ++ (':' :: ' ' :: (v.write ++ (writeMembers ms ++ '}' :: rest)))) =
      .ok (before ++ (k, v) :: ms, rest) := by
  obtain ⟨hv, hms⟩ := hms
  have hnew : k ∉ before.map Prod.fst := by
    rw [List.map_append] at hkeys
    intro hk
    exact (List.nodup_append.mp hkeys).2.2 k hk k (List.mem_cons_self ..) rfl
  have hsplit : before ++ (k, v) :: ms = (before ++ [(k, v)]) ++ ms := by simp
  have hquote : ∀ cs, orDecodeError (expect ['"'] (quoted k ++ cs)) =
      .ok (k.flatMap pyIndented.esc ++ '"' :: cs) := by
    intro cs
    rw [quoted_append]
    rfl
  have hcolon : ∀ cs, orDecodeError (expect [':'] (skipSpace (':' :: cs))) = .ok cs := fun _ => rfl
  rw [scanMembers, hquote]
  simp only [Except.bind]
  rw [readString_quoted]
  simp only [orDecodeError]
  rw [← orDecodeError.eq_def, hcolon]
  simp only []
  rw [skipSpace_blank, (skipSpace_write v _).1,
    h.once v depth _ hv (endsNumber_members ms rest) (by omega)]
  simp only []
  cases ms with
  | nil => rw [setItem_of_not_mem hnew]; rfl
  | cons m ms =>
    obtain ⟨l, w⟩ := m
    simp only [writeMembers, List.cons_append, List.append_assoc, List.length_cons,
      List.length_append] at hfuel ⊢
    have hws := h.members l w ms depth (before ++ [(k, v)]) rest hms (hsplit ▸ hkeys) (by omega)
    rw [Layout.skipSpace_cons rfl]
    simp only [if_true]
    rw [skipSpace_blank, skipSpace_quoted, setItem_of_not_mem hnew, hws, hsplit]

theorem reads (fuel : ℕ) : Reads fuel := by
  induction fuel with
  | zero =>
    refine ⟨?_, ?_, ?_⟩
    · intro v depth rest hv hrest hfuel
      obtain ⟨c, cs, hc, -⟩ := head_write v
      simp [hc] at hfuel
    · intro v vs depth rest hv hfuel
      omega
    · intro k v ms depth before rest hms hkeys hfuel
      omega
  | succ fuel ih => exact ⟨reads_once_succ ih, reads_items_succ ih, reads_members_succ ih⟩

/-- **What was written is read back.** -/
theorem loads_write {depth : ℕ} {v : PyObject} (hv : Fits depth v) :
    loads depth v.write = .ok v := by
  have hread := (reads (fuelOf v.write.length)).once v depth [] hv endsNumber_nil
    (Nat.le_succ _)
  rw [List.append_nil] at hread
  have hskip := (skipSpace_write v []).1
  rw [List.append_nil] at hskip
  rw [loads, decode, hskip, hread]
  rfl

/-! ## Keys in order -/

theorem insertSorted_cons_of_lt {α : Type} {k : List Char} {v : α} {ms : List (List Char × α)}
    (h : ∀ m ∈ ms, k < m.1) : insertSorted k v ms = (k, v) :: ms := by
  cases ms with
  | nil => rfl
  | cons m ms =>
    obtain ⟨l, w⟩ := m
    rw [insertSorted, if_pos (h _ List.mem_cons_self)]

/-- Keys that come in order stay in order, a new one among them. -/
theorem pairwise_insertSorted {α : Type} {k : List Char} {v : α} {ms : List (List Char × α)}
    (hk : k ∉ ms.map Prod.fst) (h : ms.Pairwise fun m n => m.1 < n.1) :
    (insertSorted k v ms).Pairwise fun m n => m.1 < n.1 := by
  induction ms with
  | nil => exact List.pairwise_singleton _ _
  | cons m ms ih =>
    obtain ⟨l, w⟩ := m
    obtain ⟨hne, hms⟩ := List.ne_and_not_mem_of_not_mem_cons hk
    obtain ⟨hl, hrest⟩ := List.pairwise_cons.mp h
    rw [insertSorted]
    by_cases hlt : k < l
    · rw [if_pos hlt]
      refine List.pairwise_cons.mpr ⟨?_, h⟩
      intro n hn
      obtain rfl | hn := List.mem_cons.mp hn
      · exact hlt
      · exact hlt.trans (hl n hn)
    · rw [if_neg hlt]
      refine List.pairwise_cons.mpr ⟨?_, ih hms hrest⟩
      intro n hn
      obtain rfl | hn := mem_insertSorted.mp hn
      · exact lt_of_le_of_ne (not_lt.mp hlt) (Ne.symm hne)
      · exact hl n hn

theorem mem_sortMembers {m : List Char × PyObject} {ms : List (List Char × PyObject)} :
    m ∈ sortMembers ms ↔ ∃ n ∈ ms, m = (n.1, n.2.sortKeys) := by
  induction ms with
  | nil => simp [sortMembers]
  | cons n ms ih =>
    obtain ⟨k, v⟩ := n
    rw [sortMembers, mem_insertSorted, ih]
    simp

theorem keys_sortMembers (ms : List (List Char × PyObject)) :
    ((sortMembers ms).map Prod.fst).Perm (ms.map Prod.fst) := by
  have hinsert : ∀ (k : List Char) (v : PyObject) (ms : List (List Char × PyObject)),
      ((insertSorted k v ms).map Prod.fst).Perm (k :: ms.map Prod.fst) := by
    intro k v ms
    induction ms with
    | nil => exact .refl _
    | cons m ms ih =>
      obtain ⟨l, w⟩ := m
      rw [insertSorted]
      split
      · exact .refl _
      · exact (ih.cons l).trans (.swap ..)
  induction ms with
  | nil => exact .refl _
  | cons m ms ih =>
    obtain ⟨k, v⟩ := m
    exact (hinsert k v.sortKeys (sortMembers ms)).trans (ih.cons k)

theorem pairwise_sortMembers {ms : List (List Char × PyObject)} (h : (ms.map Prod.fst).Nodup) :
    (sortMembers ms).Pairwise fun m n => m.1 < n.1 := by
  induction ms with
  | nil => exact .nil
  | cons m ms ih =>
    obtain ⟨k, v⟩ := m
    obtain ⟨hk, hms⟩ := List.nodup_cons.mp h
    rw [sortMembers]
    refine pairwise_insertSorted ?_ (ih hms)
    rw [(keys_sortMembers ms).mem_iff]
    exact hk

/-- Members in order, with values in order, are as they are sorted. -/
theorem sortMembers_of_sorted {ms : List (List Char × PyObject)}
    (h : ms.Pairwise fun m n => m.1 < n.1) (hms : ∀ m ∈ ms, m.2.sortKeys = m.2) :
    sortMembers ms = ms := by
  induction ms with
  | nil => rfl
  | cons m ms ih =>
    obtain ⟨k, v⟩ := m
    obtain ⟨hk, hrest⟩ := List.pairwise_cons.mp h
    have hv : v.sortKeys = v := hms _ List.mem_cons_self
    rw [sortMembers, ih hrest fun n hn => hms n (List.mem_cons_of_mem _ hn),
      insertSorted_cons_of_lt hk, hv]

theorem fitsMembers_iff {depth : ℕ} {ms : List (List Char × PyObject)} :
    FitsMembers depth ms ↔ ∀ m ∈ ms, Fits depth m.2 := by
  induction ms with
  | nil => simp [FitsMembers]
  | cons m ms ih =>
    obtain ⟨k, v⟩ := m
    rw [FitsMembers, ih, List.forall_mem_cons]

mutual

/-- Sorting the keys again changes nothing. -/
theorem sortKeys_sortKeys : ∀ (depth : ℕ) (v : PyObject), Fits depth v →
    v.sortKeys.sortKeys = v.sortKeys
  | _, .null, _ | _, .bool _, _ | _, .int _, _ | _, .float _, _ | _, .str _, _ => rfl
  | depth + 1, .list vs, h => congrArg PyObject.list (sortItems_sortItems depth vs h)
  | depth + 1, .dict ms, h => by
    have hvalues := sortKeys_values depth ms h.2
    refine congrArg PyObject.dict (sortMembers_of_sorted (pairwise_sortMembers h.1) ?_)
    intro m hm
    obtain ⟨n, hn, rfl⟩ := mem_sortMembers.mp hm
    exact hvalues n hn

theorem sortItems_sortItems : ∀ (depth : ℕ) (vs : List PyObject), FitsItems depth vs →
    sortItems (sortItems vs) = sortItems vs
  | _, [], _ => rfl
  | depth, v :: vs, h => by
    rw [sortItems, sortItems, sortKeys_sortKeys depth v h.1, sortItems_sortItems depth vs h.2]

theorem sortKeys_values : ∀ (depth : ℕ) (ms : List (List Char × PyObject)), FitsMembers depth ms →
    ∀ n ∈ ms, n.2.sortKeys.sortKeys = n.2.sortKeys
  | _, [], _, n, hn => nomatch hn
  | depth, (k, v) :: ms, h, n, hn => by
    obtain rfl | hn := List.mem_cons.mp hn
    · exact sortKeys_sortKeys depth v h.1
    · exact sortKeys_values depth ms h.2 n hn

end

mutual

theorem fits_sortKeys : ∀ (depth : ℕ) (v : PyObject), Fits depth v → Fits depth v.sortKeys
  | _, .null, h | _, .bool _, h | _, .int _, h | _, .float _, h | _, .str _, h => h
  | depth + 1, .list vs, h => fits_sortItems depth vs h
  | depth + 1, .dict ms, h => by
    have hvalues := fits_values depth ms h.2
    refine ⟨(keys_sortMembers ms).nodup_iff.mpr h.1, fitsMembers_iff.mpr ?_⟩
    intro m hm
    obtain ⟨n, hn, rfl⟩ := mem_sortMembers.mp hm
    exact hvalues n hn

theorem fits_sortItems : ∀ (depth : ℕ) (vs : List PyObject), FitsItems depth vs →
    FitsItems depth (sortItems vs)
  | _, [], _ => trivial
  | depth, v :: vs, h => ⟨fits_sortKeys depth v h.1, fits_sortItems depth vs h.2⟩

theorem fits_values : ∀ (depth : ℕ) (ms : List (List Char × PyObject)), FitsMembers depth ms →
    ∀ n ∈ ms, Fits depth n.2.sortKeys
  | _, [], _, n, hn => nomatch hn
  | depth, (k, v) :: ms, h, n, hn => by
    obtain rfl | hn := List.mem_cons.mp hn
    · exact fits_sortKeys depth v h.1
    · exact fits_values depth ms h.2 n hn

end

/-- **What was dumped is loaded again, its keys in order.** -/
theorem loads_dumps {depth : ℕ} {v : PyObject} (hv : Fits depth v) :
    loads depth v.dumps = .ok v.sortKeys := loads_write (fits_sortKeys depth v hv)

theorem dumps_sortKeys {depth : ℕ} {v : PyObject} (hv : Fits depth v) :
    v.sortKeys.dumps = v.dumps := congrArg write (sortKeys_sortKeys depth v hv)

end PyObject

end TdSandboxed.Lib
