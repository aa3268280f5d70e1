/-
TdSandboxed.Lib.Pieces — cutting a list at the words of a set, from left to
right: `regexp.Split`, and with the pieces joined again the removal of
every match.

A matcher says how long the word at the start of a list is, 0 for none.
`Recognizes` ties it to the set. `Clear` is a list with no word in it;
exactly those are left whole, and any additive weight that every word has
gets smaller when another list is cut (`weigh_pieces_lt`).

The matches of two lists put together are the matches of each, as long as
no word reaches across (`pieces_append`).
-/
import Mathlib.Algebra.GroupWithZero.Nat
import Mathlib.Algebra.Order.BigOperators.Group.List
import Mathlib.Algebra.Order.Group.Nat
import Mathlib.Data.List.Infix
import Mathlib.Data.Set.Defs
import Mathlib.Tactic.Common

namespace TdSandboxed.Lib

variable {α : Type}

/-! ## Cutting -/

/-- Puts an element before the first piece. -/
def consFirst (c : α) : List (List α) → List (List α)
  | [] => [[c]]
  | p :: ps => (c :: p) :: ps

/-- The pieces, after the rest of a match. -/
def piecesFrom (m : List α → ℕ) : ℕ → List α → List (List α)
  | _, [] => [[]]
  | skip + 1, _ :: cs => piecesFrom m skip cs
  | 0, c :: cs =>
    match m (c :: cs) with
    | 0 => consFirst c (piecesFrom m 0 cs)
    | n + 1 => [] :: piecesFrom m n cs

def pieces (m : List α → ℕ) (cs : List α) : List (List α) := piecesFrom m 0 cs

/-- Two lists of pieces, the last of one and the first of the other being
one piece. -/
def joinPieces : List (List α) → List (List α) → List (List α)
  | [], qs => qs
  | [p], [] => [p]
  | [p], q :: qs => (p ++ q) :: qs
  | p :: p' :: ps, qs => p :: joinPieces (p' :: ps) qs

theorem pieces_nil (m : List α → ℕ) : pieces m [] = [[]] := rfl

theorem piecesFrom_ne_nil (m : List α → ℕ) (skip : ℕ) (cs : List α) : piecesFrom m skip cs ≠ [] := by
  induction cs generalizing skip with
  | nil => simp [piecesFrom]
  | cons c cs ih =>
    cases skip with
    | succ skip => exact ih skip
    | zero =>
      rw [piecesFrom]
      split
      · cases h : piecesFrom m 0 cs with
        | nil => exact absurd h (ih 0)
        | cons p ps => exact List.cons_ne_nil _ _
      · exact List.cons_ne_nil _ _

theorem pieces_ne_nil (m : List α → ℕ) (cs : List α) : pieces m cs ≠ [] := piecesFrom_ne_nil m 0 cs

theorem pieces_cons_zero {m : List α → ℕ} {c : α} {cs : List α} (h : m (c :: cs) = 0) :
    pieces m (c :: cs) = consFirst c (pieces m cs) := by
  simp only [pieces, piecesFrom, h]

theorem pieces_cons_succ {m : List α → ℕ} {c : α} {cs : List α} {n : ℕ} (h : m (c :: cs) = n + 1) :
    pieces m (c :: cs) = [] :: piecesFrom m n cs := by
  simp only [pieces, piecesFrom, h]

/-- The rest of a match is left out. -/
theorem piecesFrom_append (m : List α → ℕ) (w cs : List α) :
    piecesFrom m w.length (w ++ cs) = pieces m cs := by
  induction w with
  | nil => rfl
  | cons c w ih => exact ih

theorem consFirst_joinPieces (c : α) {ps : List (List α)} (hps : ps ≠ []) (qs : List (List α)) :
    consFirst c (joinPieces ps qs) = joinPieces (consFirst c ps) qs := by
  match ps, qs with
  | [p], [] => rfl
  | [p], q :: qs => rfl
  | p :: p' :: ps, qs => rfl

theorem cons_joinPieces (p : List α) {ps : List (List α)} (hps : ps ≠ []) (qs : List (List α)) :
    joinPieces (p :: ps) qs = p :: joinPieces ps qs := by
  cases ps with
  | nil => exact absurd rfl hps
  | cons p' ps => rfl

theorem joinPieces_nil_cons {ps : List (List α)} (hps : ps ≠ []) (qs : List (List α)) :
    joinPieces ps ([] :: qs) = ps ++ qs := by
  induction ps with
  | nil => exact absurd rfl hps
  | cons p ps ih =>
    cases ps with
    | nil => rw [joinPieces, List.append_nil, List.singleton_append]
    | cons p' ps =>
      rw [joinPieces, ih (List.cons_ne_nil _ _)]
      rfl

theorem flatten_joinPieces (ps qs : List (List α)) :
    (joinPieces ps qs).flatten = ps.flatten ++ qs.flatten := by
  induction ps with
  | nil => rfl
  | cons p ps ih =>
    match ps, qs with
    | [], [] => simp [joinPieces]
    | [], q :: qs => simp [joinPieces]
    | p' :: ps, qs =>
      rw [joinPieces, List.flatten_cons, ih, ← List.append_assoc]
      rfl

theorem flatten_consFirst (c : α) (ps : List (List α)) :
    (consFirst c ps).flatten = c :: ps.flatten := by
  cases ps <;> rfl

/-! ## Words -/

/-- `m` finds the words of `W`, at most one at any place. -/
structure Recognizes (m : List α → ℕ) (W : Set (List α)) : Prop where
  sound : ∀ {cs : List α} {n : ℕ}, m cs = n + 1 → ∃ w ∈ W, w.length = n + 1 ∧ w <+: cs
  complete : ∀ {w cs : List α}, w ∈ W → w <+: cs → m cs = w.length ∧ w ≠ []

/-- No word of `W` is in the list. -/
def Clear (W : Set (List α)) (cs : List α) : Prop := ∀ w ∈ W, ¬ w <:+: cs

section
variable {m : List α → ℕ} {W : Set (List α)}

theorem Recognizes.eq_zero_iff (hm : Recognizes m W) {cs : List α} :
    m cs = 0 ↔ ∀ w ∈ W, ¬ w <+: cs := by
  constructor
  · intro hzero w hw hpre
    obtain ⟨hlen, hne⟩ := hm.complete hw hpre
    rw [hzero] at hlen
    exact hne (List.length_eq_zero_iff.mp hlen.symm)
  · intro hno
    cases h : m cs with
    | zero => rfl
    | succ n =>
      obtain ⟨w, hw, -, hpre⟩ := hm.sound h
      exact absurd hpre (hno w hw)

theorem Recognizes.clear_cons_iff (hm : Recognizes m W) {c : α} {cs : List α} :
    Clear W (c :: cs) ↔ m (c :: cs) = 0 ∧ Clear W cs := by
  rw [hm.eq_zero_iff]
  constructor
  · intro h
    exact ⟨fun w hw hpre => h w hw hpre.isInfix, fun w hw hin => h w hw (List.infix_cons hin)⟩
  · rintro ⟨hpre, hcs⟩ w hw hin
    rcases List.infix_cons_iff.mp hin with hw' | hw'
    · exact hpre w hw hw'
    · exact hcs w hw hw'

/-- **A list with no word in it is one piece.** -/
theorem pieces_of_clear (hm : Recognizes m W) {cs : List α} (h : Clear W cs) :
    pieces m cs = [cs] := by
  induction cs with
  | nil => rfl
  | cons c cs ih =>
    obtain ⟨hzero, hcs⟩ := hm.clear_cons_iff.mp h
    rw [pieces_cons_zero hzero, ih hcs]
    rfl

/-- A word at the start is cut off. -/
theorem pieces_append_word (hm : Recognizes m W) {w : List α} (hw : w ∈ W) (cs : List α) :
    pieces m (w ++ cs) = [] :: pieces m cs := by
  obtain ⟨hlen, hne⟩ := hm.complete hw (List.prefix_append w cs)
  cases w with
  | nil => exact absurd rfl hne
  | cons c w =>
    rw [List.cons_append] at hlen ⊢
    rw [pieces_cons_succ hlen, piecesFrom_append]

/-- What stands across a place that no word reaches over changes no match. -/
theorem Recognizes.append_sep (hm : Recognizes m W) {x : α} (hx : ∀ w ∈ W, x ∉ w) (s q : List α) :
    m (s ++ x :: q) = m s := by
  have hpre : ∀ w ∈ W, w <+: s ++ x :: q → w <+: s := by
    intro w hw hpre
    rcases List.prefix_or_prefix_of_prefix hpre (List.prefix_append (s ++ [x]) q |>.trans
      (by simp)) with h | h
    · rcases List.prefix_concat_iff.mp h with rfl | h
      · exact absurd (List.mem_append_right _ (List.mem_singleton_self x)) (hx _ hw)
      · exact h
    · exact absurd (h.subset (List.mem_append_right _ (List.mem_singleton_self x))) (hx w hw)
  cases h : m (s ++ x :: q) with
  | zero =>
    symm
    rw [hm.eq_zero_iff] at h ⊢
    exact fun w hw hw' => h w hw (hw'.trans (List.prefix_append s _))
  | succ n =>
    obtain ⟨w, hw, hlen, hw'⟩ := hm.sound h
    rw [(hm.complete hw (hpre w hw hw')).1, hlen]

theorem piecesFrom_joinPieces (hm : Recognizes m W) (p q : List α) (skip : ℕ) (hskip : skip ≤ p.length)
    (hlocal : ∀ s, s <:+ p → s ≠ [] → m (s ++ q) = m s) :
    piecesFrom m skip (p ++ q) = joinPieces (piecesFrom m skip p) (pieces m q) := by
  induction p generalizing skip with
  | nil =>
    obtain rfl : skip = 0 := Nat.le_zero.mp hskip
    show pieces m q = joinPieces [[]] (pieces m q)
    cases h : pieces m q with
    | nil => exact absurd h (piecesFrom_ne_nil m 0 q)
    | cons b bs => rfl
  | cons c p ih =>
    have ih' := fun skip hskip => ih skip hskip fun s hs => hlocal s (hs.trans (List.suffix_cons c p))
    cases skip with
    | succ skip => exact ih' skip (Nat.le_of_succ_le_succ hskip)
    | zero =>
      have hc : m (c :: (p ++ q)) = m (c :: p) := hlocal _ (List.suffix_refl _) (List.cons_ne_nil _ _)
      rw [List.cons_append, piecesFrom, piecesFrom, hc]
      cases h : m (c :: p) with
      | zero =>
        dsimp only
        rw [ih' 0 (Nat.zero_le _), consFirst_joinPieces c (piecesFrom_ne_nil m 0 p)]
      | succ n =>
        -- the match ends within `p`
        obtain ⟨w, hw, hlen, hpre⟩ := hm.sound h
        have hn : n ≤ p.length := by
          have hle := hpre.length_le
          rw [hlen, List.length_cons] at hle
          exact Nat.le_of_succ_le_succ hle
        dsimp only
        rw [ih' n hn, cons_joinPieces [] (piecesFrom_ne_nil m n p)]

/-- No word reaches out of the list, whatever follows it. -/
def Closed (m : List α → ℕ) (p : List α) : Prop :=
  ∀ s, s <:+ p → s ≠ [] → ∀ q, m (s ++ q) = m s

/-- **After a closed list, the matches are those of what follows.** -/
theorem pieces_append (hm : Recognizes m W) {p : List α} (hp : Closed m p) (q : List α) :
    pieces m (p ++ q) = joinPieces (pieces m p) (pieces m q) :=
  piecesFrom_joinPieces hm p q 0 (Nat.zero_le _) fun s hs hne => hp s hs hne q

/-- An element of no word is no place to cut. -/
theorem pieces_append_sep (hm : Recognizes m W) {x : α} (hx : ∀ w ∈ W, x ∉ w) (p q : List α) :
    pieces m (p ++ x :: q) = joinPieces (pieces m p) (consFirst x (pieces m q)) := by
  have hnil : m [] = 0 := by
    rw [hm.eq_zero_iff]
    intro w hw hpre
    exact (hm.complete hw hpre).2 (List.prefix_nil.mp hpre)
  have hcons : m (x :: q) = 0 := (hm.append_sep hx [] q).trans hnil
  rw [← pieces_cons_zero hcons]
  exact piecesFrom_joinPieces hm p (x :: q) 0 (Nat.zero_le _) fun s _ _ => hm.append_sep hx s q

/-- A list is closed by an element of no word. -/
theorem closed_concat (hm : Recognizes m W) {x : α} (hx : ∀ w ∈ W, x ∉ w) (p : List α) :
    Closed m (p ++ [x]) := by
  intro s hs hne q
  obtain ⟨s', rfl⟩ : ∃ s', s = s' ++ [x] := by
    rcases List.suffix_concat_iff.mp hs with rfl | ⟨t, rfl, -⟩
    · exact absurd rfl hne
    · exact ⟨t, rfl⟩
  rw [List.append_assoc, List.singleton_append, hm.append_sep hx, hm.append_sep hx]

/-- A list of elements that start no word is closed. -/
theorem closed_of_heads (hm : Recognizes m W) {p : List α}
    (hp : ∀ c ∈ p, ∀ w ∈ W, ∃ d w', w = d :: w' ∧ c ≠ d) : Closed m p := by
  intro s hs hne q
  cases s with
  | nil => exact absurd rfl hne
  | cons c s =>
    have hzero : ∀ cs, m (c :: cs) = 0 := by
      intro cs
      rw [hm.eq_zero_iff]
      intro w hw hpre
      obtain ⟨d, w', rfl, hcd⟩ := hp c (hs.subset (List.mem_cons_self ..)) w hw
      exact hcd (List.cons_prefix_cons.mp hpre).1.symm
    rw [List.cons_append, hzero, hzero]

/-! ## Clear lists -/

/-- Words do not reach over an element of none of them. -/
theorem clear_append_sep_iff {x : α} (hx : ∀ w ∈ W, x ∉ w) {p q : List α} :
    Clear W (p ++ x :: q) ↔ Clear W p ∧ Clear W q := by
  constructor
  · intro h
    refine ⟨fun w hw hin => h w hw (hin.trans (List.prefix_append _ _).isInfix), ?_⟩
    exact fun w hw hin => h w hw (hin.trans ⟨p ++ [x], [], by simp⟩)
  · rintro ⟨hp, hq⟩ w hw ⟨a, b, heq⟩
    rw [List.append_assoc] at heq
    rcases List.append_eq_append_iff.mp heq with ⟨c, hc, hrest⟩ | ⟨c, hc, hrest⟩
    · -- the word starts within `p`
      rcases List.append_eq_append_iff.mp hrest with ⟨d, hd, -⟩ | ⟨d, hd, hd'⟩
      · exact hp w hw ⟨a, d, by rw [hc, hd, List.append_assoc]⟩
      · cases d with
        | nil =>
          rw [List.append_nil] at hd
          exact hp w hw ⟨a, [], by rw [hc, hd, List.append_nil]⟩
        | cons y d =>
          obtain ⟨rfl, -⟩ := List.cons_eq_cons.mp hd'
          exact hx w hw (hd ▸ List.mem_append_right _ (List.mem_cons_self ..))
    · cases c with
      | nil =>
        have hw' : w ++ b = x :: q := hrest.symm
        cases w with
        | nil => exact hp [] hw (List.nil_infix)
        | cons y w =>
          obtain ⟨rfl, -⟩ := List.cons_eq_cons.mp hw'
          exact hx _ hw (List.mem_cons_self ..)
      | cons y c =>
        obtain ⟨-, hq'⟩ := List.cons_eq_cons.mp hrest
        refine hq w hw ⟨c, b, ?_⟩
        rw [hq', List.append_assoc]
        rfl

/-- An element that starts no word makes none. -/
theorem clear_cons_iff_of_head {c : α} (hc : ∀ w ∈ W, ∃ d w', w = d :: w' ∧ c ≠ d) {cs : List α} :
    Clear W (c :: cs) ↔ Clear W cs := by
  constructor
  · intro h w hw hin
    exact h w hw (List.infix_cons hin)
  · intro h w hw hin
    rcases List.infix_cons_iff.mp hin with hpre | hin
    · obtain ⟨d, w', rfl, hne⟩ := hc w hw
      exact hne (List.cons_prefix_cons.mp hpre).1.symm
    · exact h w hw hin

/-! ## Weights -/

end

def weigh (f : α → ℕ) (cs : List α) : ℕ := (cs.map f).sum

section
variable {m : List α → ℕ} {W : Set (List α)} (f : α → ℕ)

@[simp] theorem weigh_nil : weigh f [] = 0 := rfl

@[simp] theorem weigh_cons (c : α) (cs : List α) : weigh f (c :: cs) = f c + weigh f cs := rfl

@[simp] theorem weigh_append (p q : List α) : weigh f (p ++ q) = weigh f p + weigh f q := by
  simp [weigh]

theorem weigh_le_of_sublist {p q : List α} (h : p.Sublist q) : weigh f p ≤ weigh f q :=
  (h.map f).sum_le_sum fun _ _ => Nat.zero_le _

/-- The pieces weigh no more than what was left to cut. -/
theorem weigh_piecesFrom_le (skip : ℕ) (cs : List α) :
    weigh f (piecesFrom m skip cs).flatten ≤ weigh f (cs.drop skip) := by
  induction cs generalizing skip with
  | nil => simp [piecesFrom]
  | cons c cs ih =>
    cases skip with
    | succ skip => exact ih skip
    | zero =>
      rw [piecesFrom]
      split
      · rw [flatten_consFirst, List.drop_zero, weigh_cons, weigh_cons]
        exact Nat.add_le_add_left (ih 0) _
      · rename_i n hn
        rw [List.flatten_cons, List.nil_append, List.drop_zero]
        exact (ih n).trans (weigh_le_of_sublist f ((List.drop_sublist n cs).cons c))

theorem weigh_pieces_le (cs : List α) : weigh f (pieces m cs).flatten ≤ weigh f cs :=
  weigh_piecesFrom_le f 0 cs

/-- **What is cut at a word gets lighter.** -/
theorem weigh_pieces_lt (hm : Recognizes m W) (hW : ∀ w ∈ W, 0 < weigh f w) {cs : List α}
    (h : ¬ Clear W cs) : weigh f (pieces m cs).flatten < weigh f cs := by
  induction cs with
  | nil =>
    refine absurd (fun w hw hin => ?_) h
    obtain rfl := List.infix_nil.mp hin
    exact absurd (hW [] hw) (Nat.lt_irrefl 0)
  | cons c cs ih =>
    rw [hm.clear_cons_iff, not_and] at h
    cases hc : m (c :: cs) with
    | zero =>
      rw [pieces_cons_zero hc, flatten_consFirst, weigh_cons, weigh_cons]
      exact Nat.add_lt_add_left (ih (h hc)) _
    | succ n =>
      obtain ⟨w, hw, hlen, rest, hrest⟩ := hm.sound hc
      have hdrop : cs.drop n = rest := by
        have htail : (c :: cs).drop (n + 1) = rest := by rw [← hrest, ← hlen, List.drop_left]
        exact htail
      have hpieces := weigh_piecesFrom_le (m := m) f n cs
      rw [pieces_cons_succ hc, List.flatten_cons, List.nil_append]
      calc weigh f (piecesFrom m n cs).flatten ≤ weigh f rest := hdrop ▸ hpieces
        _ < weigh f w + weigh f rest := Nat.lt_add_of_pos_left (hW w hw)
        _ = weigh f (c :: cs) := by rw [← hrest, weigh_append]

end

end TdSandboxed.Lib
