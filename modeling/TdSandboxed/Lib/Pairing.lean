/-
TdSandboxed.Lib.Pairing — pairing two lists off in order.

`pairOff ok as bs` pairs the first of `as` with the first of `bs`, and so
on, and lists what comes of it: a pair that is not `ok` differs, and what
is left over on either side has no partner.

`pairOff_perm_iff` says when the outcome, as a multiset, does not depend
on the order of the two lists. Most of the time it does: the longer list
must be constant, or, when the lengths are equal, one of the lists must
be, or everything must pair with everything.

`Accounting` is for pairings of any kind: pairs and outcomes together hold
every element of the two lists, as often as it occurs there.
-/
import Mathlib.Data.List.Perm.Basic
import Mathlib.Data.List.Forall2
import Mathlib.Data.List.Count

namespace TdSandboxed.Lib

variable {α β γ δ : Type*}

/-- What comes of pairing two lists off. -/
inductive PairOutcome (α β : Type*)
  | left (a : α)
  | right (b : β)
  | differ (a : α) (b : β)
  deriving DecidableEq

namespace PairOutcome

def map (f : α → γ) (g : β → δ) : PairOutcome α β → PairOutcome γ δ
  | left a => left (f a)
  | right b => right (g b)
  | differ a b => differ (f a) (g b)

def swap : PairOutcome α β → PairOutcome β α
  | left a => right a
  | right b => left b
  | differ a b => differ b a

def left? : PairOutcome α β → Option α
  | left a | differ a _ => some a
  | right _ => none

def right? : PairOutcome α β → Option β
  | right b | differ _ b => some b
  | left _ => none

end PairOutcome

/-- The outcome of one pair. -/
def outcome (ok : α → β → Bool) (a : α) (b : β) : List (PairOutcome α β) :=
  if ok a b then [] else [.differ a b]

def pairOff (ok : α → β → Bool) : List α → List β → List (PairOutcome α β)
  | [], bs => bs.map .right
  | a :: as, [] => .left a :: pairOff ok as []
  | a :: as, b :: bs => outcome ok a b ++ pairOff ok as bs

variable {ok : α → β → Bool} {as as' : List α} {bs bs' : List β} {a a' : α} {b b' : β}

@[simp] theorem pairOff_nil_left (bs : List β) : pairOff ok [] bs = bs.map .right := rfl

@[simp] theorem pairOff_nil_right (as : List α) : pairOff ok as [] = as.map .left := by
  induction as with
  | nil => rfl
  | cons a as ih => rw [pairOff, ih, List.map_cons]

@[simp] theorem pairOff_cons (a : α) (as : List α) (b : β) (bs : List β) :
    pairOff ok (a :: as) (b :: bs) = outcome ok a b ++ pairOff ok as bs := rfl

/-- The two sides play the same part. -/
theorem map_swap_pairOff (ok : α → β → Bool) (as : List α) (bs : List β) :
    (pairOff ok as bs).map PairOutcome.swap = pairOff (fun b a => ok a b) bs as := by
  induction as generalizing bs with
  | nil => simp [PairOutcome.swap, Function.comp_def]
  | cons a as ih =>
    cases bs with
    | nil => simp [PairOutcome.swap, Function.comp_def]
    | cons b bs =>
      simp only [pairOff_cons, List.map_append, ih]
      by_cases h : ok a b <;> simp [outcome, h, PairOutcome.swap]

/-- An outcome is about elements of the two lists. -/
theorem mem_pairOff {o : PairOutcome α β} (h : o ∈ pairOff ok as bs) :
    match o with
    | .left a => a ∈ as
    | .right b => b ∈ bs
    | .differ a b => a ∈ as ∧ b ∈ bs := by
  induction as generalizing bs with
  | nil =>
    obtain ⟨b, hb, rfl⟩ := List.mem_map.mp (by simpa using h)
    exact hb
  | cons a as ih =>
    cases bs with
    | nil =>
      rw [pairOff_nil_right] at h
      obtain ⟨c, hc, rfl⟩ := List.mem_map.mp h
      exact hc
    | cons b bs =>
      rw [pairOff_cons, List.mem_append] at h
      rcases h with h | h
      · unfold outcome at h
        split at h
        · cases h
        · obtain rfl := List.mem_singleton.mp h
          simp
      · have hrest := ih h
        cases o with
        | left c => exact List.mem_cons_of_mem a hrest
        | right c => exact List.mem_cons_of_mem b hrest
        | differ c d => exact ⟨List.mem_cons_of_mem a hrest.1, List.mem_cons_of_mem b hrest.2⟩

/-- Pairing off looks at the elements only through `ok`. -/
theorem pairOff_map (ok : γ → δ → Bool) (f : α → γ) (g : β → δ) (as : List α) (bs : List β) :
    pairOff ok (as.map f) (bs.map g) =
      (pairOff (fun a b => ok (f a) (g b)) as bs).map (PairOutcome.map f g) := by
  induction as generalizing bs with
  | nil => simp [PairOutcome.map, Function.comp_def]
  | cons a as ih =>
    cases bs with
    | nil => simp [PairOutcome.map, Function.comp_def]
    | cons b bs =>
      simp only [List.map_cons, pairOff_cons, List.map_append, ih]
      by_cases h : ok (f a) (g b) <;> simp [outcome, h, PairOutcome.map]

/-- What is beyond the other list has no partner. -/
theorem pairOff_append_right (hlen : as.length ≤ bs.length) (b : β) :
    pairOff ok as (bs ++ [b]) = pairOff ok as bs ++ [.right b] := by
  induction as generalizing bs with
  | nil => simp
  | cons a as ih =>
    cases bs with
    | nil => simp at hlen
    | cons c cs => simp [ih (by simpa using hlen)]

theorem pairOff_replicate (hlen : bs.length ≤ n) :
    pairOff ok (List.replicate n a) bs =
      bs.flatMap (outcome ok a) ++ List.replicate (n - bs.length) (.left a) := by
  induction n generalizing bs with
  | zero =>
    obtain rfl : bs = [] := List.length_eq_zero_iff.mp (by omega)
    simp
  | succ n ih =>
    cases bs with
    | nil => simp
    | cons b bs =>
      have hlen' : bs.length ≤ n := by simpa using hlen
      simp [List.replicate_succ, ih hlen']

theorem pairOff_eq_nil (hlen : as.length = bs.length) (hok : ∀ a ∈ as, ∀ b ∈ bs, ok a b) :
    pairOff ok as bs = [] := by
  induction as generalizing bs with
  | nil =>
    obtain rfl : bs = [] := List.length_eq_zero_iff.mp hlen.symm
    rfl
  | cons a as ih =>
    cases bs with
    | nil => simp at hlen
    | cons b bs =>
      have hab : ok a b = true := hok a (by simp) b (by simp)
      have hrest : pairOff ok as bs = [] := ih (by simpa using hlen)
        fun x hx y hy => hok x (List.mem_cons_of_mem a hx) y (List.mem_cons_of_mem b hy)
      simp [outcome, hab, hrest]

/-- A list pairs off with itself. -/
theorem pairOff_self {ok : α → α → Bool} (hok : ∀ a, ok a a) (as : List α) :
    pairOff ok as as = [] := by
  induction as with
  | nil => rfl
  | cons a as ih => simp [outcome, hok, ih]

/-! ## Order -/

/-- The outcome does not depend on the order of the lists. -/
def OrderFree (ok : α → β → Bool) (as : List α) (bs : List β) : Prop :=
  ∀ as' bs', as'.Perm as → bs'.Perm bs → (pairOff ok as' bs').Perm (pairOff ok as bs)

/-- All elements of a list are equal. -/
def Constant (as : List α) : Prop := ∀ a ∈ as, ∀ a' ∈ as, a = a'

theorem exists_ne_of_not_constant (h : ¬ Constant as) (a : α) : ∃ a' ∈ as, a ≠ a' := by
  by_contra hall
  push Not at hall
  exact h fun c hc d hd => (hall c hc).symm.trans (hall d hd)

theorem OrderFree.swap (h : OrderFree ok as bs) : OrderFree (fun b a => ok a b) bs as := by
  intro bs' as' hb ha
  have hperm := (h as' bs' ha hb).map PairOutcome.swap
  rwa [map_swap_pairOff, map_swap_pairOff] at hperm

/-- The longer list is constant: exchange its partner of `a` with one that
has none. -/
theorem OrderFree.constant_right (h : OrderFree ok as bs) (has : as ≠ [])
    (hlen : as.length < bs.length) : Constant bs := by
  classical
  intro b hb b' hb'
  by_contra hne
  obtain ⟨a, as, rfl⟩ := List.exists_cons_of_ne_nil has
  have hmem : b' ∈ bs.erase b := (List.mem_erase_of_ne (Ne.symm hne)).mpr hb'
  let rest := (bs.erase b).erase b'
  have hbs : bs.Perm (b :: b' :: rest) :=
    (List.perm_cons_erase hb).trans ((List.perm_cons_erase hmem).cons b)
  have hrest : as.length ≤ rest.length := by
    have hcount := hbs.length_eq
    simp only [List.length_cons] at hcount hlen
    omega
  have hp : (b :: (rest ++ [b'])).Perm bs :=
    ((List.perm_append_singleton b' rest).cons b).trans hbs.symm
  have hp' : (b' :: (rest ++ [b])).Perm bs :=
    (((List.perm_append_singleton b rest).cons b').trans (.swap b b' rest)).trans hbs.symm
  have hperm := (h _ _ (.refl _) hp).trans (h _ _ (.refl _) hp').symm
  rw [pairOff_cons, pairOff_cons, pairOff_append_right hrest, pairOff_append_right hrest] at hperm
  have hcount := hperm.count_eq (.right b)
  have hnone : ∀ c, (outcome ok a c).count (.right b) = 0 := by
    intro c
    unfold outcome
    split <;> simp
  simp [List.count_append, hnone, Ne.symm hne] at hcount

/-- Two different elements on each side: both pairings must be `ok`. -/
theorem OrderFree.ok_of_ne (h : OrderFree ok as bs) (ha : a ∈ as) (ha' : a' ∈ as) (hne : a ≠ a')
    (hb : b ∈ bs) (hb' : b' ∈ bs) (hne' : b ≠ b') : ok a b := by
  classical
  by_contra hok
  have hmem : a' ∈ as.erase a := (List.mem_erase_of_ne (Ne.symm hne)).mpr ha'
  have hmem' : b' ∈ bs.erase b := (List.mem_erase_of_ne (Ne.symm hne')).mpr hb'
  let restA := (as.erase a).erase a'
  let restB := (bs.erase b).erase b'
  have hp : (a :: a' :: restA).Perm as :=
    ((List.perm_cons_erase ha).trans ((List.perm_cons_erase hmem).cons a)).symm
  have hq : (b :: b' :: restB).Perm bs :=
    ((List.perm_cons_erase hb).trans ((List.perm_cons_erase hmem').cons b)).symm
  have hq' : (b' :: b :: restB).Perm bs := (List.Perm.swap b b' restB).trans hq
  have hperm := (h _ _ hp hq).trans (h _ _ hp hq').symm
  simp only [pairOff_cons] at hperm
  have hcount := hperm.count_eq (.differ a b)
  have hleft : (outcome ok a b).count (.differ a b) = 1 := by simp [outcome, hok]
  have hzero : ∀ c d, (c ≠ a ∨ d ≠ b) → (outcome ok c d).count (.differ a b) = 0 := by
    intro c d hcd
    unfold outcome
    split
    · rfl
    · rcases hcd with hc | hd
      · simp [hc]
      · simp [hd]
  simp only [List.count_append, hleft, hzero a' b' (.inl (Ne.symm hne)),
    hzero a b' (.inr (Ne.symm hne')), hzero a' b (.inl (Ne.symm hne))] at hcount
  omega

/-- When the order does not matter. -/
def Robust (ok : α → β → Bool) (as : List α) (bs : List β) : Prop :=
  as = [] ∨ bs = [] ∨ (bs.length ≤ as.length ∧ Constant as) ∨
    (as.length ≤ bs.length ∧ Constant bs) ∨
      (as.length = bs.length ∧ ∀ a ∈ as, ∀ b ∈ bs, ok a b)

theorem OrderFree.robust (h : OrderFree ok as bs) : Robust ok as bs := by
  by_cases has : as = []
  · exact .inl has
  by_cases hbs : bs = []
  · exact .inr (.inl hbs)
  rcases Nat.lt_trichotomy as.length bs.length with hlt | heq | hgt
  · exact .inr (.inr (.inr (.inl ⟨Nat.le_of_lt hlt, h.constant_right has hlt⟩)))
  · by_cases hca : Constant as
    · exact .inr (.inr (.inl ⟨Nat.le_of_eq heq.symm, hca⟩))
    by_cases hcb : Constant bs
    · exact .inr (.inr (.inr (.inl ⟨Nat.le_of_eq heq, hcb⟩)))
    refine .inr (.inr (.inr (.inr ⟨heq, fun a ha b hb => ?_⟩)))
    obtain ⟨a', ha', hne⟩ := exists_ne_of_not_constant hca a
    obtain ⟨b', hb', hne'⟩ := exists_ne_of_not_constant hcb b
    exact h.ok_of_ne ha ha' hne hb hb' hne'
  · exact .inr (.inr (.inl ⟨Nat.le_of_lt hgt, h.swap.constant_right hbs hgt⟩))

theorem eq_replicate_of_constant (hc : Constant (a :: as)) :
    a :: as = List.replicate (as.length + 1) a := by
  rw [List.eq_replicate_iff]
  exact ⟨by simp, fun c hc' => hc c hc' a (by simp)⟩

theorem orderFree_of_constant_left (hlen : bs.length ≤ as.length) (hc : Constant as) :
    OrderFree ok as bs := by
  cases as with
  | nil =>
    obtain rfl : bs = [] := List.length_eq_zero_iff.mp (by simpa using hlen)
    intro as' bs' ha hb
    rw [ha.eq_nil, hb.eq_nil]
  | cons a as =>
    intro as' bs' ha hb
    have hlen' : bs'.length ≤ as.length + 1 := by
      rw [hb.length_eq]
      simpa using hlen
    rw [eq_replicate_of_constant hc] at ha hlen ⊢
    rw [List.perm_replicate.mp ha, pairOff_replicate hlen', pairOff_replicate (by simpa using hlen),
      hb.length_eq]
    exact (hb.flatMap_right _).append_right _

/-- **When the order of the lists does not matter.** -/
theorem orderFree_iff : OrderFree ok as bs ↔ Robust ok as bs := by
  refine ⟨OrderFree.robust, ?_⟩
  rintro (rfl | rfl | ⟨hlen, hc⟩ | ⟨hlen, hc⟩ | ⟨hlen, hok⟩)
  · intro as' bs' ha hb
    rw [ha.eq_nil, pairOff_nil_left, pairOff_nil_left]
    exact hb.map _
  · intro as' bs' ha hb
    rw [hb.eq_nil, pairOff_nil_right, pairOff_nil_right]
    exact ha.map _
  · exact orderFree_of_constant_left hlen hc
  · have hflip : OrderFree (fun b a => ok a b) bs as := orderFree_of_constant_left hlen hc
    exact hflip.swap
  · intro as' bs' ha hb
    have hall : ∀ a ∈ as', ∀ b ∈ bs', ok a b :=
      fun a ha' b hb' => hok a (ha.mem_iff.mp ha') b (hb.mem_iff.mp hb')
    have hlen' : as'.length = bs'.length := by rw [ha.length_eq, hb.length_eq, hlen]
    rw [pairOff_eq_nil hlen hok, pairOff_eq_nil hlen' hall]

/-! ## Accounting -/

/-- Every element of the two lists is in one pair or in one outcome. -/
structure Accounting (as : List α) (bs : List β) (pairs : List (α × β))
    (os : List (PairOutcome α β)) : Prop where
  lefts : (pairs.map Prod.fst ++ os.filterMap PairOutcome.left?).Perm as
  rights : (pairs.map Prod.snd ++ os.filterMap PairOutcome.right?).Perm bs

namespace Accounting

variable {pairs pairs' : List (α × β)} {os os' : List (PairOutcome α β)}

theorem pair (a : α) (b : β) : Accounting [a] [b] [(a, b)] [] := ⟨.refl _, .refl _⟩

theorem differ (a : α) (b : β) : Accounting [a] [b] [] [.differ a b] := ⟨.refl _, .refl _⟩

theorem left (as : List α) : Accounting as ([] : List β) [] (as.map .left) where
  lefts := by simp [List.filterMap_map, Function.comp_def, PairOutcome.left?]
  rights := by simp [List.filterMap_map, Function.comp_def, PairOutcome.right?]

theorem right (bs : List β) : Accounting ([] : List α) bs [] (bs.map .right) where
  lefts := by simp [List.filterMap_map, Function.comp_def, PairOutcome.left?]
  rights := by simp [List.filterMap_map, Function.comp_def, PairOutcome.right?]

theorem append_swap (as bs cs ds : List α) :
    ((as ++ bs) ++ (cs ++ ds)).Perm ((as ++ cs) ++ (bs ++ ds)) := by
  rw [List.append_assoc, List.append_assoc]
  exact (List.perm_append_comm_assoc bs cs ds).append_left as

theorem append (h : Accounting as bs pairs os) (h' : Accounting as' bs' pairs' os') :
    Accounting (as ++ as') (bs ++ bs') (pairs ++ pairs') (os ++ os') where
  lefts := by
    rw [List.map_append, List.filterMap_append]
    exact (append_swap ..).trans (h.lefts.append h'.lefts)
  rights := by
    rw [List.map_append, List.filterMap_append]
    exact (append_swap ..).trans (h.rights.append h'.rights)

theorem perm (h : Accounting as bs pairs os) (ha : as.Perm as') (hb : bs.Perm bs') :
    Accounting as' bs' pairs os :=
  ⟨h.lefts.trans ha, h.rights.trans hb⟩

end Accounting

end TdSandboxed.Lib
