/-
TdSandboxed.Lib.Assoc — dicts as association lists, and loops over them
that may raise.

A dict is a list of pairs read with `List.lookup`. Writing to a key it has
maps over the list and keeps the order (`lookup_replace`), a new key goes
to the end (`lookup_append_singleton`).

A loop that may raise is a `foldlM` in `Except`. `foldlM_ok_cons` opens one
step of a loop that came through.
-/
import Mathlib.Data.List.Forall2
import Mathlib.Data.List.Nodup

namespace TdSandboxed.Lib

variable {α β : Type*} [DecidableEq α]

theorem lookup_cons_eq (p : α × β) (l : List (α × β)) (b : α) :
    (p :: l).lookup b = if b = p.1 then some p.2 else l.lookup b := by
  rw [List.lookup_cons]
  by_cases hb : b = p.1
  · simp [hb]
  · simp [hb, beq_false_of_ne hb]

theorem mem_keys_iff {l : List (α × β)} {a : α} :
    a ∈ l.map Prod.fst ↔ ∃ r, l.lookup a = some r := by
  induction l with
  | nil => simp
  | cons p l ih =>
    rw [List.map_cons, List.mem_cons, lookup_cons_eq, ih]
    by_cases hb : a = p.1 <;> simp [hb]

theorem not_mem_keys_iff {l : List (α × β)} {a : α} :
    a ∉ l.map Prod.fst ↔ l.lookup a = none := by
  rw [mem_keys_iff, ← Option.isSome_iff_exists, Option.not_isSome_iff_eq_none]

theorem mem_of_lookup {l : List (α × β)} {a : α} {r : β} (h : l.lookup a = some r) :
    (a, r) ∈ l := by
  induction l with
  | nil => cases h
  | cons p l ih =>
    rw [lookup_cons_eq] at h
    by_cases hp : a = p.1
    · rw [if_pos hp] at h
      obtain rfl := Option.some.inj h
      rw [hp]
      exact List.mem_cons_self
    · rw [if_neg hp] at h
      exact List.mem_cons_of_mem p (ih h)

/-- With no key twice every entry is found. -/
theorem lookup_of_mem {l : List (α × β)} (hn : (l.map Prod.fst).Nodup) {p : α × β} (hp : p ∈ l) :
    l.lookup p.1 = some p.2 := by
  induction l with
  | nil => cases hp
  | cons q l ih =>
    obtain ⟨hq, hn⟩ := List.nodup_cons.mp hn
    rw [lookup_cons_eq]
    obtain rfl | hp := List.mem_cons.mp hp
    · rw [if_pos rfl]
    · have hne : p.1 ≠ q.1 := by
        intro h
        exact hq (h ▸ List.mem_map_of_mem hp)
      rw [if_neg hne, ih hn hp]

/-- Writing to a key the dict has. -/
theorem lookup_replace (l : List (α × β)) (a b : α) (r : β) :
    (l.map fun p => if p.1 = a then (a, r) else p).lookup b =
      if b = a then (l.lookup a).map fun _ => r else l.lookup b := by
  induction l with
  | nil => simp
  | cons p l ih =>
    rw [List.map_cons, lookup_cons_eq, ih, lookup_cons_eq, lookup_cons_eq]
    by_cases hp : p.1 = a
    · by_cases hb : b = a <;> simp [hp, hb]
    · by_cases hb : b = a
      · simp [hp, hb, Ne.symm hp]
      · simp [hp, hb]

theorem keys_replace (l : List (α × β)) (a : α) (r : β) :
    (l.map fun p => if p.1 = a then (a, r) else p).map Prod.fst = l.map Prod.fst := by
  rw [List.map_map]
  refine List.map_congr_left fun p _ => ?_
  by_cases hp : p.1 = a <;> simp [hp]

theorem lookup_append_singleton (l : List (α × β)) (a b : α) (r : β) (ha : l.lookup a = none) :
    (l ++ [(a, r)]).lookup b = if b = a then some r else l.lookup b := by
  induction l with
  | nil => simp [lookup_cons_eq]
  | cons p l ih =>
    rw [lookup_cons_eq] at ha
    by_cases hp : a = p.1
    · simp [hp] at ha
    · rw [if_neg hp] at ha
      rw [List.cons_append, lookup_cons_eq, lookup_cons_eq, ih ha]
      by_cases hb : b = p.1
      · have hba : b ≠ a := by
          rw [hb]
          exact Ne.symm hp
        simp [hb, Ne.symm hp]
      · simp [hb]

/-- Entries with different keys are found in any order. -/
theorem lookup_eq_of_perm {l l' : List (α × β)} (hn : (l.map Prod.fst).Nodup) (h : l.Perm l')
    (a : α) : l.lookup a = l'.lookup a := by
  have hn' : (l'.map Prod.fst).Nodup := (h.map Prod.fst).nodup_iff.mp hn
  cases ha : l.lookup a with
  | none =>
    refine (not_mem_keys_iff.mp fun hmem => ?_).symm
    exact not_mem_keys_iff.mpr ha ((h.map Prod.fst).mem_iff.mpr hmem)
  | some r => exact (lookup_of_mem hn' (h.mem_iff.mp (mem_of_lookup ha))).symm

/-- **Writes under different keys do not meet.** A loop whose steps change
what is read at their own key changes each value once. -/
theorem get_foldl_of_nodup {σ ν : Type*} (get : σ → α → Option ν) {step : σ → α × β → σ}
    (f : β → ν → ν)
    (hstep : ∀ s p a, get (step s p) a = (get s a).map fun v => if a = p.1 then f p.2 v else v)
    {l : List (α × β)} (hn : (l.map Prod.fst).Nodup) (s : σ) (a : α) :
    get (l.foldl step s) a = (get s a).map fun v => (l.lookup a).elim v fun b => f b v := by
  induction l generalizing s with
  | nil => simp
  | cons p l ih =>
    obtain ⟨hp, hl⟩ := List.nodup_cons.mp hn
    rw [List.foldl_cons, ih hl, hstep, Option.map_map]
    congr 1
    funext v
    rw [Function.comp_apply, lookup_cons_eq]
    by_cases ha : a = p.1
    · rw [if_pos ha, if_pos ha, ha, not_mem_keys_iff.mp hp]
      rfl
    · rw [if_neg ha, if_neg ha]

/-! ## Lists in step -/

universe u

variable {γ δ : Type u} {R : γ → δ → Prop}

theorem exists_right_of_mem {l : List γ} {u : List δ} (h : List.Forall₂ R l u) {a : γ}
    (ha : a ∈ l) : ∃ b ∈ u, R a b := by
  induction h with
  | nil => cases ha
  | cons hab _ ih =>
    obtain rfl | ha := List.mem_cons.mp ha
    · exact ⟨_, List.mem_cons_self, hab⟩
    · obtain ⟨b, hb, hR⟩ := ih ha
      exact ⟨b, List.mem_cons_of_mem _ hb, hR⟩

theorem exists_left_of_mem {l : List γ} {u : List δ} (h : List.Forall₂ R l u) {b : δ}
    (hb : b ∈ u) : ∃ a ∈ l, R a b := exists_right_of_mem h.flip hb

theorem forall₂_concat_left {l : List γ} {a : γ} {u : List δ}
    (h : List.Forall₂ R (l ++ [a]) u) :
    ∃ u' b, u = u' ++ [b] ∧ List.Forall₂ R l u' ∧ R a b := by
  induction l generalizing u with
  | nil =>
    obtain ⟨b, _, hab, hnil, rfl⟩ := List.forall₂_cons_left_iff.mp h
    obtain rfl := List.forall₂_nil_left_iff.mp hnil
    exact ⟨[], b, rfl, .nil, hab⟩
  | cons x l ih =>
    obtain ⟨y, _, hxy, hrest, rfl⟩ := List.forall₂_cons_left_iff.mp h
    obtain ⟨u', b, rfl, hl, hab⟩ := ih hrest
    exact ⟨y :: u', b, rfl, .cons hxy hl, hab⟩

/-! ## Loops that may raise -/

variable {ξ : Type*}

theorem bind_eq_ok {x : Except ξ γ} {f : γ → Except ξ δ} {b : δ} :
    (x >>= f) = .ok b ↔ ∃ a, x = .ok a ∧ f a = .ok b := by
  cases x with
  | ok a => exact ⟨fun h => ⟨a, rfl, h⟩, fun ⟨_, ha, h⟩ => (Except.ok.inj ha) ▸ h⟩
  | error e => exact ⟨fun h => (nomatch h), fun ⟨_, ha, _⟩ => (nomatch ha)⟩

theorem bind_ok_of_ok {x : Except ξ γ} {f : γ → Except ξ δ} {a : γ} {b : δ} (ha : x = .ok a)
    (h : f a = .ok b) : (x >>= f) = .ok b := bind_eq_ok.mpr ⟨a, ha, h⟩

theorem map_eq_ok {x : Except ξ γ} {f : γ → δ} {b : δ} :
    (f <$> x) = .ok b ↔ ∃ a, x = .ok a ∧ f a = b := by
  cases x with
  | ok a =>
    constructor
    · intro h
      exact ⟨a, rfl, Except.ok.inj h⟩
    · rintro ⟨_, ha, rfl⟩
      rw [Except.ok.inj ha]
      rfl
  | error e => exact ⟨fun h => (nomatch h), fun ⟨_, ha, _⟩ => (nomatch ha)⟩

theorem mapError_eq_ok {ζ : Type*} {x : Except ξ γ} {f : ξ → ζ} {a : γ} :
    x.mapError f = .ok a ↔ x = .ok a := by
  cases x with
  | ok b => simp [Except.mapError]
  | error e => simp [Except.mapError]

/-- The first step of a loop that came through, and the rest of it. -/
theorem foldlM_ok_cons {f : δ → γ → Except ξ δ} {a : γ} {l : List γ} {s t : δ}
    (h : (a :: l).foldlM f s = .ok t) : ∃ m, f s a = .ok m ∧ l.foldlM f m = .ok t := by
  rw [List.foldlM_cons] at h
  exact bind_eq_ok.mp h

/-- **Loop rule.** What holds before a loop that may raise, of nothing, and
goes from what is done to one element more, holds of the whole list where
the loop came through. -/
theorem foldlM_rule {f : δ → γ → Except ξ δ} (I : List γ → δ → Prop) {l : List γ} {s t : δ}
    (hstep : ∀ done, ∀ a ∈ l, ∀ s t, I done s → f s a = .ok t → I (done ++ [a]) t) (h : I [] s)
    (hrun : l.foldlM f s = .ok t) : I l t := by
  have hall : ∀ rest ⊆ l, ∀ done s, I done s → rest.foldlM f s = .ok t → I (done ++ rest) t := by
    intro rest
    induction rest with
    | nil =>
      intro _ done s h hrun
      cases hrun
      rwa [List.append_nil]
    | cons a rest ih =>
      intro hsub done s h hrun
      obtain ⟨s', hfirst, hrun⟩ := foldlM_ok_cons hrun
      obtain ⟨ha, hrest⟩ := List.cons_subset.mp hsub
      have hlast := ih hrest _ _ (hstep done a ha s s' h hfirst) hrun
      rwa [List.append_assoc] at hlast
  exact hall l (List.Subset.refl l) [] s h hrun

/-- A loop comes through when each of its steps does. -/
theorem foldlM_returns {f : δ → γ → Except ξ δ} (I : δ → Prop) {l : List γ} {s : δ}
    (hstep : ∀ a ∈ l, ∀ s, I s → ∃ t, f s a = .ok t ∧ I t) (h : I s) :
    ∃ t, l.foldlM f s = .ok t := by
  induction l generalizing s with
  | nil => exact ⟨s, rfl⟩
  | cons a l ih =>
    obtain ⟨s', hfirst, hs'⟩ := hstep a List.mem_cons_self s h
    obtain ⟨t, ht⟩ := ih (fun b hb => hstep b (List.mem_cons_of_mem a hb)) hs'
    exact ⟨t, List.foldlM_cons.trans (bind_ok_of_ok hfirst ht)⟩

theorem forall₂_of_mapM {f : γ → Except ξ δ} {l : List γ} {u : List δ} (h : l.mapM f = .ok u) :
    List.Forall₂ (fun a b => f a = .ok b) l u := by
  induction l generalizing u with
  | nil =>
    cases h
    exact .nil
  | cons a l ih =>
    rw [List.mapM_cons] at h
    obtain ⟨b, hb, h⟩ := bind_eq_ok.mp h
    obtain ⟨others, hothers, h⟩ := bind_eq_ok.mp h
    cases h
    exact .cons hb (ih hothers)

theorem mapM_returns {f : γ → Except ξ δ} {l : List γ} (h : ∀ a ∈ l, ∃ b, f a = .ok b) :
    ∃ u, l.mapM f = .ok u := by
  induction l with
  | nil => exact ⟨[], rfl⟩
  | cons a l ih =>
    obtain ⟨b, hb⟩ := h a List.mem_cons_self
    obtain ⟨u, hu⟩ := ih fun c hc => h c (List.mem_cons_of_mem a hc)
    rw [List.mapM_cons]
    exact ⟨b :: u, bind_ok_of_ok hb (bind_ok_of_ok hu rfl)⟩

theorem mapM_congr {f g : γ → Except ξ δ} {l : List γ} (h : ∀ a ∈ l, f a = g a) :
    l.mapM f = l.mapM g := by
  induction l with
  | nil => rfl
  | cons a l ih =>
    rw [List.mapM_cons, List.mapM_cons, h a List.mem_cons_self,
      ih fun b hb => h b (List.mem_cons_of_mem a hb)]

/-- A loop follows another list where each of its elements does. -/
theorem mapM_rel {β : Type*} {R : γ → β → Prop} {S : δ → β → Prop} {f : γ → Except ξ δ}
    {l : List γ} {ys : List β} (hl : List.Forall₂ R l ys)
    (h : ∀ a b, R a b → ∃ c, f a = .ok c ∧ S c b) :
    ∃ u, l.mapM f = .ok u ∧ List.Forall₂ S u ys := by
  induction hl with
  | nil => exact ⟨[], rfl, .nil⟩
  | cons hab _ ih =>
    obtain ⟨c, hc, hS⟩ := h _ _ hab
    obtain ⟨u, hu, hrest⟩ := ih
    rw [List.mapM_cons]
    exact ⟨c :: u, bind_ok_of_ok hc (bind_ok_of_ok hu rfl), .cons hS hrest⟩

/-- Two loops over one list. -/
theorem forall₂_of_mapM₂ {β : Type*} {R : δ → β → Prop} {f : γ → Except ξ δ} {g : γ → Except ξ β}
    {l : List γ} {u : List δ} {v : List β} (hf : l.mapM f = .ok u) (hg : l.mapM g = .ok v)
    (h : ∀ a ∈ l, ∀ b c, f a = .ok b → g a = .ok c → R b c) : List.Forall₂ R u v := by
  induction l generalizing u v with
  | nil =>
    cases hf
    cases hg
    exact .nil
  | cons a l ih =>
    rw [List.mapM_cons] at hf hg
    obtain ⟨b, hb, hf⟩ := bind_eq_ok.mp hf
    obtain ⟨us, hus, hf⟩ := bind_eq_ok.mp hf
    obtain ⟨c, hc, hg⟩ := bind_eq_ok.mp hg
    obtain ⟨vs, hvs, hg⟩ := bind_eq_ok.mp hg
    cases hf
    cases hg
    exact .cons (h a List.mem_cons_self b c hb hc)
      (ih hus hvs fun x hx => h x (List.mem_cons_of_mem a hx))

/-- Every element of a mapped list is the image of an element. -/
theorem exists_of_mapM {f : γ → Except ξ δ} {l : List γ} {u : List δ} (h : l.mapM f = .ok u) :
    ∀ b ∈ u, ∃ a ∈ l, f a = .ok b := fun _ hb => exists_left_of_mem (forall₂_of_mapM h) hb

theorem forall₂_of_mapM_some {α β : Type*} {f : α → Option β} {l : List α} {u : List β}
    (h : l.mapM f = some u) : List.Forall₂ (fun a b => f a = some b) l u := by
  induction l generalizing u with
  | nil =>
    obtain rfl := Option.some.inj h
    exact .nil
  | cons a l ih =>
    simp only [List.mapM_cons, Option.bind_eq_bind, Option.bind_eq_some_iff, Option.pure_def,
      Option.some.injEq] at h
    obtain ⟨b, hb, others, hothers, rfl⟩ := h
    exact .cons hb (ih hothers)

/-- A loop that reads and a loop that writes again. -/
theorem mapM_bind_mapM_iff {α β γ : Type} {f : α → Option β} {g : β → Option γ} {vs : List α}
    {ws : List γ} :
    (vs.mapM f).bind (List.mapM g) = some ws ↔
      List.Forall₂ (fun v w => (f v).bind g = some w) vs ws := by
  induction vs generalizing ws with
  | nil =>
    rw [List.forall₂_nil_left_iff]
    simp [eq_comm]
  | cons v vs ih =>
    have hcons : ((v :: vs).mapM f).bind (List.mapM g) =
        ((f v).bind g).bind fun w => ((vs.mapM f).bind (List.mapM g)).map (w :: ·) := by
      cases hv : f v with
      | none => simp [hv]
      | some b =>
        cases hvs : vs.mapM f with
        | none => simp [hv, hvs]
        | some bs =>
          simp only [List.mapM_cons, hv, hvs, Option.bind_eq_bind, Option.bind_some,
            Option.pure_def, Option.map_eq_bind]
          rfl
    rw [hcons, Option.bind_eq_some_iff, List.forall₂_cons_left_iff]
    simp only [Option.map_eq_some_iff, ih]
    constructor
    · intro h
      obtain ⟨w, hw, us, hus, rfl⟩ := h
      exact ⟨w, us, hw, hus, rfl⟩
    · intro h
      obtain ⟨w, us, hw, hus, rfl⟩ := h
      exact ⟨w, hw, us, hus, rfl⟩

end TdSandboxed.Lib
