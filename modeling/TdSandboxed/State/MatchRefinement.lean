/-
TdSandboxed.State.MatchRefinement — the two models of `_match_positions`
agree.

`PositionMatching` reads texts and compares in `decimal`'s context, and may
raise; `PositionReconciler` has numbers and exact differences. `Represents`,
`Reports` and `Shows` are the abstraction. Where it is given and no
difference of volumes is too close above the tolerance to be told from it
(`Decided`), the run on texts returns and shows what the run on numbers
answers, in the same order (`matchPositions_refines`).

The inner loop stops where `takeFirst` does (`findMatch_refines`), and one
turn after the other gives `matchLoop`.
-/
import TdSandboxed.State.MatchTheorems
import TdSandboxed.State.PositionPartition

namespace TdSandboxed.PositionMatching

open Lib
open SnapshotCodec (asciiData)
open PositionReconciler (takeFirst matchLoop compare)
open PositionReconciler renaming Held → SavedPosition

/-! ## The abstraction -/

/-- A number without the sign of a zero. -/
def PyDecimalIs (d : PyDecimal) (n : Decimal) : Prop :=
  ∃ negative coefficient exponent, d.1 = .finite negative coefficient exponent ∧
    n = { coefficient := if negative then -(coefficient : ℤ) else coefficient, exponent }

/-- A text and the number it is read as. -/
def ReadsAs (unicode : UnicodeData) (text : String) (n : NumberText) : Prop :=
  ∃ d, readDecimal unicode text = .ok d ∧ PyDecimalIs d n.number

structure Represents (unicode : UnicodeData) (p : PositionDict) (q : TdSandboxed.PositionDict) :
    Prop where
  symbol : p.get? "symbol" = q.symbol
  side : p.get? "side" = q.side
  volume : Option.Rel (ReadsAs unicode) (p.get? "volume") q.volume
  entryPrice : Option.Rel (ReadsAs unicode) (p.get? "entry_price") q.entryPrice

structure Reports (m : MT5Position) (r : Mt5Report) : Prop where
  symbol : m.symbol = r.symbol
  side : m.side = r.side
  volume : PyDecimalIs m.volume r.volume
  entryPrice : PyDecimalIs m.entryPrice r.entryPrice

structure Shows (d : PositionDiscrepancy) (d' : TdSandboxed.PositionDiscrepancy) : Prop where
  discrepancyType : d.discrepancyType = d'.discrepancyType
  accountId : d.accountId = d'.accountId
  symbol : d.symbol = d'.symbol
  snapshotSide : d.snapshotSide = d'.snapshotSide
  mt5Side : d.mt5Side = d'.mt5Side
  snapshotVolume : Option.Rel PyDecimalIs d.snapshotVolume d'.snapshotVolume
  mt5Volume : Option.Rel PyDecimalIs d.mt5Volume d'.mt5Volume
  snapshotEntryPrice : Option.Rel PyDecimalIs d.snapshotEntryPrice d'.snapshotEntryPrice
  mt5EntryPrice : Option.Rel PyDecimalIs d.mt5EntryPrice d'.mt5EntryPrice

/-- A dict and the position that matching has made of it. -/
structure Holds (unicode : UnicodeData) (p : PositionDict) (h : SavedPosition) : Prop where
  symbol : p.get? "symbol" = some h.symbol
  side : p.get? "side" = some h.side
  volume : ∃ d, readVolume unicode p = .ok d ∧ PyDecimalIs d h.volume
  entryPrice : ∃ d, readField unicode p "entry_price" = .ok d ∧
    Option.Rel PyDecimalIs d h.entryPrice

/-- Numbers that `decimal` can subtract, and not so little above the
tolerance apart that the difference is rounded to it. -/
def Decided (x y : ℚ) : Prop :=
  |x| ≤ 10 ^ (DecimalValue.maxExponent - 1) ∧ |y| ≤ 10 ^ (DecimalValue.maxExponent - 1) ∧
    (|x - y| ≤ PositionReconciler.volumeTolerance ∨ volumeBound < |x - y|)

theorem PyDecimalIs.value {d : PyDecimal} {n : Decimal} (h : PyDecimalIs d n) :
    d.value = .finite n.value := by
  obtain ⟨negative, coefficient, exponent, hd, rfl⟩ := h
  rw [PyDecimal.value, hd, DecimalForm.value, Decimal.value]
  cases negative <;> simp

theorem volumeTolerance_lt : PositionReconciler.volumeTolerance < volumeBound := by
  norm_num [PositionReconciler.volumeTolerance, volumeBound]

/-- Numbers of at most thirty decimal places are decided. -/
theorem decided_of_places {x y : ℚ} {a b : ℤ} (hx : x = a * 10 ^ (-30 : ℤ))
    (hy : y = b * 10 ^ (-30 : ℤ)) (hxle : |x| ≤ 10 ^ (DecimalValue.maxExponent - 1))
    (hyle : |y| ≤ 10 ^ (DecimalValue.maxExponent - 1)) : Decided x y := by
  refine ⟨hxle, hyle, ?_⟩
  obtain ⟨n, hn⟩ : ∃ n : ℤ, |x - y| = n * 10 ^ (-30 : ℤ) := by
    refine ⟨|a - b|, ?_⟩
    have hpos : (0 : ℚ) < 10 ^ (-30 : ℤ) := zpow_pos (by norm_num) _
    rw [hx, hy, ← sub_mul, abs_mul, abs_of_pos hpos]
    push_cast
    rfl
  rw [hn, volumeBound, PositionReconciler.volumeTolerance]
  rcases le_or_gt n (10 ^ 27) with h | h
  · left
    have hle : (n : ℚ) ≤ 10 ^ 27 := by exact_mod_cast h
    norm_num
    linarith
  · right
    have hlt : (10 ^ 27 + 1 : ℚ) ≤ n := by exact_mod_cast h
    norm_num
    linarith

/-! ## Reading -/

section
variable {unicode : UnicodeData} {a : String} {p : PositionDict} {q : TdSandboxed.PositionDict}
  {h : SavedPosition} {m : MT5Position} {r : Mt5Report} {volume : PyDecimal}

/-- A field that is there is read as its number. -/
theorem readField_of_rel {field : String} {n : Option NumberText}
    (hrel : Option.Rel (ReadsAs unicode) (p.get? field) n) :
    ∃ d, readField unicode p field = .ok d ∧ Option.Rel PyDecimalIs d (n.map (·.number)) := by
  unfold readField
  generalize p.get? field = text at hrel
  cases hrel with
  | none => exact ⟨none, rfl, .none⟩
  | some hread =>
    obtain ⟨d, hd, his⟩ := hread
    exact ⟨some d, congrArg (Except.map some) hd, .some his⟩

theorem isSome_of_rel {α β : Type*} {R : α → β → Prop} {x : Option α} {y : Option β}
    (hrel : Option.Rel R x y) : x.isSome = y.isSome := by
  cases hrel <;> rfl

/-- Both models call the same positions valid. -/
theorem validatePositionDict_of_represents (hp : Represents unicode p q) :
    validatePositionDict p = (PositionReconciler.validatePositionDict q).isSome := by
  have hvolume := isSome_of_rel hp.volume
  simp only [validatePositionDict, List.all_cons, List.all_nil, Bool.and_true, hp.symbol, hp.side,
    hvolume, PositionReconciler.validatePositionDict]
  cases q.symbol <;> cases q.side <;> cases q.volume <;> rfl

theorem holds_of_represents (hp : Represents unicode p q)
    (hq : PositionReconciler.validatePositionDict q = some h) : Holds unicode p h := by
  obtain ⟨hsymbol, hside, hvolume, hprice⟩ := hp
  unfold PositionReconciler.validatePositionDict at hq
  split at hq
  · next symbol side n hs hd hv =>
    cases hq
    refine ⟨hsymbol.trans hs, hside.trans hd, ?_, readField_of_rel hprice⟩
    rw [hv] at hvolume
    unfold readVolume item
    generalize p.get? "volume" = text at hvolume
    cases hvolume with
    | some hread => exact hread
  · cases hq

/-! ## Discrepancies -/

theorem createInvalidDiscrepancy_refines (hp : Represents unicode p q) :
    ∃ d, createInvalidDiscrepancy unicode a p = .ok d ∧
      Shows d (PositionReconciler.createInvalidDiscrepancy a q) := by
  obtain ⟨volume, hvolume, hvolumeIs⟩ := readField_of_rel hp.volume
  obtain ⟨price, hprice, hpriceIs⟩ := readField_of_rel hp.entryPrice
  refine ⟨_, bind_ok_of_ok hvolume (bind_ok_of_ok hprice rfl), ?_⟩
  exact ⟨rfl, rfl, congrArg (·.getD "UNKNOWN") hp.symbol, hp.side, rfl, hvolumeIs, .none, hpriceIs,
    .none⟩

theorem createOrphanDiscrepancy_refines (hp : Holds unicode p h) :
    ∃ d, createOrphanDiscrepancy unicode a p = .ok d ∧
      Shows d (PositionReconciler.createOrphanDiscrepancy a h) := by
  obtain ⟨volume, hvolume, hvolumeIs⟩ := hp.volume
  obtain ⟨price, hprice, hpriceIs⟩ := hp.entryPrice
  refine ⟨_, bind_ok_of_ok (item_eq_ok.mpr hp.symbol) (bind_ok_of_ok (item_eq_ok.mpr hp.side)
    (bind_ok_of_ok hvolume (bind_ok_of_ok hprice rfl))), ?_⟩
  exact ⟨rfl, rfl, rfl, rfl, rfl, .some hvolumeIs, .none, hpriceIs, .none⟩

theorem createUnknownDiscrepancy_refines (hm : Reports m r) :
    Shows (createUnknownDiscrepancy a m) (PositionReconciler.createUnknownDiscrepancy a r) :=
  ⟨rfl, rfl, hm.symbol, rfl, congrArg some hm.side, .none, .some hm.volume, .none,
    .some hm.entryPrice⟩

theorem createMismatch_refines (type : DiscrepancyType) (hp : Holds unicode p h)
    (hm : Reports m r) :
    ∃ d, createMismatch unicode a type p m = .ok d ∧
      Shows d (PositionReconciler.createMismatch type a h r) := by
  obtain ⟨volume, hvolume, hvolumeIs⟩ := hp.volume
  obtain ⟨price, hprice, hpriceIs⟩ := hp.entryPrice
  refine ⟨_, bind_ok_of_ok hvolume (bind_ok_of_ok (item_eq_ok.mpr hp.side)
    (bind_ok_of_ok hprice rfl)), ?_⟩
  exact ⟨rfl, rfl, hm.symbol, rfl, congrArg some hm.side, .some hvolumeIs, .some hm.volume,
    hpriceIs, .some hm.entryPrice⟩

/-- The comparison does not raise, and decides what the exact one does. -/
theorem volumesAgree_refines (hm : PyDecimalIs m.volume r.volume) (hp : PyDecimalIs volume h.volume)
    (hdecided : Decided r.volume.value h.volume.value) :
    volumesAgree m volume = .ok (PositionReconciler.volumesAgree h r) := by
  obtain ⟨hmle, hple, hgap⟩ := hdecided
  obtain ⟨agree, hagree⟩ := DecimalValue.within_of_le (10 ^ (-3 : ℤ)) hmle hple
  have hok : volumesAgree m volume = .ok agree := by
    rw [volumesAgree, hm.value, hp.value, volumeTolerance, hagree]
    rfl
  have hiff : agree = true ↔ |r.volume.value - h.volume.value| ≤ volumeBound := by
    rw [volumesAgree_iff hok, hm.value, hp.value]
    constructor
    · rintro ⟨_, _, ⟨⟩, ⟨⟩, hle⟩
      exact hle
    · exact fun hle => ⟨_, _, rfl, rfl, hle⟩
  have hexact : |r.volume.value - h.volume.value| ≤ volumeBound ↔
      |r.volume.value - h.volume.value| ≤ PositionReconciler.volumeTolerance := by
    constructor
    · exact fun hle => hgap.resolve_right (not_lt.mpr hle)
    · exact fun hle => hle.trans volumeTolerance_lt.le
  rw [hok, PositionReconciler.volumesAgree, Except.ok.injEq, Bool.eq_iff_iff, hiff, hexact,
    decide_eq_true_iff]

/-! ## The loop -/

/-- The pair that a snapshot position makes with the MT5 position it takes. -/
def pairsOf (a : String) (h : SavedPosition) (r : Mt5Report) : List (SavedPosition × Mt5Report) :=
  if compare a h r = none then [(h, r)] else []

/-- One turn of the loop on numbers. -/
def turnOf (a : String) (h : SavedPosition) (rs : List Mt5Report) :
    List (SavedPosition × Mt5Report) × List TdSandboxed.PositionDiscrepancy × List Mt5Report :=
  match takeFirst h.symbol rs with
  | none => ([], [PositionReconciler.createOrphanDiscrepancy a h], rs)
  | some (r, rest) => (pairsOf a h r, (compare a h r).toList, rest)

theorem matchLoop_cons (h : SavedPosition) (hs : List SavedPosition) (rs : List Mt5Report) :
    matchLoop a (h :: hs) rs =
      let (pairs, ds, rest) := turnOf a h rs
      let (pairs', ds', rest') := matchLoop a hs rest
      (pairs ++ pairs', ds ++ ds', rest') := by
  rw [matchLoop, turnOf]
  cases takeFirst h.symbol rs with
  | none => rfl
  | some found =>
    obtain ⟨r, rest⟩ := found
    cases hd : compare a h r <;> simp [pairsOf, hd]

theorem takeFirst_subset {symbol : String} {rs rest : List Mt5Report}
    (hfound : takeFirst symbol rs = some (r, rest)) : rest ⊆ rs := by
  induction rs generalizing rest with
  | nil => cases hfound
  | cons r' rs ih =>
    rw [takeFirst] at hfound
    split at hfound
    · cases hfound
      exact List.subset_cons_self _ _
    · obtain ⟨⟨r'', rest'⟩, hfound', heq⟩ := Option.map_eq_some_iff.mp hfound
      cases heq
      exact List.cons_subset_cons r' (ih hfound')

theorem turnOf_rest_subset {rs : List Mt5Report} : (turnOf a h rs).2.2 ⊆ rs := by
  rw [turnOf]
  cases hfound : takeFirst h.symbol rs with
  | none => exact List.Subset.refl rs
  | some found => exact takeFirst_subset hfound

/-- What a stretch of the run on texts has added, against what that on
numbers has. -/
structure Extends (unicode : UnicodeData) (s s' : Matching)
    (pairs : List (SavedPosition × Mt5Report))
    (ds : List TdSandboxed.PositionDiscrepancy) (rest : List Mt5Report) : Prop where
  pairs : ∃ new, s'.matchedPairs = s.matchedPairs ++ new ∧
    List.Forall₂ (fun x y => Holds unicode x.1 y.1 ∧ Reports x.2 y.2) new pairs
  discrepancies : ∃ new, s'.discrepancies = s.discrepancies ++ new ∧ List.Forall₂ Shows new ds
  unmatched : List.Forall₂ Reports s'.mt5Unmatched rest

theorem Extends.trans {s s' s'' : Matching} {pairs pairs' : List (SavedPosition × Mt5Report)}
    {ds ds' : List TdSandboxed.PositionDiscrepancy} {rest rest' : List Mt5Report}
    (hfirst : Extends unicode s s' pairs ds rest)
    (hnext : Extends unicode s' s'' pairs' ds' rest') :
    Extends unicode s s'' (pairs ++ pairs') (ds ++ ds') rest' := by
  obtain ⟨⟨newPairs, hpairs, hpairsIs⟩, ⟨newDs, hds, hdsIs⟩, -⟩ := hfirst
  obtain ⟨⟨newPairs', hpairs', hpairsIs'⟩, ⟨newDs', hds', hdsIs'⟩, hrest⟩ := hnext
  refine ⟨⟨newPairs ++ newPairs', ?_, List.rel_append hpairsIs hpairsIs'⟩,
    ⟨newDs ++ newDs', ?_, List.rel_append hdsIs hdsIs'⟩, hrest⟩
  · rw [hpairs', hpairs, List.append_assoc]
  · rw [hds', hds, List.append_assoc]

/-- The position that is found, and what becomes of it. -/
theorem found_refines (hp : Holds unicode p h) (hvolume : PyDecimalIs volume h.volume)
    (hm : Reports m r) {s : Matching} {before after : List MT5Position} {rest : List Mt5Report}
    (hs : s.mt5Unmatched = before ++ m :: after)
    (hrest : List.Forall₂ Reports (before ++ after) rest)
    (hbefore : ∀ x ∈ before, x.symbol ≠ h.symbol) (hsymbol : m.symbol = h.symbol)
    (hdecided : r.side = h.side → Decided r.volume.value h.volume.value) :
    ∃ s', findMatch unicode a s p h.symbol h.side volume (m :: after) = .ok (some s') ∧
      Extends unicode s s' (pairsOf a h r) (compare a h r).toList rest := by
  have hremove : remove m s.mt5Unmatched = .ok (before ++ after) := by
    rw [hs]
    exact remove_append (hsymbol ▸ hbefore)
  rw [findMatch, if_pos hsymbol, pairsOf, PositionReconciler.compare, hm.side]
  by_cases hne : r.side ≠ h.side
  · obtain ⟨d, hd, hshows⟩ := createMismatch_refines (a := a) .sideMismatch hp hm
    rw [if_pos hne, if_pos hne]
    exact ⟨_, bind_ok_of_ok hd (bind_ok_of_ok hremove rfl),
      ⟨[], (List.append_nil _).symm, .nil⟩, ⟨[d], rfl, .cons hshows .nil⟩, hrest⟩
  · have hagree := volumesAgree_refines hm.volume hvolume (hdecided (not_not.mp hne))
    rw [if_neg hne, if_neg hne]
    by_cases hok : PositionReconciler.volumesAgree h r = true
    · rw [hok] at hagree
      rw [if_pos hok]
      exact ⟨_, bind_ok_of_ok hagree (bind_ok_of_ok hremove rfl),
        ⟨[(p, m)], rfl, .cons ⟨hp, hm⟩ .nil⟩, ⟨[], (List.append_nil _).symm, .nil⟩, hrest⟩
    · obtain ⟨d, hd, hshows⟩ := createMismatch_refines (a := a) .volumeMismatch hp hm
      rw [Bool.eq_false_of_not_eq_true hok] at hagree
      rw [if_neg hok]
      exact ⟨_, bind_ok_of_ok hagree (bind_ok_of_ok hd (bind_ok_of_ok hremove rfl)),
        ⟨[], (List.append_nil _).symm, .nil⟩, ⟨[d], rfl, .cons hshows .nil⟩, hrest⟩

/-- The inner loop, where it has come to, stops where `takeFirst` does. -/
theorem findMatch_refines (hp : Holds unicode p h) (hvolume : PyDecimalIs volume h.volume)
    {s : Matching} {before ms : List MT5Position} {rsBefore rs : List Mt5Report}
    (hs : s.mt5Unmatched = before ++ ms)
    (hms : List.Forall₂ Reports ms rs) (hmsBefore : List.Forall₂ Reports before rsBefore)
    (hbefore : ∀ x ∈ before, x.symbol ≠ h.symbol)
    (hdecided : ∀ r ∈ rs, r.symbol = h.symbol → r.side = h.side →
      Decided r.volume.value h.volume.value) :
    match takeFirst h.symbol rs with
    | none => findMatch unicode a s p h.symbol h.side volume ms = .ok none
    | some (r, rest) => ∃ s', findMatch unicode a s p h.symbol h.side volume ms = .ok (some s') ∧
        Extends unicode s s' (pairsOf a h r) (compare a h r).toList (rsBefore ++ rest) := by
  induction hms generalizing before rsBefore with
  | nil => rfl
  | @cons m r ms rs hm hms ih =>
    rw [takeFirst]
    by_cases hsymbol : r.symbol = h.symbol
    · rw [if_pos hsymbol]
      exact found_refines hp hvolume hm hs (List.rel_append hmsBefore hms) hbefore
        (hm.symbol.trans hsymbol) (hdecided r List.mem_cons_self hsymbol)
    · have hne : m.symbol ≠ h.symbol := hm.symbol ▸ hsymbol
      have hbefore' : ∀ x ∈ before ++ [m], x.symbol ≠ h.symbol := by
        intro x hx
        rcases List.mem_append.mp hx with hx | hx
        · exact hbefore x hx
        · exact List.mem_singleton.mp hx ▸ hne
      have hrest := ih (by rw [hs, List.append_assoc]; rfl)
        (List.rel_append hmsBefore (.cons hm .nil)) hbefore'
        fun r' hr' => hdecided r' (List.mem_cons_of_mem r hr')
      rw [if_neg hsymbol, findMatch, if_neg hne]
      generalize takeFirst h.symbol rs = found at hrest
      cases found with
      | none => exact hrest
      | some found =>
        obtain ⟨s', hs', hextends⟩ := hrest
        rw [List.append_assoc] at hextends
        exact ⟨s', hs', hextends⟩

theorem matchPosition_refines (hp : Holds unicode p h) {s : Matching} {rs : List Mt5Report}
    (hs : List.Forall₂ Reports s.mt5Unmatched rs)
    (hdecided : ∀ r ∈ rs, r.symbol = h.symbol → r.side = h.side →
      Decided r.volume.value h.volume.value) :
    ∃ s', matchPosition unicode a s p = .ok s' ∧
      Extends unicode s s' (turnOf a h rs).1 (turnOf a h rs).2.1 (turnOf a h rs).2.2 := by
  obtain ⟨volume, hread, hvolume⟩ := hp.volume
  have hfind := findMatch_refines (a := a) hp hvolume (List.nil_append _).symm hs .nil (by simp)
    hdecided
  rw [turnOf]
  generalize takeFirst h.symbol rs = found at hfind
  cases found with
  | none =>
    obtain ⟨d, hd, hshows⟩ := createOrphanDiscrepancy_refines (a := a) hp
    refine ⟨_, bind_ok_of_ok (item_eq_ok.mpr hp.symbol) (bind_ok_of_ok (item_eq_ok.mpr hp.side)
      (bind_ok_of_ok hread (bind_ok_of_ok hfind (bind_ok_of_ok hd rfl)))), ?_⟩
    exact ⟨⟨[], (List.append_nil _).symm, .nil⟩, ⟨[d], rfl, .cons hshows .nil⟩, hs⟩
  | some found =>
    obtain ⟨s', hs', hextends⟩ := hfind
    refine ⟨s', bind_ok_of_ok (item_eq_ok.mpr hp.symbol) (bind_ok_of_ok (item_eq_ok.mpr hp.side)
      (bind_ok_of_ok hread (bind_ok_of_ok hs' rfl))), hextends⟩

theorem matchLoop_refines {ps : List PositionDict} {hs : List SavedPosition}
    (hps : List.Forall₂ (Holds unicode) ps hs) {s : Matching} {rs all : List Mt5Report}
    (hms : List.Forall₂ Reports s.mt5Unmatched rs) (hsub : rs ⊆ all)
    (hdecided : ∀ h ∈ hs, ∀ r ∈ all, r.symbol = h.symbol → r.side = h.side →
      Decided r.volume.value h.volume.value) :
    ∃ s', ps.foldlM (matchPosition unicode a) s = .ok s' ∧
      Extends unicode s s' (matchLoop a hs rs).1 (matchLoop a hs rs).2.1
        (matchLoop a hs rs).2.2 := by
  induction hps generalizing s rs with
  | nil =>
    exact ⟨s, rfl, ⟨[], (List.append_nil _).symm, .nil⟩, ⟨[], (List.append_nil _).symm, .nil⟩,
      hms⟩
  | @cons p h ps hs hp hps ih =>
    obtain ⟨s', hs', hturn⟩ := matchPosition_refines (a := a) hp hms
      fun r hr => hdecided h List.mem_cons_self r (hsub hr)
    have hsub' : (turnOf a h rs).2.2 ⊆ all := fun r hr => hsub (turnOf_rest_subset hr)
    obtain ⟨s'', hs'', hloop⟩ := ih hturn.unmatched hsub'
      fun h' hh' => hdecided h' (List.mem_cons_of_mem h hh')
    rw [matchLoop_cons]
    exact ⟨s'', bind_ok_of_ok hs' hs'', hturn.trans hloop⟩

/-! ## The run -/

theorem valid_refines {ps : List PositionDict} {qs : List TdSandboxed.PositionDict}
    (hps : List.Forall₂ (Represents unicode) ps qs) :
    List.Forall₂ (Holds unicode) (ps.filter validatePositionDict)
      (qs.filterMap PositionReconciler.validatePositionDict) := by
  induction hps with
  | nil => exact .nil
  | @cons p q ps qs hp hps ih =>
    have hvalid := validatePositionDict_of_represents hp
    cases hq : PositionReconciler.validatePositionDict q with
    | none =>
      rw [List.filter_cons_of_neg (by simp [hvalid, hq]), List.filterMap_cons_none hq]
      exact ih
    | some h =>
      rw [List.filter_cons_of_pos (by simp [hvalid, hq]), List.filterMap_cons_some hq]
      exact .cons (holds_of_represents hp hq) ih

theorem invalid_refines {ps : List PositionDict} {qs : List TdSandboxed.PositionDict}
    (hps : List.Forall₂ (Represents unicode) ps qs) :
    List.Forall₂ (Represents unicode) (ps.filter fun p => !validatePositionDict p)
      (qs.filter fun q => (PositionReconciler.validatePositionDict q).isNone) := by
  induction hps with
  | nil => exact .nil
  | @cons p q ps qs hp hps ih =>
    have hvalid := validatePositionDict_of_represents hp
    cases hq : PositionReconciler.validatePositionDict q with
    | none =>
      rw [List.filter_cons_of_pos (by simp [hvalid, hq]),
        List.filter_cons_of_pos (by simp [hq])]
      exact .cons hp ih
    | some h =>
      rw [List.filter_cons_of_neg (by simp [hvalid, hq]),
        List.filter_cons_of_neg (by simp [hq])]
      exact ih

/-- **The run on texts does what the run on numbers says.** -/
theorem matchPositions_refines (unicode : UnicodeData) (a : String) {ps : List PositionDict}
    {qs : List TdSandboxed.PositionDict} {ms : List MT5Position} {rs : List Mt5Report}
    (hps : List.Forall₂ (Represents unicode) ps qs) (hms : List.Forall₂ Reports ms rs)
    (hdecided : ∀ h ∈ qs.filterMap PositionReconciler.validatePositionDict, ∀ r ∈ rs,
      r.symbol = h.symbol → r.side = h.side → Decided r.volume.value h.volume.value) :
    ∃ pairs ds, matchPositions unicode a ps ms = .ok (pairs, ds) ∧
      List.Forall₂ (fun x y => Holds unicode x.1 y.1 ∧ Reports x.2 y.2) pairs
        (PositionReconciler.matchPositions a qs rs).1 ∧
      List.Forall₂ Shows ds (PositionReconciler.matchPositions a qs rs).2 := by
  obtain ⟨invalid, hinvalid, hinvalidIs⟩ := mapM_rel (invalid_refines hps)
    fun p q hp => createInvalidDiscrepancy_refines (a := a) hp
  obtain ⟨s, hs, ⟨pairs, hpairs, hpairsIs⟩, ⟨ds, hds, hdsIs⟩, hrest⟩ :=
    matchLoop_refines (a := a) (s := { discrepancies := invalid, mt5Unmatched := ms })
      (valid_refines hps) hms (List.Subset.refl rs) hdecided
  have hunknown : List.Forall₂ Shows (s.mt5Unmatched.map (createUnknownDiscrepancy a)) _ :=
    List.forall₂_map_left_iff.mpr (List.forall₂_map_right_iff.mpr
      (hrest.imp fun _ _ hm => createUnknownDiscrepancy_refines hm))
  refine ⟨_, _, bind_ok_of_ok hinvalid (bind_ok_of_ok hs rfl), ?_, ?_⟩
  · rw [hpairs]
    exact hpairsIs
  · rw [hds]
    exact List.rel_append (List.rel_append (List.forall₂_map_right_iff.mpr hinvalidIs) hdsIs)
      hunknown

end

/-! ## A run -/

open PositionReconciler (heldGold reportedGold tenth)

def fifth : Decimal := { coefficient := 2, exponent := -1 }

/-- A fifth of a lot. -/
def fifthLot : PyDecimal := ⟨.finite false 2 (-1), inRange_tenths 2 (by decide)⟩

theorem represents_gold : Represents asciiData (goldDict "0.1" []) (heldGold "BUY" tenth) where
  symbol := rfl
  side := rfl
  volume := .some ⟨tenthLot, rfl, false, 1, -1, rfl, rfl⟩
  entryPrice := .none

theorem reports_gold {lot : PyDecimal} {n : Decimal} (h : PyDecimalIs lot n) :
    Reports (goldPosition lot) { reportedGold "BUY" n with entryPrice := tenth } where
  symbol := rfl
  side := rfl
  volume := h
  entryPrice := ⟨false, 1, -1, rfl, rfl⟩

theorem decided_tenths {n : ℤ} (h : |n| ≤ 10) :
    Decided (n * 10 ^ (-1 : ℤ)) (1 * 10 ^ (-1 : ℤ)) := by
  have hone : (1 : ℚ) ≤ 10 ^ (DecimalValue.maxExponent - 1) :=
    one_le_zpow₀ (by norm_num) (by decide)
  have hn : |(n : ℚ)| ≤ 10 := by exact_mod_cast h
  refine decided_of_places (a := n * 10 ^ 29) (b := 10 ^ 29) ?_ ?_ ?_ ?_
  · push_cast
    norm_num
    ring
  · norm_num
  · refine le_trans ?_ hone
    rw [abs_mul]
    norm_num
    linarith
  · refine le_trans ?_ hone
    norm_num

/-- Two equal dicts, and two positions in MT5 of which one is larger. -/
theorem matchPositions_refines_gold :
    ∃ pairs ds, matchPositions asciiData "ftmo-gold-001" [goldDict "0.1" [], goldDict "0.1" []]
        [goldPosition fifthLot, goldPosition tenthLot] = .ok (pairs, ds) ∧
      List.Forall₂ (fun x y => Holds asciiData x.1 y.1 ∧ Reports x.2 y.2) pairs
        (PositionReconciler.matchPositions "ftmo-gold-001"
          [heldGold "BUY" tenth, heldGold "BUY" tenth]
          [{ reportedGold "BUY" fifth with entryPrice := tenth },
            { reportedGold "BUY" tenth with entryPrice := tenth }]).1 ∧
      List.Forall₂ Shows ds
        (PositionReconciler.matchPositions "ftmo-gold-001"
          [heldGold "BUY" tenth, heldGold "BUY" tenth]
          [{ reportedGold "BUY" fifth with entryPrice := tenth },
            { reportedGold "BUY" tenth with entryPrice := tenth }]).2 := by
  refine matchPositions_refines asciiData "ftmo-gold-001"
    (.cons represents_gold (.cons represents_gold .nil))
    (.cons (reports_gold ⟨false, 2, -1, rfl, rfl⟩)
      (.cons (reports_gold ⟨false, 1, -1, rfl, rfl⟩) .nil))
    ?_
  intro h hh r hr _ _
  have hvolume : h.volume.value = 1 * 10 ^ (-1 : ℤ) := by
    have hh' : h = { symbol := "XAUUSD", side := "BUY", volume := tenth, entryPrice := none } := by
      simpa [heldGold, PositionReconciler.validatePositionDict, Decimal.str] using hh
    rw [hh']
    norm_num [Decimal.value, tenth]
  rw [hvolume]
  simp only [List.mem_cons, List.not_mem_nil, or_false] at hr
  rcases hr with rfl | rfl
  · exact decided_tenths (n := 2) (by decide)
  · exact decided_tenths (n := 1) (by decide)

end TdSandboxed.PositionMatching
