/-
TdSandboxed.State.MatchTheorems — the discrepancies of a reconciliation and
the order of the two position lists.

Within one symbol the matcher pairs the snapshot's positions off with
MT5's in the order of the lists (`matchLoop_filter`). Two hedged positions
reported in another order are therefore two side mismatches, and two
positions of different volumes two volume mismatches.

`OrderFree` for the lists as a whole comes down to `Lib.OrderFree` for the
lots of each symbol.
-/
import Mathlib.Algebra.BigOperators.Group.List.Basic
import Mathlib.Tactic.NormNum
import TdSandboxed.Lib.Matching
import TdSandboxed.Lib.Pairing
import TdSandboxed.State.PositionReconciler

namespace TdSandboxed

namespace PositionReconciler

open Lib

variable {a x : String} {ps : List Held} {ms : List Mt5Report}

/-! ## The matcher, symbol by symbol -/

/-- A snapshot position and the MT5 position it takes are a match. -/
def agrees (p : Held) (m : Mt5Report) : Bool := m.side = p.side && volumesAgree p m

/-- The discrepancy for what comes of pairing positions off. -/
def discrepancyOf (a : String) : PairOutcome Held Mt5Report → PositionDiscrepancy
  | .left p => createOrphanDiscrepancy a p
  | .right m => createUnknownDiscrepancy a m
  | .differ p m =>
    createMismatch (if m.side ≠ p.side then .sideMismatch else .volumeMismatch) a p m

theorem compare_toList (a : String) (p : Held) (m : Mt5Report) :
    (compare a p m).toList = (outcome agrees p m).map (discrepancyOf a) := by
  by_cases hside : m.side = p.side
  · by_cases hvol : volumesAgree p m = true <;>
      simp [compare, outcome, agrees, discrepancyOf, hside, hvol]
  · simp [compare, outcome, agrees, discrepancyOf, hside]

theorem takeFirst_eq_none (h : takeFirst x ms = none) : ms.filter (·.symbol = x) = [] := by
  induction ms with
  | nil => rfl
  | cons m ms ih =>
    by_cases hm : m.symbol = x
    · simp [takeFirst, hm] at h
    · simp only [takeFirst, hm, if_false, Option.map_eq_none_iff] at h
      simp [hm, ih h]

/-- The position found is the first of its symbol; the other symbols are
left alone. -/
theorem takeFirst_eq_some {m : Mt5Report} {rest : List Mt5Report}
    (h : takeFirst x ms = some (m, rest)) :
    m.symbol = x ∧ ms.filter (·.symbol = x) = m :: rest.filter (·.symbol = x) ∧
      ∀ y, y ≠ x → ms.filter (·.symbol = y) = rest.filter (·.symbol = y) := by
  induction ms generalizing rest with
  | nil => simp [takeFirst] at h
  | cons m' ms ih =>
    by_cases hm : m'.symbol = x
    · simp only [takeFirst, hm, if_true, Option.some.injEq, Prod.mk.injEq] at h
      obtain ⟨rfl, rfl⟩ := h
      refine ⟨hm, by simp [hm], fun y hy => ?_⟩
      have hmy : m'.symbol ≠ y := by
        rw [hm]
        exact Ne.symm hy
      simp [hmy]
    · simp only [takeFirst, hm, if_false, Option.map_eq_some_iff, Prod.mk.injEq, Prod.exists] at h
      obtain ⟨m'', rest', htake, rfl, rfl⟩ := h
      obtain ⟨hsym, hsame, hother⟩ := ih htake
      refine ⟨hsym, by simp [hm, hsame], fun y hy => ?_⟩
      by_cases hmy : m'.symbol = y
      · simp [hmy, hother y hy]
      · simp [hmy, hother y hy]

/-- All discrepancies of the valid positions. -/
def loopDiscrepancies (a : String) (ps : List Held) (ms : List Mt5Report) :
    List PositionDiscrepancy :=
  (matchLoop a ps ms).2.1 ++ (matchLoop a ps ms).2.2.map (createUnknownDiscrepancy a)

theorem loopDiscrepancies_nil (a : String) (ms : List Mt5Report) :
    loopDiscrepancies a [] ms = ms.map (createUnknownDiscrepancy a) := rfl

theorem loopDiscrepancies_of_none {p : Held} (h : takeFirst p.symbol ms = none) :
    loopDiscrepancies a (p :: ps) ms = createOrphanDiscrepancy a p :: loopDiscrepancies a ps ms := by
  simp [loopDiscrepancies, matchLoop, h]

theorem loopDiscrepancies_of_some {p : Held} {m : Mt5Report} {rest : List Mt5Report}
    (h : takeFirst p.symbol ms = some (m, rest)) :
    loopDiscrepancies a (p :: ps) ms = (compare a p m).toList ++ loopDiscrepancies a ps rest := by
  cases hc : compare a p m <;> simp [loopDiscrepancies, matchLoop, h, hc]

theorem compare_symbol {p : Held} {m : Mt5Report} {d : PositionDiscrepancy}
    (h : compare a p m = some d) : d.symbol = m.symbol := by
  unfold compare at h
  split at h
  · cases h
    rfl
  · split at h
    · cases h
    · cases h
      rfl

theorem compare_filter (p : Held) (m : Mt5Report) :
    (compare a p m).toList.filter (·.symbol = x) =
      if m.symbol = x then (compare a p m).toList else [] := by
  cases hc : compare a p m with
  | none => simp
  | some d =>
    have hd := compare_symbol hc
    by_cases hm : m.symbol = x <;> simp [hd, hm]

/-- **Within a symbol the positions are paired off in order.** -/
theorem matchLoop_filter (a x : String) (ps : List Held) (ms : List Mt5Report) :
    (loopDiscrepancies a ps ms).filter (·.symbol = x) =
      (pairOff agrees (ps.filter (·.symbol = x)) (ms.filter (·.symbol = x))).map
        (discrepancyOf a) := by
  induction ps generalizing ms with
  | nil =>
    rw [loopDiscrepancies_nil, List.filter_nil, pairOff_nil_left, List.filter_map, List.map_map]
    rfl
  | cons p ps ih =>
    cases htake : takeFirst p.symbol ms with
    | none =>
      rw [loopDiscrepancies_of_none htake]
      by_cases hp : p.symbol = x
      · subst hp
        have hms := takeFirst_eq_none htake
        have hd : (createOrphanDiscrepancy a p).symbol = p.symbol := rfl
        rw [List.filter_cons_of_pos (by simp [hd]), List.filter_cons_of_pos (by simp), ih, hms]
        simp [discrepancyOf]
      · have hd : (createOrphanDiscrepancy a p).symbol ≠ x := hp
        rw [List.filter_cons_of_neg (by simp [hd]), List.filter_cons_of_neg (by simp [hp]), ih]
    | some found =>
      obtain ⟨m, rest⟩ := found
      obtain ⟨hsym, hsame, hother⟩ := takeFirst_eq_some htake
      rw [loopDiscrepancies_of_some htake, List.filter_append, compare_filter, ih]
      by_cases hp : p.symbol = x
      · subst hp
        rw [if_pos hsym, List.filter_cons_of_pos (by simp), hsame, pairOff_cons, List.map_append,
          compare_toList]
      · have hm : m.symbol ≠ x := by
          rw [hsym]
          exact hp
        rw [if_neg hm, List.filter_cons_of_neg (by simp [hp]), hother x (Ne.symm hp)]
        rfl

/-! ## What a discrepancy says -/

/-- A discrepancy without the account, the digits and the prices. -/
structure Gist where
  discrepancyType : DiscrepancyType
  symbol : String
  snapshotSide : Option String := none
  mt5Side : Option String := none
  snapshotVolume : Option ℚ := none
  mt5Volume : Option ℚ := none
  deriving DecidableEq

def gist (d : PositionDiscrepancy) : Gist :=
  { discrepancyType := d.discrepancyType
    symbol := d.symbol
    snapshotSide := d.snapshotSide
    mt5Side := d.mt5Side
    snapshotVolume := d.snapshotVolume.map Decimal.value
    mt5Volume := d.mt5Volume.map Decimal.value }

/-- Side and volume. -/
abbrev Lot := String × ℚ

def Held.lot (p : Held) : Lot := (p.side, p.volume.value)

def reportLot (m : Mt5Report) : Lot := (m.side, m.volume.value)

def lotsAgree (p m : Lot) : Bool := m.1 = p.1 && |m.2 - p.2| ≤ volumeTolerance

theorem lotsAgree_self (p : Lot) : lotsAgree p p = true := by
  have htol : (0 : ℚ) ≤ volumeTolerance := by norm_num [volumeTolerance]
  simpa [lotsAgree] using htol

/-- The gist of what comes of pairing the lots of a symbol off. -/
def gistOf (x : String) : PairOutcome Lot Lot → Gist
  | .left p =>
    { discrepancyType := .orphanPosition, symbol := x, snapshotSide := some p.1
      snapshotVolume := some p.2 }
  | .right m =>
    { discrepancyType := .unknownPosition, symbol := x, mt5Side := some m.1
      mt5Volume := some m.2 }
  | .differ p m =>
    { discrepancyType := if m.1 ≠ p.1 then .sideMismatch else .volumeMismatch
      symbol := x, snapshotSide := some p.1, mt5Side := some m.1, snapshotVolume := some p.2
      mt5Volume := some m.2 }

theorem gistOf_injective (x : String) : Function.Injective (gistOf x) := by
  intro o o' h
  cases o <;> cases o' <;> simp only [gistOf, Gist.mk.injEq] at h
  all_goals first | (simp at h; done) | skip
  all_goals grind

theorem gist_discrepancyOf {o : PairOutcome Held Mt5Report} (hl : ∀ p, o = .left p → p.symbol = x)
    (hr : ∀ m, o = .right m → m.symbol = x) (hd : ∀ p m, o = .differ p m → m.symbol = x) :
    gist (discrepancyOf a o) = gistOf x (o.map Held.lot reportLot) := by
  cases o with
  | left p =>
    rw [← hl p rfl]
    rfl
  | right m =>
    rw [← hr m rfl]
    rfl
  | differ p m =>
    rw [← hd p m rfl]
    rfl

/-- The lots of a symbol in a snapshot, in order. -/
def heldLots (x : String) (ps : List PositionDict) : List Lot :=
  ((ps.filterMap validatePositionDict).filter (·.symbol = x)).map Held.lot

/-- The lots of a symbol in MT5's report, in order. -/
def reportLots (x : String) (ms : List Mt5Report) : List Lot :=
  (ms.filter (·.symbol = x)).map reportLot

/-- Pairing positions of one symbol off is pairing their lots off. -/
theorem gist_pairOff (hps : ∀ p ∈ ps, p.symbol = x) (hms : ∀ m ∈ ms, m.symbol = x) :
    ((pairOff agrees ps ms).map (discrepancyOf a)).map gist =
      (pairOff lotsAgree (ps.map Held.lot) (ms.map reportLot)).map (gistOf x) := by
  rw [pairOff_map, List.map_map, List.map_map]
  refine List.map_congr_left fun o ho => ?_
  have hmem := mem_pairOff ho
  refine gist_discrepancyOf (fun p hp => ?_) (fun m hm => ?_) fun p m hpm => ?_
  · subst hp
    exact hps p hmem
  · subst hm
    exact hms m hmem
  · subst hpm
    exact hms m hmem.2

/-- The discrepancies of a symbol are those of its lots. -/
theorem gists_filter (a x : String) (ps : List PositionDict) (ms : List Mt5Report) :
    ((loopDiscrepancies a (ps.filterMap validatePositionDict) ms).map gist).filter (·.symbol = x) =
      (pairOff lotsAgree (heldLots x ps) (reportLots x ms)).map (gistOf x) := by
  have hsymbol : ((loopDiscrepancies a (ps.filterMap validatePositionDict) ms).map gist).filter
      (·.symbol = x) = ((loopDiscrepancies a (ps.filterMap validatePositionDict) ms).filter
        (·.symbol = x)).map gist := by
    rw [List.filter_map]
    rfl
  rw [hsymbol, matchLoop_filter]
  refine gist_pairOff ?_ ?_
  · intro p hp
    simpa using (List.mem_filter.mp hp).2
  · intro m hm
    simpa using (List.mem_filter.mp hm).2

/-! ## Order -/

/-- The discrepancies of a reconciliation, by what they say. -/
def gists (a : String) (ps : List PositionDict) (ms : List Mt5Report) : List Gist :=
  (matchPositions a ps ms).2.map gist

/-- The discrepancies of the dicts that lack a field. -/
def invalidGists (a : String) (ps : List PositionDict) : List Gist :=
  (ps.filter fun p => (validatePositionDict p).isNone).map fun p =>
    gist (createInvalidDiscrepancy a p)

theorem matchPositions_eq (a : String) (ps : List PositionDict) (ms : List Mt5Report) :
    (matchPositions a ps ms).2 =
      (ps.filter fun p => (validatePositionDict p).isNone).map (createInvalidDiscrepancy a) ++
        loopDiscrepancies a (ps.filterMap validatePositionDict) ms := by
  rw [loopDiscrepancies, ← List.append_assoc]
  rfl

theorem gists_eq (a : String) (ps : List PositionDict) (ms : List Mt5Report) :
    gists a ps ms = invalidGists a ps ++
      (loopDiscrepancies a (ps.filterMap validatePositionDict) ms).map gist := by
  rw [gists, matchPositions_eq, List.map_append, List.map_map]
  rfl

theorem invalidGists_perm {ps ps' : List PositionDict} (h : ps'.Perm ps) :
    (invalidGists a ps').Perm (invalidGists a ps) :=
  (h.filter _).map _

theorem heldLots_eq (x : String) (ps : List PositionDict) :
    heldLots x ps = ps.filterMap fun p =>
      ((validatePositionDict p).filter (·.symbol = x)).map Held.lot := by
  rw [heldLots, List.filter_filterMap, List.map_filterMap]

theorem reportLots_eq (x : String) (ms : List Mt5Report) :
    reportLots x ms = ms.filterMap fun m => if m.symbol = x then some (reportLot m) else none := by
  induction ms with
  | nil => rfl
  | cons m ms ih =>
    by_cases hm : m.symbol = x
    · simpa [reportLots, hm] using ih
    · simpa [reportLots, hm] using ih

/-- Neither the discrepancies nor the verdict depend on the order of the
lists. -/
def OrderIndependent (a : String) (ps : List PositionDict) (ms : List Mt5Report) : Prop :=
  ∀ ps' ms', ps'.Perm ps → ms'.Perm ms →
    (gists a ps' ms').Perm (gists a ps ms) ∧
      (reconcilePositions a ps' ms').1.success = (reconcilePositions a ps ms).1.success

/-- The lists hold the same positions, by symbol, side and volume. -/
def SamePositions (ps : List PositionDict) (ms : List Mt5Report) : Prop :=
  (ps.map fun p => (p.symbol, p.side, p.volume.map (·.number.value))).Perm
    (ms.map fun m => (some m.symbol, some m.side, some m.volume.value))

theorem countOf_eq (type : DiscrepancyType) (ds : List PositionDiscrepancy) :
    countOf type ds = (ds.map gist).countP (·.discrepancyType = type) := by
  rw [List.countP_map]
  rfl

/-- The verdict is one of the multiset of discrepancies and of the lists as
multisets. -/
theorem success_eq_of_perm {ps ps' : List PositionDict} {ms ms' : List Mt5Report}
    (hps : ps'.Perm ps) (hms : ms'.Perm ms) (h : (gists a ps' ms').Perm (gists a ps ms)) :
    (reconcilePositions a ps' ms').1.success = (reconcilePositions a ps ms).1.success := by
  have hcount : ∀ type, countOf type (matchPositions a ps' ms').2
      = countOf type (matchPositions a ps ms).2 := by
    intro type
    rw [countOf_eq, countOf_eq]
    exact h.countP_eq _
  have hsnapshot : calculateTotalExposure ps' = calculateTotalExposure ps :=
    (hps.filterMap _).sum_eq
  have hmt5 : calculateMt5Exposure ms' = calculateMt5Exposure ms := (hms.map _).sum_eq
  simp only [reconcilePositions, hasCriticalDiscrepancies, hcount, hsnapshot, hmt5]

theorem OrderIndependent.orderFree {ps : List PositionDict} {ms : List Mt5Report}
    (h : OrderIndependent a ps ms) (x : String) :
    Lib.OrderFree lotsAgree (heldLots x ps) (reportLots x ms) := by
  intro as' bs' has hbs
  rw [heldLots_eq] at has
  rw [reportLots_eq] at hbs
  obtain ⟨ps', hps, rfl⟩ := exists_perm_filterMap _ has
  obtain ⟨ms', hms, rfl⟩ := exists_perm_filterMap _ hbs
  rw [← heldLots_eq, ← reportLots_eq]
  obtain ⟨hgists, -⟩ := h ps' ms' hps hms
  rw [gists_eq, gists_eq] at hgists
  have hloop := (List.perm_append_left_iff _).mp
    (((invalidGists_perm (a := a) hps).append_right _).symm.trans hgists)
  have hfilter := hloop.filter (·.symbol = x)
  rw [gists_filter, gists_filter] at hfilter
  exact (List.map_perm_map_iff (gistOf_injective x)).mp hfilter

theorem orderIndependent_of_orderFree {ps : List PositionDict} {ms : List Mt5Report}
    (h : ∀ x, Lib.OrderFree lotsAgree (heldLots x ps) (reportLots x ms)) :
    OrderIndependent a ps ms := by
  intro ps' ms' hps hms
  have hgists : (gists a ps' ms').Perm (gists a ps ms) := by
    rw [gists_eq, gists_eq]
    refine (invalidGists_perm hps).append (perm_of_filter_key (·.symbol) fun x => ?_)
    rw [gists_filter, gists_filter]
    refine (h x _ _ ?_ ?_).map _
    · rw [heldLots_eq, heldLots_eq]
      exact hps.filterMap _
    · rw [reportLots_eq, reportLots_eq]
      exact hms.filterMap _
  exact ⟨hgists, success_eq_of_perm hps hms hgists⟩

/-! ## The same positions -/

/-- Symbol, side and volume of a position that has all three, as a lot of
the symbol. -/
def lotOf (x : String) : Option String × Option String × Option ℚ → Option Lot
  | (some symbol, some side, some volume) => if symbol = x then some (side, volume) else none
  | _ => none

theorem heldLots_eq_lotOf (x : String) (ps : List PositionDict) :
    heldLots x ps =
      (ps.map fun p => (p.symbol, p.side, p.volume.map (·.number.value))).filterMap (lotOf x) := by
  rw [heldLots_eq, List.filterMap_map]
  refine List.filterMap_congr fun p _ => ?_
  obtain ⟨symbol, side, volume, _, _, _, _⟩ := p
  cases symbol <;> cases side <;> cases volume <;> simp [validatePositionDict, lotOf, Option.filter]
  split <;> rfl

theorem reportLots_eq_lotOf (x : String) (ms : List Mt5Report) :
    reportLots x ms =
      (ms.map fun m => (some m.symbol, some m.side, some m.volume.value)).filterMap (lotOf x) := by
  rw [reportLots_eq, List.filterMap_map]
  rfl

theorem SamePositions.lots {ps : List PositionDict} {ms : List Mt5Report}
    (h : SamePositions ps ms) (x : String) : (heldLots x ps).Perm (reportLots x ms) := by
  rw [heldLots_eq_lotOf, reportLots_eq_lotOf]
  exact h.filterMap _

/-- A dict that lacks a field is none of MT5's positions. -/
theorem SamePositions.valid {ps : List PositionDict} {ms : List Mt5Report}
    (h : SamePositions ps ms) {p : PositionDict} (hp : p ∈ ps) :
    (validatePositionDict p).isNone = false := by
  obtain ⟨m, -, hm⟩ := List.mem_map.mp (h.mem_iff.mp (List.mem_map_of_mem hp))
  simp only [Prod.mk.injEq] at hm
  obtain ⟨hsymbol, hside, hvolume⟩ := hm
  obtain ⟨volume, hvol, -⟩ := Option.map_eq_some_iff.mp hvolume.symm
  simp [validatePositionDict, ← hsymbol, ← hside, hvol]

/-- Lists with the same positions leave no discrepancy, if the order does
not matter. -/
theorem OrderIndependent.same {ps : List PositionDict} {ms : List Mt5Report}
    (h : OrderIndependent a ps ms) (hsame : SamePositions ps ms) :
    (matchPositions a ps ms).2 = [] := by
  have hinvalid : ps.filter (fun p => (validatePositionDict p).isNone) = [] := by
    rw [List.filter_eq_nil_iff]
    intro p hp
    simp [hsame.valid hp]
  have hpair : ∀ x, pairOff lotsAgree (heldLots x ps) (reportLots x ms) = [] := by
    intro x
    have hperm := h.orderFree x _ _ (hsame.lots x).symm (.refl _)
    rw [pairOff_self lotsAgree_self] at hperm
    exact hperm.nil_eq.symm
  have hloop : (loopDiscrepancies a (ps.filterMap validatePositionDict) ms).map gist = [] := by
    rw [List.eq_nil_iff_forall_not_mem]
    intro g hg
    have hmem : g ∈ ((loopDiscrepancies a (ps.filterMap validatePositionDict) ms).map gist).filter
        (·.symbol = g.symbol) := List.mem_filter.mpr ⟨hg, by simp⟩
    rw [gists_filter, hpair] at hmem
    cases hmem
  rw [matchPositions_eq, hinvalid, List.map_eq_nil_iff.mp hloop]
  rfl

/-- A tenth of a lot. -/
def tenth : Decimal := { coefficient := 1, exponent := -1 }

def heldGold (side : String) (volume : Decimal) : PositionDict :=
  { symbol := some "XAUUSD", side := some side, volume := some volume.str }

def reportedGold (side : String) (volume : Decimal) : Mt5Report :=
  { ticket := 1, symbol := "XAUUSD", side, volume, entryPrice := { coefficient := 1850, exponent := 0 }
    entryTime := "2026-01-03T10:15:30.000Z" }

end PositionReconciler

end TdSandboxed
