/-
TdSandboxed.State.ReconcileTheorems — the positions a reconciliation saves.

A correction looks for the positions of its symbol and side, so the groups
of one symbol and side are corrected apart from each other; within a group
it treats all positions it finds alike. A volume that differs sets the
volume of every position of the group, and an orphan takes every position
with the text of its volume along.

`correct_group` follows the corrections through a group, and
`reconciliation_restores_iff` says for which lists the result is what MT5
reported. The critical discrepancies matter only in so far as without them
no sides are mismatched.
-/
import TdSandboxed.State.MatchTheorems

namespace TdSandboxed

namespace PositionReconciler

open Lib

variable {a x : String} {side : Option String} {ps : List PositionDict} {ms rs : List Mt5Report}
  {qs : List Held}

/-! ## One group -/

/-- The volumes of the positions of a symbol and side. -/
def groupTexts (x : String) (side : Option String) (ps : List PositionDict) :
    List (Option NumberText) :=
  (ps.filter fun p => p.symbol = some x ∧ p.side = side).map (·.volume)

/-- What the correction of a discrepancy does to the volumes of a group. -/
def correctGroup (ms : List Mt5Report) (x : String) (side : Option String)
    (vs : List (Option NumberText)) (d : PositionDiscrepancy) : List (Option NumberText) :=
  match d.discrepancyType with
  | .orphanPosition =>
    if d.symbol = x ∧ d.snapshotSide = side then
      vs.filter fun v => !(v.isSome && v = d.snapshotVolume.map Decimal.str)
    else vs
  | .unknownPosition =>
    match ms.find? (isReportOf d) with
    | some m => if m.symbol = x ∧ some m.side = side then vs ++ [some m.volume.str] else vs
    | none => vs
  | .volumeMismatch =>
    if d.symbol = x ∧ d.mt5Side = side then vs.map fun _ => d.mt5Volume.map Decimal.str else vs
  | .sideMismatch => vs

theorem groupTexts_remove (x : String) (side : Option String) (ps : List PositionDict)
    (symbol : String) (side' : Option String) (volume : Option Decimal) :
    groupTexts x side (removeOrphanFromState ps symbol side' volume) =
      if symbol = x ∧ side' = side then
        (groupTexts x side ps).filter fun v => !(v.isSome && v = volume.map Decimal.str)
      else groupTexts x side ps := by
  induction ps with
  | nil => simp [groupTexts, removeOrphanFromState]
  | cons p ps ih =>
    simp only [groupTexts, removeOrphanFromState] at ih ⊢
    grind

theorem groupTexts_update (x : String) (side : Option String) (ps : List PositionDict)
    (symbol : String) (side' : Option String) (volume : Option Decimal) :
    groupTexts x side (updatePositionVolume ps symbol side' volume) =
      if symbol = x ∧ side' = side then
        (groupTexts x side ps).map fun _ => volume.map Decimal.str
      else groupTexts x side ps := by
  induction ps with
  | nil => simp [groupTexts, updatePositionVolume]
  | cons p ps ih =>
    simp only [groupTexts, updatePositionVolume] at ih ⊢
    grind

theorem groupTexts_add (x : String) (side : Option String) (ps : List PositionDict)
    (m : Mt5Report) :
    groupTexts x side (addUnknownToState ps m) =
      if m.symbol = x ∧ some m.side = side then groupTexts x side ps ++ [some m.volume.str]
      else groupTexts x side ps := by
  by_cases hm : m.symbol = x ∧ some m.side = side
  · simp [groupTexts, addUnknownToState, hm]
  · simp only [if_neg hm]
    simp [groupTexts, addUnknownToState, hm]

theorem groupTexts_correct (x : String) (side : Option String) (ps : List PositionDict)
    (d : PositionDiscrepancy) :
    groupTexts x side (correct ms ps d) = correctGroup ms x side (groupTexts x side ps) d := by
  unfold correct correctGroup
  cases d.discrepancyType with
  | orphanPosition => exact groupTexts_remove x side ps _ _ _
  | unknownPosition =>
    cases ms.find? (isReportOf d) with
    | none => rfl
    | some m => exact groupTexts_add x side ps m
  | volumeMismatch => exact groupTexts_update x side ps _ _ _
  | sideMismatch => rfl

/-- A group is corrected by the discrepancies of its symbol alone. -/
theorem correctGroup_of_ne {vs : List (Option NumberText)} {d : PositionDiscrepancy}
    (h : d.symbol ≠ x) : correctGroup ms x side vs d = vs := by
  unfold correctGroup
  cases d.discrepancyType with
  | orphanPosition => simp [h]
  | unknownPosition =>
    cases hfind : ms.find? (isReportOf d) with
    | none => rfl
    | some m =>
      have hm : m.symbol = d.symbol := by
        have hreport := List.find?_some hfind
        simp only [isReportOf, Bool.and_eq_true, decide_eq_true_eq] at hreport
        exact hreport.1.1
      have hmx : ¬(m.symbol = x ∧ some m.side = side) := fun hx => h (hm.symm.trans hx.1)
      simp [hmx]
  | volumeMismatch => simp [h]
  | sideMismatch => rfl

theorem groupTexts_foldl (x : String) (side : Option String) (ds : List PositionDiscrepancy)
    (ps : List PositionDict) :
    groupTexts x side (ds.foldl (correct ms) ps) =
      (ds.filter (·.symbol = x)).foldl (correctGroup ms x side) (groupTexts x side ps) := by
  induction ds generalizing ps with
  | nil => rfl
  | cons d ds ih =>
    rw [List.foldl_cons, ih, groupTexts_correct]
    by_cases hd : d.symbol = x
    · rw [List.filter_cons_of_pos (by simp [hd]), List.foldl_cons]
    · rw [List.filter_cons_of_neg (by simp [hd]), correctGroup_of_ne hd]

/-! ## The corrections of a group, one after the other -/

/-- MT5's volume of the last pair whose volumes differ. -/
def lastDiffering : List Decimal → List Decimal → Option Decimal
  | e :: es, v :: vs =>
    (lastDiffering es vs).or
      (if |v.value - e.value| ≤ volumeTolerance then none else some v)
  | _, _ => none

/-- Every volume of a group is set, or none is. -/
def setVolumes (vs : List (Option NumberText)) : Option Decimal → List (Option NumberText)
  | none => vs
  | some v => vs.map fun _ => some v.str

/-- The volumes that are not the text of one of the given ones. -/
def removeVolumes (vs : List (Option NumberText)) (orphans : List Decimal) :
    List (Option NumberText) :=
  vs.filter fun v => !(v ∈ orphans.map fun o => some o.str)

/-- The volume that is added for an unknown position. -/
def addedVolume (ms : List Mt5Report) (m : Mt5Report) : Option NumberText :=
  some ((ms.find? (isReportOf (createUnknownDiscrepancy "" m))).getD m).volume.str

/-- The volumes of a side. -/
def heldOf (side : String) (ps : List Held) : List Decimal :=
  (ps.filter (·.side = side)).map (·.volume)

def reportsOf (side : String) (ms : List Mt5Report) : List Mt5Report :=
  ms.filter (·.side = side)

@[simp] theorem heldOf_nil (side : String) : heldOf side [] = [] := rfl

@[simp] theorem reportsOf_nil (side : String) : reportsOf side [] = [] := rfl

@[simp] theorem heldOf_cons (side : String) (p : Held) (qs : List Held) :
    heldOf side (p :: qs) = if p.side = side then p.volume :: heldOf side qs else heldOf side qs := by
  by_cases hp : p.side = side <;> simp [heldOf, hp]

@[simp] theorem reportsOf_cons (side : String) (m : Mt5Report) (rs : List Mt5Report) :
    reportsOf side (m :: rs) =
      if m.side = side then m :: reportsOf side rs else reportsOf side rs := by
  by_cases hm : m.side = side <;> simp [reportsOf, hm]

theorem isReportOf_iff (a : String) (m m' : Mt5Report) :
    isReportOf (createUnknownDiscrepancy a m) m' = true ↔
      m'.symbol = m.symbol ∧ m'.side = m.side ∧ m'.volume.value = m.volume.value := by
  simp only [isReportOf, Bool.and_eq_true, decide_eq_true_eq, and_assoc]
  show m'.symbol = m.symbol ∧ some m'.side = some m.side ∧
    some m'.volume.value = some m.volume.value ↔ _
  simp only [Option.some.injEq]

/-- The position found for an unknown discrepancy is as good as its own. -/
theorem exists_find_report {m : Mt5Report} (hm : m ∈ ms) :
    ∃ m', ms.find? (isReportOf (createUnknownDiscrepancy "" m)) = some m' ∧
      m'.symbol = m.symbol ∧ m'.side = m.side ∧ m'.volume.value = m.volume.value := by
  cases hfind : ms.find? (isReportOf (createUnknownDiscrepancy "" m)) with
  | none =>
    have hself := List.find?_eq_none.mp hfind m hm
    exact absurd ((isReportOf_iff "" m m).mpr ⟨rfl, rfl, rfl⟩) hself
  | some m' => exact ⟨m', rfl, (isReportOf_iff "" m m').mp (List.find?_some hfind)⟩

theorem correctGroup_unknown {s : String} {m : Mt5Report} (hm : m ∈ ms) (hx : m.symbol = x)
    (vs : List (Option NumberText)) :
    correctGroup ms x (some s) vs (createUnknownDiscrepancy a m) =
      if m.side = s then vs ++ [addedVolume ms m] else vs := by
  obtain ⟨m', hfind, hsymbol, hside, -⟩ := exists_find_report hm
  have hfind' : ms.find? (isReportOf (createUnknownDiscrepancy a m)) = some m' := hfind
  have htype : (createUnknownDiscrepancy a m).discrepancyType = .unknownPosition := rfl
  simp only [correctGroup, htype, hfind', addedVolume, hfind, Option.getD_some, hsymbol, hside, hx,
    true_and, Option.some.injEq]

theorem correctGroup_orphan {s : String} {p : Held} (hx : p.symbol = x)
    (vs : List (Option NumberText)) :
    correctGroup ms x (some s) vs (createOrphanDiscrepancy a p) =
      if p.side = s then removeVolumes vs [p.volume] else vs := by
  have htype : (createOrphanDiscrepancy a p).discrepancyType = .orphanPosition := rfl
  have hsymbol : (createOrphanDiscrepancy a p).symbol = x := hx
  have hside : (createOrphanDiscrepancy a p).snapshotSide = some p.side := rfl
  have hvolume : (createOrphanDiscrepancy a p).snapshotVolume = some p.volume := rfl
  simp only [correctGroup, htype, hsymbol, hside, hvolume, true_and, Option.some.injEq,
    Option.map_some]
  split
  · refine List.filter_congr fun v _ => ?_
    cases v <;> simp
  · rfl

theorem correctGroup_volume {s : String} {p : Held} {m : Mt5Report} (hx : m.symbol = x)
    (vs : List (Option NumberText)) :
    correctGroup ms x (some s) vs (createMismatch .volumeMismatch a p m) =
      if m.side = s then setVolumes vs (some m.volume) else vs := by
  have htype : (createMismatch .volumeMismatch a p m).discrepancyType = .volumeMismatch := rfl
  have hsymbol : (createMismatch .volumeMismatch a p m).symbol = x := hx
  have hside : (createMismatch .volumeMismatch a p m).mt5Side = some m.side := rfl
  have hvolume : (createMismatch .volumeMismatch a p m).mt5Volume = some m.volume := rfl
  simp only [correctGroup, htype, hsymbol, hside, hvolume, true_and, Option.some.injEq,
    Option.map_some, setVolumes]

theorem removeVolumes_nil (vs : List (Option NumberText)) : removeVolumes vs [] = vs := by
  simp [removeVolumes]

theorem removeVolumes_cons (vs : List (Option NumberText)) (o : Decimal) (os : List Decimal) :
    removeVolumes (removeVolumes vs [o]) os = removeVolumes vs (o :: os) := by
  rw [removeVolumes, removeVolumes, List.filter_filter]
  refine List.filter_congr fun v _ => ?_
  by_cases hv : v = some o.str <;> simp [hv]

theorem foldl_orphans (s : String) (hps : ∀ p ∈ qs, p.symbol = x)
    (vs : List (Option NumberText)) :
    (qs.map (createOrphanDiscrepancy a)).foldl (correctGroup ms x (some s)) vs =
      removeVolumes vs (heldOf s qs) := by
  induction qs generalizing vs with
  | nil =>
    rw [heldOf_nil, removeVolumes_nil]
    rfl
  | cons p qs ih =>
    rw [List.map_cons, List.foldl_cons, correctGroup_orphan (hps p (by simp)),
      ih fun q hq => hps q (List.mem_cons_of_mem p hq), heldOf_cons]
    by_cases hp : p.side = s
    · rw [if_pos hp, if_pos hp, removeVolumes_cons]
    · rw [if_neg hp, if_neg hp]

theorem foldl_unknown (s : String) (hms : ∀ m ∈ rs, m ∈ ms ∧ m.symbol = x)
    (vs : List (Option NumberText)) :
    (rs.map (createUnknownDiscrepancy a)).foldl (correctGroup ms x (some s)) vs =
      vs ++ (reportsOf s rs).map (addedVolume ms) := by
  induction rs generalizing vs with
  | nil => simp
  | cons m rs ih =>
    obtain ⟨hm, hx⟩ := hms m (by simp)
    rw [List.map_cons, List.foldl_cons, correctGroup_unknown hm hx,
      ih fun r hr => hms r (List.mem_cons_of_mem m hr), reportsOf_cons]
    by_cases hp : m.side = s
    · rw [if_pos hp, if_pos hp, List.map_cons, List.append_assoc, List.singleton_append]
    · rw [if_neg hp, if_neg hp]

theorem setVolumes_or (vs : List (Option NumberText)) (o o' : Option Decimal) :
    setVolumes (setVolumes vs o) o' = setVolumes vs (o'.or o) := by
  cases o' with
  | none => simp [setVolumes]
  | some v => cases o <;> simp [setVolumes]

/-- **The corrections of a group**: the last volume that differs is set
throughout, then the orphans take their texts along, and what is unknown
is added. -/
theorem correct_group (s : String) (hps : ∀ p ∈ qs, p.symbol = x)
    (hms : ∀ m ∈ rs, m ∈ ms ∧ m.symbol = x)
    (hside : ∀ p m, .differ p m ∈ pairOff agrees qs rs → m.side = p.side)
    (vs : List (Option NumberText)) :
    ((pairOff agrees qs rs).map (discrepancyOf a)).foldl (correctGroup ms x (some s)) vs =
      removeVolumes (setVolumes vs (lastDiffering (heldOf s qs) ((reportsOf s rs).map (·.volume))))
          ((heldOf s qs).drop (reportsOf s rs).length) ++
        ((reportsOf s rs).drop (heldOf s qs).length).map (addedVolume ms) := by
  induction qs generalizing rs vs with
  | nil =>
    have hunknown := foldl_unknown (a := a) s hms vs
    have hright : discrepancyOf a ∘ PairOutcome.right = createUnknownDiscrepancy a := rfl
    rw [pairOff_nil_left, List.map_map, hright, hunknown]
    simp [removeVolumes_nil, setVolumes, lastDiffering]
  | cons p qs ih =>
    cases rs with
    | nil =>
      have horphans : ((p :: qs).map (createOrphanDiscrepancy a)).foldl
          (correctGroup ms x (some s)) vs = removeVolumes vs (heldOf s (p :: qs)) :=
        foldl_orphans s hps vs
      have hleft : discrepancyOf a ∘ PairOutcome.left = createOrphanDiscrepancy a := rfl
      have hlast : lastDiffering (heldOf s (p :: qs)) [] = none := by
        cases heldOf s (p :: qs) <;> rfl
      rw [pairOff_nil_right, List.map_map, hleft, horphans]
      simp only [reportsOf_nil, List.map_nil, hlast, setVolumes, List.length_nil, List.drop_zero,
        List.drop_nil, List.append_nil]
    | cons m rs =>
      rw [pairOff_cons, List.map_append, List.foldl_append]
      rw [pairOff_cons] at hside
      have hrest := ih (fun q hq => hps q (List.mem_cons_of_mem p hq))
        (fun r hr => hms r (List.mem_cons_of_mem m hr))
        (fun q r hqr => hside q r (List.mem_append_right _ hqr))
      by_cases hagree : agrees p m = true
      · have hsides : m.side = p.side := by
          simp only [agrees, Bool.and_eq_true, decide_eq_true_eq] at hagree
          exact hagree.1
        have hvolume : |m.volume.value - p.volume.value| ≤ volumeTolerance := by
          simpa [agrees, volumesAgree, hsides] using hagree
        have hout : outcome agrees p m = [] := by simp [outcome, hagree]
        rw [hout, List.map_nil, List.foldl_nil, hrest, heldOf_cons, reportsOf_cons, hsides]
        by_cases hp : p.side = s
        · simp [hp, lastDiffering, hvolume]
        · simp [hp]
      · have hout : outcome agrees p m = [.differ p m] := by simp [outcome, hagree]
        have hsides : m.side = p.side := hside p m (by simp [hout])
        have hvolume : ¬ |m.volume.value - p.volume.value| ≤ volumeTolerance := by
          simpa [agrees, volumesAgree, hsides] using hagree
        have hdiscrepancy : discrepancyOf a (.differ p m) = createMismatch .volumeMismatch a p m := by
          simp [discrepancyOf, hsides]
        rw [hout, List.map_singleton, List.foldl_cons, List.foldl_nil, hdiscrepancy,
          correctGroup_volume (hms m (by simp)).2, hrest, heldOf_cons, reportsOf_cons, hsides]
        by_cases hp : p.side = s
        · simp [hp, lastDiffering, hvolume, setVolumes_or]
        · simp [hp]

/-! ## All groups -/

/-- A saved position is one of MT5's, up to the tolerance. -/
def SamePosition (p : PositionDict) (m : Mt5Report) : Prop :=
  p.symbol = some m.symbol ∧ p.side = some m.side ∧
    ∃ t ∈ p.volume, |m.volume.value - t.number.value| ≤ volumeTolerance

/-- The same for positions of one symbol and side. -/
def VolumeAgrees (v : Option NumberText) (m : Mt5Report) : Prop :=
  ∃ t ∈ v, |m.volume.value - t.number.value| ≤ volumeTolerance

/-- The positions of a symbol and side that MT5 reported. -/
def groupReports (x s : String) (ms : List Mt5Report) : List Mt5Report :=
  reportsOf s (ms.filter (·.symbol = x))

/-- Within one symbol and side only the volumes are compared. -/
theorem samePosition_group_iff (ps : List PositionDict) (ms : List Mt5Report) (x s : String) :
    Matches SamePosition
        (ps.filter fun p => (p.symbol, p.side) = (some x, some s))
        (ms.filter fun m => (some m.symbol, some m.side) = (some x, some s)) ↔
      Matches VolumeAgrees (groupTexts x (some s) ps) (groupReports x s ms) := by
  have hreports : (ms.filter fun m => (some m.symbol, some m.side) = (some x, some s)) =
      groupReports x s ms := by
    rw [groupReports, reportsOf, List.filter_filter]
    refine List.filter_congr fun m _ => ?_
    simp [Bool.and_comm]
  have htexts : (ps.filter fun p => (p.symbol, p.side) = (some x, some s)).map (·.volume) =
      groupTexts x (some s) ps := by
    rw [groupTexts]
    simp only [Prod.mk.injEq]
  rw [hreports, ← htexts, Matches.map_left_iff]
  refine Matches.congr fun p hp m hm => ?_
  have hp' : p.symbol = some x ∧ p.side = some s := by simpa using (List.mem_filter.mp hp).2
  have hm' : m.side = s ∧ m.symbol = x := by
    rw [groupReports, reportsOf, List.filter_filter] at hm
    simpa using (List.mem_filter.mp hm).2
  simp only [SamePosition, VolumeAgrees, hp'.1, hp'.2, hm'.1, hm'.2, true_and]

/-- Lists of positions match when their groups do. -/
theorem samePosition_iff_groups (ps : List PositionDict) (ms : List Mt5Report) :
    Matches SamePosition ps ms ↔
      (∀ p ∈ ps, p.symbol ≠ none ∧ p.side ≠ none) ∧
        ∀ x s, Matches VolumeAgrees (groupTexts x (some s) ps) (groupReports x s ms) := by
  have hkey : ∀ p m, SamePosition p m →
      (p.symbol, p.side) = (some m.symbol, some m.side) := by
    intro p m h
    rw [h.1, h.2.1]
  rw [matches_iff_forall_key hkey]
  constructor
  · intro h
    refine ⟨fun p hp => ?_, fun x s => (samePosition_group_iff ps ms x s).mp (h _)⟩
    obtain ⟨m, -, hm⟩ := (h (p.symbol, p.side)).exists_of_mem
      (List.mem_filter.mpr ⟨hp, by simp⟩ : p ∈ _)
    simp [hm.1, hm.2.1]
  · rintro ⟨hall, h⟩ ⟨symbol, side⟩
    cases symbol with
    | none =>
      have hnil : ps.filter (fun p => (p.symbol, p.side) = (none, side)) = [] := by
        rw [List.filter_eq_nil_iff]
        intro p hp
        simp [(hall p hp).1]
      have hnil' : ms.filter (fun m => (some m.symbol, some m.side) = (none, side)) = [] := by simp
      rw [hnil, hnil']
      exact .nil
    | some x =>
      cases side with
      | none =>
        have hnil : ps.filter (fun p => (p.symbol, p.side) = (some x, none)) = [] := by
          rw [List.filter_eq_nil_iff]
          intro p hp
          simp [(hall p hp).2]
        have hnil' : ms.filter (fun m => (some m.symbol, some m.side) = (some x, none)) = [] := by
          simp
        rw [hnil, hnil']
        exact .nil
      | some s => exact (samePosition_group_iff ps ms x s).mpr (h x s)

/-! ## What is saved -/

/-- The positions after all corrections. -/
def savedPositions (a : String) (ps : List PositionDict) (ms : List Mt5Report) : List PositionDict :=
  (matchPositions a ps ms).2.foldl (correct ms) ps

/-- The numbers of the volumes of a group. -/
def numbers (vs : List (Option NumberText)) : List Decimal := vs.filterMap (Option.map (·.number))

@[simp] theorem numbers_nil : numbers [] = [] := rfl

@[simp] theorem numbers_cons_none (vs : List (Option NumberText)) :
    numbers (none :: vs) = numbers vs := by
  simp [numbers]

@[simp] theorem numbers_cons_some (t : NumberText) (vs : List (Option NumberText)) :
    numbers (some t :: vs) = t.number :: numbers vs := by
  simp [numbers]

theorem groupTexts_cons (x : String) (side : Option String) (p : PositionDict)
    (ps : List PositionDict) :
    groupTexts x side (p :: ps) =
      if p.symbol = some x ∧ p.side = side then p.volume :: groupTexts x side ps
      else groupTexts x side ps := by
  by_cases hp : p.symbol = some x ∧ p.side = side <;> simp [groupTexts, hp]

theorem heldOf_eq_numbers (x s : String) (ps : List PositionDict) :
    heldOf s ((ps.filterMap validatePositionDict).filter (·.symbol = x)) =
      numbers (groupTexts x (some s) ps) := by
  induction ps with
  | nil => rfl
  | cons p ps ih =>
    obtain ⟨symbol, side, volume, _, _, _, _⟩ := p
    rw [groupTexts_cons, List.filterMap_cons]
    cases symbol with
    | none => simpa [validatePositionDict] using ih
    | some y =>
      cases side with
      | none => simpa [validatePositionDict] using ih
      | some s' =>
        cases volume with
        | none =>
          by_cases hp : y = x ∧ s' = s <;> simpa [validatePositionDict, hp] using ih
        | some v =>
          by_cases hy : y = x
          · by_cases hs : s' = s <;> simpa [validatePositionDict, hy, hs] using ih
          · simpa [validatePositionDict, hy] using ih

/-- A dict without a symbol is never touched. -/
theorem filter_symbol_none_foldl (ds : List PositionDiscrepancy) (ps : List PositionDict) :
    (ds.foldl (correct ms) ps).filter (·.symbol = none) = ps.filter (·.symbol = none) := by
  induction ds generalizing ps with
  | nil => rfl
  | cons d ds ih =>
    rw [List.foldl_cons, ih]
    unfold correct
    cases d.discrepancyType with
    | orphanPosition =>
      rw [removeOrphanFromState, List.filter_filter]
      refine List.filter_congr fun p _ => ?_
      by_cases hp : p.symbol = none <;> simp [hp]
    | unknownPosition =>
      cases ms.find? (isReportOf d) with
      | none => rfl
      | some m => simp [addUnknownToState]
    | volumeMismatch =>
      rw [updatePositionVolume]
      induction ps with
      | nil => rfl
      | cons p ps ih' =>
        simp only [List.map_cons, List.filter_cons]
        grind
    | sideMismatch => rfl

/-- The orphan for a dict that lacks a field. -/
theorem correctGroup_invalid {p : PositionDict} (hp : p.symbol ≠ none)
    (vs : List (Option NumberText)) :
    correctGroup ms x side vs (createInvalidDiscrepancy a p) =
      if p.symbol = some x ∧ p.side = side then removeVolumes vs (numbers [p.volume]) else vs := by
  obtain ⟨y, hy⟩ := Option.ne_none_iff_exists'.mp hp
  have htype : (createInvalidDiscrepancy a p).discrepancyType = .orphanPosition := rfl
  have hsymbol : (createInvalidDiscrepancy a p).symbol = y := by
    simp [createInvalidDiscrepancy, hy]
  have hside : (createInvalidDiscrepancy a p).snapshotSide = p.side := rfl
  have hvolume : (createInvalidDiscrepancy a p).snapshotVolume = p.volume.map (·.number) := rfl
  simp only [correctGroup, htype, hsymbol, hside, hvolume, hy, Option.some.injEq]
  split
  · rw [removeVolumes]
    refine List.filter_congr fun v _ => ?_
    cases p.volume <;> cases v <;> simp
  · rfl

/-- The discrepancies of the dicts that lack a field. -/
def invalidDiscrepancies (a : String) (ps : List PositionDict) : List PositionDiscrepancy :=
  (ps.filter fun p => (validatePositionDict p).isNone).map (createInvalidDiscrepancy a)

theorem invalidDiscrepancies_cons (a : String) (p : PositionDict) (ps : List PositionDict) :
    invalidDiscrepancies a (p :: ps) =
      if (validatePositionDict p).isNone then
        createInvalidDiscrepancy a p :: invalidDiscrepancies a ps
      else invalidDiscrepancies a ps := by
  by_cases hp : (validatePositionDict p).isNone = true <;> simp [invalidDiscrepancies, hp]

/-- They leave the groups with a side alone. -/
theorem foldl_invalid_some (s : String) (hps : ∀ p ∈ ps, p.symbol ≠ none)
    (vs : List (Option NumberText)) :
    (invalidDiscrepancies a ps).foldl (correctGroup ms x (some s)) vs = vs := by
  induction ps with
  | nil => rfl
  | cons p ps ih =>
    have hrest := ih fun q hq => hps q (List.mem_cons_of_mem p hq)
    rw [invalidDiscrepancies_cons]
    split
    · rename_i hvalid
      rw [List.foldl_cons, correctGroup_invalid (hps p (by simp))]
      by_cases hp : p.symbol = some x ∧ p.side = some s
      · have hvolume : p.volume = none := by
          cases hv : p.volume with
          | none => rfl
          | some v => simp [validatePositionDict, hp.1, hp.2, hv] at hvalid
        rw [if_pos hp, hvolume, numbers_cons_none, numbers_nil, removeVolumes_nil, hrest]
      · rw [if_neg hp, hrest]
    · exact hrest

theorem removeVolumes_append (vs : List (Option NumberText)) (os os' : List Decimal) :
    removeVolumes (removeVolumes vs os) os' = removeVolumes vs (os ++ os') := by
  rw [removeVolumes, removeVolumes, List.filter_filter]
  refine List.filter_congr fun v _ => ?_
  rw [List.map_append]
  simp only [List.mem_append, Bool.decide_or, Bool.not_or, Bool.and_comm]

/-- From the groups without a side they remove every text of a volume. -/
theorem foldl_invalid_none (hps : ∀ p ∈ ps, p.symbol ≠ none) (vs : List (Option NumberText)) :
    (invalidDiscrepancies a ps).foldl (correctGroup ms x none) vs =
      removeVolumes vs (numbers (groupTexts x none ps)) := by
  induction ps generalizing vs with
  | nil => exact (removeVolumes_nil vs).symm
  | cons p ps ih =>
    have hrest := ih fun q hq => hps q (List.mem_cons_of_mem p hq)
    rw [invalidDiscrepancies_cons, groupTexts_cons]
    split
    · rw [List.foldl_cons, correctGroup_invalid (hps p (by simp))]
      by_cases hp : p.symbol = some x ∧ p.side = none
      · rw [if_pos hp, if_pos hp, hrest, removeVolumes_append]
        congr 1
        cases p.volume <;> simp
      · rw [if_neg hp, if_neg hp, hrest]
    · rename_i hvalid
      have hp : ¬(p.symbol = some x ∧ p.side = none) := by
        rintro ⟨-, hside⟩
        exact hvalid (by cases hs : p.symbol <;> simp [validatePositionDict, hs, hside])
      rw [if_neg hp, hrest]

/-- The other discrepancies have sides. -/
theorem correctGroup_none (o : PairOutcome Held Mt5Report) (vs : List (Option NumberText)) :
    correctGroup ms x none vs (discrepancyOf a o) = vs := by
  cases o with
  | left p => simp [discrepancyOf, createOrphanDiscrepancy, correctGroup]
  | right m =>
    simp only [discrepancyOf, createUnknownDiscrepancy, correctGroup]
    split <;> simp
  | differ p m =>
    by_cases hside : m.side = p.side <;>
      simp [discrepancyOf, createMismatch, correctGroup, hside]

theorem foldl_loop_none (os : List (PairOutcome Held Mt5Report)) (vs : List (Option NumberText)) :
    (os.map (discrepancyOf a)).foldl (correctGroup ms x none) vs = vs := by
  induction os with
  | nil => rfl
  | cons o os ih => rw [List.map_cons, List.foldl_cons, correctGroup_none, ih]

/-- The corrections of a group, in their order. -/
theorem groupTexts_saved (a x : String) (side : Option String) (ps : List PositionDict)
    (ms : List Mt5Report) :
    groupTexts x side (savedPositions a ps ms) =
      ((pairOff agrees ((ps.filterMap validatePositionDict).filter (·.symbol = x))
          (ms.filter (·.symbol = x))).map (discrepancyOf a)).foldl (correctGroup ms x side)
        ((invalidDiscrepancies a ps).foldl (correctGroup ms x side) (groupTexts x side ps)) := by
  have hinvalid : ∀ vs, ((invalidDiscrepancies a ps).filter (·.symbol = x)).foldl
      (correctGroup ms x side) vs = (invalidDiscrepancies a ps).foldl (correctGroup ms x side) vs := by
    intro vs
    generalize invalidDiscrepancies a ps = ds
    induction ds generalizing vs with
    | nil => rfl
    | cons d ds ih =>
      by_cases hd : d.symbol = x
      · rw [List.filter_cons_of_pos (by simp [hd]), List.foldl_cons, List.foldl_cons, ih]
      · rw [List.filter_cons_of_neg (by simp [hd]), List.foldl_cons, correctGroup_of_ne hd, ih]
  rw [savedPositions, groupTexts_foldl, matchPositions_eq, List.filter_append, List.foldl_append,
    matchLoop_filter]
  exact congrArg (((pairOff agrees _ _).map (discrepancyOf a)).foldl (correctGroup ms x side))
    (hinvalid _)

/-! ## When MT5's positions are restored -/

/-- The volumes saved for a group with a side. -/
def savedVolumes (ms : List Mt5Report) (vs : List (Option NumberText)) (rs : List Mt5Report) :
    List (Option NumberText) :=
  removeVolumes (setVolumes vs (lastDiffering (numbers vs) (rs.map (·.volume))))
      ((numbers vs).drop rs.length) ++
    (rs.drop (numbers vs).length).map (addedVolume ms)

/-- The volumes of a group come out as MT5's. If no volume differs from
the one MT5 reports at its place, only the surplus counts: the texts of
its volumes must be those of the surplus positions and no others. If one
differs there must be no surplus, and MT5's volumes must stay the same,
within the tolerance, when the last one that differs takes the place of
all in the group. -/
def Restorable (vs : List (Option NumberText)) (rs : List Mt5Report) : Prop :=
  none ∉ vs ∧
    match lastDiffering (numbers vs) (rs.map (·.volume)) with
    | none =>
      vs.length ≤ rs.length ∨
        Matches VolumeAgrees (removeVolumes vs ((numbers vs).drop rs.length)) rs
    | some v =>
      vs.length ≤ rs.length ∧
        Matches VolumeAgrees
          (List.replicate vs.length (some v.str) ++ (rs.drop vs.length).map fun m => some m.volume.str)
          rs

theorem numbers_length_of_not_mem {vs : List (Option NumberText)} (h : none ∉ vs) :
    (numbers vs).length = vs.length := by
  induction vs with
  | nil => rfl
  | cons v vs ih =>
    cases v with
    | none => simp at h
    | some t => simpa using ih (by simpa using h)

theorem numbers_length_lt {vs : List (Option NumberText)} (h : none ∈ vs) :
    (numbers vs).length < vs.length := by
  have hle : ∀ ws : List (Option NumberText), (numbers ws).length ≤ ws.length :=
    fun ws => List.length_filterMap_le _ _
  induction vs with
  | nil => cases h
  | cons v vs ih =>
    cases v with
    | none => simpa [Nat.lt_succ_iff] using hle vs
    | some t => simpa using ih (by simpa using h)

/-- Volumes of which none differs match in their order. -/
theorem forall₂_of_lastDiffering {vs : List (Option NumberText)} (hnone : none ∉ vs)
    (hlen : vs.length ≤ rs.length)
    (h : lastDiffering (numbers vs) (rs.map (·.volume)) = none) :
    List.Forall₂ VolumeAgrees vs (rs.take vs.length) := by
  induction vs generalizing rs with
  | nil => exact .nil
  | cons v vs ih =>
    cases v with
    | none => simp at hnone
    | some t =>
      cases rs with
      | nil => simp at hlen
      | cons m rs =>
        simp only [numbers_cons_some, List.map_cons, lastDiffering, Option.or_eq_none_iff] at h
        obtain ⟨hrest, hclose⟩ := h
        have hagree : |m.volume.value - t.number.value| ≤ volumeTolerance := by
          by_contra hfar
          simp [hfar] at hclose
        refine .cons ⟨t, rfl, hagree⟩ (ih (by simpa using hnone) (by simpa using hlen) hrest)

/-- What is added is as good as the positions that are missing. -/
theorem addedVolume_agrees (hms : ∀ m ∈ rs, m ∈ ms) :
    List.Forall₂ (fun v v' => ∀ m, VolumeAgrees v m ↔ VolumeAgrees v' m)
      (rs.map (addedVolume ms)) (rs.map fun m => some m.volume.str) := by
  rw [List.forall₂_map_left_iff, List.forall₂_map_right_iff, List.forall₂_same]
  intro m hm m'
  obtain ⟨found, hfind, -, -, hvalue⟩ := exists_find_report (hms m hm)
  simp [VolumeAgrees, addedVolume, hfind, Decimal.str, hvalue]

theorem forall₂_agrees_refl (vs : List (Option NumberText)) :
    List.Forall₂ (fun v v' => ∀ m : Mt5Report, VolumeAgrees v m ↔ VolumeAgrees v' m) vs vs :=
  List.forall₂_same.mpr fun _ _ _ => Iff.rfl

theorem volumeAgrees_self (m : Mt5Report) : VolumeAgrees (some m.volume.str) m := by
  have htol : (0 : ℚ) ≤ volumeTolerance := by norm_num [volumeTolerance]
  refine ⟨m.volume.str, rfl, ?_⟩
  simpa [Decimal.str] using htol

/-- A text that all have is removed from all of them or from none. -/
theorem removeVolumes_replicate (n : ℕ) (v : Decimal) (os : List Decimal) :
    removeVolumes (List.replicate n (some v.str)) os = [] ∨
      removeVolumes (List.replicate n (some v.str)) os = List.replicate n (some v.str) := by
  by_cases hv : (some v.str) ∈ os.map fun o => some o.str
  · left
    rw [removeVolumes, List.filter_eq_nil_iff]
    intro w hw
    simp [List.eq_of_mem_replicate hw, hv]
  · right
    rw [removeVolumes, List.filter_eq_self]
    intro w hw
    simp [List.eq_of_mem_replicate hw, hv]

theorem lastDiffering_some {es vs : List Decimal} {v : Decimal}
    (h : lastDiffering es vs = some v) : es ≠ [] ∧ vs ≠ [] := by
  cases es with
  | nil => cases h
  | cons e es =>
    cases vs with
    | nil => cases h
    | cons w vs => simp

theorem setVolumes_some (vs : List (Option NumberText)) (v : Decimal) :
    setVolumes vs (some v) = List.replicate vs.length (some v.str) := by
  rw [setVolumes, List.map_const']

/-- Where a volume differs there are as many saved as reported only if no
dict of the group lacks a volume and none is surplus. -/
theorem length_savedVolumes_of_some {vs : List (Option NumberText)} {v : Decimal}
    (h : lastDiffering (numbers vs) (rs.map (·.volume)) = some v)
    (hlen : (savedVolumes ms vs rs).length = rs.length) :
    none ∉ vs ∧ vs.length ≤ rs.length := by
  obtain ⟨hvs, hrs⟩ := lastDiffering_some h
  have hpos : 0 < rs.length := by
    rw [List.length_pos_iff]
    rintro rfl
    exact hrs rfl
  have hnumbers : (numbers vs).length ≤ vs.length := List.length_filterMap_le _ _
  rw [savedVolumes, h, setVolumes_some, List.length_append, List.length_map, List.length_drop] at hlen
  have hkept : (numbers vs).length ≤ rs.length := by
    by_contra hsurplus
    rcases removeVolumes_replicate vs.length v ((numbers vs).drop rs.length) with hall | hall
    · rw [hall, List.length_nil] at hlen
      omega
    · rw [hall, List.length_replicate] at hlen
      omega
  have hnil : (numbers vs).drop rs.length = [] := List.drop_eq_nil_iff.mpr hkept
  rw [hnil, removeVolumes_nil, List.length_replicate] at hlen
  have hall : none ∉ vs := by
    intro hnone
    have hlt := numbers_length_lt hnone
    omega
  exact ⟨hall, by rw [← numbers_length_of_not_mem hall]; exact hkept⟩

/-- Where some volume differs, all that are held get the one value. -/
theorem savedVolumes_matches_of_some {v : Decimal} (hms : ∀ m ∈ rs, m ∈ ms)
    {vs : List (Option NumberText)}
    (hlast : lastDiffering (numbers vs) (rs.map (·.volume)) = some v) (hnone : none ∉ vs)
    (hle : vs.length ≤ rs.length) :
    Matches VolumeAgrees (savedVolumes ms vs rs) rs ↔
      Matches VolumeAgrees (List.replicate vs.length (some v.str) ++
        (rs.drop vs.length).map fun m => some m.volume.str) rs := by
  have hlen := numbers_length_of_not_mem hnone
  have hnil : (numbers vs).drop rs.length = [] :=
    List.drop_eq_nil_iff.mpr (by rw [hlen]; exact hle)
  rw [savedVolumes, hlast, setVolumes_some, hnil, removeVolumes_nil, hlen]
  refine Matches.congr_left (List.rel_append (forall₂_agrees_refl _) ?_)
  exact addedVolume_agrees fun m hm => hms m (List.mem_of_mem_drop hm)

/-- A volume that is no text stays, and is the volume of no report. -/
theorem savedVolumes_not_matches_of_mem {vs : List (Option NumberText)} (hnone : none ∈ vs)
    (hset : savedVolumes ms vs rs = removeVolumes vs ((numbers vs).drop rs.length) ++
      (rs.drop (numbers vs).length).map (addedVolume ms)) :
    ¬Matches VolumeAgrees (savedVolumes ms vs rs) rs := by
  rw [hset]
  have hkept : none ∈ removeVolumes vs ((numbers vs).drop rs.length) := by
    have htext : none ∉ ((numbers vs).drop rs.length).map fun o => some o.str := by
      intro h
      obtain ⟨o, -, ho⟩ := List.mem_map.mp h
      cases ho
    exact List.mem_filter.mpr ⟨hnone, by rw [decide_eq_false htext, Bool.not_false]⟩
  intro hmatch
  obtain ⟨m, -, t, ht, -⟩ := hmatch.exists_of_mem (List.mem_append_left _ hkept)
  cases ht

theorem savedVolumes_restored_iff (hms : ∀ m ∈ rs, m ∈ ms) (vs : List (Option NumberText)) :
    Matches VolumeAgrees (savedVolumes ms vs rs) rs ↔ Restorable vs rs := by
  rw [Restorable]
  cases hlast : lastDiffering (numbers vs) (rs.map (·.volume)) with
  | some v =>
    constructor
    · intro hmatch
      obtain ⟨hnone, hle⟩ := length_savedVolumes_of_some hlast hmatch.length_eq
      exact ⟨hnone, hle, (savedVolumes_matches_of_some hms hlast hnone hle).mp hmatch⟩
    · rintro ⟨hnone, hle, hmatch⟩
      exact (savedVolumes_matches_of_some hms hlast hnone hle).mpr hmatch
  | none =>
    have hset : savedVolumes ms vs rs = removeVolumes vs ((numbers vs).drop rs.length) ++
        (rs.drop (numbers vs).length).map (addedVolume ms) := by
      rw [savedVolumes, hlast, setVolumes]
    by_cases hnone : none ∈ vs
    · exact iff_of_false (savedVolumes_not_matches_of_mem hnone hset) fun h => h.1 hnone
    · have hlen := numbers_length_of_not_mem hnone
      rw [hset, hlen]
      simp only [hnone, not_false_eq_true, true_and]
      by_cases hle : vs.length ≤ rs.length
      · refine iff_of_true ?_ (.inl hle)
        have hnil : (numbers vs).drop rs.length = [] :=
          List.drop_eq_nil_iff.mpr (by rw [hlen]; exact hle)
        have hadded : Matches VolumeAgrees ((rs.drop vs.length).map (addedVolume ms))
            (rs.drop vs.length) := by
          rw [Matches.congr_left
            (addedVolume_agrees fun m hm => hms m (List.mem_of_mem_drop hm)), Matches.map_left_iff]
          exact .of_forall₂ (List.forall₂_same.mpr fun m _ => volumeAgrees_self m)
        rw [hnil, removeVolumes_nil]
        have hboth := (Matches.of_forall₂ (forall₂_of_lastDiffering hnone hle hlast)).append hadded
        rwa [List.take_append_drop] at hboth
      · have hdrop : rs.drop vs.length = [] := List.drop_eq_nil_iff.mpr (by omega)
        rw [hdrop, List.map_nil, List.append_nil, or_iff_right hle]

/-! ## Reconciliation -/

/-- MT5's positions can be restored from a snapshot: every dict names its
symbol, a dict without a side has the text of a volume to be found by, and
all groups come out as MT5's. -/
structure Correctable (ps : List PositionDict) (ms : List Mt5Report) : Prop where
  symbol : ∀ p ∈ ps, p.symbol ≠ none
  side : ∀ p ∈ ps, p.side = none → ∃ v : Decimal, p.volume = some v.str
  groups : ∀ x s, Restorable (groupTexts x (some s) ps) (groupReports x s ms)

/-- Without critical discrepancies positions differ in their volumes only. -/
theorem side_eq_of_success (hsuccess : (reconcilePositions a ps ms).1.success = true) :
    ∀ p m, .differ p m ∈ pairOff agrees ((ps.filterMap validatePositionDict).filter (·.symbol = x))
      (ms.filter (·.symbol = x)) → m.side = p.side := by
  intro p m hpm
  have hcount : countOf .sideMismatch (matchPositions a ps ms).2 = 0 := by
    have hcritical : hasCriticalDiscrepancies (matchPositions a ps ms).2 ps ms = false := by
      simpa [reconcilePositions] using hsuccess
    simp only [hasCriticalDiscrepancies, Bool.or_eq_false_iff, decide_eq_false_iff_not] at hcritical
    omega
  have hmem : discrepancyOf a (.differ p m) ∈ (matchPositions a ps ms).2 := by
    rw [matchPositions_eq]
    refine List.mem_append_right _ (List.mem_of_mem_filter (p := (·.symbol = x)) ?_)
    rw [matchLoop_filter]
    exact List.mem_map_of_mem hpm
  have htype := List.countP_eq_zero.mp hcount _ hmem
  by_contra hside
  exact htype (by simp [discrepancyOf, createMismatch, hside])

/-- What a group with a side becomes. -/
theorem groupTexts_savedPositions (hsuccess : (reconcilePositions a ps ms).1.success = true)
    (hps : ∀ p ∈ ps, p.symbol ≠ none) (x s : String) :
    groupTexts x (some s) (savedPositions a ps ms) =
      savedVolumes ms (groupTexts x (some s) ps) (groupReports x s ms) := by
  rw [groupTexts_saved, foldl_invalid_some s hps, correct_group s ?_ ?_ (side_eq_of_success hsuccess),
    heldOf_eq_numbers]
  · rfl
  · intro p hp
    simpa using (List.mem_filter.mp hp).2
  · intro m hm
    simpa using List.mem_filter.mp hm

/-- What a group without a side becomes. -/
theorem groupTexts_savedPositions_none (hps : ∀ p ∈ ps, p.symbol ≠ none) (x : String) :
    groupTexts x none (savedPositions a ps ms) =
      removeVolumes (groupTexts x none ps) (numbers (groupTexts x none ps)) := by
  rw [groupTexts_saved, foldl_invalid_none hps, foldl_loop_none]

/-- A group is gone if all its volumes are found by their texts. -/
theorem removeVolumes_numbers_eq_nil (vs : List (Option NumberText)) :
    removeVolumes vs (numbers vs) = [] ↔ ∀ v ∈ vs, ∃ o : Decimal, v = some o.str := by
  rw [removeVolumes, List.filter_eq_nil_iff]
  constructor
  · intro h v hv
    have hmem : v ∈ (numbers vs).map fun o => some o.str := by simpa using h v hv
    obtain ⟨o, -, rfl⟩ := List.mem_map.mp hmem
    exact ⟨o, rfl⟩
  · intro h v hv
    obtain ⟨o, rfl⟩ := h v hv
    have ho : o ∈ numbers vs := List.mem_filterMap.mpr ⟨_, hv, rfl⟩
    have hmem := List.mem_map_of_mem (f := fun o : Decimal => some o.str) ho
    simp [hmem]

/-- A dict without a symbol stays, and none is added. -/
theorem symbols_savedPositions_iff :
    (∀ p ∈ savedPositions a ps ms, p.symbol ≠ none) ↔ ∀ p ∈ ps, p.symbol ≠ none := by
  have hfilter : (savedPositions a ps ms).filter (·.symbol = none) = ps.filter (·.symbol = none) := by
    rw [savedPositions, filter_symbol_none_foldl]
  have hnone (qs : List PositionDict) :
      (∀ p ∈ qs, p.symbol ≠ none) ↔ qs.filter (·.symbol = none) = [] := by
    simp [List.filter_eq_nil_iff]
  rw [hnone, hnone, hfilter]

/-- A dict without a side goes when its volume is a number's text. -/
theorem sides_savedPositions_iff (hsymbols : ∀ p ∈ ps, p.symbol ≠ none) :
    (∀ p ∈ savedPositions a ps ms, p.side ≠ none) ↔
      ∀ p ∈ ps, p.side = none → ∃ v : Decimal, p.volume = some v.str := by
  have hsaved := (@symbols_savedPositions_iff a ps ms).mpr hsymbols
  have hempty : (∀ p ∈ savedPositions a ps ms, p.side ≠ none) ↔
      ∀ x, groupTexts x none (savedPositions a ps ms) = [] := by
    constructor
    · intro h x
      rw [groupTexts, List.map_eq_nil_iff, List.filter_eq_nil_iff]
      intro p hp
      simp [h p hp]
    · intro h p hp hnone
      obtain ⟨x, hx⟩ := Option.ne_none_iff_exists'.mp (hsaved p hp)
      have hmem : p.volume ∈ groupTexts x none (savedPositions a ps ms) :=
        List.mem_map_of_mem (List.mem_filter.mpr ⟨hp, by simp [hx, hnone]⟩)
      rw [h x] at hmem
      cases hmem
  rw [hempty]
  constructor
  · intro h p hp hnone
    obtain ⟨x, hx⟩ := Option.ne_none_iff_exists'.mp (hsymbols p hp)
    have hx' := h x
    rw [groupTexts_savedPositions_none hsymbols, removeVolumes_numbers_eq_nil] at hx'
    exact hx' _ (List.mem_map_of_mem (List.mem_filter.mpr ⟨hp, by simp [hx, hnone]⟩))
  · intro h x
    rw [groupTexts_savedPositions_none hsymbols, removeVolumes_numbers_eq_nil]
    intro v hv
    obtain ⟨p, hp, rfl⟩ := List.mem_map.mp hv
    have hp' := List.mem_filter.mp hp
    exact h p hp'.1 (by simpa using (of_decide_eq_true hp'.2).2)

theorem savedPositions_matches_iff (hsuccess : (reconcilePositions a ps ms).1.success = true) :
    Matches SamePosition (savedPositions a ps ms) ms ↔ Correctable ps ms := by
  rw [samePosition_iff_groups]
  by_cases hsymbols : ∀ p ∈ ps, p.symbol ≠ none
  · have hsaved := (@symbols_savedPositions_iff a ps ms).mpr hsymbols
    have hgroup : ∀ x s, Matches VolumeAgrees (groupTexts x (some s) (savedPositions a ps ms))
        (groupReports x s ms) ↔ Restorable (groupTexts x (some s) ps) (groupReports x s ms) := by
      intro x s
      rw [groupTexts_savedPositions hsuccess hsymbols]
      refine savedVolumes_restored_iff (fun m hm => ?_) _
      exact List.mem_of_mem_filter (List.mem_of_mem_filter hm)
    simp only [hgroup]
    constructor
    · rintro ⟨hall, hgroups⟩
      exact ⟨hsymbols, (sides_savedPositions_iff hsymbols).mp fun p hp => (hall p hp).2, hgroups⟩
    · rintro ⟨-, hside, hgroups⟩
      exact ⟨fun p hp => ⟨hsaved p hp, (sides_savedPositions_iff hsymbols).mpr hside p hp⟩, hgroups⟩
  · -- a dict without a symbol stays
    refine iff_of_false (fun h => hsymbols ?_) fun h => hsymbols h.symbol
    exact symbols_savedPositions_iff.mp fun p hp => (h.1 p hp).1

/-- **When a successful reconciliation saves MT5's positions.** It has
compared a list MT5 reported and saved a snapshot; the snapshot's positions
are those of the list exactly if the old ones could be corrected to it. -/
theorem reconciliation_restores_iff (computeChecksum : Checksum) (now : ℚ) (a : String)
    (snapshot : StateSnapshot) (reply : Mt5Reply) (r : ReconciliationResult)
    (saved : Option StateSnapshot)
    (h : reconcileAccount computeChecksum now a snapshot reply = .ok (r, saved))
    (hsuccess : r.success = true) :
    ∃ ms s, reply = .positions ms ∧ saved = some s ∧
      (Matches SamePosition s.positions ms ↔ Correctable snapshot.positions ms) := by
  cases reply with
  | timeout =>
    cases h
    cases hsuccess
  | runtimeError text =>
    cases h
    cases hsuccess
  | raises text => cases h
  | positions ms =>
    simp only [reconcileAccount, Except.ok.injEq, Prod.mk.injEq] at h
    obtain ⟨rfl, rfl⟩ := h
    have hsaved : (reconcilePositions a snapshot.positions ms).2 =
        some (savedPositions a snapshot.positions ms) := by
      have hmanual : hasCriticalDiscrepancies (matchPositions a snapshot.positions ms).2
          snapshot.positions ms = false := by
        simpa [reconcilePositions] using hsuccess
      simp [reconcilePositions, hmanual, savedPositions]
    refine ⟨ms, _, rfl, by rw [hsaved]; rfl, ?_⟩
    exact savedPositions_matches_iff hsuccess

/-- Two lots. -/
def twoLots : Decimal := { coefficient := 20, exponent := -1 }

def hundredThousand : Decimal := { coefficient := 100000, exponent := 0 }

def goldSnapshot (positions : List PositionDict) : StateSnapshot :=
  .sealed (fun _ => "checksum")
    { accountId := "ftmo-gold-001", timestamp := 0, positions, accountBalance := hundredThousand
      equity := hundredThousand, peakBalance := hundredThousand
      dailyStartingBalance := hundredThousand }

def twoTenths : StateSnapshot :=
  goldSnapshot [heldGold "BUY" twoLots, heldGold "BUY" tenth, heldGold "BUY" tenth]

theorem reconciliation_restores_iff_closed :
    ∃ ms s, Mt5Reply.positions [reportedGold "BUY" twoLots] = .positions ms ∧
      some ((goldSnapshot [heldGold "BUY" twoLots])) = some s ∧
      (Matches SamePosition s.positions ms ↔
        Correctable [heldGold "BUY" twoLots, heldGold "BUY" tenth] ms) :=
  reconciliation_restores_iff (fun _ => "checksum") 0 "ftmo-gold-001"
    (goldSnapshot [heldGold "BUY" twoLots, heldGold "BUY" tenth])
    (.positions [reportedGold "BUY" twoLots])
    (reconcilePositions "ftmo-gold-001" [heldGold "BUY" twoLots, heldGold "BUY" tenth]
      [reportedGold "BUY" twoLots]).1 _ (by decide +kernel) (by decide +kernel)

/-- **One of two equal positions was closed** while the engine was down.
Both are removed, and the reconciliation succeeds. -/
theorem equal_positions_removed :
    ¬ ∀ computeChecksum now a snapshot ms r s,
      reconcileAccount computeChecksum now a snapshot (.positions ms) = .ok (r, some s) →
        r.success = true → Matches SamePosition s.positions ms := by
  intro hall
  have hmatch := hall (fun _ => "checksum") 0 "ftmo-gold-001" twoTenths
    [reportedGold "BUY" twoLots, reportedGold "BUY" tenth]
    (reconcilePositions "ftmo-gold-001" twoTenths.positions
      [reportedGold "BUY" twoLots, reportedGold "BUY" tenth]).1
    (goldSnapshot [heldGold "BUY" twoLots]) (by decide +kernel) (by decide +kernel)
  have hlen := hmatch.length_eq
  simp [goldSnapshot, StateSnapshot.sealed] at hlen

end PositionReconciler

end TdSandboxed
