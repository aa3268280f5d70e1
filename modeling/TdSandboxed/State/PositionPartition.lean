/-
TdSandboxed.State.PositionPartition — `_match_positions` accounts for every
position once.

An `Explanation` of a result is a list of outcomes, one for each
discrepancy: a snapshot position alone, an MT5 position alone, or two of
one symbol that differ. Outcomes and matched pairs together are the two
lists of positions.

`turn_of_matchPosition` says what one turn of the loop does. What a turn
stops at is the first MT5 position left of its symbol, so what `remove`
takes out is that position and no other (`remove_append`).
`explanation_of_run` carries the explanation over the loop.
-/
import TdSandboxed.State.PositionMatching
import TdSandboxed.State.SnapshotCodec

namespace TdSandboxed.PositionMatching

open Lib
open SnapshotCodec (asciiData)

section
variable (unicode : UnicodeData) (accountId : String) (bound : ℚ)

/-! ## What a result means -/

def SameSymbol (p : PositionDict) (m : MT5Position) : Prop := p.get? "symbol" = some m.symbol

def SameSide (p : PositionDict) (m : MT5Position) : Prop := p.get? "side" = some m.side

/-- The volumes differ by at most the bound. -/
def VolumesWithin (p : PositionDict) (m : MT5Position) : Prop :=
  ∃ volume, readVolume unicode p = .ok volume ∧
    DecimalValue.Close bound m.volume.value volume.value

def VolumesBeyond (p : PositionDict) (m : MT5Position) : Prop :=
  ∃ volume, readVolume unicode p = .ok volume ∧
    ¬DecimalValue.Close bound m.volume.value volume.value

/-- What is reported of an outcome. -/
def createDiscrepancy : PairOutcome PositionDict MT5Position → Except PyError PositionDiscrepancy
  | .left p =>
    if validatePositionDict p then createOrphanDiscrepancy unicode accountId p
    else createInvalidDiscrepancy unicode accountId p
  | .right m => .ok (createUnknownDiscrepancy accountId m)
  | .differ p m =>
    if p.get? "side" = some m.side then createVolumeMismatchDiscrepancy unicode accountId p m
    else createSideMismatchDiscrepancy unicode accountId p m

/-- The outcomes behind the discrepancies of a result. -/
structure Explanation (ps : List PositionDict) (ms : List MT5Position)
    (pairs : List (PositionDict × MT5Position)) (ds : List PositionDiscrepancy)
    (os : List (PairOutcome PositionDict MT5Position)) : Prop where
  reported : List.Forall₂ (fun o d => createDiscrepancy unicode accountId o = .ok d) os ds
  accounting : Accounting ps ms pairs os
  matched : ∀ p m, (p, m) ∈ pairs →
    SameSymbol p m ∧ SameSide p m ∧ VolumesWithin unicode bound p m
  mismatched : ∀ p m, .differ p m ∈ os →
    SameSymbol p m ∧ (¬SameSide p m ∨ SameSide p m ∧ VolumesBeyond unicode bound p m)
  exclusive : ∀ p m, .left p ∈ os → .right m ∈ os → validatePositionDict p → ¬SameSymbol p m

/-- The numbers of a dict can be read. -/
def Readable (p : PositionDict) : Prop :=
  ∀ field ∈ ["volume", "entry_price"], ∀ text ∈ p.get? field,
    ∃ d, readDecimal unicode text = .ok d

/-- The volumes can be compared. NaN and two equal infinities cannot, and
their difference must not overflow. -/
def Comparable (p : PositionDict) (m : MT5Position) : Prop :=
  ∃ volume agree, readVolume unicode p = .ok volume ∧ volumesAgree m volume = .ok agree

/-! ## Removing -/

variable {unicode accountId bound}
variable {p : PositionDict} {m : MT5Position} {ms : List MT5Position} {s s' : Matching}

theorem symbol_eq_of_eq {m m' : MT5Position} (h : m = m' ∨ m.eq m') : m.symbol = m'.symbol := by
  rcases h with rfl | h
  · rfl
  · simp only [MT5Position.eq, Bool.and_eq_true, decide_eq_true_eq] at h
    tauto

theorem remove_cons_of_eq {x : MT5Position} (h : x = m ∨ x.eq m) :
    remove m (x :: ms) = .ok ms := if_pos h

/-- What is removed is the first of its symbol. -/
theorem remove_append {before after : List MT5Position}
    (h : ∀ x ∈ before, x.symbol ≠ m.symbol) :
    remove m (before ++ m :: after) = .ok (before ++ after) := by
  induction before with
  | nil => exact remove_cons_of_eq (.inl rfl)
  | cons x before ih =>
    have hne : ¬(x = m ∨ x.eq m) := fun heq => h x List.mem_cons_self (symbol_eq_of_eq heq)
    have hrest := ih fun y hy => h y (List.mem_cons_of_mem x hy)
    rw [List.cons_append, remove, if_neg hne, hrest]
    rfl

/-! ## A tolerance that is computed -/

/-- What `VOLUME_TOLERANCE` lets pass. -/
def volumeBound : ℚ := 10 ^ (-3 : ℤ) + 10 ^ (-30 : ℤ) / 2

theorem volumesAgree_iff {volume : PyDecimal} {agree : Bool} (h : volumesAgree m volume = .ok agree) :
    agree = true ↔ DecimalValue.Close volumeBound m.volume.value volume.value := by
  unfold volumesAgree at h
  cases hw : DecimalValue.within volumeTolerance m.volume.value volume.value with
  | error e =>
    rw [hw] at h
    cases h
  | ok c =>
    rw [hw] at h
    cases h
    exact DecimalValue.within_zpow_iff (by decide) hw

/-! ## One turn -/

/-- What one turn of the loop does. -/
inductive Turn (unicode : UnicodeData) (accountId : String) (s : Matching) (p : PositionDict) :
    Matching → Prop
  | orphan (d : PositionDiscrepancy) :
    createOrphanDiscrepancy unicode accountId p = .ok d →
    (∀ m ∈ s.mt5Unmatched, ¬SameSymbol p m) →
    Turn unicode accountId s p { s with discrepancies := s.discrepancies ++ [d] }
  | pair (before : List MT5Position) (m : MT5Position) (after : List MT5Position) :
    s.mt5Unmatched = before ++ m :: after →
    SameSymbol p m → SameSide p m → VolumesWithin unicode volumeBound p m →
    Turn unicode accountId s p
      { s with matchedPairs := s.matchedPairs ++ [(p, m)], mt5Unmatched := before ++ after }
  | differ (before : List MT5Position) (m : MT5Position) (after : List MT5Position)
      (d : PositionDiscrepancy) :
    s.mt5Unmatched = before ++ m :: after →
    SameSymbol p m → ¬SameSide p m ∨ SameSide p m ∧ VolumesBeyond unicode volumeBound p m →
    createDiscrepancy unicode accountId (.differ p m) = .ok d →
    Turn unicode accountId s p
      { s with discrepancies := s.discrepancies ++ [d], mt5Unmatched := before ++ after }

section
variable {symbol side : String} {volume : PyDecimal}

/-- The inner loop, where it has come to: before it no position is of the
symbol. -/
theorem turn_of_findMatch (hsymbol : p.get? "symbol" = some symbol)
    (hside : p.get? "side" = some side) (hvolume : readVolume unicode p = .ok volume)
    {before : List MT5Position} {r : Option Matching} (hs : s.mt5Unmatched = before ++ ms)
    (hbefore : ∀ x ∈ before, x.symbol ≠ symbol)
    (h : findMatch unicode accountId s p symbol side volume ms = .ok r) :
    (r = none ∧ ∀ m ∈ s.mt5Unmatched, m.symbol ≠ symbol) ∨
      ∃ s', r = some s' ∧ Turn unicode accountId s p s' := by
  induction ms generalizing before with
  | nil =>
    cases h
    rw [hs, List.append_nil]
    exact .inl ⟨rfl, hbefore⟩
  | cons m ms ih =>
    rw [findMatch] at h
    by_cases hm : m.symbol = symbol
    · have hremove : remove m s.mt5Unmatched = .ok (before ++ ms) := by
        rw [hs]
        exact remove_append (hm ▸ hbefore)
      have hsame : SameSymbol p m := hsymbol.trans (congrArg some hm.symm)
      rw [if_pos hm] at h
      by_cases hne : m.side ≠ side
      · have hdiff : ¬SameSide p m := fun h' => hne (Option.some.inj (h'.symm.trans hside))
        rw [if_pos hne] at h
        obtain ⟨d, hd, h⟩ := bind_eq_ok.mp h
        obtain ⟨rest, hrest, h⟩ := bind_eq_ok.mp h
        cases h
        cases hrest.symm.trans hremove
        have hcreate : createDiscrepancy unicode accountId (.differ p m) = .ok d :=
          (if_neg hdiff).trans hd
        exact .inr ⟨_, rfl, .differ before m ms d hs hsame (.inl hdiff) hcreate⟩
      · have heq : SameSide p m := hside.trans (congrArg some (not_not.mp hne).symm)
        rw [if_neg hne] at h
        obtain ⟨agree, hagree, h⟩ := bind_eq_ok.mp h
        have hbound := volumesAgree_iff hagree
        cases agree with
        | true =>
          obtain ⟨rest, hrest, h⟩ := bind_eq_ok.mp h
          cases h
          cases hrest.symm.trans hremove
          have hwithin : VolumesWithin unicode volumeBound p m := ⟨volume, hvolume, hbound.mp rfl⟩
          exact .inr ⟨_, rfl, .pair before m ms hs hsame heq hwithin⟩
        | false =>
          obtain ⟨d, hd, h⟩ := bind_eq_ok.mp h
          obtain ⟨rest, hrest, h⟩ := bind_eq_ok.mp h
          cases h
          cases hrest.symm.trans hremove
          have hbeyond : VolumesBeyond unicode volumeBound p m :=
            ⟨volume, hvolume, fun hclose => Bool.false_ne_true (hbound.mpr hclose)⟩
          have hcreate : createDiscrepancy unicode accountId (.differ p m) = .ok d :=
            (if_pos heq).trans hd
          exact .inr ⟨_, rfl, .differ before m ms d hs hsame (.inr ⟨heq, hbeyond⟩) hcreate⟩
    · rw [if_neg hm] at h
      have hbefore' : ∀ x ∈ before ++ [m], x.symbol ≠ symbol := by
        intro x hx
        rcases List.mem_append.mp hx with hx | hx
        · exact hbefore x hx
        · exact List.mem_singleton.mp hx ▸ hm
      exact ih (by rw [hs, List.append_assoc]; rfl) hbefore' h

theorem item_eq_ok {field text : String} : item p field = .ok text ↔ p.get? field = some text := by
  unfold item
  cases p.get? field with
  | some t => exact ⟨fun h => congrArg some (Except.ok.inj h), fun h => congrArg _ (Option.some.inj h)⟩
  | none => exact ⟨fun h => (nomatch h), fun h => (nomatch h)⟩

theorem turn_of_matchPosition (h : matchPosition unicode accountId s p = .ok s') :
    Turn unicode accountId s p s' := by
  obtain ⟨symbol, hsymbol, h⟩ := bind_eq_ok.mp h
  obtain ⟨side, hside, h⟩ := bind_eq_ok.mp h
  obtain ⟨volume, hvolume, h⟩ := bind_eq_ok.mp h
  obtain ⟨r, hr, h⟩ := bind_eq_ok.mp h
  have hsymbol' := item_eq_ok.mp hsymbol
  obtain ⟨rfl, hnone⟩ | ⟨s'', rfl, hturn⟩ :=
    turn_of_findMatch hsymbol' (item_eq_ok.mp hside) hvolume (List.nil_append _).symm (by simp) hr
  · obtain ⟨d, hd, h⟩ := bind_eq_ok.mp h
    cases h
    refine .orphan d hd fun m hm hsame => hnone m hm ?_
    exact Option.some.inj (hsame.symm.trans hsymbol')
  · cases h
    exact hturn

end

/-! ## The loop -/

namespace Explanation

variable {ps ps' : List PositionDict} {ms' : List MT5Position}
  {pairs pairs' : List (PositionDict × MT5Position)} {ds ds' : List PositionDiscrepancy}
  {os os' : List (PairOutcome PositionDict MT5Position)}

theorem pair (hsymbol : SameSymbol p m) (hside : SameSide p m)
    (hvolume : VolumesWithin unicode bound p m) :
    Explanation unicode accountId bound [p] [m] [(p, m)] [] [] where
  reported := .nil
  accounting := .pair p m
  matched := by
    intro p' m' hmem
    cases List.mem_singleton.mp hmem
    exact ⟨hsymbol, hside, hvolume⟩
  mismatched _ _ hmem := nomatch hmem
  exclusive _ _ hmem := nomatch hmem

/-- Positions of the snapshot that are paired with none. -/
theorem left (h : List.Forall₂ (fun p d => createDiscrepancy unicode accountId (.left p) = .ok d) ps ds) :
    Explanation unicode accountId bound ps [] [] ds (ps.map .left) where
  reported := List.forall₂_map_left_iff.mpr h
  accounting := .left ps
  matched _ _ hmem := nomatch hmem
  mismatched := by simp
  exclusive := by simp

/-- Positions of MT5 that are paired with none. -/
theorem right (ms : List MT5Position) :
    Explanation unicode accountId bound [] ms [] (ms.map (createUnknownDiscrepancy accountId))
      (ms.map .right) where
  reported := by
    rw [List.forall₂_map_left_iff, List.forall₂_map_right_iff]
    exact List.forall₂_same.mpr fun _ _ => rfl
  accounting := .right ms
  matched _ _ hmem := nomatch hmem
  mismatched := by simp
  exclusive := by simp

theorem differ {d : PositionDiscrepancy} (hsymbol : SameSymbol p m)
    (hdiffer : ¬SameSide p m ∨ SameSide p m ∧ VolumesBeyond unicode bound p m)
    (hd : createDiscrepancy unicode accountId (.differ p m) = .ok d) :
    Explanation unicode accountId bound [p] [m] [] [d] [.differ p m] where
  reported := .cons hd .nil
  accounting := .differ p m
  matched _ _ hmem := nomatch hmem
  mismatched := by
    intro p' m' hmem
    cases List.mem_singleton.mp hmem
    exact ⟨hsymbol, hdiffer⟩
  exclusive := by simp

theorem append (h : Explanation unicode accountId bound ps ms pairs ds os)
    (h' : Explanation unicode accountId bound ps' ms' pairs' ds' os')
    (hexclusive : ∀ p m, .left p ∈ os ++ os' → .right m ∈ os ++ os' → validatePositionDict p →
      ¬SameSymbol p m) :
    Explanation unicode accountId bound (ps ++ ps') (ms ++ ms') (pairs ++ pairs') (ds ++ ds')
      (os ++ os') where
  reported := List.rel_append h.reported h'.reported
  accounting := h.accounting.append h'.accounting
  matched p m hmem := (List.mem_append.mp hmem).elim (h.matched p m) (h'.matched p m)
  mismatched p m hmem := (List.mem_append.mp hmem).elim (h.mismatched p m) (h'.mismatched p m)
  exclusive := hexclusive

theorem perm (h : Explanation unicode accountId bound ps ms pairs ds os) (hps : ps.Perm ps')
    (hms : ms.Perm ms') : Explanation unicode accountId bound ps' ms' pairs ds os :=
  { h with accounting := h.accounting.perm hps hms }

end Explanation

/-- Where the loop has come to: what it has explained, with the MT5
positions it has taken. -/
structure Underway (unicode : UnicodeData) (accountId : String) (ms : List MT5Position)
    (done : List PositionDict) (s : Matching) (taken : List MT5Position)
    (os : List (PairOutcome PositionDict MT5Position)) : Prop where
  explains : Explanation unicode accountId volumeBound done taken s.matchedPairs s.discrepancies os
  left : (taken ++ s.mt5Unmatched).Perm ms
  apart : ∀ p, .left p ∈ os → validatePositionDict p → ∀ m ∈ s.mt5Unmatched, ¬SameSymbol p m
  unknown : ∀ m, .right m ∉ os

/-- The positions left, when one of them is taken. -/
theorem perm_of_taken {taken left before after ms : List MT5Position} (hleft : left = before ++ m :: after)
    (h : (taken ++ left).Perm ms) : ((taken ++ [m]) ++ (before ++ after)).Perm ms := by
  have hmiddle : (m :: (before ++ after)).Perm left := by
    rw [hleft]
    exact List.perm_middle.symm
  rw [List.append_assoc]
  exact (hmiddle.append_left taken).trans h

theorem mem_of_taken {left before after : List MT5Position} (hleft : left = before ++ m :: after)
    {x : MT5Position} (hx : x ∈ before ++ after) : x ∈ left := by
  rw [hleft]
  exact (List.Sublist.append_left (List.sublist_cons_self m after) before).mem hx

/-- **One turn** explains one position more. -/
theorem underway_turn {done : List PositionDict} {taken : List MT5Position}
    {os : List (PairOutcome PositionDict MT5Position)}
    (h : Underway unicode accountId ms done s taken os) (hp : validatePositionDict p)
    (hturn : Turn unicode accountId s p s') :
    ∃ taken os, Underway unicode accountId ms (done ++ [p]) s' taken os := by
  -- no outcome so far is an MT5 position alone, so none can be of an orphan's symbol
  have hexclusive : ∀ o : PairOutcome PositionDict MT5Position, (∀ m, o ≠ .right m) →
      ∀ p m, .left p ∈ os ++ [o] → .right m ∈ os ++ [o] → validatePositionDict p →
        ¬SameSymbol p m := by
    intro o ho p m _ hright
    rcases List.mem_append.mp hright with hright | hright
    · exact absurd hright (h.unknown m)
    · exact absurd (List.mem_singleton.mp hright).symm (ho m)
  have hunknown : ∀ o : PairOutcome PositionDict MT5Position, (∀ m, o ≠ .right m) →
      ∀ m, .right m ∉ os ++ [o] := by
    intro o ho m hright
    rcases List.mem_append.mp hright with hright | hright
    · exact h.unknown m hright
    · exact ho m (List.mem_singleton.mp hright).symm
  cases hturn with
  | orphan d hd hnone =>
    have hcreate : createDiscrepancy unicode accountId (.left p) = .ok d := (if_pos hp).trans hd
    have hexplains := h.explains.append (.left (.cons hcreate .nil))
      (hexclusive (.left p) fun _ => nofun)
    rw [List.append_nil, List.append_nil] at hexplains
    refine ⟨taken, os ++ [.left p], hexplains, h.left, ?_, hunknown (.left p) fun _ => nofun⟩
    intro q hq hvalid
    rcases List.mem_append.mp hq with hq | hq
    · exact h.apart q hq hvalid
    · cases List.mem_singleton.mp hq
      exact hnone
  | pair before m after hs hsymbol hside hvolume =>
    have hexplains := h.explains.append (.pair hsymbol hside hvolume)
      (by simpa using h.explains.exclusive)
    rw [List.append_nil, List.append_nil] at hexplains
    exact ⟨taken ++ [m], os, hexplains, perm_of_taken hs h.left,
      fun q hq hvalid x hx => h.apart q hq hvalid x (mem_of_taken hs hx), h.unknown⟩
  | differ before m after d hs hsymbol hdiffer hd =>
    have hexplains := h.explains.append (.differ hsymbol hdiffer hd)
      (hexclusive (.differ p m) fun _ => nofun)
    rw [List.append_nil] at hexplains
    refine ⟨taken ++ [m], os ++ [.differ p m], hexplains, perm_of_taken hs h.left, ?_,
      hunknown (.differ p m) fun _ => nofun⟩
    intro q hq hvalid x hx
    rcases List.mem_append.mp hq with hq | hq
    · exact h.apart q hq hvalid x (mem_of_taken hs hx)
    · cases List.mem_singleton.mp hq

/-- Before the loop only the invalid dicts are explained. -/
theorem underway_start {invalid : List PositionDict} {ds : List PositionDiscrepancy}
    (hinvalid : ∀ p ∈ invalid, ¬validatePositionDict p)
    (h : invalid.mapM (createInvalidDiscrepancy unicode accountId) = .ok ds)
    (ms : List MT5Position) :
    Underway unicode accountId ms invalid { discrepancies := ds, mt5Unmatched := ms } []
      (invalid.map .left) where
  explains := by
    have hmem := (List.forall₂_and_left _ _).mpr ⟨hinvalid, forall₂_of_mapM h⟩
    refine .left (hmem.imp ?_)
    rintro p d ⟨hp, hd⟩
    exact (if_neg hp).trans hd
  left := .refl ms
  apart := by
    intro p hp hvalid
    obtain ⟨q, hq, hqp⟩ := List.mem_map.mp hp
    cases hqp
    exact absurd hvalid (hinvalid p hq)
  unknown := by simp

/-- **The run.** -/
theorem explanation_of_run {ps : List PositionDict} {pairs : List (PositionDict × MT5Position)}
    {ds : List PositionDiscrepancy} (h : matchPositions unicode accountId ps ms = .ok (pairs, ds)) :
    ∃ os, Explanation unicode accountId volumeBound ps ms pairs ds os := by
  obtain ⟨invalidReports, hinvalid, h⟩ := bind_eq_ok.mp h
  obtain ⟨s, hloop, h⟩ := bind_eq_ok.mp h
  cases h
  let invalid := ps.filter fun p => !validatePositionDict p
  have hstart := underway_start (fun p hp => by simpa using (List.mem_filter.mp hp).2) hinvalid ms
  have hrun : ∃ taken os, Underway unicode accountId ms
      (invalid ++ ps.filter validatePositionDict) s taken os := by
    refine foldlM_rule (fun done s => ∃ taken os, Underway unicode accountId ms (invalid ++ done) s taken os)
      ?_ ⟨[], invalid.map .left, by rwa [List.append_nil]⟩ hloop
    rintro done p hp s s' ⟨taken, os, hunderway⟩ hturn
    rw [← List.append_assoc]
    exact underway_turn hunderway (List.mem_filter.mp hp).2 (turn_of_matchPosition hturn)
  obtain ⟨taken, os, hend⟩ := hrun
  have hexplains := hend.explains.append (.right s.mt5Unmatched) ?_
  · rw [List.append_nil, List.append_nil] at hexplains
    refine ⟨_, hexplains.perm ?_ hend.left⟩
    exact List.perm_append_comm.trans (List.filter_append_perm validatePositionDict ps)
  · intro p m hleft hright hvalid
    have hp : .left p ∈ os := by simpa using hleft
    have hm : m ∈ s.mt5Unmatched := by
      rcases List.mem_append.mp hright with hright | hright
      · exact absurd hright (hend.unknown m)
      · simpa using hright
    exact hend.apart p hp hvalid m hm

/-! ## No exception -/

theorem fields_of_valid (h : validatePositionDict p) :
    ∃ symbol side text, p.get? "symbol" = some symbol ∧ p.get? "side" = some side ∧
      p.get? "volume" = some text := by
  simp only [validatePositionDict, List.all_cons, List.all_nil, Bool.and_true, Bool.and_eq_true,
    Option.isSome_iff_exists] at h
  obtain ⟨⟨symbol, hsymbol⟩, ⟨side, hside⟩, ⟨text, htext⟩⟩ := h
  exact ⟨symbol, side, text, hsymbol, hside, htext⟩

theorem readField_returns (hp : Readable unicode p) (field : String)
    (hfield : field ∈ ["volume", "entry_price"]) : ∃ d, readField unicode p field = .ok d := by
  unfold readField
  cases htext : p.get? field with
  | some text =>
    obtain ⟨d, hd⟩ := hp field hfield text htext
    exact ⟨some d, congrArg (Except.map some) hd⟩
  | none => exact ⟨none, rfl⟩

theorem readVolume_returns (hp : Readable unicode p) (hvalid : validatePositionDict p) :
    ∃ volume, readVolume unicode p = .ok volume := by
  obtain ⟨_, _, text, _, _, htext⟩ := fields_of_valid hvalid
  obtain ⟨volume, hvolume⟩ := hp "volume" (by simp) text htext
  exact ⟨volume, bind_ok_of_ok (item_eq_ok.mpr htext) hvolume⟩

theorem remove_returns (h : m ∈ ms) : ∃ rest, remove m ms = .ok rest := by
  induction ms with
  | nil => cases h
  | cons x ms ih =>
    rw [remove]
    by_cases hx : x = m ∨ x.eq m
    · exact ⟨ms, if_pos hx⟩
    · have hm : m ∈ ms := (List.mem_cons.mp h).resolve_left fun heq => hx (.inl heq.symm)
      obtain ⟨rest, hrest⟩ := ih hm
      rw [if_neg hx]
      exact ⟨x :: rest, congrArg (Except.map (x :: ·)) hrest⟩

variable (accountId)

theorem createInvalidDiscrepancy_returns (hp : Readable unicode p) :
    ∃ d, createInvalidDiscrepancy unicode accountId p = .ok d := by
  obtain ⟨volume, hvolume⟩ := readField_returns hp "volume" (by simp)
  obtain ⟨price, hprice⟩ := readField_returns hp "entry_price" (by simp)
  exact ⟨_, bind_ok_of_ok hvolume (bind_ok_of_ok hprice rfl)⟩

theorem createOrphanDiscrepancy_returns (hp : Readable unicode p) (hvalid : validatePositionDict p) :
    ∃ d, createOrphanDiscrepancy unicode accountId p = .ok d := by
  obtain ⟨symbol, side, _, hsymbol, hside, _⟩ := fields_of_valid hvalid
  obtain ⟨volume, hvolume⟩ := readVolume_returns hp hvalid
  obtain ⟨price, hprice⟩ := readField_returns hp "entry_price" (by simp)
  exact ⟨_, bind_ok_of_ok (item_eq_ok.mpr hsymbol) (bind_ok_of_ok (item_eq_ok.mpr hside)
    (bind_ok_of_ok hvolume (bind_ok_of_ok hprice rfl)))⟩

theorem createMismatch_returns (type : DiscrepancyType) (hp : Readable unicode p)
    (hvalid : validatePositionDict p) (m : MT5Position) :
    ∃ d, createMismatch unicode accountId type p m = .ok d := by
  obtain ⟨_, side, _, _, hside, _⟩ := fields_of_valid hvalid
  obtain ⟨volume, hvolume⟩ := readVolume_returns hp hvalid
  obtain ⟨price, hprice⟩ := readField_returns hp "entry_price" (by simp)
  exact ⟨_, bind_ok_of_ok hvolume (bind_ok_of_ok (item_eq_ok.mpr hside) (bind_ok_of_ok hprice rfl))⟩

theorem findMatch_returns {symbol side : String} {volume : PyDecimal}
    (hsymbol : p.get? "symbol" = some symbol) (hside : p.get? "side" = some side)
    (hvolume : readVolume unicode p = .ok volume) (hp : Readable unicode p)
    (hvalid : validatePositionDict p)
    (hcompare : ∀ m ∈ ms, SameSymbol p m → SameSide p m → Comparable unicode p m)
    (hsub : ms ⊆ s.mt5Unmatched) :
    ∃ r, findMatch unicode accountId s p symbol side volume ms = .ok r := by
  induction ms with
  | nil => exact ⟨none, rfl⟩
  | cons m ms ih =>
    obtain ⟨hm, hms⟩ := List.cons_subset.mp hsub
    rw [findMatch]
    by_cases hsame : m.symbol = symbol
    · obtain ⟨rest, hrest⟩ := remove_returns hm
      rw [if_pos hsame]
      by_cases hne : m.side ≠ side
      · obtain ⟨d, hd⟩ := createMismatch_returns accountId .sideMismatch hp hvalid m
        rw [if_pos hne]
        exact ⟨_, bind_ok_of_ok hd (bind_ok_of_ok hrest rfl)⟩
      · obtain ⟨volume', agree, hvolume', hagree⟩ := hcompare m List.mem_cons_self
          (hsymbol.trans (congrArg some hsame.symm))
          (hside.trans (congrArg some (not_not.mp hne).symm))
        cases hvolume.symm.trans hvolume'
        rw [if_neg hne]
        cases agree with
        | true => exact ⟨_, bind_ok_of_ok hagree (bind_ok_of_ok hrest rfl)⟩
        | false =>
          obtain ⟨d, hd⟩ := createMismatch_returns accountId .volumeMismatch hp hvalid m
          exact ⟨_, bind_ok_of_ok hagree (bind_ok_of_ok hd (bind_ok_of_ok hrest rfl))⟩
    · rw [if_neg hsame]
      exact ih (fun m' hm' => hcompare m' (List.mem_cons_of_mem m hm')) hms

theorem matchPosition_returns (hp : Readable unicode p) (hvalid : validatePositionDict p)
    (hcompare : ∀ m ∈ s.mt5Unmatched, SameSymbol p m → SameSide p m → Comparable unicode p m) :
    ∃ s', matchPosition unicode accountId s p = .ok s' := by
  obtain ⟨symbol, side, _, hsymbol, hside, _⟩ := fields_of_valid hvalid
  obtain ⟨volume, hvolume⟩ := readVolume_returns hp hvalid
  obtain ⟨r, hr⟩ := findMatch_returns accountId hsymbol hside hvolume hp hvalid hcompare
    (List.Subset.refl _)
  cases r with
  | some s' =>
    exact ⟨s', bind_ok_of_ok (item_eq_ok.mpr hsymbol) (bind_ok_of_ok (item_eq_ok.mpr hside)
      (bind_ok_of_ok hvolume (bind_ok_of_ok hr rfl)))⟩
  | none =>
    obtain ⟨d, hd⟩ := createOrphanDiscrepancy_returns accountId hp hvalid
    exact ⟨_, bind_ok_of_ok (item_eq_ok.mpr hsymbol) (bind_ok_of_ok (item_eq_ok.mpr hside)
      (bind_ok_of_ok hvolume (bind_ok_of_ok hr (bind_ok_of_ok hd rfl))))⟩

variable {accountId}

theorem unmatched_of_turn (h : Turn unicode accountId s p s') : s'.mt5Unmatched ⊆ s.mt5Unmatched := by
  cases h with
  | orphan d hd hnone => exact List.Subset.refl _
  | pair before m after hs => exact fun x hx => mem_of_taken hs hx
  | differ before m after d hs => exact fun x hx => mem_of_taken hs hx

/-- **A run returns** when all numbers can be read and compared. -/
theorem matchPositions_returns {ps : List PositionDict} (hread : ∀ p ∈ ps, Readable unicode p)
    (hcompare : ∀ p ∈ ps, validatePositionDict p → ∀ m ∈ ms, SameSymbol p m → SameSide p m →
      Comparable unicode p m) :
    ∃ r, matchPositions unicode accountId ps ms = .ok r := by
  obtain ⟨ds, hds⟩ : ∃ ds, (ps.filter fun p => !validatePositionDict p).mapM
      (createInvalidDiscrepancy unicode accountId) = .ok ds :=
    mapM_returns fun p hp =>
      createInvalidDiscrepancy_returns accountId (hread p (List.mem_filter.mp hp).1)
  have hstep : ∀ p ∈ ps.filter validatePositionDict, ∀ s : Matching, s.mt5Unmatched ⊆ ms →
      ∃ s', matchPosition unicode accountId s p = .ok s' ∧ s'.mt5Unmatched ⊆ ms := by
    intro p hp s hsub
    obtain ⟨hp, hvalid⟩ := List.mem_filter.mp hp
    obtain ⟨s', hs'⟩ := matchPosition_returns accountId (hread p hp) hvalid
      fun m hm => hcompare p hp hvalid m (hsub hm)
    exact ⟨s', hs', fun m hm => hsub (unmatched_of_turn (turn_of_matchPosition hs') hm)⟩
  obtain ⟨s, hs⟩ := foldlM_returns (fun s : Matching => s.mt5Unmatched ⊆ ms) hstep
    (s := { discrepancies := ds, mt5Unmatched := ms }) (List.Subset.refl ms)
  exact ⟨_, bind_ok_of_ok hds (bind_ok_of_ok hs rfl)⟩

end

/-- **Position matching is a partition.** It returns when the numbers can
be read and compared, and every result has an explanation. -/
theorem matchPositions_partition (unicode : UnicodeData) (accountId : String)
    (ps : List PositionDict) (ms : List MT5Position) :
    ((∀ p ∈ ps, Readable unicode p) →
      (∀ p ∈ ps, validatePositionDict p → ∀ m ∈ ms, SameSymbol p m → SameSide p m →
        Comparable unicode p m) →
      ∃ r, matchPositions unicode accountId ps ms = .ok r) ∧
    ∀ pairs ds, matchPositions unicode accountId ps ms = .ok (pairs, ds) →
      ∃ os, Explanation unicode accountId volumeBound ps ms pairs ds os :=
  ⟨matchPositions_returns, fun _ _ h => explanation_of_run h⟩

/-! ## Runs -/

/-- A position in gold. -/
def goldDict (volume : String) (others : List (String × String)) : PositionDict :=
  .ofWrites (("symbol", "XAUUSD") :: ("side", "BUY") :: ("volume", volume) :: others)

theorem inRange_tenths : ∀ c < 10, (DecimalForm.finite false c (-1)).InRange := by decide

/-- A tenth of a lot. -/
def tenthLot : PyDecimal := ⟨.finite false 1 (-1), inRange_tenths 1 (by decide)⟩

def goldPosition (volume : PyDecimal) : MT5Position :=
  { ticket := 1, symbol := "XAUUSD", side := "BUY", volume, entryPrice := tenthLot
    entryTime := "2026-01-03T10:15:30.000Z", currentPrice := tenthLot, profit := tenthLot
    swap := tenthLot, commission := tenthLot }

theorem inRange_longTenth : (DecimalForm.finite false (101 * 10 ^ 37 + 1) (-40)).InRange := by
  decide

/-- 0.101, and a little more. -/
def longTenth : PyDecimal := ⟨.finite false (101 * 10 ^ 37 + 1) (-40), inRange_longTenth⟩

theorem readVolume_goldDict : readVolume asciiData (goldDict "0.1" []) = .ok tenthLot := rfl

theorem readable_goldDict : Readable asciiData (goldDict "0.1" []) := by
  intro field hfield text htext
  simp only [List.mem_cons, List.not_mem_nil, or_false] at hfield
  rcases hfield with rfl | rfl
  · have hvolume : (goldDict "0.1" []).get? "volume" = some "0.1" := rfl
    cases hvolume.symm.trans htext
    exact ⟨tenthLot, rfl⟩
  · have hprice : (goldDict "0.1" []).get? "entry_price" = none := rfl
    cases hprice.symm.trans htext

theorem comparable_goldDict {m : MT5Position}
    (hm : m ∈ [goldPosition tenthLot, goldPosition longTenth, goldPosition tenthLot]) :
    Comparable asciiData (goldDict "0.1" []) m := by
  have hall : ∀ m ∈ [goldPosition tenthLot, goldPosition longTenth, goldPosition tenthLot],
      volumesAgree m tenthLot = .ok true := by decide +kernel
  exact ⟨tenthLot, true, readVolume_goldDict, hall m hm⟩

/-- Two equal dicts, and three positions in MT5, two of them equal. -/
theorem matchPositions_partition_twins :
    (∃ r, matchPositions asciiData "ftmo-gold-001" [goldDict "0.1" [], goldDict "0.1" []]
      [goldPosition tenthLot, goldPosition longTenth, goldPosition tenthLot] = .ok r) ∧
    ∃ os, Explanation asciiData "ftmo-gold-001" volumeBound [goldDict "0.1" [], goldDict "0.1" []]
      [goldPosition tenthLot, goldPosition longTenth, goldPosition tenthLot]
      [(goldDict "0.1" [], goldPosition tenthLot), (goldDict "0.1" [], goldPosition longTenth)]
      [createUnknownDiscrepancy "ftmo-gold-001" (goldPosition tenthLot)] os := by
  obtain ⟨hreturns, hexplains⟩ := matchPositions_partition asciiData "ftmo-gold-001"
    [goldDict "0.1" [], goldDict "0.1" []]
    [goldPosition tenthLot, goldPosition longTenth, goldPosition tenthLot]
  refine ⟨hreturns (by simp [readable_goldDict]) ?_, hexplains _ _ (by decide +kernel)⟩
  intro p hp _ m hm _ _
  have hp' : p = goldDict "0.1" [] := by simpa using hp
  exact hp' ▸ comparable_goldDict hm

/-- **Volumes that parse are not enough.** An entry price that is no number
raises, and so does a volume that is NaN; and a pair is matched whose
volumes differ by more than the tolerance. -/
theorem price_nan_and_rounding :
    (readVolume asciiData (goldDict "0.1" [("entry_price", "abc")]) = .ok tenthLot ∧
      matchPositions asciiData "ftmo-gold-001" [goldDict "0.1" [("entry_price", "abc")]] [] =
        .error (.decimal .invalidOperation)) ∧
    ((∃ nan, readVolume asciiData (goldDict "NaN" []) = .ok nan) ∧
      matchPositions asciiData "ftmo-gold-001" [goldDict "NaN" []] [goldPosition tenthLot] =
        .error (.decimal .invalidOperation)) ∧
    matchPositions asciiData "ftmo-gold-001" [goldDict "0.1" []] [goldPosition longTenth] =
        .ok ([(goldDict "0.1" [], goldPosition longTenth)], []) ∧
      ¬VolumesWithin asciiData (1 / 1000) (goldDict "0.1" []) (goldPosition longTenth) := by
  refine ⟨⟨by decide +kernel, by decide +kernel⟩, ⟨?_, by decide +kernel⟩, by decide +kernel, ?_⟩
  · cases h : readVolume asciiData (goldDict "NaN" []) with
    | ok nan => exact ⟨nan, rfl⟩
    | error e =>
      have hok : (readVolume asciiData (goldDict "NaN" [])).isOk := by decide +kernel
      rw [h] at hok
      cases hok
  · rintro ⟨volume, hvolume, x, y, hx, hy, hle⟩
    cases hvolume.symm.trans readVolume_goldDict
    cases hx
    cases hy
    norm_num [abs_le] at hle

end TdSandboxed.PositionMatching
