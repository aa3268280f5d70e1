/-
TdSandboxed.TvApi.SessionFeedTheorems — what reaches a session
(`pkg/tradingview/client.go`, `internal/session/manager.go`,
`internal/session/chart.go`).

A session gets the packets of a message that carry its id, in their order,
whatever the order of the map of groups is (`deliver_demux`): the groups
have different keys, so the batch of one session finds every other session
as it was.

A chart is then a fold over its own bars. `get?_store` says what a key of
`periods` holds: the last bar of that time. Times are the keys, so there is
one way to sort the periods (`getPeriods_unique`).
-/
import Mathlib
import TdSandboxed.Lib.Assoc
import TdSandboxed.TvApi.FetchTheorems
import TdSandboxed.TvApi.QuoteTheorems

namespace TdSandboxed.TvApi

open Lib WireCodec

variable {lib : GoLib}

/-! ## Groups -/

/-- The packets of a message for one session. -/
def ownPackets (lib : GoLib) (id : List Char) (vs : List Visited) : List Visited :=
  vs.filter fun v => (route lib v.packet).target = some id

/-- A session and what a message has for it. -/
def FeedSession.take (lib : GoLib) (s : FeedSession) (own : List Visited) : FeedSession :=
  if own = [] then s else (s.routeBatch lib own).1

/-- A batch that this session returns an error for; a chart and a replay
session have none to return. -/
def FeedSession.Raises (s : FeedSession) (own : List Visited) : Prop :=
  match s with
  | .chart _ | .replay _ => False
  | .quote _ => ∃ v ∈ own, Refused v.packet = true

namespace FeedSession

instance (s : FeedSession) (own : List Visited) : Decidable (s.Raises own) :=
  match s with
  | .chart _ | .replay _ => inferInstanceAs (Decidable False)
  | .quote _ => inferInstanceAs (Decidable (∃ v ∈ own, _))

theorem routeBatch_snd (s : FeedSession) (own : List Visited) :
    (s.routeBatch lib own).2 = true ↔ ¬s.Raises own := by
  cases s with
  | chart cs => simp [routeBatch, Raises]
  | quote qs => simp [routeBatch, Raises, QuoteSession.onPackets_eq]
  | replay rs => simp [routeBatch, Raises]

/-- A session stays of its kind. -/
theorem raises_take (s : FeedSession) (own own' : List Visited) :
    (s.take lib own).Raises own' ↔ s.Raises own' := by
  unfold take
  split
  · rfl
  · cases s <;> rfl

theorem raises_foldl_take (owns : List (List Visited)) (s : FeedSession) (own : List Visited) :
    (owns.foldl (take lib) s).Raises own ↔ s.Raises own := by
  induction owns generalizing s with
  | nil => rfl
  | cons own' owns ih => rw [List.foldl_cons, ih, raises_take]

end FeedSession

namespace FeedClient

variable {c c' : FeedClient} {vs : List Visited} {batches : List (List Char × List Visited)}
  {id : List Char}

theorem groups_concat (lib : GoLib) (vs : List Visited) (v : Visited) :
    groups lib (vs ++ [v]) =
      match (route lib v.packet).target with
      | some id => (groups lib vs).set id (((groups lib vs).get? id).getD [] ++ [v])
      | none => groups lib vs := by
  rw [groups, List.foldl_append]
  rfl

/-- **A group is what the message has for a session.** -/
theorem get?_groups (lib : GoLib) (vs : List Visited) (id : List Char) :
    (groups lib vs).get? id =
      if ownPackets lib id vs = [] then none else some (ownPackets lib id vs) := by
  induction vs using List.reverseRecOn with
  | nil => rfl
  | append_singleton vs v ih =>
    have hown : ownPackets lib id (vs ++ [v]) = ownPackets lib id vs ++
        if (route lib v.packet).target = some id then [v] else [] := by
      simp [ownPackets, List.filter_append, List.filter_cons]
    rw [groups_concat, hown]
    cases htarget : (route lib v.packet).target with
    | none => simpa using ih
    | some target =>
      dsimp only
      rw [OrderedDict.get?_set]
      by_cases hid : id = target
      · subst hid
        rw [if_pos rfl, if_pos rfl, ih]
        by_cases hnil : ownPackets lib id vs = []
        · simp [hnil]
        · simp [hnil]
      · have hne : ¬some target = some id := by simpa using Ne.symm hid
        rw [if_neg hid, if_neg hne, List.append_nil, ih]

/-- Every packet that is for a session is in one group, once. -/
theorem perm_groups (lib : GoLib) (vs : List Visited) :
    ((groups lib vs).items.flatMap Prod.snd).Perm
      (vs.filter fun v => (route lib v.packet).target ≠ none) := by
  induction vs using List.reverseRecOn with
  | nil => exact .refl _
  | append_singleton vs v ih =>
    rw [groups_concat, List.filter_append]
    cases htarget : (route lib v.packet).target with
    | none => simpa [htarget] using ih
    | some id =>
      have hone : [v].filter (fun v => (route lib v.packet).target ≠ none) = [v] := by
        simp [htarget]
      rw [hone]
      exact (perm_flatMap_setItem (groups lib vs).items id [v]).trans (ih.append_right [v])

/-! ## One message -/

theorem get?_routeBatch (c : FeedClient) (b : List Char × List Visited) (id : List Char) :
    (c.routeBatch lib b).sessions.get? id = (c.sessions.get? id).map fun s =>
      if id = b.1 then (s.routeBatch lib b.2).1 else s := by
  unfold routeBatch
  cases hs : c.sessions.get? b.1 with
  | none =>
    by_cases hid : id = b.1
    · simp [hid, hs]
    · simp [hid]
  | some s =>
    dsimp only
    rw [OrderedDict.get?_set]
    by_cases hid : id = b.1
    · simp [hid, hs]
    · simp [hid]

theorem get?_deliver (c : FeedClient) (h : batches.Perm (groups lib vs).items) (id : List Char) :
    (c.deliver lib vs batches).sessions.get? id = (c.sessions.get? id).map fun s =>
      s.take lib (ownPackets lib id vs) := by
  have hnodup : (batches.map Prod.fst).Nodup := (h.map Prod.fst).nodup_iff.mpr (groups lib vs).nodup
  rw [deliver, get_foldl_of_nodup (fun c : FeedClient => c.sessions.get?)
    (fun batch s => (s.routeBatch lib batch).1) get?_routeBatch hnodup,
    lookup_eq_of_perm hnodup h, ← OrderedDict.get?, get?_groups]
  congr 1
  funext s
  unfold FeedSession.take
  split <;> rfl

/-! ## Events -/

/-- The packets of a group that become events: its session is unknown, or it
raises. -/
def unclaimed (lib : GoLib) (c : FeedClient) (b : List Char × List Visited) : List Visited :=
  match c.sessions.get? b.1 with
  | some s => if (s.routeBatch lib b.2).2 then [] else b.2
  | none => b.2

theorem effects_routeBatch (c : FeedClient) (b : List Char × List Visited) :
    (c.routeBatch lib b).effects = c.effects ++ events (unclaimed lib c b) := by
  unfold routeBatch unclaimed
  cases c.sessions.get? b.1 with
  | none => rfl
  | some s =>
    dsimp only
    split <;> rfl

theorem effects_foldl_routeBatch (batches : List (List Char × List Visited))
    (hnodup : (batches.map Prod.fst).Nodup) (c : FeedClient) :
    (batches.foldl (routeBatch lib) c).effects =
      c.effects ++ events (batches.flatMap (unclaimed lib c)) := by
  induction batches generalizing c with
  | nil => simp [events]
  | cons b batches ih =>
    obtain ⟨hfresh, hnodup⟩ := List.nodup_cons.mp hnodup
    have hlater : ∀ b' ∈ batches, unclaimed lib (c.routeBatch lib b) b' = unclaimed lib c b' := by
      intro b' hb'
      have hne : b'.1 ≠ b.1 := fun heq => hfresh (heq ▸ List.mem_map_of_mem hb')
      have hsame : (c.routeBatch lib b).sessions.get? b'.1 = c.sessions.get? b'.1 := by
        simp [get?_routeBatch, hne]
      unfold unclaimed
      rw [hsame]
    rw [List.foldl_cons, ih hnodup, effects_routeBatch, List.flatMap_cons, List.append_assoc,
      List.flatMap_congr hlater]
    simp [events]

theorem effects_deliver (c : FeedClient) (h : batches.Perm (groups lib vs).items) :
    (c.deliver lib vs batches).effects =
      c.effects ++ (vs.flatMap fun v => (route lib v.packet).effects) ++
        events (batches.flatMap (unclaimed lib c)) := by
  have hnodup : (batches.map Prod.fst).Nodup := (h.map Prod.fst).nodup_iff.mpr (groups lib vs).nodup
  rw [deliver, effects_foldl_routeBatch batches hnodup]
  rfl

/-- A packet that becomes an event: its session is unknown, or returns an
error for the packets it is sent with. -/
def Lost (lib : GoLib) (c : FeedClient) (vs : List Visited) (v : Visited) : Prop :=
  ∃ id ∈ (route lib v.packet).target,
    ∀ s ∈ c.sessions.get? id, s.Raises (ownPackets lib id vs)

instance (lib : GoLib) (c : FeedClient) (vs : List Visited) (v : Visited) :
    Decidable (Lost lib c vs v) :=
  inferInstanceAs (Decidable (∃ id ∈ (route lib v.packet).target, ∀ s ∈ c.sessions.get? id, _))

theorem unclaimed_eq (c : FeedClient) {b : List Char × List Visited}
    (hb : b ∈ (groups lib vs).items) : unclaimed lib c b = b.2.filter (Lost lib c vs) := by
  have hgroup : (groups lib vs).get? b.1 = some b.2 := lookup_of_mem (groups lib vs).nodup hb
  have hown : b.2 = ownPackets lib b.1 vs := by
    rw [get?_groups] at hgroup
    split at hgroup
    · cases hgroup
    · exact (Option.some.inj hgroup).symm
  have hlost : ∀ v ∈ b.2, Lost lib c vs v ↔ ∀ s ∈ c.sessions.get? b.1, s.Raises b.2 := by
    intro v hv
    rw [hown, ownPackets, List.mem_filter] at hv
    rw [Lost, of_decide_eq_true hv.2, hown]
    simp
  unfold unclaimed
  cases hs : c.sessions.get? b.1 with
  | none =>
    rw [List.filter_eq_self.mpr fun v hv => decide_eq_true ((hlost v hv).mpr (by simp [hs]))]
  | some s =>
    dsimp only
    by_cases hraises : s.Raises b.2
    · rw [if_neg fun hok => (FeedSession.routeBatch_snd s b.2).mp hok hraises,
        List.filter_eq_self.mpr fun v hv =>
          decide_eq_true ((hlost v hv).mpr (by simpa [hs] using hraises))]
    · rw [if_pos ((FeedSession.routeBatch_snd s b.2).mpr hraises),
        List.filter_eq_nil_iff.mpr fun v hv hv' =>
          hraises ((hlost v hv).mp (of_decide_eq_true hv') s hs)]

theorem perm_unclaimed (c : FeedClient) (h : batches.Perm (groups lib vs).items) :
    (batches.flatMap (unclaimed lib c)).Perm (vs.filter (Lost lib c vs)) := by
  have hfilter : (groups lib vs).items.flatMap (unclaimed lib c) =
      ((groups lib vs).items.flatMap Prod.snd).filter (Lost lib c vs) := by
    rw [List.flatMap_congr fun b hb => unclaimed_eq c hb, List.filter_flatMap]
  have hsome : (vs.filter fun v => (route lib v.packet).target ≠ none).filter (Lost lib c vs) =
      vs.filter (Lost lib c vs) := by
    rw [List.filter_filter]
    refine List.filter_congr fun v _ => ?_
    by_cases hlost : Lost lib c vs v
    · obtain ⟨id, hid, -⟩ := id hlost
      simp [hlost, Option.mem_def.mp hid]
    · simp [hlost]
  refine (h.flatMap_right _).trans ?_
  rw [hfilter, ← hsome]
  exact (perm_groups lib vs).filter _

/-! ## A stream of messages -/

/-- A client through a stream of messages, the groups of each in some order. -/
inductive Feeds (lib : GoLib) (c : FeedClient) : List (List Visited) → FeedClient → Prop
  | nil : Feeds lib c [] c
  | snoc {vss : List (List Visited)} {c' : FeedClient} {vs : List Visited}
      {batches : List (List Char × List Visited)} (h : Feeds lib c vss c')
      (order : batches.Perm (groups lib vs).items) :
      Feeds lib c (vss ++ [vs]) (c'.deliver lib vs batches)

variable {vss : List (List Visited)}

theorem get?_feeds (h : Feeds lib c vss c') (id : List Char) :
    c'.sessions.get? id = (c.sessions.get? id).map fun s =>
      (vss.map (ownPackets lib id)).foldl (FeedSession.take lib) s := by
  induction h with
  | nil => simp
  | snoc h order ih =>
    rw [get?_deliver _ order, ih, Option.map_map]
    simp [Function.comp_def]

theorem lost_feeds (h : Feeds lib c vss c') (vs : List Visited) (v : Visited) :
    Lost lib c' vs v ↔ Lost lib c vs v := by
  unfold Lost
  simp only [get?_feeds h, Option.mem_def, Option.map_eq_some_iff, forall_exists_index, and_imp,
    forall_apply_eq_imp_iff₂, FeedSession.raises_foldl_take]

/-- **Events.** What the client emits through a stream of messages. -/
theorem effects_feeds (h : Feeds lib c vss c') :
    c'.effects.Perm (c.effects ++ (vss.flatten.flatMap fun v => (route lib v.packet).effects) ++
      events (vss.flatMap fun vs => vs.filter (Lost lib c vs))) := by
  induction h with
  | nil => simp [events]
  | @snoc vss c' vs batches h order ih =>
    have hlost : (batches.flatMap (unclaimed lib c')).Perm (vs.filter (Lost lib c vs)) := by
      simpa only [lost_feeds h] using perm_unclaimed c' order
    rw [effects_deliver c' order, List.flatten_append, List.flatMap_append, List.flatten_singleton,
      List.flatMap_append, List.flatMap_singleton]
    set own := vs.flatMap fun v => (route lib v.packet).effects
    refine ((ih.append_right own).append (hlost.map _)).trans ?_
    simp only [events, List.map_append, List.append_assoc]
    refine .append_left _ (.append_left _ ?_)
    rw [← List.append_assoc, ← List.append_assoc]
    exact .append_right _ List.perm_append_comm

end FeedClient

/-! ## The periods of a chart -/

theorem WireCodec.Packet.Is.is_unique {p : Packet} {type type' : String} (h : p.Is type)
    (h' : p.Is type') : type = type' := String.toList_inj.mp (h.symm.trans h')

/-- The periods that a batch stores. -/
def batchPeriods (lib : GoLib) (batch : List Visited) : List Period :=
  batch.flatMap fun v =>
    if v.packet.Is "du" ∨ v.packet.Is "timescale_update" then v.periods lib
    else []

/-- A batch with a `timescale_update`. -/
def Closes (batch : List Visited) : Prop :=
  ∃ v ∈ batch, v.packet.Is "timescale_update"

instance (batch : List Visited) : Decidable (Closes batch) :=
  inferInstanceAs (Decidable (∃ v ∈ batch, _))

namespace ChartSession

variable {cs : ChartSession} {batch : List Visited}

/-- A session and what a message has for it. -/
def take (lib : GoLib) (cs : ChartSession) (own : List Visited) : ChartSession :=
  if own = [] then cs else cs.onDataBatch lib own

/-- The periods that listeners were given. -/
def updates (cs : ChartSession) : List (List Period) :=
  cs.emitted.filterMap fun e => match e with
    | .update ps => some ps
    | .symbolLoaded _ | .error _ => none

theorem fail_eq (cs : ChartSession) (text : String) :
    (cs.fail text).periods = cs.periods ∧ (cs.fail text).updates = cs.updates := by
  unfold fail
  dsimp only
  split <;> simp [emit, updates]

/-- One packet stores its periods and emits no update. -/
theorem handle_eq (lib : GoLib) (cs : ChartSession) (v : Visited) :
    (cs.handle lib v).periods =
        (batchPeriods lib [v]).foldl (fun d p => d.set p.time p) cs.periods ∧
      (cs.handle lib v).updates = cs.updates := by
  have hquiet : ¬(v.packet.Is "du" ∨ v.packet.Is "timescale_update") →
      batchPeriods lib [v] = [] := by
    intro h
    simp [batchPeriods, h]
  unfold handle
  split
  · rename_i htype
    have hother : ∀ type, v.packet.Is type → "symbol_resolved" = type :=
      fun type h => htype.is_unique h
    rw [hquiet (fun h => h.elim (fun h => absurd (hother _ h) (by decide))
      (fun h => absurd (hother _ h) (by decide)))]
    split
    · simp [emit, updates]
    · exact ⟨rfl, rfl⟩
  split
  · rename_i htype
    simp [batchPeriods, htype, store, updates]
  rename_i hdata
  rw [hquiet hdata]
  split
  · exact fail_eq _ _
  split
  · exact fail_eq _ _
  split
  · exact fail_eq _ _
  · exact ⟨rfl, rfl⟩

theorem foldl_handle_eq (lib : GoLib) (cs : ChartSession) (batch : List Visited) :
    (batch.foldl (handle lib) cs).periods =
        (batchPeriods lib batch).foldl (fun d p => d.set p.time p) cs.periods ∧
      (batch.foldl (handle lib) cs).updates = cs.updates := by
  induction batch generalizing cs with
  | nil => exact ⟨rfl, rfl⟩
  | cons v batch ih =>
    obtain ⟨hperiods, hupdates⟩ := handle_eq lib cs v
    obtain ⟨hrest, hquiet⟩ := ih (cs.handle lib v)
    have hsplit : batchPeriods lib (v :: batch) =
        batchPeriods lib [v] ++ batchPeriods lib batch := by
      simp [batchPeriods]
    rw [List.foldl_cons, hrest, hquiet, hperiods, hupdates, hsplit, List.foldl_append]
    exact ⟨rfl, rfl⟩

/-- **One batch.** -/
theorem take_eq (lib : GoLib) (cs : ChartSession) (batch : List Visited) :
    (cs.take lib batch).periods =
        (batchPeriods lib batch).foldl (fun d p => d.set p.time p) cs.periods ∧
      (cs.take lib batch).updates = cs.updates ++
        if Closes batch then [getPeriods (cs.take lib batch).periods] else [] := by
  by_cases hnil : batch = []
  · subst hnil
    exact ⟨rfl, by simp [take, Closes]⟩
  · obtain ⟨hperiods, hupdates⟩ := foldl_handle_eq lib cs batch
    have hany : (batch.any fun v => v.packet.Is "timescale_update") = true ↔ Closes batch := by
      simp [Closes]
    rw [take, if_neg hnil, onDataBatch]
    by_cases hcloses : Closes batch
    · rw [if_pos (hany.mpr hcloses), if_pos hcloses, ← hupdates]
      exact ⟨hperiods, by simp [emit, updates]⟩
    · rw [if_neg (mt hany.mp hcloses), if_neg hcloses, List.append_nil]
      exact ⟨hperiods, hupdates⟩

/-- What a key holds: the last period of that time. -/
theorem get?_store (ps : List Period) (d : OrderedDict ℤ Period) (ts : ℤ) :
    (ps.foldl (fun d p => d.set p.time p) d).get? ts =
      ((ps.filter fun p => p.time = ts).getLast?).or (d.get? ts) := by
  simpa using OrderedDict.get?_foldl_set Period.time id ps d ts

/-- Each period stands under its own time. -/
def Coherent (d : OrderedDict ℤ Period) : Prop := ∀ ts p, d.get? ts = some p → p.time = ts

theorem coherent_store {d : OrderedDict ℤ Period} (h : Coherent d) (ps : List Period) :
    Coherent (ps.foldl (fun d p => d.set p.time p) d) := by
  intro ts p hp
  rw [get?_store] at hp
  cases hlast : (ps.filter fun p => p.time = ts).getLast? with
  | none =>
    rw [hlast] at hp
    exact h ts p hp
  | some q =>
    rw [hlast] at hp
    obtain rfl : q = p := Option.some.inj hp
    exact of_decide_eq_true (List.mem_filter.mp (List.mem_of_getLast? hlast)).2

theorem times_eq_keys {d : OrderedDict ℤ Period} (h : Coherent d) :
    d.values.map Period.time = d.keys := by
  rw [OrderedDict.values, OrderedDict.keys, List.map_map]
  refine List.map_congr_left fun p hp => h p.1 p.2 ?_
  exact lookup_of_mem d.nodup hp

theorem perm_getPeriods (d : OrderedDict ℤ Period) : (getPeriods d).Perm d.values :=
  List.mergeSort_perm _ _

/-- The newest period first, no two of one time. -/
theorem getPeriods_pairwise {d : OrderedDict ℤ Period} (h : Coherent d) :
    (getPeriods d).Pairwise fun p q => q.time < p.time := by
  have hsorted : (getPeriods d).Pairwise fun p q => decide (q.time ≤ p.time) = true := by
    refine List.pairwise_mergeSort ?_ ?_ d.values
    · intro p q r hpq hqr
      exact decide_eq_true ((of_decide_eq_true hqr).trans (of_decide_eq_true hpq))
    · intro p q
      simpa using le_total q.time p.time
  have hdistinct : ((getPeriods d).map Period.time).Nodup := by
    rw [((perm_getPeriods d).map Period.time).nodup_iff, times_eq_keys h]
    exact d.nodup
  refine (hsorted.and (List.pairwise_map.mp hdistinct)).imp fun hpq => ?_
  exact lt_of_le_of_ne (of_decide_eq_true hpq.1) (Ne.symm hpq.2)

/-- **One way to sort.** However the map is ranged over, a sort by time
gives the same list. -/
theorem getPeriods_unique {d : OrderedDict ℤ Period} (h : Coherent d) {ps : List Period}
    (hperm : ps.Perm d.values) (hsorted : ps.Pairwise fun p q => ¬p.time < q.time) :
    ps = getPeriods d := by
  have hdistinct : (ps.map Period.time).Nodup := by
    rw [(hperm.map Period.time).nodup_iff, times_eq_keys h]
    exact d.nodup
  have hstrict : ps.Pairwise fun p q => q.time < p.time :=
    (hsorted.and (List.pairwise_map.mp hdistinct)).imp fun hpq =>
      lt_of_le_of_ne (not_lt.mp hpq.1) (Ne.symm hpq.2)
  refine List.Perm.eq_of_pairwise ?_ hstrict (getPeriods_pairwise h)
    (hperm.trans (perm_getPeriods d).symm)
  intro p q _ _ hpq hqp
  exact absurd hpq (lt_asymm hqp)

/-! ## A chart in a stream -/

/-- The periods that a chart knows after its batches. -/
def known (lib : GoLib) (d : OrderedDict ℤ Period) (owns : List (List Visited)) :
    OrderedDict ℤ Period :=
  (owns.flatMap (batchPeriods lib)).foldl (fun d p => d.set p.time p) d

theorem foldl_take_eq (lib : GoLib) (cs : ChartSession) (owns : List (List Visited)) :
    (owns.foldl (take lib) cs).periods = known lib cs.periods owns ∧
      (owns.foldl (take lib) cs).updates = cs.updates ++
        (owns.inits.filter fun pre => ∃ own ∈ pre.getLast?, Closes own).map
          (fun pre => getPeriods (known lib cs.periods pre)) := by
  induction owns using List.reverseRecOn with
  | nil => exact ⟨rfl, by simp⟩
  | append_singleton owns own ih =>
    obtain ⟨hperiods, hupdates⟩ := ih
    obtain ⟨hnext, hemits⟩ := take_eq lib (owns.foldl (take lib) cs) own
    have hknown : ((owns ++ [own]).foldl (take lib) cs).periods =
        known lib cs.periods (owns ++ [own]) := by
      rw [List.foldl_append, List.foldl_cons, List.foldl_nil, hnext, hperiods]
      simp [known, List.flatMap_append]
    refine ⟨hknown, ?_⟩
    rw [List.foldl_append, List.foldl_cons, List.foldl_nil] at hknown ⊢
    rw [hemits, hupdates, hknown, List.append_assoc]
    congr 1
    have hinits : (owns ++ [own]).inits = owns.inits ++ [owns ++ [own]] := by
      simp [List.inits_append]
    rw [hinits, List.filter_append, List.map_append]
    congr 1
    by_cases hcloses : Closes own
    · simp [hcloses]
    · simp [hcloses]

end ChartSession

theorem FeedSession.foldl_take_chart (lib : GoLib) (owns : List (List Visited))
    (cs : ChartSession) :
    owns.foldl (FeedSession.take lib) (.chart cs) =
      .chart (owns.foldl (ChartSession.take lib) cs) := by
  induction owns generalizing cs with
  | nil => rfl
  | cons own owns ih =>
    have hone : FeedSession.take lib (.chart cs) own = .chart (cs.take lib own) := by
      unfold FeedSession.take ChartSession.take
      split <;> rfl
    rw [List.foldl_cons, List.foldl_cons, hone, ih]

/-! ## The acknowledgement of a replay -/

/-- What the goroutine of `handleReplayOK` does when nothing comes in
between: it takes the entry out, and closes the channel if there was one. -/
theorem ReplaySession.handleReplayOK_eq_task (rs : ReplaySession) {p : Packet} {reqId : String}
    (h : ReplaySession.ackedId p.items = some reqId) (i : ℕ) :
    ∃ s t, ReplaySession.task rs.acks i (.looking reqId) .proceed = some (s, t) ∧
      (t = .finished ∧ s = (rs.handleReplayOK p).acks ∨
        ReplaySession.task s i t .proceed = some ((rs.handleReplayOK p).acks, .finished)) := by
  unfold handleReplayOK
  simp only [h, ReplaySession.task]
  cases rs.acks.pendingAcks.get? reqId with
  | none => exact ⟨_, _, rfl, .inl ⟨rfl, rfl⟩⟩
  | some ch => exact ⟨_, _, rfl, .inr rfl⟩

/-! ## Two messages -/

/-- Conversions as Go makes them in range. -/
def goLib : GoLib where
  int64 x := (if x.negative then -1 else 1) * ⌊x.magnitude⌋
  float64 n := (Float64.ofRat (n < 0) n.natAbs (Nat.cast_nonneg _)).getD Float64.zero
  print _ := ""

def goFloat (n : ℤ) : GoValue := .number (goLib.float64 n)

/-- A bar at one price. -/
def flatBar (time price : ℤ) : Period where
  time := time
  openPrice := goLib.float64 price
  close := goLib.float64 price
  high := goLib.float64 price
  low := goLib.float64 price
  volume := goLib.float64 price

def barItem (time price : ℤ) : GoValue :=
  .object [(['v'], .array [goFloat time, goFloat price, goFloat price, goFloat price,
    goFloat price, goFloat price])]

def barPacket (type : String) (bars : List GoValue) : Packet where
  type := type.toList
  data := some [.string ['c'], .object [("$prices".toList, .object [(['s'], .array bars)])]]

/-- A packet whose object is ranged over as it is written. -/
def Visited.ofPacket (p : Packet) : Visited where
  packet := p
  order := p.object.getD []
  perm ms h := by
    rw [h]
    exact .refl _

def pingSeven : Packet := { type := "ping".toList, data := some [goFloat 7] }

/-- A packet of a session that is not there. -/
def strayPacket : Packet := { type := "du".toList, data := some [.string ['x']] }

/-- Two bars, and the point of a replay. -/
def firstMessage : List Visited :=
  [pingSeven, barPacket "timescale_update" [barItem 120 2, barItem 60 1],
   { type := "replay_point".toList, data := some [.string ['r'], goFloat 120] },
   strayPacket].map .ofPacket

/-- The second bar once more, and a third. -/
def secondMessage : List Visited :=
  [barPacket "du" [barItem 120 3], barPacket "timescale_update" [barItem 180 4]].map .ofPacket

def chartAndReplay : FeedClient where
  sessions := (OrderedDict.empty.set ['c'] (.chart {})).set ['r'] (.replay {})

/-- The client after these messages, its groups in the order of their first
packets. -/
def afterMessages : FeedClient :=
  (chartAndReplay.deliver goLib firstMessage (FeedClient.groups goLib firstMessage).items).deliver
    goLib secondMessage (FeedClient.groups goLib secondMessage).items

namespace FeedClient

variable {c c' : FeedClient} {vss : List (List Visited)} {id : List Char}

/-! ## Results -/

theorem feeds_afterMessages :
    Feeds goLib chartAndReplay [firstMessage, secondMessage] afterMessages :=
  .snoc (.snoc .nil (.refl _)) (.refl _)

/-- **Each session gets its own packets.** Through a stream of messages, and
whatever the order of the groups, a session takes in what every message has
for it, message by message. The client emits its own answers, and each
packet once whose session is unknown or returned an error for the packets
of that message. -/
theorem stream_demux (h : Feeds lib c vss c') :
    (∀ id, c'.sessions.get? id = (c.sessions.get? id).map fun s =>
      (vss.map (ownPackets lib id)).foldl (FeedSession.take lib) s) ∧
    c'.effects.Perm (c.effects ++ (vss.flatten.flatMap fun v => (route lib v.packet).effects) ++
      events (vss.flatMap fun vs => vs.filter (Lost lib c vs))) :=
  ⟨get?_feeds h, effects_feeds h⟩

theorem route_pingSeven : (route goLib pingSeven).effects = [.pong 7] := by
  have hseven : goLib.int64 (goLib.float64 7) = 7 := by decide +kernel
  simp [route, pingSeven, Packet.Is, Packet.items, goFloat, Route.effects, hseven]

theorem stream_demux_afterMessages :
    (∃ rs, afterMessages.sessions.get? ['r'] = some (.replay rs) ∧ rs.emitted = [.point 120]) ∧
    afterMessages.effects.Perm [.pong 7, .event strayPacket.type strayPacket.items] := by
  obtain ⟨hsessions, heffects⟩ := stream_demux feeds_afterMessages
  refine ⟨⟨_, hsessions ['r'], by decide +kernel⟩, ?_⟩
  have hown : [firstMessage, secondMessage].flatten.flatMap (fun v => (route goLib v.packet).effects)
      = [.pong 7] := by
    have hrest : (firstMessage.tail ++ secondMessage).flatMap
        (fun v => (route goLib v.packet).effects) = [] := by decide +kernel
    have hhead : [firstMessage, secondMessage].flatten =
        .ofPacket pingSeven :: (firstMessage.tail ++ secondMessage) := rfl
    rw [hhead, List.flatMap_cons, hrest, List.append_nil]
    exact route_pingSeven
  have hfirst : firstMessage.filter (Lost goLib chartAndReplay firstMessage) =
      [.ofPacket strayPacket] := by
    have hsplit : firstMessage = firstMessage.dropLast ++ [.ofPacket strayPacket] := rfl
    have hkept : firstMessage.dropLast.filter (Lost goLib chartAndReplay firstMessage) = [] :=
      List.filter_eq_nil_iff.mpr (by decide +kernel)
    have hlost : Lost goLib chartAndReplay firstMessage (.ofPacket strayPacket) := by
      decide +kernel
    refine (congrArg (List.filter _) hsplit).trans ?_
    rw [List.filter_append, hkept, List.filter_singleton, decide_eq_true hlost]
    rfl
  have hsecond : secondMessage.filter (Lost goLib chartAndReplay secondMessage) = [] :=
    List.filter_eq_nil_iff.mpr (by decide +kernel)
  have hstray : [firstMessage, secondMessage].flatMap (fun vs =>
      vs.filter (Lost goLib chartAndReplay vs)) = [.ofPacket strayPacket] := by
    rw [List.flatMap_cons, List.flatMap_singleton, hfirst, hsecond, List.append_nil]
  rw [hown, hstray] at heffects
  exact heffects

/-- **A chart follows its bars.** After a stream of messages the chart holds
for each time the last bar it was sent, and it has emitted one update for
each message with a `timescale_update` for it: all periods known by then,
in the one order that sorts them. -/
theorem chart_follows_bars (h : Feeds lib c vss c') {cs : ChartSession}
    (hchart : c.sessions.get? id = some (.chart cs)) (hperiods : ChartSession.Coherent cs.periods) :
    ∃ cs', c'.sessions.get? id = some (.chart cs') ∧
      (∀ ts, cs'.periods.get? ts =
        ((((vss.map (ownPackets lib id)).flatMap (batchPeriods lib)).filter fun p =>
          p.time = ts).getLast?).or (cs.periods.get? ts)) ∧
      cs'.updates = cs.updates ++
        (((vss.map (ownPackets lib id)).inits.filter fun pre =>
          ∃ own ∈ pre.getLast?, Closes own).map fun pre =>
            ChartSession.getPeriods (ChartSession.known lib cs.periods pre)) ∧
      ∀ pre ∈ (vss.map (ownPackets lib id)).inits, ∀ ps : List Period,
        ps.Perm (ChartSession.known lib cs.periods pre).values →
        ps.Pairwise (fun p q => ¬p.time < q.time) →
        ps = ChartSession.getPeriods (ChartSession.known lib cs.periods pre) ∧
          ps.Pairwise fun p q => q.time < p.time := by
  have hsession := get?_feeds h id
  rw [hchart, Option.map_some, FeedSession.foldl_take_chart] at hsession
  obtain ⟨hknown, hupdates⟩ := ChartSession.foldl_take_eq lib cs (vss.map (ownPackets lib id))
  refine ⟨_, hsession, fun ts => ?_, hupdates, fun pre _ ps hperm hsorted => ?_⟩
  · rw [hknown, ChartSession.known, ChartSession.get?_store]
  · have hcoherent : ChartSession.Coherent (ChartSession.known lib cs.periods pre) :=
      ChartSession.coherent_store hperiods _
    obtain rfl := ChartSession.getPeriods_unique hcoherent hperm hsorted
    exact ⟨rfl, ChartSession.getPeriods_pairwise hcoherent⟩

theorem chart_follows_bars_afterMessages :
    ∃ cs, afterMessages.sessions.get? ['c'] = some (.chart cs) ∧
      cs.updates = [[flatBar 120 2, flatBar 60 1], [flatBar 180 4, flatBar 120 3, flatBar 60 1]] := by
  have hchart : chartAndReplay.sessions.get? ['c'] = some (.chart {}) := rfl
  have hperiods : ChartSession.Coherent .empty := by
    intro ts p h
    cases h
  obtain ⟨cs, hcs, -, hupdates, hsorts⟩ := chart_follows_bars feeds_afterMessages hchart hperiods
  refine ⟨cs, hcs, hupdates.trans ?_⟩
  set first := ownPackets goLib ['c'] firstMessage with hfirst
  set second := ownPackets goLib ['c'] secondMessage with hsecond
  have hpres : ([first, second].inits.filter fun pre => ∃ own ∈ pre.getLast?, Closes own) =
      [[first], [first, second]] := by
    have hcloses : Closes first ∧ Closes second := by decide +kernel
    simp [List.inits, hcloses]
  obtain ⟨hone, -⟩ := hsorts [first] (by simp [List.inits, hfirst]) [flatBar 120 2, flatBar 60 1]
    (by decide +kernel) (by decide +kernel)
  obtain ⟨htwo, -⟩ := hsorts [first, second]
    (by simp [List.inits, hfirst, hsecond])
    [flatBar 180 4, flatBar 120 3, flatBar 60 1] (by decide +kernel) (by decide +kernel)
  rw [hone, htwo]
  simp only [List.map_cons, List.map_nil, ← hfirst, ← hsecond, hpres]
  rfl

end FeedClient

end TdSandboxed.TvApi
