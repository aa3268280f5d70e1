/-
TdSandboxed.TvApi.FetchTheorems — how the walk backward through history
ends (`fetchUntil`), whatever the server does.

`Moves` says once what each event does, and the two arguments read it: a
rank that every step of the walk lowers, and `Inv`, which ties the counters
to the requests and to what was read after each of them.

The walk reads the session before each request, and not after the last; and
it counts a request that nobody answers as one that brought nothing.
-/
import TdSandboxed.Lib.RunLength
import TdSandboxed.TvApi.FetchUntil

namespace TdSandboxed

open Lib

/-! ## Options -/

theorem FetchOption.maxBatches_apply {c : FetchConfig} (h : 0 < c.maxBatches) (o : FetchOption) :
    0 < (o.apply c).maxBatches := by
  cases o with
  | maxBatches n =>
    simp only [apply]
    split <;> assumption
  | _ =>
    simp only [apply]
    split <;> exact h

/-- No list of options takes the cap away. -/
theorem maxBatches_fetchConfig (opts : List FetchOption) : 0 < (fetchConfig opts).maxBatches := by
  suffices ∀ c : FetchConfig, 0 < c.maxBatches →
      0 < (opts.foldl FetchOption.apply c).maxBatches from this {} (by decide)
  induction opts with
  | nil => exact fun c h => h
  | cons o opts ih => exact fun c h => ih _ (o.maxBatches_apply h)

/-! ## The least period -/

section

variable {order : List ℤ} {periods : Finset ℤ}

theorem foldl_lowerPeriodTime_mem (order : List ℤ) (least : ℤ) :
    order.foldl lowerPeriodTime least = least ∨ order.foldl lowerPeriodTime least ∈ order := by
  induction order generalizing least with
  | nil => exact .inl rfl
  | cons t order ih =>
    rw [List.foldl_cons, List.mem_cons]
    cases ih (lowerPeriodTime least t) with
    | inl hkept =>
      rw [hkept, lowerPeriodTime]
      split
      · exact .inr (.inl rfl)
      · exact .inl rfl
    | inr hmem => exact .inr (.inr hmem)

theorem lowerPeriodTime_le {least t : ℤ} (h : least ≠ 0) :
    lowerPeriodTime least t ≤ least ∧ lowerPeriodTime least t ≤ t := by
  rw [lowerPeriodTime]
  split <;> omega

theorem foldl_lowerPeriodTime_le {least : ℤ} (hleast : least ≠ 0) (hzero : 0 ∉ order) :
    order.foldl lowerPeriodTime least ≤ least ∧
      ∀ t ∈ order, order.foldl lowerPeriodTime least ≤ t := by
  induction order generalizing least with
  | nil => simp
  | cons t order ih =>
    obtain ⟨ht, hrest⟩ := List.ne_and_not_mem_of_not_mem_cons hzero
    have hnext : lowerPeriodTime least t ≠ 0 := by
      rw [lowerPeriodTime]
      split
      · exact Ne.symm ht
      · exact hleast
    obtain ⟨hfirst, hothers⟩ := ih hnext hrest
    obtain ⟨hle, hle'⟩ := lowerPeriodTime_le (t := t) hleast
    rw [List.foldl_cons]
    refine ⟨hfirst.trans hle, fun x hx => ?_⟩
    obtain rfl | hx := List.mem_cons.mp hx
    · exact hfirst.trans hle'
    · exact hothers x hx

theorem minPeriodTime_mem (h : Ranges order periods) (hmin : minPeriodTime order ≠ 0) :
    minPeriodTime order ∈ periods := by
  rw [← h.2, List.mem_toFinset]
  exact (foldl_lowerPeriodTime_mem order 0).resolve_left hmin

/-- Where no bar is at time 0, the order does not matter. -/
theorem isLeast_minPeriodTime (h : Ranges order periods) (hzero : 0 ∉ periods)
    (hmin : minPeriodTime order ≠ 0) : IsLeast (periods : Set ℤ) (minPeriodTime order) := by
  refine ⟨minPeriodTime_mem h hmin, fun t ht => ?_⟩
  rw [Finset.mem_coe, ← h.2, List.mem_toFinset] at ht
  rw [← h.2, List.mem_toFinset] at hzero
  cases order with
  | nil => simp at ht
  | cons first order =>
    obtain ⟨hfirst, hrest⟩ := List.ne_and_not_mem_of_not_mem_cons hzero
    obtain ⟨hle, hothers⟩ := foldl_lowerPeriodTime_le (Ne.symm hfirst) hrest
    have hstart : minPeriodTime (first :: order) = order.foldl lowerPeriodTime first := rfl
    rw [hstart]
    obtain rfl | ht := List.mem_cons.mp ht
    · exact hle
    · exact hothers t ht

theorem ranges_toList (periods : Finset ℤ) : Ranges periods.toList periods :=
  ⟨periods.nodup_toList, periods.toList_toFinset⟩

end

namespace FetchUntil

variable {c : FetchConfig} {untilTs : ℤ} {s t : FetchUntil} {e : Event} {order : List ℤ}

/-! ## What an event does -/

/-- The waits of a batch that look at the context. -/
def Phase.Heeds : Phase → Prop
  | .head | .afterWait | .throttling => True
  | _ => False

/-- Each event, where it is enabled, with what it leaves behind. -/
inductive Moves (c : FetchConfig) (untilTs : ℤ) (s : FetchUntil) : Event → FetchUntil → Prop
  | bars (times : List ℤ) : Moves c untilTs s (.bars times)
      { s with periods := s.periods ∪ times.toFinset }
  | update (n : ℕ) : Moves c untilTs s .update { s with signals := n }
  | cancel : Moves c untilTs s .cancel { s with contextDone := true }
  | initial (order : List ℤ) (next : Phase) : s.phase = .start →
      next = .awaitInitial ∨ next = .head → Moves c untilTs s (.read order) { s with phase := next }
  | waitedInitial (e : Event) (n : ℕ) (next : Phase) : s.phase = .awaitInitial → e.own →
      next = .head ∨ next = .noInitial → Moves c untilTs s e { s with signals := n, phase := next }
  | failed (result : FetchResult) : s.phase = .noInitial →
      result = .cancelledBeforeInitial ∨ result = .noInitialBatch →
      Moves c untilTs s .check { s with phase := .returned result }
  | cancelled (e : Event) : s.phase.Heeds → e.own →
      Moves c untilTs s e { s with phase := .returned .cancelled }
  | exceeded : s.phase = .head → c.maxBatches ≤ s.batch →
      Moves c untilTs s .check { s with phase := .returned (.exceededMaxBatches s.prevMin) }
  | enters : s.phase = .head → s.batch < c.maxBatches →
      Moves c untilTs s .check { s with phase := .look }
  | reached (order : List ℤ) : s.phase = .look → Ranges order s.periods →
      0 < minPeriodTime order → minPeriodTime order ≤ untilTs →
      Moves c untilTs s (.read order) { s with phase := .returned .done }
  | decides (order : List ℤ) : s.phase = .look →
      ¬(0 < minPeriodTime order ∧ minPeriodTime order ≤ untilTs) →
      Moves c untilTs s (.read order) { s with phase := .send (minPeriodTime order) }
  | requests (minTs : ℤ) (sent : Bool) : s.phase = .send minTs →
      Moves c untilTs s (.request sent)
        { s with
          requests := s.requests + 1
          lastSent := some minTs
          phase := if sent then .await else .returned (.requestFailed s.batch minTs) }
  | waited (e : Event) (n : ℕ) : s.phase = .await → e.own →
      Moves c untilTs s e { s with signals := n, phase := .afterWait }
  | rests : s.phase = .afterWait → Moves c untilTs s .check { s with phase := .throttling }
  | rested : s.phase = .throttling → Moves c untilTs s .timer { s with phase := .sample }
  | quiet (order : List ℤ) : s.phase = .sample → Ranges order s.periods →
      minPeriodTime order = s.prevMin → 0 < s.prevMin → 1 ≤ s.sameStreak →
      Moves c untilTs s (.read order)
        { s with
          samples := s.samples ++ [(minPeriodTime order, s.periods)]
          sameStreak := s.sameStreak + 1
          phase := .returned .done }
  | counted (order : List ℤ) (streak : ℕ) : s.phase = .sample → Ranges order s.periods →
      streak = 0 ∨ minPeriodTime order = s.prevMin ∧ streak = s.sameStreak + 1 →
      Moves c untilTs s (.read order)
        { s with
          samples := s.samples ++ [(minPeriodTime order, s.periods)]
          sameStreak := streak
          prevMin := minPeriodTime order
          batch := s.batch + 1
          phase := .head }

theorem endWait_eq_some {onSignal onOther : Phase} (h : s.endWait onSignal onOther e = some t) :
    e.own ∧ ∃ n next, (next = onSignal ∨ next = onOther) ∧
      t = { s with signals := n, phase := next } := by
  cases e with
  | signal =>
    simp only [endWait, Option.ite_none_right_eq_some, Option.some.injEq] at h
    exact ⟨rfl, _, _, .inl rfl, h.2.symm⟩
  | timer =>
    simp only [endWait, Option.some.injEq] at h
    exact ⟨rfl, s.signals, _, .inr rfl, h.symm⟩
  | contextDone =>
    simp only [endWait, Option.ite_none_right_eq_some, Option.some.injEq] at h
    exact ⟨rfl, s.signals, _, .inr rfl, h.2.symm⟩
  | _ => simp [endWait] at h

/-- The end of a batch returns nil or goes on to the next batch. -/
theorem moves_record (hphase : s.phase = .sample) (hranges : Ranges order s.periods) :
    Moves c untilTs s (.read order) (s.record (minPeriodTime order)) := by
  simp only [record]
  split
  · rename_i hsame
    obtain ⟨hmin, hpos⟩ := hsame
    split
    · exact .quiet order hphase hranges hmin (hmin ▸ hpos) (by omega)
    · exact .counted order _ hphase hranges (.inr ⟨hmin, rfl⟩)
  · exact .counted order _ hphase hranges (.inl rfl)

theorem moves_of_step (h : step c untilTs s e = some t) : Moves c untilTs s e t := by
  unfold step at h
  split at h
  · cases h
    exact .bars _
  · cases h
    exact .update _
  · cases h
    exact .cancel
  · rename_i hphase
    split at h
    · cases h
      refine .initial _ _ hphase ?_
      split <;> simp
    · cases h
  · obtain ⟨hown, n, next, hnext, rfl⟩ := endWait_eq_some h
    exact .waitedInitial _ n next ‹_› hown hnext
  · rename_i hphase
    cases h
    refine .failed _ hphase ?_
    split <;> simp
  · rename_i hphase
    split at h
    · rename_i hbatch
      cases h
      split
      · exact .cancelled _ (by rw [hphase]; trivial) rfl
      · exact .enters hphase hbatch
    · rename_i hbatch
      cases h
      exact .exceeded hphase (not_lt.mp hbatch)
  · rename_i hphase
    split at h
    · rename_i hranges
      cases h
      split
      · rename_i hmin
        exact .reached _ hphase hranges hmin.1 hmin.2
      · rename_i hmin
        exact .decides _ hphase hmin
    · cases h
  · rename_i hphase
    cases h
    exact .requests _ _ hphase
  · obtain ⟨hown, n, next, hnext, rfl⟩ := endWait_eq_some h
    obtain rfl : next = .afterWait := or_self_iff.mp hnext
    exact .waited _ n ‹_› hown
  · rename_i hphase
    cases h
    split
    · exact .cancelled _ (by rw [hphase]; trivial) rfl
    · exact .rests hphase
  · rename_i hphase
    cases h
    exact .rested hphase
  · rename_i hphase
    split at h
    · cases h
      exact .cancelled _ (by rw [hphase]; trivial) rfl
    · cases h
  · rename_i hphase
    split at h
    · rename_i hranges
      cases h
      exact moves_record hphase hranges
    · cases h
  · cases h

/-! ## Termination -/

/-- The requests and samples of the batches so far, phase by phase. -/
def At (c : FetchConfig) (s : FetchUntil) : Prop :=
  match s.phase with
  | .start | .awaitInitial | .noInitial | .head =>
    s.requests = s.batch ∧ s.samples.length = s.batch ∧ (s.batch : ℤ) ≤ c.maxBatches
  | .look | .send _ =>
    s.requests = s.batch ∧ s.samples.length = s.batch ∧ (s.batch : ℤ) < c.maxBatches
  | .await | .afterWait | .throttling | .sample =>
    s.requests = s.batch + 1 ∧ s.samples.length = s.batch ∧ (s.batch : ℤ) < c.maxBatches
  | .returned (.exceededMaxBatches _) => (s.requests : ℤ) = c.maxBatches
  | .returned _ => (s.requests : ℤ) ≤ c.maxBatches

/-- A bound on the steps the walk may still take. -/
def rank (c : FetchConfig) (s : FetchUntil) : ℕ :=
  let left := (c.maxBatches - s.batch).toNat
  match s.phase with
  | .start => 7 * left + 3
  | .awaitInitial => 7 * left + 2
  | .noInitial => 1
  | .head => 7 * left + 1
  | .look => 7 * left
  | .send _ => 7 * left - 1
  | .await => 7 * left - 2
  | .afterWait => 7 * left - 3
  | .throttling => 7 * left - 4
  | .sample => 7 * left - 5
  | .returned _ => 0

theorem at_of_moves (h : Moves c untilTs s e t) (hs : s.At c) : t.At c := by
  cases h with
  | bars | update | cancel => exact hs
  | initial order next hphase hnext =>
    simp only [At, hphase] at hs
    obtain rfl | rfl := hnext <;> exact hs
  | waitedInitial e n next hphase hown hnext =>
    simp only [At, hphase] at hs
    obtain rfl | rfl := hnext <;> exact hs
  | failed result hphase hresult =>
    simp only [At, hphase] at hs
    obtain rfl | rfl := hresult <;> simp only [At] <;> omega
  | cancelled e hphase hown =>
    cases hp : s.phase <;> simp only [At, Phase.Heeds, hp] at hs hphase ⊢ <;> omega
  | exceeded hphase hbatch | enters hphase hbatch =>
    simp only [At, hphase] at hs ⊢
    omega
  | reached order hphase hranges hpos hmin =>
    simp only [At, hphase] at hs ⊢
    omega
  | decides order hphase hmin =>
    simp only [At, hphase] at hs
    exact hs
  | requests minTs sent hphase =>
    simp only [At, hphase] at hs
    cases sent <;> simp only [At, if_true, Bool.false_eq_true, if_false] <;> omega
  | waited e n hphase hown =>
    simp only [At, hphase] at hs
    exact hs
  | rests hphase | rested hphase =>
    simp only [At, hphase] at hs
    exact hs
  | quiet order hphase =>
    simp only [At, hphase] at hs ⊢
    omega
  | counted order streak hphase =>
    simp only [At, hphase] at hs
    simp only [At, List.length_append, List.length_singleton]
    omega

theorem rank_of_moves (h : Moves c untilTs s e t) (hs : s.At c) :
    rank c t + (if e.own then 1 else 0) ≤ rank c s := by
  have hone : (if e.own then 1 else 0) ≤ 1 := by
    split <;> omega
  cases h with
  | bars | update | cancel => exact le_rfl
  | initial order next hphase hnext =>
    simp only [rank, hphase]
    obtain rfl | rfl := hnext <;> simp only <;> omega
  | waitedInitial e n next hphase hown hnext =>
    simp only [rank, hphase]
    obtain rfl | rfl := hnext <;> simp only <;> omega
  | cancelled e hphase hown =>
    cases hp : s.phase <;> simp only [At, rank, Phase.Heeds, hp] at hs hphase ⊢ <;> omega
  | requests minTs sent hphase =>
    simp only [At, hphase] at hs
    cases sent <;> simp only [rank, hphase, if_true, Bool.false_eq_true, if_false] <;> omega
  | failed result hphase | exceeded hphase | enters hphase | reached order hphase
  | decides order hphase | waited e n hphase | rests hphase | rested hphase | quiet order hphase
  | counted order streak hphase =>
    simp only [At, hphase] at hs
    simp only [rank, hphase]
    omega

/-- Until it has returned, the walk has a step of its own to take: nothing
it waits for is the server's alone. -/
theorem exists_own (c : FetchConfig) (untilTs : ℤ) (h : ∀ result, s.phase ≠ .returned result) :
    ∃ e, e.own ∧ (step c untilTs s e).isSome := by
  have hread := ranges_toList s.periods
  cases hphase : s.phase with
  | start | look | sample => exact ⟨.read s.periods.toList, rfl, by simp [step, hphase, hread]⟩
  | awaitInitial | await | throttling => exact ⟨.timer, rfl, by simp [step, endWait, hphase]⟩
  | noInitial | afterWait => exact ⟨.check, rfl, by simp [step, hphase]⟩
  | head =>
    refine ⟨.check, rfl, ?_⟩
    simp only [step, hphase]
    split <;> rfl
  | send minTs => exact ⟨.request true, rfl, by simp [step, hphase]⟩
  | returned result => exact absurd hphase (h result)

/-! ## What the walk has seen -/

/-- The streak counts samples, and the samples are reads of a session that
only gains bars. -/
structure Sampled (s : FetchUntil) : Prop where
  streak : 0 < s.prevMin → s.sameStreak + 1 ≤ trailing s.prevMin (s.samples.map Prod.fst)
  read : ∀ p ∈ s.samples, ∃ order, Ranges order p.2 ∧ p.1 = minPeriodTime order
  grows : (s.samples.map Prod.snd).Pairwise (· ⊆ ·)
  stored : ∀ p ∈ s.samples, p.2 ⊆ s.periods

/-- A request is sent only from short of the target. -/
structure Asked (untilTs : ℤ) (s : FetchUntil) : Prop where
  sending : ∀ t, s.phase = .send t → ¬(0 < t ∧ t ≤ untilTs)
  sent : ∀ t, s.lastSent = some t → ¬(0 < t ∧ t ≤ untilTs)
  isSome : 0 < s.requests → s.lastSent.isSome

/-- A bar at the target or before it is there. -/
def Reached (untilTs : ℤ) (s : FetchUntil) : Prop := ∃ t ∈ s.periods, 0 < t ∧ t ≤ untilTs

/-- The walk ended on the streak: the last three samples are `prevMin`. -/
def Exhausted (s : FetchUntil) : Prop :=
  s.samples.length = s.requests ∧ 0 < s.prevMin ∧
    3 ≤ trailing s.prevMin (s.samples.map Prod.fst)

/-- A sample more, whatever else the step does. -/
theorem Sampled.sample (hs : s.Sampled) (hranges : Ranges order s.periods)
    (hsamples : t.samples = s.samples ++ [(minPeriodTime order, s.periods)])
    (hperiods : t.periods = s.periods)
    (hstreak : 0 < t.prevMin → t.sameStreak + 1 ≤ trailing t.prevMin (t.samples.map Prod.fst)) :
    t.Sampled := by
  refine ⟨hstreak, ?_, ?_, ?_⟩
  · intro p hp
    rw [hsamples, List.mem_append, List.mem_singleton] at hp
    obtain hp | rfl := hp
    · exact hs.read p hp
    · exact ⟨order, hranges, rfl⟩
  · rw [hsamples, List.map_append, List.pairwise_append]
    refine ⟨hs.grows, List.pairwise_singleton _ _, ?_⟩
    intro p hp q hq
    obtain ⟨sample, hsample, rfl⟩ := List.mem_map.mp hp
    obtain rfl : q = s.periods := by simpa using hq
    exact hs.stored sample hsample
  · intro p hp
    rw [hsamples, List.mem_append, List.mem_singleton] at hp
    rw [hperiods]
    obtain hp | rfl := hp
    · exact hs.stored p hp
    · exact Finset.Subset.refl _

/-- One more equal sample makes the end of the samples longer. -/
theorem Sampled.trailing_succ (hs : s.Sampled) (hpos : 0 < s.prevMin) :
    s.sameStreak + 2 ≤
      trailing s.prevMin ((s.samples ++ [(s.prevMin, s.periods)]).map Prod.fst) := by
  have := hs.streak hpos
  simp only [List.map_append, List.map_cons, List.map_nil, trailing_concat_self]
  omega

theorem sampled_of_moves (h : Moves c untilTs s e t) (hs : s.Sampled) : t.Sampled := by
  cases h with
  | bars times =>
    exact ⟨hs.streak, hs.read, hs.grows, fun p hp =>
      (hs.stored p hp).trans Finset.subset_union_left⟩
  | quiet order hphase hranges hmin hpos =>
    refine hs.sample hranges rfl rfl fun _ => ?_
    simp only [hmin]
    exact hs.trailing_succ hpos
  | counted order streak hphase hranges hstreak =>
    refine hs.sample hranges rfl rfl fun hpos => ?_
    obtain rfl | ⟨hmin, rfl⟩ := hstreak
    · simp
    · simp only [hmin] at hpos ⊢
      exact hs.trailing_succ hpos
  | _ => exact ⟨hs.streak, hs.read, hs.grows, hs.stored⟩

theorem asked_of_moves (h : Moves c untilTs s e t) (hs : s.Asked untilTs) : t.Asked untilTs := by
  cases h with
  | bars | update | cancel => exact ⟨hs.sending, hs.sent, hs.isSome⟩
  | initial order next hphase hnext =>
    refine ⟨fun minTs hsend => ?_, hs.sent, hs.isSome⟩
    obtain rfl | rfl := hnext <;> cases hsend
  | waitedInitial e n next hphase hown hnext =>
    refine ⟨fun minTs hsend => ?_, hs.sent, hs.isSome⟩
    obtain rfl | rfl := hnext <;> cases hsend
  | decides order hphase hmin =>
    refine ⟨fun minTs hsend => ?_, hs.sent, hs.isSome⟩
    cases hsend
    exact hmin
  | requests minTs sent hphase =>
    have hminTs := hs.sending minTs hphase
    refine ⟨fun x hsend => ?_, fun x hx => ?_, fun _ => rfl⟩
    · cases sent <;> cases hsend
    · cases hx
      exact hminTs
  | _ => exact ⟨fun minTs hsend => (by cases hsend), hs.sent, hs.isSome⟩

/-- Nil has one of two reasons, and they stay true. -/
theorem done_of_moves (h : Moves c untilTs s e t) (hat : s.At c) (hs : s.Sampled)
    (hdone : s.phase = .returned .done → s.Reached untilTs ∨ s.Exhausted) :
    t.phase = .returned .done → t.Reached untilTs ∨ t.Exhausted := by
  intro hphase'
  cases h with
  | bars times =>
    refine (hdone hphase').imp ?_ id
    rintro ⟨x, hx, hle⟩
    exact ⟨x, Finset.mem_union_left _ hx, hle⟩
  | update | cancel => exact hdone hphase'
  | initial order next hphase hnext => 
    obtain rfl | rfl := hnext <;> cases hphase'
  | waitedInitial e n next hphase hown hnext =>
    obtain rfl | rfl := hnext <;> cases hphase'
  | failed result hphase hresult =>
    obtain rfl | rfl := hresult <;> cases hphase'
  | requests minTs sent hphase =>
    cases sent <;> cases hphase'
  | reached order hphase hranges hpos hmin =>
    exact .inl ⟨_, minPeriodTime_mem hranges hpos.ne', hpos, hmin⟩
  | quiet order hphase hranges hmin hpos hstreak =>
    simp only [At, hphase] at hat
    have htrailing := hs.trailing_succ hpos
    refine .inr ⟨?_, hpos, ?_⟩
    · simp only [List.length_append, List.length_singleton]
      omega
    · simp only [hmin]
      omega
  | _ => cases hphase'

/-! ## How the walk ends -/

/-- The last three batches ended on one positive `MinPeriodTime`. Where no
bar is at time 0, that is the oldest bar at the first of these ends and at
the last: the two requests between them brought none that is older. -/
def Quiet (s : FetchUntil) : Prop :=
  s.samples.length = s.requests ∧ ∃ earlier m first second last,
    s.samples = earlier ++ [(m, first), (m, second), (m, last)] ∧ 0 < m ∧
      first ⊆ last ∧ last ⊆ s.periods ∧
      (0 ∉ last → IsLeast (first : Set ℤ) m ∧ IsLeast (last : Set ℤ) m)

/-- A read of keys without time 0 is the least of them. -/
theorem Sampled.isLeast (hs : s.Sampled) {m : ℤ} {periods : Finset ℤ}
    (hmem : (m, periods) ∈ s.samples) (hpos : 0 < m) (hzero : 0 ∉ periods) :
    IsLeast (periods : Set ℤ) m := by
  obtain ⟨order, hranges, hmin⟩ := hs.read (m, periods) hmem
  obtain rfl : m = minPeriodTime order := hmin
  exact isLeast_minPeriodTime hranges hzero hpos.ne'

theorem quiet_of_exhausted (hs : s.Sampled) (h : s.Exhausted) : s.Quiet := by
  obtain ⟨hlength, hpos, htrailing⟩ := h
  obtain ⟨pre, post, heq, hpost⟩ := runBefore_zero_iff.mpr htrailing
  rw [List.length_eq_zero_iff.mp hpost, List.append_nil, List.map_eq_append_iff] at heq
  obtain ⟨earlier, block, hsamples, -, hblock⟩ := heq
  obtain ⟨⟨m, first⟩, ⟨m', second⟩, ⟨m'', last⟩, rfl⟩ : ∃ p q r, block = [p, q, r] := by
    rw [← List.length_eq_three, ← List.length_map Prod.fst, hblock, List.length_replicate]
  simp only [List.map_cons, List.map_nil, List.replicate, List.cons.injEq, and_true] at hblock
  obtain ⟨rfl, rfl, rfl⟩ := hblock
  have hgrows := hs.grows
  simp only [hsamples, List.map_append, List.map_cons, List.map_nil, List.pairwise_append,
    List.pairwise_cons, List.mem_cons] at hgrows
  have hfirst : first ⊆ last := hgrows.2.1.1 last (by simp)
  refine ⟨hlength, earlier, _, first, second, last, hsamples, hpos, hfirst, ?_, fun hzero => ?_⟩
  · exact hs.stored (s.prevMin, last) (by simp [hsamples])
  · refine ⟨hs.isLeast (by simp [hsamples]) hpos fun h => hzero (hfirst h), ?_⟩
    exact hs.isLeast (by simp [hsamples]) hpos hzero

/-- What a run of the walk comes to. -/
structure Ends (c : FetchConfig) (untilTs : ℤ) (es : List Event) (s : FetchUntil) : Prop where
  requests_le : (s.requests : ℤ) ≤ c.maxBatches
  own_le : (es.countP Event.own : ℤ) ≤ 7 * c.maxBatches + 3
  proceeds : (∀ result, s.phase ≠ .returned result) → ∃ e, e.own ∧ (step c untilTs s e).isSome
  done : s.phase = .returned .done → s.Reached untilTs ∨ s.Quiet
  exceeded : ∀ least, s.phase = .returned (.exceededMaxBatches least) →
    s.requests = c.maxBatches ∧ ∃ minTs, s.lastSent = some minTs ∧ ¬(0 < minTs ∧ minTs ≤ untilTs)

theorem At.requests_le (h : s.At c) : (s.requests : ℤ) ≤ c.maxBatches := by
  cases hphase : s.phase with
  | returned result =>
    cases result <;> simp only [At, hphase] at h <;> omega
  | _ =>
    simp only [At, hphase] at h
    omega

/-- The invariant of every run of the walk. -/
structure Inv (c : FetchConfig) (untilTs : ℤ) (s : FetchUntil) : Prop where
  place : s.At c
  sampled : s.Sampled
  asked : s.Asked untilTs
  done : s.phase = .returned .done → s.Reached untilTs ∨ s.Exhausted

theorem inv_start (hc : 0 < c.maxBatches) (untilTs : ℤ) (periods : Finset ℤ) :
    Inv c untilTs { periods } where
  place := ⟨rfl, rfl, hc.le⟩
  sampled := ⟨fun h => absurd h (lt_irrefl 0), by simp, .nil, by simp⟩
  asked := ⟨fun _ h => (by cases h), fun _ h => (by cases h), fun h => absurd h (lt_irrefl 0)⟩
  done := fun h => by cases h

theorem inv_of_moves (h : Moves c untilTs s e t) (hs : Inv c untilTs s) : Inv c untilTs t where
  place := at_of_moves h hs.place
  sampled := sampled_of_moves h hs.sampled
  asked := asked_of_moves h hs.asked
  done := done_of_moves h hs.place hs.sampled hs.done

/-- **How the walk ends**, whatever the server does: after at most
`maxBatches` requests, and with nil only when a bar reached the target or
two batches in a row brought none that is older. -/
theorem walk_ends (opts : List FetchOption) (untilTs : ℤ) (periods : Finset ℤ) {es : List Event}
    (h : Run (step (fetchConfig opts) untilTs) { periods } es s) :
    Ends (fetchConfig opts) untilTs es s := by
  have hmax := maxBatches_fetchConfig opts
  obtain ⟨hinv, hown⟩ := h.countP_add_rank_le Event.own (rank (fetchConfig opts))
    (Inv (fetchConfig opts) untilTs) (inv_start hmax untilTs periods) fun t e u ht _ hs =>
      ⟨inv_of_moves (moves_of_step hs) ht, rank_of_moves (moves_of_step hs) ht.place⟩
  have hstart : rank (fetchConfig opts) { periods } =
      7 * (fetchConfig opts).maxBatches.toNat + 3 := by
    simp [rank]
  refine ⟨hinv.place.requests_le, by omega, exists_own _ untilTs, fun hphase => ?_,
    fun least hphase => ?_⟩
  · exact (hinv.done hphase).imp_right (quiet_of_exhausted hinv.sampled)
  · have hrequests := hinv.place
    simp only [At, hphase] at hrequests
    obtain ⟨minTs, hsent⟩ := Option.isSome_iff_exists.mp (hinv.asked.isSome (by omega))
    exact ⟨hrequests, minTs, hsent, hinv.asked.sent minTs hsent⟩

/-- A request whose bars reach the target. -/
theorem walk_ends_reached :
    ∃ s, Run (step (fetchConfig [.maxBatches 5]) 1000) { periods := {2000} }
        [.read [2000], .check, .read [2000], .request true, .bars [1500, 900], .update, .signal,
          .check, .timer, .read [1500, 900, 2000], .check, .read [900, 2000, 1500]] s ∧
      s.phase = .returned .done ∧ Ends (fetchConfig [.maxBatches 5]) 1000
        [.read [2000], .check, .read [2000], .request true, .bars [1500, 900], .update, .signal,
          .check, .timer, .read [1500, 900, 2000], .check, .read [900, 2000, 1500]] s := by
  obtain ⟨s, hrun, hphase⟩ := Run.exists_of_exec (step (fetchConfig [.maxBatches 5]) 1000)
    { periods := {2000} }
    [.read [2000], .check, .read [2000], .request true, .bars [1500, 900], .update, .signal,
      .check, .timer, .read [1500, 900, 2000], .check, .read [900, 2000, 1500]]
    (fun s => decide (s.phase = .returned .done)) (by decide +kernel)
  exact ⟨s, hrun, of_decide_eq_true hphase, walk_ends _ _ _ hrun⟩

/-- Nil without a word from the server, far from the target; and the cap is
reported although the last batch reached it. -/
theorem nil_in_silence_and_late_reach :
    (∃ es s, Run (step (fetchConfig []) 1000) { periods := {2000} } es s ∧
      (∀ e ∈ es, e.own) ∧ s.phase = .returned .done ∧ s.periods = {2000}) ∧
    ∃ es s, Run (step (fetchConfig [.maxBatches 1]) 1000) { periods := {2000} } es s ∧
      s.phase = .returned (.exceededMaxBatches 500) ∧ 500 ∈ s.periods := by
  constructor
  · obtain ⟨s, hrun, hend⟩ := Run.exists_of_exec (step (fetchConfig []) 1000) { periods := {2000} }
      [.read [2000],
        .check, .read [2000], .request true, .timer, .check, .timer, .read [2000],
        .check, .read [2000], .request true, .timer, .check, .timer, .read [2000],
        .check, .read [2000], .request true, .timer, .check, .timer, .read [2000]]
      (fun s => decide (s.phase = .returned .done ∧ s.periods = {2000})) (by decide +kernel)
    exact ⟨_, s, hrun, by decide, of_decide_eq_true hend⟩
  · obtain ⟨s, hrun, hend⟩ := Run.exists_of_exec (step (fetchConfig [.maxBatches 1]) 1000)
      { periods := {2000} }
      [.read [2000], .check, .read [2000], .request true, .bars [500], .update, .signal, .check,
        .timer, .read [500, 2000], .check]
      (fun s => decide (s.phase = .returned (.exceededMaxBatches 500) ∧ 500 ∈ s.periods))
      (by decide +kernel)
    exact ⟨_, s, hrun, of_decide_eq_true hend⟩

end FetchUntil

end TdSandboxed
