/-
TdSandboxed.TvApi.TimescaleTheorems — what becomes of the items of a
`TimescaleStore`.

`Series.Sound` is the order of a series: what was accepted is what is
settled, then the batch, then the channel. Every step keeps it, so the
items accepted before `Close` are settled exactly when enough items are.
`reach` counts what the processor will still settle; a step keeps the count
sufficient exactly when it is `Kept`.
-/
import TdSandboxed.TvApi.TimescaleStore

namespace TdSandboxed

open Lib

variable {α : Type*}

/-! ## One flush -/

theorem insertRows_failed (batch : List α) (answers : List Bool) :
    insertRows true batch answers = ([], true) := by
  induction batch generalizing answers with
  | nil => rfl
  | cons item batch ih => exact ih answers.tail

/-- A transaction without a failed statement inserts its whole batch. -/
theorem insertRows_eq (batch : List α) (answers : List Bool)
    (h : (insertRows false batch answers).2 = false) : (insertRows false batch answers).1 = batch := by
  induction batch generalizing answers with
  | nil => rfl
  | cons item batch ih =>
    rw [insertRows] at h ⊢
    split at h
    · rw [insertRows_failed] at h
      cases h
    · rename_i hok
      rw [if_neg hok]
      exact congrArg (item :: ·) (ih answers.tail h)

/-- The order of a series, and its errors among those counted. -/
structure Series.Sound (errorsCount : ℕ) (x : Series α) : Prop where
  order : x.accepted = x.settled.map Prod.fst ++ x.batch ++ x.buffer
  before : x.savedBeforeClose ≤ x.accepted.length
  counted : ∀ item error, (item, .counted error) ∈ x.settled → 1 ≤ error ∧ error ≤ errorsCount

theorem Series.Sound.mono {m n : ℕ} {x : Series α} (h : x.Sound m) (hmn : m ≤ n) : x.Sound n where
  order := h.order
  before := h.before
  counted := by
    intro item error hmem
    have hb := h.counted item error hmem
    omega

/-- A flush settles the batch, whatever the database answers. -/
theorem Series.flush_settles (x : Series α) (n : ℕ) (db : TxnAnswers) :
    ∃ how : α → Settlement, ∃ written : ℕ,
      (x.flush n db).1 =
        { x with batch := [], settled := x.settled ++ x.batch.map fun item => (item, how item),
                 written := written } ∧
      n ≤ (x.flush n db).2 ∧
      ∀ item error, how item = .counted error → 1 ≤ error ∧ error ≤ (x.flush n db).2 := by
  have herror : ∀ item error, (fun _ : α => Settlement.counted (n + 1)) item = .counted error →
      1 ≤ error ∧ error ≤ n + 1 := by
    intro item error he
    have := Settlement.counted.inj he
    omega
  unfold Series.flush
  split
  · exact ⟨_, _, rfl, Nat.le_succ n, herror⟩
  · split
    · exact ⟨_, _, rfl, Nat.le_succ n, herror⟩
    · dsimp only
      split
      · exact ⟨_, _, rfl, Nat.le_succ n, herror⟩
      · rename_i hok
        simp only [Bool.or_eq_true, not_or, Bool.not_eq_true] at hok
        rw [insertRows_eq x.batch db.rows hok.1]
        exact ⟨fun _ => .inserted, _, rfl, Nat.le_refl n, fun _ _ he => (by cases he)⟩

theorem Series.Sound.flush {n : ℕ} {x : Series α} (h : x.Sound n) (db : TxnAnswers) :
    (x.flush n db).1.Sound (x.flush n db).2 := by
  obtain ⟨how, written, heq, hle, hhow⟩ := x.flush_settles n db
  rw [heq]
  refine ⟨by simp [h.order, Function.comp_def], h.before, fun item error hmem => ?_⟩
  cases List.mem_append.mp hmem with
  | inl hold => exact (h.mono hle).counted item error hold
  | inr hnew =>
    obtain ⟨item', -, hpair⟩ := List.mem_map.mp hnew
    obtain ⟨rfl, hset⟩ := Prod.mk.inj hpair
    exact hhow item' error hset

/-- The items accepted before `Close` are settled when enough items are. -/
theorem Series.Sound.settled_iff {n : ℕ} {x : Series α} (h : x.Sound n) :
    (x.accepted.take x.savedBeforeClose).Subperm (x.settled.map Prod.fst) ↔
      x.savedBeforeClose ≤ x.settled.length := by
  have hlen : (x.accepted.take x.savedBeforeClose).length = x.savedBeforeClose := by
    rw [List.length_take, Nat.min_eq_left h.before]
  refine ⟨fun hsub => ?_, fun hle => ?_⟩
  · have hle := hsub.length_le
    rwa [hlen, List.length_map] at hle
  · rw [h.order, List.append_assoc, List.take_append_of_le_length (by simpa using hle)]
    exact (List.take_sublist _ _).subperm

/-! ## One step -/

namespace TimescaleStore

variable {batchSize : ℕ} {s t : TimescaleStore α} {e : StoreEvent α} {kind kind' : SeriesKind}
  {x : Series α}

@[simp] theorem series_setSeries_self : (s.setSeries kind x).series kind = x := by
  cases kind <;> rfl

theorem series_setSeries_of_ne (h : kind' ≠ kind) :
    (s.setSeries kind x).series kind' = s.series kind' := by
  cases kind <;> cases kind' <;> first | rfl | exact absurd rfl h

/-- What holds of the new series, and of the other one before. -/
theorem forall_setSeries {P : SeriesKind → Series α → Prop} (hx : P kind x)
    (hs : ∀ k, P k (s.series k)) (k : SeriesKind) : P k ((s.setSeries kind x).series k) := by
  by_cases hk : k = kind
  · subst hk
    rwa [series_setSeries_self]
  · rw [series_setSeries_of_ne hk]
    exact hs k

/-- What a step can be. -/
inductive Stepped (s : TimescaleStore α) : StoreEvent α → TimescaleStore α → Prop
  | save (kind : SeriesKind) (item : α) :
    Stepped s (.save kind item) (s.setSeries kind { s.series kind with
      buffer := (s.series kind).buffer ++ [item]
      accepted := (s.series kind).accepted ++ [item] })
  | bufferFull (kind : SeriesKind) :
    Stepped s (.bufferFull kind) { s with errorsCount := s.errorsCount + 1 }
  | start : s.processor = .notStarted → Stepped s .start { s with processor := .selecting }
  | receive (kind : SeriesKind) (item : α) (rest : List α) (processor : BatchProcessor) :
    s.processor = .selecting → (s.series kind).buffer = item :: rest →
    processor = .selecting ∨ processor = .flushing [kind] false →
    Stepped s (.receive kind) { s.setSeries kind { s.series kind with
      buffer := rest
      batch := (s.series kind).batch ++ [item] } with processor }
  | timer : s.processor = .selecting →
    Stepped s .timer { s with processor := flushPhase s.toFlush false }
  | stop : s.processor = .selecting → s.stopping = true →
    Stepped s .stop { s with processor := flushPhase s.toFlush true }
  | ctxDone : s.processor = .selecting → Stepped s .ctxDone { s with processor := .returned }
  | flush (db : TxnAnswers) (kind : SeriesKind) (todo : List SeriesKind) (last : Bool) :
    s.processor = .flushing (kind :: todo) last →
    Stepped s (.flush db) { s.setSeries kind ((s.series kind).flush s.errorsCount db).1 with
      errorsCount := ((s.series kind).flush s.errorsCount db).2
      processor := flushPhase todo last }
  | cancel : Stepped s .cancel { s with cancelled := true }
  | close : s.stopping = false → Stepped s .close { s with
      stopping := true
      ticks := { s.ticks with savedBeforeClose := s.ticks.accepted.length }
      candles := { s.candles with savedBeforeClose := s.candles.accepted.length } }
  | closeReturns : s.processor = .returned → s.stopping = true →
    Stepped s .closeReturns { s with closed := true }

theorem Stepped.of_step (h : s.step batchSize e = some t) : Stepped s e t := by
  unfold step at h
  split at h
  case h_1 kind item =>
    simp only [Option.ite_none_right_eq_some, Option.some.injEq] at h
    obtain ⟨-, rfl⟩ := h
    exact .save kind item
  case h_2 kind =>
    simp only [Option.ite_none_left_eq_some, Option.some.injEq] at h
    obtain ⟨-, rfl⟩ := h
    exact .bufferFull kind
  case h_3 hp =>
    obtain rfl := Option.some.inj h
    exact .start hp
  case h_4 kind hp =>
    dsimp only at h
    split at h
    · cases h
    · rename_i item rest hb
      obtain rfl := Option.some.inj h
      refine .receive kind item rest _ hp hb ?_
      split
      · exact .inr rfl
      · exact .inl rfl
  case h_5 hp =>
    obtain rfl := Option.some.inj h
    exact .timer hp
  case h_6 hp =>
    simp only [Option.ite_none_right_eq_some, Option.some.injEq] at h
    obtain ⟨hstop, rfl⟩ := h
    exact .stop hp hstop
  case h_7 hp =>
    simp only [Option.ite_none_right_eq_some, Option.some.injEq] at h
    obtain ⟨-, rfl⟩ := h
    exact .ctxDone hp
  case h_8 db kind todo last hp =>
    obtain rfl := Option.some.inj h
    exact .flush db kind todo last hp
  case h_9 =>
    obtain rfl := Option.some.inj h
    exact .cancel
  case h_10 =>
    simp only [Option.ite_none_left_eq_some, Option.some.injEq] at h
    obtain ⟨hstop, rfl⟩ := h
    exact .close (by simpa using hstop)
  case h_11 hp =>
    simp only [Option.ite_none_right_eq_some, Option.some.injEq] at h
    obtain ⟨hstop, rfl⟩ := h
    exact .closeReturns hp hstop
  case h_12 => cases h

/-- The invariant of every run. -/
structure Sound (s : TimescaleStore α) : Prop where
  series : ∀ kind, (s.series kind).Sound s.errorsCount
  draining : ∀ todo, s.processor = .flushing todo true → s.stopping = true
  closed : s.closed = true → s.stopping = true ∧ s.processor = .returned

theorem sound_init : Sound ({} : TimescaleStore α) where
  series := fun kind => by cases kind <;> exact ⟨rfl, Nat.zero_le _, fun _ _ h => (by cases h)⟩
  draining := fun _ h => (by cases h)
  closed := fun h => (by cases h)

theorem flushPhase_eq_draining {todo todo' : List SeriesKind} {last : Bool}
    (h : flushPhase todo last = .flushing todo' true) : last = true := by
  unfold flushPhase at h
  split at h
  · split at h <;> cases h
  · cases h
    rfl

theorem Sound.step (h : s.Sound) (hs : s.step batchSize e = some t) : t.Sound := by
  have hopen (hp : s.processor ≠ .returned) : s.closed ≠ true := fun hc => hp (h.closed hc).2
  cases Stepped.of_step hs with
  | save kind item =>
    refine ⟨forall_setSeries ⟨?_, ?_, (h.series kind).counted⟩ h.series, ?_, ?_⟩
    · simp [(h.series kind).order]
    · have := (h.series kind).before
      simp only [List.length_append]
      omega
    · exact h.draining
    · exact h.closed
  | bufferFull kind =>
    exact ⟨fun k => (h.series k).mono (Nat.le_succ _), h.draining, h.closed⟩
  | start hp =>
    exact ⟨h.series, fun _ hq => (by cases hq), fun hc => absurd hc (hopen (by simp [hp]))⟩
  | receive kind item rest processor hp hb hnext =>
    refine ⟨forall_setSeries ⟨?_, (h.series kind).before, (h.series kind).counted⟩ h.series, ?_, ?_⟩
    · simp [(h.series kind).order, hb]
    · intro todo hq
      cases hnext with
      | inl hn =>
        rw [hn] at hq
        cases hq
      | inr hn =>
        rw [hn] at hq
        cases hq
    · exact fun hc => absurd hc (hopen (by simp [hp]))
  | timer hp =>
    refine ⟨h.series, fun todo hq => ?_, fun hc => absurd hc (hopen (by simp [hp]))⟩
    cases flushPhase_eq_draining hq
  | stop hp hstop =>
    exact ⟨h.series, fun _ _ => hstop, fun hc => absurd hc (hopen (by simp [hp]))⟩
  | ctxDone hp =>
    exact ⟨h.series, fun _ hq => (by cases hq), fun hc => absurd hc (hopen (by simp [hp]))⟩
  | flush db kind todo last hp =>
    have hle : s.errorsCount ≤ ((s.series kind).flush s.errorsCount db).2 := by
      obtain ⟨_, _, _, hle, _⟩ := (s.series kind).flush_settles s.errorsCount db
      exact hle
    refine ⟨forall_setSeries ((h.series kind).flush db) fun k => (h.series k).mono hle, ?_, ?_⟩
    · intro todo' hq
      have hlast := flushPhase_eq_draining hq
      exact h.draining (kind :: todo) (by rw [hp, hlast])
    · exact fun hc => absurd hc (hopen (by simp [hp]))
  | cancel => exact ⟨h.series, h.draining, h.closed⟩
  | close hstop =>
    refine ⟨fun k => ?_, fun _ _ => rfl, fun hc => ⟨rfl, (h.closed hc).2⟩⟩
    cases k with
    | tick => exact ⟨(h.series .tick).order, Nat.le_refl _, (h.series .tick).counted⟩
    | candle => exact ⟨(h.series .candle).order, Nat.le_refl _, (h.series .candle).counted⟩
  | closeReturns hp hstop => exact ⟨h.series, h.draining, fun _ => ⟨hstop, hp⟩⟩

/-! ## What is left behind -/

/-- The processor takes items out of the channels, or will. -/
def Running (s : TimescaleStore α) : Prop :=
  s.processor ≠ .returned ∧ ∀ todo, s.processor ≠ .flushing todo true

/-- How many items of a series the processor will still settle. -/
def reach (s : TimescaleStore α) (kind : SeriesKind) : ℕ :=
  match s.processor with
  | .returned => 0
  | .flushing todo true => if kind ∈ todo then (s.series kind).batch.length else 0
  | _ => (s.series kind).batch.length + (s.series kind).buffer.length

/-- Nothing owed is out of reach. -/
def InReach (s : TimescaleStore α) : Prop :=
  ∀ kind, s.owed kind ≤ (s.series kind).settled.length + s.reach kind

theorem Sound.length (h : s.Sound) (kind : SeriesKind) :
    (s.series kind).accepted.length = (s.series kind).settled.length +
      (s.series kind).batch.length + (s.series kind).buffer.length := by
  rw [(h.series kind).order]
  simp only [List.length_append, List.length_map]

theorem Sound.owed_le (h : s.Sound) (kind : SeriesKind) :
    s.owed kind ≤ (s.series kind).accepted.length := by
  unfold owed
  split
  · exact (h.series kind).before
  · exact Nat.le_refl _

theorem reach_of_running (h : s.Running) (kind : SeriesKind) :
    s.reach kind = (s.series kind).batch.length + (s.series kind).buffer.length := by
  unfold reach
  split
  · exact absurd ‹_› h.1
  · exact absurd ‹_› (h.2 _)
  · rfl

/-- While the processor runs everything is in reach. -/
theorem Sound.inReach (h : s.Sound) (hrun : s.Running) : s.InReach := by
  intro kind
  have hle := h.owed_le kind
  have hlen := h.length kind
  rw [reach_of_running hrun]
  omega

theorem reach_of_returned (h : s.processor = .returned) (kind : SeriesKind) :
    s.reach kind = 0 := by
  rw [reach, h]

theorem reach_of_draining {todo : List SeriesKind} (h : s.processor = .flushing todo true)
    (kind : SeriesKind) :
    s.reach kind = if kind ∈ todo then (s.series kind).batch.length else 0 := by
  rw [reach, h]

/-- The reach of a processor about to do its last flushes. -/
theorem reach_of_flushPhase {todo : List SeriesKind} (h : s.processor = flushPhase todo true)
    (kind : SeriesKind) :
    s.reach kind = if kind ∈ todo then (s.series kind).batch.length else 0 := by
  cases todo with
  | nil => exact reach_of_returned h kind
  | cons first todo => exact reach_of_draining h kind

theorem running_flushPhase {todo : List SeriesKind} (h : s.processor = flushPhase todo false) :
    s.Running := by
  cases todo <;> exact ⟨by simp [h, flushPhase], by simp [h, flushPhase]⟩

theorem mem_toFlush : kind ∈ s.toFlush ↔ (s.series kind).batch.length > 0 := by
  cases kind <;> simp [toFlush]

/-! ## One step and what is in reach -/

/-- A step that owes as much as before and settles, or will settle, as much. -/
theorem inReach_congr (howed : ∀ kind, t.owed kind = s.owed kind)
    (hreach : ∀ kind, (t.series kind).settled.length + t.reach kind =
      (s.series kind).settled.length + s.reach kind) : t.InReach ↔ s.InReach := by
  simp only [InReach, howed, hreach]

/-- An item accepted after the processor returned is out of reach, unless
`Close` had been called. -/
theorem inReach_save_iff (h : s.Sound) (kind : SeriesKind) (item : α)
    (ht : t = s.setSeries kind { s.series kind with
      buffer := (s.series kind).buffer ++ [item]
      accepted := (s.series kind).accepted ++ [item] }) (htsound : t.Sound) :
    t.InReach ↔ s.InReach ∧ s.Kept (.save kind item) := by
  have hp : t.processor = s.processor := by rw [ht]; rfl
  have hstopping : t.stopping = s.stopping := by rw [ht]; rfl
  have hsame : ∀ k, (t.series k).settled = (s.series k).settled ∧
      (t.series k).batch = (s.series k).batch ∧
      (t.series k).savedBeforeClose = (s.series k).savedBeforeClose := by
    intro k
    rw [ht]
    by_cases hk : k = kind
    · subst hk
      rw [series_setSeries_self]
      exact ⟨rfl, rfl, rfl⟩
    · rw [series_setSeries_of_ne hk]
      exact ⟨rfl, rfl, rfl⟩
  by_cases hreturned : s.processor = .returned
  · cases hs : s.stopping with
    | true =>
      have hkept : s.Kept (.save kind item) := fun _ => hs
      rw [and_iff_left hkept]
      refine inReach_congr (fun k => ?_) fun k => ?_
      · simp only [owed, hstopping, hs, if_true, (hsame k).2.2]
      · rw [reach_of_returned hreturned, reach_of_returned (hp.trans hreturned), (hsame k).1]
    | false =>
      refine iff_of_false (fun hreach => ?_) (fun hkept => ?_)
      · -- nothing will settle the new item
        have hk := hreach kind
        have hlen := h.length kind
        have hacc : (t.series kind).accepted.length = (s.series kind).accepted.length + 1 := by
          rw [ht, series_setSeries_self, List.length_append]
          rfl
        rw [reach_of_returned (hp.trans hreturned), (hsame kind).1, owed, hstopping, hs,
          if_neg Bool.false_ne_true] at hk
        omega
      · rw [hkept.2 hreturned] at hs
        cases hs
  · have hkept : s.Kept (.save kind item) := fun hr => absurd hr hreturned
    rw [and_iff_left hkept]
    by_cases hrun : s.Running
    · exact iff_of_true (htsound.inReach ⟨hp ▸ hrun.1, hp ▸ hrun.2⟩) (h.inReach hrun)
    · obtain ⟨todo, htodo⟩ : ∃ todo, s.processor = .flushing todo true := by
        by_contra hno
        exact hrun ⟨hreturned, fun todo heq => hno ⟨todo, heq⟩⟩
      have hs := h.draining todo htodo
      refine inReach_congr (fun k => ?_) fun k => ?_
      · simp only [owed, hstopping, hs, if_true, (hsame k).2.2]
      · rw [reach_of_draining htodo, reach_of_draining (hp.trans htodo), (hsame k).1, (hsame k).2.1]

/-- The last flushes reach the batches, and not the channels. -/
theorem inReach_stop_iff (h : s.Sound) (hp : s.processor = .selecting)
    (ht : t = { s with processor := flushPhase s.toFlush true }) :
    t.InReach ↔ s.InReach ∧ s.Kept .stop := by
  have hrun : s.Running := ⟨by simp [hp], by simp [hp]⟩
  rw [and_iff_right (h.inReach hrun)]
  refine forall_congr' fun kind => ?_
  have hlen := h.length kind
  have hreach : t.reach kind = (s.series kind).batch.length := by
    rw [ht, reach_of_flushPhase rfl]
    split
    · rfl
    · rename_i hnot
      rw [mem_toFlush] at hnot
      show 0 = (s.series kind).batch.length
      omega
  have howed : t.owed kind = s.owed kind := by rw [ht]; rfl
  have hseries : t.series kind = s.series kind := by rw [ht]; rfl
  rw [hreach, howed, hseries]
  omega

/-- A cancelled context leaves the batches and the channels behind. -/
theorem inReach_ctxDone_iff (h : s.Sound) (hp : s.processor = .selecting)
    (ht : t = { s with processor := .returned }) : t.InReach ↔ s.InReach ∧ s.Kept .ctxDone := by
  have hrun : s.Running := ⟨by simp [hp], by simp [hp]⟩
  rw [and_iff_right (h.inReach hrun)]
  refine forall_congr' fun kind => ?_
  have hlen := h.length kind
  have hreach : t.reach kind = 0 := by rw [ht]; rfl
  have howed : t.owed kind = s.owed kind := by rw [ht]; rfl
  have hseries : t.series kind = s.series kind := by rw [ht]; rfl
  rw [hreach, howed, hseries]
  omega

/-- What a flush settles was in reach. -/
theorem inReach_flush_iff {db : TxnAnswers} {todo : List SeriesKind} {last : Bool} (h : s.Sound)
    (hp : s.processor = .flushing (kind :: todo) last)
    (ht : t = { s.setSeries kind ((s.series kind).flush s.errorsCount db).1 with
      errorsCount := ((s.series kind).flush s.errorsCount db).2
      processor := flushPhase todo last }) (htsound : t.Sound) : t.InReach ↔ s.InReach := by
  cases last with
  | false =>
    have htp : t.processor = flushPhase todo false := by rw [ht]
    exact iff_of_true (htsound.inReach (running_flushPhase htp))
      (h.inReach ⟨by simp [hp], by simp [hp]⟩)
  | true =>
    have htp : t.processor = flushPhase todo true := by rw [ht]
    obtain ⟨how, written, heq, -, -⟩ := (s.series kind).flush_settles s.errorsCount db
    have hself : t.series kind = ((s.series kind).flush s.errorsCount db).1 := by
      rw [ht]
      exact series_setSeries_self
    have hne : ∀ k, k ≠ kind → t.series k = s.series k := by
      intro k hk
      rw [ht]
      exact series_setSeries_of_ne hk
    refine inReach_congr (fun k => ?_) fun k => ?_
    · have hstopping : t.stopping = s.stopping := by rw [ht]; rfl
      by_cases hk : k = kind
      · subst hk
        simp only [owed, hstopping, hself, heq]
      · simp only [owed, hstopping, hne k hk]
    · rw [reach_of_flushPhase htp, reach_of_draining hp]
      by_cases hk : k = kind
      · subst hk
        simp [hself, heq]
      · simp [hne k hk, hk]

/-- **What one step owes** is that it is kept. -/
theorem inReach_step_iff (h : s.Sound) (hs : s.step batchSize e = some t) :
    t.InReach ↔ s.InReach ∧ s.Kept e := by
  have htsound := h.step hs
  cases Stepped.of_step hs with
  | save kind item => exact inReach_save_iff h kind item rfl htsound
  | bufferFull kind => exact (and_iff_left trivial).symm
  | start hp =>
    refine iff_of_true (htsound.inReach ⟨by simp, by simp⟩) ⟨h.inReach ?_, trivial⟩
    exact ⟨by simp [hp], by simp [hp]⟩
  | receive kind item rest processor hp hb hnext =>
    refine iff_of_true (htsound.inReach ?_) ⟨h.inReach ⟨by simp [hp], by simp [hp]⟩, trivial⟩
    cases hnext with
    | inl hn => exact ⟨by simp [hn], by simp [hn]⟩
    | inr hn => exact ⟨by simp [hn], by simp [hn]⟩
  | timer hp =>
    exact iff_of_true (htsound.inReach (running_flushPhase rfl))
      ⟨h.inReach ⟨by simp [hp], by simp [hp]⟩, trivial⟩
  | stop hp hstop => exact inReach_stop_iff h hp rfl
  | ctxDone hp => exact inReach_ctxDone_iff h hp rfl
  | flush db kind todo last hp =>
    exact (inReach_flush_iff h hp rfl htsound).trans (and_iff_left trivial).symm
  | cancel => exact (and_iff_left trivial).symm
  | close hstop =>
    refine Iff.trans (inReach_congr (fun k => ?_) fun k => ?_) (and_iff_left trivial).symm
    · cases k <;> simp [owed, hstop, series]
    · cases k <;> rfl
  | closeReturns hp hstop => exact (and_iff_left trivial).symm

/-! ## Whole runs -/

theorem inReach_init : ({} : TimescaleStore α).InReach := by
  intro kind
  cases kind <;> exact Nat.le_refl 0

/-- **When `Close` has returned nothing it owed is lost, exactly when every
step was kept.** -/
theorem lossless_iff (batchSize : ℕ) (es : List (StoreEvent α)) (s : TimescaleStore α)
    (h : exec (step batchSize) {} es = some s) (hclosed : s.closed = true) :
    s.Lossless ↔ Checked (step batchSize) Kept {} es := by
  have hsound : s.Sound :=
    (Run.of_exec h).invariant_state Sound sound_init fun _ _ _ hi _ hs => hi.step hs
  have hreach : s.InReach ↔ Checked (step batchSize) Kept {} es :=
    end_iff_checked Sound InReach sound_init inReach_init (fun _ _ _ hi hs => hi.step hs)
      (fun _ _ _ hi hs => inReach_step_iff hi hs) h
  obtain ⟨hstopping, hreturned⟩ := hsound.closed hclosed
  have howed : ∀ kind, s.owed kind = (s.series kind).savedBeforeClose := fun _ => if_pos hstopping
  rw [← hreach]
  refine ⟨fun hl kind => ?_, fun hr => ⟨fun kind => ?_, fun kind => (hsound.series kind).counted⟩⟩
  · rw [howed, reach_of_returned hreturned]
    exact (hsound.series kind).settled_iff.mp (hl.settled kind)
  · refine (hsound.series kind).settled_iff.mpr ?_
    have hk := hr kind
    rwa [howed, reach_of_returned hreturned] at hk

/-- One tick, taken out of the channel before `Close` is called. -/
theorem one_tick_lossless :
    ({ ticks := { written := 1, accepted := ["t"], settled := [("t", .inserted)],
                  savedBeforeClose := 1 }
       processor := .returned, stopping := true, closed := true } :
      TimescaleStore String).Lossless :=
  (lossless_iff 100 [.start, .save .tick "t", .receive .tick, .close, .stop, .flush {},
    .closeReturns] _ (by decide) rfl).mpr (by decide)

/-- One tick that is still in the channel: `Close` returns and it is
neither inserted nor counted. -/
theorem tick_left_in_channel :
    ∃ s, exec (step 100) {} [.start, .save .tick "t", .close, .stop, .closeReturns] = some s ∧
      s.closed = true ∧ ¬ s.Lossless := by
  refine ⟨_, rfl, rfl, fun h => ?_⟩
  exact absurd (h.settled .tick).length_le (by decide)

end TimescaleStore

end TdSandboxed
