/-
TdSandboxed.Backtesting.CampaignTheorems — a campaign fetches what one fetch
would, if the server sent everything at once (`scripts/fetch_campaign.py`,
`scripts/stitch_chunks_to_window.py`).

`Serves` is what the driver knows of the server: a reply goes back from the
anchor without a hole, and is a whole page unless it reaches the first bar
of the range. Then `Walk` holds at the head of the loop: all bars from the
anchor on are in chunks of this campaign, and each anchor but the last has
brought a page. A reply that makes no progress is one bar, so there is
nothing before it.

Chunks of an earlier campaign for the same window do no harm.
-/
import Mathlib
import TdSandboxed.Lib.Assoc
import TdSandboxed.Backtesting.FetchCampaign

namespace TdSandboxed

open Lib TvApi

/-! ## Rows -/

section

variable {ps qs : List Period} {p : Period} {r : BarRow}

theorem mem_convertPeriodsToBarRows :
    r ∈ convertPeriodsToBarRows ps ↔ ∃ p ∈ ps, p.toBarRow = r := by
  rw [convertPeriodsToBarRows, (List.mergeSort_perm _ _).mem_iff, List.mem_map]

theorem sortedBy_convertPeriodsToBarRows (h : (ps.map Period.time).Nodup) :
    SortedBy BarRow.time (convertPeriodsToBarRows ps) := by
  refine sortedBy_mergeSort ?_
  have htimes : (ps.map Period.toBarRow).map BarRow.time =
      (ps.map Period.time).map fun t => t * 1000 := by
    simp [Period.toBarRow]
  rw [htimes]
  exact h.map fun a b hab => by simpa using hab

theorem mem_times_iff {t : ℤ} :
    t ∈ (convertPeriodsToBarRows ps).map BarRow.time ↔ ∃ p ∈ ps, p.time * 1000 = t := by
  simp only [List.mem_map, mem_convertPeriodsToBarRows]
  constructor
  · rintro ⟨_, ⟨p, hp, rfl⟩, rfl⟩
    exact ⟨p, hp, rfl⟩
  · rintro ⟨p, hp, rfl⟩
    exact ⟨_, ⟨p, hp, rfl⟩, rfl⟩

/-- The first bar of a chunk. -/
theorem min?_times_eq_some {ms : ℤ} :
    ((convertPeriodsToBarRows ps).map BarRow.time).min? = some ms ↔
      ∃ p ∈ ps, ms = p.time * 1000 ∧ ∀ q ∈ ps, p.time ≤ q.time := by
  rw [List.min?_eq_some_iff, mem_times_iff]
  constructor
  · rintro ⟨⟨p, hp, rfl⟩, hleast⟩
    refine ⟨p, hp, rfl, fun q hq => ?_⟩
    have hle := hleast _ (mem_times_iff.mpr ⟨q, hq, rfl⟩)
    omega
  · rintro ⟨p, hp, rfl, hleast⟩
    refine ⟨⟨p, hp, rfl⟩, fun x hx => ?_⟩
    obtain ⟨q, hq, rfl⟩ := mem_times_iff.mp hx
    have hle := hleast q hq
    omega

end

/-! ## The server -/

/-- The bars of a range from some time on: a page of them, or all. -/
structure Page (history : List Period) (page : ℕ) (args : FetchArgs) (ps : List Period) : Prop where
  nodup : ps.Nodup
  tail : ∃ since, (∀ p, p ∈ ps ↔
      p ∈ history ∧ since ≤ p.time ∧ args.fromTs ≤ p.time ∧ p.time ≤ args.toTs) ∧
    (page ≤ ps.length ∨
      ∀ p ∈ history, args.fromTs ≤ p.time → p.time ≤ args.toTs → since ≤ p.time)

/-- What the server may reply. -/
def Serves (history : List Period) (page : ℕ) (args : FetchArgs) : FetchReply → Prop
  | .hangs => True
  | .fails stderr => saysZeroBars stderr = false
  | .periods ps => Page history page args ps

section

variable {history ps : List Period} {page : ℕ} {args : FetchArgs} {p q : Period}

theorem Page.mem (h : Page history page args ps) (hp : p ∈ ps) :
    p ∈ history ∧ args.fromTs ≤ p.time ∧ p.time ≤ args.toTs := by
  obtain ⟨since, hmem, -⟩ := h.tail
  obtain ⟨hhistory, -, hrange⟩ := (hmem p).mp hp
  exact ⟨hhistory, hrange⟩

/-- Without a hole up to the anchor. -/
theorem Page.mem_of_le (h : Page history page args ps) (hp : p ∈ ps) (hq : q ∈ history)
    (hle : p.time ≤ q.time) (hto : q.time ≤ args.toTs) : q ∈ ps := by
  obtain ⟨since, hmem, -⟩ := h.tail
  obtain ⟨-, hsince, hfrom, -⟩ := (hmem p).mp hp
  exact (hmem q).mpr ⟨hq, hsince.trans hle, hfrom.trans hle, hto⟩

theorem Page.length_or_all (h : Page history page args ps) :
    page ≤ ps.length ∨
      ∀ q ∈ history, args.fromTs ≤ q.time → q.time ≤ args.toTs → q ∈ ps := by
  obtain ⟨since, hmem, hlength⟩ := h.tail
  refine hlength.imp_right fun hall q hq hfrom hto => ?_
  exact (hmem q).mpr ⟨hq, hall q hq hfrom hto, hfrom, hto⟩

/-- Bars are told apart by their times. -/
theorem Page.eq_of_time (hdistinct : (history.map Period.time).Nodup)
    (h : Page history page args ps) (hp : p ∈ ps) (hq : q ∈ ps) (heq : p.time = q.time) : p = q :=
  List.inj_on_of_nodup_map hdistinct (h.mem hp).1 (h.mem hq).1 heq

theorem length_lt_two (hdistinct : (history.map Period.time).Nodup)
    (h : Page history page args ps) {t : ℤ} (ht : ∀ p ∈ ps, p.time = t) : ps.length < 2 := by
  match ps, h, ht with
  | [], _, _ => exact Nat.two_pos
  | [p], _, _ => exact Nat.one_lt_two
  | p :: q :: ps, h, ht =>
    have heq : p = q := h.eq_of_time hdistinct (by simp) (by simp)
      ((ht p (by simp)).trans (ht q (by simp)).symm)
    have hne := h.nodup
    simp [heq] at hne

/-- The driver knows an empty range by the text. -/
theorem saysZeroBars_append (rest : String) : saysZeroBars (zeroBarsError ++ rest) = true := by
  have hhead : "zero bars".toList <:+: zeroBarsError.toList.map Char.toLower := by decide +kernel
  have hsplit : (zeroBarsError ++ rest).toList.map Char.toLower =
      zeroBarsError.toList.map Char.toLower ++ rest.toList.map Char.toLower := by
    rw [String.toList_append, List.map_append]
  refine decide_eq_true ?_
  rw [hsplit]
  exact hhead.trans (List.prefix_append _ _).isInfix

/-- **One run of tv-cli**, with flags that pass. -/
theorem fetchAndWrite_cases (goTime : ℤ → String) (hargs : args.fromTs < args.toTs)
    (hpage : 0 < page) {reply : FetchReply} (hreply : Serves history page args reply) :
    match fetchAndWrite goTime args reply with
    | .timedOut => reply = .hangs
    | .failed stderr => (saysZeroBars stderr = false ∧ reply = .fails stderr) ∨
      saysZeroBars stderr = true ∧ ∀ q ∈ history, ¬(args.fromTs ≤ q.time ∧ q.time ≤ args.toTs)
    | .wrote rows => ∃ ps, rows = convertPeriodsToBarRows ps ∧ ps ≠ [] ∧
      Page history page args ps := by
  unfold fetchAndWrite
  rw [if_neg (not_not.mpr hargs)]
  cases reply with
  | hangs => rfl
  | fails stderr => exact .inl ⟨hreply, rfl⟩
  | periods ps =>
    dsimp only
    by_cases hnil : ps = []
    · rw [if_pos hnil]
      subst hnil
      refine .inr ⟨saysZeroBars_append _, fun q hq hrange => ?_⟩
      obtain hlength | hall := Page.length_or_all hreply
      · exact absurd hlength (not_le.mpr hpage)
      · exact absurd (hall q hq hrange.1 hrange.2) List.not_mem_nil
    · rw [if_neg hnil]
      exact ⟨ps, rfl, hnil, hreply⟩

end

/-- The bars of a window. -/
def windowPeriods (history : List Period) (w : FetchWindow) : List Period :=
  history.filter fun p => w.start ≤ p.time ∧ p.time ≤ w.stop

theorem mem_windowPeriods {history : List Period} {w : FetchWindow} {p : Period} :
    p ∈ windowPeriods history w ↔ p ∈ history ∧ w.start ≤ p.time ∧ p.time ≤ w.stop := by
  simp [windowPeriods]

/-! ## File names -/

theorem ofDigitChars_zeros (k : ℕ) (cs : List Char) :
    Nat.ofDigitChars 10 (List.replicate k '0' ++ cs) 0 = Nat.ofDigitChars 10 cs 0 := by
  induction k with
  | zero => rfl
  | succ k ih => simpa [List.replicate_succ, Nat.ofDigitChars_cons] using ih

/-- Each anchor has a file of its own. -/
theorem chunkName_inj {i j : ℕ} (h : chunkName i = chunkName j) : i = j := by
  have htext := congrArg String.toList h
  simp only [chunkName, String.toList_append, String.toList_ofList] at htext
  have hnumber := congrArg (Nat.ofDigitChars 10 · 0) (List.append_cancel_right htext)
  simpa only [ofDigitChars_zeros, Nat.ofDigitChars_ten_toDigits] using hnumber

namespace ShardSpec

variable {env : CampaignEnv} {spec : ShardSpec} {history : List Period} {page idx : ℕ}
  {anchor : ℤ} {prevMin : Option ℤ} {chunks : Chunks}

/-! ## The loop -/

/-- The rows of a chunk directory. -/
def Holds (chunks : Chunks) (r : BarRow) : Prop := ∃ rows ∈ chunks.values, r ∈ rows

/-- All bars of the window, and no others. -/
def Complete (history : List Period) (spec : ShardSpec) (chunks : Chunks) : Prop :=
  ∀ r, Holds chunks r ↔ r ∈ convertPeriodsToBarRows (windowPeriods history spec.window)

/-- The bars of the window after a time. -/
def later (history : List Period) (spec : ShardSpec) (t : ℤ) : ℕ :=
  (windowPeriods history spec.window).countP fun p => t < p.time

/-- The head of the loop, with the anchor in seconds. -/
structure Walk (history : List Period) (page : ℕ) (spec : ShardSpec) (idx : ℕ) (anchor : ℤ)
    (prevMin : Option ℤ) (chunks : Chunks) : Prop where
  start_lt : spec.window.start < anchor
  le_stop : anchor ≤ spec.window.stop
  prev : idx = 0 ∧ prevMin = none ∨ prevMin = some (anchor * 1000) ∧
    ∃ p ∈ windowPeriods history spec.window, p.time = anchor
  own : ∀ r, Holds chunks r → r ∈ convertPeriodsToBarRows (windowPeriods history spec.window)
  covered : ∀ p ∈ windowPeriods history spec.window, anchor < p.time ∨ 0 < idx ∧ anchor = p.time →
    ∃ j < idx, ∃ rows, chunks.get? (chunkName j) = some rows ∧ p.toBarRow ∈ rows
  deep : idx * (page - 1) ≤ later history spec anchor ∨
    (idx - 1) * (page - 1) ≤ later history spec anchor ∧
      ∀ p ∈ windowPeriods history spec.window, anchor ≤ p.time

/-! ## What a chunk adds -/

theorem holds_iff {r : BarRow} :
    Holds chunks r ↔ ∃ name rows, chunks.get? name = some rows ∧ r ∈ rows := by
  simp only [Holds, OrderedDict.mem_values_iff]
  constructor
  · rintro ⟨rows, ⟨name, hname⟩, hr⟩
    exact ⟨name, rows, hname, hr⟩
  · rintro ⟨name, rows, hname, hr⟩
    exact ⟨rows, ⟨name, hname⟩, hr⟩

variable {ps : List Period} {tvTf : String}

theorem toTs_args (spec : ShardSpec) (tvTf : String) (anchor : ℤ) :
    (spec.args tvTf (anchor * 1000)).toTs = anchor :=
  Int.mul_ediv_cancel anchor (by decide)

theorem Walk.mem_window (h : Walk history page spec idx anchor prevMin chunks)
    (hps : Page history page (spec.args tvTf (anchor * 1000)) ps) {p : Period} (hp : p ∈ ps) :
    p ∈ windowPeriods history spec.window ∧ p.time ≤ anchor := by
  obtain ⟨hhistory, hfrom, hto⟩ := hps.mem hp
  rw [toTs_args] at hto
  exact ⟨mem_windowPeriods.mpr ⟨hhistory, hfrom, hto.trans h.le_stop⟩, hto⟩

theorem Walk.own_set (h : Walk history page spec idx anchor prevMin chunks)
    (hps : Page history page (spec.args tvTf (anchor * 1000)) ps) (r : BarRow)
    (hr : Holds (chunks.set (chunkName idx) (convertPeriodsToBarRows ps)) r) :
    r ∈ convertPeriodsToBarRows (windowPeriods history spec.window) := by
  obtain ⟨name, rows, hname, hr⟩ := holds_iff.mp hr
  rw [OrderedDict.get?_set] at hname
  split at hname
  · obtain rfl := Option.some.inj hname
    obtain ⟨p, hp, rfl⟩ := mem_convertPeriodsToBarRows.mp hr
    exact mem_convertPeriodsToBarRows.mpr ⟨p, (h.mem_window hps hp).1, rfl⟩
  · exact h.own r (holds_iff.mpr ⟨name, rows, hname, hr⟩)

/-- The new chunk, and those before it. -/
theorem Walk.covered_set (h : Walk history page spec idx anchor prevMin chunks) {p : Period}
    (hp : p ∈ windowPeriods history spec.window)
    (hwhere : p ∈ ps ∨ anchor < p.time ∨ 0 < idx ∧ anchor = p.time) :
    ∃ j < idx + 1, ∃ rows,
      (chunks.set (chunkName idx) (convertPeriodsToBarRows ps)).get? (chunkName j) = some rows ∧
        p.toBarRow ∈ rows := by
  obtain hnew | hold := hwhere
  · refine ⟨idx, idx.lt_succ_self, convertPeriodsToBarRows ps, ?_, ?_⟩
    · rw [OrderedDict.get?_set, if_pos rfl]
    · exact mem_convertPeriodsToBarRows.mpr ⟨p, hnew, rfl⟩
  · obtain ⟨j, hj, rows, hget, hrow⟩ := h.covered p hp hold
    refine ⟨j, hj.trans idx.lt_succ_self, rows, ?_, hrow⟩
    have hne : chunkName j ≠ chunkName idx := fun hname => hj.ne (chunkName_inj hname)
    rw [OrderedDict.get?_set, if_neg hne, hget]

theorem Walk.complete_set (h : Walk history page spec idx anchor prevMin chunks)
    (hps : Page history page (spec.args tvTf (anchor * 1000)) ps)
    (hall : ∀ p ∈ windowPeriods history spec.window,
      p ∈ ps ∨ anchor < p.time ∨ 0 < idx ∧ anchor = p.time) :
    Complete history spec (chunks.set (chunkName idx) (convertPeriodsToBarRows ps)) := by
  refine fun r => ⟨h.own_set hps r, fun hr => ?_⟩
  obtain ⟨p, hp, rfl⟩ := mem_convertPeriodsToBarRows.mp hr
  obtain ⟨j, -, rows, hget, hrow⟩ := h.covered_set hp (hall p hp)
  exact holds_iff.mpr ⟨_, rows, hget, hrow⟩

/-- The server has nothing before the anchor. -/
theorem Walk.complete_of_none (h : Walk history page spec idx anchor prevMin chunks)
    (hnone : ∀ p ∈ history, ¬(spec.window.start ≤ p.time ∧ p.time ≤ anchor)) :
    Complete history spec chunks := by
  refine fun r => ⟨h.own r, fun hr => ?_⟩
  obtain ⟨p, hp, rfl⟩ := mem_convertPeriodsToBarRows.mp hr
  obtain ⟨hhistory, hstart, -⟩ := mem_windowPeriods.mp hp
  have hlate : anchor < p.time := by
    by_contra hle
    exact hnone p hhistory ⟨hstart, not_lt.mp hle⟩
  obtain ⟨j, -, rows, hget, hrow⟩ := h.covered p hp (.inl hlate)
  exact holds_iff.mpr ⟨_, rows, hget, hrow⟩

/-! ## How a chunk ends the walk, or goes on -/

variable {m : Period}

/-- The start of the window. -/
theorem Walk.complete_of_reached (h : Walk history page spec idx anchor prevMin chunks)
    (hps : Page history page (spec.args tvTf (anchor * 1000)) ps) (hm : m ∈ ps)
    (hreached : m.time ≤ spec.window.start) :
    Complete history spec (chunks.set (chunkName idx) (convertPeriodsToBarRows ps)) := by
  refine h.complete_set hps fun p hp => ?_
  obtain ⟨hhistory, hstart, -⟩ := mem_windowPeriods.mp hp
  obtain hle | hlt := le_or_gt p.time anchor
  · exact .inl (hps.mem_of_le hm hhistory (hreached.trans hstart)
      (hle.trans_eq (toTs_args spec tvTf anchor).symm))
  · exact .inr (.inl hlt)

/-- No progress: the chunk is one bar, and the server has no other. -/
theorem Walk.complete_of_stuck (hdistinct : (history.map Period.time).Nodup) (hpage : 2 ≤ page)
    (h : Walk history page spec idx anchor prevMin chunks)
    (hps : Page history page (spec.args tvTf (anchor * 1000)) ps)
    (hleast : ∀ p ∈ ps, anchor ≤ p.time) :
    Complete history spec (chunks.set (chunkName idx) (convertPeriodsToBarRows ps)) := by
  have hone : ps.length < 2 := by
    refine length_lt_two hdistinct hps (t := anchor) fun p hp => ?_
    exact le_antisymm (h.mem_window hps hp).2 (hleast p hp)
  have hall := hps.length_or_all.resolve_left (by omega)
  refine h.complete_set hps fun p hp => ?_
  obtain ⟨hhistory, hstart, -⟩ := mem_windowPeriods.mp hp
  obtain hle | hlt := le_or_gt p.time anchor
  · exact .inl (hall p hhistory hstart (hle.trans_eq (toTs_args spec tvTf anchor).symm))
  · exact .inr (.inl hlt)

/-- A chunk adds its bars, all but the first of them. -/
theorem Walk.later_add_le (hdistinct : (history.map Period.time).Nodup)
    (h : Walk history page spec idx anchor prevMin chunks)
    (hps : Page history page (spec.args tvTf (anchor * 1000)) ps) (hm : m ∈ ps)
    (hleast : ∀ p ∈ ps, m.time ≤ p.time) :
    later history spec anchor + (ps.length - 1) ≤ later history spec m.time := by
  have hnodup : (windowPeriods history spec.window).Nodup := hdistinct.of_map.filter _
  have hnew : ∀ p ∈ ps.erase m,
      p ∈ windowPeriods history spec.window ∧ m.time < p.time ∧ p.time ≤ anchor := by
    intro p hp
    obtain ⟨hne, hp⟩ := hps.nodup.mem_erase_iff.mp hp
    obtain ⟨hwindow, hle⟩ := h.mem_window hps hp
    have htime : m.time ≠ p.time := fun heq => hne (hps.eq_of_time hdistinct hp hm heq.symm)
    exact ⟨hwindow, lt_of_le_of_ne (hleast p hp) htime, hle⟩
  have hdisjoint : (ps.erase m ++
      (windowPeriods history spec.window).filter fun p => anchor < p.time).Nodup := by
    refine List.nodup_append'.mpr ⟨hps.nodup.erase m, hnodup.filter _, fun p hp hp' => ?_⟩
    have hlt : anchor < p.time := by simpa using (List.mem_filter.mp hp').2
    exact absurd (hnew p hp).2.2 (not_le.mpr hlt)
  have hsubset : (ps.erase m ++
      (windowPeriods history spec.window).filter fun p => anchor < p.time) ⊆
      (windowPeriods history spec.window).filter fun p => m.time < p.time := by
    intro p hp
    rw [List.mem_filter, decide_eq_true_eq]
    obtain hp | hp := List.mem_append.mp hp
    · exact ⟨(hnew p hp).1, (hnew p hp).2.1⟩
    · obtain ⟨hwindow, hlt⟩ := List.mem_filter.mp hp
      exact ⟨hwindow, (h.mem_window hps hm).2.trans_lt (of_decide_eq_true hlt)⟩
  have hlength := (hdisjoint.subperm hsubset).length_le
  rw [List.length_append, List.length_erase_of_mem hm] at hlength
  rw [later, later, List.countP_eq_length_filter, List.countP_eq_length_filter]
  omega

/-- **The walk goes on** from the first bar of the chunk. -/
theorem Walk.next (hdistinct : (history.map Period.time).Nodup)
    (h : Walk history page spec idx anchor prevMin chunks)
    (hps : Page history page (spec.args tvTf (anchor * 1000)) ps) (hm : m ∈ ps)
    (hleast : ∀ p ∈ ps, m.time ≤ p.time) (hstart : spec.window.start < m.time)
    (hprogress : idx = 0 ∨ m.time < anchor) :
    Walk history page spec (idx + 1) m.time (some (m.time * 1000))
      (chunks.set (chunkName idx) (convertPeriodsToBarRows ps)) := by
  obtain ⟨-, hm_le⟩ := h.mem_window hps hm
  have hcases : ∀ p ∈ windowPeriods history spec.window, m.time ≤ p.time →
      p ∈ ps ∨ anchor < p.time := by
    intro p hp hle
    obtain hp_le | hlt := le_or_gt p.time anchor
    · exact .inl (hps.mem_of_le hm (mem_windowPeriods.mp hp).1 hle
        (hp_le.trans_eq (toTs_args spec tvTf anchor).symm))
    · exact .inr hlt
  have hdeep : idx * (page - 1) ≤ later history spec anchor := by
    obtain hdeep | ⟨hdeep, hnone⟩ := h.deep
    · exact hdeep
    · obtain rfl | hlt := hprogress
      · simp
      · exact absurd (hnone m (h.mem_window hps hm).1) (not_le.mpr hlt)
  have hgrows := h.later_add_le hdistinct hps hm hleast
  refine ⟨hstart, hm_le.trans h.le_stop, .inr ⟨rfl, m, (h.mem_window hps hm).1, rfl⟩,
    h.own_set hps, fun p hp hwhere => ?_, ?_⟩
  · have hle : m.time ≤ p.time := hwhere.elim le_of_lt fun hwhere => hwhere.2.le
    exact h.covered_set hp ((hcases p hp hle).imp_right .inl)
  · obtain hlength | hall := hps.length_or_all
    · left
      have hmul : (idx + 1) * (page - 1) = idx * (page - 1) + (page - 1) := Nat.succ_mul ..
      omega
    · right
      refine ⟨by rw [Nat.add_sub_cancel]; omega, fun p hp => ?_⟩
      obtain ⟨hhistory, hfrom, -⟩ := mem_windowPeriods.mp hp
      obtain hle | hlt := le_or_gt p.time anchor
      · exact hleast p (hall p hhistory hfrom (hle.trans_eq (toTs_args spec tvTf anchor).symm))
      · exact hm_le.trans hlt.le

/-! ## The loop -/

/-- How the loop ends: with all bars, with a run that failed, or after more
anchors than so few bars need. -/
def LoopEnds (env : CampaignEnv) (history : List Period) (page : ℕ) (spec : ShardSpec) :
    Except CampaignError Chunks → Prop
  | .ok chunks => Complete history spec chunks
  | .error (.timedOut idx _) => ∃ args, env.reply idx args = .hangs
  | .error (.cliFailed idx) => ∃ args stderr, env.reply idx args = .fails stderr
  | .error .exceededAnchors =>
    (maxAnchors - 1) * (page - 1) < (windowPeriods history spec.window).length
  | .error _ => False

theorem Walk.exceeded (h : Walk history page spec maxAnchors anchor prevMin chunks) :
    (maxAnchors - 1) * (page - 1) < (windowPeriods history spec.window).length := by
  obtain ⟨hzero, -⟩ | ⟨-, p, hp, hanchor⟩ := h.prev
  · cases hzero
  have hlater : later history spec anchor < (windowPeriods history spec.window).length := by
    refine lt_of_le_of_ne List.countP_le_length fun heq => ?_
    have hlt := of_decide_eq_true (List.countP_eq_length.mp heq p hp)
    exact hlt.ne' hanchor
  refine lt_of_le_of_lt ?_ hlater
  obtain hdeep | ⟨hdeep, -⟩ := h.deep
  · exact (Nat.mul_le_mul_right _ (Nat.sub_le _ 1)).trans hdeep
  · exact hdeep

theorem fetchChunks_ends (hdistinct : (history.map Period.time).Nodup) (hpage : 2 ≤ page)
    (hserves : ∀ idx args, Serves history page args (env.reply idx args)) (tvTf : String)
    (left : ℕ) (h : Walk history page spec idx anchor prevMin chunks)
    (hidx : idx + left = maxAnchors) :
    LoopEnds env history page spec
      (fetchChunks env spec tvTf left idx (anchor * 1000) prevMin chunks) := by
  induction left generalizing idx anchor prevMin chunks with
  | zero =>
    obtain rfl : idx = maxAnchors := hidx
    exact h.exceeded
  | succ left ih =>
    have hargs : (spec.args tvTf (anchor * 1000)).fromTs < (spec.args tvTf (anchor * 1000)).toTs :=
      h.start_lt.trans_eq (toTs_args spec tvTf anchor).symm
    have hcases := fetchAndWrite_cases env.goTime hargs (by omega) (hserves idx _)
    rw [fetchChunks]
    dsimp only
    cases hrun : fetchAndWrite env.goTime (spec.args tvTf (anchor * 1000))
        (env.reply idx (spec.args tvTf (anchor * 1000))) with
    | timedOut =>
      rw [hrun] at hcases
      exact ⟨_, hcases⟩
    | failed stderr =>
      rw [hrun] at hcases
      obtain ⟨hmessage, hreply⟩ | ⟨hmessage, hnone⟩ := hcases
      · simp only [hmessage, Bool.false_eq_true, if_false]
        exact ⟨_, stderr, hreply⟩
      · simp only [hmessage, if_true]
        refine h.complete_of_none fun p hp hrange => hnone p hp ?_
        exact ⟨hrange.1, hrange.2.trans_eq (toTs_args spec tvTf anchor).symm⟩
    | wrote rows =>
      rw [hrun] at hcases
      obtain ⟨ps, rfl, hne, hps⟩ := hcases
      dsimp only
      cases hmin : ((convertPeriodsToBarRows ps).map BarRow.time).min? with
      | none =>
        obtain ⟨p, hp⟩ := List.exists_mem_of_ne_nil ps hne
        have hrow : p.toBarRow ∈ convertPeriodsToBarRows ps :=
          mem_convertPeriodsToBarRows.mpr ⟨p, hp, rfl⟩
        rw [List.min?_eq_none_iff, List.map_eq_nil_iff] at hmin
        rw [hmin] at hrow
        cases hrow
      | some minTime =>
        obtain ⟨m, hm, rfl, hleast⟩ := min?_times_eq_some.mp hmin
        dsimp only
        by_cases hreached : m.time ≤ spec.window.start
        · rw [if_pos (.inl (by omega))]
          exact h.complete_of_reached hps hm hreached
        obtain ⟨hzero, hprev⟩ | ⟨hprev, -⟩ := h.prev
        · rw [if_neg (by simp [hprev]; omega)]
          exact ih (h.next hdistinct hps hm hleast (not_le.mp hreached) (.inl hzero)) (by omega)
        · by_cases hstuck : anchor ≤ m.time
          · rw [if_pos (.inr (by simpa [hprev] using hstuck))]
            exact h.complete_of_stuck hdistinct hpage hps fun p hp => hstuck.trans (hleast p hp)
          · rw [if_neg (by simp [hprev]; omega)]
            exact ih (h.next hdistinct hps hm hleast (not_le.mp hreached)
              (.inr (not_le.mp hstuck))) (by omega)

/-! ## Stitching -/

theorem mem_files_iff {r : BarRow} :
    r ∈ (chunks.items.mergeSort fun a b => a.1 ≤ b.1).flatMap Prod.snd ↔ Holds chunks r := by
  simp only [List.mem_flatMap, (List.mergeSort_perm _ _).mem_iff, Holds, OrderedDict.values,
    List.mem_map]
  exact ⟨fun ⟨file, hfile, hr⟩ => ⟨file.2, ⟨file, hfile, rfl⟩, hr⟩,
    fun ⟨_, ⟨file, hfile, hrows⟩, hr⟩ => ⟨file, hfile, hrows ▸ hr⟩⟩

/-- **One shard.** Overlaps and the order of the files leave no trace. -/
theorem loadAndDedupe_eq (hdistinct : (history.map Period.time).Nodup)
    (h : Complete history spec chunks) :
    loadAndDedupe chunks = convertPeriodsToBarRows (windowPeriods history spec.window) := by
  have htimes : ((windowPeriods history spec.window).map Period.time).Nodup :=
    hdistinct.sublist (List.filter_sublist.map _)
  have hone : ∀ r, Holds chunks r → ∀ r', Holds chunks r' → r.time = r'.time → r = r' := by
    intro r hr r' hr' heq
    obtain ⟨p, hp, rfl⟩ := mem_convertPeriodsToBarRows.mp ((h r).mp hr)
    obtain ⟨q, hq, rfl⟩ := mem_convertPeriodsToBarRows.mp ((h r').mp hr')
    have hpq : p.time = q.time := by simpa [Period.toBarRow] using heq
    rw [List.inj_on_of_nodup_map htimes hp hq hpq]
  refine eq_of_sortedBy (sortedBy_mergeSort (keys_keepFirst _ _).1)
    (sortedBy_convertPeriodsToBarRows htimes) fun r => ?_
  have hmem : r ∈ loadAndDedupe chunks ↔ r ∈ keepFirst BarRow.time
      ((chunks.items.mergeSort fun a b => a.1 ≤ b.1).flatMap Prod.snd) :=
    (List.mergeSort_perm _ _).mem_iff
  rw [hmem, mem_keepFirst_of_inj, mem_files_iff, h r]
  exact fun r hr r' hr' => hone r (mem_files_iff.mp hr) r' (mem_files_iff.mp hr')

/-- **Gaps**: all neighbours that are far apart, and nothing else. -/
theorem mem_detectGaps_iff {maxGapHours : Option Float64} {times : List ℤ} (h : times.Nodup)
    {x y : ℤ} :
    (x, y) ∈ detectGaps maxGapHours times ↔
      (x ∈ times ∧ y ∈ times ∧ x < y ∧ ∀ z ∈ times, ¬(x < z ∧ z < y)) ∧
        exceedsGap maxGapHours (y - x) = true := by
  have hsorted : SortedBy id (times.mergeSort fun a b => a ≤ b) :=
    sortedBy_mergeSort (by rwa [List.map_id])
  rw [detectGaps, List.mem_filter, mem_neighbours_iff hsorted]
  simp only [(List.mergeSort_perm times _).mem_iff]

/-- Whole seconds are compared as they are. -/
theorem exceedsGap_iff {maxGapHours : Option Float64} {s : ℤ} (hs : 0 ≤ s) (hlt : s < 2 ^ 53) :
    exceedsGap maxGapHours (s * 1000) = true ↔
      ∃ threshold ∈ thresholdSeconds maxGapHours, threshold < s := by
  obtain ⟨n, rfl⟩ := Int.eq_ofNat_of_zero_le hs
  have hdelta : roundFloat64 (((n * 1000 : ℤ) : ℚ) / 1000) = some (n : ℚ) := by
    rw [← roundFloat64_of_lt (n := n) (by exact_mod_cast hlt)]
    congr 1
    push_cast
    ring
  unfold exceedsGap
  cases thresholdSeconds maxGapHours with
  | none => simp
  | some threshold =>
    dsimp only
    rw [hdelta]
    simp

/-- The bars of a window are far less than `2 ^ 53` seconds apart. -/
theorem exceedsGap_window_iff {maxGapHours : Option Float64} {w : FetchWindow} {x y : ℤ}
    (hx : x ∈ (convertPeriodsToBarRows (windowPeriods history w)).map BarRow.time)
    (hy : y ∈ (convertPeriodsToBarRows (windowPeriods history w)).map BarRow.time) (hxy : x < y) :
    exceedsGap maxGapHours (y - x) = true ↔
      ∃ threshold ∈ thresholdSeconds maxGapHours, threshold * 1000 < y - x := by
  obtain ⟨p, hp, rfl⟩ := mem_times_iff.mp hx
  obtain ⟨q, hq, rfl⟩ := mem_times_iff.mp hy
  obtain ⟨-, hs, -⟩ := mem_windowPeriods.mp hp
  obtain ⟨-, -, ht⟩ := mem_windowPeriods.mp hq
  have hstart := w.start_ge
  have hstop := w.stop_le
  rw [← sub_mul, exceedsGap_iff (by omega) (by omega)]
  refine exists_congr fun threshold => and_congr_right fun _ => ?_
  push_cast
  rw [← sub_mul]
  exact (mul_lt_mul_iff_left₀ (by norm_num : (0 : ℚ) < 1000)).symm

/-! ## A campaign -/

/-- How a campaign ends. -/
def CampaignEnds (env : CampaignEnv) (history : List Period) (page : ℕ) (spec : ShardSpec) :
    Except CampaignError Shard → Prop
  | .ok shard =>
    shard.rows = convertPeriodsToBarRows (windowPeriods history spec.window) ∧
      shard.fingerprint.rowCount = shard.rows.length ∧
      (∃ first ∈ shard.rows, shard.fingerprint.minTs = first.time * 1000000) ∧
      (∃ last ∈ shard.rows, shard.fingerprint.maxTs = last.time * 1000000) ∧
      (∀ r ∈ shard.rows, shard.fingerprint.minTs ≤ r.time * 1000000 ∧
        r.time * 1000000 ≤ shard.fingerprint.maxTs) ∧
      ∀ x y, (x, y) ∈ shard.gaps ↔
        (x ∈ shard.rows.map BarRow.time ∧ y ∈ shard.rows.map BarRow.time ∧ x < y ∧
          ∀ z ∈ shard.rows.map BarRow.time, ¬(x < z ∧ z < y)) ∧
        ∃ threshold ∈ thresholdSeconds spec.maxGapHours, threshold * 1000 < y - x
  | .error .unsupportedTimeframe => tvTimeframe spec.tfLabel = none
  | .error (.timedOut idx _) => ∃ args, env.reply idx args = .hangs
  | .error (.cliFailed idx) => ∃ args stderr, env.reply idx args = .fails stderr
  | .error .emptyChunk => False
  | .error .exceededAnchors =>
    (maxAnchors - 1) * (page - 1) < (windowPeriods history spec.window).length
  | .error .noShards | .error .emptyFrame => windowPeriods history spec.window = []

theorem convertPeriodsToBarRows_eq_nil {ps : List Period} (h : convertPeriodsToBarRows ps = []) :
    ps = [] := by
  refine List.eq_nil_iff_forall_not_mem.mpr fun p hp => ?_
  have hrow := mem_convertPeriodsToBarRows.mpr ⟨p, hp, rfl⟩
  rw [h] at hrow
  cases hrow

theorem stitch_ends (hdistinct : (history.map Period.time).Nodup)
    (h : Complete history spec chunks) :
    CampaignEnds env history page spec (stitch spec chunks) := by
  unfold stitch
  by_cases hnil : chunks.items = []
  · rw [if_pos hnil]
    refine convertPeriodsToBarRows_eq_nil (List.eq_nil_iff_forall_not_mem.mpr fun r hr => ?_)
    obtain ⟨rows, hrows, -⟩ := (h r).mpr hr
    simp [OrderedDict.values, hnil] at hrows
  have hrows := loadAndDedupe_eq hdistinct h
  have htimes : ((windowPeriods history spec.window).map Period.time).Nodup :=
    hdistinct.sublist (List.filter_sublist.map _)
  have hsorted := sortedBy_convertPeriodsToBarRows htimes
  rw [if_neg hnil, buildEntry, hrows]
  cases hlast : (convertPeriodsToBarRows (windowPeriods history spec.window)).getLast? with
  | none =>
    have hempty := List.getLast?_eq_none_iff.mp hlast
    rw [hempty]
    exact convertPeriodsToBarRows_eq_nil hempty
  | some last =>
    cases hrows' : convertPeriodsToBarRows (windowPeriods history spec.window) with
    | nil =>
      rw [hrows'] at hlast
      cases hlast
    | cons first rows =>
      rw [hrows'] at hsorted hlast
      have hmem := List.mem_of_getLast? hlast
      refine ⟨hrows'.symm, rfl, ⟨first, by simp, rfl⟩, ⟨last, hmem, rfl⟩, fun r hr => ?_, ?_⟩
      · have hfirst := hsorted.head_le hr
        have hle := hsorted.le_getLast hlast hr
        exact ⟨by dsimp only; omega, by dsimp only; omega⟩
      · intro x y
        dsimp only
        rw [mem_detectGaps_iff (List.pairwise_map.mpr (hsorted.imp fun hlt => hlt.ne)), ← hrows']
        exact and_congr_right fun h => exceedsGap_window_iff h.1 h.2.1 h.2.2.1

/-- **A campaign fetches the window.** Where the server replies without
holes and a page at a time, the shard is what one fetch of all bars would
be, whatever an earlier campaign has left: overlaps of the chunks, the order
of their files and the way the walk ended leave no trace. Its gaps are those
of the history. A campaign without a shard is for a timeframe that it does
not know, has had a run that failed, needs more anchors than it may have, or
has no bars to fetch. -/
theorem campaign_fetches_window (hdistinct : (history.map Period.time).Nodup) (hpage : 2 ≤ page)
    (hserves : ∀ idx args, Serves history page args (env.reply idx args))
    (hearlier : ∀ rows ∈ chunks.values, ∀ r ∈ rows,
      r ∈ convertPeriodsToBarRows (windowPeriods history spec.window)) :
    CampaignEnds env history page spec (fetchShard env spec chunks) := by
  unfold fetchShard
  cases htimeframe : tvTimeframe spec.tfLabel with
  | none => exact htimeframe
  | some tvTf =>
    have hwalk : Walk history page spec 0 spec.window.stop none chunks := by
      refine ⟨spec.window.start_lt, le_rfl, .inl ⟨rfl, rfl⟩, fun r ⟨rows, hrows, hr⟩ =>
        hearlier rows hrows r hr, fun p hp hwhere => ?_, .inl (by simp)⟩
      have hle := (mem_windowPeriods.mp hp).2.2
      omega
    have hloop := fetchChunks_ends hdistinct hpage hserves tvTf maxAnchors hwalk (Nat.zero_add _)
    dsimp only
    cases hrun : fetchChunks env spec tvTf maxAnchors 0 (spec.window.stop * 1000) none chunks with
    | ok chunks' =>
      rw [hrun] at hloop
      exact stitch_ends hdistinct hloop
    | error e =>
      rw [hrun] at hloop
      cases e with
      | unsupportedTimeframe | noShards | emptyFrame => exact hloop.elim
      | _ => exact hloop

end ShardSpec

/-! ## A server with pages -/

/-- The newest bars of a range, a page of them. -/
def newestBars (history : List Period) (page : ℕ) (args : FetchArgs) : List Period :=
  let ps := history.filter fun p => args.fromTs ≤ p.time ∧ p.time ≤ args.toTs
  ps.drop (ps.length - page)

theorem serves_newestBars {history : List Period} {page : ℕ} (h : SortedBy Period.time history)
    (hpage : 0 < page) (args : FetchArgs) :
    Serves history page args (.periods (newestBars history page args)) := by
  set ps := history.filter fun p => args.fromTs ≤ p.time ∧ p.time ≤ args.toTs with hps
  have hsorted : SortedBy Period.time ps := List.Pairwise.filter _ h
  have hmem : ∀ p, p ∈ ps ↔ p ∈ history ∧ args.fromTs ≤ p.time ∧ p.time ≤ args.toTs := by
    simp [hps]
  have hnodup : ps.Nodup := hsorted.imp fun hlt heq => (heq ▸ hlt).false
  refine ⟨hnodup.sublist (List.drop_sublist _ _), ?_⟩
  change ∃ since, (∀ p, p ∈ ps.drop (ps.length - page) ↔ _) ∧
    (page ≤ (ps.drop (ps.length - page)).length ∨ _)
  obtain hlong | hshort := le_total page ps.length
  · have hsplit := List.take_append_drop (ps.length - page) ps
    have hlength : (ps.drop (ps.length - page)).length = page := by
      rw [List.length_drop]
      omega
    cases hdrop : ps.drop (ps.length - page) with
    | nil =>
      rw [hdrop] at hlength
      exact absurd hlength hpage.ne
    | cons first rest =>
      rw [hdrop] at hsplit hlength
      rw [← hsplit] at hsorted
      obtain ⟨-, hlater, hbefore⟩ := List.pairwise_append.mp hsorted
      refine ⟨first.time, fun p => ⟨fun hp => ?_, fun ⟨hhistory, hle, hrange⟩ => ?_⟩,
        .inl hlength.ge⟩
      · have hall : p ∈ ps := hsplit ▸ List.mem_append_right _ hp
        exact ⟨((hmem p).mp hall).1, SortedBy.head_le hlater hp, ((hmem p).mp hall).2⟩
      · have hall : p ∈ ps := (hmem p).mpr ⟨hhistory, hrange⟩
        rw [← hsplit] at hall
        refine (List.mem_append.mp hall).resolve_left fun hp => ?_
        exact absurd hle (not_le.mpr (hbefore p hp first (by simp)))
  · rw [Nat.sub_eq_zero_of_le hshort, List.drop_zero]
    refine ⟨args.fromTs, fun p => ?_, .inr fun p _ hfrom _ => hfrom⟩
    rw [hmem]
    tauto

/-- A bar without movement. -/
def flatPeriod (time : ℤ) : Period :=
  { time, openPrice := Float64.zero, close := Float64.zero, high := Float64.zero
    low := Float64.zero, volume := Float64.zero }

/-- Bars at the full hours, with a night between the third and the fourth. -/
def fourHours : List Period := [3600, 7200, 10800, 36000].map flatPeriod

def pagedEnv : CampaignEnv where
  reply _ args := .periods (newestBars fourHours 2 args)
  goTime _ := ""

/-- A gap is more than four hours. -/
def hourSpec : ShardSpec where
  symbol := "XAUUSD"
  tfLabel := "H1"
  window := { name := "in_sample", start := 3600, stop := 36000, start_lt := by decide
              start_ge := by decide, stop_le := by decide }
  maxGapHours := some ⟨false, 4, by decide, by decide +kernel⟩
  maxGap_pos := by simp

namespace ShardSpec

theorem campaign_fetches_window_pages : ∃ shard, fetchShard pagedEnv hourSpec .empty = .ok shard ∧
    shard.rows = convertPeriodsToBarRows fourHours ∧ (10800000, 36000000) ∈ shard.gaps := by
  have hsorted : SortedBy Period.time fourHours := by simp [SortedBy, fourHours, flatPeriod]
  have hends : CampaignEnds pagedEnv fourHours 2 hourSpec (fetchShard pagedEnv hourSpec .empty) :=
    campaign_fetches_window (by decide) le_rfl
      (fun _ args => serves_newestBars hsorted Nat.two_pos args) (by intro _ hrows; cases hrows)
  have hwindow : windowPeriods fourHours hourSpec.window = fourHours := by decide
  cases hshard : fetchShard pagedEnv hourSpec .empty with
  | ok shard =>
    rw [hshard] at hends
    obtain ⟨hrows, -, -, -, -, hgaps⟩ := hends
    rw [hwindow] at hrows
    have hthreshold : thresholdSeconds hourSpec.maxGapHours = some 14400 := by decide +kernel
    refine ⟨shard, rfl, hrows, (hgaps _ _).mpr ⟨?_, 14400, hthreshold, by norm_num⟩⟩
    have hmem : ∀ t, t ∈ shard.rows.map BarRow.time ↔ ∃ p ∈ fourHours, p.time * 1000 = t := by
      intro t
      rw [hrows, mem_times_iff]
    simp only [hmem]
    refine ⟨by decide, by decide, by decide, fun z ⟨p, hp, hz⟩ => ?_⟩
    simp only [fourHours, List.map_cons, List.map_nil, List.mem_cons, List.not_mem_nil, or_false]
      at hp
    obtain rfl | rfl | rfl | rfl := hp <;> simp only [flatPeriod] at hz <;> omega
  | error e =>
    rw [hshard] at hends
    cases e with
    | unsupportedTimeframe =>
      have hknown : tvTimeframe "H1" ≠ none := by decide
      exact absurd hends hknown
    | timedOut =>
      obtain ⟨args, hreply⟩ := hends
      cases hreply
    | cliFailed =>
      obtain ⟨args, stderr, hreply⟩ := hends
      cases hreply
    | emptyChunk => exact hends.elim
    | exceededAnchors =>
      have hlong : 199 < (windowPeriods fourHours hourSpec.window).length := hends
      rw [hwindow] at hlong
      exact absurd hlong (by decide)
    | noShards | emptyFrame =>
      have hnil : windowPeriods fourHours hourSpec.window = [] := hends
      rw [hwindow] at hnil
      cases hnil

end ShardSpec

end TdSandboxed
