/-
TdSandboxed.Strategies.OpeningRangeTheorems — when the opening range of the
clock is the one that is traded (`strategies/orb.py`).

The range is measured from the first bar that was handled in a session, and
bars before the average true range is there are not handled. `Lawful` asks
for the range of the clock instead: one entry for each session, beyond
every bar of the session's opening window, and a close at every bar outside
the session that finds a position.

`Regular` says of the next bar what keeps the two together: a session
starts inside its opening window, its bars come in one stretch with an
offset that does not go back, no bar of the window is left unhandled, and
no position is open outside a session while the indicator warms up.
`lawful_of_regular` is the run; `Tracks` is the invariant behind it, what
the fields of the strategy know of the bars of the session so far.
-/
import TdSandboxed.Strategies.OpeningRange
import TdSandboxed.Strategies.ScaleOutTheorems
import Mathlib.Tactic.Linarith
import Mathlib.Tactic.NormNum

namespace TdSandboxed

open Lib

namespace ORBConfig

variable {c : ORBConfig} {isZone : String → Bool}

/-- What the checks of the session leave. -/
structure Intraday (c : ORBConfig) : Prop where
  openMod_nonneg : 0 ≤ c.openMod
  closeMod_lt : c.closeMod < 24 * 60
  range_pos : 0 < c.openingRangeMinutes
  range_lt : c.openingRangeMinutes < c.closeMod - c.openMod

theorem Admitted.intraday (h : c.Admitted isZone) : c.Intraday := by
  unfold Admitted postInit at h
  obtain ⟨⟨⟩, -, h⟩ := bind_eq_ok.mp h
  simp only [checkRange, BracketStrategyConfig.check_bind_eq_ok, decide_eq_false_iff_not,
    not_not, not_le, ge_iff_le] at h
  obtain ⟨hopen, hclose, hopen', hclose', hpos, hlt, hrange⟩ := h
  have hfits : ¬ c.closeMod - c.openMod ≤ c.openingRangeMinutes := by
    intro hle
    simp [BracketStrategyConfig.check, hle] at hrange
  unfold closeMod openMod at *
  refine ⟨?_, ?_, hpos, not_le.mp hfits⟩
  · unfold openMod
    omega
  · unfold closeMod
    omega

end ORBConfig

namespace ORBRun

variable {c : ORBConfig} {offset : ℤ → ℤ} {r : ORBRun} {bar : ORBBar}

/-! ## What is asked of the signals -/

/-- The bar lies in a session. -/
def Inside (c : ORBConfig) (offset : ℤ → ℤ) (bar : ORBBar) : Prop :=
  inSession offset bar.timestamp (c.openMod * 60) (c.closeMod * 60) = true

/-- The session of a bar inside one. -/
def day (offset : ℤ → ℤ) (bar : ORBBar) : ℤ := sessionId offset bar.timestamp

/-- The bar is one of the session of a day. -/
def Of (c : ORBConfig) (offset : ℤ → ℤ) (d : ℤ) (bar : ORBBar) : Prop :=
  Inside c offset bar ∧ day offset bar = d

/-- The end of the opening window, in seconds of the local day. -/
def windowEnd (c : ORBConfig) : ℤ := (c.openMod + c.openingRangeMinutes) * 60

/-- The bar is in the opening window of the session of a day. -/
def Opens (c : ORBConfig) (offset : ℤ → ℤ) (d : ℤ) (bar : ORBBar) : Prop :=
  Of c offset d bar ∧ timeOfDay offset bar.timestamp < windowEnd c

instance : Decidable (Inside c offset bar) := inferInstanceAs (Decidable (_ = true))

instance (d : ℤ) : Decidable (Of c offset d bar) := inferInstanceAs (Decidable (_ ∧ _))

instance (d : ℤ) : Decidable (Opens c offset d bar) := inferInstanceAs (Decidable (_ ∧ _))

/-- `is_entry` -/
def IsEntry (signal : SignalType) : Prop := signal = .buy ∨ signal = .sell

instance (signal : SignalType) : Decidable (IsEntry signal) := inferInstanceAs (Decidable (_ ∨ _))

/-- An entry beyond the range of the opening bars of its session, after
their window. -/
structure Breaks (c : ORBConfig) (offset : ℤ → ℤ) (log : List (ORBBar × SignalType))
    (entry : ORBBar × SignalType) : Prop where
  inside : Inside c offset entry.1
  late : windowEnd c ≤ timeOfDay offset entry.1.timestamp
  opened : ∃ e ∈ log, Opens c offset (day offset entry.1) e.1
  above : entry.2 = .buy → ∀ e ∈ log, Opens c offset (day offset entry.1) e.1 →
    e.1.high < entry.1.close
  below : entry.2 = .sell → ∀ e ∈ log, Opens c offset (day offset entry.1) e.1 →
    entry.1.close < e.1.low

structure Lawful (c : ORBConfig) (offset : ℤ → ℤ) (log : List (ORBBar × SignalType)) :
    Prop where
  once : log.Pairwise fun e f =>
    IsEntry e.2 → IsEntry f.2 → day offset e.1 ≠ day offset f.1
  breaks : ∀ e ∈ log, IsEntry e.2 → Breaks c offset log e
  flattens : ∀ e ∈ log, ¬ Inside c offset e.1 → e.1.isFlat = false → e.2 = .close

/-! ## What keeps the range on the clock -/

/-- The timestamps of bars increase. -/
def Ordered (r : ORBRun) : ORBEvent → Prop
  | .bar bar => ∀ e ∈ r.log, e.1.tsInit < bar.tsInit
  | .reset => True

/-- The last bar was one of the session of a day. -/
def LastOf (c : ORBConfig) (offset : ℤ → ℤ) (d : ℤ) (log : List (ORBBar × SignalType)) : Prop :=
  ∃ e ∈ log.getLast?, Of c offset d e.1

instance (d : ℤ) (log : List (ORBBar × SignalType)) : Decidable (LastOf c offset d log) :=
  inferInstanceAs (Decidable (∃ e ∈ log.getLast?, _))

structure RegularBar (c : ORBConfig) (offset : ℤ → ℤ) (log : List (ORBBar × SignalType))
    (bar : ORBBar) : Prop where
  /-- A session is not interrupted. -/
  stretch : ∀ e ∈ log, Inside c offset bar → Of c offset (day offset bar) e.1 →
    LastOf c offset (day offset bar) log
  /-- The clock is not set back within a session. -/
  clock : ∀ e ∈ log, Inside c offset bar → Of c offset (day offset bar) e.1 →
    offset e.1.timestamp ≤ offset bar.timestamp
  /-- The first bar of a session lies in the opening window. -/
  opening : Inside c offset bar → (∀ e ∈ log, ¬ Of c offset (day offset bar) e.1) →
    Opens c offset (day offset bar) bar
  /-- A bar of the opening window is handled. -/
  warm : Opens c offset (day offset bar) bar → bar.atrInitialized = true
  /-- A position outside the session is met after the warm-up. -/
  settled : ¬ Inside c offset bar → bar.atrInitialized = true ∨ bar.isFlat = true

def Regular (c : ORBConfig) (offset : ℤ → ℤ) (r : ORBRun) : ORBEvent → Prop
  | .bar bar => RegularBar c offset r.log bar
  | .reset => True

instance (log : List (ORBBar × SignalType)) : Decidable (RegularBar c offset log bar) :=
  decidable_of_iff
    ((∀ e ∈ log, Inside c offset bar → Of c offset (day offset bar) e.1 →
        LastOf c offset (day offset bar) log) ∧
      (∀ e ∈ log, Inside c offset bar → Of c offset (day offset bar) e.1 →
        offset e.1.timestamp ≤ offset bar.timestamp) ∧
      (Inside c offset bar → (∀ e ∈ log, ¬ Of c offset (day offset bar) e.1) →
        Opens c offset (day offset bar) bar) ∧
      (Opens c offset (day offset bar) bar → bar.atrInitialized = true) ∧
      (¬ Inside c offset bar → bar.atrInitialized = true ∨ bar.isFlat = true))
    ⟨fun h => ⟨h.1, h.2.1, h.2.2.1, h.2.2.2.1, h.2.2.2.2⟩,
      fun h => ⟨h.stretch, h.clock, h.opening, h.warm, h.settled⟩⟩

instance : (e : ORBEvent) → Decidable (Ordered r e)
  | .bar _ => inferInstanceAs (Decidable (∀ e ∈ r.log, _))
  | .reset => .isTrue trivial

instance : (e : ORBEvent) → Decidable (Regular c offset r e)
  | .bar bar => inferInstanceAs (Decidable (RegularBar c offset r.log bar))
  | .reset => .isTrue trivial

/-! ## One bar -/

variable {s : ORBStrategy}

theorem generateSignal_unhandled (s : ORBStrategy) (hatr : bar.atrInitialized = false) :
    s.generateSignal offset bar = (s, .none) := by
  simp [ORBStrategy.generateSignal, hatr]

theorem generateSignal_outside (hc : s.config = c) (hatr : bar.atrInitialized = true)
    (hout : ¬ Inside c offset bar) : s.generateSignal offset bar =
      if bar.isFlat = true then (s.leaveSession, .none) else (s, .close) := by
  subst hc
  have hin : inSession offset bar.timestamp (s.config.openMod * 60) (s.config.closeMod * 60) =
      false := by simpa [Inside] using hout
  cases hflat : bar.isFlat <;> simp [ORBStrategy.generateSignal, hatr, hin, hflat]

theorem generateSignal_inside (hc : s.config = c) (hatr : bar.atrInitialized = true)
    (hin : Inside c offset bar) :
    s.generateSignal offset bar = s.inSessionSignal offset bar := by
  subst hc
  have hin' : inSession offset bar.timestamp (s.config.openMod * 60) (s.config.closeMod * 60) =
      true := hin
  simp [ORBStrategy.generateSignal, hatr, hin']

/-- An entry needs a range and a close beyond it. -/
theorem breakout_cases (s : ORBStrategy) (bar : ORBBar) :
    s.breakout bar = (s, .none) ∨
      (s.enteredThisSession = false ∧ ∃ high ∈ s.orHigh, high < bar.close ∧
        s.breakout bar = ({ s with enteredThisSession := true }, .buy)) ∨
      (s.enteredThisSession = false ∧ ∃ low ∈ s.orLow, bar.close < low ∧
        s.breakout bar = ({ s with enteredThisSession := true }, .sell)) := by
  unfold ORBStrategy.breakout
  split
  · exact .inl rfl
  · rename_i hwatch
    have hentered : s.enteredThisSession = false := by
      simpa using fun h => hwatch (.inl h)
    split
    · rename_i hbuy
      obtain ⟨high, hhigh, hlt⟩ := hbuy
      exact .inr (.inl ⟨hentered, high, hhigh, hlt, rfl⟩)
    · split
      · rename_i hsell
        obtain ⟨low, hlow, hlt⟩ := hsell
        exact .inr (.inr ⟨hentered, low, hlow, hlt, rfl⟩)
      · exact .inl rfl

/-- The bar belongs to the range, or the range is over. -/
theorem accumulate_cases (s : ORBStrategy) (ts : ℤ) (bar : ORBBar) :
    (∃ a ∈ s.orOpenTs, s.orComplete = false ∧ ts - a < 60 * s.config.openingRangeMinutes ∧
        s.accumulate ts bar = (s.widen bar, true)) ∨
      ∃ complete, s.accumulate ts bar = ({ s with orComplete := complete }, false) ∧
        ∀ a ∈ s.orOpenTs, complete = true ∧
          (s.orComplete = true ∨ 60 * s.config.openingRangeMinutes ≤ ts - a) := by
  obtain ⟨config, id, high, low, opened, complete, entered⟩ := s
  cases opened with
  | none => exact .inr ⟨complete, rfl, fun a ha => by simp at ha⟩
  | some a =>
    have helapsed : ((ts - a : ℤ) : ℚ) / 60 ≥ config.openingRangeMinutes ↔
        60 * config.openingRangeMinutes ≤ ts - a := by
      rw [ge_iff_le, le_div_iff₀ (by norm_num), mul_comm]
      exact_mod_cast Iff.rfl
    simp only [ORBStrategy.accumulate]
    cases complete with
    | true => exact .inr ⟨true, rfl, fun b hb => ⟨rfl, .inl rfl⟩⟩
    | false =>
      by_cases hover : 60 * config.openingRangeMinutes ≤ ts - a
      · rw [if_neg (by decide), if_pos (helapsed.mpr hover)]
        refine .inr ⟨true, rfl, fun b hb => ⟨rfl, .inr ?_⟩⟩
        rwa [← Option.some.inj hb]
      · rw [if_neg (by decide), if_neg (mt helapsed.mp hover)]
        exact .inl ⟨a, rfl, rfl, not_le.mp hover, rfl⟩

/-! ## The clock and the elapsed time -/

/-- Between two bars of one session the clock goes on by as much as time
has passed, when the offset did not go back. -/
theorem timeOfDay_sub {b b' : ORBBar} {d : ℤ} (h : day offset b = d) (h' : day offset b' = d)
    (hoffset : offset b.timestamp ≤ offset b'.timestamp) :
    b'.timestamp - b.timestamp ≤
      timeOfDay offset b'.timestamp - timeOfDay offset b.timestamp := by
  unfold day sessionId localTime at h h'
  unfold timeOfDay localTime
  omega

theorem Inside.openMod_le (hc : c.Intraday) (h : Inside c offset bar) :
    c.openMod * 60 ≤ timeOfDay offset bar.timestamp := by
  have hlt := hc.range_lt
  have hpos := hc.range_pos
  unfold Inside inSession at h
  rw [if_pos (by omega)] at h
  simp at h
  exact h.1

theorem timestamp_mono {b b' : ORBBar} (h : b.tsInit ≤ b'.tsInit) :
    b.timestamp ≤ b'.timestamp :=
  Int.ediv_le_ediv (by norm_num) h

/-! ## What the strategy knows of the session -/

/-- The range holds a bar. -/
def Covers (s : ORBStrategy) (bar : ORBBar) : Prop :=
  (∃ high ∈ s.orHigh, bar.high ≤ high) ∧ ∃ low ∈ s.orLow, low ≤ bar.low

/-- The range of a session, measured from one of its opening bars, which is
its first: it holds every opening bar so far. -/
structure Anchored (c : ORBConfig) (offset : ℤ → ℤ) (log : List (ORBBar × SignalType))
    (s : ORBStrategy) (d a : ℤ) : Prop where
  first : ∃ e ∈ log, Opens c offset d e.1 ∧ e.1.timestamp = a
  since : ∀ e ∈ log, Of c offset d e.1 → a ≤ e.1.timestamp
  covers : ∀ e ∈ log, Opens c offset d e.1 → Covers s e.1
  finished : s.orComplete = true →
    ∃ e ∈ log, Of c offset d e.1 ∧ 60 * c.openingRangeMinutes ≤ e.1.timestamp - a

/-- What the fields of the strategy say of a session, while its bars come. -/
structure Knows (c : ORBConfig) (offset : ℤ → ℤ) (log : List (ORBBar × SignalType))
    (s : ORBStrategy) (d : ℤ) : Prop where
  current : s.currentSessionId = some d
  entered : ∀ e ∈ log, IsEntry e.2 → Of c offset d e.1 →
    s.enteredThisSession = true ∨ s.orOpenTs = none
  anchored : ∀ a ∈ s.orOpenTs, Anchored c offset log s d a

structure Tracks (c : ORBConfig) (offset : ℤ → ℤ) (r : ORBRun) : Prop where
  config_eq : r.strategy.config = c
  fresh : r.strategy.orOpenTs = none → r.strategy.orHigh = none ∧ r.strategy.orLow = none
  begun : ∀ d ∈ r.strategy.currentSessionId, ∃ e ∈ r.log, Of c offset d e.1
  knows : ∀ d, LastOf c offset d r.log → Knows c offset r.log r.strategy d
  lawful : Lawful c offset r.log

theorem lastOf_concat {d : ℤ} {log : List (ORBBar × SignalType)} {e : ORBBar × SignalType} :
    LastOf c offset d (log ++ [e]) ↔ Of c offset d e.1 := by
  simp [LastOf]

/-! ### Without an entry -/

/-- A bar outside the opening window of its session leaves the entries
before it lawful. -/
theorem Breaks.concat {log : List (ORBBar × SignalType)} {entry e : ORBBar × SignalType}
    (h : Breaks c offset log entry) (he : ¬ Opens c offset (day offset entry.1) e.1) :
    Breaks c offset (log ++ [e]) entry := by
  obtain ⟨hinside, hlate, ⟨w, hw, hopens⟩, habove, hbelow⟩ := h
  have hmem : ∀ w ∈ log ++ [e], Opens c offset (day offset entry.1) w.1 → w ∈ log := by
    intro w hw hopens
    cases List.mem_append.mp hw with
    | inl hold => exact hold
    | inr hnew =>
      rw [List.mem_singleton.mp hnew] at hopens
      exact absurd hopens he
  exact ⟨hinside, hlate, ⟨w, List.mem_append_left _ hw, hopens⟩,
    fun hbuy w hw hopens => habove hbuy w (hmem w hw hopens) hopens,
    fun hsell w hw hopens => hbelow hsell w (hmem w hw hopens) hopens⟩

/-- After an entry no bar of its session is in the opening window: the
clock goes on. -/
theorem not_opens_of_entry {log : List (ORBBar × SignalType)} {entry : ORBBar × SignalType}
    (hentry : entry ∈ log) (hbreaks : Breaks c offset log entry)
    (hordered : ∀ e ∈ log, e.1.tsInit < bar.tsInit) (hregular : RegularBar c offset log bar) :
    ¬ Opens c offset (day offset entry.1) bar := by
  intro hopens
  have hday : day offset bar = day offset entry.1 := hopens.1.2
  have hclock := hregular.clock entry hentry hopens.1.1 ⟨hbreaks.inside, hday.symm⟩
  have hsub := timeOfDay_sub rfl hday hclock
  have hmono := timestamp_mono (hordered entry hentry).le
  have hlate := hbreaks.late
  have hearly := hopens.2
  omega

/-- One more bar, with a signal that is none of an entry, or a lawful one. -/
theorem Lawful.concat {log : List (ORBBar × SignalType)} {signal : SignalType}
    (h : Lawful c offset log) (hordered : ∀ e ∈ log, e.1.tsInit < bar.tsInit)
    (hregular : RegularBar c offset log bar)
    (honce : IsEntry signal → ∀ e ∈ log, IsEntry e.2 → ¬ Of c offset (day offset bar) e.1)
    (hbreaks : IsEntry signal → Breaks c offset (log ++ [(bar, signal)]) (bar, signal))
    (hflat : ¬ Inside c offset bar → bar.isFlat = false → signal = .close) :
    Lawful c offset (log ++ [(bar, signal)]) := by
  refine ⟨?_, ?_, ?_⟩
  · refine List.pairwise_append.mpr ⟨h.once, List.pairwise_singleton _ _, ?_⟩
    intro e he f hf hentry hentry' hday
    obtain rfl := List.mem_singleton.mp hf
    exact honce hentry' e he hentry ⟨(h.breaks e he hentry).inside, hday⟩
  · intro e he hentry
    cases List.mem_append.mp he with
    | inl hold =>
      exact (h.breaks e hold hentry).concat
        (not_opens_of_entry hold (h.breaks e hold hentry) hordered hregular)
    | inr hnew =>
      obtain rfl := List.mem_singleton.mp hnew
      exact hbreaks hentry
  · intro e he hout hopen
    cases List.mem_append.mp he with
    | inl hold => exact h.flattens e hold hout hopen
    | inr hnew =>
      obtain rfl := List.mem_singleton.mp hnew
      exact hflat hout hopen

/-! ### The phases of a bar -/

section Step

variable {log : List (ORBBar × SignalType)} {signal : SignalType} {d a : ℤ}

/-- The elapsed time of the anchor decides the opening window of a bar. -/
theorem Anchored.late (h : Anchored c offset log s (day offset bar) a) (hc : c.Intraday)
    (hregular : RegularBar c offset log bar) (hin : Inside c offset bar)
    (helapsed : 60 * c.openingRangeMinutes ≤ bar.timestamp - a) :
    windowEnd c ≤ timeOfDay offset bar.timestamp := by
  obtain ⟨e, he, hopens, rfl⟩ := h.first
  have hsub := timeOfDay_sub hopens.1.2 rfl (hregular.clock e he hin hopens.1)
  have hopen := hopens.1.1.openMod_le hc
  unfold windowEnd
  omega

theorem Anchored.le_timestamp (h : Anchored c offset log s d a)
    (hordered : ∀ e ∈ log, e.1.tsInit < bar.tsInit) : a ≤ bar.timestamp := by
  obtain ⟨e, he, -, rfl⟩ := h.first
  exact timestamp_mono (hordered e he).le

/-- An anchor stays for a bar that its range need not hold. -/
theorem Anchored.concat (h : Anchored c offset log s d a)
    (hordered : ∀ e ∈ log, e.1.tsInit < bar.tsInit) (hbar : ¬ Opens c offset d bar)
    {t : ORBStrategy} (hhigh : t.orHigh = s.orHigh) (hlow : t.orLow = s.orLow)
    (hover : t.orComplete = true → s.orComplete = true ∨
      Of c offset d bar ∧ 60 * c.openingRangeMinutes ≤ bar.timestamp - a) :
    Anchored c offset (log ++ [(bar, signal)]) t d a := by
  have hle := h.le_timestamp hordered
  refine ⟨?_, ?_, ?_, ?_⟩
  · obtain ⟨e, he, hfirst⟩ := h.first
    exact ⟨e, List.mem_append_left _ he, hfirst⟩
  · intro e he hof
    cases List.mem_append.mp he with
    | inl hold => exact h.since e hold hof
    | inr hnew => rwa [List.mem_singleton.mp hnew]
  · intro e he hopens
    cases List.mem_append.mp he with
    | inl hold =>
      unfold Covers
      rw [hhigh, hlow]
      exact h.covers e hold hopens
    | inr hnew =>
      rw [List.mem_singleton.mp hnew] at hopens
      exact absurd hopens hbar
  · intro hcomplete
    cases hover hcomplete with
    | inl hold =>
      obtain ⟨e, he, hof⟩ := h.finished hold
      exact ⟨e, List.mem_append_left _ he, hof⟩
    | inr hnew => exact ⟨_, List.mem_append_right _ (List.mem_singleton_self _), hnew⟩

theorem covers_widen (s : ORBStrategy) (bar : ORBBar) : Covers (s.widen bar) bar := by
  refine ⟨⟨_, rfl, ?_⟩, _, rfl, ?_⟩
  · cases s.orHigh <;> simp
  · cases s.orLow <;> simp

theorem Covers.widen {b : ORBBar} (h : Covers s b) (bar : ORBBar) : Covers (s.widen bar) b := by
  obtain ⟨⟨high, hhigh, hle⟩, low, hlow, hle'⟩ := h
  rw [Option.mem_def] at hhigh hlow
  refine ⟨⟨_, rfl, ?_⟩, _, rfl, ?_⟩
  · simp only [hhigh, Option.elim_some]
    exact hle.trans (le_max_left _ _)
  · simp only [hlow, Option.elim_some]
    exact (min_le_left _ _).trans hle'

/-- A bar that was not handled tells the strategy nothing, and need not. -/
theorem Knows.unhandled (h : Knows c offset log s d)
    (hordered : ∀ e ∈ log, e.1.tsInit < bar.tsInit) (hbar : ¬ Opens c offset d bar) :
    Knows c offset (log ++ [(bar, .none)]) s d := by
  refine ⟨h.current, ?_, fun a ha => (h.anchored a ha).concat hordered hbar rfl rfl .inl⟩
  intro e he hentry hof
  cases List.mem_append.mp he with
  | inl hold => exact h.entered e hold hentry hof
  | inr hnew =>
    obtain rfl := List.mem_singleton.mp hnew
    simp [IsEntry] at hentry

/-- A session that has bars already is the one the strategy is in. -/
theorem Tracks.knows_of_mem (h : Tracks c offset r) (hregular : RegularBar c offset r.log bar)
    (hin : Inside c offset bar) {e : ORBBar × SignalType} (he : e ∈ r.log)
    (hof : Of c offset (day offset bar) e.1) :
    Knows c offset r.log r.strategy (day offset bar) :=
  h.knows _ (hregular.stretch e he hin hof)

/-- The bar is the first of its session and starts a range, or the strategy
knows the session. -/
theorem enterSession_cases (h : Tracks c offset r) (hregular : RegularBar c offset r.log bar)
    (hin : Inside c offset bar) :
    (r.strategy.enterSession (day offset bar) bar.timestamp = r.strategy ∧
        Knows c offset r.log r.strategy (day offset bar)) ∨
      ((∀ e ∈ r.log, ¬ Of c offset (day offset bar) e.1) ∧ Opens c offset (day offset bar) bar ∧
        r.strategy.enterSession (day offset bar) bar.timestamp =
          { r.strategy.resetSessionState with
            currentSessionId := some (day offset bar), orOpenTs := some bar.timestamp }) := by
  unfold ORBStrategy.enterSession
  by_cases hcurrent : r.strategy.currentSessionId = some (day offset bar)
  · rw [if_pos hcurrent]
    obtain ⟨e, he, hof⟩ := h.begun _ hcurrent
    exact .inl ⟨rfl, h.knows_of_mem hregular hin he hof⟩
  · rw [if_neg hcurrent]
    have hnone : ∀ e ∈ r.log, ¬ Of c offset (day offset bar) e.1 := fun e he hof =>
      hcurrent (h.knows_of_mem hregular hin he hof).current
    exact .inr ⟨hnone, hregular.opening hin hnone, rfl⟩

/-- Without an entry, a bar keeps the log lawful. -/
theorem Lawful.concat_none (h : Lawful c offset log)
    (hordered : ∀ e ∈ log, e.1.tsInit < bar.tsInit) (hregular : RegularBar c offset log bar)
    (hflat : ¬ Inside c offset bar → bar.isFlat = false → signal = .close)
    (hnone : ¬ IsEntry signal) : Lawful c offset (log ++ [(bar, signal)]) :=
  h.concat hordered hregular (fun hentry => absurd hentry hnone)
    (fun hentry => absurd hentry hnone) hflat

theorem not_isEntry_none : ¬ IsEntry .none := by
  simp [IsEntry]

/-- The entries of a log with one more bar that is none. -/
theorem mem_of_entry {e : ORBBar × SignalType} (he : e ∈ log ++ [(bar, .none)])
    (hentry : IsEntry e.2) : e ∈ log := by
  cases List.mem_append.mp he with
  | inl hold => exact hold
  | inr hnew =>
    obtain rfl := List.mem_singleton.mp hnew
    exact absurd hentry not_isEntry_none

/-- A bar of the session, after which the strategy knows it. -/
theorem tracks_of_knows {t : ORBStrategy} (hin : Inside c offset bar) (hconfig : t.config = c)
    (hfresh : t.orOpenTs = none → t.orHigh = none ∧ t.orLow = none)
    (hknows : Knows c offset (log ++ [(bar, signal)]) t (day offset bar))
    (hlawful : Lawful c offset (log ++ [(bar, signal)])) :
    Tracks c offset { strategy := t, log := log ++ [(bar, signal)] } := by
  refine ⟨hconfig, hfresh, ?_, ?_, hlawful⟩
  · intro d hd
    obtain rfl := Option.some.inj (hknows.current.symm.trans hd)
    exact ⟨_, List.mem_append_right _ (List.mem_singleton_self _), hin, rfl⟩
  · intro d hd
    obtain ⟨-, rfl⟩ := lastOf_concat.mp hd
    exact hknows

/-- The first bar of a session is the range. -/
theorem tracks_first (hc : c.Intraday) (h : Tracks c offset r)
    (hordered : ∀ e ∈ r.log, e.1.tsInit < bar.tsInit) (hregular : RegularBar c offset r.log bar)
    (hnone : ∀ e ∈ r.log, ¬ Of c offset (day offset bar) e.1)
    (hopens : Opens c offset (day offset bar) bar) {t : ORBStrategy}
    (ht : t = { r.strategy.resetSessionState with
      currentSessionId := some (day offset bar), orOpenTs := some bar.timestamp }) :
    t.accumulate bar.timestamp bar = (t.widen bar, true) ∧
      Tracks c offset { strategy := t.widen bar, log := r.log ++ [(bar, .none)] } := by
  have hin := hopens.1.1
  have hmem : ∀ e ∈ r.log ++ [(bar, SignalType.none)], Of c offset (day offset bar) e.1 →
      e = (bar, .none) := by
    intro e he hof
    cases List.mem_append.mp he with
    | inl hold => exact absurd hof (hnone e hold)
    | inr hnew => exact List.mem_singleton.mp hnew
  have hconfig : t.config = c := by
    rw [ht]
    exact h.config_eq
  constructor
  · cases accumulate_cases t bar.timestamp bar with
    | inl hforming => exact hforming.choose_spec.2.2.2
    | inr hover =>
      obtain ⟨complete, -, hover⟩ := hover
      have hpos := hc.range_pos
      have := (hover bar.timestamp (by rw [ht]; rfl)).2
      rw [hconfig] at this
      simp only [ht, ORBStrategy.resetSessionState, Bool.false_eq_true, false_or] at this
      omega
  · refine tracks_of_knows hin hconfig (by rw [ht]; simp [ORBStrategy.widen]) ⟨?_, ?_, ?_⟩
      (h.lawful.concat_none hordered hregular (fun hout => absurd hin hout) not_isEntry_none)
    · rw [ht]
      rfl
    · intro e he hentry hof
      exact absurd hof (hnone e (mem_of_entry he hentry))
    · intro a ha
      obtain rfl : bar.timestamp = a := by
        rw [ht] at ha
        exact Option.some.inj ha
      refine ⟨⟨_, List.mem_append_right _ (List.mem_singleton_self _), hopens, rfl⟩, ?_, ?_, ?_⟩
      · intro e he hof
        rw [hmem e he hof]
      · intro e he hof
        rw [hmem e he hof.1]
        exact covers_widen t bar
      · intro hcomplete
        rw [ht] at hcomplete
        cases hcomplete

/-- A bar of the range widens it. -/
theorem tracks_forming (h : Tracks c offset r)
    (hordered : ∀ e ∈ r.log, e.1.tsInit < bar.tsInit) (hregular : RegularBar c offset r.log bar)
    (hin : Inside c offset bar) (hknows : Knows c offset r.log r.strategy (day offset bar))
    (hopen : a ∈ r.strategy.orOpenTs) (hcomplete : r.strategy.orComplete = false) :
    Tracks c offset { strategy := r.strategy.widen bar, log := r.log ++ [(bar, .none)] } := by
  refine tracks_of_knows hin h.config_eq ?_ ⟨hknows.current, ?_, ?_⟩
    (h.lawful.concat_none hordered hregular (fun hout => absurd hin hout) not_isEntry_none)
  · intro hnone
    exact absurd ((Option.mem_def.mp hopen).symm.trans hnone) (by simp)
  · intro e he hentry hof
    exact hknows.entered e (mem_of_entry he hentry) hentry hof
  · intro b hb
    have hanchored := hknows.anchored b hb
    refine ⟨?_, ?_, ?_, ?_⟩
    · obtain ⟨e, he, hfirst⟩ := hanchored.first
      exact ⟨e, List.mem_append_left _ he, hfirst⟩
    · intro e he hof
      cases List.mem_append.mp he with
      | inl hold => exact hanchored.since e hold hof
      | inr hnew =>
        rw [List.mem_singleton.mp hnew]
        exact hanchored.le_timestamp hordered
    · intro e he hopens
      cases List.mem_append.mp he with
      | inl hold => exact (hanchored.covers e hold hopens).widen bar
      | inr hnew =>
        rw [List.mem_singleton.mp hnew]
        exact covers_widen r.strategy bar
    · intro hover
      exact absurd (hcomplete.symm.trans hover) (by decide)

/-- The range of a session that is over holds all of its opening bars. -/
theorem breaks_of_beyond (hc : c.Intraday) (hin : Inside c offset bar)
    (hregular : RegularBar c offset log bar) (h : Anchored c offset log s (day offset bar) a)
    (helapsed : 60 * c.openingRangeMinutes ≤ bar.timestamp - a)
    (habove : signal = .buy → ∃ high ∈ s.orHigh, high < bar.close)
    (hbelow : signal = .sell → ∃ low ∈ s.orLow, bar.close < low) :
    Breaks c offset (log ++ [(bar, signal)]) (bar, signal) := by
  have hlate := h.late hc hregular hin helapsed
  have hmem : ∀ e ∈ log ++ [(bar, signal)], Opens c offset (day offset bar) e.1 → e ∈ log := by
    intro e he hopens
    cases List.mem_append.mp he with
    | inl hold => exact hold
    | inr hnew =>
      rw [List.mem_singleton.mp hnew] at hopens
      exact absurd hopens.2 (not_lt.mpr hlate)
  refine ⟨hin, hlate, ?_, ?_, ?_⟩
  · obtain ⟨e, he, hopens, -⟩ := h.first
    exact ⟨e, List.mem_append_left _ he, hopens⟩
  · intro hbuy e he hopens
    obtain ⟨high, hhigh, hlt⟩ := habove hbuy
    obtain ⟨high', hhigh', hle⟩ := (h.covers e (hmem e he hopens) hopens).1
    obtain rfl := Option.some.inj ((Option.mem_def.mp hhigh').symm.trans hhigh)
    exact hle.trans_lt hlt
  · intro hsell e he hopens
    obtain ⟨low, hlow, hlt⟩ := hbelow hsell
    obtain ⟨low', hlow', hle⟩ := (h.covers e (hmem e he hopens) hopens).2
    obtain rfl := Option.some.inj ((Option.mem_def.mp hlow').symm.trans hlow)
    exact hlt.trans_le hle

/-- The bar comes after the range of its session, or the range was lost by
a reset; `complete` and `entered` are what it sets. -/
theorem tracks_watching (hc : c.Intraday) (h : Tracks c offset r)
    (hordered : ∀ e ∈ r.log, e.1.tsInit < bar.tsInit) (hregular : RegularBar c offset r.log bar)
    (hin : Inside c offset bar) (hknows : Knows c offset r.log r.strategy (day offset bar))
    (complete entered : Bool)
    (hover : ∀ a ∈ r.strategy.orOpenTs, 60 * c.openingRangeMinutes ≤ bar.timestamp - a)
    (hentered : r.strategy.enteredThisSession = true → entered = true)
    (hentry : IsEntry signal → entered = true ∧ r.strategy.enteredThisSession = false)
    (habove : signal = .buy → ∃ high ∈ r.strategy.orHigh, high < bar.close)
    (hbelow : signal = .sell → ∃ low ∈ r.strategy.orLow, bar.close < low) :
    Tracks c offset
      { strategy := { r.strategy with orComplete := complete, enteredThisSession := entered }
        log := r.log ++ [(bar, signal)] } := by
  have hopen : IsEntry signal → ∃ a, r.strategy.orOpenTs = some a := by
    intro hsignal
    cases hnone : r.strategy.orOpenTs with
    | some a => exact ⟨a, rfl⟩
    | none =>
      obtain ⟨hhigh, hlow⟩ := h.fresh hnone
      cases hsignal with
      | inl hbuy => simpa [hhigh] using habove hbuy
      | inr hsell => simpa [hlow] using hbelow hsell
  refine tracks_of_knows hin h.config_eq h.fresh ⟨hknows.current, ?_, ?_⟩
    (h.lawful.concat hordered hregular ?_ ?_ fun hout => absurd hin hout)
  · intro e he hsignal hof
    cases List.mem_append.mp he with
    | inl hold => exact (hknows.entered e hold hsignal hof).imp_left hentered
    | inr hnew =>
      obtain rfl := List.mem_singleton.mp hnew
      exact .inl (hentry hsignal).1
  · intro a ha
    have hanchored := hknows.anchored a ha
    have hlate := hanchored.late hc hregular hin (hover a ha)
    exact hanchored.concat hordered (fun hopens => absurd hopens.2 (not_lt.mpr hlate)) rfl rfl
      fun _ => .inr ⟨⟨hin, rfl⟩, hover a ha⟩
  · intro hsignal e he hsignal' hof
    obtain ⟨a, ha⟩ := hopen hsignal
    cases hknows.entered e he hsignal' hof with
    | inl htrue => exact absurd ((hentry hsignal).2.symm.trans htrue) (by decide)
    | inr hnone => exact absurd (ha.symm.trans hnone) (by simp)
  · intro hsignal
    obtain ⟨a, ha⟩ := hopen hsignal
    exact breaks_of_beyond hc hin hregular (hknows.anchored a ha) (hover a ha) habove hbelow

/-- A handled bar of a session. -/
theorem tracks_inside (hc : c.Intraday) (h : Tracks c offset r)
    (hordered : ∀ e ∈ r.log, e.1.tsInit < bar.tsInit) (hregular : RegularBar c offset r.log bar)
    (hin : Inside c offset bar) :
    Tracks c offset
      { strategy := (r.strategy.inSessionSignal offset bar).1
        log := r.log ++ [(bar, (r.strategy.inSessionSignal offset bar).2)] } := by
  have hid : sessionId offset bar.timestamp = day offset bar := rfl
  unfold ORBStrategy.inSessionSignal
  rw [hid]
  cases enterSession_cases h hregular hin with
  | inr hfirst =>
    obtain ⟨hnone, hopens, heq⟩ := hfirst
    obtain ⟨haccumulate, htracks⟩ := tracks_first hc h hordered hregular hnone hopens heq
    simpa only [haccumulate, if_true] using htracks
  | inl hknown =>
    obtain ⟨heq, hknows⟩ := hknown
    rw [heq]
    cases accumulate_cases r.strategy bar.timestamp bar with
    | inl hforming =>
      obtain ⟨a, ha, hcomplete, -, haccumulate⟩ := hforming
      have htracks := tracks_forming h hordered hregular hin hknows ha hcomplete
      simpa only [haccumulate, if_true] using htracks
    | inr hwatching =>
      obtain ⟨complete, haccumulate, hcomplete⟩ := hwatching
      simp only [haccumulate, Bool.false_eq_true, if_false]
      have hover : ∀ a ∈ r.strategy.orOpenTs,
          60 * c.openingRangeMinutes ≤ bar.timestamp - a := by
        intro a ha
        cases (hcomplete a ha).2 with
        | inl hbefore =>
          obtain ⟨e, he, -, hle⟩ := (hknows.anchored a ha).finished hbefore
          have := timestamp_mono (hordered e he).le
          omega
        | inr hnow => rwa [h.config_eq] at hnow
      have hwatch := fun entered signal =>
        @tracks_watching c offset r bar signal hc h hordered hregular hin hknows complete entered
          hover
      cases breakout_cases { r.strategy with orComplete := complete } bar with
      | inl hquiet =>
        simp only [hquiet]
        exact hwatch _ .none id (fun hentry => absurd hentry not_isEntry_none)
          (fun hbuy => by cases hbuy) (fun hsell => by cases hsell)
      | inr hentry =>
        cases hentry with
        | inl hbuy =>
          obtain ⟨hfalse, high, hhigh, hlt, hresult⟩ := hbuy
          simp only [hresult]
          exact hwatch true .buy (fun _ => rfl) (fun _ => ⟨rfl, hfalse⟩)
            (fun _ => ⟨high, hhigh, hlt⟩) (fun hsell => by cases hsell)
        | inr hsell =>
          obtain ⟨hfalse, low, hlow, hlt, hresult⟩ := hsell
          simp only [hresult]
          exact hwatch true .sell (fun _ => rfl) (fun _ => ⟨rfl, hfalse⟩)
            (fun hbuy => by cases hbuy) (fun _ => ⟨low, hlow, hlt⟩)

/-- A bar outside every session. -/
theorem tracks_outside (h : Tracks c offset r)
    (hordered : ∀ e ∈ r.log, e.1.tsInit < bar.tsInit) (hregular : RegularBar c offset r.log bar)
    (hout : ¬ Inside c offset bar) {t : ORBStrategy}
    (ht : t = r.strategy ∨ t = r.strategy.leaveSession)
    (hflat : bar.isFlat = false → signal = .close) (hnone : ¬ IsEntry signal) :
    Tracks c offset { strategy := t, log := r.log ++ [(bar, signal)] } := by
  have hkept : t = r.strategy ∨ t.config = c ∧ t.currentSessionId = none ∧
      (t.orHigh = none ∧ t.orLow = none) := by
    cases ht with
    | inl hsame => exact .inl hsame
    | inr hleft =>
      rw [hleft, ORBStrategy.leaveSession]
      split
      · exact .inr ⟨h.config_eq, rfl, rfl, rfl⟩
      · exact .inl rfl
  refine ⟨?_, ?_, ?_, ?_, h.lawful.concat_none hordered hregular (fun _ => hflat) hnone⟩
  · cases hkept with
    | inl hsame => exact hsame ▸ h.config_eq
    | inr hleft => exact hleft.1
  · intro hopen
    cases hkept with
    | inl hsame => exact hsame ▸ h.fresh (hsame ▸ hopen)
    | inr hleft => exact hleft.2.2
  · intro d hd
    cases hkept with
    | inl hsame =>
      obtain ⟨e, he, hof⟩ := h.begun d (hsame ▸ hd)
      exact ⟨e, List.mem_append_left _ he, hof⟩
    | inr hleft => exact absurd ((Option.mem_def.mp hd).symm.trans hleft.2.1) (by simp)
  · intro d hd
    exact absurd (lastOf_concat.mp hd).1 hout

/-- A bar before the indicator has a value. -/
theorem tracks_unhandled (h : Tracks c offset r)
    (hordered : ∀ e ∈ r.log, e.1.tsInit < bar.tsInit) (hregular : RegularBar c offset r.log bar)
    (hatr : bar.atrInitialized = false) :
    Tracks c offset { strategy := r.strategy, log := r.log ++ [(bar, .none)] } := by
  refine ⟨h.config_eq, h.fresh, ?_, ?_,
    h.lawful.concat_none hordered hregular ?_ not_isEntry_none⟩
  · intro d hd
    obtain ⟨e, he, hof⟩ := h.begun d hd
    exact ⟨e, List.mem_append_left _ he, hof⟩
  · intro d hd
    obtain ⟨hin, rfl⟩ := lastOf_concat.mp hd
    have hbar : ¬ Opens c offset (day offset bar) bar := by
      intro hopens
      exact absurd (hatr.symm.trans (hregular.warm hopens)) (by decide)
    -- the bar is not the first of its session, since that one is handled
    obtain ⟨e, he, hof⟩ : ∃ e ∈ r.log, Of c offset (day offset bar) e.1 := by
      by_contra hnone
      exact hbar (hregular.opening hin fun e he hof => hnone ⟨e, he, hof⟩)
    exact (h.knows_of_mem hregular hin he hof).unhandled hordered hbar
  · intro hout hopen
    cases hregular.settled hout with
    | inl hwarm => exact absurd (hatr.symm.trans hwarm) (by decide)
    | inr hflat => exact absurd (hopen.symm.trans hflat) (by decide)

end Step

theorem step_bar (offset : ℤ → ℤ) (r : ORBRun) (bar : ORBBar) :
    r.step offset (.bar bar) = some
      { strategy := (r.strategy.generateSignal offset bar).1
        log := r.log ++ [(bar, (r.strategy.generateSignal offset bar).2)] } := rfl

/-- **One event** of a regular run. -/
theorem tracks_step (hc : c.Intraday) {e : ORBEvent} {t : ORBRun} (h : Tracks c offset r)
    (hordered : Ordered r e) (hregular : Regular c offset r e) (hs : r.step offset e = some t) :
    Tracks c offset t := by
  cases e with
  | reset =>
    obtain rfl := Option.some.inj hs
    refine ⟨h.config_eq, fun _ => ⟨rfl, rfl⟩, h.begun, fun d hd => ?_, h.lawful⟩
    exact ⟨(h.knows d hd).current, fun _ _ _ _ => .inr rfl, fun a ha => by cases ha⟩
  | bar bar =>
    rw [step_bar] at hs
    obtain rfl := Option.some.inj hs
    cases hatr : bar.atrInitialized with
    | false =>
      rw [generateSignal_unhandled _ hatr]
      exact tracks_unhandled h hordered hregular hatr
    | true =>
      by_cases hin : Inside c offset bar
      · rw [generateSignal_inside h.config_eq hatr hin]
        exact tracks_inside hc h hordered hregular hin
      · rw [generateSignal_outside h.config_eq hatr hin]
        cases hflat : bar.isFlat with
        | true =>
          exact tracks_outside h hordered hregular hin (.inr rfl)
            (fun hopen => absurd (hflat.symm.trans hopen) (by decide)) not_isEntry_none
        | false =>
          exact tracks_outside h hordered hregular hin (.inl rfl) (fun _ => rfl)
            (by simp [IsEntry])

/-- **Every regular run is lawful.** One entry for each session, beyond its
opening window and every bar in it, and no position is kept over a bar
outside the session. -/
theorem lawful_of_regular (isZone : String → Bool) (c : ORBConfig) (hc : c.Admitted isZone)
    (offset : ℤ → ℤ) (events : List ORBEvent) (r : ORBRun)
    (h : RunWhere (step offset) (fun r e => Ordered r e ∧ Regular c offset r e)
      { strategy := { config := c } } events r) :
    Lawful c offset r.log := by
  have hstart : Tracks c offset { strategy := { config := c } } :=
    ⟨rfl, fun _ => ⟨rfl, rfl⟩, fun d hd => (by cases hd), fun d hd => by simp [LastOf] at hd,
      ⟨.nil, fun e he => (by cases he), fun e he => (by cases he)⟩⟩
  exact (h.invariant_state (Tracks c offset) hstart fun _ _ _ htracks hok hs =>
    tracks_step hc.intraday htracks hok.1 hok.2 hs).lawful

/-- A bar at a second. -/
def barAt (second : ℤ) (high low close : ℚ) : ORBBar :=
  { tsInit := second * 1000000000, high, low, close }

/-- The range from 8:00 to 8:30, an entry, and a position at 17:00. -/
def usualDay : List ORBEvent :=
  [.bar (barAt 28800 2410 2390 2400), .bar (barAt 29700 2415 2395 2400),
    .bar (barAt 30600 2420 2410 2416),
    .bar { barAt 61200 2440 2430 2435 with isFlat := false }]

theorem usualDay_lawful :
    ∃ r : ORBRun, r.log.map (·.2) = [.none, .none, .buy, .close] ∧
      Lawful {} (fun _ => 0) r.log := by
  obtain ⟨r, hrun, hr⟩ := RunWhere.exists_of_checked (step fun _ => 0)
    (fun r e => Ordered r e ∧ Regular {} (fun _ => 0) r e) { strategy := { config := {} } }
    usualDay (fun r => decide (r.log.map (·.2) = [.none, .none, .buy, .close]))
    (by decide +kernel) (by decide +kernel)
  exact ⟨r, of_decide_eq_true hr,
    lawful_of_regular (fun _ => true) {} (by decide +kernel) (fun _ => 0) usualDay r hrun⟩

/-- A bar of the opening window, higher than all that follow, comes before
the indicator has a value. -/
def warmUpDay : List ORBEvent :=
  [.bar { barAt 28800 2450 2390 2400 with atrInitialized := false },
    .bar (barAt 29100 2410 2395 2400), .bar (barAt 30900 2420 2410 2416)]

/-- A position is open at night, before the indicator has a value. -/
def warmUpNight : List ORBEvent :=
  [.bar { barAt 3600 2410 2390 2400 with atrInitialized := false, isFlat := false }]

/-- The first bar of the day comes an hour late. -/
def lateDay : List ORBEvent :=
  [.bar (barAt 32400 2410 2390 2400), .bar (barAt 34200 2420 2410 2416)]

/-- A session from 1:30 on, with ten minutes for the range, in a night in
which the clock goes from 2:00 back to 1:00. -/
def nightConfig : ORBConfig :=
  { sessionOpenHour := 1, sessionOpenMinute := 30, openingRangeMinutes := 10 }

def clockBack (ts : ℤ) : ℤ := if ts < 3600 then 3600 else 0

def nightRun : List ORBEvent :=
  [.bar (barAt 1800 2410 2390 2400), .bar (barAt 2400 2420 2410 2416),
    .bar (barAt 4200 2420 2410 2416), .bar (barAt 5400 2410 2390 2400),
    .bar (barAt 6000 2420 2410 2416)]

/-- A run of bars in order, and its log. -/
def Logs (c : ORBConfig) (offset : ℤ → ℤ) (events : List ORBEvent)
    (log : List (ORBBar × SignalType)) : Prop :=
  ∃ r, RunWhere (step offset) Ordered { strategy := { config := c } } events r ∧ r.log = log

theorem logs_of_exec (c : ORBConfig) (offset : ℤ → ℤ) (events : List ORBEvent)
    (log : List (ORBBar × SignalType))
    (hchecked : Checked (step offset) Ordered { strategy := { config := c } } events)
    (h : (exec (step offset) { strategy := { config := c } } events).any
      (fun r => decide (r.log = log)) = true) : Logs c offset events log := by
  obtain ⟨r, hrun, hr⟩ := RunWhere.exists_of_checked _ _ _ events _ hchecked h
  exact ⟨r, hrun, of_decide_eq_true hr⟩

/-- An entry below a bar of the opening window, a position that is not
closed, an entry without a bar in the opening window, and two entries in
one session. -/
theorem not_lawful :
    (ORBConfig.Admitted (fun _ => true) {} ∧ nightConfig.Admitted fun _ => true) ∧
      (∃ log, Logs {} (fun _ => 0) warmUpDay log ∧ ¬ Lawful {} (fun _ => 0) log) ∧
      (∃ log, Logs {} (fun _ => 0) warmUpNight log ∧ ¬ Lawful {} (fun _ => 0) log) ∧
      (∃ log, Logs {} (fun _ => 0) lateDay log ∧ ¬ Lawful {} (fun _ => 0) log) ∧
      ∃ log, Logs nightConfig clockBack nightRun log ∧ ¬ Lawful nightConfig clockBack log := by
  refine ⟨by decide +kernel, ?_, ?_, ?_, ?_⟩
  · refine ⟨[({ barAt 28800 2450 2390 2400 with atrInitialized := false }, .none),
      (barAt 29100 2410 2395 2400, .none), (barAt 30900 2420 2410 2416, .buy)],
      logs_of_exec _ _ _ _ (by decide +kernel) (by decide +kernel), fun h => ?_⟩
    have hbreaks := h.breaks (barAt 30900 2420 2410 2416, .buy) (by simp) (.inl rfl)
    have := hbreaks.above rfl ({ barAt 28800 2450 2390 2400 with atrInitialized := false }, .none)
      (by simp) (by decide +kernel)
    norm_num [barAt] at this
  · refine ⟨[({ barAt 3600 2410 2390 2400 with atrInitialized := false, isFlat := false },
      .none)], logs_of_exec _ _ _ _ (by decide +kernel) (by decide +kernel), fun h => ?_⟩
    have := h.flattens _ (List.mem_singleton_self _) (by decide +kernel) rfl
    cases this
  · refine ⟨[(barAt 32400 2410 2390 2400, .none), (barAt 34200 2420 2410 2416, .buy)],
      logs_of_exec _ _ _ _ (by decide +kernel) (by decide +kernel), fun h => ?_⟩
    have hbreaks := h.breaks (barAt 34200 2420 2410 2416, .buy) (by simp) (.inl rfl)
    exact absurd hbreaks.opened (by decide +kernel)
  · refine ⟨[(barAt 1800 2410 2390 2400, .none), (barAt 2400 2420 2410 2416, .buy),
      (barAt 4200 2420 2410 2416, .none), (barAt 5400 2410 2390 2400, .none),
      (barAt 6000 2420 2410 2416, .buy)],
      logs_of_exec _ _ _ _ (by decide +kernel) (by decide +kernel), fun h => ?_⟩
    exact absurd h.once (by decide +kernel)

end ORBRun

end TdSandboxed
