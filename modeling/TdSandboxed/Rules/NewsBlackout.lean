/-
TdSandboxed.Rules.NewsBlackout — the economic calendar and the blackout
rule (`calendar/calendar_models.py`, `rules/types/news_blackout.py`).

An event keeps its impact and its symbols as they were given; the source
normalises them when it builds the event, here reading them does. The index
is sorted by start, and `active_events_at` cuts a slice out of it by two
binary searches; `mem_activeEventsAt` says which events the slice keeps.

The calendar service is bound to the rule after it was built. `Services` is
what the rule asks besides the context: the clock, and the snapshot the
bound provider answers with, if a provider is bound. Negative windows and
an empty list of impact levels are refused by the constructor, so a rule
carries the proofs. Upper and lower case are those of ASCII letters. The
start in the metadata is kept as a time, not as a text.

The levels and the symbols of a rule are normalised by its constructor, and
the rule carries that too: each is what some text reads as.
-/
import Mathlib.Data.List.Infix
import TdSandboxed.Rules.BaseRule

namespace TdSandboxed

/-! ## The calendar -/

structure CalendarEvent where
  title : String := ""
  country : String := ""
  /-- Seconds since the epoch. -/
  start : ℚ
  impact : String
  symbols : List String := []
  deriving DecidableEq

def normaliseImpact (impact : String) : String := (strip impact).toLower

/-- `s.strip().upper()` -/
def normaliseSymbol (symbol : String) : String := (strip symbol).toUpper

namespace CalendarEvent

def impactLevel (e : CalendarEvent) : String := normaliseImpact e.impact

def symbolSet (e : CalendarEvent) : List String :=
  (e.symbols.filter (strip · ≠ "")).map normaliseSymbol

def affectsSymbol (e : CalendarEvent) (symbol : String) : Bool :=
  if symbol = "" then false
  else
    let upper := normaliseSymbol symbol
    if e.symbolSet ≠ [] then upper ∈ e.symbolSet
    else (normaliseSymbol e.country).toList <:+: upper.toList

/-- An event without symbols and without a country affects every symbol. -/
theorem affectsSymbol_bare {start : ℚ} {impact symbol : String} (h : symbol ≠ "") :
    affectsSymbol { start, impact } symbol = true := by
  have hcountry : (normaliseSymbol "").toList = [] := by decide +kernel
  simp [affectsSymbol, h, symbolSet, hcountry]

end CalendarEvent

structure EventIndex where
  events : List CalendarEvent
  sorted : events.Pairwise (·.start ≤ ·.start)

namespace EventIndex

def init (events : List CalendarEvent) : EventIndex where
  events := events.insertionSort (·.start ≤ ·.start)
  sorted := by
    have : Std.Total fun a b : CalendarEvent => a.start ≤ b.start :=
      ⟨fun a b => le_total a.start b.start⟩
    have : IsTrans CalendarEvent fun a b => a.start ≤ b.start := ⟨fun _ _ _ => le_trans⟩
    exact List.pairwise_insertionSort _ events

def bisectLeft (index : EventIndex) (x : ℚ) : ℕ :=
  (index.events.takeWhile (·.start < x)).length

def bisectRight (index : EventIndex) (x : ℚ) : ℕ :=
  (index.events.takeWhile (·.start ≤ x)).length

/-- An event of one of these levels, that touches the symbol if there is
one. -/
def Relevant (impactLevels : List String) (symbol : Option String) (e : CalendarEvent) : Prop :=
  e.impactLevel ∈ impactLevels ∧ ∀ s ∈ symbol, e.affectsSymbol s

instance (impactLevels : List String) (symbol : Option String) (e : CalendarEvent) :
    Decidable (Relevant impactLevels symbol e) :=
  inferInstanceAs (Decidable (_ ∧ _))

/-- The events whose window contains `now`. The rule never passes an empty
set of levels, which would mean any. -/
def activeEventsAt (index : EventIndex) (now minutesBefore minutesAfter : ℚ)
    (impactLevels : List String) (symbol : Option String) : List CalendarEvent :=
  let lo := index.bisectLeft (now - minutesAfter * 60)
  let hi := index.bisectRight (now + minutesBefore * 60)
  ((index.events.take hi).drop lo).filter (Relevant impactLevels symbol)

section Slice

variable {events : List CalendarEvent} {e : CalendarEvent} {x : ℚ}

/-- Up to the right bisection point stands what starts by `x`. -/
theorem mem_take_bisect (hs : events.Pairwise (·.start ≤ ·.start)) :
    e ∈ events.take (events.takeWhile (·.start ≤ x)).length ↔ e ∈ events ∧ e.start ≤ x := by
  induction events with
  | nil => simp
  | cons a l ih =>
    rw [List.pairwise_cons] at hs
    by_cases ha : a.start ≤ x
    · simp only [ha, decide_true, List.takeWhile_cons_of_pos, List.length_cons,
        List.take_succ_cons, List.mem_cons, ih hs.2]
      constructor
      · rintro (rfl | ⟨hmem, hle⟩)
        · exact ⟨.inl rfl, ha⟩
        · exact ⟨.inr hmem, hle⟩
      · rintro ⟨rfl | hmem, hle⟩
        · exact .inl rfl
        · exact .inr ⟨hmem, hle⟩
    · simp only [ha, decide_false, Bool.false_eq_true, not_false_eq_true,
        List.takeWhile_cons_of_neg, List.length_nil, List.take_zero, List.not_mem_nil, false_iff,
        List.mem_cons, not_and]
      rintro (rfl | hmem) hle
      · exact ha hle
      · exact ha ((hs.1 e hmem).trans hle)

/-- Between the two bisection points stands what starts from `lo` to
`hi`. -/
theorem mem_slice (hs : events.Pairwise (·.start ≤ ·.start)) {lo hi : ℚ} :
    e ∈ (events.take (events.takeWhile (·.start ≤ hi)).length).drop
        (events.takeWhile (·.start < lo)).length ↔
      e ∈ events ∧ lo ≤ e.start ∧ e.start ≤ hi := by
  induction events with
  | nil => simp
  | cons a l ih =>
    have hrest := List.pairwise_cons.mp hs
    by_cases hlo : a.start < lo
    · by_cases hhi : a.start ≤ hi
      · simp only [hlo, hhi, decide_true, List.takeWhile_cons_of_pos, List.length_cons,
          List.take_succ_cons, List.drop_succ_cons, ih hrest.2, List.mem_cons]
        constructor
        · rintro ⟨hmem, hwithin⟩
          exact ⟨.inr hmem, hwithin⟩
        · rintro ⟨rfl | hmem, hwithin⟩
          · exact absurd hwithin.1 hlo.not_ge
          · exact ⟨hmem, hwithin⟩
      · -- the first event is beyond `hi` already, so the slice is empty
        simp only [hhi, decide_false, Bool.false_eq_true, not_false_eq_true,
          List.takeWhile_cons_of_neg, List.length_nil, List.take_zero, List.drop_nil,
          List.not_mem_nil, false_iff, List.mem_cons, not_and]
        rintro (rfl | hmem) _ hle
        · exact hhi hle
        · exact hhi ((hrest.1 e hmem).trans hle)
    · have hfrom : ∀ e ∈ a :: l, lo ≤ e.start := by
        intro e hmem
        rw [not_lt] at hlo
        obtain rfl | hmem := List.mem_cons.mp hmem
        · exact hlo
        · exact hlo.trans (hrest.1 e hmem)
      rw [List.takeWhile_cons_of_neg (by simpa using hlo), List.length_nil, List.drop_zero,
        mem_take_bisect hs]
      constructor
      · rintro ⟨hmem, hle⟩
        exact ⟨hmem, hfrom e hmem, hle⟩
      · rintro ⟨hmem, _, hle⟩
        exact ⟨hmem, hle⟩

end Slice

/-- **An event is active when `now` lies in its window**, and it is of a
level and a symbol that count. -/
theorem mem_activeEventsAt {index : EventIndex} {now before after : ℚ}
    {impactLevels : List String} {symbol : Option String} {e : CalendarEvent} :
    e ∈ index.activeEventsAt now before after impactLevels symbol ↔
      e ∈ index.events ∧ e.start - before * 60 ≤ now ∧ now ≤ e.start + after * 60 ∧
        Relevant impactLevels symbol e := by
  unfold activeEventsAt
  simp only [List.mem_filter, decide_eq_true_eq]
  rw [bisectRight, bisectLeft, mem_slice index.sorted, sub_le_iff_le_add, sub_le_iff_le_add,
    and_assoc, and_assoc, and_left_comm (a := now ≤ _)]

end EventIndex

/-! ## The rule -/

/-- What a rule asks besides its context: the clock, and the answer of the
snapshot provider. Without a provider there is none, and the provider may
answer that it has no index yet. -/
structure Services where
  clock : ℚ
  snapshot : Option (Option EventIndex) := none

structure NewsBlackoutConfig where
  blackoutMinutesBefore : ℚ := 5
  blackoutMinutesAfter : ℚ := 5
  impactLevels : List String := ["high"]
  symbolsFilter : Option (List String) := none

structure NewsBlackoutRule where
  config : NewsBlackoutConfig
  before_nonneg : 0 ≤ config.blackoutMinutesBefore
  after_nonneg : 0 ≤ config.blackoutMinutesAfter
  impactLevels_ne : config.impactLevels ≠ []
  impactLevels_normal : ∀ level ∈ config.impactLevels, ∃ raw, level = normaliseImpact raw
  symbolsFilter_ne : config.symbolsFilter ≠ some []
  symbolsFilter_normal : ∀ symbols ∈ config.symbolsFilter, ∀ s ∈ symbols,
    ∃ raw, strip raw ≠ "" ∧ s = normaliseSymbol raw

/-- `str(value)`. A container or an object prints its type here. -/
def Value.pyStr : Value → String
  | .none => "None"
  | .num q => pyFloat q
  | .str s => s
  | v => s!"<{v.typeName}>"

namespace NewsBlackoutRule

def minutesText (q : ℚ) : String := if q.den = 1 then toString q.num else pyFloat q

def name (r : NewsBlackoutRule) : String :=
  let levels := "/".intercalate (r.config.impactLevels.dedup.insertionSort (· ≤ ·))
  s!"News Blackout {levels} ±{minutesText r.config.blackoutMinutesBefore}/" ++
    s!"{minutesText r.config.blackoutMinutesAfter}m"

/-- `str(context.get("symbol") or "").strip()` -/
def symbolOf (context : Dict) : String :=
  let symbol := context.getD "symbol" .none
  strip (if symbol.truthy then symbol.pyStr else "")

def resolveNow (services : Services) (context : Dict) : ℚ :=
  match context.getD "now" .none with
  | .time t => t
  | _ => services.clock

/-- The rule is about this symbol. -/
def InScope (r : NewsBlackoutRule) (symbol : String) : Prop :=
  ∀ symbols ∈ r.config.symbolsFilter, symbol.toUpper ∈ symbols

instance (r : NewsBlackoutRule) (symbol : String) : Decidable (r.InScope symbol) :=
  inferInstanceAs (Decidable (∀ _ ∈ _, _))

def activeEvents (r : NewsBlackoutRule) (index : EventIndex) (now : ℚ) (symbol : String) :
    List CalendarEvent :=
  index.activeEventsAt now r.config.blackoutMinutesBefore r.config.blackoutMinutesAfter
    r.config.impactLevels (if symbol = "" then none else some symbol)

def blackout (now : ℚ) (event : CalendarEvent) (activeEventCount : ℕ) : RuleResult :=
  let minutesToEvent := (event.start - now) / 60
  { action := .block,
    message := s!"News blackout: {event.title} ({event.country}) in " ++
      (if minutesToEvent < 0 then "" else "+") ++ s!"{fmtFixed 1 minutesToEvent} min",
    metadata := [("rule_type", .str "news_blackout"), ("event_title", .str event.title),
      ("event_country", .str event.country), ("event_start", .time event.start),
      ("event_impact", .str event.impactLevel), ("active_event_count", .num activeEventCount)] }

def unavailable (message : String) : RuleResult :=
  { action := .warn, message := message,
    metadata := [("rule_type", .str "news_blackout"), ("snapshot_available", .num 0)] }

/-- What the rule answers for a symbol at a time. -/
def decide (r : NewsBlackoutRule) (snapshot : Option (Option EventIndex)) (now : ℚ)
    (symbol : String) : RuleResult :=
  if ¬r.InScope symbol then {}
  else
    match snapshot with
    | none => unavailable "News calendar unavailable — blackout cannot be enforced"
    | some none => unavailable "News calendar empty — blackout cannot be enforced"
    | some (some index) =>
      if index.events.length = 0 then
        unavailable "News calendar empty — blackout cannot be enforced"
      else
        match r.activeEvents index now symbol with
        | event :: rest => blackout now event (rest.length + 1)
        | [] => {}

def validate (r : NewsBlackoutRule) (services : Services) (context : Dict) :
    Except PyException RuleResult :=
  .ok (r.decide services.snapshot (resolveNow services context) (symbolOf context))

def toBaseRule (r : NewsBlackoutRule) (services : Services) : BaseRule :=
  { ruleType := "news_blackout", name := r.name, priority := 6, validate := r.validate services }

/-- The rule blocks exactly the symbols of its scope, inside the window of
an event of the calendar it is bound to. -/
theorem decide_block_iff {r : NewsBlackoutRule} {snapshot : Option (Option EventIndex)} {now : ℚ}
    {symbol : String} :
    (r.decide snapshot now symbol).action = .block ↔
      r.InScope symbol ∧
        ∃ index, snapshot = some (some index) ∧ r.activeEvents index now symbol ≠ [] := by
  unfold decide
  by_cases hscope : r.InScope symbol
  · simp only [hscope, not_true_eq_false, ↓reduceIte, true_and]
    match snapshot with
    | none => simp [unavailable]
    | some none => simp [unavailable]
    | some (some index) =>
      simp only [Option.some.injEq, exists_eq_left']
      split
      · rename_i hlen
        have hnil : index.events = [] := List.length_eq_zero_iff.mp hlen
        have hact : r.activeEvents index now symbol = [] := by
          simp [activeEvents, EventIndex.activeEventsAt, hnil]
        simp [unavailable, hact]
      · split
        · rename_i hact
          simp [blackout, hact]
        · rename_i hact
          simp [hact]
  · simp [hscope]

/-- In scope and without an event to look at, the rule can only warn. -/
theorem decide_warn_iff {r : NewsBlackoutRule} {snapshot : Option (Option EventIndex)} {now : ℚ}
    {symbol : String} :
    (r.decide snapshot now symbol).action = .warn ↔
      r.InScope symbol ∧ ∀ index, snapshot = some (some index) → index.events = [] := by
  unfold decide
  by_cases hscope : r.InScope symbol
  · simp only [hscope, not_true_eq_false, ↓reduceIte, true_and]
    match snapshot with
    | none => simp [unavailable]
    | some none => simp [unavailable]
    | some (some index) =>
      simp only [Option.some.injEq, forall_eq']
      split
      · rename_i hlen
        simp [unavailable, List.length_eq_zero_iff.mp hlen]
      · rename_i hlen
        have hne : index.events ≠ [] := fun h => hlen (List.length_eq_zero_iff.mpr h)
        split <;> simp [blackout, hne]
  · simp [hscope]

end NewsBlackoutRule

end TdSandboxed
