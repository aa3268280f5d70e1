/-
TdSandboxed.Rules.CalendarLookup — the calendar lookup as it is called, and
the plain scan it stands for (`calendar/calendar_models.py`,
`rules/types/news_blackout.py`).

`activeEventsAt?` is the whole of `active_events_at`: it refuses a negative
window, bisects the sorted starts twice, and filters what lies between.
`scan` asks every event of the calendar instead, in the order in which the
calendar was given.

The lookup answers the scan, sorted by start (`activeEventsAt?_init`).
Events at equal times keep their order, and one that was given twice is
answered twice.
-/
import TdSandboxed.Lib.SortedSlice
import TdSandboxed.Rules.NewsBlackout

namespace TdSandboxed

namespace EventIndex

/-- Without levels, or with an empty set of them, events of every impact
pass. -/
def Passes (impactLevels : Option (List String)) (symbol : Option String) (e : CalendarEvent) :
    Prop :=
  (∀ levels ∈ impactLevels, levels = [] ∨ e.impactLevel ∈ levels) ∧
    ∀ s ∈ symbol, e.affectsSymbol s

instance (impactLevels : Option (List String)) (symbol : Option String) (e : CalendarEvent) :
    Decidable (Passes impactLevels symbol e) :=
  inferInstanceAs (Decidable (_ ∧ _))

/-- `active_events_at` -/
def activeEventsAt? (index : EventIndex) (now minutesBefore minutesAfter : ℚ)
    (impactLevels : Option (List String)) (symbol : Option String) :
    Except PyException (List CalendarEvent) :=
  if minutesBefore < 0 ∨ minutesAfter < 0 then
    .error (.valueError "minutes_before / minutes_after must be non-negative")
  else
    let lo := Lib.bisect (·.start < now - minutesAfter * 60) index.events
    let hi := Lib.bisect (·.start ≤ now + minutesBefore * 60) index.events
    .ok (((index.events.take hi).drop lo).filter (Passes impactLevels symbol))

/-- The blackout interval of the event contains `now`. -/
def InWindow (now minutesBefore minutesAfter : ℚ) (e : CalendarEvent) : Prop :=
  e.start - minutesBefore * 60 ≤ now ∧ now ≤ e.start + minutesAfter * 60

instance (now minutesBefore minutesAfter : ℚ) (e : CalendarEvent) :
    Decidable (InWindow now minutesBefore minutesAfter e) :=
  inferInstanceAs (Decidable (_ ∧ _))

/-- What the lookup is for: every event is asked. -/
def scan (events : List CalendarEvent) (now minutesBefore minutesAfter : ℚ)
    (impactLevels : Option (List String)) (symbol : Option String) : List CalendarEvent :=
  events.filter fun e =>
    InWindow now minutesBefore minutesAfter e ∧ Passes impactLevels symbol e

variable {index : EventIndex} {now before after : ℚ}
  {impactLevels : Option (List String)} {symbol : Option String}

theorem prefixed_lt (index : EventIndex) (x : ℚ) :
    Lib.Prefixed (fun e : CalendarEvent => decide (e.start < x)) index.events :=
  index.sorted.imp fun h hb => by
    simp only [decide_eq_true_eq] at hb ⊢
    exact h.trans_lt hb

theorem prefixed_le (index : EventIndex) (x : ℚ) :
    Lib.Prefixed (fun e : CalendarEvent => decide (e.start ≤ x)) index.events :=
  index.sorted.imp fun h hb => by
    simp only [decide_eq_true_eq] at hb ⊢
    exact h.trans hb

theorem windows_ok (hbefore : 0 ≤ before) (hafter : 0 ≤ after) : ¬(before < 0 ∨ after < 0) := by
  rw [not_or, not_lt, not_lt]
  exact ⟨hbefore, hafter⟩

/-- In an index the lookup is the scan of its events, in their order. -/
theorem activeEventsAt?_eq (hbefore : 0 ≤ before) (hafter : 0 ≤ after) :
    index.activeEventsAt? now before after impactLevels symbol =
      .ok (scan index.events now before after impactLevels symbol) := by
  simp only [activeEventsAt?, if_neg (windows_ok hbefore hafter), scan,
    Lib.slice_eq_filter (prefixed_lt index _) (prefixed_le index _), List.filter_filter]
  congr 1
  refine List.filter_congr fun e _ => ?_
  -- `now - after ≤ start ≤ now + before` is the interval around the start, read from `now`
  rw [Bool.eq_iff_iff]
  simp only [Bool.and_eq_true, Bool.not_eq_true', decide_eq_true_eq, decide_eq_false_iff_not,
    not_lt, InWindow, sub_le_iff_le_add]
  constructor
  · rintro ⟨hpasses, hlo, hhi⟩
    exact ⟨⟨hhi, hlo⟩, hpasses⟩
  · rintro ⟨⟨hhi, hlo⟩, hpasses⟩
    exact ⟨hpasses, hlo, hhi⟩

/-- **The lookup in an index is the plain scan of the calendar it was built
from**, sorted by start. -/
theorem activeEventsAt?_init (events : List CalendarEvent) (now before after : ℚ)
    (impactLevels : Option (List String)) (symbol : Option String) :
    (init events).activeEventsAt? now before after impactLevels symbol =
      if before < 0 ∨ after < 0 then
        .error (.valueError "minutes_before / minutes_after must be non-negative")
      else
        .ok ((scan events now before after impactLevels symbol).insertionSort
          (·.start ≤ ·.start)) := by
  by_cases hwindows : before < 0 ∨ after < 0
  · rw [activeEventsAt?, if_pos hwindows, if_pos hwindows]
  · rw [if_neg hwindows]
    rw [not_or, not_lt, not_lt] at hwindows
    have : Std.Total fun a b : CalendarEvent => a.start ≤ b.start :=
      ⟨fun a b => le_total a.start b.start⟩
    have : IsTrans CalendarEvent fun a b => a.start ≤ b.start := ⟨fun _ _ _ => le_trans⟩
    rw [activeEventsAt?_eq hwindows.1 hwindows.2]
    exact congrArg Except.ok (Lib.filter_insertionSort events)

/-- The rule, which has levels, calls it like this. -/
theorem activeEventsAt?_rule {levels : List String} (hbefore : 0 ≤ before) (hafter : 0 ≤ after)
    (hlevels : levels ≠ []) :
    index.activeEventsAt? now before after (some levels) symbol =
      .ok (index.activeEventsAt now before after levels symbol) := by
  simp only [activeEventsAt?, if_neg (windows_ok hbefore hafter), activeEventsAt, bisectLeft, bisectRight,
    Lib.bisect_eq (prefixed_lt index _), Lib.bisect_eq (prefixed_le index _)]
  congr 1
  refine List.filter_congr fun e _ => ?_
  simp [Passes, Relevant, hlevels]

end EventIndex

namespace NewsBlackoutRule

open EventIndex (init scan)

variable {r : NewsBlackoutRule} {events : List CalendarEvent}

/-- The events of a calendar that concern the order of a context, by the
plain scan. -/
def scanFor (r : NewsBlackoutRule) (events : List CalendarEvent) (clock : ℚ) (context : Dict) :
    List CalendarEvent :=
  scan events (resolveNow { clock } context) r.config.blackoutMinutesBefore
    r.config.blackoutMinutesAfter (some r.config.impactLevels)
    (if symbolOf context = "" then none else some (symbolOf context))

/-- The rule finds an event exactly when the scan does. -/
theorem activeEvents_init_ne {now : ℚ} {symbol : String} :
    r.activeEvents (init events) now symbol ≠ [] ↔
      scan events now r.config.blackoutMinutesBefore r.config.blackoutMinutesAfter
        (some r.config.impactLevels) (if symbol = "" then none else some symbol) ≠ [] := by
  have hlookup := (EventIndex.activeEventsAt?_rule r.before_nonneg r.after_nonneg
    r.impactLevels_ne).symm.trans (EventIndex.activeEventsAt?_init events now _ _ _
      (if symbol = "" then none else some symbol))
  rw [if_neg (EventIndex.windows_ok r.before_nonneg r.after_nonneg)] at hlookup
  rw [activeEvents, Except.ok.inj hlookup, ne_eq, ne_eq, ← List.length_eq_zero_iff,
    List.length_insertionSort, List.length_eq_zero_iff]

/-- **The indexed lookup is the plain scan, and the rule blocks exactly when
the scan finds something for a symbol of its scope.** -/
theorem lookup_scans_and_rule_blocks :
    (∀ (events : List CalendarEvent) (now before after : ℚ) (impactLevels : Option (List String))
        (symbol : Option String),
      (init events).activeEventsAt? now before after impactLevels symbol =
        if before < 0 ∨ after < 0 then
          .error (.valueError "minutes_before / minutes_after must be non-negative")
        else
          .ok ((scan events now before after impactLevels symbol).insertionSort
            (·.start ≤ ·.start))) ∧
    ∀ (r : NewsBlackoutRule) (events : List CalendarEvent) (clock : ℚ) (context : Dict),
      ∃ result, r.validate { clock, snapshot := some (some (init events)) } context = .ok result ∧
        (result.action = .block ↔
          r.InScope (symbolOf context) ∧ r.scanFor events clock context ≠ []) := by
  refine ⟨EventIndex.activeEventsAt?_init, fun r events clock context => ⟨_, rfl, ?_⟩⟩
  rw [decide_block_iff, scanFor, ← activeEvents_init_ne]
  simp only [Option.some.injEq, exists_eq_left']
  rfl

/-! ## A symbol out of scope -/

/-- A rule for one currency pair. -/
def eurusdRule : NewsBlackoutRule where
  config := { symbolsFilter := some ["EURUSD"] }
  before_nonneg := by decide
  after_nonneg := by decide
  impactLevels_ne := by decide
  impactLevels_normal := by
    intro level hlevel
    obtain rfl := List.mem_singleton.mp hlevel
    exact ⟨"high", by decide +kernel⟩
  symbolsFilter_ne := by decide
  symbolsFilter_normal := by
    rintro symbols ⟨⟩ s hs
    obtain rfl := List.mem_singleton.mp hs
    exact ⟨"EURUSD", by decide +kernel⟩

def payrolls : CalendarEvent :=
  { title := "Non-Farm Payrolls", country := "USD", start := 0, impact := "High" }

/-- An order for gold at the minute of the payrolls: the scan finds the event, and the rule
allows the order. And an empty set of levels does not filter by impact. -/
theorem eurusdRule_allows_gold :
    eurusdRule.scanFor [payrolls] 0 [("symbol", .str "XAUUSD")] = [payrolls] ∧
      (eurusdRule.validate { clock := 0, snapshot := some (some (init [payrolls])) }
        [("symbol", .str "XAUUSD")]).map (·.action) = .ok .allow ∧
      (init [payrolls]).activeEventsAt? 0 5 5 (some []) none = .ok [payrolls] := by
  decide +kernel

end NewsBlackoutRule

end TdSandboxed
