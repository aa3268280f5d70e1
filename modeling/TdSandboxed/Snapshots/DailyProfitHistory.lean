/-
TdSandboxed.Snapshots.DailyProfitHistory — the rolling daily profits of an
account and their positive sum (`snapshots/daily_profit_history.py`).

`record` moves the sum by what the day was worth before and is worth now,
`prune` and `load_from_db` sum anew. So each operation is one equation for
the history it leaves and one for the sum, and both follow a run by one
induction.

No operation but `prune` and a load looks at a window: a day stays until one
of them drops it, and `record` takes any day.

A day is its number and money is rational.
-/
import Mathlib.Algebra.Order.Ring.Rat
import Mathlib.Data.List.Induction
import Mathlib.Data.List.Sort
import TdSandboxed.Lib.OrderedDict

namespace TdSandboxed

open Lib (OrderedDict)

structure DailyProfitHistory where
  history : OrderedDict String (OrderedDict ℤ ℚ)
  positiveSum : OrderedDict String ℚ

/-- What the query of a load reads of a row of `account_snapshots`. -/
structure AccountSnapshot where
  accountId : String
  snapshotDate : ℤ
  dailyPnl : Option ℚ

/-- What a profit adds to a positive sum. -/
def positivePart (pnl : ℚ) : ℚ := if 0 < pnl then pnl else 0

namespace DailyProfitHistory

def empty : DailyProfitHistory := ⟨.empty, .empty⟩

/-- `sum(v for v in history.values() if v > 0)` -/
def sumPositive (history : OrderedDict ℤ ℚ) : ℚ := (history.values.filter fun v => 0 < v).sum

def getHistory (h : DailyProfitHistory) (accountId : String) : OrderedDict ℤ ℚ :=
  (h.history.get? accountId).getD .empty

def getPositiveSum (h : DailyProfitHistory) (accountId : String) (excludeDate : Option ℤ) : ℚ :=
  let total := (h.positiveSum.get? accountId).getD 0
  match excludeDate with
  | none => total
  | some day =>
    match (h.history.get? accountId).bind fun history => history.get? day with
    | none => total
    | some excluded => if 0 < excluded then total - excluded else total

/-- Insert or replace a day. -/
def record (h : DailyProfitHistory) (accountId : String) (day : ℤ) (pnl : ℚ) :
    DailyProfitHistory :=
  let history := (h.history.get? accountId).getD .empty
  let prevSum := (h.positiveSum.get? accountId).getD 0
  let prevSum :=
    match history.get? day with
    | none => prevSum
    | some oldValue => if 0 < oldValue then prevSum - oldValue else prevSum
  let prevSum := if 0 < pnl then prevSum + pnl else prevSum
  { history := h.history.set accountId (history.set day pnl)
    positiveSum := h.positiveSum.set accountId prevSum }

/-- Drop the days before a date. An account without days is left as it is. -/
def prune (h : DailyProfitHistory) (accountId : String) (before : ℤ) : DailyProfitHistory :=
  match h.history.get? accountId with
  | none => h
  | some history =>
    if history.items.isEmpty then h
    else
      let kept := history.filterKeys fun day => before ≤ day
      { history := h.history.set accountId kept
        positiveSum := h.positiveSum.set accountId (sumPositive kept) }

/-- The rows of the query: those of the account in the lookback, by date. -/
def selectRows (snapshots : List AccountSnapshot) (accountId : String)
    (currentDate lookbackDays : ℤ) : List AccountSnapshot :=
  (snapshots.filter fun row =>
    row.accountId = accountId ∧ currentDate - lookbackDays ≤ row.snapshotDate).insertionSort
      (·.snapshotDate ≤ ·.snapshotDate)

/-- `load_from_db`: the rows with a profit replace the account's history. -/
def loadFromDb (h : DailyProfitHistory) (snapshots : List AccountSnapshot) (accountId : String)
    (currentDate lookbackDays : ℤ) : DailyProfitHistory :=
  let rows := selectRows snapshots accountId currentDate lookbackDays
  let newHistory := OrderedDict.ofWrites
    (rows.filterMap fun row => row.dailyPnl.map fun pnl => (row.snapshotDate, pnl))
  { history := h.history.set accountId newHistory
    positiveSum := h.positiveSum.set accountId (sumPositive newHistory) }

inductive Operation
  | record (accountId : String) (day : ℤ) (pnl : ℚ)
  | prune (accountId : String) (before : ℤ)
  | load (snapshots : List AccountSnapshot) (accountId : String) (currentDate lookbackDays : ℤ)

def apply (h : DailyProfitHistory) : Operation → DailyProfitHistory
  | .record accountId day pnl => h.record accountId day pnl
  | .prune accountId before => h.prune accountId before
  | .load snapshots accountId currentDate lookbackDays =>
    h.loadFromDb snapshots accountId currentDate lookbackDays

def run (ops : List Operation) : DailyProfitHistory := ops.foldl apply empty

/-! ## What a run should keep -/

/-- The operation puts the day into the account's history. -/
def Operation.Records (accountId : String) (day : ℤ) : Operation → Prop
  | .record a d _ => a = accountId ∧ d = day
  | .prune _ _ => False
  | .load snapshots a currentDate lookbackDays =>
    a = accountId ∧ currentDate - lookbackDays ≤ day ∧
      ∃ row ∈ snapshots, row.accountId = a ∧ row.snapshotDate = day ∧ row.dailyPnl ≠ none

/-- The operation takes what was recorded for the day out of the history:
a cutoff after it, or a load, which replaces the whole history. -/
def Operation.Drops (accountId : String) (day : ℤ) : Operation → Prop
  | .record _ _ _ => False
  | .prune a before => a = accountId ∧ day < before
  | .load _ a _ _ => a = accountId

/-- The day was recorded and not dropped since. -/
def Retained (ops : List Operation) (accountId : String) (day : ℤ) : Prop :=
  ∃ earlier op later, ops = earlier ++ op :: later ∧ op.Records accountId day ∧
    ∀ l ∈ later, ¬l.Drops accountId day

/-- The sum is that of the days stored, and these are the days retained. -/
structure Aggregates (ops : List Operation) : Prop where
  positiveSum : ∀ accountId, (run ops).getPositiveSum accountId none =
    sumPositive ((run ops).getHistory accountId)
  days : ∀ accountId day, day ∈ ((run ops).getHistory accountId).keys ↔
    Retained ops accountId day

/-- No cutoff of the run, of a `prune` or of a load, is after the day. -/
def InWindow (ops : List Operation) (accountId : String) (day : ℤ) : Prop :=
  (∀ before, .prune accountId before ∈ ops → before ≤ day) ∧
    ∀ snapshots currentDate lookbackDays,
      .load snapshots accountId currentDate lookbackDays ∈ ops → currentDate - lookbackDays ≤ day

/-- The days stored are those recorded whose date no cutoff of the run
leaves out. -/
def KeepsWindow (ops : List Operation) : Prop :=
  ∀ accountId day, day ∈ ((run ops).getHistory accountId).keys ↔
    (∃ op ∈ ops, op.Records accountId day) ∧ InWindow ops accountId day

/-! ## One operation -/

section
variable {h : DailyProfitHistory} {accountId a : String} {day d before currentDate : ℤ} {pnl : ℚ}
  {ops : List Operation} {op : Operation} {history : OrderedDict ℤ ℚ}

theorem sum_filter_pos (l : List ℚ) : (l.filter fun v => 0 < v).sum = (l.map positivePart).sum := by
  induction l with
  | nil => rfl
  | cons v l ih =>
    rw [List.map_cons, List.sum_cons, ← ih, positivePart]
    by_cases hv : 0 < v <;> simp [hv]

theorem sumPositive_eq_total (history : OrderedDict ℤ ℚ) :
    sumPositive history = history.total positivePart := sum_filter_pos history.values

/-- The sum with the day's old value taken out and its new one put in. -/
theorem sumPositive_set (history : OrderedDict ℤ ℚ) (day : ℤ) (pnl : ℚ) :
    sumPositive (history.set day pnl) =
      sumPositive history - ((history.get? day).map positivePart).getD 0 + positivePart pnl := by
  rw [sumPositive_eq_total, sumPositive_eq_total, OrderedDict.total_set]

theorem getHistory_record (h : DailyProfitHistory) (accountId a : String) (day : ℤ) (pnl : ℚ) :
    (h.record accountId day pnl).getHistory a =
      if a = accountId then (h.getHistory accountId).set day pnl else h.getHistory a := by
  rw [getHistory, record, OrderedDict.get?_set]
  split <;> rfl

theorem getHistory_prune (h : DailyProfitHistory) (accountId a : String) (before : ℤ) :
    (h.prune accountId before).getHistory a =
      if a = accountId then (h.getHistory accountId).filterKeys fun day => before ≤ day
      else h.getHistory a := by
  rw [prune]
  by_cases ha : a = accountId
  · subst ha
    rw [if_pos rfl]
    cases hh : h.history.get? a with
    | none =>
      have hnil : h.getHistory a = .empty := by rw [getHistory, hh]; rfl
      rw [hnil]
      rfl
    | some history =>
      have hget : h.getHistory a = history := by rw [getHistory, hh]; rfl
      cases hi : history.items.isEmpty with
      | true =>
        rw [hget, OrderedDict.filterKeys_of_items_nil _ (List.isEmpty_iff.mp hi)]
        simp [hi, hget]
      | false =>
        rw [hget]
        simp [hi, getHistory, OrderedDict.get?_set]
  · rw [if_neg ha]
    cases hh : h.history.get? accountId with
    | none => rfl
    | some history =>
      cases hi : history.items.isEmpty with
      | true => simp [hi]
      | false => simp [hi, getHistory, OrderedDict.get?_set, ha]

theorem getHistory_loadFromDb (h : DailyProfitHistory) (snapshots : List AccountSnapshot)
    (accountId a : String) (currentDate lookbackDays : ℤ) :
    (h.loadFromDb snapshots accountId currentDate lookbackDays).getHistory a =
      if a = accountId then
        .ofWrites ((selectRows snapshots accountId currentDate lookbackDays).filterMap fun row =>
          row.dailyPnl.map fun pnl => (row.snapshotDate, pnl))
      else h.getHistory a := by
  rw [getHistory, loadFromDb, OrderedDict.get?_set]
  split <;> rfl

/-- The days of a load are the dates of the rows that it counts. -/
theorem mem_days_loaded {snapshots : List AccountSnapshot} {lookbackDays : ℤ} :
    day ∈ (OrderedDict.ofWrites
        ((selectRows snapshots accountId currentDate lookbackDays).filterMap fun row =>
          row.dailyPnl.map fun pnl => (row.snapshotDate, pnl))).keys ↔
      currentDate - lookbackDays ≤ day ∧
        ∃ row ∈ snapshots, row.accountId = accountId ∧ row.snapshotDate = day ∧
          row.dailyPnl ≠ none := by
  rw [OrderedDict.mem_keys_ofWrites]
  simp only [selectRows, List.mem_map, List.mem_filterMap, List.mem_insertionSort,
    List.mem_filter, decide_eq_true_eq, Option.map_eq_some_iff]
  constructor
  · intro hday
    obtain ⟨_, ⟨row, ⟨hrow, ha, hdate⟩, pnl, hpnl, rfl⟩, rfl⟩ := hday
    exact ⟨hdate, row, hrow, ha, rfl, by simp [hpnl]⟩
  · intro hday
    obtain ⟨hdate, row, hrow, ha, rfl, hsome⟩ := hday
    obtain ⟨pnl, hpnl⟩ := Option.ne_none_iff_exists'.mp hsome
    exact ⟨_, ⟨row, ⟨hrow, ha, hdate⟩, pnl, hpnl, rfl⟩, rfl⟩

/-- After an operation a day is stored when the operation records it, or
when it was stored before and is not dropped. -/
theorem mem_days_apply (h : DailyProfitHistory) (op : Operation) (accountId : String) (day : ℤ) :
    day ∈ ((h.apply op).getHistory accountId).keys ↔
      op.Records accountId day ∨ day ∈ (h.getHistory accountId).keys ∧ ¬op.Drops accountId day := by
  cases op with
  | record a d pnl =>
    rw [apply, getHistory_record]
    by_cases ha : accountId = a
    · simp [ha, OrderedDict.mem_keys_set, Operation.Records, Operation.Drops, eq_comm]
    · simp [ha, Ne.symm ha, Operation.Records, Operation.Drops]
  | prune a before =>
    rw [apply, getHistory_prune]
    by_cases ha : accountId = a
    · simp [ha, OrderedDict.mem_keys_filterKeys, Operation.Records, Operation.Drops]
    · simp [ha, Ne.symm ha, Operation.Records, Operation.Drops]
  | load snapshots a currentDate lookbackDays =>
    rw [apply, getHistory_loadFromDb]
    by_cases ha : accountId = a
    · simp [ha, mem_days_loaded, Operation.Records, Operation.Drops]
    · simp [ha, Ne.symm ha, Operation.Records, Operation.Drops]

/-! ## The sum -/

/-- The cached sums are those of the days stored. -/
def Consistent (h : DailyProfitHistory) : Prop :=
  ∀ accountId, h.getPositiveSum accountId none = sumPositive (h.getHistory accountId)

theorem consistent_empty : empty.Consistent := by
  intro accountId
  rfl

/-- A new history is put in place with its sum. -/
theorem Consistent.put (hc : h.Consistent) (accountId : String) {total : ℚ}
    (ht : total = sumPositive history) :
    Consistent ⟨h.history.set accountId history, h.positiveSum.set accountId total⟩ := by
  intro a
  rw [getPositiveSum, getHistory, OrderedDict.get?_set, OrderedDict.get?_set]
  by_cases ha : a = accountId
  · rw [if_pos ha, if_pos ha]
    exact ht
  · rw [if_neg ha, if_neg ha]
    exact hc a

theorem Consistent.record (hc : h.Consistent) (accountId : String) (day : ℤ) (pnl : ℚ) :
    (h.record accountId day pnl).Consistent := by
  refine hc.put accountId ?_
  have hsum : (h.positiveSum.get? accountId).getD 0 =
      sumPositive ((h.history.get? accountId).getD .empty) := hc accountId
  rw [sumPositive_set, ← hsum]
  cases ((h.history.get? accountId).getD .empty).get? day with
  | none =>
    simp only [Option.map_none, Option.getD_none, positivePart]
    split <;> simp
  | some oldValue =>
    simp only [Option.map_some, Option.getD_some, positivePart]
    split <;> split <;> simp

theorem Consistent.prune (hc : h.Consistent) (accountId : String) (before : ℤ) :
    (h.prune accountId before).Consistent := by
  rw [DailyProfitHistory.prune]
  cases hh : h.history.get? accountId with
  | none => exact hc
  | some history =>
    cases hi : history.items.isEmpty with
    | true => simpa [hi] using hc
    | false => simpa [hi] using hc.put accountId rfl

theorem Consistent.loadFromDb (hc : h.Consistent) (snapshots : List AccountSnapshot)
    (accountId : String) (currentDate lookbackDays : ℤ) :
    (h.loadFromDb snapshots accountId currentDate lookbackDays).Consistent :=
  hc.put accountId rfl

theorem Consistent.apply (hc : h.Consistent) (op : Operation) : (h.apply op).Consistent := by
  cases op with
  | record accountId day pnl => exact hc.record accountId day pnl
  | prune accountId before => exact hc.prune accountId before
  | load snapshots accountId currentDate lookbackDays =>
    exact hc.loadFromDb snapshots accountId currentDate lookbackDays

/-- Leaving a day out takes its profit out of the sum. -/
theorem Consistent.exclude (hc : h.Consistent) (accountId : String) (day : ℤ) :
    h.getPositiveSum accountId (some day) =
      sumPositive ((h.getHistory accountId).filterKeys fun d => d ≠ day) := by
  have hsum : (h.positiveSum.get? accountId).getD 0 = sumPositive (h.getHistory accountId) :=
    hc accountId
  have hsplit := OrderedDict.total_eq_add_filterKeys_ne positivePart (h.getHistory accountId) day
  have hget : (h.history.get? accountId).bind (fun history => history.get? day) =
      (h.getHistory accountId).get? day := by
    rw [getHistory]
    cases h.history.get? accountId <;> rfl
  rw [sumPositive_eq_total] at hsum
  rw [sumPositive_eq_total, getPositiveSum, hget, hsum, hsplit]
  cases (h.getHistory accountId).get? day with
  | none => simp
  | some excluded =>
    simp only [Option.map_some, Option.getD_some, positivePart]
    split <;> simp

/-! ## Runs -/

theorem run_concat (ops : List Operation) (op : Operation) :
    run (ops ++ [op]) = (run ops).apply op := by
  rw [run, List.foldl_append]
  rfl

theorem retained_concat :
    Retained (ops ++ [op]) accountId day ↔
      op.Records accountId day ∨ Retained ops accountId day ∧ ¬op.Drops accountId day := by
  constructor
  · intro hret
    obtain ⟨earlier, o, later, heq, ho, hlater⟩ := hret
    obtain rfl | ⟨later, l, rfl⟩ := List.eq_nil_or_concat' later
    · obtain ⟨rfl, hop⟩ := List.append_inj' heq rfl
      cases hop
      exact .inl ho
    · rw [← List.cons_append, ← List.append_assoc] at heq
      obtain ⟨rfl, hop⟩ := List.append_inj' heq rfl
      cases hop
      refine .inr ⟨⟨earlier, o, later, rfl, ho, ?_⟩, hlater op (by simp)⟩
      intro l hl
      exact hlater l (by simp [hl])
  · intro hret
    obtain hop | ⟨⟨earlier, o, later, rfl, ho, hlater⟩, hdrop⟩ := hret
    · exact ⟨ops, op, [], rfl, hop, by simp⟩
    · refine ⟨earlier, o, later ++ [op], by simp, ho, ?_⟩
      intro l hl
      obtain hl | hl := List.mem_append.mp hl
      · exact hlater l hl
      · rw [List.mem_singleton.mp hl]
        exact hdrop

theorem consistent_run (ops : List Operation) : (run ops).Consistent := by
  induction ops using List.reverseRecOn with
  | nil => exact consistent_empty
  | append_singleton ops op ih => rw [run_concat]; exact ih.apply op

theorem mem_days_run (ops : List Operation) (accountId : String) (day : ℤ) :
    day ∈ ((run ops).getHistory accountId).keys ↔ Retained ops accountId day := by
  induction ops using List.reverseRecOn with
  | nil =>
    constructor
    · intro hday
      cases hday
    · intro hret
      obtain ⟨earlier, op, later, heq, -⟩ := hret
      cases earlier <;> cases heq
  | append_singleton ops op ih => rw [run_concat, mem_days_apply, ih, retained_concat]

/-- The sum follows the days, and the days follow the window they were
recorded in. -/
theorem run_aggregates (ops : List Operation) : Aggregates ops where
  positiveSum := consistent_run ops
  days := mem_days_run ops

end

/-- A day that was pruned stays when it is recorded again, and a load
forgets a day of its own window that the table does not have. -/
theorem daysOutsideWindow :
    ¬KeepsWindow [.record "acc-1" 20 100, .prune "acc-1" 10, .record "acc-1" 5 50] ∧
      ¬KeepsWindow [.record "acc-1" 20 100, .load [] "acc-1" 21 60] := by
  constructor
  · intro hkeeps
    have hwindow := ((hkeeps "acc-1" 5).mp (by decide)).2.1 10 (by simp)
    omega
  · intro hkeeps
    have hloads : ∀ snapshots currentDate lookbackDays,
        Operation.load snapshots "acc-1" currentDate lookbackDays ∈
          [Operation.record "acc-1" 20 100, .load [] "acc-1" 21 60] →
        currentDate - lookbackDays ≤ 20 := by
      intro snapshots currentDate lookbackDays hload
      obtain hload | hload := List.mem_pair.mp hload <;> cases hload
      decide
    have hday := (hkeeps "acc-1" 20).mpr ⟨⟨_, List.mem_cons_self, rfl, rfl⟩, by simp, hloads⟩
    exact absurd hday (by decide)

end DailyProfitHistory

end TdSandboxed
