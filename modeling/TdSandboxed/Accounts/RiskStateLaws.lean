/-
TdSandboxed.Accounts.RiskStateLaws — the risk state over whole runs, with
its Redis text form (`accounts/risk_state.py`).

The derived fields are stored, and each operation refreshes some of them.
What holds of every state a run reaches is `Laws`, said of the operations
so far.

A number's text is that of exact arithmetic: a `DecimalText` is a writer
and a reader that give every number back. `last_updated` is left out here
as it is in `RiskState`.
-/
import Mathlib
import TdSandboxed.Accounts.RiskState
import TdSandboxed.Lib.DecimalContext
import TdSandboxed.Lib.Run

namespace TdSandboxed

open Lib

/-! ## Numbers as text -/

/-- `str` of a `Decimal` and `Decimal` of a text. -/
structure DecimalText where
  str : ℚ → String
  decimal : String → Option ℚ
  decimal_str : ∀ x, decimal (str x) = some x

namespace DecimalText

/-- A number with finitely many decimals. -/
def decimalForm (x : ℚ) : Option DecimalForm :=
  ((List.range (x.den.log2 + 1)).find? fun k : ℕ => x.den ∣ 10 ^ k).map fun k : ℕ =>
    .finite (x < 0) (x.num.natAbs * (10 ^ k / x.den)) (-k : ℤ)

theorem value_of_decimalForm {x : ℚ} {d : DecimalForm} (h : decimalForm x = some d) :
    d.value = .finite x := by
  obtain ⟨k, hk, rfl⟩ := Option.map_eq_some_iff.mp h
  obtain ⟨q, hq⟩ : x.den ∣ 10 ^ k := by simpa using List.find?_some hk
  have hmagnitude : ((x.num.natAbs * (10 ^ k / x.den) : ℕ) : ℚ) * 10 ^ (-(k : ℤ)) = |x| := by
    have hden : (x.den : ℚ) ≠ 0 := by exact_mod_cast x.den_nz
    have hpow : (10 : ℚ) ^ k = x.den * q := by exact_mod_cast hq
    rw [hq, Nat.mul_div_cancel_left q x.den_pos, zpow_neg, zpow_natCast, hpow]
    have hq0 : (q : ℚ) ≠ 0 := by
      intro hzero
      rw [hzero, mul_zero] at hpow
      exact absurd hpow (by positivity)
    rw [← Rat.num_div_den |x|, Rat.num_abs_eq_abs_num, Rat.den_abs_eq_den]
    push_cast [Nat.cast_natAbs]
    field_simp
  simp only [DecimalForm.value, DecimalValue.finite.injEq, decide_eq_true_eq]
  by_cases hneg : x < 0
  · rw [if_pos hneg, neg_mul, hmagnitude, abs_of_neg hneg, neg_neg]
  · rw [if_neg hneg, hmagnitude, abs_of_nonneg (not_lt.mp hneg)]

def fractionStr (x : ℚ) : String := x.num.repr ++ "/" ++ x.den.repr

def fractionOf (s : String) : Option ℚ :=
  (String.ofList (s.toList.takeWhile (· ≠ '/'))).toInt?.bind fun n =>
    (String.ofList (s.toList.dropWhile (· ≠ '/')).tail).toNat?.map fun d => mkRat n d

theorem slash_notMem_repr (n : ℤ) : '/' ∉ n.repr.toList := by
  have hnat : ∀ m : ℕ, '/' ∉ m.repr.toList := by
    intro m hm
    rw [Nat.toList_repr] at hm
    simpa using Nat.isDigit_of_mem_toDigits (by decide) (by decide) hm
  intro h
  rw [Int.repr_eq_if] at h
  split at h
  · exact hnat _ h
  · exact hnat _ (by simpa using h)

theorem fractionOf_fractionStr (x : ℚ) : fractionOf (fractionStr x) = some x := by
  have hin : ∀ c ∈ x.num.repr.toList, decide (c ≠ '/') = true := by
    intro c hc
    have hne : c ≠ '/' := fun h => slash_notMem_repr x.num (h ▸ hc)
    simpa using hne
  have hden : (String.ofList (Nat.toDigits 10 x.den)).toNat? = some x.den := by
    rw [← Nat.repr_eq_ofList_toDigits, Nat.toNat?_repr]
  simp only [fractionStr, fractionOf, String.toList_append, List.append_assoc,
    List.takeWhile_append_of_pos hin, List.dropWhile_append_of_pos hin]
  simp [hden, Rat.mkRat_self]

def finite? : DecimalValue → Option ℚ
  | .finite x => some x
  | _ => none

/-- The text of a decimal number, and a fraction where the decimals do not
end. -/
def decimals : DecimalText where
  str x :=
    match decimalForm x with
    | some d => String.ofList d.str
    | none => fractionStr x
  decimal s :=
    if '/' ∈ s.toList then fractionOf s
    else (DecimalForm.parse s.toList).bind fun d => finite? d.value
  decimal_str x := by
    cases h : decimalForm x with
    | some d =>
      have hplain : '/' ∉ d.str := fun hc => (DecimalForm.plainChar_str d _ hc).2.2.2 rfl
      simp [hplain, DecimalForm.parse_str, value_of_decimalForm h, finite?]
    | none => simpa [fractionStr] using fractionOf_fractionStr x

end DecimalText

namespace RiskState

/-! ## The Redis text form -/

/-- `data.get(key, default)` -/
def get (data : List (String × String)) (key default : String) : String :=
  (data.lookup key).getD default

def toDict (T : DecimalText) (s : RiskState) : List (String × String) :=
  [("daily_pnl", T.str s.dailyPnl),
   ("daily_pnl_percent", T.str s.dailyPnlPercent),
   ("current_equity", T.str s.currentEquity),
   ("peak_equity", T.str s.peakEquity),
   ("total_drawdown_percent", T.str s.totalDrawdownPercent),
   ("daily_starting_balance", T.str s.dailyStartingBalance)]

/-- `none`: a text is not a number, and `Decimal` raises. -/
def fromDict (T : DecimalText) (data : List (String × String)) : Option RiskState := do
  let dailyPnl ← T.decimal (get data "daily_pnl" "0")
  let dailyPnlPercent ← T.decimal (get data "daily_pnl_percent" "0")
  let currentEquity ← T.decimal (get data "current_equity" "0")
  let peakEquity ← T.decimal (get data "peak_equity" "0")
  let totalDrawdownPercent ← T.decimal (get data "total_drawdown_percent" "0")
  let dailyStartingBalance ← T.decimal (get data "daily_starting_balance" "0")
  return { dailyPnl, dailyPnlPercent, currentEquity, peakEquity, totalDrawdownPercent,
           dailyStartingBalance }

/-- A round trip through Redis gives the state back. -/
theorem fromDict_toDict (T : DecimalText) (s : RiskState) :
    fromDict T (toDict T s) = some s := by
  simp [fromDict, toDict, get, List.lookup, T.decimal_str]

example : (toDict .decimals { dailyPnl := -5 / 2, peakEquity := 100 }).lookup "daily_pnl" =
    some "-2.5" := by decide +kernel

/-! ## Operations -/

inductive Op
  | updateEquity (equity : ℚ)
  | recordTrade (realizedPnl : ℚ)
  | resetDaily (startingBalance : ℚ)
  /-- `to_dict`, then `from_dict`. -/
  | persist
  deriving DecidableEq

def apply (T : DecimalText) (s : RiskState) : Op → Option RiskState
  | .updateEquity e => some (s.updateEquity e)
  | .recordTrade p => some (s.recordTrade p)
  | .resetDaily b => some (s.resetDaily b)
  | .persist => fromDict T (toDict T s)

/-- A state before any operation: nothing traded, no drawdown. -/
def initial (startingBalance peakEquity currentEquity : ℚ) : RiskState :=
  { dailyStartingBalance := startingBalance, peakEquity, currentEquity }

/-! ## What the operations so far say -/

/-- The equities seen. -/
def equities (ops : List Op) : List ℚ :=
  ops.filterMap fun
    | .updateEquity e => some e
    | _ => none

/-- The trades recorded since the last reset. -/
def dayTrades (ops : List Op) : List ℚ :=
  ops.foldl (fun trades op => match op with
    | .recordTrade p => trades ++ [p]
    | .resetDaily _ => []
    | _ => trades) []

/-- The balance the day started with. -/
def dayBalance (balance : ℚ) (ops : List Op) : ℚ :=
  ops.foldl (fun b op => match op with
    | .resetDaily b' => b'
    | _ => b) balance

/-- The laws of a state that `ops` led to from `initial balance peak equity`. -/
structure Laws (balance peak equity : ℚ) (ops : List Op) (s : RiskState) : Prop where
  peakEquity : s.peakEquity = (equities ops).foldl max peak
  currentEquity : s.currentEquity = (equities ops).getLastD equity
  drawdown_nonneg : 0 ≤ s.totalDrawdownPercent
  drawdown : equities ops ≠ [] → 0 < s.peakEquity →
    s.totalDrawdownPercent = (s.peakEquity - s.currentEquity) / s.peakEquity * 100
  dailyStartingBalance : s.dailyStartingBalance = dayBalance balance ops
  dailyPnl : s.dailyPnl = (dayTrades ops).sum
  dailyPnlPercent : 0 < s.dailyStartingBalance →
    s.dailyPnlPercent = s.dailyPnl / s.dailyStartingBalance * 100

variable {balance peak equity : ℚ} {ops : List Op} {s : RiskState}

theorem Laws.initial (balance peak equity : ℚ) :
    Laws balance peak equity [] (initial balance peak equity) where
  peakEquity := rfl
  currentEquity := rfl
  drawdown_nonneg := le_refl 0
  drawdown := fun h => absurd rfl h
  dailyStartingBalance := rfl
  dailyPnl := rfl
  dailyPnlPercent := fun _ => by simp [RiskState.initial]

theorem updateEquity_peak (s : RiskState) (e : ℚ) :
    (s.updateEquity e).peakEquity = max s.peakEquity e := by
  simp only [updateEquity, max_def]
  split_ifs <;> linarith

@[simp] theorem updateEquity_dailyPnl (s : RiskState) (e : ℚ) :
    (s.updateEquity e).dailyPnl = s.dailyPnl := rfl

@[simp] theorem updateEquity_dailyStartingBalance (s : RiskState) (e : ℚ) :
    (s.updateEquity e).dailyStartingBalance = s.dailyStartingBalance := rfl

@[simp] theorem resetDaily_peakEquity (s : RiskState) (b : ℚ) :
    (s.resetDaily b).peakEquity = s.peakEquity := rfl

@[simp] theorem resetDaily_currentEquity (s : RiskState) (b : ℚ) :
    (s.resetDaily b).currentEquity = s.currentEquity := rfl

@[simp] theorem resetDaily_totalDrawdownPercent (s : RiskState) (b : ℚ) :
    (s.resetDaily b).totalDrawdownPercent = s.totalDrawdownPercent := rfl

/-- The stored drawdown after an update is the one from the peak. -/
theorem updateEquity_drawdown (s : RiskState) (e : ℚ) (h : 0 < (s.updateEquity e).peakEquity) :
    (s.updateEquity e).totalDrawdownPercent =
      ((s.updateEquity e).peakEquity - e) / (s.updateEquity e).peakEquity * 100 := by
  have hd : (s.updateEquity e).drawdownFromPeak =
      ((s.updateEquity e).peakEquity - e) / (s.updateEquity e).peakEquity * 100 :=
    if_neg (not_le.mpr h)
  exact hd

theorem updateEquity_drawdown_nonneg (s : RiskState) (e : ℚ) :
    0 ≤ (s.updateEquity e).totalDrawdownPercent := by
  rcases le_or_gt (s.updateEquity e).peakEquity 0 with h | h
  · have hzero : (s.updateEquity e).totalDrawdownPercent = 0 := if_pos h
    rw [hzero]
  · have hle : e ≤ (s.updateEquity e).peakEquity := by
      rw [updateEquity_peak]
      exact le_max_right _ _
    rw [updateEquity_drawdown s e h]
    have hnum : 0 ≤ (s.updateEquity e).peakEquity - e := sub_nonneg.mpr hle
    positivity

theorem Laws.updateEquity (h : Laws balance peak equity ops s) (e : ℚ) :
    Laws balance peak equity (ops ++ [.updateEquity e]) (s.updateEquity e) where
  peakEquity := by
    rw [updateEquity_peak, h.peakEquity]
    simp [equities]
  currentEquity := by simp [equities, RiskState.updateEquity]
  drawdown_nonneg := updateEquity_drawdown_nonneg s e
  drawdown := fun _ hpos => updateEquity_drawdown s e hpos
  dailyStartingBalance := by simpa [dayBalance] using h.dailyStartingBalance
  dailyPnl := by simpa [dayTrades] using h.dailyPnl
  dailyPnlPercent := h.dailyPnlPercent

theorem Laws.recordTrade (h : Laws balance peak equity ops s) (p : ℚ) :
    Laws balance peak equity (ops ++ [.recordTrade p]) (s.recordTrade p) := by
  have hpnl : s.dailyPnl + p = (dayTrades (ops ++ [.recordTrade p])).sum := by
    rw [h.dailyPnl]
    simp [dayTrades]
  have heq : equities (ops ++ [.recordTrade p]) = equities ops := by simp [equities]
  have hbal : dayBalance balance (ops ++ [.recordTrade p]) = dayBalance balance ops := by
    simp [dayBalance]
  by_cases hpos : 0 < s.dailyStartingBalance
  · simp only [RiskState.recordTrade, hpos, if_true]
    exact ⟨heq ▸ h.peakEquity, heq ▸ h.currentEquity, h.drawdown_nonneg, heq ▸ h.drawdown,
      hbal ▸ h.dailyStartingBalance, hpnl, fun _ => rfl⟩
  · simp only [RiskState.recordTrade, hpos, if_false]
    exact ⟨heq ▸ h.peakEquity, heq ▸ h.currentEquity, h.drawdown_nonneg, heq ▸ h.drawdown,
      hbal ▸ h.dailyStartingBalance, hpnl, fun hb => absurd hb hpos⟩

theorem Laws.resetDaily (h : Laws balance peak equity ops s) (b : ℚ) :
    Laws balance peak equity (ops ++ [.resetDaily b]) (s.resetDaily b) where
  peakEquity := by simpa [equities] using h.peakEquity
  currentEquity := by simpa [equities] using h.currentEquity
  drawdown_nonneg := h.drawdown_nonneg
  drawdown := by simpa [equities] using h.drawdown
  dailyStartingBalance := by simp [dayBalance, RiskState.resetDaily]
  dailyPnl := by simp [dayTrades, RiskState.resetDaily]
  dailyPnlPercent := fun _ => by simp [RiskState.resetDaily]

theorem Laws.persist (h : Laws balance peak equity ops s) :
    Laws balance peak equity (ops ++ [.persist]) s where
  peakEquity := by simpa [equities] using h.peakEquity
  currentEquity := by simpa [equities] using h.currentEquity
  drawdown_nonneg := h.drawdown_nonneg
  drawdown := by simpa [equities] using h.drawdown
  dailyStartingBalance := by simpa [dayBalance] using h.dailyStartingBalance
  dailyPnl := by simpa [dayTrades] using h.dailyPnl
  dailyPnlPercent := h.dailyPnlPercent

/-- Every operation succeeds and keeps the laws. -/
theorem Laws.apply (T : DecimalText) (h : Laws balance peak equity ops s) (op : Op) :
    ∃ s', s.apply T op = some s' ∧ Laws balance peak equity (ops ++ [op]) s' := by
  cases op with
  | updateEquity e => exact ⟨_, rfl, h.updateEquity e⟩
  | recordTrade p => exact ⟨_, rfl, h.recordTrade p⟩
  | resetDaily b => exact ⟨_, rfl, h.resetDaily b⟩
  | persist => exact ⟨s, fromDict_toDict T s, h.persist⟩

/-- **The laws hold over whole runs.** Every sequence of operations leads
to a state, which meets the laws and which a round trip gives back. -/
theorem laws_of_run (T : DecimalText) (balance peak equity : ℚ) (ops : List Op) :
    ∃ s, exec (apply T) (initial balance peak equity) ops = some s ∧
      Laws balance peak equity ops s ∧ fromDict T (toDict T s) = some s := by
  induction ops using List.reverseRecOn with
  | nil => exact ⟨_, rfl, Laws.initial balance peak equity, fromDict_toDict T _⟩
  | append_singleton ops op ih =>
    obtain ⟨s, hs, hlaws, -⟩ := ih
    obtain ⟨s', hs', hlaws'⟩ := hlaws.apply T op
    refine ⟨s', ?_, hlaws', fromDict_toDict T s'⟩
    rw [exec_snoc hs]
    exact hs'

/-- A losing trade, saved and loaded. -/
theorem laws_of_run_losing :
    ∃ s, exec (apply .decimals) (initial 100 100 100)
        [.recordTrade (-5 / 2), .updateEquity (195 / 2), .persist] = some s ∧
      s.dailyPnl = -5 / 2 ∧ s.totalDrawdownPercent = 5 / 2 := by
  obtain ⟨s, hs, hlaws, -⟩ := laws_of_run .decimals 100 100 100
    [.recordTrade (-5 / 2), .updateEquity (195 / 2), .persist]
  have hpeak : s.peakEquity = 100 := by
    rw [hlaws.peakEquity]
    decide +kernel
  have hdrawdown := hlaws.drawdown (by decide) (by rw [hpeak]; norm_num)
  rw [hpeak, hlaws.currentEquity] at hdrawdown
  refine ⟨s, hs, hlaws.dailyPnl.trans (by decide +kernel), hdrawdown.trans (by decide +kernel)⟩

end RiskState

end TdSandboxed
