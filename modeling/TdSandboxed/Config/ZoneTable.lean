/-
TdSandboxed.Config.ZoneTable — a time zone as its UTC offset, with the
changes of the clock (`zoneinfo`, as `config/session_clock.py` uses it).

A table is what the zone database compiles to: an offset, and the instants
from which on another one is in force. Times have a last year, so a table
is finite. A change that sets the clock forward skips wall times, one that
sets it back repeats them, and a wall time with its `fold` is resolved as
`zoneinfo` does it: a skipped one by the offset before the change, or by
the one behind it when `fold` is set.

Two changes are more than a day apart on the wall, none moves the clock by
more than a day, and all is in whole seconds (`Regular`). Then a wall time that is neither repeated
nor skipped is crossed once, at the instant it resolves to
(`Regular.crossing`).
-/
import Mathlib.Algebra.Order.Group.Abs
import Mathlib.Algebra.Order.Group.Int
import TdSandboxed.Config.SessionClock

namespace TdSandboxed

/-- From the instant on the offset is another. -/
structure ClockChange where
  instant : ℤ
  before : ℤ
  after : ℤ
  deriving DecidableEq

namespace ClockChange

/-- Where the wall times begin that the change skips or repeats. -/
def wallFrom (c : ClockChange) : ℤ := c.instant + min c.before c.after

def wallTo (c : ClockChange) : ℤ := c.instant + max c.before c.after

/-- The clock jumps over the wall time. The first time that it does not show
is not jumped over: the jump itself stands for it. -/
def Skips (c : ClockChange) (w : ℤ) : Prop :=
  c.instant + c.before < w ∧ w < c.instant + c.after

/-- The clock shows the wall time twice. -/
def Repeats (c : ClockChange) (w : ℤ) : Prop :=
  c.instant + c.after ≤ w ∧ w < c.instant + c.before

instance (c : ClockChange) (w : ℤ) : Decidable (c.Skips w) := inferInstanceAs (Decidable (_ ∧ _))

instance (c : ClockChange) (w : ℤ) : Decidable (c.Repeats w) := inferInstanceAs (Decidable (_ ∧ _))

end ClockChange

/-- A wall time that the clock shows once, or jumps to. -/
def OffChanges (changes : List ClockChange) (w : ℤ) : Prop :=
  ∀ c ∈ changes, ¬c.Skips w ∧ ¬c.Repeats w

/-! ## Reading a table -/

def offsetAt (o : ℤ) : List ClockChange → ℤ → ℤ
  | [], _ => o
  | c :: rest, t => if t < c.instant then o else offsetAt c.after rest t

/-- The clock was set back so shortly before that it shows a time again. -/
def foldAt : List ClockChange → ℤ → Bool
  | [], _ => false
  | c :: rest, t =>
    if t < c.instant then false
    else t - c.instant < c.before - c.after || foldAt rest t

/-- The offset that a wall time is resolved by. With `fold` a change counts
from the earlier of its two wall times on, and without from the later. -/
def offsetOfWall (o : ℤ) : List ClockChange → ℤ → Bool → ℤ
  | [], _, _ => o
  | c :: rest, w, fold =>
    if (if fold then c.wallFrom else c.wallTo) ≤ w then offsetOfWall c.after rest w fold else o

/-- The changes begin at this wall time or later. -/
def StartsFrom (b : ℤ) (changes : List ClockChange) : Prop :=
  ∀ c ∈ changes.head?, b ≤ c.wallFrom

def SessionConfig.second : ℤ := 1000000

def Regular (o : ℤ) : List ClockChange → Prop
  | [] => o % SessionConfig.second = 0
  | c :: rest =>
    (o % SessionConfig.second = 0 ∧ c.instant % SessionConfig.second = 0) ∧ c.before = o ∧
      |c.after - c.before| ≤ SessionConfig.day ∧ StartsFrom (c.wallTo + SessionConfig.day) rest ∧
      Regular c.after rest

instance (b : ℤ) : (changes : List ClockChange) → Decidable (StartsFrom b changes)
  | [] => .isTrue (by intro c hc; cases hc)
  | c :: _ => decidable_of_iff (b ≤ c.wallFrom) (by simp [StartsFrom])

instance decidableRegular : (o : ℤ) → (changes : List ClockChange) → Decidable (Regular o changes)
  | o, [] => inferInstanceAs (Decidable (o % SessionConfig.second = 0))
  | _, c :: rest =>
    have := decidableRegular c.after rest
    inferInstanceAs (Decidable (_ ∧ _ ∧ _ ∧ _ ∧ _))

structure ZoneTable where
  initial : ℤ
  changes : List ClockChange
  regular : Regular initial changes

/-- `ZoneInfo` -/
def ZoneTable.zone (table : ZoneTable) : Zone where
  wall t := (t + offsetAt table.initial table.changes t, foldAt table.changes t)
  utcOffset w fold := offsetOfWall table.initial table.changes w fold

/-- A zone whose clock is never changed. -/
def ZoneTable.fixed (o : ℤ) (h : o % SessionConfig.second = 0) : ZoneTable where
  initial := o
  changes := []
  regular := h

def ZoneTable.utc : ZoneTable := .fixed 0 rfl

/-! ## The wall clock -/

section

variable {o b t w : ℤ} {c : ClockChange} {changes rest : List ClockChange}

theorem day_pos : 0 < SessionConfig.day := by decide

theorem Regular.seconds (h : Regular o changes) : o % SessionConfig.second = 0 := by
  cases changes with
  | nil => exact h
  | cons c rest => exact h.1.1

/-- The bounds of a change, by the direction of the jump. -/
theorem ClockChange.wall_bounds (c : ClockChange) :
    c.wallFrom ≤ c.instant + c.before ∧ c.instant + c.before ≤ c.wallTo ∧
      c.wallFrom ≤ c.instant + c.after ∧ c.instant + c.after ≤ c.wallTo ∧
      (c.wallTo = c.instant + c.before ∧ c.wallFrom = c.instant + c.after ∨
        c.wallTo = c.instant + c.after ∧ c.wallFrom = c.instant + c.before) := by
  unfold wallFrom wallTo
  omega

/-- What starts late enough starts after a change. -/
theorem StartsFrom.instant_le {c' : ClockChange}
    (h : StartsFrom (c.wallTo + SessionConfig.day) (c' :: rest)) (hchain : c'.before = c.after) :
    c.instant + max 0 (c.before - c.after) + SessionConfig.day ≤ c'.instant := by
  have hfrom : c.wallTo + SessionConfig.day ≤ c'.wallFrom := h c' rfl
  have := c'.wall_bounds
  unfold ClockChange.wallTo at hfrom
  omega

/-! ### One entry -/

theorem offsetAt_nil : offsetAt o [] t = o := rfl

theorem offsetAt_cons :
    offsetAt o (c :: rest) t = if t < c.instant then o else offsetAt c.after rest t := rfl

theorem foldAt_nil : foldAt [] t = false := rfl

theorem foldAt_cons :
    foldAt (c :: rest) t =
      if t < c.instant then false
      else t - c.instant < c.before - c.after || foldAt rest t := rfl

theorem offsetOfWall_nil {fold : Bool} : offsetOfWall o [] w fold = o := rfl

theorem offsetOfWall_false_cons :
    offsetOfWall o (c :: rest) w false =
      if c.wallTo ≤ w then offsetOfWall c.after rest w false else o := rfl

theorem offsetOfWall_true_cons :
    offsetOfWall o (c :: rest) w true =
      if c.wallFrom ≤ w then offsetOfWall c.after rest w true else o := rfl

/-- Behind a change the clock shows no less than right after it. -/
theorem Regular.le_wall (h : Regular o (c :: rest)) (ht : c.instant ≤ t) :
    c.instant + c.after ≤ t + offsetAt c.after rest t := by
  induction rest generalizing o c with
  | nil =>
    simp only [offsetAt_nil]
    omega
  | cons d rest ih =>
    obtain ⟨-, -, -, hstarts, hrest⟩ := h
    rw [offsetAt_cons]
    split
    · omega
    · rename_i hlt
      have hd := ih hrest (not_lt.mp hlt)
      have hfrom : c.wallTo + SessionConfig.day ≤ d.wallFrom := hstarts d rfl
      have := c.wall_bounds
      have := d.wall_bounds
      have := day_pos
      omega

/-- A wall time from right after a change on resolves to the change or
later. -/
theorem Regular.le_instant (h : Regular o (c :: rest)) (hw : c.instant + c.after ≤ w) :
    c.instant ≤ w - offsetOfWall c.after rest w false := by
  induction rest generalizing o c with
  | nil =>
    simp only [offsetOfWall_nil]
    omega
  | cons d rest ih =>
    obtain ⟨-, -, -, hstarts, hrest⟩ := h
    have hinstant := hstarts.instant_le hrest.2.1
    have := day_pos
    rw [offsetOfWall_false_cons]
    split
    · rename_i hto
      have hd := ih hrest (d.wall_bounds.2.2.2.1.trans hto)
      omega
    · omega

/-- **The wall clock reaches a clear time when that time resolves to.** -/
theorem Regular.crossing (h : Regular o changes) (hw : OffChanges changes w) (t : ℤ) :
    t + offsetAt o changes t < w ↔ t < w - offsetOfWall o changes w false := by
  induction changes generalizing o with
  | nil =>
    simp only [offsetAt_nil, offsetOfWall_nil]
    omega
  | cons c rest ih =>
    have hclear := hw c List.mem_cons_self
    have hbounds := c.wall_bounds
    obtain ⟨-, rfl, -, -, hrest⟩ := id h
    rw [ClockChange.Skips, ClockChange.Repeats] at hclear
    rw [offsetAt_cons, offsetOfWall_false_cons]
    by_cases hto : c.wallTo ≤ w
    · rw [if_pos hto]
      by_cases ht : t < c.instant
      · -- before the change the clock is below it, and the time resolves behind it
        have := h.le_instant (hbounds.2.2.2.1.trans hto)
        rw [if_pos ht]
        omega
      · rw [if_neg ht]
        exact ih hrest fun d hd => hw d (List.mem_cons_of_mem c hd)
    · rw [if_neg hto]
      by_cases ht : t < c.instant
      · rw [if_pos ht]
        omega
      · -- behind the change the clock is past it, which is past the time
        have := h.le_wall (not_lt.mp ht)
        rw [if_neg ht]
        omega

/-- An instant at which the clock shows a clear time is the one that the
time resolves to. -/
theorem Regular.resolve (h : Regular o changes) (ht : OffChanges changes (t + offsetAt o changes t)) :
    t + offsetAt o changes t - offsetOfWall o changes (t + offsetAt o changes t) false = t := by
  induction changes generalizing o with
  | nil =>
    simp only [offsetAt_nil, offsetOfWall_nil]
    omega
  | cons c rest ih =>
    have hclear := ht c List.mem_cons_self
    have hbounds := c.wall_bounds
    obtain ⟨-, rfl, -, -, hrest⟩ := id h
    rw [ClockChange.Skips, ClockChange.Repeats] at hclear
    rw [offsetOfWall_false_cons]
    by_cases hlt : t < c.instant
    · rw [offsetAt_cons, if_pos hlt] at hclear ⊢
      rw [if_neg (by omega)]
      omega
    · have hwall := h.le_wall (not_lt.mp hlt)
      rw [offsetAt_cons, if_neg hlt] at ht hclear ⊢
      rw [if_pos (by omega)]
      exact ih hrest fun d hd => ht d (List.mem_cons_of_mem c hd)

/-- While the clock repeats a day's times, `fold` makes no difference to a
clear time within a day: every other change is further away. -/
theorem Regular.fold_eq (h : Regular o changes) (hw : OffChanges changes w)
    (ht : foldAt changes t = true) (hnear : |w - (t + offsetAt o changes t)| < SessionConfig.day) :
    offsetOfWall o changes w true = offsetOfWall o changes w false := by
  rw [abs_lt] at hnear
  induction changes generalizing o with
  | nil => cases ht
  | cons c rest ih =>
    have hclear := hw c List.mem_cons_self
    have hbounds := c.wall_bounds
    have hday := day_pos
    obtain ⟨-, rfl, -, hstarts, hrest⟩ := id h
    rw [ClockChange.Skips, ClockChange.Repeats] at hclear
    rw [foldAt_cons] at ht
    by_cases hlt : t < c.instant
    · rw [if_pos hlt] at ht
      cases ht
    · rw [if_neg hlt, Bool.or_eq_true, decide_eq_true_eq] at ht
      have hwall := h.le_wall (not_lt.mp hlt)
      rw [offsetAt_cons, if_neg hlt] at hnear
      rw [offsetOfWall_true_cons, offsetOfWall_false_cons]
      cases rest with
      | nil =>
        simp only [foldAt_nil, Bool.false_eq_true, or_false, offsetAt_nil] at ht hnear
        have hsides : c.wallFrom ≤ w ↔ c.wallTo ≤ w := by omega
        simp only [offsetOfWall_nil, hsides]
      | cons d rest =>
        have hfrom : c.wallTo + SessionConfig.day ≤ d.wallFrom := hstarts d rfl
        have hinstant := hstarts.instant_le hrest.2.1
        by_cases hd : t < d.instant
        · -- the fold is that of `c`, and `w` is below the changes behind it
          have hfold : t - c.instant < c.before - c.after := by
            simpa [foldAt_cons, hd] using ht
          rw [offsetAt_cons, if_pos hd] at hnear
          have hbelow : w < d.wallFrom := by omega
          have hto := d.wall_bounds
          have hsides : c.wallFrom ≤ w ↔ c.wallTo ≤ w := by omega
          rw [offsetOfWall_true_cons, offsetOfWall_false_cons, if_neg (not_le.mpr hbelow),
            if_neg (show ¬d.wallTo ≤ w by omega)]
          simp only [hsides]
        · -- the fold is behind `d`, and `w` is past the change `c`
          have hpast := hrest.le_wall (not_lt.mp hd)
          have hd' := d.wall_bounds
          have hoffset : offsetAt c.after (d :: rest) t = offsetAt d.after rest t := by
            rw [offsetAt_cons, if_neg hd]
          rw [if_pos (by omega), if_pos (by omega)]
          refine ih hrest (fun e he => hw e (List.mem_cons_of_mem c he)) ?_ hnear
          obtain hfold | hfold := ht
          · omega
          · exact hfold

/-- The changes behind a change come later, on both clocks. -/
theorem Regular.later (h : Regular o (c :: rest)) {d : ClockChange} (hd : d ∈ rest) :
    c.instant + max 0 (c.before - c.after) + SessionConfig.day ≤ d.instant ∧
      c.wallTo ≤ d.wallFrom := by
  induction rest generalizing o c with
  | nil => cases hd
  | cons e rest ih =>
    obtain ⟨-, -, -, hstarts, hrest⟩ := h
    have hinstant := hstarts.instant_le hrest.2.1
    have hfrom : c.wallTo + SessionConfig.day ≤ e.wallFrom := hstarts e rfl
    have := day_pos
    obtain rfl | hd := List.mem_cons.mp hd
    · omega
    · obtain ⟨hlater, hwall⟩ := ih hrest hd
      have := e.wall_bounds
      omega

/-- The table from a change on. -/
theorem Regular.localise (h : Regular o changes) (hc : c ∈ changes) :
    ∃ rest, Regular c.before (c :: rest) ∧
      (∀ t, c.instant - SessionConfig.day ≤ t →
        offsetAt o changes t = offsetAt c.before (c :: rest) t ∧
          foldAt changes t = foldAt (c :: rest) t) ∧
      ∀ w f, c.wallFrom ≤ w →
        offsetOfWall o changes w f = offsetOfWall c.before (c :: rest) w f := by
  induction changes generalizing o with
  | nil => cases hc
  | cons d changes ih =>
    obtain ⟨-, rfl, -, hstarts, hrest⟩ := id h
    obtain rfl | hc := List.mem_cons.mp hc
    · exact ⟨changes, h, fun t _ => ⟨rfl, rfl⟩, fun w f _ => rfl⟩
    · obtain ⟨rest, hregular, hat, hwall⟩ := ih hrest hc
      have hlater := h.later hc
      refine ⟨rest, hregular, fun t ht => ?_, fun w f hw => ?_⟩
      · obtain ⟨hoffset, hfold⟩ := hat t ht
        rw [offsetAt_cons, foldAt_cons, if_neg (by omega), if_neg (by omega), hoffset, hfold,
          decide_eq_false (by omega), Bool.false_or]
        exact ⟨rfl, rfl⟩
      · have hbounds := d.wall_bounds
        cases f with
        | false => rw [offsetOfWall_false_cons, if_pos (by omega), hwall w false hw]
        | true => rw [offsetOfWall_true_cons, if_pos (by omega), hwall w true hw]

theorem Regular.seconds_of_mem (h : Regular o changes) (hc : c ∈ changes) :
    c.instant % SessionConfig.second = 0 ∧ c.before % SessionConfig.second = 0 ∧
      c.after % SessionConfig.second = 0 := by
  obtain ⟨rest, ⟨⟨hbefore, hinstant⟩, -, -, -, hrest⟩, -⟩ := h.localise hc
  exact ⟨hinstant, hbefore, hrest.seconds⟩

theorem Regular.offsetOfWall_seconds (h : Regular o changes) (w : ℤ) :
    offsetOfWall o changes w false % SessionConfig.second = 0 := by
  induction changes generalizing o with
  | nil => exact h
  | cons c rest ih =>
    rw [offsetOfWall_false_cons]
    split
    · exact ih h.2.2.2.2
    · exact h.seconds

/-- A wall time before a change resolves to no later than the change. -/
theorem Regular.resolve_le (h : Regular o changes) (hc : c ∈ changes) (hw : w ≤ c.wallFrom) :
    w - offsetOfWall o changes w false ≤ c.instant := by
  induction changes generalizing o with
  | nil => cases hc
  | cons d changes ih =>
    obtain ⟨-, rfl, hshift, hstarts, hrest⟩ := id h
    have hbounds := d.wall_bounds
    have hday := day_pos
    rw [abs_le] at hshift
    rw [offsetOfWall_false_cons]
    obtain rfl | hc := List.mem_cons.mp hc
    · by_cases hto : c.wallTo ≤ w
      · -- then the change moves nothing, and the next one is a day away
        rw [if_pos hto]
        cases changes with
        | nil =>
          rw [offsetOfWall_nil]
          omega
        | cons e rest =>
          have hfrom : c.wallTo + SessionConfig.day ≤ e.wallFrom := hstarts e rfl
          have := e.wall_bounds
          rw [offsetOfWall_false_cons, if_neg (by omega)]
          omega
      · rw [if_neg hto]
        omega
    · have hlater := (h.later hc).1
      by_cases hto : d.wallTo ≤ w
      · rw [if_pos hto]
        exact ih hrest hc
      · rw [if_neg hto]
        omega

/-- Behind the last change there is one offset. -/
theorem Regular.eventually (h : Regular o changes) :
    ∃ last T, (∀ t, T ≤ t → offsetAt o changes t = last ∧ foldAt changes t = false) ∧
      ∀ w f, T ≤ w → offsetOfWall o changes w f = last := by
  induction changes generalizing o with
  | nil => exact ⟨o, 0, fun t _ => ⟨rfl, rfl⟩, fun w f _ => rfl⟩
  | cons c rest ih =>
    obtain ⟨last, T, hat, hwall⟩ := ih h.2.2.2.2
    have hbounds := c.wall_bounds
    refine ⟨last, max T (max (c.instant + max 0 (c.before - c.after)) c.wallTo), fun t ht => ?_,
      fun w f hw => ?_⟩
    · obtain ⟨hoffset, hfold⟩ := hat t (by omega)
      rw [offsetAt_cons, foldAt_cons, if_neg (by omega), if_neg (by omega), hoffset, hfold,
        decide_eq_false (by omega), Bool.false_or]
      exact ⟨rfl, rfl⟩
    · cases f with
      | false => rw [offsetOfWall_false_cons, if_pos (by omega), hwall w false (by omega)]
      | true => rw [offsetOfWall_true_cons, if_pos (by omega), hwall w true (by omega)]

theorem Regular.shift_le (h : Regular o changes) (hc : c ∈ changes) :
    c.after - c.before ≤ SessionConfig.day ∧ c.before - c.after ≤ SessionConfig.day := by
  obtain ⟨rest, ⟨-, -, hshift, -⟩, -⟩ := h.localise hc
  rw [abs_le] at hshift
  omega

/-- The clock on the day before a change. -/
theorem Regular.before_change (h : Regular o changes) (hc : c ∈ changes)
    (hfrom : c.instant - SessionConfig.day ≤ t) (hto : t < c.instant) :
    offsetAt o changes t = c.before ∧ foldAt changes t = false := by
  obtain ⟨rest, -, hat, -⟩ := h.localise hc
  obtain ⟨hoffset, hfold⟩ := hat t hfrom
  rw [hoffset, hfold, offsetAt_cons, foldAt_cons, if_pos hto, if_pos hto]
  exact ⟨rfl, rfl⟩

/-- The clock on the day after a change, and while it repeats times. -/
theorem Regular.behind_change (h : Regular o changes) (hc : c ∈ changes) (hfrom : c.instant ≤ t)
    (hto : t < c.instant + max 0 (c.before - c.after) + SessionConfig.day) :
    offsetAt o changes t = c.after ∧
      foldAt changes t = decide (t - c.instant < c.before - c.after) := by
  obtain ⟨rest, hregular, hat, -⟩ := h.localise hc
  have hday := day_pos
  obtain ⟨hoffset, hfold⟩ := hat t (by omega)
  obtain ⟨-, -, -, hstarts, hrest⟩ := hregular
  rw [hoffset, hfold, offsetAt_cons, foldAt_cons, if_neg (not_lt.mpr hfrom), if_neg (not_lt.mpr hfrom)]
  cases rest with
  | nil => exact ⟨rfl, Bool.or_false _⟩
  | cons d rest =>
    have hd := hto.trans_le (hstarts.instant_le hrest.2.1)
    rw [offsetAt_cons, foldAt_cons, if_pos hd, if_pos hd]
    exact ⟨rfl, Bool.or_false _⟩

/-- A skipped wall time resolves by the offset before the change. -/
theorem Regular.skipped (h : Regular o changes) (hc : c ∈ changes) (hw : c.Skips w) :
    offsetOfWall o changes w false = c.before := by
  obtain ⟨rest, -, -, hwall⟩ := h.localise hc
  obtain ⟨hfrom, hto⟩ := hw
  have hbounds := c.wall_bounds
  rw [hwall w false (by omega), offsetOfWall_false_cons, if_neg (by omega)]

/-- A repeated wall time resolves by the offset before the change, and with
`fold` by the one behind it. A day later the change is over. -/
theorem Regular.repeated (h : Regular o changes) (hc : c ∈ changes) (hw : c.Repeats w) :
    offsetOfWall o changes w false = c.before ∧ offsetOfWall o changes w true = c.after ∧
      offsetOfWall o changes (w + SessionConfig.day) false = c.after := by
  obtain ⟨rest, ⟨-, -, hshift, hstarts, -⟩, -, hwall⟩ := h.localise hc
  obtain ⟨hfrom, hto⟩ := hw
  have hbounds := c.wall_bounds
  have hday := day_pos
  rw [abs_le] at hshift
  rw [hwall w false (by omega), hwall w true (by omega),
    hwall (w + SessionConfig.day) false (by omega), offsetOfWall_false_cons,
    offsetOfWall_false_cons, offsetOfWall_true_cons, if_neg (by omega), if_pos (by omega),
    if_pos (by omega)]
  cases rest with
  | nil => exact ⟨rfl, rfl, rfl⟩
  | cons d rest =>
    have hd : c.wallTo + SessionConfig.day ≤ d.wallFrom := hstarts d rfl
    have := d.wall_bounds
    rw [offsetOfWall_false_cons, offsetOfWall_true_cons, if_neg (by omega), if_neg (by omega)]
    exact ⟨rfl, rfl, rfl⟩

end

end TdSandboxed
