/-
TdSandboxed.Backtesting.SweepTheorems — what a sweep chooses
(`backtesting/parameter_sweep.py`, `backtesting/dataset/sweep_harness.py`),
and what a walk-forward analysis chooses it from
(`backtesting/walk_forward.py`).

A sweep has one record for each combination, in their order, however many
workers there are (`run_eq_ok_iff`), and its best is the first record with
the greatest score. So a fold's choice is a function of the backtests on its
train window alone, and bars after the window cannot change it
(`run_no_lookahead`). The harness tries what its budget allows of a space, and
chooses the best of that, among the combinations that run, are not stopped and
have a finite score (`runParameterSweep_searches`).
-/
import TdSandboxed.Backtesting.ParameterSweep

namespace TdSandboxed

open Lib Dataset

variable {Venue PropFirm V Res S M : Type}

/-! ## The grid -/

theorem mem_product {lists : List (List V)} {combo : List V} :
    combo ∈ product lists ↔ List.Forall₂ (fun v values => v ∈ values) combo lists := by
  induction lists generalizing combo with
  | nil => simp [product]
  | cons values rest ih =>
    simp only [product, List.mem_flatMap, List.mem_map, ih, List.forall₂_cons_right_iff]
    constructor
    · rintro ⟨v, hv, combo, hcombo, rfl⟩
      exact ⟨v, combo, hv, hcombo, rfl⟩
    · rintro ⟨v, combo, hv, hcombo, rfl⟩
      exact ⟨v, hv, combo, hcombo, rfl⟩

theorem length_product (lists : List (List V)) :
    (product lists).length = (lists.map List.length).prod := by
  induction lists with
  | nil => rfl
  | cons values rest ih =>
    rw [product, List.length_flatMap]
    simp [ih]

/-- A combination of a grid: a value of its list for each key. -/
def OfGrid (grid : List (String × List V)) (params : SweepParams V) : Prop :=
  List.Forall₂ (fun p g => p.1 = g.1 ∧ p.2 ∈ g.2) params grid

theorem ofGrid_iff {grid : List (String × List V)} {params : SweepParams V} :
    OfGrid grid params ↔ ∃ combo, List.Forall₂ (fun v values => v ∈ values) combo
      (grid.map Prod.snd) ∧ (grid.map Prod.fst).zip combo = params := by
  unfold OfGrid
  induction grid generalizing params with
  | nil => simp [eq_comm]
  | cons g grid ih =>
    simp only [List.forall₂_cons_right_iff, List.map_cons, ih]
    constructor
    · rintro ⟨p, params, ⟨hkey, hv⟩, ⟨combo, hcombo, rfl⟩, rfl⟩
      exact ⟨p.2 :: combo, ⟨p.2, combo, hv, hcombo, rfl⟩, by rw [List.zip_cons_cons, ← hkey]⟩
    · rintro ⟨_, ⟨v, combo, hv, hcombo, rfl⟩, rfl⟩
      exact ⟨(g.1, v), _, ⟨rfl, hv⟩, ⟨combo, hcombo, rfl⟩, rfl⟩

/-- **The grid is the product.** -/
theorem mem_expandGrid {grid : List (String × List V)} {params : SweepParams V} :
    params ∈ expandGrid grid ↔ OfGrid grid params := by
  rw [expandGrid]
  cases grid with
  | nil => simp [OfGrid]
  | cons g grid =>
    rw [List.isEmpty_cons, if_neg Bool.false_ne_true, List.mem_map, ofGrid_iff]
    simp only [mem_product]

theorem length_expandGrid (grid : List (String × List V)) :
    (expandGrid grid).length = (grid.map fun p => p.2.length).prod := by
  rw [expandGrid]
  cases grid with
  | nil => rfl
  | cons g grid =>
    rw [List.isEmpty_cons, if_neg Bool.false_ne_true, List.length_map, length_product, List.map_map]
    rfl

/-- The combination of a number: the last key's values are its lowest digit. -/
def combinationAt : List (String × List V) → ℕ → Option (SweepParams V)
  | [], _ => some []
  | (key, values) :: rest, i => do
    let size := (rest.map fun p => p.2.length).prod
    let v ← values[i / size]?
    let params ← combinationAt rest (i % size)
    return (key, v) :: params

/-- Pieces of one length are read off by quotient and remainder. -/
theorem getElem?_flatMap_of_length {A B : Type} {f : A → List B} {n : ℕ} (hn : 0 < n) {l : List A}
    (hlength : ∀ a ∈ l, (f a).length = n) (i : ℕ) :
    (l.flatMap f)[i]? = l[i / n]?.bind fun a => (f a)[i % n]? := by
  induction l generalizing i with
  | nil => simp
  | cons a l ih =>
    have hpiece : (f a).length = n := hlength a List.mem_cons_self
    rw [List.flatMap_cons, List.getElem?_append, hpiece]
    split_ifs with hi
    · simp [Nat.div_eq_of_lt hi, Nat.mod_eq_of_lt hi]
    · have hle : n ≤ i := not_lt.mp hi
      have hrest : (i - n) / n + 1 = i / n := by
        rw [← Nat.add_div_right _ hn, Nat.sub_add_cancel hle]
      rw [ih fun b hb => hlength b (List.mem_cons_of_mem a hb), ← hrest,
        List.getElem?_cons_succ, Nat.mod_eq_sub_mod hle]

theorem expandGrid_cons (key : String) (values : List V) (grid : List (String × List V)) :
    expandGrid ((key, values) :: grid) =
      values.flatMap fun v => (expandGrid grid).map ((key, v) :: ·) := by
  have hrest : expandGrid grid =
      (product (grid.map Prod.snd)).map fun combo => (grid.map Prod.fst).zip combo := by
    cases grid <;> rfl
  rw [hrest, expandGrid, List.isEmpty_cons, if_neg Bool.false_ne_true]
  simp [product, List.map_flatMap, Function.comp_def]

/-- **The grid is in the order of its numbers.** -/
theorem getElem?_expandGrid {grid : List (String × List V)} (hne : ∀ p ∈ grid, p.2 ≠ []) {i : ℕ}
    (hi : i < (expandGrid grid).length) : (expandGrid grid)[i]? = combinationAt grid i := by
  induction grid generalizing i with
  | nil =>
    obtain rfl : i = 0 := Nat.lt_one_iff.mp hi
    rfl
  | cons g grid ih =>
    obtain ⟨key, values⟩ := g
    have hrest : ∀ p ∈ grid, p.2 ≠ [] := fun p hp => hne p (List.mem_cons_of_mem _ hp)
    have hsize : 0 < (expandGrid grid).length := by
      rw [length_expandGrid]
      refine List.prod_pos fun n hn => ?_
      obtain ⟨p, hp, rfl⟩ := List.mem_map.mp hn
      exact List.length_pos_iff.mpr (hrest p hp)
    rw [expandGrid_cons, getElem?_flatMap_of_length hsize fun v _ => List.length_map _, combinationAt,
      ← length_expandGrid]
    simp only [List.getElem?_map, ih hrest (Nat.mod_lt i hsize)]
    cases values[i / (expandGrid grid).length]? with
    | none => rfl
    | some v => cases combinationAt grid (i % (expandGrid grid).length) <;> rfl

theorem cartesianSize_eq (space : ParamSpace V) :
    space.cartesianSize = (expandGrid space.values).length := by
  rw [length_expandGrid, ParamSpace.cartesianSize, List.prod_eq_foldl, List.foldl_map]

/-! ## The best -/

namespace SweepResult

variable [LinearOrder S] {r : SweepResult V Res S} {c : CombinationResult V Res S}

theorem firstGreatest_of_best (h : r.best = .ok c) : FirstGreatest (·.score) r.okCombos c := by
  rw [best] at h
  split at h
  · rename_i hhead
    obtain rfl := Except.ok.inj h
    exact firstGreatest_of_head? hhead
  · cases h

theorem okCombos_of_best_error {text : String} (h : r.best = .error text) : r.okCombos = [] := by
  rw [best] at h
  split at h
  · cases h
  · rename_i hhead
    exact head?_sortDescending_eq_none.mp hhead

end SweepResult

/-! ## Workers -/

/-- A valid job is read as it was sent. -/
def JobCodec.RoundTrips (codec : JobCodec Venue PropFirm V)
    (job : BacktestJobConfig Venue PropFirm V) : Prop :=
  job.validate = .ok job → codec.modelValidateJson (codec.modelDumpJson job) = .ok job

namespace BacktestJobConfig

variable {job : BacktestJobConfig Venue PropFirm V}

theorem validate_eq_ok_iff : job.validate = .ok job ↔
    job.strategy ∈ strategies ∧ job.instrumentSymbol ∈ supportedSymbols := by
  rw [validate, resolveStrategy]
  by_cases hstrategy : job.strategy ∈ strategies
  · by_cases hsymbol : job.instrumentSymbol ∈ supportedSymbols
    · rw [if_pos hstrategy, if_neg (not_not.mpr hsymbol)]
      exact iff_of_true rfl ⟨hstrategy, hsymbol⟩
    · rw [if_pos hstrategy, if_pos hsymbol]
      exact iff_of_false (by rintro ⟨⟩) fun h => hsymbol h.2
  · rw [if_neg hstrategy]
    exact iff_of_false (by rintro ⟨⟩) fun h => hstrategy h.1

theorem validate_withWindow (h : job.validate = .ok job) (start stop : Option ℤ) :
    (job.withWindow start stop).validate = .ok (job.withWindow start stop) :=
  validate_eq_ok_iff.mpr ((@validate_eq_ok_iff _ _ _ job).mp h)

end BacktestJobConfig

namespace ParameterSweep

variable {sweep : ParameterSweep Venue PropFirm V Res S M} {codec : JobCodec Venue PropFirm V}
  {runBacktest : RunBacktest Venue PropFirm V Res} {combos : List (SweepParams V)}
  {maxWorkers : ℤ} {order : List ℕ} {r : SweepResult V Res S}

theorem runCombo_eq (hcodec : codec.RoundTrips sweep.job)
    (hjob : sweep.job.validate = .ok sweep.job) :
    runCombo codec runBacktest (codec.modelDumpJson sweep.job) = runBacktest sweep.job := by
  funext params
  rw [runCombo, hcodec hjob]
  rfl

variable [LinearOrder S] [OrderBot S] [LT M] [DecidableLT M]

theorem runParallel_eq_ok_iff (hcodec : codec.RoundTrips sweep.job)
    (hjob : sweep.job.validate = .ok sweep.job) (horder : order.Perm (List.range combos.length)) :
    sweep.runParallel codec runBacktest combos order = .ok r ↔
      sweep.runSequential runBacktest combos = .ok r := by
  rw [runParallel, runSequential, runCombo_eq hcodec hjob, bind_eq_ok, bind_eq_ok]
  simp only [gather_eq_ok_iff horder]
  rw [mapM_range fun i params hi => ?_]
  rw [hi]
  rfl

/-- **The workers do not show.** -/
theorem run_eq_ok_iff (hcodec : codec.RoundTrips sweep.job)
    (hjob : sweep.job.validate = .ok sweep.job) (horder : order.Perm (List.range combos.length)) :
    sweep.run codec runBacktest combos maxWorkers order = .ok r ↔
      1 ≤ maxWorkers ∧ sweep.runSequential runBacktest combos = .ok r := by
  rw [run]
  by_cases hworkers : maxWorkers < 1
  · rw [if_pos hworkers]
    simp [hworkers.not_ge]
  · rw [if_neg hworkers, and_iff_right (not_lt.mp hworkers)]
    split_ifs
    · rfl
    · exact runParallel_eq_ok_iff hcodec hjob horder

end ParameterSweep

/-! ## Walk-forward -/

section WalkForward

variable {B : Type}

/-- What a backtest on a history of timed bars sees of it, when there are any:
the bars in the window of its job, both ends included. The engine replays no
others, and refuses an empty history. -/
def SeesWindow (backtestOn : List (ℤ × B) → RunBacktest Venue PropFirm V Res) : Prop :=
  ∀ bars bars' job params start stop, bars ≠ [] → bars' ≠ [] →
    job.start = some start → job.stop = some stop →
    bars.filter (fun b => start ≤ b.1 ∧ b.1 ≤ stop) =
      bars'.filter (fun b => start ≤ b.1 ∧ b.1 ≤ stop) →
    backtestOn bars job params = backtestOn bars' job params

/-- The bars of two histories up to an instant are the same. -/
def AgreeUpTo (T : ℤ) (bars bars' : List (ℤ × B)) : Prop :=
  bars.filter (·.1 ≤ T) = bars'.filter (·.1 ≤ T)

theorem AgreeUpTo.window_eq {T start stop : ℤ} {bars bars' : List (ℤ × B)}
    (h : AgreeUpTo T bars bars') (hstop : stop ≤ T) :
    bars.filter (fun b => start ≤ b.1 ∧ b.1 ≤ stop) =
      bars'.filter fun b => start ≤ b.1 ∧ b.1 ≤ stop := by
  have hwindow : ∀ l : List (ℤ × B), l.filter (fun b => start ≤ b.1 ∧ b.1 ≤ stop) =
      (l.filter (·.1 ≤ T)).filter fun b => start ≤ b.1 ∧ b.1 ≤ stop := by
    intro l
    rw [List.filter_filter]
    refine List.filter_congr fun b _ => ?_
    simp only [decide_eq_decide, ← Bool.decide_and]
    exact ⟨fun hb => ⟨hb, hb.2.trans hstop⟩, And.left⟩
  rw [hwindow bars, h, ← hwindow bars']

theorem SeesWindow.eq_of_agree {backtestOn : List (ℤ × B) → RunBacktest Venue PropFirm V Res}
    (h : SeesWindow backtestOn) {T start stop : ℤ} {bars bars' : List (ℤ × B)}
    (hbars : bars ≠ []) (hbars' : bars' ≠ []) (hagree : AgreeUpTo T bars bars') (hstop : stop ≤ T)
    (job : BacktestJobConfig Venue PropFirm V) :
    backtestOn bars (job.withWindow (some start) (some stop)) =
      backtestOn bars' (job.withWindow (some start) (some stop)) := by
  funext params
  exact h bars bars' _ params start stop hbars hbars' rfl rfl (hagree.window_eq hstop)

namespace WalkForward

variable [LinearOrder S] [OrderBot S] {w : WalkForward Venue PropFirm V Res S M}
  {sample : Sample V} {codec : JobCodec Venue PropFirm V}

/-- What a fold answers for the sweep of its train window. -/
inductive Evaluates (w : WalkForward Venue PropFirm V Res S M)
    (runBacktest : RunBacktest Venue PropFirm V Res) (fold : FoldSpec) (r : SweepResult V Res S) :
    FoldResult V Res S → Prop
  | nothing {text : String} (h : r.best = .error text) :
    Evaluates w runBacktest fold r
      { fold, bestParams := [], trainScore := ⊥, trainResult := none, testResult := none }
  | best {c : CombinationResult V Res S} {test : Res} (h : r.best = .ok c)
      (htest : runBacktest (w.sweep.job.withWindow (some fold.testStart) (some fold.testEnd))
        c.params = .ok test) :
    Evaluates w runBacktest fold r
      { fold, bestParams := c.params, trainScore := c.score, trainResult := c.result
        testResult := some test }

/-- The futures of a fold complete each once, in any order. -/
def Completes (w : WalkForward Venue PropFirm V Res S M) (sample : Sample V)
    (orders : ℕ → List ℕ) : Prop :=
  ∀ idx fold combos, w.folds[idx]? = some fold → (w.foldSweep fold idx).expand sample = .ok combos →
    (orders idx).Perm (List.range combos.length)

/-- What two results of a fold share when the histories agree up to an
instant. -/
structure SameUpTo (T : ℤ) (f f' : FoldResult V Res S) : Prop where
  fold_eq : f.fold = f'.fold
  /-- The choice, once the train window has ended. -/
  choice : f.fold.trainEnd ≤ T →
    f.bestParams = f'.bestParams ∧ f.trainScore = f'.trainScore ∧ f.trainResult = f'.trainResult
  /-- Everything, once the test window has. -/
  outcome : f.fold.testEnd ≤ T → f = f'

theorem Evaluates.fold_eq {runBacktest : RunBacktest Venue PropFirm V Res} {fold : FoldSpec}
    {r : SweepResult V Res S} {f : FoldResult V Res S} (h : w.Evaluates runBacktest fold r f) :
    f.fold = fold := by
  cases h <;> rfl

variable [LT M] [DecidableLT M]

theorem evaluates_of_runFold {runBacktest : RunBacktest Venue PropFirm V Res} {maxWorkers : ℤ}
    {order : List ℕ} {fold : FoldSpec} {idx : ℕ} {f : FoldResult V Res S}
    (hcodec : codec.RoundTrips (w.foldSweep fold idx).job)
    (hjob : w.sweep.job.validate = .ok w.sweep.job)
    (horder : ∀ combos, (w.foldSweep fold idx).expand sample = .ok combos →
      order.Perm (List.range combos.length))
    (h : w.runFold sample codec runBacktest maxWorkers order fold idx = .ok f) :
    ∃ combos r, (w.foldSweep fold idx).expand sample = .ok combos ∧
      (w.foldSweep fold idx).runSequential runBacktest combos = .ok r ∧
      w.Evaluates runBacktest fold r f := by
  obtain ⟨combos, hcombos, h⟩ := bind_eq_ok.mp h
  obtain ⟨r, hr, h⟩ := bind_eq_ok.mp h
  have hfold : (w.foldSweep fold idx).job.validate = .ok (w.foldSweep fold idx).job :=
    BacktestJobConfig.validate_withWindow hjob _ _
  obtain ⟨-, hr⟩ := (ParameterSweep.run_eq_ok_iff hcodec hfold (horder combos hcombos)).mp hr
  refine ⟨combos, r, hcombos, hr, ?_⟩
  cases hbest : r.best with
  | error text =>
    rw [hbest] at h
    cases h
    exact .nothing hbest
  | ok c =>
    rw [hbest] at h
    obtain ⟨test, htest, h⟩ := bind_eq_ok.mp h
    cases h
    exact .best hbest htest

variable {backtestOn : List (ℤ × B) → RunBacktest Venue PropFirm V Res} {bars bars' : List (ℤ × B)}

/-- Once the train window has ended, the sweep is the same. -/
theorem runSequential_of_agree (hwindow : SeesWindow backtestOn) (hbars : bars ≠ [])
    (hbars' : bars' ≠ []) {T : ℤ} (hagree : AgreeUpTo T bars bars') {fold : FoldSpec}
    (htrain : fold.trainEnd ≤ T) (idx : ℕ) (combos : List (SweepParams V)) :
    (w.foldSweep fold idx).runSequential (backtestOn bars) combos =
      (w.foldSweep fold idx).runSequential (backtestOn bars') combos := by
  have hsweep : (w.foldSweep fold idx).runOne (backtestOn bars) =
      (w.foldSweep fold idx).runOne (backtestOn bars') := by
    funext params
    exact congrArg ((w.foldSweep fold idx).finalize params)
      (congrFun (hwindow.eq_of_agree hbars hbars' hagree htrain w.sweep.job) params)
  rw [ParameterSweep.runSequential, ParameterSweep.runSequential, hsweep]

/-- One fold: the sweeps are the same once its train window has ended, and its
test window ends later. -/
theorem sameUpTo_of_evaluates (hwindow : SeesWindow backtestOn) (hbars : bars ≠ [])
    (hbars' : bars' ≠ []) {T : ℤ} (hagree : AgreeUpTo T bars bars') {fold : FoldSpec} {idx : ℕ}
    {combos : List (SweepParams V)} {r r' : SweepResult V Res S} {f f' : FoldResult V Res S}
    (hr : (w.foldSweep fold idx).runSequential (backtestOn bars) combos = .ok r)
    (hr' : (w.foldSweep fold idx).runSequential (backtestOn bars') combos = .ok r')
    (hf : w.Evaluates (backtestOn bars) fold r f)
    (hf' : w.Evaluates (backtestOn bars') fold r' f') : SameUpTo T f f' := by
  by_cases htrain : fold.trainEnd ≤ T
  · rw [runSequential_of_agree hwindow hbars hbars' hagree htrain, hr'] at hr
    obtain rfl := Except.ok.inj hr
    cases hf with
    | nothing hbest =>
      cases hf' with
      | nothing _ => exact ⟨rfl, fun _ => ⟨rfl, rfl, rfl⟩, fun _ => rfl⟩
      | best hbest' _ => cases hbest.symm.trans hbest'
    | best hbest htest =>
      cases hf' with
      | nothing hbest' => cases hbest.symm.trans hbest'
      | best hbest' htest' =>
        obtain rfl := Except.ok.inj (hbest.symm.trans hbest')
        refine ⟨rfl, fun _ => ⟨rfl, rfl, rfl⟩, fun hend => ?_⟩
        rw [hwindow.eq_of_agree hbars hbars' hagree hend, htest'] at htest
        rw [Except.ok.inj htest]
  · have hend : ¬fold.testEnd ≤ T := by
      have htest := fold.testStart_lt
      have hstart := fold.trainEnd_le
      omega
    have hfold : f.fold = fold := hf.fold_eq
    refine ⟨hfold.trans hf'.fold_eq.symm, fun h => absurd (hfold ▸ h) htrain, fun h => ?_⟩
    exact absurd (hfold ▸ h) hend

/-- **No lookahead.** Over two histories that agree up to an instant, whatever
the workers and the order in which they finish, the folds whose train window
has ended by then choose the same parameters for the same score, and those
whose test window has ended have the same result. -/
theorem run_no_lookahead (hwindow : SeesWindow backtestOn) (hbars : bars ≠ [])
    (hbars' : bars' ≠ []) (hjob : w.sweep.job.validate = .ok w.sweep.job)
    (hcodec : ∀ fold ∈ w.folds, codec.RoundTrips
      (w.sweep.job.withWindow (some fold.trainStart) (some fold.trainEnd)))
    {T : ℤ} (hagree : AgreeUpTo T bars bars') {maxWorkers maxWorkers' : ℤ}
    {orders orders' : ℕ → List ℕ} {folds folds' : List (FoldResult V Res S)}
    (horders : w.Completes sample orders) (horders' : w.Completes sample orders')
    (h : w.run sample codec (backtestOn bars) maxWorkers orders = .ok folds)
    (h' : w.run sample codec (backtestOn bars') maxWorkers' orders' = .ok folds') :
    List.Forall₂ (SameUpTo T) folds folds' := by
  rw [run] at h h'
  split_ifs at h h'
  refine forall₂_of_mapM₂ h h' fun p hp f f' hf hf' => ?_
  have hfold : w.folds[p.2]? = some p.1 := List.mem_zipIdx_iff_getElem?.mp hp
  have htrain := hcodec p.1 (List.mem_of_getElem? hfold)
  obtain ⟨combos, r, hcombos, hr, hf⟩ :=
    evaluates_of_runFold htrain hjob (fun combos => horders p.2 p.1 combos hfold) hf
  obtain ⟨combos', r', hcombos', hr', hf'⟩ :=
    evaluates_of_runFold htrain hjob (fun combos => horders' p.2 p.1 combos hfold) hf'
  obtain rfl := Except.ok.inj (hcombos.symm.trans hcombos')
  exact sameUpTo_of_evaluates hwindow hbars hbars' hagree hr hr' hf hf'

/-- A backtest that adds up what its window holds, so many times. -/
def sumOn (bars : List (ℤ × ℤ)) : RunBacktest Unit Unit ℤ ℤ := fun job params =>
  match job.start, job.stop, params.head? with
  | some start, some stop, some (_, times) =>
    .ok (times * ((bars.filter fun b => start ≤ b.1 ∧ b.1 ≤ stop).map Prod.snd).sum)
  | _, _, _ => .error "no window"

theorem seesWindow_sumOn : SeesWindow sumOn := by
  intro bars bars' job params start stop _ _ hstart hstop hwindow
  rw [sumOn, sumOn, hstart, hstop]
  cases params.head? with
  | none => rfl
  | some p => simp only [hwindow]

def sumJob : BacktestJobConfig Unit Unit ℤ where
  strategy := "ma_crossover"
  strategyParams := []
  venue := ()
  instrumentSymbol := "EURUSD"
  barTypeSuffix := "1-HOUR-LAST-EXTERNAL"
  data := ⟨⟨1, ["bars.parquet".toList]⟩, by decide⟩
  propFirm := none
  start := none
  stop := none

/-- Two microseconds to train and two to test, from the first of the year 1. -/
def sumFold : FoldSpec where
  trainStart := minInstant
  trainEnd := minInstant + 2
  testStart := minInstant + 2
  testEnd := minInstant + 4
  trainEnd_le := le_rfl
  testStart_lt := by decide

def sums : WalkForward Unit Unit ℤ ℤ (WithBot ℤ) ℤ where
  sweep := { job := sumJob, paramGrid := [("times", [3, 1])], objectiveFn := fun res => .ok res }
  folds := [sumFold]

/-- The job of the one train window, and its text. -/
def sumCodec : JobCodec Unit Unit ℤ where
  modelDumpJson _ := "\x7b\"strategy\":\"ma_crossover\",\"start\":\"0001-01-01T00:00:00Z\"," ++
    "\"end\":\"0001-01-01T00:00:00.000002Z\"\x7d"
  modelValidateJson _ := .ok (sumJob.withWindow (some minInstant) (some (minInstant + 2)))

def sumSweep : SweepResult ℤ ℤ (WithBot ℤ) where
  combos :=
    [{ params := [("times", 3)], status := .ok, result := some 3, score := (3 : ℤ) },
      { params := [("times", 1)], status := .ok, result := some 1, score := (1 : ℤ) }]

def sumResult (test : ℤ) : FoldResult ℤ ℤ (WithBot ℤ) where
  fold := sumFold
  bestParams := [("times", 3)]
  trainScore := (3 : ℤ)
  trainResult := some 3
  testResult := some test

theorem best_sumSweep : sumSweep.best =
    .ok { params := [("times", 3)], status := .ok, result := some 3, score := (3 : ℤ) } := by
  rw [SweepResult.best, SweepResult.ranked, sortDescending, List.mergeSort_of_pairwise (by decide)]
  rfl

/-- `sample(population, k)` that takes the first. -/
def firstCombos : Sample ℤ := fun _ combos n => combos.take n

theorem run_sums (bars : List (ℤ × ℤ)) (maxWorkers : ℤ) (order : List ℕ) {test : ℤ}
    (hsweep : (sums.foldSweep sumFold 0).run sumCodec (sumOn bars)
      (expandGrid [("times", [3, 1])]) maxWorkers order = .ok sumSweep)
    (htest : sumOn bars (sumJob.withWindow (some (minInstant + 2)) (some (minInstant + 4)))
      [("times", 3)] = .ok test) :
    sums.run firstCombos sumCodec (sumOn bars) maxWorkers (fun _ => order) =
      .ok [sumResult test] := by
  refine bind_ok_of_ok (bind_ok_of_ok rfl (bind_ok_of_ok hsweep ?_)) rfl
  rw [best_sumSweep]
  exact bind_ok_of_ok htest rfl

theorem completes_sums {order : List ℕ} (h : order.Perm [0, 1]) :
    sums.Completes firstCombos fun _ => order := by
  intro idx fold combos hfold hcombos
  cases idx with
  | zero =>
    obtain rfl : sumFold = fold := Option.some.inj hfold
    obtain rfl : expandGrid [("times", [3, 1])] = combos := Except.ok.inj hcombos
    exact h
  | succ idx => cases hfold

/-- A bar of the train window, and one of the test window. -/
def twoBars (test : ℤ) : List (ℤ × ℤ) := [(minInstant, 1), (minInstant + 3, test)]

theorem run_no_lookahead_sums :
    List.Forall₂ (SameUpTo (minInstant + 2)) [sumResult 15] [sumResult 12] := by
  have h : sums.run firstCombos sumCodec (sumOn (twoBars 5)) 1 (fun _ => [0, 1]) =
      .ok [sumResult 15] := run_sums _ 1 _ rfl rfl
  have h' : sums.run firstCombos sumCodec (sumOn (twoBars 4)) 2 (fun _ => [1, 0]) =
      .ok [sumResult 12] := run_sums _ 2 _ rfl rfl
  have hjob : sums.sweep.job.validate = .ok sums.sweep.job :=
    BacktestJobConfig.validate_eq_ok_iff.mpr ⟨by decide, by decide⟩
  have hcodec : ∀ fold ∈ sums.folds, sumCodec.RoundTrips
      (sums.sweep.job.withWindow (some fold.trainStart) (some fold.trainEnd)) := by
    intro fold hfold _
    rw [List.mem_singleton.mp hfold]
    rfl
  have hagree : AgreeUpTo (minInstant + 2) (twoBars 5) (twoBars 4) := rfl
  exact run_no_lookahead seesWindow_sumOn (List.cons_ne_nil _ _) (List.cons_ne_nil _ _) hjob hcodec
    hagree (completes_sums (List.Perm.refl _)) (completes_sums (List.Perm.swap 0 1 [])) h h'

end WalkForward

end WalkForward

/-! ## The harness -/

section Harness

variable [LinearOrder S] [OrderBot S] [LT M] [DecidableLT M]
  {dispatch : BacktestJobConfig Venue PropFirm V → SweepParams V → Except RunError Res}
  {netPnl : NetPnl Res S} {earlyStop : EarlyStopConfig Res M}
  {job : BacktestJobConfig Venue PropFirm V}

/-- What `random.Random(seed).sample` draws: as many as asked, and of each
element of the population no more than there are. -/
def Sample.Draws (sample : Sample V) : Prop :=
  ∀ seed population k, k ≤ population.length →
    (sample seed population k).length = k ∧ (sample seed population k).Subperm population

theorem sampleRandom_spec {sample : Sample V} (hsample : sample.Draws)
    (grid : List (String × List V)) (nIter : ℕ) (seed : ℤ) :
    (sampleRandom sample grid nIter seed).length ≤ nIter ∧
      ∀ params ∈ sampleRandom sample grid nIter seed, OfGrid grid params := by
  rw [sampleRandom]
  split_ifs with hfull
  · exact ⟨hfull, fun params => mem_expandGrid.mp⟩
  · obtain ⟨hlength, hdrawn⟩ := hsample seed (expandGrid grid) nIter (not_le.mp hfull).le
    exact ⟨hlength.le, fun params hparams => mem_expandGrid.mp (hdrawn.subset hparams)⟩

/-- What is tried: no more than the budget, all of the space, and the whole of
it where it fits. -/
theorem generateCombos_spec {sample : Sample V} (hsample : sample.Draws) {sampler : Sampler}
    {space : ParamSpace V} {budget : SweepBudget} {seed : ℤ} {combos : List (SweepParams V)}
    (h : generateCombos sample sampler space budget seed = .ok combos) :
    combos.length ≤ budget.maxTrials ∧ (∀ params ∈ combos, OfGrid space.values params) ∧
      (space.cartesianSize ≤ budget.maxTrials → combos = expandGrid space.values) := by
  cases sampler with
  | grid =>
    rw [generateCombos] at h
    split_ifs at h with hsize
    obtain rfl := Except.ok.inj h
    refine ⟨?_, fun params => mem_expandGrid.mp, fun _ => rfl⟩
    rw [← cartesianSize_eq]
    exact not_lt.mp hsize
  | random =>
    obtain rfl := Except.ok.inj h
    obtain ⟨hlength, hgrid⟩ := sampleRandom_spec hsample space.values
      (min space.cartesianSize budget.maxTrials) seed
    refine ⟨hlength.trans (min_le_right _ _), hgrid, fun hsize => ?_⟩
    rw [sampleRandom, min_eq_left hsize, cartesianSize_eq, if_pos le_rfl]
  | optuna => cases h
  | other name => cases h

/-- A combination that is ranked: its backtest comes through, is not stopped
and has a finite score. -/
def Competes (dispatch : BacktestJobConfig Venue PropFirm V → SweepParams V → Except RunError Res)
    (netPnl : NetPnl Res S) (earlyStop : EarlyStopConfig Res M)
    (job : BacktestJobConfig Venue PropFirm V) (params : SweepParams V) (score : S) : Prop :=
  ∃ res, dispatch job params = .ok res ∧ earlyStop.shouldStop res = .ok false ∧
    netPnl.score res = some score

/-- **One trial.** Its record is `ok` just where the combination competes. -/
theorem runTrial_spec {params : SweepParams V} {c : CombinationResult V Res S}
    (h : runTrial dispatch netPnl earlyStop job params = .ok c) :
    c.params = params ∧ ∀ score, Competes dispatch netPnl earlyStop job params score ↔
      c.status = .ok ∧ c.score = score := by
  rw [runTrial] at h
  unfold Competes
  cases hrun : dispatch job params with
  | error e =>
    rw [hrun] at h
    cases e with
    | memoryError => cases h
    | other text =>
      cases h
      simp
  | ok res =>
    rw [hrun] at h
    obtain ⟨stopped, hstopped, h⟩ := bind_eq_ok.mp h
    cases stopped with
    | true =>
      cases h
      simp [hstopped]
    | false =>
      cases hscore : netPnl.score res with
      | none =>
        simp only [hscore] at h
        cases h
        simp [hscore]
      | some score =>
        simp only [hscore] at h
        cases h
        simp [hstopped, hscore]

/-- What a search of a space within a budget comes to. -/
structure Searches
    (dispatch : BacktestJobConfig Venue PropFirm V → SweepParams V → Except RunError Res)
    (netPnl : NetPnl Res S) (earlyStop : EarlyStopConfig Res M)
    (job : BacktestJobConfig Venue PropFirm V) (space : ParamSpace V) (budget : SweepBudget)
    (r : SweepResult V Res S) : Prop where
  within : r.combos.length ≤ budget.maxTrials
  ofSpace : ∀ c ∈ r.combos, OfGrid space.values c.params
  /-- Every combination, in the order of their numbers. -/
  whole : space.cartesianSize ≤ budget.maxTrials → r.combos.length = space.cartesianSize ∧
    (∀ i < space.cartesianSize,
      (r.combos.map (·.params))[i]? = combinationAt space.values i) ∧
    ∀ params, OfGrid space.values params → params ∈ r.combos.map (·.params)
  /-- The best competes, what was tried before it is worse, and nothing is
  better. -/
  best : ∀ c, r.best = .ok c → ∃ before after, r.combos = before ++ c :: after ∧
    Competes dispatch netPnl earlyStop job c.params c.score ∧
    (∀ tried ∈ before, ∀ score,
      Competes dispatch netPnl earlyStop job tried.params score → score < c.score) ∧
    ∀ tried ∈ after, ∀ score,
      Competes dispatch netPnl earlyStop job tried.params score → score ≤ c.score
  /-- There is none just where no combination competes. -/
  noBest : ∀ text, r.best = .error text → ∀ tried ∈ r.combos, ∀ score,
    ¬Competes dispatch netPnl earlyStop job tried.params score

theorem searches_of_trials {space : ParamSpace V} {budget : SweepBudget}
    {combos : List (SweepParams V)} {records : List (CombinationResult V Res S)}
    (hcombos : combos.length ≤ budget.maxTrials ∧
      (∀ params ∈ combos, OfGrid space.values params) ∧
      (space.cartesianSize ≤ budget.maxTrials → combos = expandGrid space.values))
    (h : combos.mapM (runTrial dispatch netPnl earlyStop job) = .ok records) :
    Searches dispatch netPnl earlyStop job space budget { combos := records } := by
  have hparams : records.map (·.params) = combos := by
    rw [← List.forall₂_eq_eq_eq, List.forall₂_map_left_iff]
    exact (forall₂_of_mapM h).flip.imp fun c params htrial => (runTrial_spec htrial).1
  have hrecord : ∀ c ∈ records, ∀ score,
      Competes dispatch netPnl earlyStop job c.params score ↔ c.status = .ok ∧ c.score = score := by
    intro c hc
    obtain ⟨params, -, htrial⟩ := exists_of_mapM h c hc
    obtain ⟨rfl, hcompetes⟩ := runTrial_spec htrial
    exact hcompetes
  obtain ⟨hbudget, hspace, hwhole⟩ := hcombos
  refine ⟨?_, fun c hc => hspace _ (hparams ▸ List.mem_map_of_mem hc), ?_, fun c hbest => ?_,
    fun text hbest tried htried score hscore => ?_⟩
  · rwa [← hparams, List.length_map] at hbudget
  · intro hfits
    have hgrid : combos = expandGrid space.values := hwhole hfits
    refine ⟨?_, fun i hi => ?_, fun params hofGrid => ?_⟩
    · rw [cartesianSize_eq, ← hgrid, ← hparams, List.length_map]
    · rw [hparams, hgrid, getElem?_expandGrid space.values_ne (by rwa [← cartesianSize_eq])]
    · rw [hparams, hgrid]
      exact mem_expandGrid.mpr hofGrid
  · obtain ⟨before, after, rfl, hok, hbefore, hafter⟩ :=
      (SweepResult.firstGreatest_of_best hbest).of_filter
    refine ⟨before, after, rfl, (hrecord c (by simp) _).mpr ⟨of_decide_eq_true hok, rfl⟩,
      fun tried htried score hscore => ?_, fun tried htried score hscore => ?_⟩
    · obtain ⟨hstatus, rfl⟩ := (hrecord tried (by simp [htried]) score).mp hscore
      exact hbefore tried htried (decide_eq_true hstatus)
    · obtain ⟨hstatus, rfl⟩ := (hrecord tried (by simp [htried]) score).mp hscore
      exact hafter tried htried (decide_eq_true hstatus)
  · obtain ⟨hstatus, -⟩ := (hrecord tried htried score).mp hscore
    have hnone := SweepResult.okCombos_of_best_error hbest
    rw [SweepResult.okCombos, List.filter_eq_nil_iff] at hnone
    exact hnone tried htried (decide_eq_true hstatus)

/-- **A sweep searches its space.** -/
theorem runParameterSweep_searches {sample : Sample V} (hsample : sample.Draws)
    {spec : StrategySpec V} {m : DatasetManifest} {windowName : List Char} {venue : Venue}
    {space : ParamSpace V} {budget : SweepBudget} {sampler : Sampler} {seed : ℤ}
    {propFirm : Option PropFirm} {r : SweepResult V Res S}
    (h : runParameterSweep sample dispatch netPnl earlyStop spec m windowName venue space budget
      sampler seed propFirm = .ok r) :
    ∃ entry job, firstEntryForWindow m windowName = .ok entry ∧
      buildBaseJob spec m entry venue propFirm = .ok job ∧
      Searches dispatch netPnl earlyStop job space budget r := by
  obtain ⟨-, -, h⟩ := bind_eq_ok.mp h
  obtain ⟨entry, hentry, h⟩ := bind_eq_ok.mp h
  obtain ⟨job, hjob, h⟩ := bind_eq_ok.mp h
  obtain ⟨combos, hcombos, h⟩ := bind_eq_ok.mp h
  obtain ⟨records, hrecords, h⟩ := bind_eq_ok.mp h
  cases h
  refine ⟨entry, job, mapError_eq_ok.mp hentry, hjob, ?_⟩
  exact searches_of_trials (generateCombos_spec hsample hcombos) hrecords

theorem draws_firstCombos : Sample.Draws WalkForward.firstCombos := fun _ _ _ h =>
  ⟨List.length_take_of_le h, (List.take_sublist _ _).subperm⟩

def julyFirst : UtcDatetime where
  year := 2023
  month := 7
  day := 1
  hour := 0
  minute := 0
  second := 0
  microsecond := 0
  year_bounds := by decide
  month_bounds := by decide
  day_bounds := by decide
  hour_lt := by decide
  minute_lt := by decide
  second_lt := by decide
  microsecond_lt := Nat.zero_lt_succ _

def julyFirstEntry : DatasetEntry where
  timeframe := "H1".toList
  windowName := "is".toList
  windowKind := .inSample
  start := julyFirst
  stop := julyFirst
  parquetPath := ⟨0, ["bars.parquet".toList]⟩
  fingerprint := { minTs := 0, maxTs := 0, rowCount := 1 }
  rowCount := 1
  gaps := []

def julyFirstManifest : DatasetManifest where
  specName := "one".toList
  datasetVersion := "v1".toList
  symbol := "XAUUSD".toList
  generatedAt := julyFirst
  maxGapHours := ⟨false, 24, by decide, by decide +kernel⟩
  entries := [julyFirstEntry]

def slowSpec : StrategySpec ℤ := ⟨"ma_crossover", "1-HOUR-LAST-EXTERNAL", []⟩

def slowSpace : ParamSpace ℤ where
  name := "slow"
  values := [("period", [20, 30, 40])]
  name_ne := by decide
  values_ne := by simp
  keys_nodup := List.nodup_singleton _

/-- A strategy that cannot trade at a period of 20. -/
def slowRun : BacktestJobConfig Unit Unit ℤ → SweepParams ℤ → Except RunError ℤ := fun _ params =>
  if params = [("period", 20)] then .error (.other "no trades") else .ok 7

def slowPnl : NetPnl ℤ (WithBot ℤ) := ⟨fun res => some res, toString⟩

def slowResult : SweepResult ℤ ℤ (WithBot ℤ) where
  combos :=
    [{ params := [("period", 20)], status := .failed, result := none, score := ⊥
       error := some "no trades" },
      { params := [("period", 30)], status := .ok, result := some 7, score := (7 : ℤ) }]

/-- Two trials of the three, those that the seed 4 draws. -/
theorem runParameterSweep_searches_slow : ∃ job,
    Searches slowRun slowPnl ⟨.ok, (10 : ℤ), .gt⟩ job slowSpace ⟨2, Nat.one_le_ofNat⟩
      slowResult := by
  have h : runParameterSweep WalkForward.firstCombos slowRun slowPnl ⟨.ok, (10 : ℤ), .gt⟩ slowSpec
      julyFirstManifest "is".toList () slowSpace ⟨2, Nat.one_le_ofNat⟩ .random 4 none =
        .ok slowResult := rfl
  obtain ⟨-, job, -, -, hsearch⟩ := runParameterSweep_searches draws_firstCombos h
  exact ⟨job, hsearch⟩

end Harness

end TdSandboxed
