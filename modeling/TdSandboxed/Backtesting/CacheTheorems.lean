/-
TdSandboxed.Backtesting.CacheTheorems — is the bar cache coherent?

A call of the cached loader is a visit of a cache-aside store
(`load_eq_visit`): its key is the shard's file, its value is what the
database answers at that moment. The file name holds the stamps of the
window and a hash of the fingerprint, which is the first time, the last
time and the number of candles. So the name changes with these three, and
not with a price.

`coherent_iff` says when every load with a fresh fingerprint returns what
the database holds.
-/
import TdSandboxed.Backtesting.DataLoader
import TdSandboxed.Lib.CacheAside

namespace TdSandboxed

open Lib (Visit)

/-! ## Histories -/

def CandleTable.afterAll (t : CandleTable) (history : List BarEvent) : CandleTable :=
  history.foldl CandleTable.after t

namespace BarQuery

/-- Both names may stand in a path. -/
def Safe (q : BarQuery) : Prop :=
  safePathComponent q.symbol = true ∧ safePathComponent q.timeframe = true

instance (q : BarQuery) : Decidable q.Safe := instDecidableAnd

end BarQuery

namespace CachedBarLoader

variable {φ : Type} (loader : CachedBarLoader φ) (t : CandleTable)

/-- The table and the files after a history, from an empty cache. -/
def run (history : List BarEvent) : BarStore φ :=
  history.foldl loader.step { candles := t, files := fun _ => none }

/-- What an event asks of the cache, by the table at hand. -/
def visit? : BarEvent → Option (Visit ShardPath (DataFrame φ))
  | .load q fingerprint noCache =>
    if q.Safe then
      some { key := loader.parquet.shardPath q fingerprint, bypass := noCache,
             value := TimescaleBarLoader.aload loader.float t q }
    else none
  | _ => none

/-- The visits of a history. They depend on the updates alone. -/
def visits : CandleTable → List BarEvent → List (Visit ShardPath (DataFrame φ))
  | _, [] => []
  | t, e :: rest => (loader.visit? t e).toList ++ visits (t.after e) rest

/-- Every load of the history that is called with a fresh fingerprint
returns what the database answers at that moment. -/
def Coherent (history : List BarEvent) : Prop :=
  ∀ before q noCache,
    before ++ [.load q (TimescaleBarLoader.afingerprint (loader.run t before).candles q) noCache] <+:
      history →
    Prod.fst <$> loader.load (loader.run t before) q
        (TimescaleBarLoader.afingerprint (loader.run t before).candles q) noCache =
      .ok (TimescaleBarLoader.aload loader.float (loader.run t before).candles q)

/-- Every such load has safe names, and its window holds the bars it held
at the load that wrote the shard: the last one with `no_cache`, or else
the first one. -/
def ShardsCurrent (history : List BarEvent) : Prop :=
  ∀ before q noCache,
    before ++ [.load q (TimescaleBarLoader.afingerprint (t.afterAll before) q) noCache] <+: history →
    q.Safe ∧ (noCache = true ∨
      ∀ df ∈ Visit.written (loader.visits t before)
        (loader.parquet.shardPath q (TimescaleBarLoader.afingerprint (t.afterAll before) q)),
        df = TimescaleBarLoader.aload loader.float (t.afterAll before) q)

variable {loader t}

/-! ## Loads are visits -/

theorem pathFor_eq (parquet : ParquetBarLoader) (q : BarQuery)
    (fingerprint : ContentHashFingerprint) (h : q.Safe) :
    parquet.pathFor q fingerprint = .ok (parquet.shardPath q fingerprint) := by
  unfold ParquetBarLoader.pathFor validatePathComponent
  rw [if_pos h.1, if_pos h.2]
  rfl

theorem exists_pathFor_error (parquet : ParquetBarLoader) (q : BarQuery)
    (fingerprint : ContentHashFingerprint) (h : ¬ q.Safe) :
    ∃ e, parquet.pathFor q fingerprint = .error e := by
  unfold ParquetBarLoader.pathFor validatePathComponent
  by_cases hsymbol : safePathComponent q.symbol = true
  · have htimeframe : ¬ safePathComponent q.timeframe = true := fun ht => h ⟨hsymbol, ht⟩
    rw [if_pos hsymbol, if_neg htimeframe]
    exact ⟨_, rfl⟩
  · rw [if_neg hsymbol]
    exact ⟨_, rfl⟩

/-- **A load with safe names answers and fills as a visit does.** -/
theorem load_eq_visit (s : BarStore φ) {q : BarQuery} (fingerprint : ContentHashFingerprint)
    (noCache : Bool) (h : q.Safe) :
    loader.load s q fingerprint noCache =
      let v : Visit ShardPath (DataFrame φ) :=
        { key := loader.parquet.shardPath q fingerprint, bypass := noCache,
          value := TimescaleBarLoader.aload loader.float s.candles q }
      .ok (v.answer s.files, v.fill s.files) := by
  have hpath := pathFor_eq loader.parquet q fingerprint h
  unfold CachedBarLoader.load ParquetBarLoader.load ParquetBarLoader.write Visit.answer Visit.fill
  rw [hpath]
  cases noCache with
  | true => rfl
  | false =>
    cases hfile : s.files (loader.parquet.shardPath q fingerprint) with
    | none => simp [hfile, bind, Except.bind, pure, Except.pure]
    | some df => simp [hfile, bind, Except.bind, pure, Except.pure]

/-- A load with other names raises. -/
theorem exists_load_error (s : BarStore φ) {q : BarQuery} (fingerprint : ContentHashFingerprint)
    (noCache : Bool) (h : ¬ q.Safe) : ∃ e, loader.load s q fingerprint noCache = .error e := by
  obtain ⟨e, hpath⟩ := exists_pathFor_error loader.parquet q fingerprint h
  unfold CachedBarLoader.load ParquetBarLoader.load ParquetBarLoader.write
  rw [hpath]
  cases noCache with
  | true => exact ⟨e, rfl⟩
  | false => exact ⟨e, rfl⟩

/-- An event moves the table by itself, and the files by what it asks. -/
theorem step_eq (s : BarStore φ) (e : BarEvent) :
    loader.step s e =
      { candles := s.candles.after e
        files := (loader.visit? s.candles e).elim s.files (Visit.fill s.files) } := by
  cases e with
  | load q fingerprint noCache =>
    unfold CachedBarLoader.step visit?
    dsimp only
    by_cases h : q.Safe
    · rw [load_eq_visit s fingerprint noCache h, if_pos h]
      rfl
    · obtain ⟨error, hload⟩ := exists_load_error s fingerprint noCache h
      rw [hload, if_neg h]
      rfl
  | insert key prices => rfl
  | correct key prices => rfl
  | delete key => rfl

theorem visits_append (history rest : List BarEvent) :
    loader.visits t (history ++ rest) =
      loader.visits t history ++ loader.visits (t.afterAll history) rest := by
  induction history generalizing t with
  | nil => rfl
  | cons e history ih =>
    rw [List.cons_append, visits, visits, ih, List.append_assoc]
    rfl

theorem visits_concat (history : List BarEvent) (e : BarEvent) :
    loader.visits t (history ++ [e]) =
      loader.visits t history ++ (loader.visit? (t.afterAll history) e).toList := by
  rw [visits_append, visits, visits, List.append_nil]

/-- **The files of a run are the store its visits filled.** -/
theorem run_eq (history : List BarEvent) :
    loader.run t history =
      { candles := t.afterAll history, files := Visit.filled (loader.visits t history) } := by
  induction history using List.reverseRecOn with
  | nil => rfl
  | append_singleton history e ih =>
    have hrun : loader.run t (history ++ [e]) = loader.step (loader.run t history) e := by
      simp [run]
    have htable : t.afterAll (history ++ [e]) = (t.afterAll history).after e := by
      simp [CandleTable.afterAll]
    rw [hrun, ih, step_eq, htable, visits_concat]
    dsimp only
    cases loader.visit? (t.afterAll history) e with
    | none => rw [Option.toList_none, List.append_nil, Option.elim_none]
    | some v => rw [Option.toList_some, Visit.filled_concat, Option.elim_some]

/-- One load, after any history. -/
theorem load_right_iff (before : List BarEvent) (q : BarQuery) (fingerprint : ContentHashFingerprint)
    (noCache : Bool) :
    Prod.fst <$> loader.load (loader.run t before) q fingerprint noCache =
        .ok (TimescaleBarLoader.aload loader.float (t.afterAll before) q) ↔
      q.Safe ∧ (noCache = true ∨
        ∀ df ∈ Visit.written (loader.visits t before) (loader.parquet.shardPath q fingerprint),
          df = TimescaleBarLoader.aload loader.float (t.afterAll before) q) := by
  by_cases h : q.Safe
  · rw [load_eq_visit _ fingerprint noCache h, run_eq]
    refine Iff.trans ?_ ((Visit.answer_eq_iff (loader.visits t before)
      { key := loader.parquet.shardPath q fingerprint, bypass := noCache,
        value := TimescaleBarLoader.aload loader.float (t.afterAll before) q }).trans
          (and_iff_right h).symm)
    exact ⟨Except.ok.inj, congrArg Except.ok⟩
  · obtain ⟨e, hload⟩ := exists_load_error (loader.run t before) fingerprint noCache h
    rw [hload]
    refine iff_of_false ?_ fun hand => h hand.1
    intro heq
    cases heq

/-! ## Coherence -/

/-- **The cache is coherent over a history exactly when every fresh load
finds in its window the bars that the load that wrote its shard found.** -/
theorem coherent_iff (loader : CachedBarLoader φ) (t : CandleTable) (history : List BarEvent) :
    loader.Coherent t history ↔ loader.ShardsCurrent t history := by
  have hcandles (before : List BarEvent) : (loader.run t before).candles = t.afterAll before := by
    rw [run_eq]
  unfold Coherent ShardsCurrent
  simp only [hcandles]
  refine forall_congr' fun before => forall_congr' fun q => forall_congr' fun noCache => ?_
  exact imp_congr_right fun _ => load_right_iff before q _ noCache

theorem visits_mono {before history : List BarEvent} (h : before <+: history) :
    loader.visits t before <+: loader.visits t history := by
  obtain ⟨rest, rfl⟩ := h
  rw [visits_append]
  exact List.prefix_append _ _

/-- Loads that find the same bars whenever they share a shard keep the cache
coherent. -/
theorem coherent_of_keyed {history : List BarEvent}
    (hsafe : ∀ q fingerprint noCache, .load q fingerprint noCache ∈ history → q.Safe)
    (hkeyed : ∀ v ∈ loader.visits t history, ∀ w ∈ loader.visits t history,
      v.key = w.key → v.value = w.value) :
    loader.Coherent t history := by
  intro before q noCache hpre
  have hq : q.Safe := hsafe _ _ _ (hpre.mem (List.mem_append_right _ (List.mem_singleton_self _)))
  have hcandles : (loader.run t before).candles = t.afterAll before := by rw [run_eq]
  rw [hcandles] at hpre ⊢
  have hvisits := @visits_mono _ loader t _ _ hpre
  rw [visits_concat, visit?, if_pos hq] at hvisits
  refine (load_right_iff before q _ noCache).mpr ⟨hq, .inr (Visit.written_of_keyed ?_)⟩
  intro w hw hkey
  exact hkeyed w (hvisits.mem (List.mem_append_left _ hw)) _
    (hvisits.mem (List.mem_append_right _ List.mem_cons_self)) hkey

end CachedBarLoader

/-! ## A corrected price -/

def goldMinute : CandleKey := { symbol := "XAUUSD", timeframe := "1m", time := 0 }

def goldQuery : BarQuery :=
  { symbol := "XAUUSD", timeframe := "1m", start := { wall := 0 }, stop := { wall := 60000000 } }

def flatPrices (price : ℚ) : CandlePrices :=
  { openPrice := price, high := price, low := price, close := price, volume := none }

/-- What the query for the fingerprint answers at both loads. -/
def oneCandle : ContentHashFingerprint := { minTs := 0, maxTs := 0, rowCount := 1 }

def correctedHistory : List BarEvent :=
  [.insert goldMinute (flatPrices 1900), .load goldQuery oneCandle false,
    .correct goldMinute (flatPrices 1950), .load goldQuery oneCandle false]

def plainLoader : CachedBarLoader ℚ :=
  { parquet := { cacheDir := ["cache"], hexdigest := id }, float := id }

/-- A price was corrected between two loads. The three numbers of the
fingerprint are the same, so the second load returns the old price. -/
theorem correction_unseen : ¬ plainLoader.Coherent .empty correctedHistory := by
  intro h
  have hfresh : TimescaleBarLoader.afingerprint
      (plainLoader.run .empty (correctedHistory.take 3)).candles goldQuery = oneCandle := by
    decide +kernel
  have hlast := h (correctedHistory.take 3) goldQuery false
  rw [hfresh] at hlast
  have hreturned := hlast List.prefix_rfl
  revert hreturned
  decide +kernel

end TdSandboxed
