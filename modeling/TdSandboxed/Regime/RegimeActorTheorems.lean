/-
TdSandboxed.Regime.RegimeActorTheorems — what a regime actor publishes of a
stream of bars (`regime/actor.py`).

`Decides` says what the decision for a history of bars is: its features are
the batch features of the history, its raw state is their label, and its
current state is the label that the labels so far have settled on.
`Follows` ties a stage to the decisions of all histories it has been
through: the store is what publishing them leaves, the sink is what auditing
them leaves. One bar keeps it (`Follows.onBar`), and so does a run.

So the audit hook has no part in what is published, whether there is one,
and whether it raises.
-/
import Mathlib
import TdSandboxed.Regime.FeatureTheorems
import TdSandboxed.Regime.HysteresisTheorems
import TdSandboxed.Regime.RegimeActor

namespace TdSandboxed

open Lib

/-! ## One decision -/

theorem RegimeDecision.eq_of_check {F : Type} [LinearOrder F] [Zero F] [One F]
    {d d' : RegimeDecision F} (h : d.check = .ok d') : d' = d := by
  unfold RegimeDecision.check at h
  split_ifs at h
  exact (Except.ok.inj h).symm

/-- A decision of a filter is made of the arguments and the state. -/
theorem HysteresisFilter.eq_of_apply {F : Type} [Field F] [LinearOrder F] {f : HysteresisFilter F}
    {raw : RegimeState} {ts : ℚ} {features : RegimeFeatures F} {d : RegimeDecision F}
    (h : (f.apply raw ts features).2 = .ok d) :
    d.timestamp = ts ∧ d.barType = (f.advance raw).config.barType ∧ d.rawState = raw ∧
      d.features = features := by
  rw [RegimeDecision.eq_of_check h]
  exact ⟨rfl, rfl, rfl, rfl⟩

namespace RegimeStage

variable {F σ : Type} [Field F] [LinearOrder F]

/-- The labels of a stream, from the first bar with features on. -/
def labels (sqrt log : F → F) (p : RegimeSetup F) (c : RuleBasedRegimeClassifier F)
    (bars : List (RegimeBar F)) : List RegimeState :=
  onPrefixes (fun bs => c.decide (FeatureExtractor.batch sqrt log p bs))
    (FeatureExtractor.firstBar p) (bars.map RegimeBar.price)

/-- What the decision for a history of bars is. -/
structure Decides (sqrt log : F → F) (p : RegimeSetup F) (c : RuleBasedRegimeClassifier F)
    (confirmationBars : ℕ) (bars : List (RegimeBar F)) (d : RegimeDecision F) : Prop where
  barType : d.barType = p.barType
  timestamp : bars.getLast?.map RegimeBar.timestamp = some d.timestamp
  features : d.features = FeatureExtractor.batch sqrt log p (bars.map RegimeBar.price)
  rawState : d.rawState = c.decide d.features
  settled : Lib.Settled confirmationBars (labels sqrt log p c bars) .unknown d.currentState
  confidence : 0 ≤ d.confidence ∧ d.confidence ≤ 1
  unknown : d.currentState = .unknown → d.confidence = 0

/-- A stage after the bars of a stream, with the decisions it made. -/
structure Follows (sqrt log : F → F) (twoPlaces : F → String) (p : RegimeSetup F)
    (start : RegimeStage F σ) (bars : List (RegimeBar F)) (ds : List (RegimeDecision F))
    (s : RegimeStage F σ) : Prop where
  classifier : s.actor.classifier = start.actor.classifier
  auditToDb : s.actor.auditToDb = start.actor.auditToDb
  auditHook : s.actor.auditHook = start.actor.auditHook
  extractor : s.actor.extractor = FeatureExtractor.after sqrt log p (bars.map RegimeBar.price)
  config : s.actor.hysteresis.config = start.actor.hysteresis.config
  tracks : s.actor.hysteresis.Tracks (labels sqrt log p start.actor.classifier bars)
  decided : List.Forall₂ (Decides sqrt log p start.actor.classifier
    start.actor.hysteresis.config.confirmationBars)
    (onPrefixes id (FeatureExtractor.firstBar p) bars) ds
  store : s.store = ds.foldl RegimeStateStore.publish start.store
  sink : s.sink = ds.foldl (start.actor.audit twoPlaces) start.sink

variable {sqrt log : F → F} {twoPlaces : F → String} {p : RegimeSetup F}
  {start s : RegimeStage F σ} {bars : List (RegimeBar F)} {bar : RegimeBar F}
  {ds : List (RegimeDecision F)}

theorem Follows.audit (h : Follows sqrt log twoPlaces p start bars ds s) :
    s.actor.audit twoPlaces = start.actor.audit twoPlaces := by
  funext sink d
  simp only [RegimeActor.audit, h.auditToDb, h.auditHook]

/-- A new actor has followed the empty stream. -/
theorem follows_nil (hextractor : start.actor.extractor = p.buildExtractor)
    (hhysteresis : start.actor.hysteresis = { config := start.actor.hysteresis.config }) :
    Follows sqrt log twoPlaces p start [] [] start := by
  have hfirst : 0 < FeatureExtractor.firstBar p := lt_max_of_lt_left p.warmupBars_pos
  have hlabels : labels sqrt log p start.actor.classifier [] = [] := onPrefixes_of_lt _ hfirst
  have hprefixes : onPrefixes id (FeatureExtractor.firstBar p) ([] : List (RegimeBar F)) = [] :=
    onPrefixes_of_lt _ hfirst
  refine ⟨rfl, rfl, rfl, ?_, rfl, ?_, ?_, rfl, rfl⟩
  · rw [hextractor, List.map_nil, FeatureExtractor.after_nil]
  · rw [hlabels, hhysteresis]
    exact (HysteresisFilter.tracks_run start.actor.hysteresis.config []).2
  · rw [hprefixes]
    exact .nil

variable [IsStrictOrderedRing F]

/-- **One bar.** -/
theorem Follows.onBar (h : Follows sqrt log twoPlaces p start bars ds s)
    (hbarType : start.actor.hysteresis.config.barType = p.barType)
    (hbars : ∀ b ∈ bars, b.price.Priced) (hbar : bar.price.Priced) :
    ∃ ds' s', s.onBar sqrt log twoPlaces bar = .ok s' ∧
      Follows sqrt log twoPlaces p start (bars ++ [bar]) ds' s' := by
  have hprices : ∀ b ∈ bars.map RegimeBar.price, b.Priced := by
    intro b hb
    obtain ⟨b, hmem, rfl⟩ := List.mem_map.mp hb
    exact hbars b hmem
  have hmap : (bars ++ [bar]).map RegimeBar.price =
      bars.map RegimeBar.price ++ [bar.price] := by simp
  have hupdate : s.actor.extractor.update sqrt log bar.price =
      .ok (FeatureExtractor.after sqrt log p ((bars ++ [bar]).map RegimeBar.price),
        if bars.length + 1 < FeatureExtractor.firstBar p then none
        else some (FeatureExtractor.batch sqrt log p ((bars ++ [bar]).map RegimeBar.price))) := by
    rw [hmap, h.extractor, FeatureExtractor.update_after hprices hbar, List.length_map]
  by_cases hwarm : bars.length + 1 < FeatureExtractor.firstBar p
  · -- the warm-up: no label, no decision
    have hlabels : labels sqrt log p start.actor.classifier (bars ++ [bar]) =
        labels sqrt log p start.actor.classifier bars := by
      rw [labels, labels, onPrefixes_of_lt _ (by simpa using hwarm),
        onPrefixes_of_lt _ (by rw [List.length_map]; omega)]
    have hprefixes : onPrefixes id (FeatureExtractor.firstBar p) (bars ++ [bar]) =
        onPrefixes id (FeatureExtractor.firstBar p) bars := by
      rw [onPrefixes_of_lt _ (by simpa using hwarm), onPrefixes_of_lt _ (by omega)]
    rw [if_pos hwarm] at hupdate
    refine ⟨ds, { s with actor := { s.actor with
      extractor := FeatureExtractor.after sqrt log p ((bars ++ [bar]).map RegimeBar.price) } },
      ?_, ?_⟩
    · simp only [RegimeStage.onBar, hupdate]
    · exact ⟨h.classifier, h.auditToDb, h.auditHook, rfl, h.config, hlabels ▸ h.tracks,
        hprefixes ▸ h.decided, h.store, h.sink⟩
  · rw [if_neg hwarm] at hupdate
    set features := FeatureExtractor.batch sqrt log p ((bars ++ [bar]).map RegimeBar.price)
      with hfeatures
    set raw := start.actor.classifier.decide features with hraw
    have hlabels : labels sqrt log p start.actor.classifier (bars ++ [bar]) =
        labels sqrt log p start.actor.classifier bars ++ [raw] := by
      rw [labels, hmap, onPrefixes_concat _ _ (by rw [List.length_map]; omega), ← hmap]
      rfl
    have hprefixes : onPrefixes id (FeatureExtractor.firstBar p) (bars ++ [bar]) =
        onPrefixes id (FeatureExtractor.firstBar p) bars ++ [bars ++ [bar]] :=
      onPrefixes_concat id bar (by omega)
    obtain ⟨d, hd, hcurrent, hzero, hone, hunknown⟩ :=
      h.tracks.apply raw bar.timestamp features
    obtain ⟨hts, htype, hrawState, hdfeatures⟩ := HysteresisFilter.eq_of_apply hd
    have hnext := h.tracks.advance raw
    have hconfig := HysteresisFilter.advance_config s.actor.hysteresis raw
    have hdecides : Decides sqrt log p start.actor.classifier
        start.actor.hysteresis.config.confirmationBars (bars ++ [bar]) d := by
      refine ⟨?_, ?_, hdfeatures, ?_, ?_, ⟨hzero, hone⟩, hunknown⟩
      · rw [htype, hconfig, h.config, hbarType]
      · simp [hts]
      · rw [hrawState, hdfeatures]
      · rw [hlabels, hcurrent, ← h.config, ← hconfig]
        exact hnext.settled
    let actor := { s.actor with
      extractor := FeatureExtractor.after sqrt log p ((bars ++ [bar]).map RegimeBar.price)
      hysteresis := s.actor.hysteresis.advance raw }
    let sink := s.actor.audit twoPlaces s.sink d
    refine ⟨ds ++ [d], { actor, store := s.store.publish d, sink }, ?_, ?_⟩
    · have happly : s.actor.hysteresis.apply raw bar.timestamp features =
          (s.actor.hysteresis.advance raw, .ok d) := Prod.ext rfl hd
      have hdecide : s.actor.classifier.decide features = raw := by rw [h.classifier]
      simp only [RegimeStage.onBar, hupdate, hdecide, happly]
      rfl
    · refine ⟨h.classifier, h.auditToDb, h.auditHook, rfl, hconfig.trans h.config, ?_, ?_, ?_, ?_⟩
      · rw [hlabels]
        exact hnext
      · rw [hprefixes]
        exact List.rel_append h.decided (.cons hdecides .nil)
      · simp [h.store]
      · simp [sink, h.sink, h.audit]

variable (sqrt log twoPlaces p) in
/-- **A run.** -/
theorem follows_run (hextractor : start.actor.extractor = p.buildExtractor)
    (hhysteresis : start.actor.hysteresis = { config := start.actor.hysteresis.config })
    (hbarType : start.actor.hysteresis.config.barType = p.barType)
    (hbars : ∀ b ∈ bars, b.price.Priced) :
    ∃ ds s, start.run sqrt log twoPlaces bars = .ok s ∧
      Follows sqrt log twoPlaces p start bars ds s := by
  induction bars using List.reverseRecOn with
  | nil => exact ⟨[], start, rfl, follows_nil hextractor hhysteresis⟩
  | append_singleton bars bar ih =>
    have hold : ∀ b ∈ bars, b.price.Priced := fun b hb => hbars b (List.mem_append_left _ hb)
    obtain ⟨ds, s, hrun, hs⟩ := ih hold
    obtain ⟨ds', s', hstep, hs'⟩ := hs.onBar hbarType hold (hbars bar (by simp))
    refine ⟨ds', s', ?_, hs'⟩
    rw [RegimeStage.run] at hrun ⊢
    rw [List.foldlM_append, hrun]
    simp only [List.foldlM_cons, List.foldlM_nil]
    exact (congrArg (· >>= pure) hstep).trans rfl

/-! ## The store -/

omit [LinearOrder F] [IsStrictOrderedRing F] [Field F] in
/-- The store after a list of decisions on one bar type. -/
theorem current_foldl_publish {barType : String} (store : RegimeStateStore F)
    (hds : ∀ d ∈ ds, d.barType = barType) (key : String) :
    (ds.foldl RegimeStateStore.publish store).current key =
      if key = barType then (ds.getLast?.map RegimeDecision.snapshot).or (store.current key)
      else store.current key := by
  induction ds using List.reverseRecOn with
  | nil => simp
  | append_singleton ds d ih =>
    have hd : d.barType = barType := hds d (by simp)
    rw [List.foldl_append, List.foldl_cons, List.foldl_nil, RegimeStateStore.current,
      RegimeStateStore.publish, OrderedDict.get?_set, hd]
    by_cases hkey : key = barType
    · simp [hkey]
    · rw [if_neg hkey, if_neg hkey]
      exact (ih fun d hd => hds d (List.mem_append_left _ hd)).trans (if_neg hkey)

omit [IsStrictOrderedRing F] in
theorem Follows.current_eq (h : Follows sqrt log twoPlaces p start bars ds s) (key : String) :
    s.store.current key = if key = p.barType then
        (ds.getLast?.map RegimeDecision.snapshot).or (start.store.current key)
      else start.store.current key := by
  rw [h.store]
  refine current_foldl_publish start.store ?_ key
  intro d hd
  obtain ⟨_, -, hdecides⟩ := exists_left_of_mem h.decided hd
  exact hdecides.barType

omit [IsStrictOrderedRing F] in
/-- The state in the store is what the labels have settled on. -/
theorem Follows.settled_of_current (h : Follows sqrt log twoPlaces p start bars ds s)
    (hempty : start.store.current p.barType = none) {state : RegimeState}
    (hstate : (s.store.current p.barType).map (·.currentState) = some state) :
    Lib.Settled start.actor.hysteresis.config.confirmationBars
      (labels sqrt log p start.actor.classifier bars) .unknown state := by
  have hpos : 0 < FeatureExtractor.firstBar p := lt_max_of_lt_left p.warmupBars_pos
  have hdecided := h.decided
  have hfirst : FeatureExtractor.firstBar p ≤ bars.length := by
    by_contra hwarm
    rw [onPrefixes_of_lt _ (not_le.mp hwarm)] at hdecided
    obtain rfl := List.forall₂_nil_left_iff.mp hdecided
    rw [h.current_eq, if_pos rfl, hempty] at hstate
    cases hstate
  obtain ⟨before, bar, rfl⟩ := List.eq_nil_or_concat bars |>.resolve_left (by
    rintro rfl
    rw [List.length_nil] at hfirst
    omega)
  rw [List.concat_eq_append] at h hdecided hfirst ⊢
  rw [onPrefixes_concat id bar (by simpa using hfirst)] at hdecided
  obtain ⟨ds', d, rfl, -, hdecides⟩ := forall₂_concat_left hdecided
  rw [h.current_eq, if_pos rfl] at hstate
  obtain rfl : d.currentState = state := by simpa [RegimeDecision.snapshot] using hstate
  exact hdecides.settled

/-! ## A new actor -/

/-- What `build_regime_actor` builds. -/
theorem buildRegimeActor_eq_some {c : RegimeConfig F} {barType : BarType}
    {hook : Option (RegimeAuditHook F σ)} {actor : RegimeActor F σ}
    (h : buildRegimeActor c barType hook = .ok (some actor)) :
    ∃ i, ∃ hwindow : 2 ≤ i.realizedVolWindow, c.getInstrument barType.symbol = .ok i ∧
      actor = i.actor barType c hwindow hook := by
  unfold buildRegimeActor at h
  split at h
  · cases h
  · split at h
    · cases h
    · rename_i i hi
      split at h
      · rename_i hwindow
        exact ⟨i, hwindow, hi, (Option.some.inj (Except.ok.inj h)).symm⟩
      · cases h

theorem buildRegimeActor_of_window {c : RegimeConfig F} {barType : BarType}
    {i : InstrumentRegimeConfig F} (henabled : c.enabled = true)
    (hi : c.getInstrument barType.symbol = .ok i) (hwindow : 2 ≤ i.realizedVolWindow)
    (hook : Option (RegimeAuditHook F σ)) :
    buildRegimeActor c barType hook = .ok (some (i.actor barType c hwindow hook)) := by
  simp only [buildRegimeActor, henabled, hi, hwindow, Bool.true_eq_false, if_false, dif_pos]

theorem audit_actor (i : InstrumentRegimeConfig F) (barType : BarType) (c : RegimeConfig F)
    (hwindow : 2 ≤ i.realizedVolWindow) (hook : Option (RegimeAuditHook F σ)) :
    (i.actor barType c hwindow hook).audit twoPlaces =
      fun sink d => (hook.map fun hook => (hook (toAuditEntry twoPlaces d) sink).1).getD sink := by
  funext sink d
  cases hook <;> rfl

variable (sqrt log twoPlaces) in
/-- **What a regime actor publishes.** A new actor takes every stream of
priced bars. It makes one decision for each history that is long enough,
hands each one to the audit hook, and leaves the last one in the store. -/
theorem run_publishes {c : RegimeConfig F} {barType : BarType}
    {hook : Option (RegimeAuditHook F σ)} {actor : RegimeActor F σ}
    (hbuild : buildRegimeActor c barType hook = .ok (some actor)) (store : RegimeStateStore F)
    (sink : σ) (bars : List (RegimeBar F)) (hbars : ∀ b ∈ bars, b.price.Priced) :
    ∃ i, ∃ hwindow : 2 ≤ i.realizedVolWindow, c.getInstrument barType.symbol = .ok i ∧
      ∃ ds s, run sqrt log twoPlaces { actor, store, sink } bars = .ok s ∧
        List.Forall₂ (Decides sqrt log (i.setup barType c hwindow) { thresholds := i.thresholds }
          c.confirmationBars)
          (onPrefixes id (FeatureExtractor.firstBar (i.setup barType c hwindow)) bars) ds ∧
        (∀ key, s.store.current key = if key = barType.text then
            (ds.getLast?.map RegimeDecision.snapshot).or (store.current key)
          else store.current key) ∧
        s.sink = ds.foldl (fun sink d =>
          (hook.map fun hook => (hook (toAuditEntry twoPlaces d) sink).1).getD sink) sink := by
  obtain ⟨i, hwindow, hi, rfl⟩ := buildRegimeActor_eq_some hbuild
  let start : RegimeStage F σ := { actor := i.actor barType c hwindow hook, store, sink }
  have hextractor : start.actor.extractor = (i.setup barType c hwindow).buildExtractor := rfl
  obtain ⟨ds, s, hrun, hs⟩ := follows_run sqrt log twoPlaces _ hextractor rfl rfl hbars
  refine ⟨i, hwindow, hi, ds, s, hrun, hs.decided, hs.current_eq, ?_⟩
  rw [hs.sink, audit_actor]

end RegimeStage

/-! ## Three flat bars -/

theorem m5_or_m15 : "M5" = "M5" ∨ "M5" = "M15" := .inl rfl

/-- Features from the third bar on. -/
def shortRegime : InstrumentRegimeConfig ℚ where
  timeframe := "M5"
  thresholds := HysteresisFilter.sampleConfig.thresholds
  adxPeriod := 1
  bbPeriod := 1
  bbStddev := 1
  bbBaselineWindow := 1
  realizedVolWindow := 2
  emaSlopePeriod := 1
  emaSlopeLookback := 1
  timeframe_mem := m5_or_m15
  adxPeriod_pos := Nat.one_pos
  bbPeriod_pos := Nat.one_pos
  bbBaselineWindow_pos := Nat.one_pos
  realizedVolWindow_pos := Nat.two_pos
  emaSlopePeriod_pos := Nat.one_pos
  emaSlopeLookback_pos := Nat.one_pos
  bbStddev_pos := zero_lt_one
  bbPeriod_le := le_rfl

theorem shortRegime_fits :
    ∀ i ∈ (OrderedDict.empty.set "XAUUSD" shortRegime).values, i.bbBaselineWindow ≤ 1 := by
  intro i hi
  obtain rfl := List.mem_singleton.mp hi
  exact le_rfl

theorem shortRegime_ne : true = true → (OrderedDict.empty.set "XAUUSD" shortRegime).items ≠ [] :=
  fun _ => List.cons_ne_nil _ _

def goldRegime : RegimeConfig ℚ where
  enabled := true
  confirmationBars := 2
  warmupBars := 1
  featureWindow := 1
  instruments := OrderedDict.empty.set "XAUUSD" shortRegime
  confirmationBars_pos := Nat.two_pos
  warmupBars_pos := Nat.one_pos
  featureWindow_pos := Nat.one_pos
  warmupBars_le := le_rfl
  instruments_ne := shortRegime_ne
  bbBaselineWindow_le := shortRegime_fits

def goldBars : BarType where
  symbol := "XAUUSD"
  venue := "BROKER"
  step := 5
  aggregation := .minute

def flatGold : RegimeBar ℚ where
  price := { high := 100, low := 100, close := 100 }
  tsEvent := 1700000000000000000

theorem flatGold_priced : flatGold.price.Priced :=
  ⟨by decide +kernel, le_rfl, le_rfl⟩

theorem getInstrument_gold : goldRegime.getInstrument goldBars.symbol = .ok shortRegime := by
  simp [RegimeConfig.getInstrument, goldRegime, goldBars, OrderedDict.get?_set]

namespace RegimeStage

theorem run_publishes_flat : ∃ actor : RegimeActor ℚ Unit,
    buildRegimeActor goldRegime goldBars none = .ok (some actor) ∧
    ∃ s, run (fun _ => 0) (fun _ => 0) (fun _ => "") { actor, sink := () }
        [flatGold, flatGold, flatGold] = .ok s ∧
      s.store.current goldBars.text ≠ none := by
  have hbuild := buildRegimeActor_of_window rfl getInstrument_gold le_rfl
    (none : Option (RegimeAuditHook ℚ Unit))
  obtain ⟨i, hwindow, hi, ds, s, hrun, hds, hstore, -⟩ :=
    run_publishes (fun _ => 0) (fun _ => 0) (fun _ => "") hbuild {} ()
      [flatGold, flatGold, flatGold] (by simp [flatGold_priced])
  obtain rfl : shortRegime = i := Except.ok.inj (getInstrument_gold.symm.trans hi)
  have hlength : ds.length = 1 := by
    rw [← hds.length_eq, length_onPrefixes]
    rfl
  obtain ⟨d, rfl⟩ := List.length_eq_one_iff.mp hlength
  refine ⟨_, hbuild, s, hrun, ?_⟩
  rw [hstore, if_pos rfl]
  exact Option.some_ne_none _

end RegimeStage

end TdSandboxed
