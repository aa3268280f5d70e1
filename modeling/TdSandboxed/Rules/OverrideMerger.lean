/-
TdSandboxed.Rules.OverrideMerger — product, phase and account layers of a
rule set (`rules/override_merger.py`).

A layer is a loop over rule types with a loop over fields inside. Both
write into the specs as they go and stop at the first exception, so each is
a `foldlM`. `Mapping` is a dict: no key twice.

The guard of the account layer compares one numeric field of four rule
types. `applyLayer_ok` is what a layer that did not raise has done: every
spec is its old self with the override's fields put in, every field put in
was there before, and no guarded number went the wrong way. NaN is left
out with the other numbers that are no rationals.
-/
import TdSandboxed.Rules.Parser

namespace TdSandboxed

open Lib

structure Mapping (α : Type) where
  entries : List (String × α) := []
  nodup : (entries.map Prod.fst).Nodup := by decide +kernel

/-- What an override gives for a rule type. Only a mapping is accepted. -/
inductive OverrideFields
  | fields (m : Mapping SpecValue)
  | other (typeName : String)

abbrev Overrides := Mapping OverrideFields

/-- A mapping of this text to the fields of a spec. -/
abbrev ByType := List (String × Spec)

inductive Layer
  | phase
  | account
  deriving DecidableEq

def Layer.label : Layer → String
  | .phase => "phase"
  | .account => "account"

/-- The phase layer is the firm's own. -/
def Layer.guarded : Layer → Bool
  | .phase => false
  | .account => true

/-! ## Errors -/

inductive RuleOverrideError
  | missingType (spec : Spec)
  | duplicateType (ruleType : String)
  | unknownRuleType (layer : Layer) (ruleType : String) (available : List String)
  | notAMapping (layer : Layer) (ruleType typeName : String)
  | changesType (layer : Layer) (ruleType : String)
  | unknownField (layer : Layer) (ruleType field : String) (known : List String)
  | notNumeric (ruleType field : String) (baseline new : SpecValue) (cause : PyException)
  | loosens (ruleType field : String) (baseline new : SpecValue) (direction : String)

/-- `repr` of a list of texts. -/
def reprTexts (texts : List String) : String :=
  (SpecValue.list (texts.map .str)).pyRepr

/-- The message, with the account's id in front where one was given. -/
def RuleOverrideError.text (accountId : Option String) (e : RuleOverrideError) : String :=
  let account :=
    match accountId with
    | some id => if id = "" then "" else s!"account {pyRepr id}: "
    | none => ""
  match e with
  | .missingType spec =>
    let fields := spec.map fun p => s!"{pyRepr p.1}: {p.2.pyRepr}"
    "product rule spec missing string 'type' field: \x7b" ++ ", ".intercalate fields ++ "\x7d"
  | .duplicateType t => s!"product baseline declares rule_type {pyRepr t} more than once"
  | .unknownRuleType layer t available =>
    account ++ s!"{layer.label} override targets unknown rule_type {pyRepr t}. " ++
      s!"Product declares: {reprTexts available}"
  | .notAMapping layer t typeName =>
    account ++ s!"{layer.label} override for {pyRepr t} must be a mapping of field→value, " ++
      s!"got {typeName}"
  | .changesType layer t =>
    account ++ s!"{layer.label} override for {pyRepr t} may not change the 'type' field"
  | .unknownField layer t field known =>
    account ++ s!"{layer.label} override for {pyRepr t} sets unknown field {pyRepr field}. " ++
      s!"Known fields: {reprTexts known}"
  | .notNumeric t field baseline new cause =>
    account ++ s!"override for {t}.{field} could not coerce baseline={baseline.pyRepr} or " ++
      s!"new={new.pyRepr} to float for tightness comparison: {cause.text}"
  | .loosens t field baseline new direction =>
    account ++ s!"override for {t}.{field} would loosen the rule: baseline={baseline.pyStr} " ++
      s!"(after phase merge), requested={new.pyStr}, direction={direction}. " ++
      "Account overrides may only tighten or maintain guarded thresholds."

/-! ## The guard -/

inductive Direction
  | lowerIsTighter
  | higherIsTighter
  deriving DecidableEq

def Direction.text : Direction → String
  | .lowerIsTighter => "lower_is_tighter"
  | .higherIsTighter => "higher_is_tighter"

structure GuardField where
  name : String
  direction : Direction
  deriving DecidableEq

def tightnessGuards : List (String × List GuardField) :=
  [("daily_loss_limit", [{ name := "threshold_percent", direction := .lowerIsTighter }]),
   ("max_drawdown", [{ name := "threshold_percent", direction := .lowerIsTighter }]),
   ("max_position_size", [{ name := "max_lots", direction := .lowerIsTighter }]),
   ("consistency", [{ name := "block_at", direction := .lowerIsTighter }])]

/-- The guard of a field of a rule type, if it has one. -/
def guardOf (ruleType field : String) : Option GuardField :=
  (tightnessGuards.lookup ruleType).bind fun guards => guards.find? (·.name = field)

def Direction.loosened (d : Direction) (baseline new : ℚ) : Bool :=
  match d with
  | .lowerIsTighter => baseline < new
  | .higherIsTighter => new < baseline

def enforceNoLoosening (ruleType field : String) (baseline new : SpecValue) :
    Except RuleOverrideError Unit :=
  match guardOf ruleType field with
  | none => .ok ()
  | some guard =>
    match baseline.toFloat, new.toFloat with
    | .ok b, .ok n =>
      if guard.direction.loosened b n then
        .error (.loosens ruleType field baseline new guard.direction.text)
      else .ok ()
    | .error e, _ | .ok _, .error e => .error (.notNumeric ruleType field baseline new e)

/-! ## The layers -/

/-- `spec[field] = value` for a field the spec has. -/
def Spec.put (spec : Spec) (field : String) (value : SpecValue) : Spec :=
  spec.map fun p => if p.1 = field then (field, value) else p

def applyField (layer : Layer) (ruleType : String) (spec : Spec) (entry : String × SpecValue) :
    Except RuleOverrideError Spec :=
  if entry.1 = "type" then .error (.changesType layer ruleType)
  else
    match spec.lookup entry.1 with
    | none =>
      let known := ((spec.map Prod.fst).filter (· ≠ "type")).insertionSort (· ≤ ·)
      .error (.unknownField layer ruleType entry.1 known)
    | some baseline => do
      if layer.guarded then enforceNoLoosening ruleType entry.1 baseline entry.2
      return spec.put entry.1 entry.2

def applyOverride (layer : Layer) (byType : ByType) (entry : String × OverrideFields) :
    Except RuleOverrideError ByType :=
  match byType.lookup entry.1 with
  | none =>
    let available := (byType.map Prod.fst).insertionSort (· ≤ ·)
    .error (.unknownRuleType layer entry.1 available)
  | some spec =>
    match entry.2 with
    | .other typeName => .error (.notAMapping layer entry.1 typeName)
    | .fields m => do
      let spec' ← m.entries.foldlM (applyField layer entry.1) spec
      return byType.map fun p => if p.1 = entry.1 then (entry.1, spec') else p

def applyLayer (layer : Layer) (byType : ByType) (overrides : Overrides) :
    Except RuleOverrideError ByType :=
  overrides.entries.foldlM (applyOverride layer) byType

/-- The product's specs by type, in their order. -/
def collect : List Spec → ByType → Except RuleOverrideError ByType
  | [], byType => .ok byType
  | spec :: rest, byType =>
    match spec.lookup "type" with
    | some (.scalar (.str ruleType)) =>
      if ruleType ∈ byType.map Prod.fst then .error (.duplicateType ruleType)
      else collect rest (byType ++ [(ruleType, spec)])
    | _ => .error (.missingType spec)

def mergeRuleOverrides (productRuleSpecs : List Spec) (phaseOverrides accountOverrides : Overrides) :
    Except RuleOverrideError (List Spec) := do
  let byType ← collect productRuleSpecs []
  let byType ← applyLayer .phase byType phaseOverrides
  let byType ← applyLayer .account byType accountOverrides
  return byType.map Prod.snd

/-! ## What a layer did -/

/-- The value of a field under an override: the override's, or else the
spec's own. -/
def fieldUnder (overrides : Overrides) (ruleType : String) (spec : Spec) (field : String) :
    Option SpecValue :=
  match overrides.entries.lookup ruleType with
  | some (.fields m) => (m.entries.lookup field).or (spec.lookup field)
  | _ => spec.lookup field

/-- The guard of the field, if there is one, saw two numbers and no
loosening. -/
def NotLoosened (ruleType field : String) (baseline new : SpecValue) : Prop :=
  ∀ guard, guardOf ruleType field = some guard →
    ∃ b n, baseline.toFloat = .ok b ∧ new.toFloat = .ok n ∧ guard.direction.loosened b n = false

/-- The layer lets this field of an override through. -/
structure Accepts (layer : Layer) (ruleType : String) (spec : Spec) (entry : String × SpecValue) :
    Prop where
  not_type : entry.1 ≠ "type"
  present : ∃ baseline, spec.lookup entry.1 = some baseline ∧
    (layer.guarded → NotLoosened ruleType entry.1 baseline entry.2)

variable {layer : Layer} {ruleType field : String} {spec spec' : Spec}

theorem Spec.lookup_put {value : SpecValue} (h : spec.lookup field ≠ none) (k : String) :
    (spec.put field value).lookup k = if k = field then some value else List.lookup k spec := by
  rw [Spec.put, lookup_replace]
  obtain ⟨old, hold⟩ := Option.ne_none_iff_exists'.mp h
  rw [hold, Option.map_some]

theorem enforceNoLoosening_ok {baseline new : SpecValue}
    (h : enforceNoLoosening ruleType field baseline new = .ok ()) :
    NotLoosened ruleType field baseline new := by
  intro guard hguard
  unfold enforceNoLoosening at h
  rw [hguard] at h
  dsimp only at h
  split at h
  · rename_i b n hb hn
    refine ⟨b, n, hb, hn, ?_⟩
    split at h
    · cases h
    · rename_i hloose
      exact Bool.not_eq_true _ ▸ hloose
  · cases h
  · cases h

theorem applyField_ok {entry : String × SpecValue}
    (h : applyField layer ruleType spec entry = .ok spec') :
    spec' = spec.put entry.1 entry.2 ∧ Accepts layer ruleType spec entry := by
  unfold applyField at h
  by_cases htype : entry.1 = "type"
  · rw [if_pos htype] at h
    cases h
  · rw [if_neg htype] at h
    cases hbase : spec.lookup entry.1 with
    | none =>
      simp only [hbase] at h
      cases h
    | some baseline =>
      simp only [hbase] at h
      cases hguarded : layer.guarded with
      | true =>
        simp only [hguarded, if_true] at h
        obtain ⟨⟨⟩, hguard, h⟩ := bind_eq_ok.mp h
        refine ⟨(Except.ok.inj h).symm, htype, baseline, hbase, ?_⟩
        intro _
        exact enforceNoLoosening_ok hguard
      | false =>
        simp only [hguarded] at h
        refine ⟨(Except.ok.inj h).symm, htype, baseline, hbase, ?_⟩
        intro hg
        rw [hguarded] at hg
        cases hg

/-- All fields of an override: each was accepted, and the spec reads as the
override where the override says something. -/
theorem applyFields_ok {entries : List (String × SpecValue)}
    (hn : (entries.map Prod.fst).Nodup)
    (h : entries.foldlM (applyField layer ruleType) spec = .ok spec') :
    (∀ k, spec'.lookup k = (entries.lookup k).or (spec.lookup k)) ∧
      ∀ entry ∈ entries, Accepts layer ruleType spec entry := by
  induction entries generalizing spec with
  | nil =>
    cases h
    simp
  | cons entry rest ih =>
    obtain ⟨hfresh, hn⟩ := List.nodup_cons.mp hn
    obtain ⟨spec₁, hfirst, h⟩ := foldlM_ok_cons h
    obtain ⟨rfl, haccept⟩ := applyField_ok hfirst
    obtain ⟨hlookup, hrest⟩ := ih hn h
    have hpresent : spec.lookup entry.1 ≠ none := by
      obtain ⟨baseline, hbase, _⟩ := haccept.present
      rw [hbase]
      simp
    constructor
    · intro k
      rw [hlookup k, Spec.lookup_put hpresent, lookup_cons_eq]
      by_cases hk : k = entry.1
      · subst hk
        rw [if_pos rfl, if_pos rfl, not_mem_keys_iff.mp hfresh]
        rfl
      · rw [if_neg hk, if_neg hk]
    · intro e he
      obtain rfl | he := List.mem_cons.mp he
      · exact haccept
      · -- a later field is another field, which the first one left alone
        have hne : e.1 ≠ entry.1 := by
          intro heq
          exact hfresh (heq ▸ List.mem_map_of_mem he)
        obtain ⟨baseline, hbase, hguard⟩ := (hrest e he).present
        rw [Spec.lookup_put hpresent, if_neg hne] at hbase
        exact ⟨(hrest e he).not_type, baseline, hbase, hguard⟩

/-- One entry of the specs before and after a layer. -/
structure Overridden (layer : Layer) (overrides : List (String × OverrideFields))
    (p p' : String × Spec) : Prop where
  key : p'.1 = p.1
  untouched : overrides.lookup p.1 = none → p'.2 = p.2
  fields : ∀ o, overrides.lookup p.1 = some o → ∃ m : Mapping SpecValue, o = .fields m ∧
    (∀ k, p'.2.lookup k = (m.entries.lookup k).or (p.2.lookup k)) ∧
    ∀ entry ∈ m.entries, Accepts layer p.1 p.2 entry

theorem applyOverride_ok {byType byType' : ByType} {entry : String × OverrideFields}
    (h : applyOverride layer byType entry = .ok byType') :
    ∃ (m : Mapping SpecValue) (spec spec' : Spec),
      entry.2 = .fields m ∧ byType.lookup entry.1 = some spec ∧
        m.entries.foldlM (applyField layer entry.1) spec = .ok spec' ∧
        byType' = byType.map fun p => if p.1 = entry.1 then (entry.1, spec') else p := by
  unfold applyOverride at h
  cases hspec : byType.lookup entry.1 with
  | none =>
    rw [hspec] at h
    cases h
  | some spec =>
    rw [hspec] at h
    dsimp only at h
    cases hfields : entry.2 with
    | other typeName =>
      rw [hfields] at h
      cases h
    | fields m =>
      rw [hfields] at h
      obtain ⟨spec', hfold, h⟩ := bind_eq_ok.mp h
      exact ⟨m, spec, spec', rfl, rfl, hfold, (Except.ok.inj h).symm⟩

theorem applyEntries_ok {entries : List (String × OverrideFields)} {byType byType' : ByType}
    (hentries : (entries.map Prod.fst).Nodup) (hn : (byType.map Prod.fst).Nodup)
    (h : entries.foldlM (applyOverride layer) byType = .ok byType') :
    List.Forall₂ (Overridden layer entries) byType byType' := by
  induction entries generalizing byType with
  | nil =>
    cases h
    refine List.forall₂_same.mpr fun p _ => ⟨rfl, fun _ => rfl, ?_⟩
    rintro o ⟨⟩
  | cons entry rest ih =>
    obtain ⟨hfresh, hentries⟩ := List.nodup_cons.mp hentries
    obtain ⟨byType₁, hfirst, h⟩ := foldlM_ok_cons h
    obtain ⟨m, spec, spec', hm, hspec, hfold, rfl⟩ := applyOverride_ok hfirst
    have hrest := ih hentries (by rw [keys_replace]; exact hn) h
    rw [List.forall₂_map_left_iff] at hrest
    have hmem : ∀ p ∈ byType, p ∈ byType := fun _ hp => hp
    refine ((List.forall₂_and_left _ _).mpr ⟨hmem, hrest⟩).imp ?_
    rintro p p' ⟨hp, hover⟩
    by_cases hkey : p.1 = entry.1
    · -- this entry is the override's, and no later one touches it
      rw [if_pos hkey] at hover
      have hlast : p'.2 = spec' := hover.untouched (not_mem_keys_iff.mp hfresh)
      have hown : p.2 = spec := by
        have hlookup := lookup_of_mem hn hp
        rw [hkey, hspec] at hlookup
        exact (Option.some.inj hlookup).symm
      obtain ⟨hread, haccept⟩ := applyFields_ok m.nodup hfold
      have hfound : (entry :: rest).lookup p.1 = some (.fields m) := by
        rw [lookup_cons_eq, if_pos hkey, hm]
      refine ⟨by rw [hover.key, hkey], fun hnone => ?_, fun o ho => ⟨m, ?_, ?_, ?_⟩⟩
      · rw [hfound] at hnone
        cases hnone
      · rw [hfound] at ho
        exact (Option.some.inj ho).symm
      · rw [hlast, hown]
        exact hread
      · rw [hown, hkey]
        exact haccept
    · rw [if_neg hkey] at hover
      have hskip : (entry :: rest).lookup p.1 = rest.lookup p.1 := by
        rw [lookup_cons_eq, if_neg hkey]
      exact ⟨hover.key, fun hnone => hover.untouched (hskip ▸ hnone),
        fun o ho => hover.fields o (hskip ▸ ho)⟩

/-- **A layer that came through**: entry by entry the spec reads as its old
self under the override, and every field of the override was accepted. -/
theorem applyLayer_ok {overrides : Overrides} {byType byType' : ByType}
    (hn : (byType.map Prod.fst).Nodup) (h : applyLayer layer byType overrides = .ok byType') :
    List.Forall₂ (Overridden layer overrides.entries) byType byType' :=
  applyEntries_ok overrides.nodup hn h

end TdSandboxed
