/-
TdSandboxed.State.DurabilityTheorems — what recovery finds of what the
snapshot services kept (`state/snapshot_service.py`,
`state/cold_storage_service.py`, `state/crash_recovery.py`).

The checksum of a row is that of the snapshot as it was collected, and is
compared with one of the row's own amounts, as texts. So a row passes
exactly when its four amounts are numbers that a `DECIMAL(18, 2)` column
gives back as they were written (`IsMoney`): 100000.00 is one, and 100000.5
is none.

Both stores are followed through a run by what was put into them (`saves`,
`written`), and `recovery_finds` reads recovery off that.
-/
import TdSandboxed.Lib.Assoc
import TdSandboxed.State.SnapshotStores

namespace TdSandboxed.SnapshotCodec

open Lib
open Dataset (UtcDatetime)

/-! ## Amounts -/

/-- A number as a `DECIMAL(18, 2)` column gives it back. -/
def IsMoney : DecimalForm → Prop
  | .finite negative coefficient exponent =>
    exponent = -2 ∧ coefficient < 10 ^ 18 ∧ (coefficient = 0 → negative = false)
  | .infinity _ => False
  | .nan negative signaling payload => negative = false ∧ signaling = false ∧ payload = 0

theorem hundredths_neg_two (coefficient : ℕ) : hundredths coefficient (-2) = coefficient := by
  simp [hundredths]

theorem money_eq_self_iff (d : DecimalForm) : money d = some d ↔ IsMoney d := by
  cases d with
  | infinity negative => simp [money, IsMoney]
  | nan negative signaling payload =>
    simp only [money, IsMoney, Option.some.injEq, DecimalForm.nan.injEq]
    constructor
    · rintro ⟨rfl, rfl, rfl⟩
      exact ⟨rfl, rfl, rfl⟩
    · rintro ⟨rfl, rfl, rfl⟩
      exact ⟨rfl, rfl, rfl⟩
  | finite negative coefficient exponent =>
    simp only [money, IsMoney]
    constructor
    · intro h
      split at h
      · rename_i hlt
        injection h with h
        injection h with hsign hcoefficient hexponent
        rw [hcoefficient] at hlt hsign
        refine ⟨hexponent.symm, hlt, ?_⟩
        intro hzero
        rw [← hsign, hzero]
        simp
      · cases h
    · rintro ⟨rfl, hlt, hsign⟩
      rw [hundredths_neg_two, if_pos hlt]
      have hkept : (negative && decide (coefficient ≠ 0)) = negative := by
        by_cases hzero : coefficient = 0
        · rw [hsign hzero, Bool.false_and]
        · simp [hzero]
      rw [hkept]

theorem inRange_money {d d' : DecimalForm} (h : money d = some d') : d'.InRange := by
  cases d with
  | infinity negative => cases h
  | nan negative signaling payload =>
    obtain rfl := Option.some.inj h
    decide
  | finite negative coefficient exponent =>
    simp only [money] at h
    split at h
    · rename_i hlt
      obtain rfl := Option.some.inj h
      have hdigits := (Nat.length_toDigits_le_iff (by decide) (by decide)).mpr hlt
      simp only [DecimalForm.InRange, DecimalForm.maxPrec, DecimalForm.minEtiny]
      omega
    · cases h

theorem moneyColumn_of_some (unicode : UnicodeData) {d : PyDecimal} {stored : DecimalForm}
    (h : money d.1 = some stored) :
    moneyColumn unicode d = some ⟨stored, inRange_money h⟩ := by
  have hread : PyDecimal.read unicode stored.str = some ⟨stored, inRange_money h⟩ :=
    PyDecimal.read_str unicode ⟨stored, inRange_money h⟩
  rw [moneyColumn, PyDecimal.read_str]
  simp only [Option.bind_eq_bind, Option.bind_some, h, hread]

theorem moneyColumn_eq_self_iff (unicode : UnicodeData) (d : PyDecimal) :
    moneyColumn unicode d = some d ↔ IsMoney d.1 := by
  rw [← money_eq_self_iff]
  cases hmoney : money d.1 with
  | none =>
    rw [moneyColumn, PyDecimal.read_str]
    simp only [Option.bind_eq_bind, Option.bind_some, hmoney, Option.bind_none, reduceCtorEq]
  | some stored =>
    rw [moneyColumn_of_some unicode hmoney]
    constructor
    · intro h
      exact congrArg some (congrArg Subtype.val (Option.some.inj h))
    · intro h
      exact congrArg some (Subtype.ext (Option.some.inj h))

/-- **Two decimals are one when their texts are.** -/
theorem str_inj {d d' : PyDecimal} (unicode : UnicodeData) (h : d.str = d'.str) : d = d' := by
  have hread := PyDecimal.read_str unicode d
  rw [h, PyDecimal.read_str] at hread
  exact (Option.some.inj hread).symm

/-! ## Snapshots -/

variable {lib : RecoveryLib} {jsonb : JsonColumn}

/-- What both services build: a sealed snapshot of texts. -/
structure Collected (s : StateSnapshot lib.toStdLib) : Prop where
  buildable : s.Buildable
  positions : Texts s.positions
  pendingOrders : Texts s.pendingOrders
  checksum : s.checksum = s.computeChecksum

namespace StateSnapshot

theorem computeChecksum_sealed (s : StateSnapshot lib.toStdLib) :
    s.sealed.computeChecksum = s.computeChecksum := rfl

theorem amounts_of_content_eq {s t : StateSnapshot lib.toStdLib} (h : s.content = t.content) :
    s.accountBalance = t.accountBalance ∧ s.equity = t.equity ∧ s.peakBalance = t.peakBalance ∧
      s.dailyStartingBalance = t.dailyStartingBalance := by
  simp only [content, List.cons.injEq, Prod.mk.injEq, true_and, and_true] at h
  obtain ⟨-, -, -, -, hbalance, hequity, hpeak, hdaily⟩ := h
  exact ⟨str_inj lib.unicode hbalance, str_inj lib.unicode hequity, str_inj lib.unicode hpeak,
    str_inj lib.unicode hdaily⟩

def amounts (s : StateSnapshot lib.toStdLib) : List PyDecimal :=
  [s.accountBalance, s.equity, s.peakBalance, s.dailyStartingBalance]

end StateSnapshot

theorem fits_toDict (depth : ℕ) (p : TrackedPosition) : p.toDict.Fits (depth + 1) :=
  ⟨by simp only [List.map_cons, List.map_nil]; decide, trivial, trivial, trivial, trivial, trivial,
    trivial, trivial⟩

theorem fitsItems_positions (depth : ℕ) (ps : List TrackedPosition) :
    PyObject.FitsItems (depth + 1) (ps.map TrackedPosition.toDict) := by
  induction ps with
  | nil => trivial
  | cons p ps ih => exact ⟨fits_toDict depth p, ih⟩

theorem texts_positions (ps : List TrackedPosition) :
    Texts (.list (ps.map TrackedPosition.toDict)) := by
  intro v hv
  obtain ⟨p, -, rfl⟩ := List.mem_map.mp hv
  refine ⟨_, rfl, by simp only [List.map_cons, List.map_nil]; decide, ?_⟩
  intro m hm
  simp only [List.mem_cons, List.not_mem_nil, or_false] at hm
  obtain rfl | rfl | rfl | rfl | rfl | rfl := hm <;> exact ⟨_, rfl⟩

theorem collected_collect (accountId : List Char) (now : UtcDatetime) (f : AccountFigures) :
    Collected (collectSnapshotData lib accountId now f) where
  buildable := by
    obtain ⟨depth, hdepth⟩ := Nat.exists_eq_add_of_le lib.two_le_depth
    refine StateSnapshot.sealed_buildable ⟨⟨now, rfl⟩, ?_, ?_⟩
    · rw [hdepth, Nat.add_comm]
      exact fitsItems_positions depth f.positions
    · rw [hdepth, Nat.add_comm]
      trivial
  positions := texts_positions f.positions
  pendingOrders := by intro v hv; cases hv
  checksum := (StateSnapshot.computeChecksum_sealed _).symm

/-! ## Rows -/

/-- What the table makes of a snapshot. -/
structure RowOf (jsonb : JsonColumn) (s r : StateSnapshot lib.toStdLib) : Prop where
  accountId : r.accountId = s.accountId
  timestamp : r.timestamp = s.timestamp
  checksum : r.checksum = s.checksum
  positions : jsonb.store s.positions = some r.positions
  pendingOrders : jsonb.store s.pendingOrders = some r.pendingOrders
  accountBalance : moneyColumn lib.unicode s.accountBalance = some r.accountBalance
  equity : moneyColumn lib.unicode s.equity = some r.equity
  peakBalance : moneyColumn lib.unicode s.peakBalance = some r.peakBalance
  dailyStartingBalance :
    moneyColumn lib.unicode s.dailyStartingBalance = some r.dailyStartingBalance

theorem rowOf_of_toRow {s r : StateSnapshot lib.toStdLib} (h : toRow jsonb s = some r) :
    RowOf jsonb s r := by
  simp only [toRow, Option.bind_eq_bind, Option.bind_eq_some_iff] at h
  obtain ⟨positions, hpositions, pending, hpending, balance, hbalance, equity, hequity, peak, hpeak,
    daily, hdaily, hr⟩ := h
  obtain rfl := Option.some.inj hr
  exact ⟨rfl, rfl, rfl, hpositions, hpending, hbalance, hequity, hpeak, hdaily⟩

namespace RowOf

variable {s r : StateSnapshot lib.toStdLib}

theorem sortKeys_positions (h : RowOf jsonb s r) (hs : Collected s) :
    r.positions.sortKeys = s.positions.sortKeys :=
  jsonb.sortKeys_store _ _ hs.positions h.positions

theorem sortKeys_pendingOrders (h : RowOf jsonb s r) (hs : Collected s) :
    r.pendingOrders.sortKeys = s.pendingOrders.sortKeys :=
  jsonb.sortKeys_store _ _ hs.pendingOrders h.pendingOrders

/-- The columns keep exactly the amounts that are money. -/
theorem amounts_eq_iff (h : RowOf jsonb s r) :
    (r.accountBalance = s.accountBalance ∧ r.equity = s.equity ∧ r.peakBalance = s.peakBalance ∧
      r.dailyStartingBalance = s.dailyStartingBalance) ↔ ∀ d ∈ s.amounts, IsMoney d.1 := by
  have hkept : ∀ {d d' : PyDecimal}, moneyColumn lib.unicode d = some d' →
      (d' = d ↔ IsMoney d.1) := by
    intro d d' hd
    rw [← moneyColumn_eq_self_iff lib.unicode d, hd]
    exact ⟨congrArg some, Option.some.inj⟩
  rw [hkept h.accountBalance, hkept h.equity, hkept h.peakBalance, hkept h.dailyStartingBalance]
  simp only [StateSnapshot.amounts, List.forall_mem_cons, List.not_mem_nil, false_implies,
    implies_true, and_true]

theorem content_eq_iff (h : RowOf jsonb s r) (hs : Collected s) :
    r.content = s.content ↔ ∀ d ∈ s.amounts, IsMoney d.1 := by
  rw [← h.amounts_eq_iff]
  constructor
  · exact StateSnapshot.amounts_of_content_eq
  · rintro ⟨hbalance, hequity, hpeak, hdaily⟩
    rw [StateSnapshot.content, StateSnapshot.content, h.accountId, h.timestamp, hbalance, hequity,
      hpeak, hdaily, PyObject.dumps, PyObject.dumps, h.sortKeys_positions hs,
      h.sortKeys_pendingOrders hs, PyObject.dumps, PyObject.dumps]

/-- **A row passes its checksum exactly when its amounts are money**, where
the digest tells the two contents apart. -/
theorem validateChecksum_iff (h : RowOf jsonb s r) (hs : Collected s)
    (hdigest : r.computeChecksum = s.computeChecksum → r.content = s.content) :
    r.validateChecksum = true ↔ ∀ d ∈ s.amounts, IsMoney d.1 := by
  rw [← h.content_eq_iff hs, StateSnapshot.validateChecksum, decide_eq_true_eq, h.checksum,
    hs.checksum]
  constructor
  · exact fun heq => hdigest heq.symm
  · intro heq
    rw [StateSnapshot.computeChecksum, StateSnapshot.computeChecksum, heq]

theorem same (h : RowOf jsonb s r) (hs : Collected s) (hmoney : ∀ d ∈ s.amounts, IsMoney d.1) :
    r.Same s := by
  obtain ⟨hbalance, hequity, hpeak, hdaily⟩ := h.amounts_eq_iff.mpr hmoney
  have hpositions := h.sortKeys_positions hs
  have hpending := h.sortKeys_pendingOrders hs
  have haccount := h.accountId
  have htime := h.timestamp
  have hchecksum := h.checksum
  cases r
  cases s
  simp only at hbalance hequity hpeak hdaily hpositions hpending haccount htime hchecksum
  simp only [StateSnapshot.Same, StateSnapshot.inOrder, hbalance, hequity, hpeak, hdaily,
    hpositions, hpending, haccount, htime, hchecksum]

end RowOf

/-! ## Runs -/

/-- A pipeline that ran. -/
structure Save (lib : RecoveryLib) where
  accountId : List Char
  snapshot : StateSnapshot lib.toStdLib
  ran : UtcDatetime

/-- When the hash of a save expires. -/
def Save.expiry (p : Save lib) : ℤ := p.ran.instant + snapshotTtl

def CycleReading.save (lib : RecoveryLib) (r : CycleReading × Option UtcDatetime) :
    Option (Save lib) :=
  match r.1.snapshot lib, r.2 with
  | some s, some ran => some { accountId := r.1.accountId, snapshot := s, ran }
  | _, _ => none

namespace StoreEvent

/-- What the event saves to Redis. -/
def saves : StoreEvent lib → List (Save lib)
  | .snapshotCycle readings =>
    (readings.filter fun r => r.1.Active).filterMap (CycleReading.save lib)
  | .reconciled accountId s _ ran => [{ accountId, snapshot := s.sealed, ran }]
  | .coldCycle _ _ | .retention _ => []

/-- What the event has the table hold, as it was collected. -/
def written (jsonb : JsonColumn) : StoreEvent lib → List (StateSnapshot lib.toStdLib)
  | .coldCycle readings committed =>
    let snapshots := (readings.filter fun r => r.Active).filterMap (·.snapshot lib)
    if committed ∧ (snapshots.mapM (toRow jsonb)).isSome then snapshots else []
  | .snapshotCycle _ | .reconciled _ _ _ _ | .retention _ => []

variable {e : StoreEvent lib}

theorem collected_snapshot {r : CycleReading} {s : StateSnapshot lib.toStdLib}
    (h : r.snapshot lib = some s) : Collected s := by
  obtain ⟨c, -, rfl⟩ := Option.map_eq_some_iff.mp h
  exact collected_collect r.accountId c.1 c.2

theorem sealed_of_mem_saves {p : Save lib} (hp : p ∈ e.saves) :
    p.snapshot.Buildable ∧ p.snapshot.checksum = p.snapshot.computeChecksum := by
  cases e with
  | snapshotCycle readings =>
    obtain ⟨r, -, hr⟩ := List.mem_filterMap.mp hp
    unfold CycleReading.save at hr
    split at hr
    · rename_i s ran hs hran
      obtain rfl := Option.some.inj hr
      exact ⟨(collected_snapshot hs).buildable, (collected_snapshot hs).checksum⟩
    · cases hr
  | reconciled accountId s hs ran =>
    obtain rfl := List.mem_singleton.mp hp
    exact ⟨StateSnapshot.sealed_buildable hs, (StateSnapshot.computeChecksum_sealed s).symm⟩
  | coldCycle readings committed => cases hp
  | retention before => cases hp

theorem collected_of_mem_written {s : StateSnapshot lib.toStdLib} (hs : s ∈ e.written jsonb) :
    Collected s := by
  cases e with
  | coldCycle readings committed =>
    simp only [written] at hs
    split at hs
    · obtain ⟨r, -, hr⟩ := List.mem_filterMap.mp hs
      exact collected_snapshot hr
    · cases hs
  | snapshotCycle readings => cases hs
  | reconciled accountId s hs' ran => cases hs
  | retention before => cases hs

end StoreEvent

namespace Stores

/-- Redis holds what was saved, one after the other. -/
theorem redis_step (st : Stores lib) (e : StoreEvent lib) :
    (st.step jsonb e).redis = e.saves.foldl
      (fun d p => d.set p.accountId (p.snapshot.toDict, p.expiry)) st.redis := by
  cases e with
  | snapshotCycle readings =>
    simp only [step, StoreEvent.saves]
    induction readings.filter (fun r => r.1.Active) generalizing st with
    | nil => rfl
    | cons r rs ih =>
      rw [List.foldl_cons, ih, List.filterMap_cons]
      unfold snapshotAccount CycleReading.save
      cases r.1.snapshot lib <;> cases r.2 <;> rfl
  | coldCycle readings committed =>
    simp only [step, StoreEvent.saves, List.foldl_nil, writeSnapshots]
    split
    · split <;> rfl
    · rfl
  | reconciled accountId s hs ran => rfl
  | retention before => rfl

theorem redis_run (es : List (StoreEvent lib)) (a : List Char) :
    (run jsonb es).redis.get? a = ((es.flatMap StoreEvent.saves).filter
      fun p => p.accountId = a).getLast?.map fun p => (p.snapshot.toDict, p.expiry) := by
  have hfold : ∀ st : Stores lib, (es.foldl (step jsonb) st).redis =
      (es.flatMap StoreEvent.saves).foldl
        (fun d p => d.set p.accountId (p.snapshot.toDict, p.expiry)) st.redis := by
    induction es with
    | nil => exact fun st => rfl
    | cons e es ih =>
      intro st
      rw [List.foldl_cons, ih, redis_step, List.flatMap_cons, List.foldl_append]
  rw [run, hfold, OrderedDict.get?_foldl_set]
  simp [OrderedDict.get?_empty]

/-- A row is dropped by the retention policy, which comes once it is over. -/
def Drops (e : StoreEvent lib) (r : StateSnapshot lib.toStdLib) : Prop :=
  ∃ before, e = .retention before ∧ lib.instant r.timestamp < before.instant

theorem rows_step (st : Stores lib) (e : StoreEvent lib) :
    ∃ kept new, (st.step jsonb e).rows = kept ++ new ∧ kept ⊆ st.rows ∧
      (∀ r ∈ st.rows, r ∈ kept ∨ Drops e r) ∧
      List.Forall₂ (fun s r => toRow jsonb s = some r) (e.written jsonb) new := by
  have hstay : ∃ kept new, st.rows = kept ++ new ∧ kept ⊆ st.rows ∧
      (∀ r ∈ st.rows, r ∈ kept ∨ Drops e r) ∧
      List.Forall₂ (fun s r => toRow jsonb s = some r) [] new :=
    ⟨st.rows, [], (List.append_nil _).symm, List.Subset.refl _, fun r hr => .inl hr, .nil⟩
  cases e with
  | snapshotCycle readings =>
    have hrows : ∀ rs : List (CycleReading × Option UtcDatetime), ∀ st : Stores lib,
        (rs.foldl snapshotAccount st).rows = st.rows := by
      intro rs
      induction rs with
      | nil => exact fun st => rfl
      | cons r rs ih =>
        intro st
        rw [List.foldl_cons, ih]
        unfold snapshotAccount
        split <;> rfl
    simp only [step, hrows, StoreEvent.written]
    exact hstay
  | coldCycle readings committed =>
    simp only [step, writeSnapshots, StoreEvent.written]
    cases hrows : ((readings.filter fun r => r.Active).filterMap (·.snapshot lib)).mapM
        (toRow jsonb) with
    | none => simpa using hstay
    | some rows =>
      cases committed with
      | false => simpa using hstay
      | true =>
        exact ⟨st.rows, rows, rfl, List.Subset.refl _, fun r hr => .inl hr,
          by simpa using forall₂_of_mapM_some hrows⟩
  | reconciled accountId s hs ran => exact hstay
  | retention before =>
    refine ⟨_, [], (List.append_nil _).symm, fun _ hr => List.mem_of_mem_filter hr, ?_, .nil⟩
    intro r hr
    by_cases hlt : lib.instant r.timestamp < before.instant
    · exact .inr ⟨before, rfl, hlt⟩
    · exact .inl (List.mem_filter.mpr ⟨hr, decide_eq_true (not_lt.mp hlt)⟩)

/-- **The table holds what was written and not dropped.** -/
theorem rows_run (es : List (StoreEvent lib)) :
    (∀ r ∈ (run jsonb es).rows, ∃ s ∈ es.flatMap (StoreEvent.written jsonb),
      toRow jsonb s = some r) ∧
      ∀ s ∈ es.flatMap (StoreEvent.written jsonb), ∃ r, toRow jsonb s = some r ∧
        (r ∈ (run jsonb es).rows ∨ ∃ e ∈ es, Drops e r) := by
  induction es using List.reverseRecOn with
  | nil =>
    constructor
    · intro r hr
      cases hr
    · intro s hs
      cases hs
  | append_singleton es e ih =>
    obtain ⟨kept, new, hrows, hkept, hdropped, hnew⟩ := @rows_step lib jsonb (run jsonb es) e
    have hrun : (run jsonb (es ++ [e])).rows = kept ++ new := by
      rw [← hrows, run, List.foldl_append]
      rfl
    rw [hrun, List.flatMap_append, List.flatMap_singleton]
    constructor
    · intro r hr
      obtain hr | hr := List.mem_append.mp hr
      · obtain ⟨s, hs, hrow⟩ := ih.1 r (hkept hr)
        exact ⟨s, List.mem_append_left _ hs, hrow⟩
      · obtain ⟨s, hs, hrow⟩ := exists_left_of_mem hnew hr
        exact ⟨s, List.mem_append_right _ hs, hrow⟩
    · intro s hs
      obtain hs | hs := List.mem_append.mp hs
      · obtain ⟨r, hrow, hr | ⟨e', he', hdrop⟩⟩ := ih.2 s hs
        · obtain hr | hdrop := hdropped r hr
          · exact ⟨r, hrow, .inl (List.mem_append_left _ hr)⟩
          · exact ⟨r, hrow, .inr ⟨e, List.mem_append_right _ List.mem_cons_self, hdrop⟩⟩
        · exact ⟨r, hrow, .inr ⟨e', List.mem_append_left _ he', hdrop⟩⟩
      · obtain ⟨r, hr, hrow⟩ := exists_right_of_mem hnew hs
        exact ⟨r, hrow, .inl (List.mem_append_right _ hr)⟩

/-- Some answer is the latest. -/
theorem exists_latest (rows : List (StateSnapshot lib.toStdLib)) (a : List Char) :
    ∃ row, Latest rows a row := by
  cases hmax : (rows.filter fun r => r.accountId = a).argmax fun r => lib.instant r.timestamp with
  | none =>
    rw [List.argmax_eq_none, List.filter_eq_nil_iff] at hmax
    exact ⟨none, fun r hr heq => hmax r hr (decide_eq_true heq)⟩
  | some m =>
    obtain ⟨hm, heq⟩ := List.mem_filter.mp (List.argmax_mem hmax)
    refine ⟨some m, hm, of_decide_eq_true heq, fun r hr hra => ?_⟩
    exact List.le_of_mem_argmax (f := fun r => lib.instant r.timestamp)
      (List.mem_filter.mpr ⟨hr, decide_eq_true hra⟩) hmax

end Stores

/-! ## Recovery -/

/-- `SNAPSHOT_MAX_AGE_SECONDS`, in microseconds. -/
def hour : ℤ := 3600 * 1000000

/-- `COLD_STORAGE_MAX_AGE_SECONDS`, in microseconds. -/
def week : ℤ := 7 * 24 * 3600 * 1000000

theorem seconds_sub_le_iff (n m k : ℤ) : seconds n - seconds m ≤ k ↔ n - m ≤ k * 1000000 := by
  rw [seconds, seconds, ← sub_div, div_le_iff₀ (by norm_num)]
  norm_cast

theorem seconds_le_week_iff (n m : ℤ) :
    seconds n - seconds m ≤ CrashRecoveryManager.coldStorageMaxAgeSeconds ↔ n - m ≤ week := by
  have h := seconds_sub_le_iff n m (7 * 24 * 3600)
  norm_num [week, CrashRecoveryManager.coldStorageMaxAgeSeconds] at h ⊢
  exact h

theorem seconds_le_hour_iff (n m : ℤ) :
    seconds n - seconds m ≤ CrashRecoveryManager.snapshotMaxAgeSeconds ↔ n - m ≤ hour := by
  have h := seconds_sub_le_iff n m 3600
  norm_num [hour, CrashRecoveryManager.snapshotMaxAgeSeconds] at h ⊢
  exact h

section
variable {S E : Type} {valid : S → Bool} {timestamp : S → ℚ} {s : S} {now : ℚ}

/-- A snapshot of Redis, as the code goes through it. -/
theorem validateLoaded_redis (stored : Except E (Option S)) (again : Option S)
    (hvalid : valid s = true) :
    validateLoaded valid timestamp true (.ok (some s)) stored (.ok again) now =
      .ok (if now - timestamp s ≤ (if again.isNone then
          CrashRecoveryManager.coldStorageMaxAgeSeconds
        else CrashRecoveryManager.snapshotMaxAgeSeconds) then (true, some s)
        else (false, none)) := by
  have hcode : validateLoaded valid timestamp true (.ok (some s)) stored (.ok again) now =
      if !valid s then .ok (false, none)
      else if (if again.isNone && true then CrashRecoveryManager.coldStorageMaxAgeSeconds
          else CrashRecoveryManager.snapshotMaxAgeSeconds) < now - timestamp s then
        .ok (false, none)
      else .ok (true, some s) := rfl
  rw [hcode, hvalid, Bool.and_true, Bool.not_true, if_neg Bool.false_ne_true]
  by_cases hage : now - timestamp s ≤ (if again.isNone then
      CrashRecoveryManager.coldStorageMaxAgeSeconds else CrashRecoveryManager.snapshotMaxAgeSeconds)
  · rw [if_neg (not_lt.mpr hage), if_pos hage]
  · rw [if_pos (not_le.mp hage), if_neg hage]

theorem validateLoaded_row :
    validateLoaded valid timestamp true (.ok none) (.ok (some s)) (.ok none : Except E _) now =
      .ok (if valid s = true ∧ now - timestamp s ≤ CrashRecoveryManager.coldStorageMaxAgeSeconds
        then (true, some s) else (false, none)) := by
  have hcode : validateLoaded valid timestamp true (.ok none) (.ok (some s)) (.ok none : Except E _)
      now = if !valid s then .ok (false, none)
      else if CrashRecoveryManager.coldStorageMaxAgeSeconds < now - timestamp s then
        .ok (false, none)
      else .ok (true, some s) := rfl
  rw [hcode]
  cases valid s with
  | false => rfl
  | true =>
    rw [Bool.not_true, if_neg Bool.false_ne_true]
    by_cases hage : now - timestamp s ≤ CrashRecoveryManager.coldStorageMaxAgeSeconds
    · rw [if_neg (not_lt.mpr hage), if_pos ⟨rfl, hage⟩]
    · rw [if_pos (not_le.mp hage), if_neg fun h => hage h.2]

theorem validateLoaded_none (again : Except E (Option S)) :
    validateLoaded valid timestamp true (.ok none) (.ok none) again now = .ok (false, none) := rfl

end

/-- The last save of an account. -/
def lastSave (es : List (StoreEvent lib)) (a : List Char) : Option (Save lib) :=
  ((es.flatMap StoreEvent.saves).filter fun p => p.accountId = a).getLast?

theorem sealed_lastSave {es : List (StoreEvent lib)} {a : List Char} {p : Save lib}
    (h : lastSave es a = some p) :
    p.snapshot.Buildable ∧ p.snapshot.checksum = p.snapshot.computeChecksum := by
  obtain ⟨e, -, hp⟩ := List.mem_flatMap.mp (List.mem_filter.mp (List.mem_of_getLast? h)).1
  exact StoreEvent.sealed_of_mem_saves hp

theorem getSnapshot_nil : getSnapshot lib.toStdLib [] = .ok none := if_pos rfl

theorem getSnapshot_toDict {s : StateSnapshot lib.toStdLib} (hs : s.Buildable) :
    getSnapshot lib.toStdLib s.toDict = .ok (some s.inOrder) := by
  have hne : s.toDict ≠ [] := List.append_ne_nil_of_right_ne_nil _ (List.cons_ne_nil _ _)
  rw [getSnapshot, if_neg hne, StateSnapshot.fromDict_toDict hs]

/-- Until it expires, Redis gives the last save back, the keys of its dicts
in order. -/
theorem getSnapshot_hgetall (es : List (StoreEvent lib)) (a : List Char) (now : UtcDatetime) :
    getSnapshot lib.toStdLib ((Stores.run jsonb es).hgetall a now) =
      .ok ((lastSave es a).bind fun p =>
        if now.instant < p.expiry then some p.snapshot.inOrder else none) := by
  rw [Stores.hgetall, Stores.redis_run, ← lastSave]
  cases hlast : lastSave es a with
  | none =>
    rw [Option.map_none, Option.bind_none]
    exact getSnapshot_nil
  | some p =>
    rw [Option.map_some, Option.bind_some]
    by_cases halive : now.instant < p.expiry
    · simp only [halive, if_true]
      exact getSnapshot_toDict (sealed_lastSave hlast).1
    · simp only [halive, if_false]
      exact getSnapshot_nil

/-- How old a saved snapshot may be: the code reads Redis again, and takes
the limit of cold storage where the hash has expired meanwhile. -/
def Save.limit (p : Save lib) (t : RecoveryTimes) : ℤ :=
  if t.again.instant < p.expiry then hour else week

/-- What recovery finds for an account after a run. -/
inductive Finds (jsonb : JsonColumn) (es : List (StoreEvent lib)) (a : List Char)
    (t : RecoveryTimes) : Bool × Option (StateSnapshot lib.toStdLib) → Prop
  /-- The last save, alive and young enough. -/
  | saved {p : Save lib} (hlast : lastSave es a = some p) (halive : t.first.instant < p.expiry)
    (hage : t.now.instant - lib.instant p.snapshot.timestamp ≤ p.limit t) :
    Finds jsonb es a t (true, some p.snapshot.inOrder)
  | savedOld {p : Save lib} (hlast : lastSave es a = some p) (halive : t.first.instant < p.expiry)
    (hage : p.limit t < t.now.instant - lib.instant p.snapshot.timestamp) :
    Finds jsonb es a t (false, none)
  /-- The latest row, of amounts that are money, up to the order of keys. -/
  | written {s r : StateSnapshot lib.toStdLib}
    (hgone : ∀ p, lastSave es a = some p → p.expiry ≤ t.first.instant)
    (hlatest : Stores.Latest (es.flatMap (StoreEvent.written jsonb)) a (some s))
    (hage : t.now.instant - lib.instant s.timestamp ≤ week)
    (hmoney : ∀ d ∈ s.amounts, IsMoney d.1) (hsame : r.Same s) :
    Finds jsonb es a t (true, some r)
  | writtenLost {s : StateSnapshot lib.toStdLib}
    (hgone : ∀ p, lastSave es a = some p → p.expiry ≤ t.first.instant)
    (hlatest : Stores.Latest (es.flatMap (StoreEvent.written jsonb)) a (some s))
    (hlost : t.now.instant - lib.instant s.timestamp ≤ week → ¬∀ d ∈ s.amounts, IsMoney d.1) :
    Finds jsonb es a t (false, none)
  | nothing (hgone : ∀ p, lastSave es a = some p → p.expiry ≤ t.first.instant)
    (hnone : Stores.Latest (es.flatMap (StoreEvent.written jsonb)) a none) :
    Finds jsonb es a t (false, none)

variable {es : List (StoreEvent lib)} {a : List Char} {t : RecoveryTimes}

theorem finds_saved {p : Save lib} (hlast : lastSave es a = some p)
    (halive : t.first.instant < p.expiry) (row : Option (StateSnapshot lib.toStdLib)) :
    ∃ answer, (Stores.run jsonb es).validateSnapshotForRecovery a t row = .ok answer ∧
      Finds jsonb es a t answer := by
  obtain ⟨hbuildable, hchecksum⟩ := sealed_lastSave hlast
  have hvalid : p.snapshot.inOrder.validateChecksum = true := by
    rw [StateSnapshot.validateChecksum, StateSnapshot.computeChecksum_inOrder hbuildable]
    exact decide_eq_true hchecksum
  have hlimit : seconds t.now.instant - seconds (lib.instant p.snapshot.inOrder.timestamp) ≤
      (if ((lastSave es a).bind fun p =>
          if t.again.instant < p.expiry then some p.snapshot.inOrder else none).isNone then
        CrashRecoveryManager.coldStorageMaxAgeSeconds
      else CrashRecoveryManager.snapshotMaxAgeSeconds)
      ↔ t.now.instant - lib.instant p.snapshot.timestamp ≤ p.limit t := by
    rw [hlast, Option.bind_some, Save.limit]
    by_cases hagain : t.again.instant < p.expiry
    · simp only [hagain, if_true, Option.isNone_some, Bool.false_eq_true, if_false]
      exact seconds_le_hour_iff _ _
    · simp only [hagain, if_false, Option.isNone_none, if_true]
      exact seconds_le_week_iff _ _
  have hfirst : ((lastSave es a).bind fun p =>
      if t.first.instant < p.expiry then some p.snapshot.inOrder else none) =
      some p.snapshot.inOrder := by
    rw [hlast, Option.bind_some, if_pos halive]
  rw [Stores.validateSnapshotForRecovery, getSnapshot_hgetall, getSnapshot_hgetall, hfirst,
    validateLoaded_redis _ _ hvalid]
  by_cases hage : t.now.instant - lib.instant p.snapshot.timestamp ≤ p.limit t
  · rw [if_pos (hlimit.mpr hage)]
    exact ⟨_, rfl, .saved hlast halive hage⟩
  · rw [if_neg fun h => hage (hlimit.mp h)]
    exact ⟨_, rfl, .savedOld hlast halive (not_le.mp hage)⟩

/-- A hash that has expired stays so. -/
theorem getSnapshot_gone (hgone : ∀ p, lastSave es a = some p → p.expiry ≤ t.first.instant)
    {now : UtcDatetime} (hnow : t.first.instant ≤ now.instant) :
    getSnapshot lib.toStdLib ((Stores.run jsonb es).hgetall a now) = .ok none := by
  rw [getSnapshot_hgetall]
  cases hlast : lastSave es a with
  | none => rfl
  | some p =>
    have hle := hgone p hlast
    have hdead : ¬(now.instant : ℤ) < p.expiry := by omega
    rw [Option.bind_some, if_neg hdead]

theorem drops_old (hretention : ∀ before, .retention before ∈ es →
      (before.instant : ℤ) + week ≤ t.now.instant)
    {r : StateSnapshot lib.toStdLib} (h : ∃ e ∈ es, Stores.Drops e r) :
    week < t.now.instant - lib.instant r.timestamp := by
  obtain ⟨e, he, before, rfl, hlt⟩ := h
  have hbefore := hretention before he
  omega

theorem finds_row (hgone : ∀ p, lastSave es a = some p → p.expiry ≤ t.first.instant)
    (hretention : ∀ before, .retention before ∈ es → (before.instant : ℤ) + week ≤ t.now.instant)
    (hdigest : ∀ s ∈ es.flatMap (StoreEvent.written jsonb), ∀ r, toRow jsonb s = some r →
      r.computeChecksum = s.computeChecksum → r.content = s.content)
    {row : Option (StateSnapshot lib.toStdLib)}
    (hrow : Stores.Latest (Stores.run jsonb es).rows a row) :
    ∃ answer, (Stores.run jsonb es).validateSnapshotForRecovery a t row = .ok answer ∧
      Finds jsonb es a t answer := by
  obtain ⟨hheld, hkept⟩ := @Stores.rows_run lib jsonb es
  have hcollected : ∀ s ∈ es.flatMap (StoreEvent.written jsonb), Collected s := by
    intro s hs
    obtain ⟨e, -, hs⟩ := List.mem_flatMap.mp hs
    exact StoreEvent.collected_of_mem_written hs
  rw [Stores.validateSnapshotForRecovery, getSnapshot_gone hgone le_rfl,
    getSnapshot_gone hgone (t.ordered.1.trans t.ordered.2)]
  obtain ⟨latest, hlatest⟩ := Stores.exists_latest (es.flatMap (StoreEvent.written jsonb)) a
  cases row with
  | none =>
    rw [validateLoaded_none]
    refine ⟨_, rfl, ?_⟩
    cases latest with
    | none => exact .nothing hgone hlatest
    | some s =>
      refine .writtenLost hgone hlatest fun hage => ?_
      obtain ⟨r, hr, hmem | hdrop⟩ := hkept s hlatest.1
      · exact absurd ((rowOf_of_toRow hr).accountId.trans hlatest.2.1) (hrow r hmem)
      · have hold := drops_old hretention hdrop
        rw [(rowOf_of_toRow hr).timestamp] at hold
        exact absurd hage (not_le.mpr hold)
  | some r =>
    obtain ⟨hmem, hra, hmax⟩ := hrow
    obtain ⟨s, hs, hr⟩ := hheld r hmem
    have hof := rowOf_of_toRow hr
    have hpasses : r.validateChecksum = true ∧
        seconds t.now.instant - seconds (lib.instant r.timestamp) ≤
          CrashRecoveryManager.coldStorageMaxAgeSeconds ↔
        (∀ d ∈ s.amounts, IsMoney d.1) ∧ t.now.instant - lib.instant s.timestamp ≤ week := by
      rw [hof.validateChecksum_iff (hcollected s hs) (hdigest s hs r hr), seconds_le_week_iff,
        hof.timestamp]
    rw [validateLoaded_row]
    by_cases hage : t.now.instant - lib.instant s.timestamp ≤ week
    · -- No row that was dropped is younger, so `s` is the latest written.
      have hslatest : Stores.Latest (es.flatMap (StoreEvent.written jsonb)) a (some s) := by
        refine ⟨hs, hof.accountId.symm.trans hra, fun s' hs' ha' => ?_⟩
        obtain ⟨r', hr', hmem' | hdrop⟩ := hkept s' hs'
        · have hle := hmax r' hmem' ((rowOf_of_toRow hr').accountId.trans ha')
          rw [(rowOf_of_toRow hr').timestamp, hof.timestamp] at hle
          exact hle
        · have hold := drops_old hretention hdrop
          rw [(rowOf_of_toRow hr').timestamp] at hold
          omega
      by_cases hmoney : ∀ d ∈ s.amounts, IsMoney d.1
      · rw [if_pos (hpasses.mpr ⟨hmoney, hage⟩)]
        exact ⟨_, rfl, .written hgone hslatest hage hmoney (hof.same (hcollected s hs) hmoney)⟩
      · rw [if_neg fun h => hmoney (hpasses.mp h).1]
        exact ⟨_, rfl, .writtenLost hgone hslatest fun _ => hmoney⟩
    · -- The row is too old, and whatever was written later was dropped as old.
      rw [if_neg fun h => hage (hpasses.mp h).2]
      refine ⟨_, rfl, ?_⟩
      cases latest with
      | none => exact .nothing hgone hlatest
      | some s' =>
        refine .writtenLost hgone hlatest fun hage' => ?_
        obtain ⟨r', hr', hmem' | hdrop⟩ := hkept s' hlatest.1
        · have hle := hmax r' hmem' ((rowOf_of_toRow hr').accountId.trans hlatest.2.1)
          rw [(rowOf_of_toRow hr').timestamp, hof.timestamp] at hle
          omega
        · have hold := drops_old hretention hdrop
          rw [(rowOf_of_toRow hr').timestamp] at hold
          omega

/-- **Recovery finds the last save until it expires, and then the latest row
if its amounts have two places.** -/
theorem recovery_finds (lib : RecoveryLib) (jsonb : JsonColumn) (es : List (StoreEvent lib))
    (a : List Char) (t : RecoveryTimes)
    (hretention : ∀ before, .retention before ∈ es → (before.instant : ℤ) + week ≤ t.now.instant)
    (hdigest : ∀ s ∈ es.flatMap (StoreEvent.written jsonb), ∀ r, toRow jsonb s = some r →
      r.computeChecksum = s.computeChecksum → r.content = s.content)
    (row : Option (StateSnapshot lib.toStdLib))
    (hrow : Stores.Latest (Stores.run jsonb es).rows a row) :
    ∃ answer, (Stores.run jsonb es).validateSnapshotForRecovery a t row = .ok answer ∧
      Finds jsonb es a t answer := by
  by_cases halive : ∃ p, lastSave es a = some p ∧ t.first.instant < p.expiry
  · obtain ⟨p, hlast, hlt⟩ := halive
    exact finds_saved hlast hlt row
  · refine finds_row (fun p hlast => ?_) hretention hdigest hrow
    by_contra hlt
    exact halive ⟨p, hlast, not_le.mp hlt⟩

/-! ## An account without positions -/

noncomputable def flatLib : RecoveryLib where
  toStdLib := isoLib fun _ =>
    "6e664e8d66882695c3312284ca5726f93c553e49d378d0618795dbe5580f0d5b".toList
  instant d := UtcDatetime.instant d
  instant_utc _ := rfl
  two_le_depth := by decide

/-- `JSONB` on `[]`. -/
def emptyColumn : JsonColumn where
  store := some
  sortKeys_store := by
    intro v v' _ h
    rw [Option.some.inj h]

def flatAmount (c : ℕ) (h : c < 10 ^ 3) : PyDecimal :=
  ⟨.finite false (c * 50000) (-2), inRange_halfThousands c h⟩

def flatFigures : AccountFigures where
  positions := []
  balance := some (flatAmount 300 (by decide))
  riskState := some
    { currentEquity := flatAmount 299 (by decide)
      peakEquity := flatAmount 305 (by decide)
      dailyStartingBalance := flatAmount 301 (by decide) }

def flatReading : CycleReading where
  accountId := "ftmo-gold-001".toList
  status := "active".toList
  collected := some (goldTime, flatFigures)

/-- The account is saved to Redis and written to cold storage. -/
noncomputable def flatEvents : List (StoreEvent flatLib) :=
  [.snapshotCycle [(flatReading, some goldTime)], .coldCycle [flatReading] true]

/-- Two hours later. -/
def flatLater : UtcDatetime := { goldTime with hour := 16, hour_lt := by decide }

def flatTimes : RecoveryTimes := ⟨flatLater, flatLater, flatLater, le_rfl, le_rfl⟩

noncomputable def flatSnapshot : StateSnapshot flatLib.toStdLib :=
  collectSnapshotData flatLib "ftmo-gold-001".toList goldTime flatFigures

theorem flat_money : ∀ d ∈ flatSnapshot.amounts, IsMoney d.1 := by
  simp only [StateSnapshot.amounts, List.forall_mem_cons]
  refine ⟨?_, ?_, ?_, ?_, by simp⟩ <;> exact ⟨rfl, by decide, by decide⟩

theorem flat_row : toRow emptyColumn flatSnapshot = some flatSnapshot := by
  have hkept : ∀ d ∈ flatSnapshot.amounts, moneyColumn flatLib.unicode d = some d :=
    fun d hd => (moneyColumn_eq_self_iff flatLib.unicode d).mpr (flat_money d hd)
  simp only [StateSnapshot.amounts, List.forall_mem_cons] at hkept
  obtain ⟨hbalance, hequity, hpeak, hdaily, -⟩ := hkept
  have hpositions : emptyColumn.store flatSnapshot.positions = some flatSnapshot.positions := rfl
  have hpending : emptyColumn.store flatSnapshot.pendingOrders =
    some flatSnapshot.pendingOrders := rfl
  rw [toRow, hpositions, hpending, hbalance, hequity, hpeak, hdaily]
  rfl

theorem flatReading_active : flatReading.Active := rfl

theorem flat_written :
    flatEvents.flatMap (StoreEvent.written emptyColumn) = [flatSnapshot] := by
  have hactive : ([flatReading].filter fun r => r.Active) = [flatReading] := by
    simp [flatReading_active]
  have hcycle : [flatReading].filterMap (·.snapshot flatLib) = [flatSnapshot] := rfl
  have hrows : [flatSnapshot].mapM (toRow emptyColumn) = some [flatSnapshot] := by
    simp [flat_row]
  simp only [flatEvents, List.flatMap_cons, List.flatMap_nil, StoreEvent.written, hactive, hcycle,
    hrows, Option.isSome_some, and_self, if_true, List.nil_append, List.append_nil]

theorem flat_latest :
    Stores.Latest (Stores.run emptyColumn flatEvents).rows "ftmo-gold-001".toList
      (some flatSnapshot) := by
  obtain ⟨hheld, hkept⟩ := @Stores.rows_run _ emptyColumn flatEvents
  rw [flat_written] at hheld hkept
  refine ⟨?_, rfl, ?_⟩
  · obtain ⟨r, hr, hmem | ⟨e, he, before, rfl, -⟩⟩ := hkept flatSnapshot List.mem_cons_self
    · rw [flat_row] at hr
      exact Option.some.inj hr ▸ hmem
    · simp [flatEvents] at he
  · intro r hr _
    obtain ⟨s, hs, hrow⟩ := hheld r hr
    rw [List.mem_singleton.mp hs, flat_row] at hrow
    rw [Option.some.inj hrow]

theorem flat_lastSave {p : Save flatLib} (h : lastSave flatEvents "ftmo-gold-001".toList = some p) :
    p.ran = goldTime := by
  obtain ⟨e, he, hp⟩ := List.mem_flatMap.mp (List.mem_filter.mp (List.mem_of_getLast? h)).1
  obtain rfl | rfl : e = .snapshotCycle [(flatReading, some goldTime)] ∨
      e = .coldCycle [flatReading] true := by simpa [flatEvents] using he
  · obtain ⟨r, hr, hsave⟩ := List.mem_filterMap.mp hp
    obtain rfl := List.mem_singleton.mp (List.mem_filter.mp hr).1
    obtain rfl := Option.some.inj hsave
    rfl
  · cases hp

theorem recovery_finds_flat :
    ∃ r, (Stores.run emptyColumn flatEvents).validateSnapshotForRecovery "ftmo-gold-001".toList
        flatTimes (some flatSnapshot) = .ok (true, some r) ∧ r.Same flatSnapshot := by
  have hgone : ∀ p : Save flatLib, lastSave flatEvents "ftmo-gold-001".toList = some p →
      ¬(flatTimes.first.instant : ℤ) < p.expiry := by
    intro p hlast
    rw [Save.expiry, flat_lastSave hlast]
    decide +kernel
  have hage : flatTimes.now.instant - flatLib.instant flatSnapshot.timestamp ≤ week := by
    show (flatLater.instant : ℤ) - goldTime.instant ≤ week
    decide +kernel
  obtain ⟨answer, hanswer, hfinds⟩ := recovery_finds flatLib emptyColumn flatEvents
    "ftmo-gold-001".toList flatTimes (by intro before h; simp [flatEvents] at h)
    (by
      intro s hs r hr _
      rw [flat_written] at hs
      rw [List.mem_singleton.mp hs, flat_row] at hr
      rw [List.mem_singleton.mp hs, Option.some.inj hr])
    (some flatSnapshot) flat_latest
  have hwritten : ∀ s, Stores.Latest (flatEvents.flatMap (StoreEvent.written emptyColumn))
      "ftmo-gold-001".toList (some s) → s = flatSnapshot := by
    intro s hs
    rw [flat_written] at hs
    exact List.mem_singleton.mp hs.1
  cases hfinds with
  | saved hlast halive _ => exact absurd halive (hgone _ hlast)
  | savedOld hlast halive _ => exact absurd halive (hgone _ hlast)
  | written _ hlatest _ _ hsame => exact ⟨_, hanswer, hwritten _ hlatest ▸ hsame⟩
  | writtenLost _ hlatest hlost =>
    rw [hwritten _ hlatest] at hlost
    exact absurd flat_money (hlost hage)
  | nothing _ hnone =>
    rw [flat_written] at hnone
    exact absurd rfl (hnone flatSnapshot List.mem_cons_self)

end TdSandboxed.SnapshotCodec
