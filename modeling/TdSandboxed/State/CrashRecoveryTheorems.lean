/-
TdSandboxed.State.CrashRecoveryTheorems — which accounts a startup after a
crash recovers.

A key stands for an account only if it is that account's snapshot key and
the account's name has no colon (`mem_getAccountsNeedingRecovery`). Cold
storage plays no part: an account whose key in Redis has expired is not
found, whatever cold storage has of it.
-/
import TdSandboxed.State.CrashRecovery

namespace TdSandboxed

namespace CrashRecoveryManager

variable {a key : String} {keys : List String}

/-! ## Keys -/

theorem toList_snapshotKey (a : String) :
    (snapshotKey a).toList = "snapshot:".toList ++ (a.toList ++ ":latest".toList) := by
  simp [snapshotKey]

/-- The keys of the pattern are the snapshot keys. -/
theorem matchesSnapshotPattern_iff (key : String) :
    matchesSnapshotPattern key = true ↔ ∃ a, key = snapshotKey a := by
  rw [matchesSnapshotPattern, Bool.and_eq_true, List.isPrefixOf_iff_prefix,
    List.isSuffixOf_iff_suffix]
  constructor
  · intro h
    obtain ⟨⟨rest, hrest⟩, ⟨w, hw⟩⟩ := h
    rw [← hrest, List.drop_left] at hw
    refine ⟨String.ofList w, String.toList_injective ?_⟩
    have hw' : (String.ofList w).toList = w := String.toList_ofList
    rw [toList_snapshotKey, hw', hw, hrest]
  · intro h
    obtain ⟨a, rfl⟩ := h
    rw [toList_snapshotKey, List.drop_left]
    exact ⟨List.prefix_append _ _, List.suffix_append _ _⟩

/-- A part of its own is a text without the separator. -/
theorem splitOn_eq_singleton_iff {c : Char} {w x : List Char} :
    w.splitOn c = [x] ↔ x = w ∧ c ∉ w := by
  constructor
  · intro h
    have hx : x = w := by
      have hjoin := congrArg [c].intercalate h
      simpa using hjoin.symm
    refine ⟨hx, fun hmem => ?_⟩
    obtain ⟨u, v, rfl⟩ := List.append_of_mem hmem
    rw [List.splitOn_append_cons_self] at h
    have hlen := congrArg List.length h
    have hu := List.length_pos_iff.mpr (List.splitOn_ne_nil c u)
    have hv := List.length_pos_iff.mpr (List.splitOn_ne_nil c v)
    rw [List.length_append, List.length_singleton] at hlen
    omega
  · intro h
    obtain ⟨rfl, hc⟩ := h
    exact List.splitOn_eq_singleton hc

theorem splitOn_snapshotKey (a : String) :
    (snapshotKey a).toList.splitOn ':' =
      "snapshot".toList :: (a.toList.splitOn ':' ++ ["latest".toList]) := by
  have hkey : (snapshotKey a).toList =
      "snapshot".toList ++ ':' :: (a.toList ++ ':' :: "latest".toList) := by
    rw [toList_snapshotKey]
    rfl
  have hsnapshot : ':' ∉ "snapshot".toList := by decide
  have hlatest : ':' ∉ "latest".toList := by decide
  rw [hkey, List.splitOn_append_cons_self_of_not_mem hsnapshot, List.splitOn_append_cons_self,
    List.splitOn_eq_singleton hlatest]

theorem accountOfKey_snapshotKey {b : String} :
    accountOfKey (snapshotKey a) = some b ↔ b = a ∧ ':' ∉ a.toList := by
  rw [accountOfKey, splitOn_snapshotKey]
  constructor
  · intro h
    split at h
    · rename_i heq
      obtain ⟨-, hparts⟩ := List.cons.inj heq
      have hlen := congrArg List.length hparts
      have hone : (a.toList.splitOn ':').length = 1 := by simpa using hlen
      obtain ⟨w, hw⟩ := List.length_eq_one_iff.mp hone
      obtain ⟨rfl, hcolon⟩ := splitOn_eq_singleton_iff.mp hw
      rw [hw] at hparts
      obtain ⟨rfl, -⟩ := List.cons.inj hparts
      refine ⟨?_, hcolon⟩
      rw [← Option.some.inj h, String.ofList_toList]
    · cases h
  · intro h
    obtain ⟨rfl, hcolon⟩ := h
    rw [List.splitOn_eq_singleton hcolon]
    simp

/-- **The accounts found** are those with a snapshot key and no colon. -/
theorem mem_getAccountsNeedingRecovery :
    a ∈ getAccountsNeedingRecovery keys ↔ snapshotKey a ∈ keys ∧ ':' ∉ a.toList := by
  rw [getAccountsNeedingRecovery, List.mem_filterMap]
  constructor
  · intro h
    obtain ⟨key, hkey, hparts⟩ := h
    obtain ⟨hmem, hpattern⟩ := List.mem_filter.mp hkey
    obtain ⟨b, rfl⟩ := (matchesSnapshotPattern_iff key).mp hpattern
    obtain ⟨rfl, hcolon⟩ := accountOfKey_snapshotKey.mp hparts
    exact ⟨hmem, hcolon⟩
  · intro h
    have hpattern := (matchesSnapshotPattern_iff (snapshotKey a)).mpr ⟨a, rfl⟩
    exact ⟨snapshotKey a, List.mem_filter.mpr ⟨h.1, hpattern⟩,
      accountOfKey_snapshotKey.mpr ⟨rfl, h.2⟩⟩

/-! ## Startup -/

/-- Cold storage has a snapshot of the account to recover from. -/
def InColdStorage (computeChecksum : Checksum) (rows : List StateSnapshot) (now : ℚ) (a : String) :
    Prop :=
  ∃ s ∈ rows, s.accountId = a ∧ s.validateChecksum computeChecksum = true ∧
    now - s.timestamp ≤ coldStorageMaxAgeSeconds

/-- After a crash the accounts found are recovered. -/
theorem recovered_iff {r : StartupReads} {result : RecoveryResult} (hcrash : r.shutdownFlag = false)
    (h : startupSequence r = .ok result) :
    result.recoveryMode = true ∧ a ∈ result.accountsNeedingRecovery ↔
      a ∈ getAccountsNeedingRecovery r.keys := by
  rw [startupSequence] at h
  split at h
  · obtain rfl := Except.ok.inj h
    constructor
    · intro hrecovered
      exact hrecovered.2
    · intro hmem
      refine ⟨?_, hmem⟩
      have hpos := List.length_pos_of_mem hmem
      simp [checkCrashIndicators, hcrash, hpos]
  · cases h

/-- **When the recovery from cold storage is complete.** A startup after a
crash recovers every account that has a valid snapshot in cold storage
exactly if each of them has its snapshot key in Redis and no colon in its
name. -/
theorem recovery_complete_iff (computeChecksum : Checksum) (rows : List StateSnapshot) (now : ℚ)
    (r : StartupReads) (result : RecoveryResult) (hcrash : r.shutdownFlag = false)
    (h : startupSequence r = .ok result) :
    (∀ a, InColdStorage computeChecksum rows now a →
        result.recoveryMode = true ∧ a ∈ result.accountsNeedingRecovery) ↔
      ∀ a, InColdStorage computeChecksum rows now a → snapshotKey a ∈ r.keys ∧ ':' ∉ a.toList := by
  refine forall_congr' fun a => imp_congr_right fun _ => ?_
  rw [recovered_iff hcrash h, mem_getAccountsNeedingRecovery]

def emptyAccount (a : String) : StateSnapshot :=
  .sealed (fun _ => "checksum")
    { accountId := a, timestamp := 0, positions := [], accountBalance := ⟨0, 0⟩, equity := ⟨0, 0⟩
      peakBalance := ⟨0, 0⟩, dailyStartingBalance := ⟨0, 0⟩ }

theorem recovery_complete_iff_gold :
    (∀ a, InColdStorage (fun _ => "checksum") [emptyAccount "ftmo-gold-001"] 60 a →
        true = true ∧ a ∈ ["ftmo-gold-001"]) ↔
      ∀ a, InColdStorage (fun _ => "checksum") [emptyAccount "ftmo-gold-001"] 60 a →
        snapshotKey a ∈ ["snapshot:ftmo-gold-001:latest"] ∧ ':' ∉ a.toList :=
  recovery_complete_iff _ _ _
    { shutdownFlag := false, lockExists := false, shutdownFlagAgain := false
      keys := ["snapshot:ftmo-gold-001:latest"], lockAcquired := true }
    { recoveryMode := true
      accountsNeedingRecovery := ["ftmo-gold-001"]
      indicators :=
        { hasCrash := true, missingShutdownFlag := true, staleHeartbeat := true
          orphanSnapshots := ["ftmo-gold-001"]
          details := "No clean shutdown flag found; Stale heartbeat detected (lock expired); " ++
            "Found 1 accounts with orphan snapshots" } }
    rfl (by decide +kernel)

/-- **The snapshot in Redis has expired** when the engine starts, two hours
after the crash. Cold storage has one, but nobody asks for it. -/
theorem expired_snapshot_not_recovered :
    ¬ ∀ computeChecksum rows now r result, r.shutdownFlag = false → startupSequence r = .ok result →
      ∀ a, InColdStorage computeChecksum rows now a →
        result.recoveryMode = true ∧ a ∈ result.accountsNeedingRecovery := by
  intro hall
  have hcold : InColdStorage (fun _ => "checksum") [emptyAccount "ftmo-gold-001"] 7200
      "ftmo-gold-001" :=
    ⟨emptyAccount "ftmo-gold-001", by simp, rfl, by decide +kernel, by decide +kernel⟩
  have hmem := (hall (fun _ => "checksum") _ 7200
    { shutdownFlag := false, lockExists := false, shutdownFlagAgain := false, keys := []
      lockAcquired := true } _ rfl rfl _ hcold).2
  cases hmem

end CrashRecoveryManager

end TdSandboxed
