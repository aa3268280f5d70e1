/-
TdSandboxed.State.ProcessLockTheorems — who holds the process lock.

An instance may stall longer than the time to live of its lock. The key
then expires, another instance sets it, and the first one's next heartbeat
extends the other's lock and reports success: both go on, and whichever
shuts down first deletes the lock the other one relies on.

`Lease` is what the lock would guarantee: the key is there as long as the
time lasts that its owner last gave to it. It is kept by every step
`WithinTtl`, and a step that is not `WithinTtl` extends or deletes a lock
of another instance.
-/
import TdSandboxed.State.ProcessLock

namespace TdSandboxed

namespace LockSystem

variable {s t : LockSystem} {i j : ℕ} {c : LockCommand} {e : LockEvent}

/-! ## What the helpers leave alone -/

@[simp] theorem goto_phase (s : LockSystem) (i : ℕ) (p : LockPhase) (j : ℕ) :
    (s.goto i p).phase j = if j = i then p else s.phase j := by
  simp [goto, Function.update_apply]

@[simp] theorem abandon_phase (s : LockSystem) (i : ℕ) (p : LockPhase) (j : ℕ) :
    (s.abandon i p).phase j = if j = i then p else s.phase j := by
  simp [abandon]

@[simp] theorem run_phase (s : LockSystem) (i : ℕ) (c : LockCommand) :
    (s.run i c).1.phase = s.phase := by
  cases c <;> simp only [run] <;> (try split) <;> rfl

@[simp] theorem run_strays (s : LockSystem) (i : ℕ) (c : LockCommand) :
    (s.run i c).1.strays = s.strays := by
  cases c <;> simp only [run] <;> (try split) <;> rfl

@[simp] theorem run_fresh (s : LockSystem) (i : ℕ) (c : LockCommand) :
    (s.run i c).1.fresh = s.fresh := by
  cases c <;> simp only [run] <;> (try split) <;> rfl

@[simp] theorem run_current (s : LockSystem) (i : ℕ) (c : LockCommand) :
    (s.run i c).1.current = s.current := by
  cases c <;> simp only [run] <;> (try split) <;> rfl

@[simp] theorem setFresh_apply (s : LockSystem) (i j : ℕ) :
    (s.setFresh i).fresh j = if j = i then true else s.fresh j := by
  simp [setFresh, Function.update_apply]

@[simp] theorem completed_apply (s : LockSystem) (i j : ℕ) :
    (s.completed i).current j = if j = i then s.fresh i else s.current j := by
  simp [completed, Function.update_apply]

/-! ## The lease -/

/-- The key is there exactly as long as the time lasts that its owner last
gave to it. -/
structure Lease (s : LockSystem) : Prop where
  key_own : ∀ k, s.key = some k → s.own k.owner = some k.deadline ∧ s.now < k.deadline
  own_key : ∀ i d, s.own i = some d → s.now < d → s.key = some { owner := i, deadline := d }

/-- Under the lease a timely instance finds its own key, if any. -/
theorem Lease.timely_iff (h : Lease s) (i : ℕ) :
    s.Timely i ↔ ∀ k, s.key = some k → k.owner = i := by
  constructor
  · intro ht k hk
    obtain ⟨d, hd, hlt⟩ := ht (by simp [hk])
    have hown : s.key = some { owner := i, deadline := d } := h.own_key i d hd hlt
    rw [hk] at hown
    rw [Option.some.inj hown]
  · intro hown hne
    obtain ⟨k, hk⟩ := Option.ne_none_iff_exists'.mp hne
    obtain ⟨hd, hlt⟩ := h.key_own k hk
    rw [hown k hk] at hd
    exact ⟨k.deadline, hd, hlt⟩

/-- The lease after a command that sets, extends or deletes the key of `i`,
or sets a free one. -/
theorem Lease.write (h : Lease s) (hown : ∀ k, s.key = some k → k.owner = i) {d : ℕ}
    (hd : s.now < d) : Lease (s.write i { owner := i, deadline := d }) := by
  constructor
  · intro k hk
    obtain rfl : ({ owner := i, deadline := d } : LockKey) = k := Option.some.inj hk
    exact ⟨by simp [LockSystem.write], hd⟩
  · intro j d' hj hlt
    by_cases hji : j = i
    · subst hji
      have hdd : d = d' := by simpa [LockSystem.write] using hj
      simp [LockSystem.write, hdd]
    · have hj' : s.own j = some d' := by simpa [LockSystem.write, hji] using hj
      have hkey := h.own_key j d' hj' hlt
      exact absurd (hown _ hkey) hji

theorem Lease.delete (h : Lease s) (hown : ∀ k, s.key = some k → k.owner = i) :
    Lease (s.delete i) := by
  constructor
  · intro k hk
    simp [LockSystem.delete] at hk
  · intro j d hj hlt
    by_cases hji : j = i
    · simp [LockSystem.delete, hji] at hj
    · have hj' : s.own j = some d := by simpa [LockSystem.delete, hji] using hj
      exact absurd (hown _ (h.own_key j d hj' hlt)) hji

theorem Lease.run (h : Lease s) (ht : c ≠ .acquire → s.Timely i) : Lease (s.run i c).1 := by
  cases c with
  | acquire =>
    simp only [LockSystem.run]
    split
    · rename_i hkey
      exact h.write (by simp [hkey]) (by simp [lockTtlSeconds])
    · exact h
  | refresh =>
    have hown := (h.timely_iff i).mp (ht (by simp))
    simp only [LockSystem.run]
    split
    · exact h
    · rename_i k hkey
      have hk : ({ k with deadline := s.now + lockTtlSeconds } : LockKey)
          = { owner := i, deadline := s.now + lockTtlSeconds } := by
        rw [← hown k hkey]
      rw [hk]
      exact h.write hown (by simp [lockTtlSeconds])
  | release => exact h.delete ((h.timely_iff i).mp (ht (by simp)))

/-- A second passes: the key's time is over, or only the clock moves. -/
theorem tick_cases (s : LockSystem) :
    (∃ k, s.key = some k ∧ k.deadline ≤ s.now + 1 ∧
      s.tick = { s with
        now := s.now + 1, key := none, fresh := fun _ => false, current := fun _ => false }) ∨
    (∀ k, s.key = some k → s.now + 1 < k.deadline) ∧ s.tick = { s with now := s.now + 1 } := by
  cases hkey : s.key with
  | none => exact .inr ⟨by simp, by simp [LockSystem.tick, expire, hkey]⟩
  | some k =>
    by_cases hover : k.deadline ≤ s.now + 1
    · exact .inl ⟨k, rfl, hover, by simp [LockSystem.tick, expire, hkey, hover]⟩
    · refine .inr ⟨?_, by simp [LockSystem.tick, expire, hkey, hover]⟩
      intro k' hk'
      rw [← Option.some.inj hk']
      omega

theorem Lease.tick (h : Lease s) : Lease s.tick := by
  have hkeep : ∀ i d, s.own i = some d → s.now + 1 < d →
      s.key = some { owner := i, deadline := d } :=
    fun i d hi hlt => h.own_key i d hi (by omega)
  obtain ⟨k, hkey, hover, htick⟩ | ⟨hlive, htick⟩ := s.tick_cases
  · rw [htick]
    refine ⟨by simp, fun i d hi hlt => ?_⟩
    have hkey' := hkeep i d hi hlt
    rw [hkey] at hkey'
    have hdeadline : k.deadline = d := by rw [Option.some.inj hkey']
    have hlt' : s.now + 1 < d := hlt
    omega
  · rw [htick]
    exact ⟨fun k hk => ⟨(h.key_own k hk).1, hlive k hk⟩, hkeep⟩

/-! ## Who owns the key -/

/-- No command of another instance, and no acquisition or extension, takes
the key from its owner. -/
theorem Owns.run (h : Lease s) (ht : c ≠ .acquire → s.Timely i) (hj : s.Owns j)
    (hc : c = .release → j ≠ i) : (s.run i c).1.Owns j := by
  obtain ⟨d, hkey⟩ := hj
  cases c with
  | acquire => exact ⟨d, by simp [LockSystem.run, hkey]⟩
  | refresh => exact ⟨s.now + lockTtlSeconds, by simp [LockSystem.run, hkey, LockSystem.write]⟩
  | release =>
    have hown := (h.timely_iff i).mp (ht (by simp))
    exact absurd (hown _ hkey) (hc rfl)

/-- Whoever is told that it acquired or extended the lock owns the key. -/
theorem owns_of_run (h : Lease s) (ht : c ≠ .acquire → s.Timely i) (hc : c ≠ .release)
    (hr : (s.run i c).2 = true) : (s.run i c).1.Owns i := by
  cases c with
  | acquire =>
    cases hkey : s.key with
    | none => exact ⟨s.now + lockTtlSeconds, by simp [LockSystem.run, hkey, LockSystem.write]⟩
    | some k => simp [LockSystem.run, hkey] at hr
  | refresh =>
    have hown := (h.timely_iff i).mp (ht (by simp))
    cases hkey : s.key with
    | none => simp [LockSystem.run, hkey] at hr
    | some k =>
      refine ⟨s.now + lockTtlSeconds, ?_⟩
      simp [LockSystem.run, hkey, LockSystem.write, hown k hkey]
  | release => exact absurd rfl hc

/-- Only one instance owns the key. -/
theorem Owns.unique (hi : s.Owns i) (hj : s.Owns j) : i = j := by
  obtain ⟨d, hd⟩ := hi
  obtain ⟨d', hd'⟩ := hj
  rw [hd] at hd'
  exact congrArg LockKey.owner (Option.some.inj hd')

/-! ## The invariant -/

structure LockInv (s : LockSystem) : Prop extends Lease s where
  stray_release : ∀ i, (i, LockCommand.release) ∈ s.strays → s.phase i = .ended
  fresh_owns : ∀ i, s.fresh i → (s.phase i).granted → s.Owns i
  current_owns : ∀ i, s.current i → (s.phase i).believes → s.Owns i

theorem lockInv_init : LockInv {} where
  key_own := by simp
  own_key := by simp
  stray_release := by simp
  fresh_owns := by simp
  current_owns := by simp

/-- Only the phase of one instance changes. -/
theorem LockInv.goto (h : LockInv s) {p : LockPhase} (hphase : s.phase i ≠ .ended)
    (hgranted : p.granted = false) (hbelieves : p.believes → (s.phase i).believes) :
    LockInv (s.goto i p) where
  toLease := ⟨h.key_own, h.own_key⟩
  stray_release := by
    intro j hj
    have hend := h.stray_release j hj
    have hji : j ≠ i := fun hji => hphase (hji ▸ hend)
    simp [hji, hend]
  fresh_owns := by
    intro j hj hg
    by_cases hji : j = i
    · rw [goto_phase, if_pos hji] at hg
      rw [hgranted] at hg
      cases hg
    · rw [goto_phase, if_neg hji] at hg
      exact h.fresh_owns j hj hg
  current_owns := by
    intro j hj hb
    by_cases hji : j = i
    · rw [goto_phase, if_pos hji] at hb
      subst hji
      exact h.current_owns j hj (hbelieves hb)
    · rw [goto_phase, if_neg hji] at hb
      exact h.current_owns j hj hb

/-- An instance that stops waiting for a release has ended. -/
theorem LockInv.abandon (h : LockInv s) {p : LockPhase} (hphase : s.phase i ≠ .ended)
    (hgranted : p.granted = false) (hbelieves : p.believes → (s.phase i).believes)
    (hrelease : (s.phase i).pending = some .release → p = .ended) :
    LockInv (s.abandon i p) := by
  have hgoto := h.goto hphase hgranted hbelieves
  refine ⟨⟨h.key_own, h.own_key⟩, fun j hj => ?_, hgoto.fresh_owns, hgoto.current_owns⟩
  rcases List.mem_append.mp hj with hnew | hold
  · simp only [List.mem_map, Option.mem_toList, Prod.mk.injEq] at hnew
    obtain ⟨c, hc, rfl, rfl⟩ := hnew
    simp [hrelease hc]
  · exact hgoto.stray_release j hold

/-- The acquisition or heartbeat of an instance is complete. -/
theorem LockInv.completed (h : LockInv s) {p : LockPhase} (hg : (s.phase i).granted)
    (hgranted : p.granted = false) : LockInv ((s.completed i).goto i p) where
  toLease := ⟨h.key_own, h.own_key⟩
  stray_release := by
    intro j hj
    have hend := h.stray_release j hj
    have hji : j ≠ i := by
      intro hji
      subst hji
      rw [hend] at hg
      cases hg
    rw [goto_phase, if_neg hji]
    exact hend
  fresh_owns := by
    intro j hj hg'
    by_cases hji : j = i
    · rw [goto_phase, if_pos hji] at hg'
      rw [hgranted] at hg'
      cases hg'
    · rw [goto_phase, if_neg hji] at hg'
      exact h.fresh_owns j hj hg'
  current_owns := by
    intro j hj hb
    by_cases hji : j = i
    · subst hji
      have hfresh : s.fresh j = true := by simpa [LockSystem.goto] using hj
      exact h.fresh_owns j hfresh hg
    · rw [goto_phase, if_neg hji] at hb
      have hcur : s.current j = true := by simpa [LockSystem.goto, hji] using hj
      exact h.current_owns j hcur hb

theorem LockInv.tick (h : LockInv s) : LockInv s.tick := by
  have hlease := h.toLease.tick
  obtain ⟨k, -, -, htick⟩ | ⟨-, htick⟩ := s.tick_cases
  · rw [htick] at hlease ⊢
    exact ⟨hlease, h.stray_release, by simp, by simp⟩
  · rw [htick] at hlease ⊢
    exact ⟨hlease, h.stray_release, h.fresh_owns, h.current_owns⟩

/-- The server executes the command an instance waits for. -/
theorem LockInv.answer (h : LockInv s) (ht : c ≠ .acquire → s.Timely i)
    (hc : (s.phase i).pending = some c) {p : LockPhase}
    (hgranted : p.granted → c ≠ .release ∧ (s.run i c).2 = true)
    (hbelieves : p.believes → c ≠ .release ∧ (s.phase i).believes) (fresh : ℕ → Bool)
    (hfresh : ∀ j, j ≠ i → fresh j = s.fresh j) :
    LockInv ({ (s.run i c).1 with fresh := fresh }.goto i p) where
  toLease := ⟨(h.toLease.run ht).key_own, (h.toLease.run ht).own_key⟩
  stray_release := by
    intro j hj
    have hend := h.stray_release j (by simpa [LockSystem.goto] using hj)
    have hji : j ≠ i := by
      intro hji
      subst hji
      rw [hend] at hc
      cases hc
    simpa [hji] using hend
  fresh_owns := by
    intro j hj hg
    by_cases hji : j = i
    · rw [goto_phase, if_pos hji] at hg
      subst hji
      exact owns_of_run h.toLease ht (hgranted hg).1 (hgranted hg).2
    · rw [goto_phase, if_neg hji] at hg
      have hj' : s.fresh j = true := by
        rw [← hfresh j hji]
        exact hj
      exact Owns.run h.toLease ht (h.fresh_owns j hj' (by simpa using hg)) fun _ => hji
  current_owns := by
    intro j hj hb
    have hj' : s.current j = true := by simpa [LockSystem.goto] using hj
    by_cases hji : j = i
    · rw [goto_phase, if_pos hji] at hb
      subst hji
      exact Owns.run h.toLease ht (h.current_owns j hj' (hbelieves hb).2)
        fun hrel => absurd hrel (hbelieves hb).1
    · rw [goto_phase, if_neg hji] at hb
      exact Owns.run h.toLease ht (h.current_owns j hj' (by simpa using hb)) fun _ => hji

/-- The server executes a command nobody waits for. -/
theorem LockInv.stray (h : LockInv s) (ht : c ≠ .acquire → s.Timely i) (hc : (i, c) ∈ s.strays) :
    LockInv ({ s with strays := s.strays.erase (i, c) }.run i c).1 := by
  have hlease : Lease { s with strays := s.strays.erase (i, c) } := ⟨h.key_own, h.own_key⟩
  -- the owner of a stray release has ended, so it is none of those the fields are about
  have hkeep : ∀ j, s.phase j ≠ .ended → s.Owns j →
      ({ s with strays := s.strays.erase (i, c) }.run i c).1.Owns j := by
    intro j hj hown
    refine Owns.run hlease ht hown ?_
    intro hrel hji
    subst hji hrel
    exact hj (h.stray_release j hc)
  refine ⟨hlease.run ht, ?_, ?_, ?_⟩
  · intro j hj
    rw [run_strays] at hj
    rw [run_phase]
    exact h.stray_release j (List.mem_of_mem_erase hj)
  · intro j hj hg
    rw [run_fresh] at hj
    rw [run_phase] at hg
    refine hkeep j ?_ (h.fresh_owns j hj hg)
    intro hend
    have hg' : (s.phase j).granted = true := hg
    rw [hend] at hg'
    cases hg'
  · intro j hj hb
    rw [run_current] at hj
    rw [run_phase] at hb
    refine hkeep j ?_ (h.current_owns j hj hb)
    intro hend
    have hb' : (s.phase j).believes = true := hb
    rw [hend] at hb'
    cases hb'

theorem LockInv.of_answer (h : LockInv s) (ht : ∀ c, (s.phase i).pending = some c → c ≠ .acquire →
    s.Timely i) (he : s.answer i = some t) : LockInv t := by
  have hfresh : ∀ c j, j ≠ i → ((s.run i c).1.setFresh i).fresh j = s.fresh j := by
    intro c j hji
    simp [hji]
  unfold LockSystem.answer at he
  split at he
  · rename_i hp
    obtain rfl := Option.some.inj he
    have hc : (s.phase i).pending = some .acquire := by rw [hp]; rfl
    refine h.answer (ht _ hc) hc (p := .acquiring (some (s.run i .acquire).2)) ?_ ?_
      ((s.run i .acquire).1.setFresh i).fresh (hfresh _)
    · intro hg
      refine ⟨by simp, ?_⟩
      cases hr : (s.run i .acquire).2 with
      | true => rfl
      | false => simp [hr, LockPhase.granted] at hg
    · intro hb
      cases hb
  · rename_i hp
    obtain rfl := Option.some.inj he
    have hc : (s.phase i).pending = some .refresh := by rw [hp]; rfl
    refine h.answer (ht _ hc) hc (p := .refreshing (some (s.run i .refresh).2)) ?_ ?_
      ((s.run i .refresh).1.setFresh i).fresh (hfresh _)
    · intro hg
      refine ⟨by simp, ?_⟩
      cases hr : (s.run i .refresh).2 with
      | true => rfl
      | false => simp [hr, LockPhase.granted] at hg
    · intro _
      exact ⟨by simp, by rw [hp]; rfl⟩
  · rename_i hp
    obtain rfl := Option.some.inj he
    have hc : (s.phase i).pending = some .release := by rw [hp]; rfl
    refine h.answer (ht _ hc) hc (p := .releasing (some (s.run i .release).2)) ?_ ?_ s.fresh
      fun _ _ => rfl
    · intro hg
      cases hg
    · intro hb
      cases hb
  · cases he

theorem LockInv.of_resume (h : LockInv s) (he : s.resume i = some t) : LockInv t := by
  unfold LockSystem.resume at he
  split at he
  · rename_i hp
    cases he
    exact h.completed (by rw [hp]; rfl) rfl
  · rename_i hp
    cases he
    exact h.goto (by simp [hp]) rfl nofun
  · rename_i hp
    cases he
    exact h.goto (by simp [hp]) rfl fun _ => by rw [hp]; rfl
  · rename_i hp
    cases he
    exact h.completed (by rw [hp]; rfl) rfl
  · rename_i hp
    cases he
    exact h.goto (by simp [hp]) rfl nofun
  · rename_i hp
    cases he
    exact h.goto (by simp [hp]) rfl nofun
  · rename_i hp
    cases he
    exact h.goto (by simp [hp]) rfl nofun
  · cases he

theorem LockInv.of_raise (h : LockInv s) (he : s.raise i = some t) : LockInv t := by
  unfold LockSystem.raise at he
  split at he
  · rename_i reply hp
    cases he
    refine h.abandon (by simp [hp]) rfl (fun _ => by rw [hp]; rfl) ?_
    intro hrel
    rw [hp] at hrel
    cases reply <;> cases hrel
  · rename_i hp
    cases he
    exact h.abandon (by simp [hp]) rfl nofun fun _ => rfl
  · rename_i hp
    cases he
    exact h.abandon (by simp [hp]) rfl nofun fun _ => rfl
  · rename_i hp
    cases he
    exact h.abandon (by simp [hp]) rfl nofun fun _ => rfl
  · rename_i hp
    cases he
    exact h.abandon (by simp [hp]) rfl nofun fun _ => rfl
  · cases he

/-- `shutdown_sequence` begins: a heartbeat under way is cancelled. -/
theorem LockInv.of_shutdown (h : LockInv s) (he : s.step (.shutdown i) = some t) : LockInv t := by
  simp only [LockSystem.step] at he
  split at he
  · rename_i hp
    cases he
    refine h.abandon (by simp [hp]) rfl nofun ?_
    intro hrel
    rw [hp] at hrel
    cases hrel
  · rename_i reply hp
    cases he
    refine h.abandon (by simp [hp]) rfl nofun ?_
    intro hrel
    rw [hp] at hrel
    cases reply <;> cases hrel
  · rename_i hp
    cases he
    refine h.abandon (by simp [hp]) rfl nofun ?_
    intro hrel
    rw [hp] at hrel
    cases hrel
  · cases he

/-- **One step** within the time to live keeps the invariant. -/
theorem LockInv.step (h : LockInv s) (hok : s.WithinTtl e) (he : s.step e = some t) : LockInv t := by
  cases e with
  | tick =>
    cases he
    exact h.tick
  | start i =>
    simp only [LockSystem.step] at he
    split at he
    · rename_i hp
      cases he
      exact h.goto (by simp [hp]) rfl nofun
    · cases he
  | execute i =>
    refine h.of_answer ?_ he
    intro c hc hne
    exact hok (i, c) (by simp [LockSystem.command, hc]) hne
  | reply i => exact h.of_resume he
  | fail i => exact h.of_raise he
  | beat i =>
    simp only [LockSystem.step] at he
    split at he
    · rename_i wake hp
      split at he
      · cases he
        exact h.goto (by simp [hp]) rfl fun _ => by rw [hp]; rfl
      · cases he
    · cases he
  | shutdown i => exact h.of_shutdown he
  | crash i =>
    simp only [LockSystem.step] at he
    split at he
    · cases he
    · cases he
    · rename_i hidle hended
      cases he
      exact h.abandon hended rfl nofun fun _ => rfl
  | stray i c =>
    simp only [LockSystem.step] at he
    split at he
    · rename_i hc
      cases he
      exact h.stray (hok (i, c) rfl) hc
    · cases he

/-- Every run within the time to live. -/
theorem lockInv_of_run {es : List LockEvent} (h : Lib.RunWhere step WithinTtl {} es s) : LockInv s :=
  h.invariant_state LockInv lockInv_init fun _ _ _ hi hok he => hi.step hok he

/-! ## Exclusion -/

theorem LockInv.exclusive (h : LockInv s) : s.Exclusive := by
  intro hcurrent i j hi hj
  have howni : s.Owns i := h.current_owns i (hcurrent i hi) hi
  have hownj : s.Owns j := h.current_owns j (hcurrent j hj) hj
  exact howni.unique hownj

/-- Under the lease, to be late is to touch a lock of another instance. -/
theorem Lease.touchesForeign_iff (h : Lease s) (e : LockEvent) :
    s.TouchesForeign e ↔ ¬ s.WithinTtl e := by
  unfold TouchesForeign WithinTtl
  push Not
  refine exists_congr fun ic => and_congr_right fun _ => and_congr_right fun _ => ?_
  rw [h.timely_iff ic.1]
  push Not
  exact exists_congr fun k => Iff.rfl

/-- **The process lock excludes as long as nobody is late.** In every run
in which an instance extends or deletes the lock only while the time lasts
that it gave to the key itself, at most one instance believes it holds the
lock; and the first step that is late is the first to touch a lock of
another instance. -/
theorem lock_exclusive_within_ttl {es : List LockEvent}
    (h : Lib.RunWhere step WithinTtl {} es s) :
    s.Exclusive ∧ ∀ e, s.TouchesForeign e ↔ ¬ s.WithinTtl e :=
  ⟨(lockInv_of_run h).exclusive, (lockInv_of_run h).toLease.touchesForeign_iff⟩

/-- An instance starts, acquires the lock and completes a heartbeat. -/
def startup (i : ℕ) : List LockEvent :=
  [.start i, .execute i, .reply i, .reply i, .beat i, .execute i, .reply i]

/-- One instance goes through its life, while another finds the lock taken,
and takes it after the first has shut down. -/
theorem lock_exclusive_within_ttl_handover :
    ∃ s, Lib.RunWhere step WithinTtl {}
        (startup 0 ++ [.start 1, .execute 1, .reply 1, .shutdown 0, .reply 0, .execute 0, .reply 0] ++
          startup 2) s ∧
      s.Exclusive ∧ ∀ e, s.TouchesForeign e ↔ ¬ s.WithinTtl e := by
  obtain ⟨s, hrun, -⟩ := Lib.RunWhere.exists_of_checked step WithinTtl {}
    (startup 0 ++ [.start 1, .execute 1, .reply 1, .shutdown 0, .reply 0, .execute 0, .reply 0] ++
      startup 2) (fun s => (s.phase 2).believes) (by decide +kernel) (by decide +kernel)
  exact ⟨s, hrun, lock_exclusive_within_ttl hrun⟩

/-! ## A stall -/

theorem phase_of_answer (he : s.answer i = some t) (hj : j ≠ i) : t.phase j = s.phase j := by
  have hrun : ∀ c, (s.run i c).1.phase j = s.phase j := fun c => by rw [run_phase]
  unfold LockSystem.answer at he
  split at he
  · obtain rfl := Option.some.inj he
    rw [goto_phase, if_neg hj]
    exact hrun .acquire
  · obtain rfl := Option.some.inj he
    rw [goto_phase, if_neg hj]
    exact hrun .refresh
  · obtain rfl := Option.some.inj he
    rw [goto_phase, if_neg hj]
    exact hrun .release
  · cases he

theorem phase_of_resume (he : s.resume i = some t) (hj : j ≠ i) : t.phase j = s.phase j := by
  unfold LockSystem.resume at he
  split at he <;> cases he <;> simp [hj, LockSystem.completed]

theorem phase_of_raise (he : s.raise i = some t) (hj : j ≠ i) : t.phase j = s.phase j := by
  unfold LockSystem.raise at he
  split at he <;> cases he <;> simp [hj]

/-- A step moves only the instance it is about. -/
theorem phase_of_step (he : s.step e = some t) (hj : e.actor ≠ some j) :
    t.phase j = s.phase j := by
  cases e with
  | tick =>
    cases he
    obtain ⟨k, -, -, htick⟩ | ⟨-, htick⟩ := s.tick_cases <;> rw [htick]
  | execute i => exact phase_of_answer he fun hji => hj (by rw [hji]; rfl)
  | reply i => exact phase_of_resume he fun hji => hj (by rw [hji]; rfl)
  | fail i => exact phase_of_raise he fun hji => hj (by rw [hji]; rfl)
  | stray i c =>
    simp only [LockSystem.step] at he
    split at he <;> cases he
    simp
  | start i | beat i | shutdown i | crash i =>
    have hji : j ≠ i := fun hji => hj (by rw [hji]; rfl)
    simp only [LockSystem.step] at he
    repeat' split at he
    all_goals first | (cases he; done) | (cases he; simp [hji])

/-- An instance that no event of a run is about stays idle. -/
theorem phase_of_run {es : List LockEvent} (h : Lib.Run step {} es s)
    (hj : ∀ e ∈ es, e.actor ≠ some j) : s.phase j = .idle := by
  induction h with
  | nil => rfl
  | snoc hr _ he ih =>
    rw [phase_of_step he (hj _ (by simp))]
    exact ih fun e hmem => hj e (List.mem_append_left _ hmem)

/-- Instance 0 completes a heartbeat and then stalls for as long as the key
lives. Instance 1 acquires the lock and completes a heartbeat, and so does
instance 0 when it wakes up. -/
def stall : List LockEvent :=
  startup 0 ++ List.replicate lockTtlSeconds .tick ++ startup 1 ++ [.beat 0, .execute 0, .reply 0]

/-- **After the stall both instances believe they hold the lock**, each has
completed a heartbeat since the expiry, and the first shutdown deletes the
lock of the other instance. -/
theorem stall_breaks_lock :
    (¬ ∀ es s, Lib.Run step {} es s → s.Exclusive) ∧
      ¬ ∀ es s e t, Lib.Run step {} es s → s.step e = some t → ¬ s.TouchesForeign e := by
  constructor
  · intro hall
    obtain ⟨s, hrun, hs⟩ := Lib.Run.exists_of_exec step {} stall
      (fun s => (s.phase 0).believes && (s.phase 1).believes && s.current 0 && s.current 1)
      (by decide +kernel)
    simp only [Bool.and_eq_true] at hs
    obtain ⟨⟨⟨h0, h1⟩, hc0⟩, hc1⟩ := hs
    have hcurrent : ∀ i, (s.phase i).believes → s.current i := by
      intro i hi
      match i with
      | 0 => exact hc0
      | 1 => exact hc1
      | i + 2 =>
        have hactors : ∀ e ∈ stall, e.actor = none ∨ e.actor = some 0 ∨ e.actor = some 1 := by
          decide +kernel
        have hidle : s.phase (i + 2) = .idle := by
          refine phase_of_run hrun fun e he hact => ?_
          rcases hactors e he with h | h | h <;> rw [h] at hact <;> simp at hact
        rw [hidle] at hi
        cases hi
    exact absurd (hall _ _ hrun hcurrent 0 1 h0 h1) (by decide)
  · intro hall
    obtain ⟨s, hrun, hs⟩ := Lib.Run.exists_of_exec step {} (stall ++ [.shutdown 0, .reply 0])
      (fun s => decide (s.TouchesForeign (.execute 0)) && (s.step (.execute 0)).isSome)
      (by decide +kernel)
    simp only [Bool.and_eq_true, decide_eq_true_eq] at hs
    obtain ⟨t, ht⟩ := Option.isSome_iff_exists.mp hs.2
    exact hall _ _ _ _ hrun ht hs.1

end LockSystem

end TdSandboxed
