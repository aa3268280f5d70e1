/-
TdSandboxed.Audit.AuditTheorems — where an audit entry is.

Every accepted entry is in one of five places: the queue, the batch that is
being collected, the entries a cancelled worker left, an insert that has not
committed, or the table (`Preserved`). The count of the queue is the number
of entries that are in the queue, in the batch or in an insert (`Counted`),
so a drain that is let go finds them in the table unless they were left by a
cancelled worker.
-/
import TdSandboxed.Audit.AuditWriter
import TdSandboxed.Lib.Custody
import TdSandboxed.Lib.Run

namespace TdSandboxed

open Lib

variable {α : Type}

/-! ## Who holds what -/

namespace AuditWorker

/-- What is in the hands of a worker and not in the table. -/
def uncommitted : AuditWorker α → List α
  | .inserting batch false => batch
  | _ => []

/-- What a worker has not marked done. -/
def batch : AuditWorker α → List α
  | .inserting batch _ => batch
  | _ => []

/-- A worker that collects has nothing in its own hands. -/
theorem idle {w : AuditWorker α} (h : w = .waiting ∨ w = .collecting) :
    w.uncommitted = [] ∧ w.batch = [] := by
  obtain rfl | rfl := h <;> exact ⟨rfl, rfl⟩

end AuditWorker

namespace AuditStop

def uncommitted : AuditStop α → List α
  | .flushing reclaimed drawn false => reclaimed ++ drawn
  | _ => []

/-- What a stop has not marked done. -/
def drawn : AuditStop α → List α
  | .flushing _ drawn _ => drawn
  | _ => []

def reclaimed : AuditStop α → List α
  | .flushing reclaimed _ _ => reclaimed
  | _ => []

end AuditStop

namespace AuditWriter

/-- What the writer holds: the queue, the batches and what was left. -/
def held (s : AuditWriter α) : List α :=
  s.queue ++ s.pendingBatch ++ s.leftover ++ s.workers.flatMap AuditWorker.uncommitted ++
    s.stops.flatMap AuditStop.uncommitted

/-- What was put and not marked done. -/
def unmarked (s : AuditWriter α) : List α :=
  s.queue ++ s.pendingBatch ++ s.workers.flatMap AuditWorker.batch ++ s.stops.flatMap AuditStop.drawn

/-! ## The steps that keep it -/

/-- A worker does not end an insert before the commit, and begins a batch
only when no other worker is collecting one. -/
def WorkerKept (s : AuditWriter α) : AuditWorker α → AuditWorkerEvent → Prop
  | .inserting _ false, .finish | .inserting _ false, .cancel => False
  | .created, .enter | .inserting _ true, .finish => s.pendingBatch = []
  | _, _ => True

/-- The last insert is not ended before its commit. -/
def StopKept : AuditStop α → AuditStopEvent → Prop
  | .flushing _ _ false, .finish | .flushing _ _ false, .cancel => False
  | _, _ => True

instance (s : AuditWriter α) (w : AuditWorker α) (e : AuditWorkerEvent) :
    Decidable (s.WorkerKept w e) := by
  unfold WorkerKept
  split <;> infer_instance

instance (p : AuditStop α) (e : AuditStopEvent) : Decidable (StopKept p e) := by
  unfold StopKept
  split <;> infer_instance

def Kept (s : AuditWriter α) : AuditEvent α → Prop
  | .worker i e => ∀ w ∈ s.workers[i]?, s.WorkerKept w e
  | .stopping i e => ∀ p ∈ s.stops[i]?, StopKept p e
  | _ => True

instance (s : AuditWriter α) (e : AuditEvent α) : Decidable (Kept s e) := by
  unfold Kept
  split <;> infer_instance

/-- No worker is cancelled with entries that it has taken from the queue
and not handed to an insert. -/
def NotReclaimed (s : AuditWriter α) : AuditEvent α → Prop
  | .worker i .cancel => ∀ w ∈ s.workers[i]?, w = .waiting ∨ w = .collecting → s.pendingBatch = []
  | _ => True

/-! ## What a step of a task can do -/

section Moves
variable {c : AuditWriterConfig} {s t : AuditWriter α} {i : ℕ}

/-- The moves of worker `i`. -/
inductive WorkerMove (s : AuditWriter α) (i : ℕ) :
    AuditWorker α → AuditWorkerEvent → AuditWriter α → Prop
  | enter : WorkerMove s i .created .enter (s.beginBatch i)
  | leave : WorkerMove s i .created .cancel (s.setWorker i .ended)
  | get {w : AuditWorker α} {a : α} {queue : List α} :
      w = .waiting ∨ w = .collecting → s.queue = a :: queue →
      WorkerMove s i w .get
        ({ s with queue, pendingBatch := s.pendingBatch ++ [a] }.setWorker i .collecting)
  /-- The entry fills the batch. -/
  | fill {w : AuditWorker α} {a : α} {queue : List α} :
      w = .waiting ∨ w = .collecting → s.queue = a :: queue →
      WorkerMove s i w .get
        ({ s with queue, pendingBatch := [] }.setWorker i (.inserting (s.pendingBatch ++ [a]) false))
  | reclaim {w : AuditWorker α} :
      w = .waiting ∨ w = .collecting → WorkerMove s i w .cancel (s.reclaim i)
  /-- Another worker took the batch. -/
  | again : s.pendingBatch = [] → WorkerMove s i .collecting .handOver (s.beginBatch i)
  | handOver :
      WorkerMove s i .collecting .handOver
        ({ s with pendingBatch := [] }.setWorker i (.inserting s.pendingBatch false))
  | commit {batch : List α} :
      WorkerMove s i (.inserting batch false) .commit
        ({ s with committed := s.committed ++ batch }.setWorker i (.inserting batch true))
  | finish {batch : List α} {committed : Bool} :
      WorkerMove s i (.inserting batch committed) .finish ((s.taskDone batch).beginBatch i)
  | cancel {batch : List α} {committed : Bool} :
      WorkerMove s i (.inserting batch committed) .cancel ((s.taskDone batch).setWorker i .ended)

theorem getEntry_move {w : AuditWorker α} (hw : w = .waiting ∨ w = .collecting)
    (hs : s.getEntry c i = some t) : WorkerMove s i w .get t := by
  unfold getEntry at hs
  split at hs
  · cases hs
  · next hq =>
    dsimp only at hs
    split at hs
    · exact Option.some.inj hs ▸ .get hw hq
    · exact Option.some.inj hs ▸ .fill hw hq

theorem workerStep_move {w : AuditWorker α} {e : AuditWorkerEvent}
    (hs : s.workerStep c i w e = some t) : WorkerMove s i w e t := by
  cases w with
  | created =>
    cases e with
    | enter => exact Option.some.inj hs ▸ .enter
    | cancel => exact Option.some.inj hs ▸ .leave
    | _ => cases hs
  | waiting =>
    cases e with
    | get => exact getEntry_move (.inl rfl) hs
    | cancel => exact Option.some.inj hs ▸ .reclaim (.inl rfl)
    | _ => cases hs
  | collecting =>
    cases e with
    | get => exact getEntry_move (.inr rfl) hs
    | handOver =>
      simp only [workerStep] at hs
      split at hs
      · next hp => exact Option.some.inj hs ▸ .again hp
      · exact Option.some.inj hs ▸ .handOver
    | cancel => exact Option.some.inj hs ▸ .reclaim (.inr rfl)
    | _ => cases hs
  | inserting batch committed =>
    cases e with
    | commit =>
      cases committed with
      | false => exact Option.some.inj hs ▸ .commit
      | true => cases hs
    | finish => cases committed <;> exact Option.some.inj hs ▸ .finish
    | cancel => cases committed <;> exact Option.some.inj hs ▸ .cancel
    | _ => cases committed <;> cases hs
  | ended => cases e <;> cases hs

/-- The moves of stop `i`. -/
inductive StopMove (s : AuditWriter α) (i : ℕ) :
    AuditStop α → AuditStopEvent → AuditWriter α → Prop
  | drained : StopMove s i .draining .drained (s.setStop i (.awaiting s.workerTask))
  | leave : StopMove s i .draining .cancel (s.setStop i .ended)
  | flush {worker : Option ℕ} {e : AuditStopEvent} :
      StopMove s i (.awaiting worker) e ((s.workerAwaited worker).flushRemaining i)
  | commit {reclaimed drawn : List α} :
      StopMove s i (.flushing reclaimed drawn false) .commit
        ({ s with committed := s.committed ++ (reclaimed ++ drawn) }.setStop i
          (.flushing reclaimed drawn true))
  | finish {reclaimed drawn : List α} {committed : Bool} {e : AuditStopEvent} :
      e = .finish ∨ e = .cancel →
      StopMove s i (.flushing reclaimed drawn committed) e ((s.taskDone drawn).setStop i .ended)

theorem stopStep_move {p : AuditStop α} {e : AuditStopEvent} (hs : s.stopStep i p e = some t) :
    StopMove s i p e t := by
  cases p with
  | draining =>
    cases e with
    | drained => exact Option.some.inj hs ▸ .drained
    | cancel => exact Option.some.inj hs ▸ .leave
    | _ => cases hs
  | awaiting worker =>
    cases e with
    | proceed =>
      simp only [stopStep, Option.ite_none_right_eq_some] at hs
      exact Option.some.inj hs.2 ▸ .flush
    | cancel => exact Option.some.inj hs ▸ .flush
    | _ => cases hs
  | flushing reclaimed drawn committed =>
    cases e with
    | commit =>
      cases committed with
      | false => exact Option.some.inj hs ▸ .commit
      | true => cases hs
    | finish => cases committed <;> exact Option.some.inj hs ▸ .finish (.inl rfl)
    | cancel => cases committed <;> exact Option.some.inj hs ▸ .finish (.inr rfl)
    | _ => cases committed <;> cases hs
  | ended => cases e <;> cases hs

/-- What the tasks do to the drains: they are let go when nothing is left
to be marked. -/
structure TaskFrame (s t : AuditWriter α) : Prop where
  accepted : t.accepted = s.accepted
  committed : s.committed <+: t.committed
  drains : t.drains = s.drains ∨ t.unfinished = 0 ∧ t.drains = s.drains.map AuditDrain.letGo

theorem taskFrame_taskDone (s : AuditWriter α) (entries : List α) :
    TaskFrame s (s.taskDone entries) := by
  refine ⟨rfl, List.prefix_rfl, ?_⟩
  simp only [taskDone]
  split
  · next h => exact .inr ⟨h, rfl⟩
  · exact .inl rfl

theorem WorkerMove.frame {w : AuditWorker α} {e : AuditWorkerEvent} (h : WorkerMove s i w e t) :
    TaskFrame s t := by
  cases h with
  | enter | leave | get | fill | again | handOver => exact ⟨rfl, List.prefix_rfl, .inl rfl⟩
  | commit => exact ⟨rfl, List.prefix_append .., .inl rfl⟩
  | reclaim =>
    obtain ⟨ha, hc, hd⟩ := taskFrame_taskDone
      { s with pendingBatch := [], leftover := s.leftover ++ s.pendingBatch } s.pendingBatch
    exact ⟨ha, hc, hd⟩
  | @finish batch | @cancel batch =>
    obtain ⟨ha, hc, hd⟩ := taskFrame_taskDone s batch
    exact ⟨ha, hc, hd⟩

theorem StopMove.frame {p : AuditStop α} {e : AuditStopEvent} (h : StopMove s i p e t) :
    TaskFrame s t := by
  cases h with
  | drained | leave => exact ⟨rfl, List.prefix_rfl, .inl rfl⟩
  | flush =>
    unfold workerAwaited flushRemaining
    split <;> split <;> exact ⟨rfl, List.prefix_rfl, .inl rfl⟩
  | commit => exact ⟨rfl, List.prefix_append .., .inl rfl⟩
  | @finish _ drawn =>
    obtain ⟨ha, hc, hd⟩ := taskFrame_taskDone s drawn
    exact ⟨ha, hc, hd⟩

/-- Nothing was taken from a cancelled worker. -/
structure Unreclaimed (s : AuditWriter α) : Prop where
  leftover : s.leftover = []
  stops : ∀ p ∈ s.stops, p.reclaimed = []

theorem Unreclaimed.worker {w : AuditWorker α} {e : AuditWorkerEvent} (h : Unreclaimed s)
    (hw : s.workers[i]? = some w) (hn : NotReclaimed s (.worker i e)) (hm : WorkerMove s i w e t) :
    Unreclaimed t := by
  cases hm with
  | reclaim hphase =>
    have hp : s.pendingBatch = [] := hn w hw hphase
    refine ⟨?_, h.stops⟩
    simp [reclaim, taskDone, setWorker, h.leftover, hp]
  | _ => exact ⟨h.leftover, h.stops⟩

theorem Unreclaimed.setStop {p : AuditStop α} (h : Unreclaimed s) (hp : p.reclaimed = []) :
    Unreclaimed (s.setStop i p) := by
  refine ⟨h.leftover, fun q hq => ?_⟩
  obtain hq | rfl := List.mem_or_eq_of_mem_set hq
  · exact h.stops q hq
  · exact hp

theorem Unreclaimed.stopping {p : AuditStop α} {e : AuditStopEvent} (h : Unreclaimed s)
    (hp : s.stops[i]? = some p) (hm : StopMove s i p e t) : Unreclaimed t := by
  cases hm with
  | drained | leave => exact h.setStop rfl
  | flush =>
    unfold workerAwaited flushRemaining
    split <;> split
    · exact Unreclaimed.setStop ⟨h.leftover, h.stops⟩ rfl
    · exact Unreclaimed.setStop ⟨rfl, h.stops⟩ h.leftover
    · exact h.setStop rfl
    · exact Unreclaimed.setStop ⟨rfl, h.stops⟩ h.leftover
  | commit =>
    have hreclaimed := h.stops (.flushing _ _ false) (List.mem_of_getElem? hp)
    exact Unreclaimed.setStop ⟨h.leftover, h.stops⟩ hreclaimed
  | finish => exact Unreclaimed.setStop ⟨h.leftover, h.stops⟩ rfl

end Moves

/-! ## The properties -/

variable [DecidableEq α]

instance (s : AuditWriter α) (e : AuditEvent α) : Decidable (NotReclaimed s e) := by
  unfold NotReclaimed
  split <;> infer_instance

/-- Each accepted entry is in the table once or held once. -/
def Preserved (s : AuditWriter α) : Prop :=
  ∀ x, s.accepted.count x = s.committed.count x + s.held.count x

/-- A drain that returned found what had been enqueued in the table. -/
def DrainsCommitted (s : AuditWriter α) : Prop :=
  ∀ d ∈ s.drains, d.phase = .returned → ∀ x, d.before.count x ≤ s.committed.count x

/-! ## No entry is lost -/

section Sound
variable {c : AuditWriterConfig} {s t : AuditWriter α} {i : ℕ}

/-- What holds after every run of steps that keep the entries. -/
structure Sound (s : AuditWriter α) : Prop where
  preserved : Preserved s
  counted : s.unfinished = s.unmarked.length

/-- A worker's step moves entries between its hands, the queue, the batch,
the leftover and the table. -/
theorem Sound.of_worker {w w' : AuditWorker α} (h : Sound s) (hw : s.workers[i]? = some w)
    (hworkers : t.workers = s.workers.set i w') (hstops : t.stops = s.stops)
    (haccepted : t.accepted = s.accepted)
    (hmoved : ∀ x, (t.committed ++ t.queue ++ t.pendingBatch ++ t.leftover ++ w'.uncommitted).count x =
      (s.committed ++ s.queue ++ s.pendingBatch ++ s.leftover ++ w.uncommitted).count x)
    (hmarked : t.unfinished + (s.queue ++ s.pendingBatch ++ w.batch).length =
      s.unfinished + (t.queue ++ t.pendingBatch ++ w'.batch).length) : Sound t := by
  constructor
  · intro x
    have hset := count_flatMap_set (f := AuditWorker.uncommitted) hw w' x
    have hold := h.preserved x
    have hmove := hmoved x
    simp only [held, List.count_append, hworkers, hstops, haccepted] at hold hmove ⊢
    omega
  · have hset := length_flatMap_set (f := AuditWorker.batch) hw w'
    have hold := h.counted
    simp only [unmarked, List.length_append, hworkers, hstops] at hold hmarked ⊢
    omega

theorem Sound.of_stop {p p' : AuditStop α} (h : Sound s) (hp : s.stops[i]? = some p)
    (hstops : t.stops = s.stops.set i p') (hworkers : t.workers = s.workers)
    (haccepted : t.accepted = s.accepted)
    (hmoved : ∀ x, (t.committed ++ t.queue ++ t.pendingBatch ++ t.leftover ++ p'.uncommitted).count x =
      (s.committed ++ s.queue ++ s.pendingBatch ++ s.leftover ++ p.uncommitted).count x)
    (hmarked : t.unfinished + (s.queue ++ s.pendingBatch ++ p.drawn).length =
      s.unfinished + (t.queue ++ t.pendingBatch ++ p'.drawn).length) : Sound t := by
  constructor
  · intro x
    have hset := count_flatMap_set (f := AuditStop.uncommitted) hp p' x
    have hold := h.preserved x
    have hmove := hmoved x
    simp only [held, List.count_append, hworkers, hstops, haccepted] at hold hmove ⊢
    omega
  · have hset := length_flatMap_set (f := AuditStop.drawn) hp p'
    have hold := h.counted
    simp only [unmarked, List.length_append, hworkers, hstops] at hold hmarked ⊢
    omega

/-- What a worker has to mark done is still counted. -/
theorem Sound.batch_le {w : AuditWorker α} (h : Sound s) (hw : s.workers[i]? = some w) :
    w.batch.length ≤ s.unfinished := by
  have hle := length_le_flatMap (f := AuditWorker.batch) hw
  have hold := h.counted
  simp only [unmarked, List.length_append] at hold
  omega

theorem Sound.drawn_le {p : AuditStop α} (h : Sound s) (hp : s.stops[i]? = some p) :
    p.drawn.length ≤ s.unfinished := by
  have hle := length_le_flatMap (f := AuditStop.drawn) hp
  have hold := h.counted
  simp only [unmarked, List.length_append] at hold
  omega

theorem Sound.pending_le (h : Sound s) : s.pendingBatch.length ≤ s.unfinished := by
  have hold := h.counted
  simp only [unmarked, List.length_append] at hold
  omega

theorem Sound.worker {w : AuditWorker α} {e : AuditWorkerEvent} (h : Sound s)
    (hw : s.workers[i]? = some w) (hk : s.WorkerKept w e) (hm : WorkerMove s i w e t) : Sound t := by
  cases hm with
  | enter =>
    have hp : s.pendingBatch = [] := hk
    exact h.of_worker hw rfl rfl rfl (fun x => by rw [hp]; rfl) (by rw [hp]; rfl)
  | again hp => exact h.of_worker hw rfl rfl rfl (fun x => by rw [hp]; rfl) (by rw [hp]; rfl)
  | leave => exact h.of_worker hw rfl rfl rfl (fun x => rfl) rfl
  | get hphase hq =>
    obtain ⟨huncommitted, hbatch⟩ := AuditWorker.idle hphase
    refine h.of_worker hw rfl rfl rfl (fun x => ?_) ?_
    · rw [huncommitted]
      simp only [setWorker, hq, AuditWorker.uncommitted, List.count_append, List.count_cons,
        List.count_nil]
      omega
    · rw [hbatch]
      simp only [setWorker, hq, AuditWorker.batch, List.length_append, List.length_cons,
        List.length_nil]
      omega
  | fill hphase hq =>
    obtain ⟨huncommitted, hbatch⟩ := AuditWorker.idle hphase
    refine h.of_worker hw rfl rfl rfl (fun x => ?_) ?_
    · rw [huncommitted]
      simp only [setWorker, hq, AuditWorker.uncommitted, List.count_append, List.count_cons,
        List.count_nil]
      omega
    · rw [hbatch]
      simp only [setWorker, hq, AuditWorker.batch, List.length_append, List.length_cons,
        List.length_nil]
      omega
  | reclaim hphase =>
    obtain ⟨huncommitted, hbatch⟩ := AuditWorker.idle hphase
    have hle := h.pending_le
    refine h.of_worker hw rfl rfl rfl (fun x => ?_) ?_
    · rw [huncommitted]
      simp only [reclaim, setWorker, taskDone, AuditWorker.uncommitted, List.count_append,
        List.count_nil]
      omega
    · rw [hbatch]
      simp only [reclaim, setWorker, taskDone, AuditWorker.batch, List.length_append,
        List.length_nil]
      omega
  | handOver =>
    refine h.of_worker hw rfl rfl rfl (fun x => ?_) ?_
    · simp only [setWorker, AuditWorker.uncommitted, List.count_append, List.count_nil]
      omega
    · simp only [setWorker, AuditWorker.batch, List.length_append, List.length_nil]
      omega
  | commit =>
    refine h.of_worker hw rfl rfl rfl (fun x => ?_) rfl
    simp only [setWorker, AuditWorker.uncommitted, List.count_append, List.count_nil]
    omega
  | @finish batch committed =>
    have hle : batch.length ≤ s.unfinished := h.batch_le hw
    cases committed with
    | false => exact hk.elim
    | true =>
      have hp : s.pendingBatch = [] := hk
      refine h.of_worker hw rfl rfl rfl (fun x => by rw [hp]; rfl) ?_
      rw [hp]
      simp only [beginBatch, taskDone, setWorker, AuditWorker.batch, List.length_append,
        List.length_nil]
      omega
  | @cancel batch committed =>
    have hle : batch.length ≤ s.unfinished := h.batch_le hw
    cases committed with
    | false => exact hk.elim
    | true =>
      refine h.of_worker hw rfl rfl rfl (fun x => rfl) ?_
      simp only [taskDone, setWorker, AuditWorker.batch, List.length_append, List.length_nil]
      omega

/-- The last flush takes what was left and what is in the queue. -/
theorem Sound.flushRemaining {worker : Option ℕ} (h : Sound s)
    (hp : s.stops[i]? = some (.awaiting worker)) : Sound (s.flushRemaining i) := by
  unfold AuditWriter.flushRemaining
  split
  · exact h.of_stop hp rfl rfl rfl (fun x => rfl) rfl
  · refine h.of_stop hp rfl rfl rfl (fun x => ?_) ?_
    · simp only [setStop, AuditStop.uncommitted, List.count_append, List.count_nil]
      omega
    · simp only [setStop, AuditStop.drawn, List.length_append, List.length_nil]
      omega

theorem Sound.stopping {p : AuditStop α} {e : AuditStopEvent} (h : Sound s)
    (hp : s.stops[i]? = some p) (hk : StopKept p e) (hm : StopMove s i p e t) : Sound t := by
  cases hm with
  | drained | leave => exact h.of_stop hp rfl rfl rfl (fun x => rfl) rfl
  | flush =>
    unfold workerAwaited
    split
    · exact Sound.flushRemaining ⟨h.preserved, h.counted⟩ hp
    · exact h.flushRemaining hp
  | commit =>
    refine h.of_stop hp rfl rfl rfl (fun x => ?_) rfl
    simp only [setStop, AuditStop.uncommitted, List.count_append, List.count_nil]
    omega
  | @finish reclaimed drawn committed _ he =>
    have hle : drawn.length ≤ s.unfinished := h.drawn_le hp
    cases committed with
    | false => obtain rfl | rfl := he <;> exact hk.elim
    | true =>
      refine h.of_stop hp rfl rfl rfl (fun x => rfl) ?_
      simp only [taskDone, setStop, AuditStop.drawn, List.length_append, List.length_nil]
      omega

/-- **One step.** -/
theorem Sound.step {e : AuditEvent α} (h : Sound s) (hk : Kept s e) (hs : s.step c e = some t) :
    Sound t := by
  cases e with
  | start =>
    simp only [AuditWriter.step] at hs
    split at hs
    · exact Option.some.inj hs ▸ h
    · obtain rfl := Option.some.inj hs
      refine ⟨fun x => ?_, ?_⟩
      · simpa [held, AuditWorker.uncommitted] using h.preserved x
      · simpa [unmarked, AuditWorker.batch] using h.counted
  | enqueue entry =>
    simp only [AuditWriter.step, Option.ite_none_right_eq_some] at hs
    obtain rfl := Option.some.inj hs.2
    refine ⟨fun x => ?_, ?_⟩
    · have hx := h.preserved x
      simp only [held, List.count_append] at hx ⊢
      omega
    · have hx := h.counted
      simp only [unmarked, List.length_append, List.length_singleton] at hx ⊢
      omega
  | stop =>
    simp only [AuditWriter.step] at hs
    split at hs
    · obtain rfl := Option.some.inj hs
      refine ⟨fun x => ?_, ?_⟩
      · simpa [held, AuditStop.uncommitted] using h.preserved x
      · simpa [unmarked, AuditStop.drawn] using h.counted
    · exact Option.some.inj hs ▸ h
  | worker i e =>
    obtain ⟨w, hw, hstep⟩ := Option.bind_eq_some_iff.mp hs
    exact h.worker hw (hk w hw) (workerStep_move hstep)
  | stopping i e =>
    obtain ⟨p, hp, hstep⟩ := Option.bind_eq_some_iff.mp hs
    exact h.stopping hp (hk p hp) (stopStep_move hstep)
  | logSync entry | drain =>
    obtain rfl := Option.some.inj hs
    exact ⟨h.preserved, h.counted⟩
  | drainReturns i | drainRaises i =>
    obtain ⟨d, -, hd⟩ := Option.bind_eq_some_iff.mp hs
    split at hd
    all_goals first
      | cases hd
        done
      | obtain rfl := Option.some.inj hd
        exact ⟨h.preserved, h.counted⟩

end Sound

/-! ## What a drain finds -/

section Drains
variable {c : AuditWriterConfig} {s t : AuditWriter α} {i : ℕ}

/-- When nothing is left to be marked, everything is in the table. -/
theorem Sound.all_committed (h : Sound s) (hr : Unreclaimed s) (hdone : s.unfinished = 0) (x : α) :
    s.accepted.count x = s.committed.count x := by
  have hnil : s.unmarked = [] := List.length_eq_zero_iff.mp (h.counted ▸ hdone)
  simp only [unmarked, List.append_eq_nil_iff, List.flatMap_eq_nil_iff] at hnil
  obtain ⟨⟨⟨hqueue, hpending⟩, hworkers⟩, hstops⟩ := hnil
  have hheld : s.held = [] := by
    simp only [held, List.append_eq_nil_iff, List.flatMap_eq_nil_iff]
    refine ⟨⟨⟨⟨hqueue, hpending⟩, hr.leftover⟩, fun w hw => ?_⟩, fun p hp => ?_⟩
    · have hb := hworkers w hw
      unfold AuditWorker.uncommitted
      split <;> simp_all [AuditWorker.batch]
    · have hd := hstops p hp
      have hr := hr.stops p hp
      unfold AuditStop.uncommitted
      split <;> simp_all [AuditStop.drawn, AuditStop.reclaimed]
  simpa [hheld] using h.preserved x

/-- What a drain that is still wanted can rely on. -/
def DrainSound (s : AuditWriter α) (d : AuditDrain α) : Prop :=
  match d.phase with
  | .waiting => ∀ x, d.before.count x ≤ s.accepted.count x
  | .letGo | .returned => ∀ x, d.before.count x ≤ s.committed.count x
  | .raised => True

theorem DrainSound.mono {d : AuditDrain α} (h : DrainSound s d)
    (ha : ∀ x, s.accepted.count x ≤ t.accepted.count x)
    (hc : ∀ x, s.committed.count x ≤ t.committed.count x) : DrainSound t d := by
  unfold DrainSound at h ⊢
  split at h
  · exact fun x => Nat.le_trans (h x) (ha x)
  · exact fun x => Nat.le_trans (h x) (hc x)
  · exact fun x => Nat.le_trans (h x) (hc x)
  · trivial

/-- A drain is let go when everything is in the table. -/
theorem DrainSound.letGo {d : AuditDrain α} (h : DrainSound s d)
    (hall : ∀ x, s.accepted.count x = s.committed.count x) : DrainSound s d.letGo := by
  unfold AuditDrain.letGo
  split
  · next hd =>
    simp only [DrainSound, hd] at h
    exact fun x => Nat.le_trans (h x) (Nat.le_of_eq (hall x))
  · exact h

/-- What holds after every run that also takes nothing from a cancelled
worker. -/
structure Drainable (s : AuditWriter α) : Prop extends Sound s where
  unreclaimed : Unreclaimed s
  drains : ∀ d ∈ s.drains, DrainSound s d

theorem Drainable.of_frame (h : Drainable s) (hsound : Sound t) (hr : Unreclaimed t)
    (hf : TaskFrame s t) : Drainable t := by
  refine ⟨hsound, hr, ?_⟩
  have hmono : ∀ d ∈ s.drains, DrainSound t d := fun d hd =>
    (h.drains d hd).mono (fun x => by simp [hf.accepted]) fun x => hf.committed.sublist.count_le x
  obtain hd | ⟨hdone, hd⟩ := hf.drains
  · rw [hd]
    exact hmono
  · rw [hd]
    intro d' hd'
    obtain ⟨d, hd, rfl⟩ := List.mem_map.mp hd'
    exact (hmono d hd).letGo (hsound.all_committed hr hdone)

/-- A drain moves on. -/
theorem Drainable.set_drain {d d' : AuditDrain α} (h : Drainable s) (hd : s.drains[i]? = some d)
    (hd' : DrainSound s d → DrainSound s d') : Drainable { s with drains := s.drains.set i d' } := by
  refine ⟨⟨h.preserved, h.counted⟩, ⟨h.unreclaimed.leftover, h.unreclaimed.stops⟩, fun b hb => ?_⟩
  obtain hb | rfl := List.mem_or_eq_of_mem_set hb
  · exact h.drains b hb
  · exact hd' (h.drains d (List.mem_of_getElem? hd))

/-- A new drain returns at once when there is nothing to wait for. -/
theorem Drainable.newDrain (h : Drainable s) :
    DrainSound s ⟨s.accepted, if s.unfinished = 0 then .returned else .waiting⟩ := by
  by_cases hdone : s.unfinished = 0
  · have hall := h.toSound.all_committed h.unreclaimed hdone
    simpa [DrainSound, hdone] using fun x => Nat.le_of_eq (hall x)
  · simp [DrainSound, hdone]

theorem Drainable.step {e : AuditEvent α} (h : Drainable s) (hk : Kept s e) (hn : NotReclaimed s e)
    (hs : s.step c e = some t) : Drainable t := by
  have hsound := h.toSound.step hk hs
  cases e with
  | start =>
    simp only [AuditWriter.step] at hs
    split at hs
    · exact Option.some.inj hs ▸ h
    · obtain rfl := Option.some.inj hs
      exact ⟨hsound, ⟨h.unreclaimed.leftover, h.unreclaimed.stops⟩, h.drains⟩
  | enqueue entry =>
    simp only [AuditWriter.step, Option.ite_none_right_eq_some] at hs
    obtain rfl := Option.some.inj hs.2
    refine ⟨hsound, ⟨h.unreclaimed.leftover, h.unreclaimed.stops⟩, fun d hd => ?_⟩
    refine (h.drains d hd).mono (fun x => ?_) fun x => Nat.le_refl _
    simp [List.count_append]
  | stop =>
    simp only [AuditWriter.step] at hs
    split at hs
    · obtain rfl := Option.some.inj hs
      refine ⟨hsound, ⟨h.unreclaimed.leftover, fun p hp => ?_⟩, h.drains⟩
      obtain hp | hp := List.mem_append.mp hp
      · exact h.unreclaimed.stops p hp
      · obtain rfl := List.mem_singleton.mp hp
        rfl
    · exact Option.some.inj hs ▸ h
  | worker i e =>
    obtain ⟨w, hw, hstep⟩ := Option.bind_eq_some_iff.mp hs
    have hm := workerStep_move hstep
    exact h.of_frame hsound (h.unreclaimed.worker hw hn hm) hm.frame
  | stopping i e =>
    obtain ⟨p, hp, hstep⟩ := Option.bind_eq_some_iff.mp hs
    have hm := stopStep_move hstep
    exact h.of_frame hsound (h.unreclaimed.stopping hp hm) hm.frame
  | logSync entry =>
    obtain rfl := Option.some.inj hs
    exact ⟨hsound, ⟨h.unreclaimed.leftover, h.unreclaimed.stops⟩, h.drains⟩
  | drain =>
    obtain rfl := Option.some.inj hs
    refine ⟨hsound, ⟨h.unreclaimed.leftover, h.unreclaimed.stops⟩, fun d hd => ?_⟩
    obtain hd | hd := List.mem_append.mp hd
    · exact h.drains d hd
    · exact List.mem_singleton.mp hd ▸ h.newDrain
  | drainReturns i =>
    obtain ⟨d, hd, hstep⟩ := Option.bind_eq_some_iff.mp hs
    split at hstep
    · next hphase =>
      obtain rfl := Option.some.inj hstep
      exact h.set_drain hd fun hsound => by simpa [DrainSound, hphase] using hsound
    · cases hstep
  | drainRaises i =>
    obtain ⟨d, hd, hstep⟩ := Option.bind_eq_some_iff.mp hs
    split at hstep
    · obtain rfl := Option.some.inj hstep
      exact h.set_drain hd fun _ => trivial
    · obtain rfl := Option.some.inj hstep
      exact h.set_drain hd fun _ => trivial
    · cases hstep

end Drains

/-! ## Every run -/

theorem sound_init : Sound ({} : AuditWriter α) := ⟨fun _ => rfl, rfl⟩

theorem drainable_init : Drainable ({} : AuditWriter α) :=
  ⟨sound_init, ⟨rfl, by simp⟩, by simp⟩

/-- **Nothing is lost, nothing twice.** In every run whose inserts are not
ended before their commit, each accepted entry is in the table once or held
once; when also no worker is cancelled with entries in its hands, a drain
that returns found what had been enqueued in the table. -/
theorem preserved_of_run (c : AuditWriterConfig) (es : List (AuditEvent α)) (s : AuditWriter α) :
    (RunWhere (AuditWriter.step c) Kept {} es s → Preserved s) ∧
      (RunWhere (AuditWriter.step c) (fun s e => Kept s e ∧ NotReclaimed s e) {} es s →
        DrainsCommitted s) := by
  constructor
  · intro h
    have hsound := h.invariant_state Sound sound_init fun t e u ht hk hs => ht.step hk hs
    exact hsound.preserved
  · intro h
    have hdrain := h.invariant_state Drainable drainable_init fun t e u ht hk hs =>
      ht.step hk.1 hk.2 hs
    intro d hd hphase x
    have hd := hdrain.drains d hd
    simp only [DrainSound, hphase] at hd
    exact hd x

/-- An entry is enqueued, inserted and drained. -/
def insertedRun : List (AuditEvent ℕ) :=
  [.start, .enqueue 1, .drain, .worker 0 .enter, .worker 0 .get, .worker 0 .handOver,
    .worker 0 .commit, .worker 0 .finish, .drainReturns 0]

theorem preserved_of_run_inserted : ∃ s,
    RunWhere (AuditWriter.step ⟨10, 5⟩) (fun s e => Kept s e ∧ NotReclaimed s e) {} insertedRun s ∧
      s.drains = [⟨[1], .returned⟩] ∧ Preserved s ∧ DrainsCommitted s := by
  obtain ⟨s, hrun, hd⟩ := RunWhere.exists_of_checked (AuditWriter.step ⟨10, 5⟩)
    (fun s e => Kept s e ∧ NotReclaimed s e) {} insertedRun
    (fun s => s.drains = [⟨[1], .returned⟩]) (by decide) (by decide)
  exact ⟨s, hrun, by simpa using hd, (preserved_of_run _ _ s).1 (hrun.mono fun _ _ => And.left),
    (preserved_of_run _ _ s).2 hrun⟩

/-- The insert fails, and the drain is let go all the same. -/
theorem failed_insert_lost : ∃ s,
    Run (AuditWriter.step ⟨10, 5⟩) ({} : AuditWriter ℕ)
      [.start, .enqueue 1, .drain, .worker 0 .enter, .worker 0 .get, .worker 0 .handOver,
        .worker 0 .finish, .drainReturns 0] s ∧
      ¬ Preserved s ∧ ¬ DrainsCommitted s := by
  obtain ⟨s, hrun, hs⟩ := Run.exists_of_exec (AuditWriter.step ⟨10, 5⟩) ({} : AuditWriter ℕ)
    [.start, .enqueue 1, .drain, .worker 0 .enter, .worker 0 .get, .worker 0 .handOver,
      .worker 0 .finish, .drainReturns 0]
    (fun s => s.accepted = [1] ∧ s.committed = [] ∧ s.held = [] ∧ s.drains = [⟨[1], .returned⟩])
    (by decide)
  obtain ⟨ha, hc, hh, hd⟩ := of_decide_eq_true hs
  refine ⟨s, hrun, fun h => ?_, fun h => ?_⟩
  · simpa [ha, hc, hh] using h 1
  · simpa [hc] using h ⟨[1], .returned⟩ (by simp [hd]) rfl 1

end AuditWriter

end TdSandboxed
