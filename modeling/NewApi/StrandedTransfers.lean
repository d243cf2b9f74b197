import NewApi.TaskLifecycle

/-!
# Transfers that nobody serves

A task that waits for its media is skipped by the poller and by the sweep, so only a worker
can move it on, through its job. An enqueue writes the mark and the job in one transaction.
The poller's fallback marks the copy alone, after a failed upload of a video.
-/
namespace NewApi
open LifecycleState

/-- The task that waits has an open job, and a task with a job has a transfer state. -/
structure RowServed (w : World) (k : ℤ) (t : Task) : Prop where
  served : t.mediaTransferState = some .pending → ∃ id j, w.jobOfTask k = some id ∧
    w.jobs id = some j ∧ j.status.taskState = .pending
  marked : (∃ id, w.jobOfTask k = some id) → t.mediaTransferState ≠ none

def TransfersServed (w : World) : Prop := ∀ k t, w.tasks k = some t → RowServed w k t

/-- A fetch is about to write a marked copy only if the job is there. -/
def CopiesServed (s : LifecycleState) : Prop :=
  ∀ f ∈ s.fetches, ∀ t, f.stage = .writing t → t.mediaTransferState ≠ none →
    ∃ id, s.world.jobOfTask t.id = some id

/-- The upload does not make the fetch mark its copy. -/
def Fetch.storesMedia (u : UploadResult) (f : Fetch) : Bool :=
  match f.stage with
  | .uploading t => t.isImage || decide (u ≠ .failed)
  | _ => true

open Fetch

/-- No fallback upload of a video fails. -/
def MediaKept : LifecycleCall → LifecycleState → Prop
  | .upload n u, s => (s.fetches[n]?).all (storesMedia u) = true
  | _, _ => True

instance MediaKept.decidable (call s) : Decidable (MediaKept call s) := by
  induction call using LifecycleCall.casesOn <;> dsimp only [MediaKept] <;> infer_instance

section Rows
variable {w w' : World}

theorem RowServed.of_eq {k : ℤ} {t q : Task} (h : RowServed w k t) (hjobs : w'.jobs = w.jobs)
    (hidx : w'.jobOfTask = w.jobOfTask) (hmed : q.mediaTransferState = t.mediaTransferState) :
    RowServed w' k q := by
  refine ⟨?_, ?_⟩
  · rw [hjobs, hidx, hmed]
    exact h.served
  · rw [hidx, hmed]
    exact h.marked

section
variable (h : TransfersServed w)
include h

theorem TransfersServed.withRow (k : ℤ) (hjobs : w'.jobs = w.jobs)
    (hidx : w'.jobOfTask = w.jobOfTask) (hoth : ∀ j, j ≠ k → w'.tasks j = w.tasks j)
    (hrow : ∀ t, w'.tasks k = some t → RowServed w' k t) : TransfersServed w' := by
  intro j t ht
  by_cases hj : j = k
  · subst hj
    exact hrow t ht
  · rw [hoth j hj] at ht
    exact (h j t ht).of_eq hjobs hidx rfl

theorem TransfersServed.modify (k : ℤ) {g : Task → Task}
    (hmed : ∀ t, (g t).mediaTransferState = t.mediaTransferState)
    (htsk : w'.tasks = w.tasks.modify k g) (hjobs : w'.jobs = w.jobs)
    (hidx : w'.jobOfTask = w.jobOfTask) : TransfersServed w' := by
  refine h.withRow k hjobs hidx (fun j hj => ?_) fun t ht => ?_
  · rw [htsk]
    exact Table.modify_of_ne _ _ hj
  · rw [htsk, Table.modify_self] at ht
    obtain ⟨r, hr, rfl⟩ := Option.map_eq_some_iff.mp ht
    exact (h k r hr).of_eq hjobs hidx (hmed r)

theorem TransfersServed.put {q r : Task} (now : ℤ)
    (hr : w.tasks q.id = some r) (hmed : q.mediaTransferState = r.mediaTransferState) :
    TransfersServed { w with tasks := w.tasks.put q.id { q with updatedAt := now } } := by
  refine h.withRow q.id rfl rfl (fun j hj => Table.put_of_ne _ _ hj) fun t ht => ?_
  dsimp only at ht
  rw [Table.put_self] at ht
  cases ht
  exact (h q.id r hr).of_eq rfl rfl hmed

theorem TransfersServed.change (hw : JobsIndexed w) {id : ℤ}
    {j : MediaTransferJob} {f : MediaTransferJob → MediaTransferJob} {g : Task → Task}
    (hj : w.jobs id = some j)
    (hrow : ∀ r : Task, r.mediaTransferState ≠ none → (g r).mediaTransferState ≠ none ∧
      ((g r).mediaTransferState = some .pending → (f j).status.taskState = .pending)) :
    TransfersServed { w with
      jobs := w.jobs.modify id f
      tasks := w.tasks.modify j.taskRecordID g } := by
  intro k t ht
  have hidx := hw.indexed id j hj
  dsimp only at ht
  by_cases hk : k = j.taskRecordID
  · subst hk
    rw [Table.modify_self] at ht
    obtain ⟨r, hr, rfl⟩ := Option.map_eq_some_iff.mp ht
    obtain ⟨hmarked, hopen⟩ := hrow r ((h _ r hr).marked ⟨id, hidx⟩)
    exact ⟨fun hpend => ⟨id, f j, hidx, by simp [hj], hopen hpend⟩, fun _ => hmarked⟩
  -- the job of another task is another job
  rw [Table.modify_of_ne _ _ hk] at ht
  refine ⟨fun hpend => ?_, (h k t ht).marked⟩
  obtain ⟨id', j', hid', hj', hopen⟩ := (h k t ht).served hpend
  have hne : id' ≠ id := by
    rintro rfl
    obtain ⟨j'', hj'', hk''⟩ := hw.job k id' hid'
    rw [hj, Option.some.injEq] at hj''
    exact hk (hj'' ▸ hk''.symm)
  exact ⟨id', j', hid', (Table.modify_of_ne _ _ hne).trans hj', hopen⟩

theorem TransfersServed.enqueued (hw : JobsIndexed w) {t : Task} (now : ℤ)
    (input : MediaTransferSource) (hmed : t.mediaTransferState = some .pending) :
    TransfersServed (w.enqueued now t input) := by
  intro k q hq
  simp only [World.enqueued] at hq
  by_cases hk : k = t.id
  · subst hk
    rw [Table.modify_self] at hq
    obtain ⟨r, -, rfl⟩ := Option.map_eq_some_iff.mp hq
    refine ⟨fun _ => ⟨w.nextJobId, _, Table.put_self _ _ _, Table.put_self _ _ _, rfl⟩, fun _ => ?_⟩
    simp [Task.enqueuedFrom, hmed]
  rw [Table.modify_of_ne _ _ hk] at hq
  have hidx : (w.enqueued now t input).jobOfTask k = w.jobOfTask k := Table.put_of_ne _ _ hk
  refine ⟨fun hpend => ?_, ?_⟩
  · obtain ⟨id, j, hid, hj, hopen⟩ := (h k q hq).served hpend
    have hlt := hw.below id j hj
    exact ⟨id, j, hidx.trans hid, (Table.put_of_ne _ _ (by omega)).trans hj, hopen⟩
  · rw [hidx]
    exact (h k q hq).marked

end

end Rows

@[simp] theorem TaskWrite.result_media (k : TaskWrite) (now : ℤ) (t : Task) :
    (k.result now t).mediaTransferState = t.mediaTransferState := by
  cases k with
  | sweep cutoff reason legacyReason =>
    simp only [TaskWrite.result, Task.timedOut]
    split_ifs <;> rfl
  | _ => rfl

section Steps
variable {call : LifecycleCall} {s : LifecycleState}

/-- Workers and administrators keep a job open while its task waits. -/
theorem TransfersServed.transferred {mediaCall : LeaseCall} {l l' : LeaseState}
    (heff : LeaseEffect mediaCall l l') (hnot : mediaCall.isEnqueue = false) (hl : LeasesGranted l)
    (h : TransfersServed l.world) : TransfersServed l'.world := by
  cases heff with
  | unchanged => exact h
  | enqueued hcall =>
    subst hcall
    cases hnot
  | claimed hcall hj hdue =>
    rename_i env id token j
    have hsame : l.world.tasks.modify j.taskRecordID (fun t => t) = l.world.tasks :=
      Table.modify_id _ _ fun _ _ => rfl
    have hch := h.change hl.jobs (f := MediaTransferJob.claimed env.now token)
      (g := fun t => t) hj fun r hr => ⟨hr, fun _ => rfl⟩
    rw [hsame] at hch
    exact hch
  | held hlease hj hheld hkeep hst =>
    rename_i lease j f g
    rw [← hl.named lease (LeaseCall.lease_mem hlease) j hj]
    refine h.change hl.jobs hj fun r hr => ?_
    rcases hst with ⟨hs, -, rfl⟩ | ⟨hs, rfl⟩ | ⟨-, now, rfl⟩ | ⟨-, now, url, data, rfl⟩
    · exact ⟨hr, fun _ => by rw [hs]; rfl⟩
    · exact ⟨hr, fun _ => by rw [hs]; rfl⟩
    · exact ⟨by simp [Task.mediaFailed], by simp [Task.mediaFailed]⟩
    · exact ⟨by simp [Task.published], by simp [Task.published]⟩
  | reopened hcall hj hopen hkeep hpend =>
    exact h.change hl.jobs hj fun r _ => ⟨by simp [Task.mediaReopened], fun _ => by
      rw [hpend]; rfl⟩

theorem TransfersServed.step (hinv : LifecycleInvariant s) (hcop : CopiesServed s)
    (h : TransfersServed s.world) : TransfersServed (s.step call).world := by
  obtain ⟨l, heff, hwd⟩ := call.effect_world s
  rw [hwd]
  cases heff with
  | unchanged => exact h
  | submitted hid hbill hsta hmed =>
    rename_i t
    refine h.withRow t.id rfl rfl (fun j hj => Table.put_of_ne _ _ hj) fun q hq => ?_
    dsimp only at hq
    rw [Table.put_self] at hq
    cases hq
    refine ⟨fun hpend => by simp [hmed] at hpend, fun ⟨id, hjob⟩ => ?_⟩
    have hlt := hinv.jobsBelow _ _ hjob
    omega
  | written hcall htk hr hg =>
    rename_i k env t r
    obtain ⟨-, -, -, hmed⟩ := guards_snapshot hg
    exact h.put env.now hr ((k.result_media env.now t).trans hmed.symm)
  | finished hcall hf hst hr hg =>
    rename_i n env f t r
    replace hf := List.mem_of_getElem? hf
    obtain ⟨-, -, -, hmed⟩ := guards_snapshot hg
    have hkept := (hinv.fetches f hf).writing hst
    obtain ⟨hid, -, hfin, -⟩ := f.final_cases t
    have hnone : r.mediaTransferState = none := hmed.trans hkept.1
    refine h.put env.now hr (hfin.trans ?_)
    -- a marked copy cannot win: its task has a job, so the row is marked too
    by_contra hne
    rw [hnone] at hne
    rw [hid] at hr
    exact (h t.id r hr).marked (hcop f hf t hst hne) hnone
  | enqueued hcall hf hst hr hprev hnone => exact h.enqueued hinv.leases.jobs _ _ rfl
  | billed hcall hnext htgt hb =>
    obtain ⟨hjobs, hidx, -, -⟩ := hb.media
    exact h.modify (g := Task.billed _ _ _) _ (fun _ => rfl) hb.tasks hjobs hidx
  | rescheduled => exact h.modify (g := Task.retryScheduled _ _ _) _ (fun _ => rfl) rfl rfl rfl
  | transferred hnot heff => exact h.transferred heff hnot hinv.leases

theorem step_jobOfTask {k : ℤ} (h : ∃ id, s.world.jobOfTask k = some id) :
    ∃ id, (s.step call).world.jobOfTask k = some id := by
  obtain ⟨l, heff, hwd⟩ := call.effect_world s
  rw [hwd]
  cases heff with
  | enqueued hcall hf hst hr hprev hnone =>
    rename_i n env ready input f t previous r
    by_cases hk : k = t.id
    · exact ⟨s.world.nextJobId, by subst hk; exact Table.put_self _ _ _⟩
    · obtain ⟨id, hid⟩ := h
      exact ⟨id, (Table.put_of_ne _ _ hk).trans hid⟩
  | billed hcall hnext htgt hb =>
    rw [hb.media.2.1]
    exact h
  | transferred hnot heff =>
    rw [(heff.inPlace hnot).1]
    exact h
  | _ => exact h

/-- An upload under the condition leaves the copy unmarked. -/
theorem Fetch.uploaded_clean {f : Fetch} {t : Task} {u : UploadResult} (hf : f.Kept)
    (hst : f.stage = .uploading t) (hok : f.storesMedia u = true) :
    (f.uploaded t u).mediaTransferState = none := by
  have hmed := (hf.uploading hst).2.media
  unfold storesMedia at hok
  simp only [hst, Bool.or_eq_true, decide_eq_true_eq] at hok
  unfold uploaded
  cases u with
  | disabled | returned url => exact (withMedia_media _ t _).trans hmed
  | failed =>
    have himage : t.isImage = true := hok.resolve_right fun h => h rfl
    dsimp only
    rw [if_pos himage]
    exact (withMedia_media _ t _).trans hmed

theorem CopiesServed.step (hinv : LifecycleInvariant s) (hok : MediaKept call s)
    (h : CopiesServed s) : CopiesServed (s.step call) := by
  intro g hg q hwr hmarked
  rcases call.fetches s hg with hold | hnew
  · exact step_jobOfTask (h g hold q hwr hmarked)
  cases hnew with
  | begun hcall hkept hcln =>
    rw [hwr] at hcln
    exact absurd hcln hmarked
  | ended => cases hwr
  | enqueued hcall hf hst =>
    -- an enqueue leads to an upload, or to the end
    unfold Fetch.enqueued at hwr
    dsimp only at hwr
    split at hwr <;> cases hwr
  | uploaded hcall hf hst =>
    subst hcall
    simp only [MediaKept, hf, Option.all_some] at hok
    have hcln := uploaded_clean (hinv.fetches _ (List.mem_of_getElem? hf)) hst hok
    cases hwr
    exact absurd hcln hmarked

end Steps

/-- An open job can be claimed from some time on. -/
theorem MediaTransferJob.due_of_open {j : MediaTransferJob} (h : j.status.taskState = .pending) :
    ∃ time, ∀ now, time ≤ now → j.due now = true := by
  unfold MediaTransferJob.due
  cases hs : j.status with
  | pending | retry => exact ⟨j.nextRetryAt, fun now hle => by simp [hle]⟩
  | processing => exact ⟨j.leaseUntil, fun now hle => by simp [hle]⟩
  | ready | failed => simp [hs, MediaTransferStatus.taskState] at h

/-- The task has a job in progress or waiting, which a worker can claim from some time on. -/
def Served (w : World) (k : ℤ) : Prop :=
  ∃ id j, w.jobs id = some j ∧ j.taskRecordID = k ∧
    (j.status = .pending ∨ j.status = .processing ∨ j.status = .retry) ∧
    ∃ time, ∀ now, time ≤ now → j.due now = true

theorem RowServed.exists_job {w : World} (hw : JobsIndexed w) {k : ℤ} {t : Task}
    (h : RowServed w k t) (hpend : t.mediaTransferState = some .pending) : Served w k := by
  obtain ⟨id, j, hid, hj, hopen⟩ := h.served hpend
  obtain ⟨j', hj', hk⟩ := hw.job k id hid
  rw [hj, Option.some.injEq] at hj'
  subst hj'
  refine ⟨id, j, hj, hk, ?_, j.due_of_open hopen⟩
  cases hs : j.status <;> simp_all [MediaTransferStatus.taskState]

/-- In every run in which no fallback upload of a video fails, every task that waits for its
media has a job that a worker can claim. -/
theorem waitingTasks_served (w : World) (calls : List LifecycleCall)
    (hw : LifecycleInvariant ⟨w, [], []⟩) (hserved : TransfersServed w)
    (hok : Along step MediaKept calls ⟨w, [], []⟩) (k : ℤ) (t : Task)
    (ht : (run step calls ⟨w, [], []⟩).world.tasks k = some t)
    (hpending : t.mediaTransferState = some .pending) :
    Served (run step calls ⟨w, [], []⟩).world k := by
  have hst : CopiesServed ⟨w, [], []⟩ := fun f hf => absurd hf List.not_mem_nil
  have hrun : LifecycleInvariant (run step calls ⟨w, [], []⟩) ∧
      CopiesServed (run step calls ⟨w, [], []⟩) ∧
      TransfersServed (run step calls ⟨w, [], []⟩).world :=
    run_invariant (I := fun s => LifecycleInvariant s ∧ CopiesServed s ∧ TransfersServed s.world)
      (fun call s h hs => ⟨hs.1.step call s, hs.2.1.step hs.1 h, hs.2.2.step hs.1 hs.2.1⟩) hok
      ⟨hw, hst, hserved⟩
  exact (hrun.2.2 k t ht).exists_job hrun.1.leases.jobs hpending

/-- Two polls read one row: the enqueue of the first wins, and the other is lost. A worker
claims the job and schedules a retry. -/
def retriedTransfer : List LifecycleCall :=
  [.poll chargedTask videoDone true, .poll chargedTask videoDone true,
    .enqueue 0 (.calm 3) true ⟨"", "", ""⟩, .enqueue 1 (.calm 4) true ⟨"", "", ""⟩,
    .media (.claim (.calm 4) 1 "a"),
    .media (.scheduleRetry 0 (.calm 5) 65 "timeout" false)]

theorem waitingTasks_served_sample :
    ((run step retriedTransfer ⟨chargedWorld, [], []⟩).world.tasks 1).map
        Task.mediaTransferState = some (some .pending) ∧
      Served (run step retriedTransfer ⟨chargedWorld, [], []⟩).world 1 := by
  have hrow : ((run step retriedTransfer ⟨chargedWorld, [], []⟩).world.tasks 1).map
      Task.mediaTransferState = some (some .pending) := by decide
  obtain ⟨t, ht, hpend⟩ := Option.map_eq_some_iff.mp hrow
  refine ⟨hrow, waitingTasks_served chargedWorld retriedTransfer chargedWorld_start ?_ (by decide)
    1 t ht hpend⟩
  intro k r hr
  obtain ⟨rfl, rfl⟩ := chargedWorld_row hr
  exact ⟨fun h => (by cases h), fun ⟨id, hid⟩ => (by cases hid)⟩

/-- The database rejects the poller's enqueue and the fallback upload fails. -/
def failedFallback : List LifecycleCall :=
  [.poll chargedTask videoDone true, .enqueue 0 (.broken 3) true ⟨"", "", ""⟩, .upload 0 .failed,
    .finish 0 (.calm 4)]

/-- The task waits for its media, and there is no job at all. -/
theorem failed_fallback_strands_task :
    ((run step failedFallback ⟨chargedWorld, [], []⟩).world.tasks 1).map
        Task.mediaTransferState = some (some .pending) ∧
      ∀ id, (run step failedFallback ⟨chargedWorld, [], []⟩).world.jobs id = none :=
  ⟨by decide, fun _ => rfl⟩

end NewApi
