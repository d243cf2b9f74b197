import NewApi.MediaTransfer
import NewApi.Runs

/-!
# Leases on media transfer jobs

Workers claim jobs under fresh tokens and act on them at any later time, after their lease
expired and even after another worker took the job over; administrators open failed jobs
again.
-/
namespace NewApi

open MediaTransferJob (heldBy)

/-- The database, and the leases that were granted, which their workers keep. -/
structure LeaseState where
  world : World
  leases : List Lease

open LeaseState

/-- The calls of a worker name the lease that it holds. -/
inductive LeaseCall where
  | enqueue (env : Env) (ready : Bool) (t previous : Task) (input : MediaTransferSource)
  | claim (env : Env) (id : ℤ) (token : String)
  | renew (n : ℕ) (env : Env)
  | saveFile (n : ℕ) (env : Env) (size : ℤ) (sha256 filename contentType : String)
  | saveCandidate (n : ℕ) (env : Env) (candidateCiphertext providerID : String)
  | scheduleRetry (n : ℕ) (env : Env) (nextRetryAt : ℤ) (lastError : String) (failed : Bool)
  | complete (n : ℕ) (env : Env) (publicURL responseData : String)
  | retry (env : Env) (id : ℤ)
  | replaceInput (env : Env) (id : ℤ) (input : MediaTransferInput)

namespace LeaseState

/-- A step of the worker that holds the lease. -/
def withLease (s : LeaseState) (n : ℕ) (f : Lease → World → World) : LeaseState :=
  match s.leases[n]? with
  | none => s
  | some l => { s with world := f l s.world }

def step : LeaseCall → LeaseState → LeaseState
  | .enqueue env ready t previous input, s =>
    { s with world := (enqueueVideoMediaTransfer env ready t previous input s.world).2.2 }
  | .claim env id token, s =>
    match claimDueMediaTransfer env id token s.world with
    | (.ok (some l), w') => ⟨w', s.leases ++ [l]⟩
    | (_, w') => { s with world := w' }
  | .renew n env, s => s.withLease n fun l w => (renewMediaTransferLease env l.id l.token w).2
  | .saveFile n env size sha256 filename contentType, s => s.withLease n fun l w =>
    (saveMediaTransferFile env l.id l.token size sha256 filename contentType w).2
  | .saveCandidate n env candidateCiphertext providerID, s => s.withLease n fun l w =>
    (saveMediaTransferCandidate env l.id l.token candidateCiphertext providerID w).2
  | .scheduleRetry n env nextRetryAt lastError failed, s => s.withLease n fun l w =>
    (scheduleMediaTransferRetry env l nextRetryAt lastError failed w).2
  | .complete n env publicURL responseData, s => s.withLease n fun l w =>
    (completeMediaTransfer env l publicURL responseData w).2
  | .retry env id, s => { s with world := (retryMediaTransferJob env id s.world).2 }
  | .replaceInput env id input, s =>
    { s with world := (replaceMediaTransferInput env id input s.world).2 }

end LeaseState

def LeaseCall.lease (s : LeaseState) : LeaseCall → Option Lease
  | .renew n _ | .saveFile n _ _ _ _ _ | .saveCandidate n _ _ _ | .scheduleRetry n _ _ _ _
  | .complete n _ _ _ => s.leases[n]?
  | _ => none

/-- A token is drawn at random for each claim: no two claims use the same one. -/
def FreshToken : LeaseCall → LeaseState → Prop
  | .claim _ _ token, s => ∀ l ∈ s.leases, l.token ≠ token
  | _, _ => True

instance FreshToken.decidable (call s) : Decidable (FreshToken call s) := by
  cases call <;> dsimp only [FreshToken] <;> infer_instance

/-- One for a completion of the job that took effect. -/
def completedIn (id : ℤ) (call : LeaseCall) (s : LeaseState) : ℤ :=
  match call with
  | .complete n env publicURL responseData =>
    match s.leases[n]? with
    | none => 0
    | some l => if l.id = id ∧ (completeMediaTransfer env l publicURL responseData s.world).1 =
        .ok true then 1 else 0
  | _ => 0

/-- `held` sums up the calls of a worker that took effect: the worker held the lease. -/
inductive LeaseEffect (call : LeaseCall) (s : LeaseState) : LeaseState → Prop
  | unchanged : LeaseEffect call s s
  | enqueued {env : Env} {ready : Bool} {t previous r : Task} {input : MediaTransferSource}
      (hcall : call = .enqueue env ready t previous input) (hr : s.world.tasks t.id = some r)
      (hnone : s.world.jobOfTask t.id = none) :
      LeaseEffect call s
        { s with world := s.world.enqueued env.now (markVideoMediaTransferPending t) input }
  | claimed {env : Env} {id : ℤ} {token : String} {j : MediaTransferJob}
      (hcall : call = .claim env id token) (hj : s.world.jobs id = some j)
      (hdue : j.due env.now = true) :
      LeaseEffect call s
        ⟨{ s.world with jobs := s.world.jobs.modify id (MediaTransferJob.claimed env.now token) },
          s.leases ++ [⟨id, j.taskRecordID, token⟩]⟩
  | held {l : Lease} {j : MediaTransferJob} {f : MediaTransferJob → MediaTransferJob}
      {g : Task → Task} (hl : call.lease s = some l) (hj : s.world.jobs l.id = some j)
      (hheld : j.heldBy l.token = true)
      (hkeep : (f j).taskRecordID = j.taskRecordID)
      (hstate : (f j).status = .processing ∧ (f j).leaseToken = j.leaseToken ∧ g = id ∨
        (f j).status = .retry ∧ g = id ∨
        (f j).status = .failed ∧ (∃ now, g = Task.mediaFailed now) ∨
        (f j).status = .ready ∧ ∃ now url data, g = Task.published now url data) :
      LeaseEffect call s { s with world := { s.world with
        jobs := s.world.jobs.modify l.id f
        tasks := s.world.tasks.modify l.taskRecordID g } }
  | reopened {id now : ℤ} {j : MediaTransferJob} {f : MediaTransferJob → MediaTransferJob}
      (hcall : call.lease s = none) (hj : s.world.jobs id = some j)
      (hopen : j.status = .failed ∨ j.status = .retry)
      (hkeep : (f j).taskRecordID = j.taskRecordID) (hpending : (f j).status = .pending) :
      LeaseEffect call s { s with world := { s.world with
        jobs := s.world.jobs.modify id f
        tasks := s.world.tasks.modify j.taskRecordID (Task.mediaReopened now) } }

section Effect
variable {s : LeaseState}

variable {call : LeaseCall} {f : MediaTransferJob → MediaTransferJob}

theorem LeaseEffect.heldAlone {l : Lease} {j : MediaTransferJob} (hl : call.lease s = some l)
    (hj : s.world.jobs l.id = some j)
    (hheld : j.heldBy l.token = true) (hkeep : (f j).taskRecordID = j.taskRecordID)
    (hst : (f j).status = .processing ∧ (f j).leaseToken = j.leaseToken ∨
      (f j).status = .retry) : LeaseEffect call s
      { s with world := { s.world with jobs := s.world.jobs.modify l.id f } } := by
  have hsame : s.world.tasks.modify l.taskRecordID id = s.world.tasks :=
    Table.modify_id (f := id) _ _ fun _ _ => rfl
  have heff := LeaseEffect.held (f := f) (g := id) hl hj hheld hkeep
    (hst.imp (fun h => ⟨h.1, h.2, rfl⟩) fun h => .inl ⟨h, rfl⟩)
  rw [hsame] at heff
  exact heff

theorem LeaseEffect.of_updateHeldJob {l : Lease} (hl : call.lease s = some l) (env : Env)
    (hf : ∀ j, (f j).taskRecordID = j.taskRecordID ∧ (f j).status = j.status ∧
      (f j).leaseToken = j.leaseToken) :
    LeaseEffect call s { s with world := (updateHeldJob env l.id l.token f s.world).2 } := by
  rcases updateHeldJob_cases env s.world l.id l.token f with hw | ⟨j, hj, hheld, hw⟩
  · rw [hw]
    exact .unchanged
  rw [hw]
  obtain ⟨hkeep, hst, htok⟩ := hf j
  have hproc : j.status = .processing := by
    simp only [heldBy, Bool.and_eq_true, decide_eq_true_eq] at hheld
    exact hheld.1
  exact .heldAlone hl hj hheld hkeep (.inl ⟨hst.trans hproc, htok⟩)

theorem LeaseEffect.of_reopenJob (hcall : call.lease s = none) (env : Env) (id : ℤ)
    (guard : MediaTransferJob → MediaTransferJob → Bool)
    (hf : ∀ j, (f j).taskRecordID = j.taskRecordID ∧ (f j).status = .pending) :
    LeaseEffect call s { s with world := (reopenJob env id guard f s.world).2 } := by
  rcases reopenJob_cases env s.world id guard f with
    ⟨hw, -⟩ | ⟨j, t, hj, hopen, -, -, -, hw⟩
  · rw [hw]
    exact .unchanged
  · rw [hw]
    exact .reopened hcall hj hopen (hf j).1 (hf j).2

theorem LeaseEffect.of_withLease {n : ℕ} (hcall : call.lease s = s.leases[n]?)
    {f : Lease → World → World}
    (hf : ∀ l, call.lease s = some l → LeaseEffect call s { s with world := f l s.world }) :
    LeaseEffect call s (s.withLease n f) := by
  rw [withLease]
  cases hn : s.leases[n]? with
  | none => exact .unchanged
  | some l => exact hf l (hcall.trans hn)

/-- Step lemma: everything a call can do. -/
theorem LeaseCall.effect (call : LeaseCall) (s : LeaseState) :
    LeaseEffect call s (s.step call) := by
  cases call with
  | enqueue env ready t previous input =>
    rw [step]
    rcases enqueueVideoMediaTransfer_cases env s.world ready t previous input with
      ⟨hw, -⟩ | ⟨r, hr, -, hnone, hw⟩
    · rw [hw]
      exact .unchanged
    · rw [hw]
      exact .enqueued rfl hr hnone
  | claim env id token =>
    rw [step]
    rcases claimDueMediaTransfer_cases env s.world id token with
      ⟨hw, hne⟩ | ⟨j, hj, hdue, hw⟩
    · split
      · rename_i l w' hcall
        exact absurd (congrArg Prod.fst hcall) (hne l)
      rename_i r w' _ hcall
      have hsame : w' = s.world := by rw [← hw, hcall]
      rw [hsame]
      exact .unchanged
    · rw [hw]
      exact .claimed rfl hj hdue
  | renew n env | saveFile n env _ _ _ _ | saveCandidate n env _ _ =>
    rw [step]
    exact .of_withLease rfl fun l hl => .of_updateHeldJob hl env fun _ => ⟨rfl, rfl, rfl⟩
  | scheduleRetry n env nextRetryAt lastError failed =>
    rw [step]
    refine .of_withLease rfl fun l hl => ?_
    rcases scheduleMediaTransferRetry_cases env s.world l nextRetryAt lastError failed with
      hw | ⟨j, hj, hheld, ⟨rfl, hw⟩ | ⟨rfl, -, hw⟩⟩
    · rw [hw]
      exact .unchanged
    · rw [hw]
      exact .heldAlone hl hj hheld rfl (.inr rfl)
    · rw [hw]
      exact .held hl hj hheld rfl (.inr (.inr (.inl ⟨rfl, env.now, rfl⟩)))
  | complete n env publicURL responseData =>
    rw [step]
    refine .of_withLease rfl fun l hl => ?_
    rcases completeMediaTransfer_cases env s.world l publicURL responseData with
      ⟨hw, -⟩ | ⟨j, t, hj, hheld, -, -, hw⟩
    · rw [hw]
      exact .unchanged
    · rw [hw]
      exact .held hl hj hheld rfl (.inr (.inr (.inr ⟨rfl, env.now, publicURL, responseData, rfl⟩)))
  | retry env id => exact .of_reopenJob rfl env id _ fun _ => ⟨rfl, rfl⟩
  | replaceInput env id input =>
    rw [step, replaceMediaTransferInput]
    split_ifs
    · exact .unchanged
    · exact .of_reopenJob rfl env id _ fun _ => ⟨rfl, rfl⟩

end Effect

/-- The transfer state of the task that belongs to the status of its job. -/
def MediaTransferStatus.taskState : MediaTransferStatus → MediaTransferStatus
  | pending | processing | retry => .pending
  | failed => .failed
  | ready => .ready

def MediaTransferStatus.taskStatus : MediaTransferStatus → TaskStatus
  | ready => .success
  | pending | processing | retry | failed => .inProgress

structure Agrees (j : MediaTransferJob) (t : Task) : Prop where
  state : t.mediaTransferState = some j.status.taskState
  status : t.status = j.status.taskStatus

/-- Jobs are found through the unique index on their tasks. -/
structure JobsIndexed (w : World) : Prop where
  below : ∀ id j, w.jobs id = some j → id < w.nextJobId
  indexed : ∀ id j, w.jobs id = some j → w.jobOfTask j.taskRecordID = some id
  job : ∀ k id, w.jobOfTask k = some id → ∃ j, w.jobs id = some j ∧ j.taskRecordID = k

/-- Jobs and tasks name each other, and agree. -/
structure Corresponds (w : World) : Prop extends JobsIndexed w where
  agrees : ∀ id j, w.jobs id = some j → ∃ t, w.tasks j.taskRecordID = some t ∧ Agrees j t
  waiting : ∀ k t, w.tasks k = some t → t.mediaTransferState ≠ none → ∃ id, w.jobOfTask k = some id

namespace JobsIndexed
variable {w w' : World}

section
variable (h : JobsIndexed w)
include h

theorem of_eq (hjobs : w'.jobs = w.jobs) (hidx : w'.jobOfTask = w.jobOfTask)
    (hnext : w'.nextJobId = w.nextJobId) : JobsIndexed w' := by
  refine ⟨?_, ?_, ?_⟩
  · rw [hjobs, hnext]
    exact h.below
  · rw [hjobs, hidx]
    exact h.indexed
  · rw [hjobs, hidx]
    exact h.job

/-- After a change of one job, a job is the changed one, or another one of another task. -/
theorem modify_cases {id id' : ℤ} {j j' : MediaTransferJob}
    {f : MediaTransferJob → MediaTransferJob} (hj : w.jobs id = some j)
    (hj' : w.jobs.modify id f id' = some j') : id' = id ∧ j' = f j ∨
      id' ≠ id ∧ w.jobs id' = some j' ∧ j'.taskRecordID ≠ j.taskRecordID := by
  by_cases hid : id' = id
  · subst hid
    rw [Table.modify_self, hj, Option.map_some, Option.some.injEq] at hj'
    exact .inl ⟨rfl, hj'.symm⟩
  rw [Table.modify_of_ne _ _ hid] at hj'
  refine .inr ⟨hid, hj', fun hk => hid ?_⟩
  have hthis := h.indexed id' j' hj'
  rw [hk, h.indexed id j hj] at hthis
  cases hthis
  rfl

theorem change {id : ℤ} {j : MediaTransferJob}
    {f : MediaTransferJob → MediaTransferJob} (hj : w.jobs id = some j)
    (hkeep : (f j).taskRecordID = j.taskRecordID) (hjobs : w'.jobs = w.jobs.modify id f)
    (hidx : w'.jobOfTask = w.jobOfTask) (hnext : w'.nextJobId = w.nextJobId) :
    JobsIndexed w' := by
  refine ⟨fun id' j' hj' => ?_, fun id' j' hj' => ?_, fun k id' hk => ?_⟩
  · rw [hjobs] at hj'
    rw [hnext]
    rcases h.modify_cases hj hj' with ⟨rfl, -⟩ | ⟨-, hold, -⟩
    · exact h.below id' j hj
    · exact h.below id' j' hold
  · rw [hjobs] at hj'
    rw [hidx]
    rcases h.modify_cases hj hj' with ⟨rfl, rfl⟩ | ⟨-, hold, -⟩
    · rw [hkeep]
      exact h.indexed id' j hj
    · exact h.indexed id' j' hold
  · rw [hidx] at hk
    rw [hjobs]
    obtain ⟨j', hj', hk'⟩ := h.job k id' hk
    by_cases hid : id' = id
    · subst hid
      rw [hj, Option.some.injEq] at hj'
      subst hj'
      exact ⟨f j, by simp [hj], hkeep.trans hk'⟩
    · exact ⟨j', by rw [Table.modify_of_ne _ _ hid]; exact hj', hk'⟩

/-- After an enqueue, a job is the new one, or another one of another task. -/
theorem enqueued_cases {t : Task} {now id' : ℤ} {input : MediaTransferSource}
    {j' : MediaTransferJob} (hnone : w.jobOfTask t.id = none)
    (hj' : (w.enqueued now t input).jobs id' = some j') :
    id' = w.nextJobId ∧ j' = input.job w.nextJobId t.id now ∨
      id' < w.nextJobId ∧ w.jobs id' = some j' ∧ j'.taskRecordID ≠ t.id := by
  simp only [World.enqueued] at hj'
  by_cases hnew : id' = w.nextJobId
  · subst hnew
    rw [Table.put_self, Option.some.injEq] at hj'
    exact .inl ⟨rfl, hj'.symm⟩
  rw [Table.put_of_ne _ _ hnew] at hj'
  refine .inr ⟨h.below id' j' hj', hj', fun hk => ?_⟩
  have hthis := h.indexed id' j' hj'
  rw [hk, hnone] at hthis
  cases hthis

theorem enqueued {t : Task} (now : ℤ) (input : MediaTransferSource)
    (hnone : w.jobOfTask t.id = none) : JobsIndexed (w.enqueued now t input) := by
  refine ⟨fun id' j' hj' => ?_, fun id' j' hj' => ?_, fun k id' hk => ?_⟩
  · rcases h.enqueued_cases hnone hj' with ⟨rfl, -⟩ | ⟨hlt, -, -⟩ <;>
      simp only [World.enqueued] <;> omega
  · rcases h.enqueued_cases hnone hj' with ⟨rfl, rfl⟩ | ⟨-, hold, hk⟩
    · simp [World.enqueued, MediaTransferSource.job]
    · simpa [World.enqueued, Table.put_of_ne _ _ hk] using h.indexed id' j' hold
  · simp only [World.enqueued] at hk ⊢
    by_cases hkt : k = t.id
    · subst hkt
      rw [Table.put_self] at hk
      cases hk
      exact ⟨_, Table.put_self _ _ _, rfl⟩
    rw [Table.put_of_ne _ _ hkt] at hk
    obtain ⟨j', hj', hk'⟩ := h.job k id' hk
    have hlt := h.below id' j' hj'
    exact ⟨j', by rw [Table.put_of_ne _ _ (by omega)]; exact hj', hk'⟩

end

end JobsIndexed

variable {w : World} {j : MediaTransferJob}

/-- A change of one job and its task keeps the correspondence, if the two agree again. -/
theorem Corresponds.change (h : Corresponds w) {id : ℤ} {t : Task}
    {f : MediaTransferJob → MediaTransferJob} {g : Task → Task} (hj : w.jobs id = some j)
    (ht : w.tasks j.taskRecordID = some t) (hkeep : (f j).taskRecordID = j.taskRecordID)
    (hagrees : Agrees (f j) (g t)) : Corresponds { w with
      jobs := w.jobs.modify id f
      tasks := w.tasks.modify j.taskRecordID g } := by
  refine ⟨h.toJobsIndexed.change hj hkeep rfl rfl rfl, fun id' j' hj' => ?_, fun k t' ht' hne => ?_⟩
  · rcases h.modify_cases hj hj' with ⟨rfl, rfl⟩ | ⟨-, hold, hk⟩
    · exact ⟨g t, by simp [hkeep, ht], hagrees⟩
    · obtain ⟨t', ht', hag⟩ := h.agrees id' j' hold
      exact ⟨t', by simpa [Table.modify_of_ne _ _ hk] using ht', hag⟩
  · by_cases hk : k = j.taskRecordID
    · subst hk
      exact ⟨id, h.indexed id j hj⟩
    · refine h.waiting k t' ?_ hne
      simpa [Table.modify_of_ne _ _ hk] using ht'

theorem Corresponds.enqueued (h : Corresponds w) {t r : Task} (now : ℤ)
    (input : MediaTransferSource) (hr : w.tasks t.id = some r) (hnone : w.jobOfTask t.id = none) :
    Corresponds (w.enqueued now (markVideoMediaTransferPending t) input) := by
  have hid : (markVideoMediaTransferPending t).id = t.id := rfl
  refine ⟨h.toJobsIndexed.enqueued now input (hid ▸ hnone), fun id' j' hj' => ?_,
    fun k t' ht' hne => ?_⟩
  · rcases h.enqueued_cases (hid ▸ hnone) hj' with ⟨rfl, rfl⟩ | ⟨-, hold, hk⟩
    · refine ⟨(markVideoMediaTransferPending t).enqueuedFrom now r, ?_, ⟨rfl, rfl⟩⟩
      simp [World.enqueued, MediaTransferSource.job, hid, hr]
    · obtain ⟨t', ht', hag⟩ := h.agrees id' j' hold
      exact ⟨t', by simpa [World.enqueued, Table.modify_of_ne _ _ hk] using ht', hag⟩
  · simp only [World.enqueued, hid] at ht' ⊢
    by_cases hk : k = t.id
    · subst hk
      exact ⟨_, Table.put_self _ _ _⟩
    · rw [Table.modify_of_ne _ _ hk] at ht'
      rw [Table.put_of_ne _ _ hk]
      exact h.waiting k t' ht' hne

/-- Every lease names a job and the task of that job. -/
structure LeasesGranted (s : LeaseState) : Prop where
  jobs : JobsIndexed s.world
  named : ∀ l ∈ s.leases, ∀ j, s.world.jobs l.id = some j → j.taskRecordID = l.taskRecordID
  granted : ∀ l ∈ s.leases, ∃ j, s.world.jobs l.id = some j

theorem LeasesGranted.start (h : JobsIndexed w) : LeasesGranted ⟨w, []⟩ :=
  ⟨h, fun _ hl => absurd hl List.not_mem_nil, fun _ hl => absurd hl List.not_mem_nil⟩

theorem heldBy_eq_true {token : String} :
    j.heldBy token = true ↔ j.status = .processing ∧ j.leaseToken = token := by
  simp [heldBy]

theorem due_taskState {now : ℤ} (h : j.due now = true) :
    j.status.taskState = .pending ∧ j.status.taskStatus = .inProgress := by
  simp only [MediaTransferJob.due, Bool.or_eq_true, Bool.and_eq_true, decide_eq_true_eq] at h
  rcases h with ⟨hs | hs, -⟩ | ⟨hs, -⟩ <;> rw [hs] <;> exact ⟨rfl, rfl⟩

theorem LeaseCall.lease_mem {call : LeaseCall} {s : LeaseState} {l : Lease}
    (h : call.lease s = some l) : l ∈ s.leases := by
  cases call <;> first | exact List.mem_of_getElem? h | cases h

section Invariant
variable {s : LeaseState}

/-- The leases keep naming their jobs when a job is changed in place. -/
theorem LeasesGranted.change (h : LeasesGranted s) {w : World} {id : ℤ} {j : MediaTransferJob}
    {f : MediaTransferJob → MediaTransferJob} (hj : s.world.jobs id = some j)
    (hkeep : (f j).taskRecordID = j.taskRecordID) (hjobs : w.jobs = s.world.jobs.modify id f)
    (hidx : w.jobOfTask = s.world.jobOfTask) (hnext : w.nextJobId = s.world.nextJobId) :
    LeasesGranted { s with world := w } := by
  refine ⟨h.jobs.change hj hkeep hjobs hidx hnext, fun l hl j' hj' => ?_, fun l hl => ?_⟩
  · rw [hjobs] at hj'
    rcases h.jobs.modify_cases hj hj' with ⟨hid, rfl⟩ | ⟨-, hold, -⟩
    · rw [hkeep]
      exact h.named l hl j (hid ▸ hj)
    · exact h.named l hl j' hold
  · rw [hjobs]
    exact Table.exists_modify (h.granted l hl) _ _

theorem LeasesGranted.enqueued (h : LeasesGranted s) {t : Task} (now : ℤ)
    (input : MediaTransferSource) (hnone : s.world.jobOfTask t.id = none) :
    LeasesGranted { s with world := s.world.enqueued now t input } := by
  have hkeep : ∀ l ∈ s.leases, (s.world.enqueued now t input).jobs l.id = s.world.jobs l.id := by
    intro l hl
    obtain ⟨j, hj⟩ := h.granted l hl
    have hlt := h.jobs.below l.id j hj
    exact Table.put_of_ne _ _ (by omega)
  refine ⟨h.jobs.enqueued now input hnone, fun l hl j hj => ?_, fun l hl => ?_⟩
  · exact h.named l hl j ((hkeep l hl).symm.trans hj)
  · obtain ⟨j, hj⟩ := h.granted l hl
    exact ⟨j, (hkeep l hl).trans hj⟩

theorem LeasesGranted.claimed (h : LeasesGranted s) {id : ℤ} {j : MediaTransferJob} (now : ℤ)
    (token : String) (hj : s.world.jobs id = some j) : LeasesGranted
      ⟨{ s.world with jobs := s.world.jobs.modify id (MediaTransferJob.claimed now token) },
        s.leases ++ [⟨id, j.taskRecordID, token⟩]⟩ := by
  have hold := h.change (w := { s.world with
    jobs := s.world.jobs.modify id (MediaTransferJob.claimed now token) }) hj rfl rfl rfl rfl
  refine ⟨hold.jobs, fun l hl j' hj' => ?_, fun l hl => ?_⟩
  · rcases List.mem_append.mp hl with hl | hl
    · exact hold.named l hl j' hj'
    rw [List.mem_singleton] at hl
    subst hl
    dsimp only at hj'
    rw [Table.modify_self, hj, Option.map_some, Option.some.injEq] at hj'
    rw [← hj']
    rfl
  · rcases List.mem_append.mp hl with hl | hl
    · exact hold.granted l hl
    · rw [List.mem_singleton] at hl
      subst hl
      exact Table.exists_modify ⟨j, hj⟩ _ _

theorem LeaseEffect.granted {call : LeaseCall} {s' : LeaseState} (heff : LeaseEffect call s s')
    (h : LeasesGranted s) : LeasesGranted s' := by
  cases heff with
  | unchanged => exact h
  | enqueued hcall hr hnone => exact h.enqueued _ _ hnone
  | claimed hcall hj hdue => exact h.claimed _ _ hj
  | held hl hj hheld hkeep hst | reopened hcall hj hopen hkeep hpend =>
    exact h.change hj hkeep rfl rfl rfl

structure LeaseInvariant (s : LeaseState) : Prop where
  leases : LeasesGranted s
  corresponds : Corresponds s.world

/-- One call, over the effect on the jobs. -/
theorem LeaseInvariant.step (call : LeaseCall) (s : LeaseState) (h : LeaseInvariant s) :
    LeaseInvariant (s.step call) := by
  refine ⟨(call.effect s).granted h.leases, ?_⟩
  have heff := call.effect s
  generalize s.step call = s' at heff ⊢
  cases heff with
  | unchanged => exact h.corresponds
  | enqueued hcall hr hnone => exact h.corresponds.enqueued _ _ hr hnone
  | claimed hcall hj hdue =>
    rename_i env id token j
    obtain ⟨t, ht, hag⟩ := h.corresponds.agrees id j hj
    obtain ⟨hst, hsta⟩ := due_taskState hdue
    have hsame : s.world.tasks.modify j.taskRecordID (fun t => t) = s.world.tasks :=
      Table.modify_id _ _ fun _ _ => rfl
    have hch := h.corresponds.change (f := MediaTransferJob.claimed env.now token)
      (g := fun t => t) hj ht rfl
      ⟨by rw [hag.state, hst]; rfl, by rw [hag.status, hsta]; rfl⟩
    rw [hsame] at hch
    exact hch
  | held hl hj hheld hkeep hst =>
    rename_i l j f g
    have hname := h.leases.named l (LeaseCall.lease_mem hl) j hj
    obtain ⟨t, ht, hag⟩ := h.corresponds.agrees l.id j hj
    have hag' : t.mediaTransferState = some .pending ∧ t.status = .inProgress := by
      rw [hag.state, hag.status, (heldBy_eq_true.mp hheld).1]
      exact ⟨rfl, rfl⟩
    rw [← hname]
    refine h.corresponds.change hj ht hkeep ?_
    rcases hst with ⟨hs, -, rfl⟩ | ⟨hs, rfl⟩ | ⟨hs, now, rfl⟩ | ⟨hs, now, url, data, rfl⟩
    · exact ⟨by rw [hs]; exact hag'.1, by rw [hs]; exact hag'.2⟩
    · exact ⟨by rw [hs]; exact hag'.1, by rw [hs]; exact hag'.2⟩
    · exact ⟨by rw [hs]; rfl, by rw [hs]; exact hag'.2⟩
    · exact ⟨by rw [hs]; rfl, by rw [hs]; rfl⟩
  | reopened hcall hj hopen hkeep hpend =>
    rename_i id now j f
    obtain ⟨t, ht, hag⟩ := h.corresponds.agrees id j hj
    have hsta : t.status = .inProgress := by
      rw [hag.status]
      rcases hopen with hs | hs <;> rw [hs] <;> rfl
    exact h.corresponds.change hj ht hkeep ⟨by rw [hpend]; rfl, by rw [hpend]; exact hsta⟩

end Invariant

/-- The lease is not the one in the row of its job. -/
def Lost (l : Lease) (s : LeaseState) : Prop :=
  ∀ j, s.world.jobs l.id = some j → j.heldBy l.token = false

section Exclusion
variable {call : LeaseCall} {s : LeaseState}

/-- A worker that lost its lease changes neither the job nor the task. -/
theorem step_of_lost {l : Lease} (hl : call.lease s = some l) (hlost : Lost l s) :
    s.step call = s := by
  have heff := call.effect s
  generalize s.step call = s' at heff ⊢
  cases heff with
  | unchanged => rfl
  | enqueued hcall | claimed hcall =>
    subst hcall
    cases hl
  | held hl' hj hheld =>
    rw [hl, Option.some.injEq] at hl'
    subst hl'
    simp [hlost _ hj] at hheld
  | reopened hcall => simp [hcall] at hl

/-- A lost lease stays lost: tokens are not drawn twice. -/
theorem Lost.step {l : Lease} (hmem : l ∈ s.leases) (hfr : FreshToken call s)
    (hlost : Lost l s) : l ∈ (s.step call).leases ∧ Lost l (s.step call) := by
  have heff := call.effect s
  generalize s.step call = s' at heff ⊢
  -- in a changed job the lease must not appear as the one that holds it
  have hmodify : ∀ (id : ℤ) (f : MediaTransferJob → MediaTransferJob) (j : MediaTransferJob),
      s.world.jobs id = some j → (l.id = id → (f j).heldBy l.token = false) →
      ∀ j', (s.world.jobs.modify id f) l.id = some j' → j'.heldBy l.token = false := by
    intro id f j hj hf j' hj'
    by_cases hid : l.id = id
    · rw [hid, Table.modify_self, hj, Option.map_some, Option.some.injEq] at hj'
      rw [← hj']
      exact hf hid
    · rw [Table.modify_of_ne _ _ hid] at hj'
      exact hlost j' hj'
  cases heff with
  | unchanged => exact ⟨hmem, hlost⟩
  | enqueued hcall hr hnone =>
    refine ⟨hmem, fun j hj => ?_⟩
    simp only [World.enqueued, Table.put_apply] at hj
    split_ifs at hj with hid
    · cases hj
      rfl
    · exact hlost j hj
  | claimed hcall hj hdue =>
    subst hcall
    have hne := hfr l hmem
    refine ⟨List.mem_append_left _ hmem, hmodify _ _ _ hj fun _ => ?_⟩
    simp [heldBy, MediaTransferJob.claimed, Ne.symm hne]
  | held hl hj hheld hkeep hst =>
    rename_i l' j f g
    refine ⟨hmem, hmodify _ _ _ hj fun hid => ?_⟩
    rcases hst with ⟨-, htoken, -⟩ | ⟨hs, -⟩ | ⟨hs, -⟩ | ⟨hs, -⟩
    · have hoth : ¬ j.leaseToken = l.token := by
        intro htok
        have hfalse := hlost j (hid ▸ hj)
        simp [heldBy, (heldBy_eq_true.mp hheld).1, htok] at hfalse
      simp [heldBy, htoken, hoth]
    · simp [heldBy, hs]
    · simp [heldBy, hs]
    · simp [heldBy, hs]
  | reopened hcall hj hopen hkeep hpend =>
    refine ⟨hmem, hmodify _ _ _ hj fun _ => ?_⟩
    simp [heldBy, hpend]

/-- A job in progress is changed by the holder of its token, or by a claim after its lease
has expired. -/
theorem step_processing (h : LeaseInvariant s) {id : ℤ} {j : MediaTransferJob}
    (hj : s.world.jobs id = some j) (hproc : j.status = .processing)
    (hchd : (s.step call).world.jobs id ≠ some j) :
    (∃ l, call.lease s = some l ∧ l.id = id ∧ l.token = j.leaseToken) ∨
      ∃ env token, call = .claim env id token ∧ j.leaseUntil ≤ env.now := by
  have heff := call.effect s
  generalize s.step call = s' at heff hchd
  cases heff with
  | unchanged => exact absurd hj hchd
  | enqueued hcall hr hnone =>
    have hlt := h.corresponds.below id j hj
    refine absurd ?_ hchd
    simpa only [World.enqueued, Table.put_of_ne _ _ (by omega : id ≠ s.world.nextJobId)] using hj
  | claimed hcall hj' hdue =>
    rename_i env id' token j'
    by_cases hid : id = id'
    · subst hid
      rw [hj, Option.some.injEq] at hj'
      subst hj'
      simp only [MediaTransferJob.due, hproc, reduceCtorEq, decide_false, Bool.or_self,
        Bool.false_and, decide_true, Bool.true_and, Bool.false_or, decide_eq_true_eq] at hdue
      exact .inr ⟨env, token, hcall, hdue⟩
    · exact absurd (by simpa [Table.modify_of_ne _ _ hid] using hj) hchd
  | held hl hj' hheld =>
    rename_i l j' f g _ _
    by_cases hid : id = l.id
    · subst hid
      rw [hj, Option.some.injEq] at hj'
      subst hj'
      exact .inl ⟨l, hl, rfl, (heldBy_eq_true.mp hheld).2.symm⟩
    · exact absurd (by simpa [Table.modify_of_ne _ _ hid] using hj) hchd
  | reopened hcall hj' hopen =>
    rename_i id' now j' f _ _
    by_cases hid : id = id'
    · subst hid
      rw [hj, Option.some.injEq] at hj'
      subst hj'
      simp [hproc] at hopen
    · exact absurd (by simpa [Table.modify_of_ne _ _ hid] using hj) hchd

end Exclusion

def World.jobStatus (w : World) (id : ℤ) : Option MediaTransferStatus :=
  (w.jobs id).map MediaTransferJob.status

def readyJob (id : ℤ) (s : LeaseState) : ℤ :=
  if s.world.jobStatus id = some .ready then 1 else 0

section Completions
variable {call : LeaseCall} {s : LeaseState} {id : ℤ}

/-- A stored result stays. -/
theorem step_ready (h : LeaseInvariant s) (hrdy : s.world.jobStatus id = some .ready) :
    (s.step call).world.jobStatus id = some .ready := by
  obtain ⟨j, hj, hs⟩ := Option.map_eq_some_iff.mp hrdy
  have heff := call.effect s
  generalize s.step call = s' at heff ⊢
  -- no call changes a job that is ready
  have hoth : ∀ (id' : ℤ) (f : MediaTransferJob → MediaTransferJob) (j' : MediaTransferJob),
      s.world.jobs id' = some j' → j'.status ≠ .ready →
      ((s.world.jobs.modify id' f) id).map MediaTransferJob.status = some .ready := by
    intro id' f j' hj' hne
    have hid : id ≠ id' := by
      rintro rfl
      rw [hj, Option.some.injEq] at hj'
      exact hne (hj' ▸ hs)
    rw [Table.modify_of_ne _ _ hid]
    exact hrdy
  cases heff with
  | unchanged => exact hrdy
  | enqueued hcall hr hnone =>
    have hlt := h.corresponds.below id j hj
    simpa only [World.jobStatus, World.enqueued,
      Table.put_of_ne _ _ (by omega : id ≠ s.world.nextJobId)] using hrdy
  | claimed hcall hj' hdue =>
    refine hoth _ _ _ hj' fun hs' => ?_
    have hopen := (due_taskState hdue).1
    simp [hs', MediaTransferStatus.taskState] at hopen
  | held hl hj' hheld =>
    exact hoth _ _ _ hj' (by simp [(heldBy_eq_true.mp hheld).1])
  | reopened hcall hj' hopen =>
    exact hoth _ _ _ hj' (by rcases hopen with hs' | hs' <;> simp [hs'])

/-- A completion that took effect found the job in progress and left it ready. -/
theorem step_completed (hone : completedIn id call s = 1) :
    s.world.jobStatus id = some .processing ∧ (s.step call).world.jobStatus id = some .ready := by
  cases call with
  | complete n env publicURL responseData =>
    simp only [completedIn] at hone
    cases hn : s.leases[n]? with
    | none => simp [hn] at hone
    | some l =>
      simp only [hn] at hone
      split_ifs at hone with hwon
      · obtain ⟨rfl, hok⟩ := hwon
        rcases completeMediaTransfer_cases env s.world l publicURL responseData with
          ⟨-, hne⟩ | ⟨j, t, hj, hheld, -, -, hw⟩
        · exact absurd hok hne
        · refine ⟨by simp [World.jobStatus, hj, (heldBy_eq_true.mp hheld).1], ?_⟩
          simp [step, withLease, hn, hw, World.jobStatus, hj, MediaTransferJob.completed]
      · simp at hone
  | _ => simp [completedIn] at hone

/-- A job is completed once. -/
theorem step_completions (h : LeaseInvariant s) :
    completedIn id call s + readyJob id s ≤ readyJob id (s.step call) := by
  by_cases hone : completedIn id call s = 1
  · obtain ⟨hbef, haft⟩ := step_completed hone
    simp [hone, readyJob, hbef, haft]
  have hzero : completedIn id call s = 0 := by
    unfold completedIn at hone ⊢
    split at hone
    · split at hone <;> simp_all
    · rfl
  by_cases hrdy : s.world.jobStatus id = some .ready
  · simp [hzero, readyJob, hrdy, step_ready h hrdy]
  · simp only [hzero, readyJob, hrdy, if_false]
    split_ifs <;> omega

end Completions

/-- What leases guarantee over a run from `s`. -/
structure LeasesRespected (calls : List LeaseCall) (s : LeaseState) : Prop where
  /-- Only the holder, or a claim after the lease expired, changes a job in progress. -/
  exclusive : ∀ pre call post id j, calls = pre ++ call :: post →
    (run step pre s).world.jobs id = some j → j.status = .processing →
    (run step (pre ++ [call]) s).world.jobs id ≠ some j →
    (∃ l, call.lease (run step pre s) = some l ∧ l.id = id ∧ l.token = j.leaseToken) ∨
      ∃ env token, call = .claim env id token ∧ j.leaseUntil ≤ env.now
  /-- At most one completion takes effect, however often the job is opened again. -/
  once : ∀ id, total step (completedIn id) calls s ≤ 1
  /-- A worker whose lease was taken over changes nothing any more. -/
  fenced : ∀ pre mid call post l, calls = pre ++ (mid ++ call :: post) →
    l ∈ (run step pre s).leases → Lost l (run step pre s) →
    call.lease (run step (pre ++ mid) s) = some l →
    run step (pre ++ mid ++ [call]) s = run step (pre ++ mid) s
  /-- A task with a transfer state has a job, and every job agrees with its task. -/
  waiting : ∀ k t, (run step calls s).world.tasks k = some t → t.mediaTransferState ≠ none → ∃ id j,
      (run step calls s).world.jobs id = some j ∧ j.taskRecordID = k
  agrees : ∀ id j, (run step calls s).world.jobs id = some j →
    ∃ t, (run step calls s).world.tasks j.taskRecordID = some t ∧
      (j.status = .pending ∨ j.status = .processing ∨ j.status = .retry ↔
        t.mediaTransferState = some .pending) ∧
      (j.status = .failed ↔ t.mediaTransferState = some .failed) ∧
      (j.status = .ready ↔ t.status = .success ∧ t.mediaTransferState = some .ready)

/-- In every interleaving of enqueues, claims under fresh tokens, worker calls with any
granted lease and administrators' calls, from a state in which jobs and tasks correspond,
leases are respected. -/
theorem mediaTransfer_leases (w : World) (calls : List LeaseCall) (hw : Corresponds w)
    (hfresh : Along step FreshToken calls ⟨w, []⟩) : LeasesRespected calls ⟨w, []⟩ := by
  have hst : LeaseInvariant ⟨w, []⟩ := ⟨.start hw.toJobsIndexed, hw⟩
  have hinv : ∀ is, LeaseInvariant (run step is ⟨w, []⟩) := fun is =>
    run_invariant_always LeaseInvariant.step is hst
  refine ⟨fun pre call post id j _ hj hproc hchd => ?_, fun id => ?_, ?_, fun k t ht hne => ?_,
    fun id j hj => ?_⟩
  · rw [run_append, run_cons, run_nil] at hchd
    exact step_processing (hinv pre) hj hproc hchd
  · have hle : total step (completedIn id) calls ⟨w, []⟩ + readyJob id ⟨w, []⟩ ≤
        readyJob id (run step calls ⟨w, []⟩) :=
      run_total_le (fun _ _ h => step_completions h.2)
        (hfresh.and_invariant (fun call s _ h => h.step call s) hst)
    have hbounds : ∀ s, 0 ≤ readyJob id s ∧ readyJob id s ≤ 1 := by
      intro s
      unfold readyJob
      split_ifs <;> omega
    have hlow := (hbounds ⟨w, []⟩).1
    have hhigh := (hbounds (run step calls ⟨w, []⟩)).2
    omega
  · intro pre mid call post l hcs hmem hlost hl
    subst hcs
    -- the lease is still lost after the steps in between
    obtain ⟨hmid, -⟩ := along_append.mp (along_append.mp hfresh).2
    have hstill : l ∈ (run step mid (run step pre ⟨w, []⟩)).leases ∧
        Lost l (run step mid (run step pre ⟨w, []⟩)) :=
      run_invariant (I := fun s => l ∈ s.leases ∧ Lost l s)
        (fun call s hf h => h.2.step h.1 hf) hmid ⟨hmem, hlost⟩
    rw [← run_append] at hstill
    rw [run_append (pre ++ mid), run_cons, run_nil]
    exact step_of_lost hl hstill.2
  · obtain ⟨id, hid⟩ := (hinv calls).corresponds.waiting k t ht hne
    obtain ⟨j, hj, hk⟩ := (hinv calls).corresponds.job k id hid
    exact ⟨id, j, hj, hk⟩
  · obtain ⟨t, ht, hag⟩ := (hinv calls).corresponds.agrees id j hj
    refine ⟨t, ht, ?_⟩
    rw [hag.state, hag.status]
    cases j.status <;> simp [MediaTransferStatus.taskState, MediaTransferStatus.taskStatus]

theorem JobsIndexed.start (hjobs : ∀ id, w.jobs id = none) (hidx : ∀ k, w.jobOfTask k = none) :
    JobsIndexed w where
  below id j hj := by simp [hjobs] at hj
  indexed id j hj := by simp [hjobs] at hj
  job k id hk := by simp [hidx] at hk

/-- Before the first enqueue there is no job, and no task has a transfer state. -/
theorem Corresponds.start (hjobs : ∀ id, w.jobs id = none) (hidx : ∀ k, w.jobOfTask k = none)
    (htsk : ∀ k t, w.tasks k = some t → t.mediaTransferState = none) : Corresponds w where
  toJobsIndexed := .start hjobs hidx
  agrees id j hj := by simp [hjobs] at hj
  waiting k t ht hne := absurd (htsk k t ht) hne

def sampleVideo : World := { World.empty with tasks := World.empty.tasks.put 1 sampleTask }

/-- The first worker's lease expires and is taken over; the second one gives up for good;
after an administrator's retry a third one completes the job, twice. -/
def sampleLeases : List LeaseCall :=
  [.enqueue (.calm 0) true sampleTask sampleTask ⟨"", "", ""⟩, .claim (.calm 1) 1 "a",
    .claim (.calm 2) 1 "b", .claim (.calm 200) 1 "b", .complete 0 (.calm 201) "url" "",
    .scheduleRetry 1 (.calm 202) 300 "timeout" true, .renew 0 (.calm 203), .retry (.calm 204) 1,
    .claim (.calm 205) 1 "c", .complete 2 (.calm 206) "url" "", .complete 2 (.calm 207) "url" ""]

theorem mediaTransfer_leases_sample : LeasesRespected sampleLeases ⟨sampleVideo, []⟩ ∧
      total step (completedIn 1) sampleLeases ⟨sampleVideo, []⟩ = 1 ∧
      (run step sampleLeases ⟨sampleVideo, []⟩).world.jobStatus 1 = some .ready := by
  refine ⟨mediaTransfer_leases sampleVideo sampleLeases
    (.start (fun _ => rfl) (fun _ => rfl) fun k t ht => ?_) (by decide), by decide, by decide⟩
  simp only [sampleVideo, Table.put_apply] at ht
  split_ifs at ht
  · rw [← Option.some.inj ht]
    rfl
  · cases ht

end NewApi
