import NewApi.Schema

/-!
# Media transfer jobs

A generated video is copied to the media storage by workers. One transaction marks the
task as waiting for its media and inserts the job; a worker claims a due job under a lease
and every later write of that worker is conditional on the lease token in the row. Failed
jobs are opened again by an administrator. Cipher texts are opaque, and the download, the
upload and the verification are left to the caller.
-/
namespace NewApi

/-- Hide the upstream's result while its media is being copied. -/
def markVideoMediaTransferPending (t : Task) : Task :=
  { t with
    status := .inProgress
    mediaTransferState := some .pending
    progress := "99%"
    finishTime := 0
    privateData := { t.privateData with resultURL := "" }
    failReason := ""
    data := "\x7b\"media_transfer\":\"pending\"\x7d" }

/-- The columns that the caller fills in for a new job. -/
structure MediaTransferSource where
  (sourceCiphertext optionsCiphertext responseCiphertext : String)

def MediaTransferSource.job (input : MediaTransferSource) (id taskRecordID now : ℤ) :
    MediaTransferJob where
  id := id
  taskRecordID := taskRecordID
  sourceCiphertext := input.sourceCiphertext
  optionsCiphertext := input.optionsCiphertext
  responseCiphertext := input.responseCiphertext
  status := .pending
  attempts := 0
  nextRetryAt := now
  leaseUntil := 0
  leaseToken := ""
  candidateURLCiphertext := ""
  candidateProvider := ""
  storedURL := ""
  byteSize := 0
  sha256 := ""
  fileName := ""
  contentType := ""
  spoolFile := ""
  manualFile := false
  requestedProvider := ""
  lastError := ""
  createdAt := now
  updatedAt := now
  completedAt := 0

/-- The columns of the row that an enqueue takes over from the caller's copy. -/
def Task.enqueuedFrom (t : Task) (now : ℤ) (r : Task) : Task :=
  { r with
    status := t.status
    progress := t.progress
    finishTime := t.finishTime
    failReason := t.failReason
    privateData := t.privateData
    data := t.data
    mediaTransferState := t.mediaTransferState
    billingStatus := t.billingStatus
    billingTargetQuota := t.billingTargetQuota
    updatedAt := now }

/-- The row is as the previous copy says. The transfer state is not compared. -/
def Task.isPrevious (previous r : Task) : Bool :=
  decide (r.status = previous.status) && decide (r.billingStatus = previous.billingStatus) &&
    decide (r.quota = previous.quota)

/-- A task has one job at most. -/
def insertJob (env : Env) (taskRecordID : ℤ) (input : MediaTransferSource) : DBTx Bool := do
  sql env 1
  let w ← Tx.read
  match w.jobOfTask taskRecordID with
  | some _ => Tx.abort .duplicatedKey
  | none => do
    Tx.modify fun w => { w with
      jobs := w.jobs.put w.nextJobId (input.job w.nextJobId taskRecordID env.now)
      jobOfTask := w.jobOfTask.put taskRecordID w.nextJobId
      nextJobId := w.nextJobId + 1 }
    pure true

/-- Write the task and insert its job together; whether the copy won the row. -/
def enqueueMediaTransferAndTask (env : Env) (t previous : Task) (input : MediaTransferSource)
    (w : World) : Except Err Bool × World :=
  if t.id ≤ 0 then (.error .invalidData, w)
  else dbTransaction env (do
    let n ← tasksTable.update (env.fault 0) .database t.id previous.isPrevious
      (t.enqueuedFrom env.now)
    if n = 1 then insertJob env t.id input else pure false) w

/-- Enqueue the transfer of a generated video. `ready` says that the URL is absolute, the
spool directory exists and the values were encrypted; the copy is marked after that, and
stays marked in memory whatever the transaction does. -/
def enqueueVideoMediaTransfer (env : Env) (ready : Bool) (t previous : Task)
    (input : MediaTransferSource) (w : World) : Except Err Bool × Task × World :=
  if t.id ≤ 0 ∨ ready = false then (.error (.text "video transfer was not prepared"), t, w)
  else
    let marked := markVideoMediaTransferPending t
    let r := enqueueMediaTransferAndTask env marked previous input w
    (r.1, marked, r.2)

/-- What a worker keeps of the job it claimed. -/
structure Lease where
  (id taskRecordID : ℤ)
  token : String

namespace MediaTransferJob

/-- A job that may be claimed: it waits and its time has come, or its lease has expired. -/
def due (now : ℤ) (j : MediaTransferJob) : Bool :=
  (decide (j.status = .pending) || decide (j.status = .retry)) && decide (j.nextRetryAt ≤ now) ||
    decide (j.status = .processing) && decide (j.leaseUntil ≤ now)

/-- The worker with this token holds the job. -/
def heldBy (token : String) (j : MediaTransferJob) : Bool :=
  decide (j.status = .processing) && decide (j.leaseToken = token)

/-- A lease of two minutes. -/
def claimed (now : ℤ) (token : String) (j : MediaTransferJob) : MediaTransferJob :=
  { j with status := .processing, leaseToken := token, leaseUntil := now + 120, updatedAt := now }

/-- The error is cut at 512 characters here; the source cuts it at 512 bytes. -/
def scheduled (now nextRetryAt : ℤ) (lastError : String) (failed : Bool) (j : MediaTransferJob) :
    MediaTransferJob :=
  { j with
    status := if failed then .failed else .retry
    attempts := j.attempts + 1
    nextRetryAt := nextRetryAt
    leaseUntil := 0
    leaseToken := ""
    lastError := String.ofList (lastError.toList.take 512)
    updatedAt := now }

/-- The job starts again from the beginning. -/
def reopened (now : ℤ) (j : MediaTransferJob) : MediaTransferJob :=
  { j with
    status := .pending
    attempts := 0
    nextRetryAt := now
    leaseUntil := 0
    leaseToken := ""
    lastError := ""
    updatedAt := now }

/-- The result is stored. -/
def completed (now : ℤ) (publicURL : String) (j : MediaTransferJob) : MediaTransferJob :=
  { j with
    status := .ready
    storedURL := publicURL
    candidateURLCiphertext := ""
    candidateProvider := ""
    leaseUntil := 0
    leaseToken := ""
    lastError := ""
    completedAt := now
    updatedAt := now }

end MediaTransferJob

/-- Claim one candidate of the due jobs; the lease, unless another worker was faster. -/
def claimDueMediaTransfer (env : Env) (id : ℤ) (token : String) (w : World) :
    Except Err (Option Lease) × World :=
  commit false .database (do
    let n ← jobsTable.update (env.fault 0) .database id (MediaTransferJob.due env.now)
      (MediaTransferJob.claimed env.now token)
    let w ← Tx.read
    pure (if n = 1 then (w.jobs id).map fun j => ⟨id, j.taskRecordID, token⟩ else none)) w

/-- A write of the holder of the lease to its job. -/
def updateHeldJob (env : Env) (id : ℤ) (token : String)
    (f : MediaTransferJob → MediaTransferJob) (w : World) : Except Err Unit × World :=
  commit false .database (jobsTable.updateOne (env.fault 0) .database .recordNotFound id
    (MediaTransferJob.heldBy token) f) w

/-- The lease is prolonged by its holder. -/
def renewMediaTransferLease (env : Env) (id : ℤ) (token : String) :
    World → Except Err Unit × World :=
  updateHeldJob env id token fun j => { j with leaseUntil := env.now + 120, updatedAt := env.now }

/-- The holder notes what was downloaded. -/
def saveMediaTransferFile (env : Env) (id : ℤ) (token : String) (size : ℤ)
    (sha256 filename contentType : String) : World → Except Err Unit × World :=
  updateHeldJob env id token fun j => { j with
    byteSize := size, sha256 := sha256, fileName := filename, contentType := contentType
    updatedAt := env.now }

/-- The holder notes what was uploaded. -/
def saveMediaTransferCandidate (env : Env) (id : ℤ) (token candidateCiphertext providerID : String) :
    World → Except Err Unit × World :=
  updateHeldJob env id token fun j => { j with
    candidateURLCiphertext := candidateCiphertext, candidateProvider := providerID
    updatedAt := env.now }

/-- Give the job up for now, or for good; then the task waits for an administrator. -/
def scheduleMediaTransferRetry (env : Env) (job : Lease) (nextRetryAt : ℤ) (lastError : String)
    (failed : Bool) (w : World) : Except Err Unit × World :=
  dbTransaction env (do
    jobsTable.updateOne (env.fault 0) .database .recordNotFound job.id
      (MediaTransferJob.heldBy job.token)
      (MediaTransferJob.scheduled env.now nextRetryAt lastError failed)
    Tx.onlyIf failed (tasksTable.updateOne (env.fault 1) .database .invalidTransaction
      job.taskRecordID (fun t => decide (t.mediaTransferState = some .pending))
      fun t => { t with mediaTransferState := some .failed, updatedAt := env.now })) w

/-- The transfer state of the task that an open or failed job must have. -/
def expectedTaskState (j : MediaTransferJob) : MediaTransferStatus :=
  if j.status = .failed then .failed else .pending

/-- Put the task of a job that is opened again back into waiting. -/
def reopenTask (env : Env) (j : MediaTransferJob) : DBTx Bool := do
  tasksTable.updateOne (env.fault 2) .database .invalidTransaction j.taskRecordID
    (fun t => decide (t.mediaTransferState = some (expectedTaskState j)) &&
      decide (t.status = .inProgress))
    fun t => { t with mediaTransferState := some .pending, updatedAt := env.now }
  pure true

/-- Open a failed or waiting job again; whether that happened. `guard` is the condition of
the update on the job that was read. -/
def reopenJob (env : Env) (id : ℤ) (guard : MediaTransferJob → MediaTransferJob → Bool)
    (f : MediaTransferJob → MediaTransferJob) (w : World) : Except Err Bool × World :=
  dbTransaction env (do
    sql env 0
    let w ← Tx.read
    match w.jobs id with
    | none => Tx.abort .recordNotFound
    | some j =>
      if j.status = .failed ∨ j.status = .retry then do
        let n ← jobsTable.update (env.fault 1) .database id (guard j) f
        if n = 1 then reopenTask env j else pure false
      else pure false) w

/-- An administrator opens a failed job again. -/
def retryMediaTransferJob (env : Env) (id : ℤ) : World → Except Err Bool × World :=
  reopenJob env id (fun _ j => decide (j.status = .failed) || decide (j.status = .retry))
    (MediaTransferJob.reopened env.now)

/-- An operator's input for a transfer that is tried again. -/
structure MediaTransferInput where
  (sourceCiphertext optionsCiphertext spoolFile : String)
  manualFile : Bool
  requestedProvider : String
  byteSize : ℤ
  (sha256 fileName contentType : String)

/-- The job starts again with another file. -/
def MediaTransferJob.replaced (now : ℤ) (input : MediaTransferInput) (j : MediaTransferJob) :
    MediaTransferJob :=
  { j.reopened now with
    sourceCiphertext := input.sourceCiphertext
    optionsCiphertext := input.optionsCiphertext
    responseCiphertext := ""
    candidateURLCiphertext := ""
    candidateProvider := ""
    spoolFile := input.spoolFile
    manualFile := input.manualFile
    requestedProvider := input.requestedProvider
    byteSize := input.byteSize
    sha256 := input.sha256
    fileName := input.fileName
    contentType := input.contentType }

open MediaTransferJob

/-- An administrator replaces the file, whatever state the job was read in. -/
def replaceMediaTransferInput (env : Env) (id : ℤ) (input : MediaTransferInput) (w : World) :
    Except Err Bool × World :=
  if input.spoolFile = "" ∨ input.requestedProvider = "" then (.error .invalidData, w)
  else reopenJob env id (fun read j => decide (j.status = read.status))
    (replaced env.now input) w

/-- The task after its result was stored. -/
def Task.published (now : ℤ) (publicURL responseData : String) (t : Task) : Task :=
  { t with
    status := .success
    mediaTransferState := some .ready
    progress := "100%"
    finishTime := now
    privateData := { t.privateData with resultURL := publicURL }
    data := responseData
    updatedAt := now }

/-- The task waits for its transfer. -/
def awaitsMedia (t : Task) : Bool :=
  decide (t.status = .inProgress) && decide (t.mediaTransferState = some .pending)

/-- The task and its job are completed together. -/
def publish (env : Env) (job : Lease) (publicURL responseData : String) : DBTx Bool := do
  let n ← tasksTable.update (env.fault 2) .database job.taskRecordID awaitsMedia
    (Task.published env.now publicURL responseData)
  if n = 1 then do
    jobsTable.updateOne (env.fault 3) .database .invalidTransaction job.id
      (heldBy job.token) (completed env.now publicURL)
    pure true
  else pure false

/-- Publish the stored URL, if the lease is still ours and the task still waits for it. -/
def completeMediaTransfer (env : Env) (job : Lease) (publicURL responseData : String) (w : World) :
    Except Err Bool × World :=
  dbTransaction env (do
    sql env 0
    let w ← Tx.read
    match (w.jobs job.id).filter (heldBy job.token) with
    | none => Tx.abort .recordNotFound
    | some _ => do
      sql env 1
      match w.tasks job.taskRecordID with
      | none => Tx.abort .recordNotFound
      | some t => if awaitsMedia t then publish env job publicURL responseData else pure false) w

section Cases
variable (env : Env) (w : World)

/-- A call that is one transaction fails and changes nothing, or does what its body does. -/
theorem commit_cases {α : Type} {call : Except Err α × World} {rejected : Bool} {body : DBTx α}
    (h : call = commit rejected .database body w) :
    (∃ e, call = (.error e, w)) ∨ ∃ a w', body w = .ok (a, w') ∧ call = (.ok a, w') := by
  subst h
  rcases (atomic_commit rejected Err.database body).cases w with ⟨a, w', h⟩ | ⟨e, h⟩
  · exact .inr ⟨a, w', (commit_eq_ok.mp h).2, h⟩
  · exact .inl ⟨e, h⟩

/-- The task waits, and its job is there. -/
def World.enqueued (now : ℤ) (t : Task) (input : MediaTransferSource) (w : World) : World :=
  { w with
    tasks := w.tasks.modify t.id (t.enqueuedFrom now)
    jobs := w.jobs.put w.nextJobId (input.job w.nextJobId t.id now)
    jobOfTask := w.jobOfTask.put t.id w.nextJobId
    nextJobId := w.nextJobId + 1 }

/-- An enqueue that did not win either failed, or found the row changed. -/
theorem enqueueMediaTransferAndTask_cases (t previous : Task) (input : MediaTransferSource) :
    ((enqueueMediaTransferAndTask env t previous input w).2 = w ∧
        ((∃ e, (enqueueMediaTransferAndTask env t previous input w).1 = .error e) ∨
          (enqueueMediaTransferAndTask env t previous input w).1 = .ok false ∧
            ∀ r, w.tasks t.id = some r → previous.isPrevious r = false)) ∨
      ∃ r, w.tasks t.id = some r ∧ previous.isPrevious r = true ∧ w.jobOfTask t.id = none ∧
        enqueueMediaTransferAndTask env t previous input w =
          (.ok true, w.enqueued env.now t input) := by
  by_cases hid : t.id ≤ 0
  · rw [enqueueMediaTransferAndTask, if_pos hid]
    exact .inl ⟨rfl, .inl ⟨_, rfl⟩⟩
  have hcall : enqueueMediaTransferAndTask env t previous input w = _ := if_neg hid
  rcases commit_cases w hcall with ⟨e, he⟩ | ⟨b, w', hbody, hdb⟩
  · exact .inl ⟨by rw [he], .inl ⟨e, by rw [he]⟩⟩
  rw [hdb]
  rw [Tx.bind_eq_ok] at hbody
  obtain ⟨n, v, hupd, hins⟩ := hbody
  rw [TableIn.update_eq_ok] at hupd
  obtain ⟨-, ⟨rfl, ⟨r, hr, hp⟩, rfl⟩ | ⟨rfl, hchd, rfl⟩⟩ := hupd
  · -- the task was written, so the job must have been inserted
    rw [if_pos rfl, insertJob, sql_bind_eq_ok, Tx.read_bind] at hins
    obtain ⟨-, hins⟩ := hins
    simp only [tasksTable_set, tasksTable_get] at hins hr
    cases hjob : w.jobOfTask t.id with
    | some id => simp [hjob] at hins
    | none =>
      simp only [hjob, Tx.modify_bind] at hins
      cases hins
      exact .inr ⟨r, hr, hp, rfl, rfl⟩
  · simp only [Nat.zero_ne_one] at hins
    cases hins
    exact .inl ⟨rfl, .inr ⟨rfl, hchd⟩⟩

/-- A claim gets the job if it is due, and else changes nothing. -/
theorem claimDueMediaTransfer_cases (id : ℤ) (token : String) :
    ((claimDueMediaTransfer env id token w).2 = w ∧
        ∀ l, (claimDueMediaTransfer env id token w).1 ≠ .ok (some l)) ∨
      ∃ j, w.jobs id = some j ∧ j.due env.now = true ∧
        claimDueMediaTransfer env id token w = (.ok (some ⟨id, j.taskRecordID, token⟩),
          { w with jobs := w.jobs.modify id (claimed env.now token) }) := by
  rcases commit_cases w (rfl : claimDueMediaTransfer env id token w = _) with
    ⟨e, hcall⟩ | ⟨r, w', h, hcall⟩
  · exact .inl ⟨by rw [hcall], fun l => by simp [hcall]⟩
  · rw [Tx.bind_eq_ok] at h
    obtain ⟨n, v, hupd, hret⟩ := h
    rw [TableIn.update_eq_ok] at hupd
    cases hret
    obtain ⟨-, ⟨rfl, ⟨j, hj, hdue⟩, rfl⟩ | ⟨rfl, -, rfl⟩⟩ := hupd
    · simp only [jobsTable_get] at hj
      refine .inr ⟨j, hj, hdue, ?_⟩
      simpa [hj, claimed] using hcall
    · exact .inl ⟨by rw [hcall], fun l => by simp [hcall]⟩

/-- Only the holder's write has an effect. -/
theorem updateHeldJob_cases (id : ℤ) (token : String) (f : MediaTransferJob → MediaTransferJob) :
    (updateHeldJob env id token f w).2 = w ∨ ∃ j, w.jobs id = some j ∧ j.heldBy token = true ∧
        (updateHeldJob env id token f w).2 = { w with jobs := w.jobs.modify id f } := by
  rcases commit_cases w (rfl : updateHeldJob env id token f w = _) with
    ⟨e, hcall⟩ | ⟨u, w', h, hcall⟩
  · exact .inl (by rw [hcall])
  · rw [TableIn.updateOne_eq_ok] at h
    obtain ⟨-, ⟨j, hj, hheld⟩, rfl⟩ := h
    exact .inr ⟨j, hj, hheld, by rw [hcall]; rfl⟩

/-- The task after its transfer has failed. -/
def Task.mediaFailed (now : ℤ) (t : Task) : Task :=
  { t with mediaTransferState := some .failed, updatedAt := now }

/-- The task after its transfer was opened again. -/
def Task.mediaReopened (now : ℤ) (t : Task) : Task :=
  { t with mediaTransferState := some .pending, updatedAt := now }

theorem scheduleMediaTransferRetry_cases (job : Lease) (nextRetryAt : ℤ) (lastError : String)
    (failed : Bool) :
    let w' := (scheduleMediaTransferRetry env job nextRetryAt lastError failed w).2
    let jobs := w.jobs.modify job.id
      (scheduled env.now nextRetryAt lastError failed)
    w' = w ∨ ∃ j, w.jobs job.id = some j ∧ j.heldBy job.token = true ∧
      (failed = false ∧ w' = { w with jobs := jobs } ∨
        failed = true ∧ (∃ t, w.tasks job.taskRecordID = some t ∧
            t.mediaTransferState = some .pending) ∧
          w' = { w with
            jobs := jobs
            tasks := w.tasks.modify job.taskRecordID (Task.mediaFailed env.now) }) := by
  intro w' jobs
  rcases commit_cases w
    (rfl : scheduleMediaTransferRetry env job nextRetryAt lastError failed w = _) with
    ⟨e, hdb⟩ | ⟨u, v, hbody, hdb⟩
  · exact .inl (congrArg Prod.snd hdb)
  have hw' : w' = v := congrArg Prod.snd hdb
  rw [Tx.bind_eq_ok] at hbody
  obtain ⟨⟨⟩, v₁, hjob, htask⟩ := hbody
  rw [TableIn.updateOne_eq_ok] at hjob
  obtain ⟨-, ⟨j, hj, hheld⟩, rfl⟩ := hjob
  refine .inr ⟨j, hj, hheld, ?_⟩
  cases failed with
  | false =>
    cases htask
    exact .inl ⟨rfl, hw'.trans rfl⟩
  | true =>
    rw [Tx.onlyIf_true, TableIn.updateOne_eq_ok] at htask
    obtain ⟨-, ⟨t, ht, hp⟩, rfl⟩ := htask
    exact .inr ⟨rfl, ⟨t, ht, of_decide_eq_true hp⟩, hw'⟩

/-- A job that was opened again was failed or waiting, and so was its task. -/
theorem reopenJob_cases (id : ℤ) (guard : MediaTransferJob → MediaTransferJob → Bool)
    (f : MediaTransferJob → MediaTransferJob) :
    ((reopenJob env id guard f w).2 = w ∧ (reopenJob env id guard f w).1 ≠ .ok true) ∨
      ∃ j t, w.jobs id = some j ∧ (j.status = .failed ∨ j.status = .retry) ∧
        w.tasks j.taskRecordID = some t ∧
        t.mediaTransferState = some (expectedTaskState j) ∧ t.status = .inProgress ∧
        reopenJob env id guard f w = (.ok true,
          { w with
            jobs := w.jobs.modify id f
            tasks := w.tasks.modify j.taskRecordID (Task.mediaReopened env.now) }) := by
  rcases commit_cases w (rfl : reopenJob env id guard f w = _) with
    ⟨e, he⟩ | ⟨b, w', hbody, hdb⟩
  · exact .inl ⟨by rw [he], by simp [he]⟩
  rw [hdb]
  rw [sql_bind_eq_ok, Tx.read_bind] at hbody
  obtain ⟨-, hbody⟩ := hbody
  cases hj : w.jobs id with
  | none => simp [hj] at hbody
  | some j =>
    simp only [hj] at hbody
    split_ifs at hbody with hopen
    · rw [Tx.bind_eq_ok] at hbody
      obtain ⟨n, v, hupd, htask⟩ := hbody
      rw [TableIn.update_eq_ok] at hupd
      obtain ⟨-, ⟨rfl, -, rfl⟩ | ⟨rfl, -, rfl⟩⟩ := hupd
      · rw [if_pos rfl, reopenTask, Tx.bind_eq_ok] at htask
        obtain ⟨⟨⟩, v', htask, hret⟩ := htask
        rw [TableIn.updateOne_eq_ok] at htask
        obtain ⟨-, ⟨t, ht, hp⟩, rfl⟩ := htask
        simp only [Bool.and_eq_true, decide_eq_true_eq] at hp
        cases hret
        exact .inr ⟨j, t, rfl, hopen, ht, hp.1, hp.2, rfl⟩
      · simp only [Nat.zero_ne_one] at htask
        cases htask
        exact .inl ⟨rfl, by simp⟩
    · cases hbody
      exact .inl ⟨rfl, by simp⟩

/-- A completion that took effect found the lease held and the task waiting. -/
theorem completeMediaTransfer_cases (job : Lease) (publicURL responseData : String) :
    ((completeMediaTransfer env job publicURL responseData w).2 = w ∧
        (completeMediaTransfer env job publicURL responseData w).1 ≠ .ok true) ∨
      ∃ j t, w.jobs job.id = some j ∧ j.heldBy job.token = true ∧
        w.tasks job.taskRecordID = some t ∧ awaitsMedia t = true ∧
        completeMediaTransfer env job publicURL responseData w = (.ok true,
          { w with
            jobs := w.jobs.modify job.id (completed env.now publicURL)
            tasks := w.tasks.modify job.taskRecordID
              (Task.published env.now publicURL responseData) }) := by
  rcases commit_cases w (rfl : completeMediaTransfer env job publicURL responseData w = _) with
    ⟨e, he⟩ | ⟨b, w', hbody, hdb⟩
  · exact .inl ⟨by rw [he], by simp [he]⟩
  rw [hdb]
  rw [sql_bind_eq_ok, Tx.read_bind] at hbody
  obtain ⟨-, hbody⟩ := hbody
  cases hj : (w.jobs job.id).filter (heldBy job.token) with
  | none => simp [hj] at hbody
  | some j =>
    obtain ⟨hjob, hheld⟩ := Option.filter_eq_some_iff.mp hj
    simp only [hj] at hbody
    rw [sql_bind_eq_ok] at hbody
    obtain ⟨-, hbody⟩ := hbody
    cases ht : w.tasks job.taskRecordID with
    | none => simp [ht] at hbody
    | some t =>
      simp only [ht] at hbody
      split_ifs at hbody with hawait
      · rw [publish, Tx.bind_eq_ok] at hbody
        obtain ⟨n, v, hupd, hclose⟩ := hbody
        rw [TableIn.update_eq_ok] at hupd
        obtain ⟨-, ⟨rfl, -, rfl⟩ | ⟨rfl, -, rfl⟩⟩ := hupd
        · rw [if_pos rfl, Tx.bind_eq_ok] at hclose
          obtain ⟨⟨⟩, v', hclose, hret⟩ := hclose
          rw [TableIn.updateOne_eq_ok] at hclose
          obtain ⟨-, -, rfl⟩ := hclose
          cases hret
          exact .inr ⟨j, t, hjob, hheld, rfl, hawait, rfl⟩
        · simp only [Nat.zero_ne_one] at hclose
          cases hclose
          exact .inl ⟨rfl, by simp⟩
      · cases hbody
        exact .inl ⟨rfl, by simp⟩

/-- The task and its job are written together, or neither is. -/
theorem enqueueVideoMediaTransfer_cases (ready : Bool) (t previous : Task)
    (input : MediaTransferSource) :
    ((enqueueVideoMediaTransfer env ready t previous input w).2.2 = w ∧
        ((∃ e, (enqueueVideoMediaTransfer env ready t previous input w).1 = .error e) ∨
          (enqueueVideoMediaTransfer env ready t previous input w).1 = .ok false ∧
            ∀ r, w.tasks t.id = some r → previous.isPrevious r = false)) ∨
      ∃ r, w.tasks t.id = some r ∧ previous.isPrevious r = true ∧ w.jobOfTask t.id = none ∧
        enqueueVideoMediaTransfer env ready t previous input w =
          (.ok true, markVideoMediaTransferPending t,
            w.enqueued env.now (markVideoMediaTransferPending t) input) := by
  unfold enqueueVideoMediaTransfer
  split_ifs
  · exact .inl ⟨rfl, .inl ⟨_, rfl⟩⟩
  rcases enqueueMediaTransferAndTask_cases env w (markVideoMediaTransferPending t) previous
    input with hnot | ⟨r, hr, hp, hnone, hcall⟩
  · exact .inl hnot
  · exact .inr ⟨r, hr, hp, hnone, by dsimp only; rw [hcall]⟩

end Cases

end NewApi
