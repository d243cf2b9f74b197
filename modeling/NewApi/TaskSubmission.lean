import NewApi.QuotaLedger
import NewApi.BillingSession
import NewApi.TaskBilling

/-!
# Submission of asynchronous tasks

A task request is tried on one channel after another. An attempt prices the request,
opens the billing session if there is none yet, and persists a task row before it contacts
the upstream; later attempts find the row and leave it alone. The row is then completed,
failed, swept or recovered by guarded writes from copies that were loaded at some time,
and billed from such copies.
-/
namespace NewApi

/-- A price of the request. Prices and ratios are not negative, and a free model costs
nothing. -/
structure PriceData where
  quota : ℤ
  freeModel : Bool
  nonneg : 0 ≤ quota
  free : freeModel = true → quota = 0

/-- What the upstream accepted, with the quota after the adjustment on submission. -/
structure TaskSubmitResult where
  (upstreamTaskID taskData platform : String)
  quota : ℤ

/-- The channel types that the task row depends on. -/
inductive ChannelType where
  | gemini | vertexAi | v6k | zongheng | other
  deriving DecidableEq

/-- The channel's part of the task row. `nextPollAt` is the time that the channel's helper
computes from the response, if it sets one. -/
structure ChannelMeta where
  channelId : ℤ
  channelType : ChannelType
  (apiKey upstreamEndpoint upstreamModelName : String)
  nextPollAt : Option ℤ

/-- The types whose key is stored with a new row. -/
def ChannelType.storesKey : ChannelType → Bool
  | gemini | vertexAi | v6k => true
  | zongheng | other => false

/-- One attempt: its channel, its price, what the upstream answered, and the conditions of
its database calls. A free attempt is not charged after submission either. -/
structure Attempt where
  channel : ChannelMeta
  (platform group action originModelName : String)
  billingContext : TaskBillingContext
  price : PriceData
  result : Option TaskSubmitResult
  free : price.freeModel = true → ∀ r, result = some r → r.quota = 0
  openEnv : OpenEnv
  env : Env

/-- A task request. `copies` holds the values of its row that someone has loaded, and `net`
what the request's own steps have removed from the user's wallet; both are bookkeeping of
the model. `closed` says that the loop over the attempts has ended in an error. -/
structure SubmissionState where
  world : World
  info : RelayInfo
  publicTaskID : String
  billing : Option BillingSession
  persistentTaskID : ℤ
  result : Option (TaskSubmitResult × Attempt)
  closed : Bool
  work : List RefundAction
  copies : List Task
  net : ℤ

/-- A request before its first attempt. -/
def SubmissionState.start (info : RelayInfo) (publicTaskID : String) (world : World) :
    SubmissionState where
  world := world
  info := info
  publicTaskID := publicTaskID
  billing := none
  persistentTaskID := 0
  result := none
  closed := false
  work := []
  copies := []
  net := 0

namespace SubmissionState
variable (s : SubmissionState)

/-- Book what a step of the request removed from the user's wallet. -/
def charge (world : World) : SubmissionState :=
  { s with
    world := world
    net := s.net + (s.world.reconciled .userQuota s.info.userId -
      world.reconciled .userQuota s.info.userId) }

/-- Open the billing session, unless there is one or the attempt is free. -/
def preConsumeBilling (a : Attempt) : Except NewAPIError Unit × SubmissionState :=
  if s.billing.isNone && !a.price.freeModel then
    let info := { s.info with forcePreConsume := true }
    match newBillingSession a.openEnv info a.price.quota s.world with
    | (.error e, w') => (.error e, { s.charge w' with info := info })
    | (.ok session, w') =>
      (.ok (), { s.charge w' with info := session.relayInfo, billing := some session })
  else (.ok (), s)

def initTask (a : Attempt) (id : ℤ) : Task where
  id := id
  updatedAt := a.env.now
  taskID := s.publicTaskID
  platform := a.platform
  userId := s.info.userId
  group := a.group
  channelId := a.channel.channelId
  quota := (s.billing.map BillingSession.preConsumedQuota).getD 0
  action := a.action
  status := .notStart
  failReason := ""
  submitTime := a.env.now
  startTime := 0
  finishTime := 0
  progress := "0%"
  originModelName := a.originModelName
  upstreamModelName := a.channel.upstreamModelName
  privateData :=
    { nextPollAt := 0
      key := if a.channel.channelType.storesKey then a.channel.apiKey else ""
      upstreamTaskID := ""
      upstreamEndpoint := "", resultURL := "", upstreamError := ""
      requestId := s.info.requestId, billingSource := s.info.billingSource
      subscriptionId := s.info.subscriptionId, tokenId := s.info.tokenId
      billingContext := some a.billingContext }
  data := ""
  mediaTransferState := none
  billingStatus := .submitting
  billingTargetQuota := a.price.quota
  billingRetryCount := 0
  billingNextRetryAt := 0
  billingLastError := ""

/-- Insert the row, or check the one that an earlier attempt inserted. -/
def ensurePersistentTaskSubmission (a : Attempt) : Except Err Unit × SubmissionState :=
  if 0 < s.persistentTaskID then
    if a.env.fault 0 then (.error .database, s)
    else match s.world.tasks s.persistentTaskID with
      | none => (.error .recordNotFound, s)
      | some t =>
        if t.taskID ≠ s.publicTaskID ∨ t.userId ≠ s.info.userId then
          (.error (.text "persistent task submission identity mismatch"), s)
        else (.ok (), s)
  else if a.env.fault 1 then (.error .database, s)
  else
    let id := s.world.nextTaskId
    (.ok (), { s with
      world := { s.world with
        tasks := s.world.tasks.put id (s.initTask a id)
        nextTaskId := id + 1 }
      persistentTaskID := id })

/-- One attempt: the session, the row, and then the upstream. -/
def relayTaskSubmit (a : Attempt) : SubmissionState :=
  match s.preConsumeBilling a with
  | (.error _, s') => s'
  | (.ok _, s') =>
    match s'.ensurePersistentTaskSubmission a with
    | (.error _, s'') => s''
    | (.ok _, s'') => { s'' with result := a.result.map fun r => (r, a) }

end SubmissionState

/-- The copy as a completed submission writes it. -/
def Task.completed (t : Task) (info : RelayInfo) (billed : Bool) (r : TaskSubmitResult)
    (a : Attempt) : Task :=
  { t with
    platform := r.platform
    channelId := a.channel.channelId
    privateData := { t.privateData with
      upstreamTaskID := r.upstreamTaskID
      upstreamEndpoint := a.channel.upstreamEndpoint
      key := if a.channel.channelType = .v6k then a.channel.apiKey else t.privateData.key
      billingSource := info.billingSource
      subscriptionId := info.subscriptionId
      tokenId := info.tokenId
      billingContext := some a.billingContext
      nextPollAt := a.channel.nextPollAt.getD t.privateData.nextPollAt }
    billingTargetQuota := r.quota
    quota := if billed then t.quota else r.quota
    billingStatus := if billed then .submitPending else .settled
    data := r.taskData
    action := a.action }

/-- The copy as a failure with a full refund writes it. -/
def Task.failedWithRefund (t : Task) (now : ℤ) (reason upstreamError : String) : Task :=
  { t with
    status := .failure
    progress := "100%"
    failReason := reason
    finishTime := now
    privateData := { t.privateData with upstreamError := upstreamError }
    billingStatus := .finalizePending
    billingTargetQuota := 0 }

/-- The copy as the sweep of timed-out tasks writes it. -/
def Task.timedOut (t : Task) (now : ℤ) (reason legacyReason : String) : Task :=
  if t.billingStatus = .legacy then
    { t with status := .failure, progress := "100%", finishTime := now, failReason := legacyReason }
  else t.failedWithRefund now reason t.privateData.upstreamError

/-- The query of the sweep. -/
def Task.isTimedOut (cutoff : ℤ) (t : Task) : Bool :=
  decide (t.progress ≠ "100%") && decide (t.status ≠ .failure) && decide (t.status ≠ .success) &&
    decide (t.mediaTransferState = none) && decide (t.submitTime < cutoff)

/-- The query of the recovery of interrupted submissions. -/
def Task.isStaleSubmission (cutoff : ℤ) (t : Task) : Bool :=
  decide (t.billingStatus = .submitting) && decide (t.updatedAt < cutoff)

/-- What the poller found out about a task that has ended, and the row it writes then. -/
structure TaskEnd where
  pricing : Pricing
  result : Option TaskInfo
  status : TaskStatus
  failReason : String
  now : ℤ

def Task.ended (t : Task) (e : TaskEnd) : Task :=
  (prepareTaskFinalBilling e.pricing
    { t with
      status := e.status
      progress := "100%"
      finishTime := e.now
      failReason := e.failReason } e.result).1

/-- The steps that use a copy name its place in the list of loaded copies. -/
inductive SubmissionCall where
  | attempt (a : Attempt)
  | giveUp
  | refundWork (env : Env)
  | load
  | complete (n : ℕ) (env : Env)
  | fail (n : ℕ) (env : Env) (reason : String) (upstreamError : Option String)
  | sweep (n : ℕ) (env : Env) (cutoff : ℤ) (reason legacyReason : String)
  | recover (n : ℕ) (env : Env) (cutoff : ℤ) (reason : String)
  | finish (n : ℕ) (env : Env) (e : TaskEnd)
  | applyPending (n : ℕ) (c : BillingConditions) (reason : String)
  | scheduleRetry (n : ℕ) (env : Env) (nextRetryAt : ℤ) (lastError : String)
  | other (op : LedgerOp)

namespace SubmissionState

/-- A guarded write of what becomes of a copy, if the copy is eligible. -/
def write (s : SubmissionState) (env : Env) (n : ℕ) (eligible : Task → Bool) (f : Task → Task) :
    SubmissionState :=
  match s.copies[n]? with
  | none => s
  | some t =>
    if eligible t then
      { s with world := (updateWithSnapshot env (f t) t.snapshot s.world).2 }
    else s

def step : SubmissionCall → SubmissionState → SubmissionState
  -- the loop ends with the first attempt that the upstream accepted
  | .attempt a, s => if s.closed || s.result.isSome then s else s.relayTaskSubmit a
  | .giveUp, s =>
    if s.closed || s.result.isSome then s
    else match s.billing with
      | none => { s with closed := true }
      | some session =>
        -- once a row owns the reservation, its billing state is the only refund path
        if s.persistentTaskID = 0 then
          { s with
            closed := true
            billing := some session.refund.1
            work := s.work ++ session.refund.2 }
        else { s with closed := true }
  | .refundWork env, s =>
    match s.work with
    | [] => s
    | action :: rest =>
      let r := action.exec env s.world
      { s.charge r.2 with work := action.retry r.1 ++ rest }
  | .load, s =>
    if s.persistentTaskID = 0 then s
    else match s.world.tasks s.persistentTaskID with
      | none => s
      | some t => { s with copies := s.copies ++ [t] }
  | .complete n env, s =>
    match s.result with
    | none => s
    | some (r, a) => s.write env n (fun t => decide (t.billingStatus = .submitting))
        fun t => t.completed s.info s.billing.isSome r a
  | .fail n env reason upstreamError, s =>
    -- only a video request stores the upstream's own message
    if s.closed || s.result.isSome then
      s.write env n (fun t => decide (t.billingStatus = .submitting))
        fun t => t.failedWithRefund env.now reason
          (upstreamError.getD t.privateData.upstreamError)
    else s
  | .sweep n env cutoff reason legacyReason, s =>
    s.write env n (Task.isTimedOut cutoff) fun t => t.timedOut env.now reason legacyReason
  | .recover n env cutoff reason, s =>
    s.write env n (Task.isStaleSubmission cutoff) fun t =>
      t.failedWithRefund (if t.finishTime = 0 then env.now else t.finishTime) reason
        t.privateData.upstreamError
  | .finish n env e, s => s.write env n (fun _ => true) fun t => t.ended e
  | .applyPending n c reason, s =>
    match s.copies[n]? with
    | none => s
    | some t => s.charge (applyPendingTaskBilling c t reason s.world).2.2
  | .scheduleRetry n env nextRetryAt lastError, s =>
    match s.copies[n]? with
    | none => s
    | some t => { s with world :=
        (scheduleTaskBillingRetry env t.id t.billingStatus nextRetryAt lastError s.world).2 }
  | .other op, s => { s with world := op.step s.world }

end SubmissionState

end NewApi
