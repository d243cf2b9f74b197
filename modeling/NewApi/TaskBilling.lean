import NewApi.GoStrings
import NewApi.BatchUpdate
import NewApi.SubscriptionQuota

/-!
# Billing of asynchronous tasks

A task row carries the charge of its request through two phases: the adjustment after
submission and the final one. Writers of the row work on copies and guard their write by
the snapshot they started from. The billing transaction compares and sets the billing
state, moves the money, and in the final phase writes an outbox event, all or nothing.
-/
namespace NewApi

def TaskBillingStatus.text : TaskBillingStatus → String
  | legacy => "LEGACY"
  | submitting => "SUBMITTING"
  | submitPending => "SUBMIT_PENDING"
  | pending => "PENDING"
  | finalizePending => "FINALIZE_PENDING"
  | settled => "SETTLED"
  | refunded => "REFUNDED"

/-- What a poll compares to see whether the task has changed. -/
structure TaskSnapshot where
  nextPollAt : ℤ
  status : TaskStatus
  progress : String
  (startTime finishTime : ℤ)
  (failReason resultURL : String)
  mediaTransferState : Option MediaTransferStatus
  data : String
  quota : ℤ
  billingStatus : TaskBillingStatus
  (billingTargetQuota billingRetryCount billingNextRetryAt : ℤ)
  billingLastError : String
  deriving DecidableEq

/-- The columns that a poll can change. -/
def Task.snapshot (t : Task) : TaskSnapshot where
  nextPollAt := t.privateData.nextPollAt
  status := t.status
  progress := t.progress
  startTime := t.startTime
  finishTime := t.finishTime
  failReason := t.failReason
  resultURL := t.privateData.resultURL
  mediaTransferState := t.mediaTransferState
  data := t.data
  quota := t.quota
  billingStatus := t.billingStatus
  billingTargetQuota := t.billingTargetQuota
  billingRetryCount := t.billingRetryCount
  billingNextRetryAt := t.billingNextRetryAt
  billingLastError := t.billingLastError

/-- The columns of the row that a guarded write compares. -/
def TaskSnapshot.guards (s : TaskSnapshot) (r : Task) : Bool :=
  decide (r.status = s.status) && decide (r.billingStatus = s.billingStatus) &&
    decide (r.quota = s.quota) && decide (r.billingTargetQuota = s.billingTargetQuota) &&
    decide (r.billingRetryCount = s.billingRetryCount) &&
    decide (r.billingNextRetryAt = s.billingNextRetryAt) &&
    decide (r.mediaTransferState = s.mediaTransferState)

/-- Write all columns of the copy, if the row still is as the snapshot says. -/
def updateWithSnapshot (env : Env) (t : Task) (snapshot : TaskSnapshot) (w : World) :
    Except Err Bool × World :=
  if env.fault 0 then (.error .database, w)
  else
    let r := w.tasks.updateWhere t.id snapshot.guards fun _ => { t with updatedAt := env.now }
    (.ok (decide (0 < r.2)), { w with tasks := r.1 })

/-- The error is cut at 512 characters here; the source cuts it at 512 bytes. -/
def Task.retryScheduled (now nextRetryAt : ℤ) (lastError : String) (t : Task) : Task :=
  { t with
    billingRetryCount := t.billingRetryCount + 1
    billingNextRetryAt := nextRetryAt
    billingLastError := String.ofList (lastError.toList.take 512)
    updatedAt := now }

/-- Push the next attempt of a pending billing step back. -/
def scheduleTaskBillingRetry (env : Env) (id : ℤ) (status : TaskBillingStatus)
    (nextRetryAt : ℤ) (lastError : String) (w : World) : Except Err Unit × World :=
  if id ≤ 0 then (.error .recordNotFound, w)
  else if env.fault 0 then (.error .database, w)
  else
    let r := w.tasks.updateWhere id (fun t => decide (t.billingStatus = status))
      (Task.retryScheduled env.now nextRetryAt lastError)
    if r.2 = 0 then (.error .recordNotFound, w) else (.ok (), { w with tasks := r.1 })

/-- What the log entry of a movement will say. -/
structure TaskBillingEventPayload where
  (content modelName group other : String)
  logEnabled : Bool

/-- The zero value, with no status, stands for a call that did not apply. -/
structure TaskBillingApplyResult where
  applied : Bool
  (beforeQuota targetQuota delta : ℤ)
  nextStatus : Option TaskBillingStatus
  eventID : String

/-- The result if another worker has moved the quota. -/
def TaskBillingApplyResult.notApplied : TaskBillingApplyResult := ⟨false, 0, 0, 0, none, ""⟩

namespace Task
variable (t : Task)

/-- What has to be moved: the target less what was taken. -/
def billingDelta : ℤ := t.billingTargetQuota - t.quota

/-- The task has a token. -/
def withToken : Bool := decide (0 < t.privateData.tokenId)

/-- The task is paid from a subscription. -/
def isSubscription : Bool :=
  decide (t.privateData.billingSource = .subscription) && decide (0 < t.privateData.subscriptionId)

end Task

/-- The counters of the user and of the channel. -/
def applyTaskBillingUsageDelta (env : Env) (userID channelID delta : ℤ) : DBTx Unit :=
  if delta = 0 then pure () else do
    usersTable.updateOne (env.fault 12) .database .recordNotFound userID (fun _ => true)
      fun r => { r with usedQuota := r.usedQuota + delta }
    channelsTable.updateOne (env.fault 13) .database .recordNotFound channelID (fun _ => true)
      fun r => { r with usedQuota := r.usedQuota + delta }

/-- The row after its quota was moved. -/
def Task.billed (now : ℤ) (next : TaskBillingStatus) (targetQuota : ℤ) (r : Task) : Task :=
  { r with
    billingStatus := next
    quota := targetQuota
    billingRetryCount := 0
    billingNextRetryAt := 0
    billingLastError := ""
    updatedAt := now }

/-- Compare the billing state with the copy and advance it to the target. -/
def advanceBilling (env : Env) (t : Task) (expected next : TaskBillingStatus) : DBTx Unit :=
  tasksTable.updateOne (env.fault 10) .database .taskBillingCASLost t.id
    (fun r => decide (r.billingStatus = expected) && decide (r.quota = t.quota) &&
      decide (r.billingTargetQuota = t.billingTargetQuota))
    (Task.billed env.now next t.billingTargetQuota)

/-- Whether the subscription is adjusted. A full refund of a subscription whose request
has a pre-consume record is made by whoever marks that record refunded. -/
def claimsSubscription (env : Env) (t : Task) (expected next : TaskBillingStatus) : DBTx Bool :=
  if t.isSubscription = true ∧ expected = .finalizePending ∧ next = .refunded ∧
      t.billingTargetQuota = 0 ∧ t.privateData.requestId.toList.all isSpace = false then do
    let claim ← claimSubscriptionPreConsumeRefundTx env t.privateData.requestId t.userId
      t.privateData.subscriptionId
    match claim.record with
    | some _ => return claim.claimed && decide (t.billingDelta ≠ 0)
    | none => return decide (t.billingDelta ≠ 0)
  else return decide (t.billingDelta ≠ 0)

/-- Moves the quota of the source. -/
def moveFunding (env : Env) (t : Task) (adjustSubscription : Bool) : DBTx Unit :=
  if t.isSubscription then
    Tx.onlyIf adjustSubscription
      (adjustTaskSubscriptionQuota env 6 t.privateData.subscriptionId t.billingDelta)
  else adjustUserQuota env t.userId (-t.billingDelta)

/-- Moves the quota of the source and of the token. -/
def moveTaskFunds (env : Env) (t : Task) (adjustSubscription : Bool) : DBTx Unit :=
  if t.billingDelta = 0 then pure () else do
    moveFunding env t adjustSubscription
    Tx.onlyIf t.withToken (adjustTokenQuota env t.privateData.tokenId (-t.billingDelta))

/-- The rewards for the task are taken back once. -/
def reverseReferralRewards (env : Env) (taskID : ℤ) : DBTx Unit := do
  sql env 11
  Tx.modify fun w => { w with rewards := w.rewards.map fun r =>
    if r.taskRecordID = taskID ∧ r.reversed = false
    then { r with reversed := true, reversedAt := env.now } else r }

/-- A task has one event at most. -/
def finalizeEventID (id : ℤ) : String := "task-billing-finalize-" ++ toString id

/-- The event that is written with the last movement. -/
def Task.finalEvent (t : Task) (now : ℤ) (payload : TaskBillingEventPayload) :
    TaskBillingEvent where
  eventID := finalizeEventID t.id
  taskRecordID := t.id
  taskID := t.taskID
  userID := t.userId
  channelID := t.channelId
  tokenID := t.privateData.tokenId
  logType := if t.billingDelta < 0 then .refund else .consume
  logEnabled := payload.logEnabled
  content := payload.content
  modelName := payload.modelName
  quota := if t.billingDelta < 0 then -t.billingDelta else t.billingDelta
  delta := t.billingDelta
  beforeQuota := t.quota
  targetQuota := t.billingTargetQuota
  group := payload.group
  other := payload.other
  status := .pending
  retryCount := 0
  nextRetryAt := 0
  lastError := ""
  createdAt := now
  updatedAt := now

/-- Insert the event, under the unique indexes on its id and on its task. -/
def createEvent (env : Env) (event : TaskBillingEvent) : DBTx Unit := do
  sql env 14
  let w ← Tx.read
  if w.events.any fun e => e.eventID == event.eventID || e.taskRecordID == event.taskRecordID
  then Tx.abort .duplicatedKey
  else Tx.modify fun w => { w with events := w.events ++ [event] }

/-- What only the final phase does; the event's id. -/
def finalizeTask (env : Env) (t : Task) (next : TaskBillingStatus)
    (payload : TaskBillingEventPayload) : DBTx String := do
  Tx.onlyIf (decide (next = .refunded)) (reverseReferralRewards env t.id)
  applyTaskBillingUsageDelta env t.userId t.channelId t.billingDelta
  createEvent env (t.finalEvent env.now payload)
  return finalizeEventID t.id

/-- The body of the billing transaction. A payload comes with the final phase only. -/
def taskBillingOperation (env : Env) (t : Task) (expected next : TaskBillingStatus)
    (payload : Option TaskBillingEventPayload) : DBTx String := do
  advanceBilling env t expected next
  let adjustSubscription ← claimsSubscription env t expected next
  moveTaskFunds env t adjustSubscription
  match payload with
  | some p => finalizeTask env t next p
  | none => return ""

/-- The transaction, with the pending quota deltas of what it moves folded in. -/
def runTaskBilling {α : Type} (env : Env) (t : Task) (operation : DBTx α) (w : World) :
    Except Err α × World :=
  if t.isSubscription then
    if t.withToken then withReconciledTokenQuota env t.privateData.tokenId operation w
    else dbTransaction env operation w
  else withReconciledWalletQuota env t.userId t.privateData.tokenId t.withToken operation w

/-- Why a call is refused before its transaction starts. -/
def taskBillingRefusal (t : Task) (expectedStatus nextStatus : TaskBillingStatus)
    (eventPayload : Option TaskBillingEventPayload) : Option Err :=
  if t.id ≤ 0 then some (.text "invalid task")
  else if expectedStatus ≠ .submitPending ∧ expectedStatus ≠ .finalizePending then
    some (.text ("unsupported task billing status \"" ++ expectedStatus.text ++ "\""))
  else if nextStatus ≠ .pending ∧ nextStatus ≠ .settled ∧ nextStatus ≠ .refunded then
    some (.text ("unsupported next task billing status \"" ++ nextStatus.text ++ "\""))
  else if t.billingTargetQuota < 0 then
    some (.text "task billing target quota cannot be negative")
  else if expectedStatus = .finalizePending ∧ eventPayload = none then
    some (.text "final task billing requires an outbox event")
  else if expectedStatus ≠ .finalizePending ∧ eventPayload ≠ none then
    some (.text "task billing outbox event is only supported during finalization")
  else none

/-- A refused call has not begun a transaction. -/
def applyTaskBilling (env : Env) (t : Task) (expectedStatus nextStatus : TaskBillingStatus)
    (eventPayload : Option TaskBillingEventPayload) (w : World) :
    Except Err TaskBillingApplyResult × World :=
  match taskBillingRefusal t expectedStatus nextStatus eventPayload with
  | some e => (.error e, w)
  | none =>
    match runTaskBilling env t
        (taskBillingOperation env t expectedStatus nextStatus eventPayload) w with
    | (.error .taskBillingCASLost, w') => (.ok .notApplied, w')
    | (.error e, w') => (.error e, w')
    | (.ok eventID, w') => (.ok
        { applied := true, beforeQuota := t.quota, targetQuota := t.billingTargetQuota
          delta := t.billingDelta, nextStatus := some nextStatus, eventID := eventID }, w')

/-- What a poll or a fetch learned about the task from upstream. -/
structure TaskInfo where
  status : TaskStatus
  (url progress reason : String)
  totalTokens : ℤ

/-- Prices come from settings and adaptors: `ratioQuota` is the product of the ratios, if
the model has one, and `adjustBillingOnComplete` is the adaptor's, if there is one. -/
structure Pricing where
  ratioQuota : Task → ℤ → Option (ℤ × String)
  adjustBillingOnComplete : Option (Task → Option TaskInfo → ℤ)

/-- The price by tokens, where it is positive. -/
def calculateTaskQuotaByTokens (p : Pricing) (t : Task) (totalTokens : ℤ) : Option (ℤ × String) :=
  if totalTokens ≤ 0 then none
  else (p.ratioQuota t totalTokens).filter fun r => decide (0 < r.1)

/-- Freeze the target charge before a terminal status is persisted; the reason. -/
def prepareTaskFinalBilling (p : Pricing) (t : Task) (taskResult : Option TaskInfo) :
    Task × String :=
  let baseQuota := if t.billingStatus = .submitPending then t.billingTargetQuota else t.quota
  let t := { t with billingStatus := .finalizePending }
  if t.status = .failure then ({ t with billingTargetQuota := 0 }, t.failReason)
  else
    let t := { t with billingTargetQuota := baseQuota }
    if (t.privateData.billingContext.map TaskBillingContext.perCallBilling).getD false then
      (t, "按次计费")
    else
      let adjusted := (p.adjustBillingOnComplete.map fun f => f t taskResult).getD 0
      if 0 < adjusted then ({ t with billingTargetQuota := adjusted }, "adaptor计费调整")
      else match taskResult.bind fun r => calculateTaskQuotaByTokens p t r.totalTokens with
        | some (actualQuota, reason) => ({ t with billingTargetQuota := actualQuota }, reason)
        | none => (t, "保持预扣额度")

/-- The model that the price was fixed for. -/
def taskModelName (t : Task) : String :=
  match t.privateData.billingContext with
  | some bc => if bc.originModelName ≠ "" then bc.originModelName else t.originModelName
  | none => t.originModelName

/-- The conditions of a billing step: the transaction's, whether there is a cache and
whether consumption is logged, and the rendering of the event's other data. -/
structure BillingConditions where
  env : Env
  redisEnabled : Bool
  logConsumeEnabled : Bool
  otherText : Task → String → String

/-- No statement fails, and no cache is used. -/
def BillingConditions.calm : BillingConditions := ⟨.calm 9, false, true, fun _ _ => ""⟩

/-- The token must be the user's. -/
def getTokenByIds (fails : Bool) (id userId : ℤ) (w : World) : Option Token :=
  if fails = true ∨ id = 0 ∨ userId = 0 then none
  else (w.tokens id).filter fun r => decide (r.userId = userId) && !r.deleted

/-- The key is found after the token was soft-deleted, too. -/
def getTokenKeyByIdsUnscoped (fails : Bool) (id userId : ℤ) (w : World) : Option String :=
  if fails = true ∨ id ≤ 0 ∨ userId ≤ 0 then none
  else ((w.tokens id).filter fun r => decide (r.userId = userId)).map Token.key

/-- The key under which the token of the task is cached, empty if it cannot be read. -/
def resolveTokenKey (env : Env) (t : Task) (w : World) : String :=
  match getTokenByIds (env.fault 20) t.privateData.tokenId t.userId w with
  | some token => token.key
  | none =>
    (getTokenKeyByIdsUnscoped (env.fault 21) t.privateData.tokenId t.userId w).getD ""

/-- The log entry of the last movement. -/
def finalPayload (c : BillingConditions) (t : Task) (reason : String) :
    TaskBillingEventPayload where
  content := reason
  modelName := taskModelName t
  group := t.group
  other := c.otherText t reason
  logEnabled := decide (t.billingDelta ≠ 0) &&
    (decide (t.billingDelta < 0) || c.logConsumeEnabled)

/-- The transition that the copy's billing status asks for. -/
def pendingTransition (t : Task) : Option TaskBillingStatus :=
  match t.billingStatus with
  | .submitPending => some .pending
  | .finalizePending =>
    if t.status = .failure ∧ t.billingTargetQuota = 0 then some .refunded else some .settled
  | _ => none

/-- The payload of the transition that the copy asks for. -/
def pendingPayload (c : BillingConditions) (t : Task) (reason : String) :
    Option TaskBillingEventPayload :=
  if t.billingStatus = .finalizePending then some (finalPayload c t reason) else none

/-- One billing transition of the copy: whether it applied, and the copy afterwards. The
event is delivered by a later step. -/
def applyPendingTaskBilling (c : BillingConditions) (t : Task) (reason : String) (w : World) :
    Except Err Bool × Task × World :=
  match pendingTransition t with
  | none => (.ok false, t, w)
  | some nextStatus =>
    if c.redisEnabled = true ∧ 0 < t.privateData.tokenId ∧ resolveTokenKey c.env t w = "" then
      (.error (.text ("cannot resolve token cache key for task " ++ t.taskID)), t, w)
    else
      match applyTaskBilling c.env t t.billingStatus nextStatus (pendingPayload c t reason) w with
      | (.error e, w') => (.error e, t, w')
      | (.ok result, w') =>
        if result.applied then
          (.ok true, { t with quota := result.targetQuota, billingStatus := nextStatus }, w')
        else (.ok false, t, w')

/-- Only pending events are changed. -/
def updatePendingEvent (eventID : String) (f : TaskBillingEvent → TaskBillingEvent)
    (events : List TaskBillingEvent) : List TaskBillingEvent :=
  events.map fun e => if e.eventID = eventID ∧ e.status = .pending then f e else e

/-- The log entry was written. -/
def markTaskBillingEventDelivered (env : Env) (eventID : String) (w : World) :
    Except Err Unit × World :=
  if eventID = "" then (.error .recordNotFound, w)
  else if env.fault 0 then (.error .database, w)
  else if w.events.any fun e => e.eventID == eventID && e.status == .pending then
    (.ok (), { w with events := updatePendingEvent eventID (fun e => { e with
      status := .delivered, retryCount := 0, nextRetryAt := 0, lastError := ""
      updatedAt := env.now }) w.events })
  else if env.fault 1 then (.error .database, w)
  else if w.events.any fun e => e.eventID == eventID && e.status == .delivered then (.ok (), w)
  else (.error .recordNotFound, w)

/-- The log entry was not written and is tried again; the error is cut as a task's is. -/
def scheduleTaskBillingEventRetry (env : Env) (eventID : String) (nextRetryAt : ℤ)
    (lastError : String) (w : World) : Except Err Unit × World :=
  if eventID = "" then (.error .recordNotFound, w)
  else if env.fault 0 then (.error .database, w)
  else if w.events.any fun e => e.eventID == eventID && e.status == .pending then
    (.ok (), { w with events := updatePendingEvent eventID (fun e => { e with
      retryCount := e.retryCount + 1, nextRetryAt := nextRetryAt
      lastError := String.ofList (lastError.toList.take 512), updatedAt := env.now }) w.events })
  else (.error .recordNotFound, w)

end NewApi
