import NewApi.Int64
import NewApi.KeyedTable

/-!
# Rows of the primary database

The tables that quota reservation, billing sessions, asynchronous tasks and media
transfers share, with the columns those functions read or write. `World` holds the
tables together with the two process-wide batch maps of pending quota deltas.
Quotas are integers: the columns are signed and nothing in the code relies on
wrap-around. Redis and the log database are not part of the model.
-/
namespace NewApi

/-- What a database call or a model function returns as its error. -/
inductive Err where
  | database
  | recordNotFound
  | duplicatedKey
  | invalidTransaction
  | invalidData
  | insufficientUserQuota
  | insufficientTokenQuota
  | taskBillingCASLost
  | noActiveSubscription
  | subscriptionQuotaInsufficient (need : ℤ)
  | text (message : String)
  deriving DecidableEq

/-- Conditions under which one transaction or statement runs: the clock, and which
of its numbered statements the database rejects. -/
structure Env where
  now : ℤ
  fault : ℕ → Bool

/-- Number of the commit in a fault plan; statements are numbered below it. -/
def commitSite : ℕ := 100

def Env.calm (now : ℤ) : Env := ⟨now, fun _ => false⟩

def Env.broken (now : ℤ) : Env := ⟨now, fun _ => true⟩

@[simp] theorem Env.calm_fault (now : ℤ) (i : ℕ) : (Env.calm now).fault i = false := rfl

/-- A user's row, as far as quota is concerned. -/
structure User where
  (quota usedQuota : ℤ)
  deleted : Bool

structure Token where
  (userId remainQuota usedQuota : ℤ)
  unlimitedQuota : Bool
  accessedTime : ℤ
  deleted : Bool
  key : String

structure Channel where
  usedQuota : ℤ

/-- A row of `user_subscriptions`, under its id. -/
structure UserSubscription where
  (userId amountTotal amountUsed endTime : ℤ)
  active : Bool
  deriving DecidableEq

/-- A record of a pre-consumption is refunded once. -/
inductive PreConsumeStatus where
  | consumed | refunded
  deriving DecidableEq

/-- A row of `subscription_pre_consume_records`, under its unique request id. -/
structure SubscriptionPreConsumeRecord where
  (userId userSubscriptionId preConsumed : ℤ)
  status : PreConsumeStatus

/-- `other` holds a status text of an upstream outside the seven constants. -/
inductive TaskStatus where
  | notStart | submitted | queued | inProgress | failure | success | unknown
  | other (text : String)
  deriving DecidableEq

/-- The states of a task's accounting. -/
inductive TaskBillingStatus where
  | legacy | submitting | submitPending | pending | finalizePending | settled | refunded
  deriving DecidableEq

inductive MediaTransferStatus where
  | pending | processing | retry | ready | failed
  deriving DecidableEq

/-- The text column `billing_source`: empty, wallet or subscription. -/
inductive BillingSource where
  | unset | wallet | subscription
  deriving DecidableEq

/-- How the price of a task was fixed. -/
structure TaskBillingContext where
  originModelName : String
  perCallBilling : Bool

/-- What is stored with a task and not shown. -/
structure TaskPrivateData where
  nextPollAt : ℤ
  (key upstreamTaskID upstreamEndpoint resultURL upstreamError requestId : String)
  billingSource : BillingSource
  (subscriptionId tokenId : ℤ)
  billingContext : Option TaskBillingContext

/-- A row of `tasks`. The empty `media_transfer_state` is `none`. -/
structure Task where
  (id updatedAt : ℤ)
  (taskID platform : String)
  userId : ℤ
  group : String
  (channelId quota : ℤ)
  action : String
  status : TaskStatus
  failReason : String
  (submitTime startTime finishTime : ℤ)
  (progress originModelName upstreamModelName : String)
  privateData : TaskPrivateData
  data : String
  mediaTransferState : Option MediaTransferStatus
  billingStatus : TaskBillingStatus
  (billingTargetQuota billingRetryCount billingNextRetryAt : ℤ)
  billingLastError : String

/-- A submitted task of user 1 that was charged 4 in advance and costs 5. -/
def sampleTask : Task where
  id := 1
  updatedAt := 0
  taskID := "task_1"
  platform := "video"
  userId := 1
  group := "default"
  channelId := 2
  quota := 4
  action := "generate"
  status := .submitted
  failReason := ""
  submitTime := 0
  startTime := 0
  finishTime := 0
  progress := "10%"
  originModelName := "m"
  upstreamModelName := "m"
  privateData :=
    { nextPollAt := 0, key := "", upstreamTaskID := "u1", upstreamEndpoint := "", resultURL := ""
      upstreamError := "", requestId := "r1", billingSource := .wallet, subscriptionId := 0
      tokenId := 7, billingContext := none }
  data := ""
  mediaTransferState := none
  billingStatus := .submitPending
  billingTargetQuota := 5
  billingRetryCount := 0
  billingNextRetryAt := 0
  billingLastError := ""

/-- Whether the log entry of an event was written. -/
inductive TaskBillingEventStatus where
  | pending | delivered
  deriving DecidableEq

inductive LogType where
  | consume | refund

/-- A log entry that is still to be written. -/
structure TaskBillingEvent where
  eventID : String
  taskRecordID : ℤ
  taskID : String
  (userID channelID tokenID : ℤ)
  logType : LogType
  logEnabled : Bool
  (content modelName : String)
  (quota delta beforeQuota targetQuota : ℤ)
  (group other : String)
  status : TaskBillingEventStatus
  (retryCount nextRetryAt : ℤ)
  lastError : String
  (createdAt updatedAt : ℤ)

/-- A reward for a task. -/
structure ReferralReward where
  taskRecordID : ℤ
  reversed : Bool
  reversedAt : ℤ

/-- A transfer of a task's result into the own storage. -/
structure MediaTransferJob where
  (id taskRecordID : ℤ)
  (sourceCiphertext optionsCiphertext responseCiphertext : String)
  status : MediaTransferStatus
  (attempts nextRetryAt leaseUntil : ℤ)
  (leaseToken candidateURLCiphertext candidateProvider storedURL : String)
  byteSize : ℤ
  (sha256 fileName contentType spoolFile : String)
  manualFile : Bool
  (requestedProvider lastError : String)
  (createdAt updatedAt completedAt : ℤ)

/-- The primary database and the two in-memory maps of pending quota deltas.
`subscriptionIds` lists the ids of `subscriptions`, for its queries; `jobOfTask` is
the unique index of `media_transfer_jobs` on `task_record_id`. -/
structure World where
  users : Table ℤ User
  tokens : Table ℤ Token
  channels : Table ℤ Channel
  subscriptions : Table ℤ UserSubscription
  subscriptionIds : List ℤ
  preConsumeRecords : Table String SubscriptionPreConsumeRecord
  tasks : Table ℤ Task
  nextTaskId : ℤ
  events : List TaskBillingEvent
  rewards : List ReferralReward
  jobs : Table ℤ MediaTransferJob
  jobOfTask : Table ℤ ℤ
  nextJobId : ℤ
  (userQuotaBatch tokenQuotaBatch : PendingMap ℤ)

/-- A database without rows. -/
def World.empty : World where
  users := Table.empty
  tokens := Table.empty
  channels := Table.empty
  subscriptions := Table.empty
  subscriptionIds := []
  preConsumeRecords := Table.empty
  tasks := Table.empty
  nextTaskId := 1
  events := []
  rewards := []
  jobs := Table.empty
  jobOfTask := Table.empty
  nextJobId := 1
  userQuotaBatch := ∅
  tokenQuotaBatch := ∅

/-- A transaction body over the database. -/
abbrev DBTx (α : Type) := Tx World Err α

/-- Statement `site` of the running transaction. -/
def sql (env : Env) (site : ℕ) : DBTx Unit := Tx.statement (env.fault site) .database

/-- Run the body as one database transaction. -/
def dbTransaction {α : Type} (env : Env) (body : DBTx α) (w : World) : Except Err α × World :=
  commit (env.fault commitSite) .database body w

@[simps get set] def usersTable : TableIn World ℤ User :=
  ⟨World.users, fun t w => { w with users := t }, fun _ => rfl⟩

@[simps get set] def tokensTable : TableIn World ℤ Token :=
  ⟨World.tokens, fun t w => { w with tokens := t }, fun _ => rfl⟩

@[simps get set] def subscriptionsTable : TableIn World ℤ UserSubscription :=
  ⟨World.subscriptions, fun t w => { w with subscriptions := t }, fun _ => rfl⟩

@[simps get set] def preConsumeRecordsTable : TableIn World String SubscriptionPreConsumeRecord :=
  ⟨World.preConsumeRecords, fun t w => { w with preConsumeRecords := t }, fun _ => rfl⟩

@[simps get set] def channelsTable : TableIn World ℤ Channel :=
  ⟨World.channels, fun t w => { w with channels := t }, fun _ => rfl⟩

@[simps get set] def tasksTable : TableIn World ℤ Task :=
  ⟨World.tasks, fun t w => { w with tasks := t }, fun _ => rfl⟩

@[simps get set] def jobsTable : TableIn World ℤ MediaTransferJob :=
  ⟨World.jobs, fun t w => { w with jobs := t }, fun _ => rfl⟩

variable (w : World)

/-- A statement that passes changes nothing by itself. -/
theorem sql_bind_eq_ok {env : Env} {site : ℕ} {α : Type} {k : Unit → DBTx α} {r : α × World} :
    (sql env site >>= k) w = .ok r ↔ env.fault site = false ∧ k () w = .ok r :=
  Tx.statement_bind_eq_ok

end NewApi
