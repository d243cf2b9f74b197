import NewApi.MediaTransfer
import NewApi.TaskSubmission

/-!
# Polling and realtime fetches of tasks

The poller and a client's realtime fetch ask the upstream about a task, change a copy of
it in memory and write the copy back under the snapshot they took. Between the answer and
the write they may enqueue a media transfer, and upload the media themselves when that
fails. `FetchStage` says what such a call does next, so that each of its database calls can
be interleaved with everything else. Requests, prices and error texts are inputs, and so is
what the poller's adaptors parse. Realtime fetches exist for two channel types only, whose
`parseTaskResult` is modelled: it never returns a URL that has to be transferred.
-/
namespace NewApi

/-- What is left of an answer once it is parsed. `failReason` and `upstreamError` are the
two texts derived from a failure's reason, and `nextPollAt` is set by two channel types. -/
structure PollResponse where
  info : TaskInfo
  data : String
  nextPollAt : Option ℤ
  (failReason upstreamError serverAddress : String)
  pricing : Pricing
  now : ℤ

/-- An upload to the media storage: no storage is enabled, the URL that was returned
(which may be empty), or an error. -/
inductive UploadResult where
  | disabled
  | returned (url : String)
  | failed
  deriving DecidableEq

def isDataURL (url : String) : Bool := decide (url.toList.take 5 = "data:".toList)

namespace Task
variable (t : Task)

def isDone : Bool := decide (t.status = .success) || decide (t.status = .failure)

def isImage : Bool := decide (t.action = "imageGenerate")

/-- The query for the tasks that are polled. -/
def isUnfinished : Bool :=
  decide (t.progress ≠ "100%") && decide (t.status ≠ .failure) && decide (t.status ≠ .success) &&
    decide (t.mediaTransferState = none) && decide (t.billingStatus ≠ .submitting)

def withResultURL (url : String) : Task :=
  { t with privateData := { t.privateData with resultURL := url } }

def withFailure (r : PollResponse) : Task :=
  { t with
    failReason := r.failReason
    privateData := { t.privateData with upstreamError := r.upstreamError } }

/-- The time of the end, unless one is known. -/
def finishAt (now : ℤ) : ℤ := if t.finishTime = 0 then now else t.finishTime

/-- The copy with the answer's data, before its status is taken over. -/
def polled (r : PollResponse) : Task :=
  { t with
    data := r.data
    privateData := { t.privateData with nextPollAt := r.nextPollAt.getD t.privateData.nextPollAt } }

/-- The upstream says that the task has succeeded. -/
def succeeded (r : PollResponse) : Task :=
  { t with status := .success, progress := "100%", finishTime := t.finishAt r.now }

/-- The progress that the upstream reported, if any, replaces the one of the status. -/
def withProgress (r : PollResponse) (progress : String) : Task :=
  { t with progress := if r.info.progress ≠ "" then r.info.progress else progress }

/-- Data URLs and missing ones are served through the proxy. -/
def withMedia (r : PollResponse) (url : String) : Task :=
  (t.withResultURL (if isDataURL url ∨ url = ""
    then r.serverAddress ++ "/v1/videos/" ++ t.taskID ++ "/content" else url)).withProgress r
      t.progress

end Task

/-- What a fetch does next. The copy is written last, whatever happened to the media. A
realtime fetch that was given a URL would go on to transfer it. -/
inductive FetchStage where
  | ended
  | transferring (task : Task)
  | enqueuing (task previous : Task)
  | uploading (task : Task)
  | writing (task : Task)

/-- The poller's reading of an answer about a video or an image. -/
def updateVideoSingleTask (r : PollResponse) (storage : Bool) (t : Task) : FetchStage :=
  let previous := t.polled r
  let url := trimSpace r.info.url
  match r.info.status with
  | .submitted => .writing ({ previous with status := .submitted }.withProgress r "10%")
  | .queued => .writing ({ previous with status := .queued }.withProgress r "20%")
  | .inProgress => .writing ({ previous with
      status := .inProgress
      startTime := if t.startTime = 0 then r.now else t.startTime }.withProgress r "30%")
  | .success =>
    let done := previous.succeeded r
    if done.isImage ∧ url = "" then .ended
    else if done.isImage = false ∧ url ≠ "" ∧ isDataURL url = false ∧ storage then
      -- the video is chargeable before its media is stored
      .enqueuing (prepareTaskFinalBilling r.pricing done (some r.info)).1 previous
    else if url ≠ "" then .uploading done
    else .writing (done.withMedia r url)
  | .failure => .writing ({ previous with
      status := .failure, progress := "100%", finishTime := t.finishAt r.now }.withFailure r)
  | _ => .ended

/-- The copy with the state that the upstream reported, taken over as it is. -/
def Task.fetched (t : Task) (r : PollResponse) : Task :=
  let t := if r.info.status ≠ .other "" then { t with status := r.info.status } else t
  let t := t.withProgress r t.progress
  let t := if t.status = .failure ∧ r.info.reason ≠ "" then t.withFailure r else t
  if t.isDone then { t with progress := "100%", finishTime := t.finishAt r.now } else t

/-- One video of an operation. -/
structure OperationVideo where
  (mimeType bytesBase64Encoded encoding : String)

/-- The answer of the two upstreams about an operation, with the message of its error. -/
structure OperationResponse where
  done : Bool
  errorMessage : String
  videos : List OperationVideo
  (bytesBase64Encoded encoding video : String)

/-- The channel types for which there are realtime fetches. -/
inductive OperationChannel where
  | gemini | vertexAi

def mimeOfEncoding (encoding : String) : String :=
  let enc := if trimSpace encoding = "" then "mp4" else trimSpace encoding
  if containsText enc "/" then enc else "video/" ++ enc

def dataURL (mime content : String) : String := "data:" ++ mime ++ ";base64," ++ content

/-- The video that Vertex returns inline: the first of the list, or one of two older fields. -/
def OperationResponse.inlineURL (op : OperationResponse) : String :=
  match op.videos.head?.filter (fun v => v.bytesBase64Encoded ≠ "") with
  | some v =>
    let mime := trimSpace v.mimeType
    dataURL (if mime = "" then mimeOfEncoding v.encoding else mime) v.bytesBase64Encoded
  | none =>
    if op.bytesBase64Encoded ≠ "" then dataURL (mimeOfEncoding op.encoding) op.bytesBase64Encoded
    else if op.video ≠ "" then dataURL (mimeOfEncoding op.encoding) op.video
    else ""

/-- Gemini's adaptor keeps the video's address elsewhere, and leaves the URL empty. -/
def parseTaskResult (channel : OperationChannel) (op : OperationResponse) : TaskInfo :=
  if op.errorMessage ≠ "" then
    { status := .failure, url := "", progress := "100%", reason := op.errorMessage,
      totalTokens := 0 }
  else if op.done = false then
    { status := .inProgress, url := "", progress := "50%", reason := "", totalTokens := 0 }
  else
    { status := .success
      url := match channel with
        | .gemini => ""
        | .vertexAi => op.inlineURL
      progress := "100%", reason := "", totalTokens := 0 }

/-- What a realtime fetch is told, with the texts and prices that belong to it. -/
structure RealtimeResponse where
  channel : OperationChannel
  operation : OperationResponse
  (failReason upstreamError serverAddress : String)
  pricing : Pricing
  now : ℤ

/-- The realtime fetch reads neither data nor a time of the next poll off the answer. -/
def RealtimeResponse.response (a : RealtimeResponse) : PollResponse where
  info := parseTaskResult a.channel a.operation
  data := ""
  nextPollAt := none
  failReason := a.failReason
  upstreamError := a.upstreamError
  serverAddress := a.serverAddress
  pricing := a.pricing
  now := a.now

@[simp]
theorem isDataURL_dataURL (mime content : String) : isDataURL (dataURL mime content) = true := by
  simp [isDataURL, dataURL, String.toList_append]

theorem OperationResponse.inlineURL_direct (op : OperationResponse) :
    op.inlineURL = "" ∨ isDataURL op.inlineURL = true := by
  unfold inlineURL
  split
  · exact .inr (isDataURL_dataURL _ _)
  · split_ifs
    · exact .inr (isDataURL_dataURL _ _)
    · exact .inr (isDataURL_dataURL _ _)
    · exact .inl rfl

/-- Neither adaptor returns a URL other than a data URL. -/
theorem parseTaskResult_url (channel : OperationChannel) (op : OperationResponse) :
    (parseTaskResult channel op).url = "" ∨ isDataURL (parseTaskResult channel op).url = true := by
  unfold parseTaskResult
  split_ifs
  · exact .inl rfl
  · exact .inl rfl
  · cases channel with
    | gemini => exact .inl rfl
    | vertexAi => exact op.inlineURL_direct

/-- The realtime fetch's reading of an answer. A URL is taken for the video's whatever the
status. -/
def tryRealtimeFetch (r : PollResponse) (storage : Bool) (t : Task) : FetchStage :=
  if t.isDone ∨ t.mediaTransferState ≠ none then .ended
  else
    let t := t.fetched r
    if isDataURL r.info.url then .writing t
    else if r.info.url ≠ "" then
      if storage then .transferring t else .writing (t.withResultURL r.info.url)
    else if t.status = .success then
      .writing (t.withResultURL (r.serverAddress ++ "/v1/videos/" ++ t.taskID ++ "/content"))
    else .writing t

/-- One item of the answer about several songs. -/
structure SunoItem where
  status : TaskStatus
  failReason : String
  (submitTime startTime finishTime : ℤ)
  data : String
  pricing : Pricing
  now : ℤ

/-- The data are compared by their sorted bytes. -/
def taskNeedsUpdate (t : Task) (i : SunoItem) : Bool :=
  decide (t.submitTime ≠ i.submitTime) || decide (t.startTime ≠ i.startTime) ||
    decide (t.finishTime ≠ i.finishTime) || decide (t.status ≠ i.status) ||
    decide (t.failReason ≠ i.failReason) || (t.isDone && decide (t.progress ≠ "100%")) ||
    decide (¬ t.data.toList.Perm i.data.toList)

def SunoItem.applied (i : SunoItem) (t : Task) : Task :=
  let t : Task := { t with
    status := if i.status ≠ .other "" then i.status else t.status
    failReason := if i.failReason ≠ "" then i.failReason else t.failReason
    submitTime := if i.submitTime ≠ 0 then i.submitTime else t.submitTime
    startTime := if i.startTime ≠ 0 then i.startTime else t.startTime
    finishTime := if i.finishTime ≠ 0 then i.finishTime else t.finishTime }
  let t : Task := if i.failReason ≠ "" ∧ t.status ≠ .success
    then { t with status := .failure, finishTime := t.finishAt i.now } else t
  { t with
    progress := if t.status = .failure ∨ i.status = .success then "100%" else t.progress
    data := i.data }

/-- Only the status of a song is known to the final billing. -/
def SunoItem.response (i : SunoItem) (t : Task) : PollResponse where
  info := { status := (i.applied t).status, url := "", progress := "", reason := "",
            totalTokens := 0 }
  data := i.data
  nextPollAt := none
  failReason := ""
  upstreamError := ""
  serverAddress := ""
  pricing := i.pricing
  now := i.now

/-- A task that has not changed is not written. -/
def updateSunoTask (i : SunoItem) (t : Task) : FetchStage :=
  if taskNeedsUpdate t i then .writing (i.applied t) else .ended

/-- A fetch under way. `read` is the copy of which it took the snapshot. -/
structure Fetch where
  read : Task
  response : PollResponse
  stage : FetchStage

namespace Fetch
variable (f : Fetch)

/-- After the enqueue the poller is done, whoever won the row. An error leaves it to upload
the media itself. -/
def enqueued (previous : Task) : Except Err Bool → FetchStage
  | .ok _ => .ended
  | .error _ => .uploading { previous with
      status := .success, progress := "100%", finishTime := f.response.now }

/-- The poller keeps the upstream's URL of an image, and one for which there was nothing to
upload; a video whose upload failed is marked. -/
def uploaded (t : Task) (u : UploadResult) : Task :=
  let url := trimSpace f.response.info.url
  match u with
  | .returned stored => t.withMedia f.response (if stored ≠ "" then stored else url)
  | .disabled => t.withMedia f.response url
  | .failed => if t.isImage then t.withMedia f.response url else markVideoMediaTransferPending t

/-- A task that ends gets its final billing prepared first. -/
def ends (t : Task) : Bool := t.isDone && decide (f.read.status ≠ t.status)

/-- The task with what it will be charged. -/
def final (t : Task) : Task :=
  if f.ends t then (prepareTaskFinalBilling f.response.pricing t (some f.response.info)).1 else t

/-- The guarded write at the end, if there is anything to write. -/
def write (env : Env) (t : Task) (w : World) : World :=
  if f.ends t ∨ f.read.snapshot ≠ t.snapshot then
    (updateWithSnapshot env (f.final t) f.read.snapshot w).2
  else w

end Fetch

/-- The writers that load a task, change it and write it back at once. -/
inductive TaskWrite where
  | complete (info : RelayInfo) (billed : Bool) (r : TaskSubmitResult) (a : Attempt)
  | fail (reason : String) (upstreamError : Option String)
  | sweep (cutoff : ℤ) (reason legacyReason : String)
  | recover (cutoff : ℤ) (reason : String)
  | abandon (reason : String)
  | v6kRetry (delay : ℤ)

/-- The rows that a write selects. -/
def TaskWrite.takes : TaskWrite → Task → Bool
  | .complete .., t | .fail .., t => decide (t.billingStatus = .submitting)
  | .sweep cutoff .., t => t.isTimedOut cutoff
  | .recover cutoff _, t => t.isStaleSubmission cutoff
  | .abandon _, t => t.isUnfinished
  | .v6kRetry _, t => decide (0 < t.id) && t.isUnfinished

/-- The row that a write makes. -/
def TaskWrite.result (now : ℤ) : TaskWrite → Task → Task
  | .complete info billed r a, t => t.completed info billed r a
  | .fail reason upstreamError, t =>
    t.failedWithRefund now reason (upstreamError.getD t.privateData.upstreamError)
  | .sweep _ reason legacyReason, t => t.timedOut now reason legacyReason
  | .recover _ reason, t | .abandon reason, t =>
    t.failedWithRefund (t.finishAt now) reason t.privateData.upstreamError
  | .v6kRetry delay, t =>
    { t with privateData := { t.privateData with nextPollAt := now + delay } }

/-- The row is written unless it has changed since. -/
def TaskWrite.apply (k : TaskWrite) (env : Env) (t : Task) (w : World) : World :=
  if k.takes t then (updateWithSnapshot env (k.result env.now t) t.snapshot w).2 else w

end NewApi
