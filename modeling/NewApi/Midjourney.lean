import NewApi.Runs

/-!
# Midjourney tasks

A submission stores a task and charges its price when the handler returns. Poller passes hold
copies of the unfinished tasks and write what the upstream lists about them under the status
that they read; a failed task is refunded by the pass that wins the write. Notices of the
upstream and the failures in bulk write the task without that guard. `MjState` is one
submission with everything under way on its account; each call is one database statement.
-/
namespace NewApi

/-- The actions that are handled apart. -/
inductive MjAction where
  | inPaint | customZoom | upload | swapFace
  | other (name : String)
  deriving DecidableEq

/-- The states that end a task, and all others. -/
inductive MjStatus where
  | success | failure
  | other (text : String)
  deriving DecidableEq

/-- What the upstream tells about a task besides its progress. -/
structure MjContent where
  (promptEn state : String)
  (submitTime startTime finishTime : ℤ)
  (imageUrl videoUrl videoUrls : String)
  deriving DecidableEq

/-- A task's row. -/
structure Midjourney where
  code : ℤ
  action : MjAction
  (mjId description : String)
  status : MjStatus
  (progress failReason : String)
  (channelId quota : ℤ)
  content : MjContent
  (properties buttons : String)

/-- One task as the upstream lists it or sends it in a notice. -/
structure MidjourneyDto where
  status : MjStatus
  (progress failReason : String)
  content : MjContent
  (properties buttons : Option String)

/-- The upstream's response. `existing` are the image and status of a task that was there. -/
structure MidjourneyResponse where
  (statusCode code : ℤ)
  (description result : String)
  existing : Option (String × MjStatus)

/-- The row of a submitted task. -/
def newMidjourney (action : MjAction) (r : MidjourneyResponse) (channelId quota submitTime
    startTime : ℤ) : Midjourney where
  code := r.code
  action := action
  mjId := r.result
  description := r.description
  status := .other ""
  progress := "0%"
  failReason := ""
  channelId := channelId
  quota := quota
  content := ⟨"", "", submitTime, startTime, 0, "", "", ""⟩
  properties := ""
  buttons := ""

/-- An action that is done when it is submitted. -/
def Midjourney.finished (t : Midjourney) (now : ℤ) : Midjourney :=
  { t with
    progress := "100%"
    content := { t.content with startTime := now, finishTime := now } }

/-- The codes of a submission that the upstream took. -/
def submissionTaken (code : ℤ) : Bool :=
  decide (code = 1) || decide (code = 21) || decide (code = 22)

/-- A task that was there brings its image and status. -/
def Midjourney.withExisting (t : Midjourney) (r : MidjourneyResponse) (now : ℤ) : Midjourney :=
  match r.existing with
  | some (imageUrl, status) =>
    let t := { t with status := status, content := { t.content with imageUrl := imageUrl } }
    if status = .success then t.finished now else t
  | none => t

/-- The response's code once an existing task that succeeded has replaced it. -/
def MidjourneyResponse.finalCode (r : MidjourneyResponse) : ℤ :=
  if r.code = 21 ∧ r.existing.any (fun e => decide (e.2 = .success)) = true then 1 else r.code

/-- The stored task, and whether its price is charged on return. -/
def relayMidjourneySubmit (action : MjAction) (r : MidjourneyResponse) (channelId quota now : ℤ) :
    Midjourney × Bool :=
  let t := newMidjourney action r channelId quota now 0
  let t := if submissionTaken r.code then t else { t with failReason := r.description }
  let t := if r.code = 21 then t.withExisting r now else t
  let t := if r.finalCode = 1 ∧ action = .upload
    then { t with progress := "100%", status := .success } else t
  (t, decide (action ≠ .inPaint) && decide (action ≠ .customZoom) && submissionTaken r.code &&
    decide (r.statusCode = 200))

/-- This action is charged only after a success. -/
def relaySwapFace (r : MidjourneyResponse) (channelId quota startTime now : ℤ) :
    Midjourney × Bool :=
  (newMidjourney .swapFace r channelId quota startTime now,
    decide (r.statusCode = 200) && decide (r.code = 1))

/-- The poll writes a row that differs from what the upstream says. -/
def checkMjTaskNeedUpdate (old : Midjourney) (new : MidjourneyDto) : Bool :=
  decide (old.code ≠ 1) || decide (old.progress ≠ new.progress) ||
    decide (old.content ≠ new.content) || decide (old.status ≠ new.status) ||
    decide (old.failReason ≠ new.failReason) ||
    (decide (old.progress ≠ "100%") && decide (new.failReason ≠ ""))

/-- A task that is not finished after an hour is failed. -/
def MidjourneyDto.timed (item : MidjourneyDto) (now : ℤ) (t : Midjourney) : MidjourneyDto :=
  if 3600000 < now - t.content.submitTime ∧ t.progress ≠ "100%"
  then { item with failReason := "上游任务超时（超过1小时）", status := .failure } else item

/-- The upstream says that the task has failed. -/
def MidjourneyDto.failed (item : MidjourneyDto) : Bool :=
  (decide (item.progress ≠ "100%") && decide (item.failReason ≠ "")) ||
    (decide (item.progress = "100%") && decide (item.status = .failure))

def Midjourney.polled (t : Midjourney) (item : MidjourneyDto) : Midjourney :=
  { t with
    code := 1
    progress := if item.failed then "100%" else item.progress
    content := item.content
    status := item.status
    failReason := item.failReason
    properties := item.properties.getD t.properties
    buttons := item.buttons.getD t.buttons }

@[simp] theorem Midjourney.polled_quota (t : Midjourney) (item : MidjourneyDto) :
    (t.polled item).quota = t.quota := rfl

@[simp] theorem Midjourney.polled_status (t : Midjourney) (item : MidjourneyDto) :
    (t.polled item).status = item.status := rfl

/-- The row after a notification, which does not look at a failure. -/
def Midjourney.notified (t : Midjourney) (item : MidjourneyDto) : Midjourney :=
  { t with
    progress := item.progress
    content := item.content
    status := item.status
    failReason := item.failReason }

@[simp] theorem Midjourney.notified_quota (t : Midjourney) (item : MidjourneyDto) :
    (t.notified item).quota = t.quota := rfl

/-- The failure in bulk of tasks without an upstream id. -/
def Midjourney.failedWithoutId (t : Midjourney) : Midjourney :=
  { t with status := .failure, progress := "100%" }

/-- The failure in bulk of tasks whose channel is gone. -/
def Midjourney.failedWithoutChannel (t : Midjourney) : Midjourney :=
  { t.failedWithoutId with
    failReason := "获取渠道信息失败，请联系管理员，渠道ID：" ++ toString t.channelId }

@[simp] theorem Midjourney.failedWithoutId_quota (t : Midjourney) :
    t.failedWithoutId.quota = t.quota := rfl

@[simp] theorem Midjourney.failedWithoutChannel_quota (t : Midjourney) :
    t.failedWithoutChannel.quota = t.quota := rfl

/-- The stored task, the copies of poller passes and of notices, the charge and the refunds
that are still to be executed, and what was removed from wallet and token on its account. -/
structure MjState where
  row : Option Midjourney
  (copies notices : List Midjourney)
  chargeDue : Option ℤ
  refundsDue : List ℤ
  charged : Bool
  refunds : ℕ
  (wallet token : ℤ)

/-- The submission is stored, unless the insert fails; the charge is still to come. -/
def MjState.submitted (submission : Midjourney × Bool) (stored : Bool) : MjState where
  row := if stored then some submission.1 else none
  copies := []
  notices := []
  chargeDue := if submission.2 then some submission.1.quota else none
  refundsDue := []
  charged := false
  refunds := 0
  wallet := 0
  token := 0

/-- The steps of the poll, of notifications and of the accounting. -/
inductive MjCall where
  | charge (fails : Bool)
  | load
  | poll (copy : ℕ) (now : ℤ) (item : MidjourneyDto) (fails : Bool)
  | refund (fails : Bool)
  | failWithoutId (copy : ℕ)
  | failWithoutChannel (copy : ℕ)
  | loadNotice
  | saveNotice (notice : ℕ) (item : MidjourneyDto)

namespace MjState
variable (s : MjState)

/-- The copies that a pass asks the upstream about, and those that it cannot. -/
def polling (copy : ℕ) : Option Midjourney := s.copies[copy]?.filter fun t => decide (t.mjId ≠ "")

/-- A copy of a task that the upstream has not named. -/
def unnamed (copy : ℕ) : Option Midjourney := s.copies[copy]?.filter fun t => decide (t.mjId = "")

/-- The row still has the status of the copy. -/
def unmoved (t : Midjourney) : Bool := s.row.any fun r => decide (r.status = t.status)

/-- The charge after the submission, which may fail. -/
def charge (fails : Bool) : MjState :=
  match s.chargeDue with
  | none => s
  | some quota => if fails then { s with chargeDue := none } else
      { s with
        chargeDue := none, charged := true
        wallet := s.wallet + quota, token := s.token + quota }

/-- The next refund, which may fail and is not tried again. -/
def refund (fails : Bool) : MjState :=
  match s.refundsDue with
  | [] => s
  | quota :: rest => if fails then { s with refundsDue := rest } else
      { s with refundsDue := rest, refunds := s.refunds + 1, wallet := s.wallet - quota }

/-- The poll reads the unfinished row. -/
def load : MjState :=
  match s.row with
  | some t => if t.progress ≠ "100%" then { s with copies := s.copies ++ [t] } else s
  | none => s

/-- The poll's write, with the refund that it makes due. -/
def pollWrite (t : Midjourney) (item : MidjourneyDto) : MjState :=
  { s with
    row := some (t.polled item)
    refundsDue := s.refundsDue ++ if item.failed && decide (t.quota ≠ 0) then [t.quota] else [] }

@[simp] theorem pollWrite_row (t : Midjourney) (item : MidjourneyDto) :
    (s.pollWrite t item).row = some (t.polled item) := rfl

@[simp] theorem pollWrite_refundsDue (t : Midjourney) (item : MidjourneyDto) :
    (s.pollWrite t item).refundsDue =
      s.refundsDue ++ if item.failed && decide (t.quota ≠ 0) then [t.quota] else [] := rfl

/-- The copy of the pass changes even if it loses the write. -/
def poll (copy : ℕ) (now : ℤ) (item : MidjourneyDto) (fails : Bool) : MjState :=
  match s.polling copy with
  | none => s
  | some t =>
    let item := item.timed now t
    if checkMjTaskNeedUpdate t item then
      let s' := { s with copies := s.copies.set copy (t.polled item) }
      if fails = false ∧ s.unmoved t = true then s'.pollWrite t item else s'
    else s

/-- A write without a condition. -/
def overwrite (f : Midjourney → Midjourney) : MjState := { s with row := s.row.map f }

/-- A notification reads the row. -/
def loadNotice : MjState :=
  match s.row with
  | some t => { s with notices := s.notices ++ [t] }
  | none => s

/-- A notification writes back what it has read. -/
def saveNotice (notice : ℕ) (item : MidjourneyDto) : MjState :=
  match s.notices[notice]? with
  | some t => { s with row := some (t.notified item) }
  | none => s

end MjState

def MjCall.step : MjCall → MjState → MjState
  | .charge fails, s => s.charge fails
  | .load, s => s.load
  | .poll copy now item fails, s => s.poll copy now item fails
  | .refund fails, s => s.refund fails
  | .failWithoutId copy, s =>
    if (s.unnamed copy).isSome then s.overwrite Midjourney.failedWithoutId else s
  | .failWithoutChannel copy, s =>
    if (s.polling copy).isSome then s.overwrite Midjourney.failedWithoutChannel else s
  | .loadNotice, s => s.loadNotice
  | .saveNotice notice item, s => s.saveNotice notice item

end NewApi
