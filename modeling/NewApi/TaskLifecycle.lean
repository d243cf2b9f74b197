import NewApi.MediaLeases
import NewApi.TaskBillingSteps
import NewApi.TaskPolling

/-!
# The lifecycle of a task

Submissions, the poller, clients' realtime fetches, the sweep of timed-out tasks, billing
steps and the media workers act on the rows of tasks at any time and in any order, each
from a copy of the row that may be arbitrarily stale. A fetch under way keeps its place
between its database calls.
-/
namespace NewApi

structure LifecycleState where
  world : World
  fetches : List Fetch
  leases : List Lease

open LifecycleState

/-- The calls that continue a fetch name its place in the list of fetches. -/
inductive LifecycleCall where
  | submit (request : SubmissionState) (a : Attempt)
  | write (k : TaskWrite) (env : Env) (t : Task)
  | poll (t : Task) (r : PollResponse) (storage : Bool)
  | fetch (t : Task) (a : RealtimeResponse) (storage : Bool)
  | song (t : Task) (i : SunoItem)
  | enqueue (n : ℕ) (env : Env) (ready : Bool) (input : MediaTransferSource)
  | upload (n : ℕ) (u : UploadResult)
  | finish (n : ℕ) (env : Env)
  | applyPending (c : BillingConditions) (t : Task) (reason : String)
  | scheduleRetry (env : Env) (t : Task) (nextRetryAt : ℤ) (lastError : String)
  | media (call : LeaseCall)

def LeaseCall.isEnqueue : LeaseCall → Bool
  | .enqueue .. => true
  | _ => false

def LifecycleCall.begins : LifecycleCall → Option Fetch
  | .poll t r storage =>
    if t.isUnfinished then some ⟨t, r, updateVideoSingleTask r storage t⟩ else none
  | .fetch t a storage => some ⟨t, a.response, tryRealtimeFetch a.response storage t⟩
  | .song t i =>
    if t.mediaTransferState = none then some ⟨t, i.response t, updateSunoTask i t⟩ else none
  | _ => none

namespace LifecycleState
variable (s : LifecycleState)

def leaseState : LeaseState := ⟨s.world, s.leases⟩

def begin (f : Fetch) : LifecycleState := { s with fetches := s.fetches ++ [f] }

/-- The fetch moves on, with what its call did to the database. -/
def advance (n : ℕ) (f : Fetch) (stage : FetchStage) (w : World) : LifecycleState :=
  { s with world := w, fetches := s.fetches.set n { f with stage := stage } }

def step : LifecycleCall → LifecycleState → LifecycleState
  | .submit request a, s =>
    { s with world := ({ request with world := s.world }.ensurePersistentTaskSubmission a).2.world }
  | .write k env t, s => { s with world := k.apply env t s.world }
  | .poll t r storage, s =>
    if t.isUnfinished then s.begin ⟨t, r, updateVideoSingleTask r storage t⟩ else s
  | .fetch t a storage, s => s.begin ⟨t, a.response, tryRealtimeFetch a.response storage t⟩
  -- several items may name one song, so the copy may have ended in memory already
  | .song t i, s =>
    if t.mediaTransferState = none then s.begin ⟨t, i.response t, updateSunoTask i t⟩ else s
  | .enqueue n env ready input, s =>
    match s.fetches[n]? with
    | some f =>
      match f.stage with
      | .enqueuing t previous =>
        let r := enqueueVideoMediaTransfer env ready t previous input s.world
        s.advance n f (f.enqueued previous r.1) r.2.2
      | _ => s
    | none => s
  | .upload n u, s =>
    match s.fetches[n]? with
    | some f =>
      match f.stage with
      | .uploading t => s.advance n f (.writing (f.uploaded t u)) s.world
      | _ => s
    | none => s
  | .finish n env, s =>
    match s.fetches[n]? with
    | some f =>
      match f.stage with
      | .writing t => s.advance n f .ended (f.write env t s.world)
      | _ => s
    | none => s
  | .applyPending c t reason, s =>
    { s with world := (applyPendingTaskBilling c t reason s.world).2.2 }
  | .scheduleRetry env t nextRetryAt lastError, s => { s with world :=
      (scheduleTaskBillingRetry env t.id t.billingStatus nextRetryAt lastError s.world).2 }
  -- transfers are enqueued by fetches only
  | .media call, s =>
    if call.isEnqueue then s
    else
      let l := s.leaseState.step call
      { s with world := l.world, leases := l.leases }

end LifecycleState

/-- The copy is of the same row, with the same bill. -/
@[mk_iff] structure CopyKept (read t : Task) : Prop where
  id : t.id = read.id
  billing : t.billingStatus = read.billingStatus
  userId : t.userId = read.userId
  channelId : t.channelId = read.channelId
  quota : t.quota = read.quota
  target : t.billingTargetQuota = read.billingTargetQuota

theorem CopyKept.refl (t : Task) : CopyKept t t := ⟨rfl, rfl, rfl, rfl, rfl, rfl⟩

variable {t : Task} {w : World} {call : LifecycleCall} {s : LifecycleState} {g : Fetch}

theorem CopyKept.trans {read t' : Task} (h : CopyKept read t) (h' : CopyKept t t') :
    CopyKept read t' :=
  ⟨h'.id.trans h.id, h'.billing.trans h.billing, h'.userId.trans h.userId,
    h'.channelId.trans h.channelId, h'.quota.trans h.quota, h'.target.trans h.target⟩

/-- A copy without a mark that a transfer is waited for. -/
structure CleanCopy (read t : Task) : Prop extends CopyKept read t where
  media : t.mediaTransferState = none

/-- Where a fetch has prepared the final billing, and where its copy may be marked. No fetch
has a transfer to make. -/
def Fetch.Kept (f : Fetch) : Prop :=
  match f.stage with
  | .ended => True
  | .transferring _ => False
  | .enqueuing t previous => f.read.mediaTransferState = none ∧ t.id = f.read.id ∧
      t.billingStatus = .finalizePending ∧ CleanCopy f.read previous
  | .uploading t => f.read.mediaTransferState = none ∧ CleanCopy f.read t
  | .writing t => f.read.mediaTransferState = none ∧ CopyKept f.read t

/-- The copy that is about to be written is not marked. -/
def FetchStage.clean : FetchStage → Prop
  | .writing t => t.mediaTransferState = none
  | _ => True

section Course
variable (r : PollResponse) (storage : Bool)

theorem Task.isUnfinished_media (h : t.isUnfinished = true) : t.mediaTransferState = none := by
  simp only [Task.isUnfinished, Bool.and_eq_true, decide_eq_true_eq] at h
  exact h.1.2

theorem withMedia_copy (t : Task) (url : String) : CopyKept t (t.withMedia r url) :=
  ⟨rfl, rfl, rfl, rfl, rfl, rfl⟩

@[simp] theorem withMedia_media (t : Task) (url : String) :
    (t.withMedia r url).mediaTransferState = t.mediaTransferState := rfl

theorem markVideoMediaTransferPending_copy (t : Task) :
    CopyKept t (markVideoMediaTransferPending t) := ⟨rfl, rfl, rfl, rfl, rfl, rfl⟩

theorem updateVideoSingleTask_kept (hmed : t.mediaTransferState = none) :
    Fetch.Kept ⟨t, r, updateVideoSingleTask r storage t⟩ ∧
      (updateVideoSingleTask r storage t).clean := by
  unfold updateVideoSingleTask
  have hdone : CleanCopy t ((t.polled r).succeeded r) := ⟨⟨rfl, rfl, rfl, rfl, rfl, rfl⟩, hmed⟩
  cases r.info.status with
  | submitted | queued | inProgress | failure =>
    exact ⟨⟨hmed, rfl, rfl, rfl, rfl, rfl, rfl⟩, hmed⟩
  | success =>
    dsimp only
    split_ifs
    · exact ⟨trivial, trivial⟩
    · obtain ⟨target, heq⟩ := prepareTaskFinalBilling_keeps r.pricing
        ((t.polled r).succeeded r) (some r.info)
      rw [heq]
      exact ⟨⟨hmed, rfl, rfl, ⟨rfl, rfl, rfl, rfl, rfl, rfl⟩, hmed⟩, trivial⟩
    · exact ⟨⟨hmed, hdone⟩, trivial⟩
    · exact ⟨⟨hmed, hdone.toCopyKept.trans (withMedia_copy r _ _)⟩, hmed⟩
  | notStart | unknown | other text => exact ⟨trivial, trivial⟩

theorem Task.fetched_kept : CopyKept t (t.fetched r) ∧
    (t.fetched r).mediaTransferState = t.mediaTransferState := by
  unfold Task.fetched
  dsimp only
  generalize hrepo : (if r.info.status ≠ .other "" then { t with status := r.info.status }
    else t) = reported
  have hkept : CopyKept t reported ∧ reported.mediaTransferState = t.mediaTransferState := by
    rw [← hrepo]
    split_ifs <;> exact ⟨⟨rfl, rfl, rfl, rfl, rfl, rfl⟩, rfl⟩
  obtain ⟨hcopy, hmed⟩ := hkept
  split_ifs <;> exact ⟨hcopy.trans ⟨rfl, rfl, rfl, rfl, rfl, rfl⟩, hmed⟩

/-- A realtime fetch ends or writes, since its answer has no URL to transfer. -/
theorem tryRealtimeFetch_kept (a : RealtimeResponse) :
    Fetch.Kept ⟨t, a.response, tryRealtimeFetch a.response storage t⟩ ∧
      (tryRealtimeFetch a.response storage t).clean := by
  unfold tryRealtimeFetch
  by_cases hskip : t.isDone ∨ t.mediaTransferState ≠ none
  · rw [if_pos hskip]
    exact ⟨trivial, trivial⟩
  have hmed : t.mediaTransferState = none := by
    by_contra hne
    exact hskip (.inr hne)
  obtain ⟨hcopy, hkept⟩ := t.fetched_kept a.response
  have hcln := hkept.trans hmed
  have hproxy : ∀ url, CopyKept t ((t.fetched a.response).withResultURL url) :=
    fun url => hcopy.trans ⟨rfl, rfl, rfl, rfl, rfl, rfl⟩
  rw [if_neg hskip]
  dsimp only
  by_cases hdata : isDataURL a.response.info.url = true
  · rw [if_pos hdata]
    exact ⟨⟨hmed, hcopy⟩, hcln⟩
  have hurl : ¬ a.response.info.url ≠ "" :=
    not_not_intro ((parseTaskResult_url a.channel a.operation).resolve_right hdata)
  rw [if_neg hdata, if_neg hurl]
  split_ifs
  · exact ⟨⟨hmed, hproxy _⟩, hcln⟩
  · exact ⟨⟨hmed, hcopy⟩, hcln⟩

theorem SunoItem.applied_kept (i : SunoItem) : CopyKept t (i.applied t) ∧
    (i.applied t).mediaTransferState = t.mediaTransferState := by
  unfold SunoItem.applied
  dsimp only
  -- of the conditions only the one that replaces the whole task matters here
  by_cases hfail : i.failReason ≠ "" ∧
      (if i.status ≠ .other "" then i.status else t.status) ≠ .success
  · rw [if_pos hfail]
    exact ⟨⟨rfl, rfl, rfl, rfl, rfl, rfl⟩, rfl⟩
  · rw [if_neg hfail]
    exact ⟨⟨rfl, rfl, rfl, rfl, rfl, rfl⟩, rfl⟩

theorem updateSunoTask_kept (i : SunoItem) (hmed : t.mediaTransferState = none) :
    Fetch.Kept ⟨t, i.response t, updateSunoTask i t⟩ ∧ (updateSunoTask i t).clean := by
  unfold updateSunoTask
  obtain ⟨hcopy, hkept⟩ := SunoItem.applied_kept (t := t) i
  split_ifs
  · exact ⟨⟨hmed, hcopy⟩, hkept.trans hmed⟩
  · exact ⟨trivial, trivial⟩

variable {f : Fetch} {previous : Task}

section
variable (hf : f.Kept)
include hf

theorem Fetch.Kept.enqueuing (hst : f.stage = .enqueuing t previous) :
    f.read.mediaTransferState = none ∧ t.id = f.read.id ∧ t.billingStatus = .finalizePending ∧
      CleanCopy f.read previous := by
  unfold Fetch.Kept at hf
  rwa [hst] at hf

theorem Fetch.Kept.uploading (hst : f.stage = .uploading t) :
    f.read.mediaTransferState = none ∧ CleanCopy f.read t := by
  unfold Fetch.Kept at hf
  rwa [hst] at hf

theorem Fetch.Kept.writing (hst : f.stage = .writing t) :
    f.read.mediaTransferState = none ∧ CopyKept f.read t := by
  unfold Fetch.Kept at hf
  rwa [hst] at hf

theorem Fetch.enqueued_kept (hst : f.stage = .enqueuing t previous) (result : Except Err Bool) :
    ({ f with stage := f.enqueued previous result } : Fetch).Kept := by
  obtain ⟨hmed, -, -, hprev⟩ := hf.enqueuing hst
  cases result with
  | ok won => trivial
  | error e =>
    exact ⟨hmed, hprev.toCopyKept.trans ⟨rfl, rfl, rfl, rfl, rfl, rfl⟩, hprev.media⟩

end

theorem Fetch.uploaded_copy (f : Fetch) (t : Task) (u : UploadResult) :
    CopyKept t (f.uploaded t u) := by
  unfold Fetch.uploaded
  cases u with
  | disabled | returned stored => exact withMedia_copy _ t _
  | failed =>
    split_ifs
    · exact withMedia_copy _ t _
    · exact markVideoMediaTransferPending_copy t

/-- The final write prepares the billing of a task that ends, and is the copy otherwise. -/
theorem Fetch.final_eq (f : Fetch) (t : Task) :
    f.ends t = false ∧ f.final t = t ∨ f.ends t = true ∧ ∃ target, f.final t =
      { t with billingStatus := .finalizePending, billingTargetQuota := target } := by
  unfold Fetch.final
  cases hends : f.ends t with
  | false => exact .inl ⟨rfl, rfl⟩
  | true =>
    obtain ⟨target, heq⟩ := prepareTaskFinalBilling_keeps f.response.pricing t
      (some f.response.info)
    exact .inr ⟨rfl, target, by rw [if_pos rfl, heq]⟩

/-- The final write is of the same row; it prepares the billing of a task that ends, and
otherwise keeps its billing state. -/
theorem Fetch.final_cases (f : Fetch) (t : Task) :
    (f.final t).id = t.id ∧ (f.final t).status = t.status ∧
      (f.final t).mediaTransferState = t.mediaTransferState ∧
      ((f.final t).billingStatus = .finalizePending ∨
        f.ends t = false ∧ (f.final t).billingStatus = t.billingStatus) := by
  rcases f.final_eq t with ⟨hends, heq⟩ | ⟨-, target, heq⟩ <;> rw [heq]
  · exact ⟨rfl, rfl, rfl, .inr ⟨hends, rfl⟩⟩
  · exact ⟨rfl, rfl, rfl, .inl rfl⟩

end Course

@[simp] theorem TaskWrite.result_id (k : TaskWrite) (now : ℤ) (t : Task) :
    (k.result now t).id = t.id := by
  cases k with
  | sweep cutoff reason legacyReason =>
    simp only [TaskWrite.result, Task.timedOut]
    split_ifs <;> rfl
  | _ => rfl

/-- What a step can do to the database and the leases. -/
inductive LifecycleEffect (call : LifecycleCall) (s : LifecycleState) : LeaseState → Prop
  | unchanged : LifecycleEffect call s s.leaseState
  | submitted {t : Task} (hid : t.id = s.world.nextTaskId) (hbill : t.billingStatus = .submitting)
      (hstatus : t.status = .notStart) (hmedia : t.mediaTransferState = none) :
      LifecycleEffect call s
        ⟨{ s.world with tasks := s.world.tasks.put t.id t, nextTaskId := t.id + 1 }, s.leases⟩
  | written {k : TaskWrite} {env : Env} {t r : Task} (hcall : call = .write k env t)
      (htakes : k.takes t = true) (hr : s.world.tasks (k.result env.now t).id = some r)
      (hg : t.snapshot.guards r = true) :
      LifecycleEffect call s
        ⟨{ s.world with
          tasks := s.world.tasks.put (k.result env.now t).id
            { k.result env.now t with updatedAt := env.now } }, s.leases⟩
  | finished {n : ℕ} {env : Env} {f : Fetch} {t r : Task} (hcall : call = .finish n env)
      (hf : s.fetches[n]? = some f) (hstage : f.stage = .writing t)
      (hr : s.world.tasks (f.final t).id = some r) (hg : f.read.snapshot.guards r = true) :
      LifecycleEffect call s
        ⟨{ s.world with
          tasks := s.world.tasks.put (f.final t).id { f.final t with updatedAt := env.now } },
          s.leases⟩
  | enqueued {n : ℕ} {env : Env} {ready : Bool} {input : MediaTransferSource} {f : Fetch}
      {t previous r : Task} (hcall : call = .enqueue n env ready input)
      (hf : s.fetches[n]? = some f) (hstage : f.stage = .enqueuing t previous)
      (hr : s.world.tasks t.id = some r) (hprev : previous.isPrevious r = true)
      (hnone : s.world.jobOfTask t.id = none) :
      LifecycleEffect call s
        ⟨s.world.enqueued env.now (markVideoMediaTransferPending t) input, s.leases⟩
  | billed {c : BillingConditions} {t : Task} {reason : String} {next : TaskBillingStatus}
      {w' : World} (hcall : call = .applyPending c t reason)
      (hnext : pendingTransition t = some next) (htarget : 0 ≤ t.billingTargetQuota)
      (hb : Billed c.env t t.billingStatus next (pendingPayload c t reason) s.world w') :
      LifecycleEffect call s ⟨w', s.leases⟩
  | rescheduled {now nextRetryAt id : ℤ} {lastError : String} : LifecycleEffect call s
        ⟨{ s.world with
          tasks := s.world.tasks.modify id (Task.retryScheduled now nextRetryAt lastError) },
          s.leases⟩
  | transferred {mediaCall : LeaseCall} {l : LeaseState}
      (hnot : mediaCall.isEnqueue = false)
      (heff : LeaseEffect mediaCall s.leaseState l) : LifecycleEffect call s l

/-- How a fetch came about that was not there before the step. -/
inductive FetchEffect (call : LifecycleCall) (s : LifecycleState) : Fetch → Prop
  | begun {f : Fetch} (hcall : call.begins = some f) (hkept : f.Kept) (hclean : f.stage.clean) :
      FetchEffect call s f
  | enqueued {n : ℕ} {env : Env} {ready : Bool} {input : MediaTransferSource} {f : Fetch}
      {t previous : Task} (hcall : call = .enqueue n env ready input)
      (hf : s.fetches[n]? = some f) (hstage : f.stage = .enqueuing t previous) :
      FetchEffect call s { f with
        stage :=
          f.enqueued previous (enqueueVideoMediaTransfer env ready t previous input s.world).1 }
  | uploaded {n : ℕ} {u : UploadResult} {f : Fetch} {t : Task} (hcall : call = .upload n u)
      (hf : s.fetches[n]? = some f) (hstage : f.stage = .uploading t) :
      FetchEffect call s { f with stage := .writing (f.uploaded t u) }
  | ended {f : Fetch} (hf : f ∈ s.fetches) : FetchEffect call s { f with stage := .ended }

section Effect

theorem taskBillingRefusal_target {t : Task} {expected next : TaskBillingStatus}
    {payload : Option TaskBillingEventPayload}
    (h : taskBillingRefusal t expected next payload = none) : 0 ≤ t.billingTargetQuota := by
  by_contra hneg
  unfold taskBillingRefusal at h
  split_ifs at h
  all_goals omega

theorem LifecycleEffect.of_write (k : TaskWrite) (env : Env) (t : Task) :
    LifecycleEffect (.write k env t) s ⟨k.apply env t s.world, s.leases⟩ := by
  unfold TaskWrite.apply
  split_ifs with htk
  · rcases updateWithSnapshot_cases env (k.result env.now t) t.snapshot s.world with
      ⟨hw, -⟩ | ⟨r, hr, hg, hw⟩
    · rw [hw]
      exact .unchanged
    · rw [hw]
      exact .written rfl htk hr hg
  · exact .unchanged

theorem LifecycleEffect.of_finish {n : ℕ} {f : Fetch} {t : Task} (hf : s.fetches[n]? = some f)
    (hst : f.stage = .writing t) (env : Env) :
    LifecycleEffect (.finish n env) s ⟨f.write env t s.world, s.leases⟩ := by
  unfold Fetch.write
  split_ifs
  · rcases updateWithSnapshot_cases env (f.final t) f.read.snapshot s.world with
      ⟨hw, -⟩ | ⟨r, hr, hg, hw⟩
    · rw [hw]
      exact .unchanged
    · rw [hw]
      exact .finished rfl hf hst hr hg
  · exact .unchanged

theorem LifecycleEffect.of_submit {call : LifecycleCall} (request : SubmissionState) (a : Attempt) :
    LifecycleEffect call s
      ⟨({ request with world := s.world }.ensurePersistentTaskSubmission a).2.world, s.leases⟩ := by
  unfold SubmissionState.ensurePersistentTaskSubmission
  split_ifs
  · exact .unchanged
  · cases s.world.tasks request.persistentTaskID with
    | none => exact .unchanged
    | some t =>
      dsimp only
      split_ifs <;> exact .unchanged
  · exact .unchanged
  · exact .submitted (t := { request with world := s.world }.initTask a s.world.nextTaskId)
      rfl rfl rfl rfl

/-- Step lemma for the database: everything a call can do to it. -/
theorem LifecycleCall.effect (call : LifecycleCall) (s : LifecycleState) :
    LifecycleEffect call s (s.step call).leaseState := by
  cases call with
  | submit request a => exact .of_submit request a
  | write k env t => exact .of_write k env t
  | poll | song =>
    rw [step]
    split_ifs <;> exact .unchanged
  | fetch t a storage => exact .unchanged
  | upload =>
    rw [step]
    split
    · split <;> exact .unchanged
    · exact .unchanged
  | enqueue n env ready input =>
    rw [step]
    split
    · rename_i f hf
      split
      · rename_i t previous hst
        rcases enqueueVideoMediaTransfer_cases env s.world ready t previous input with
          ⟨hw, -⟩ | ⟨r, hr, hprev, hnone, hw⟩
        · dsimp only [advance, leaseState]
          rw [hw]
          exact .unchanged
        · rw [hw]
          exact .enqueued rfl hf hst hr hprev hnone
      · exact .unchanged
    · exact .unchanged
  | finish n env =>
    rw [step]
    split
    · rename_i f hf
      split
      · rename_i t hst
        exact .of_finish hf hst env
      · exact .unchanged
    · exact .unchanged
  | applyPending c t reason =>
    rw [step, leaseState]
    rcases applyPendingTaskBilling_cases c t reason s.world with
      ⟨hsame, -⟩ | ⟨next, w', hnext, hrefu, hb, happ⟩
    · rw [hsame]
      exact .unchanged
    · rw [happ]
      exact .billed rfl hnext (taskBillingRefusal_target hrefu) hb
  | scheduleRetry env t nextRetryAt lastError =>
    rw [step, leaseState]
    rcases scheduleTaskBillingRetry_cases env t.id t.billingStatus nextRetryAt lastError s.world
      with hw | hw
    · rw [hw]
      exact .unchanged
    · rw [hw]
      exact .rescheduled
  | media mediaCall =>
    rw [step]
    split_ifs with hnot
    · exact .unchanged
    · exact .transferred (Bool.not_eq_true _ ▸ hnot) (mediaCall.effect s.leaseState)

theorem LifecycleCall.effect_world (call : LifecycleCall) (s : LifecycleState) :
    ∃ l, LifecycleEffect call s l ∧ (s.step call).world = l.world :=
  ⟨_, call.effect s, rfl⟩

theorem mem_advance {n : ℕ} {f g : Fetch} {stage : FetchStage} {w : World}
    (h : g ∈ (s.advance n f stage w).fetches) : g ∈ s.fetches ∨ g = { f with stage := stage } :=
  List.mem_or_eq_of_mem_set h

/-- Step lemma for the fetches: every one was there, or came about by the step. -/
theorem LifecycleCall.fetches (call : LifecycleCall) (s : LifecycleState) {g : Fetch}
    (hg : g ∈ (s.step call).fetches) : g ∈ s.fetches ∨ FetchEffect call s g := by
  have hbegin : ∀ f : Fetch, call.begins = some f → f.Kept → f.stage.clean →
      g ∈ (s.begin f).fetches → g ∈ s.fetches ∨ FetchEffect call s g := by
    intro f hcall hkept hcln hmem
    rcases List.mem_append.mp hmem with hmem | hmem
    · exact .inl hmem
    · rw [List.mem_singleton] at hmem
      subst hmem
      exact .inr (.begun hcall hkept hcln)
  cases call with
  | poll t r storage =>
    rw [step] at hg
    split_ifs at hg with hunf
    · have hkept := updateVideoSingleTask_kept r storage (Task.isUnfinished_media hunf)
      exact hbegin _ (if_pos hunf) hkept.1 hkept.2 hg
    · exact .inl hg
  | fetch t a storage =>
    have hkept := tryRealtimeFetch_kept (t := t) storage a
    exact hbegin _ rfl hkept.1 hkept.2 hg
  | song t i =>
    rw [step] at hg
    split_ifs at hg with hmed
    · have hkept := updateSunoTask_kept i hmed
      exact hbegin _ (if_pos hmed) hkept.1 hkept.2 hg
    · exact .inl hg
  | enqueue n env ready input =>
    rw [step] at hg
    split at hg
    · rename_i f hf
      split at hg
      · rename_i t previous hst
        rcases mem_advance hg with hg | rfl
        · exact .inl hg
        · exact .inr (.enqueued rfl hf hst)
      · exact .inl hg
    · exact .inl hg
  | upload n u =>
    rw [step] at hg
    split at hg
    · rename_i f hf
      split at hg
      · rename_i t hst
        rcases mem_advance hg with hg | rfl
        · exact .inl hg
        · exact .inr (.uploaded rfl hf hst)
      · exact .inl hg
    · exact .inl hg
  | finish n env =>
    rw [step] at hg
    split at hg
    · rename_i f hf
      split at hg
      · rcases mem_advance hg with hg | rfl
        · exact .inl hg
        · exact .inr (.ended (List.mem_of_getElem? hf))
      · exact .inl hg
    · exact .inl hg
  | media mediaCall =>
    rw [step] at hg
    split_ifs at hg <;> exact .inl hg
  | _ => exact .inl hg

end Effect

/-- Rows and jobs are numbered below the next ids, leases name jobs, and fetches carry
copies of the rows they read. -/
structure LifecycleInvariant (s : LifecycleState) : Prop where
  leases : LeasesGranted s.leaseState
  tasksBelow : s.world.tasks.Below s.world.nextTaskId
  jobsBelow : s.world.jobOfTask.Below s.world.nextTaskId
  fetches : ∀ f ∈ s.fetches, f.Kept

/-- Before any fetch. -/
theorem LifecycleInvariant.start (hjobs : JobsIndexed w) (htsk : w.tasks.Below w.nextTaskId)
    (hbelow : w.jobOfTask.Below w.nextTaskId) : LifecycleInvariant ⟨w, [], []⟩ :=
  ⟨.start hjobs, htsk, hbelow, fun _ hf => absurd hf List.not_mem_nil⟩

theorem FetchEffect.kept (h : FetchEffect call s g) (hs : ∀ f ∈ s.fetches, f.Kept) : g.Kept := by
  cases h with
  | begun hcall hkept => exact hkept
  | enqueued hcall hf hst =>
    exact Fetch.enqueued_kept (hs _ (List.mem_of_getElem? hf)) hst _
  | uploaded hcall hf hst =>
    obtain ⟨hmed, hcopy⟩ := (hs _ (List.mem_of_getElem? hf)).uploading hst
    exact ⟨hmed, hcopy.toCopyKept.trans (Fetch.uploaded_copy _ _ _)⟩
  | ended => trivial

theorem FetchEffect.source (h : FetchEffect call s g) :
    call.begins = some g ∨ ∃ f ∈ s.fetches, g.read = f.read := by
  cases h with
  | begun hcall => exact .inl hcall
  | ended hf => exact .inr ⟨_, hf, rfl⟩
  | enqueued hcall hf | uploaded hcall hf => exact .inr ⟨_, List.mem_of_getElem? hf, rfl⟩

variable {expected next : TaskBillingStatus} {payload : Option TaskBillingEventPayload}

theorem Billed.media {env : Env} {w' : World} (hb : Billed env t expected next payload w w') :
    w'.jobs = w.jobs ∧ w'.jobOfTask = w.jobOfTask ∧ w'.nextJobId = w.nextJobId ∧
      w'.nextTaskId = w.nextTaskId := by
  rw [hb.rest]
  exact ⟨rfl, rfl, rfl, rfl⟩

/-- The calls of workers and administrators change rows in place, keep their bill and make
no job. -/
theorem LeaseEffect.inPlace {call : LeaseCall} {s s' : LeaseState} (heff : LeaseEffect call s s')
    (hnot : call.isEnqueue = false) :
    s'.world.jobOfTask = s.world.jobOfTask ∧ s'.world.nextTaskId = s.world.nextTaskId ∧
      ∃ k g, (∀ t, CopyKept t (g t)) ∧ s'.world.tasks = s.world.tasks.modify k g := by
  have hsame : s.world.tasks = s.world.tasks.modify 0 id :=
    (Table.modify_id (f := id) _ _ fun _ _ => rfl).symm
  cases heff with
  | unchanged | claimed => exact ⟨rfl, rfl, 0, id, CopyKept.refl, hsame⟩
  | enqueued hcall =>
    subst hcall
    cases hnot
  | held hl hj hheld hkeep hst =>
    refine ⟨rfl, rfl, _, _, fun t => ?_, rfl⟩
    rcases hst with ⟨-, -, rfl⟩ | ⟨-, rfl⟩ | ⟨-, now, rfl⟩ | ⟨-, now, url, data, rfl⟩ <;>
      exact ⟨rfl, rfl, rfl, rfl, rfl, rfl⟩
  | reopened =>
    exact ⟨rfl, rfl, _, Task.mediaReopened _, fun _ => ⟨rfl, rfl, rfl, rfl, rfl, rfl⟩, rfl⟩

theorem LeasesGranted.of_eq {s : LeaseState} (h : LeasesGranted s) (hjobs : w.jobs = s.world.jobs)
    (hidx : w.jobOfTask = s.world.jobOfTask) (hnext : w.nextJobId = s.world.nextJobId) :
    LeasesGranted ⟨w, s.leases⟩ :=
  ⟨h.jobs.of_eq hjobs hidx hnext, by rw [hjobs]; exact h.named, by rw [hjobs]; exact h.granted⟩

theorem LifecycleInvariant.billed (h : LifecycleInvariant s) {env : Env} {w' : World}
    (hb : Billed env t expected next payload s.world w') :
    LifecycleInvariant { s with world := w' } := by
  obtain ⟨hjobs, hidx, hjob, htask⟩ := hb.media
  refine ⟨h.leases.of_eq hjobs hidx hjob, ?_, ?_, h.fetches⟩
  · rw [hb.tasks, htask]
    exact h.tasksBelow.modify _ _
  · rw [hidx, htask]
    exact h.jobsBelow

/-- One call, over its effect on the rows. -/
theorem LifecycleInvariant.step (call : LifecycleCall) (s : LifecycleState)
    (h : LifecycleInvariant s) : LifecycleInvariant (s.step call) := by
  have hfetc : ∀ f ∈ (s.step call).fetches, f.Kept := by
    intro f hf
    rcases call.fetches s hf with hold | hnew
    · exact h.fetches f hold
    · exact hnew.kept h.fetches
  have hwd : LeasesGranted (s.step call).leaseState ∧
      (s.step call).leaseState.world.tasks.Below (s.step call).leaseState.world.nextTaskId ∧
      (s.step call).leaseState.world.jobOfTask.Below (s.step call).leaseState.world.nextTaskId := by
    have heff := call.effect s
    generalize (s.step call).leaseState = l at heff ⊢
    cases heff with
    | unchanged => exact ⟨h.leases, h.tasksBelow, h.jobsBelow⟩
    | submitted hid hbill hsta hmed =>
      rename_i t
      have hle : s.world.nextTaskId ≤ t.id + 1 := by omega
      exact ⟨h.leases.of_eq rfl rfl rfl, (h.tasksBelow.mono hle).put (Int.lt_succ _) _,
        h.jobsBelow.mono hle⟩
    | written hcall htk hr hg | finished hcall hf hst hr hg =>
      exact ⟨h.leases.of_eq rfl rfl rfl, h.tasksBelow.put (h.tasksBelow _ _ hr) _, h.jobsBelow⟩
    | enqueued hcall hf hst hr hprev hnone =>
      exact ⟨h.leases.enqueued _ _ hnone, h.tasksBelow.modify _ _,
        h.jobsBelow.put (h.tasksBelow _ _ hr) _⟩
    | billed hcall hnext htgt hb =>
      have hbil := h.billed hb
      exact ⟨hbil.leases, hbil.tasksBelow, hbil.jobsBelow⟩
    | rescheduled => exact ⟨h.leases.of_eq rfl rfl rfl, h.tasksBelow.modify _ _, h.jobsBelow⟩
    | transferred hnot heff =>
      obtain ⟨hidx, htask, k, g, -, htsk⟩ := heff.inPlace hnot
      refine ⟨heff.granted h.leases, ?_, ?_⟩
      · rw [htsk, htask]
        exact h.tasksBelow.modify k g
      · rw [hidx, htask]
        exact h.jobsBelow
  exact ⟨hwd.1, hwd.2.1, hwd.2.2, hfetc⟩

/-- A task of which only the first charge has been settled. -/
def chargedTask : Task := { sampleTask with billingStatus := .pending, quota := 5 }

def chargedWorld : World :=
  { World.empty with tasks := World.empty.tasks.put 1 chargedTask, nextTaskId := 2 }

theorem chargedWorld_row {k : ℤ} (h : chargedWorld.tasks k = some t) : k = 1 ∧ t = chargedTask := by
  simp only [chargedWorld, Table.put_apply] at h
  split_ifs at h with hk
  · exact ⟨hk, (Option.some.inj h).symm⟩
  · cases h

theorem chargedWorld_start : LifecycleInvariant ⟨chargedWorld, [], []⟩ := by
  refine .start (.start (fun _ => rfl) fun _ => rfl) (fun k t ht => ?_) fun k id hk => ?_
  · obtain ⟨rfl, -⟩ := chargedWorld_row ht
    decide
  · cases hk

def videoDone : PollResponse where
  info := { status := .success, url := "https://upstream/v", progress := "", reason := ""
            totalTokens := 0 }
  data := ""
  nextPollAt := none
  failReason := ""
  upstreamError := ""
  serverAddress := ""
  pricing := ⟨fun _ _ => none, none⟩
  now := 3

end NewApi
