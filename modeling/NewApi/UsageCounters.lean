import NewApi.TaskFunds
import NewApi.TaskLifecycle

/-!
# Usage counters of users and channels

The counters of what a user and a channel have used are raised when a submission has been
completed, by two statements after the row was written, directly or through the batch of
pending updates; and the transaction of the final billing moves them by its delta. So what
has been counted for a task is known from the billing state of its row: nothing while the
task is being submitted, the target while its first adjustment is pending, and the quota
from then on.
-/
namespace NewApi
open LifecycleState

/-- The two counters of used quota. -/
inductive UsageCounter where
  | user | channel
  deriving DecidableEq

/-- An update of a counter that the handler of a submission still has to make. -/
structure UsageLog where
  counter : UsageCounter
  (id quota : ℤ)

/-- The lifecycle of tasks, seen from one `task`. `seen` holds the values that its row has
had, and the two functions what its own steps have added to the counters of each user and
channel; they are bookkeeping of the model. -/
structure UsageState where
  life : LifecycleState
  task : ℤ
  seen : List Task
  logs : List UsageLog
  (userUsage channelUsage : ℤ → ℤ)

/-- Nothing is counted yet. -/
def UsageState.start (w : World) (task : ℤ) : UsageState where
  life := ⟨w, [], []⟩
  task := task
  seen := []
  logs := []
  userUsage := 0
  channelUsage := 0

/-- `outside` stands for whatever others do to the rows of users and channels, and
`interrupt` for the end of the process. -/
inductive UsageCall where
  | life (call : LifecycleCall)
  | log (n : ℕ) (env : Env)
  | interrupt
  | outside (users : Table ℤ User) (channels : Table ℤ Channel)

/-- A user's counter after a change. -/
def User.addUsed (quota : ℤ) (r : User) : User := { r with usedQuota := r.usedQuota + quota }

/-- A channel's counter after a change. -/
def Channel.addUsed (quota : ℤ) (r : Channel) : Channel :=
  { r with usedQuota := r.usedQuota + quota }

/-- The counter of a deleted user stays; an error is only logged. -/
def updateUserUsedQuota (env : Env) (id quota : ℤ) (w : World) : World :=
  if env.fault 0 then w
  else { w with users := (w.users.updateWhere id (fun r => !r.deleted) (User.addUsed quota)).1 }

/-- An error is only logged. -/
def updateChannelUsedQuota (env : Env) (id quota : ℤ) (w : World) : World :=
  if env.fault 0 then w
  else { w with
    channels := (w.channels.updateWhere id (fun _ => true) (Channel.addUsed quota)).1 }

/-- The statement of a log; errors are only reported. -/
def UsageLog.exec (l : UsageLog) (env : Env) (w : World) : World :=
  match l.counter with
  | .user => updateUserUsedQuota env l.id l.quota w
  | .channel => updateChannelUsedQuota env l.id l.quota w

/-- The counters that a submission of the task has to raise once its row is completed. The
price of the request is the quota of its result by then. -/
def LifecycleCall.consumption (call : LifecycleCall) (task : ℤ) (w : World) : List UsageLog :=
  match call with
  | .write (.complete info billed r a) env t =>
    if t.id = task ∧ (TaskWrite.complete info billed r a).takes t = true then
      match (updateWithSnapshot env (t.completed info billed r a) t.snapshot w).1 with
      | .ok true => [⟨.user, info.userId, r.quota⟩, ⟨.channel, a.channel.channelId, r.quota⟩]
      | _ => []
    else []
  | _ => []

open LifecycleCall

/-- The call moves the quota of the task. -/
def LifecycleCall.bills (task : ℤ) : LifecycleCall → Bool
  | .applyPending _ t _ => decide (t.id = task)
  | _ => false

namespace UsageState
variable (s : UsageState)

/-- Book what a step of the task added to the counters. -/
def book (w : World) : UsageState :=
  { s with
    userUsage := fun u => s.userUsage u + (w.userUsed u - s.life.world.userUsed u)
    channelUsage := fun c => s.channelUsage c + (w.channelUsed c - s.life.world.channelUsed c) }

def withWorld (w : World) : UsageState := { s with life := { s.life with world := w } }

/-- One step; the ghost fields book what it counts for the task. -/
def step : UsageCall → UsageState → UsageState
  | .life call, s =>
    let life := s.life.step call
    { if call.bills s.task then s.book life.world else s with
      life := life
      logs := s.logs ++ call.consumption s.task s.life.world
      seen := s.seen ++ (life.world.tasks s.task).toList }
  | .log n env, s =>
    match s.logs[n]? with
    | none => s
    | some l =>
      let w := l.exec env s.life.world
      { (s.book w).withWorld w with logs := s.logs.eraseIdx n }
  | .interrupt, s => { s with logs := [] }
  | .outside users channels, s =>
    s.withWorld { s.life.world with users := users, channels := channels }

end UsageState

open UsageState (book)

/-- What has been logged for a row with this billing state is what it has paid. -/
def Task.chargeLogged (t : Task) : Bool :=
  match t.billingStatus with
  | .submitting => decide (t.quota = 0)
  | .submitPending => decide (t.quota = t.billingTargetQuota)
  | _ => true

open NewApi.Task

/-- A copy of the task has the bill that its row had when it was read. -/
def UsageState.Read (s : UsageState) (t : Task) : Prop := t.id = s.task → ∃ q ∈ s.seen, CopyKept q t

/-- The row has a property, if it is there. -/
def UsageState.rowMeets (s : UsageState) (p : Task → Bool) : Bool :=
  (s.life.world.tasks s.task).all p

/-- The write ends the task. -/
def TaskWrite.ends : TaskWrite → Bool
  | .fail .. | .sweep .. | .recover .. | .abandon _ => true
  | .complete .. | .v6kRetry _ => false

/-- A handler completes its own request, and prices are not negative. -/
def TaskWrite.owned (t : Task) : TaskWrite → Bool
  | .complete info _ r _ => decide (info.userId = t.userId) && decide (0 ≤ r.quota)
  | _ => true

/-- The fetch is about to end its task. -/
def Fetch.endsTask (f : Fetch) : Bool :=
  match f.stage with
  | .writing t => f.ends t
  | _ => false

/-- The row that a log updates is there, and the statement does not fail. -/
def UsageLog.lands (l : UsageLog) (env : Env) (w : World) : Bool :=
  !env.fault 0 && match l.counter with
    | .user => (w.users l.id).any fun r => !r.deleted
    | .channel => (w.channels l.id).isSome

/-- Every copy was read from the row. No step ends the task, or queues its transfer after
the end, while what was logged differs from what it has paid; and every log is made. -/
def UsageFollows : UsageCall → UsageState → Prop
  | .life (.write k _ t), s => s.Read t ∧ (t.id = s.task → k.owned t = true) ∧
      (t.id = s.task → k.ends = true → s.rowMeets chargeLogged = true)
  | .life (.poll t _ _), s | .life (.fetch t _ _), s | .life (.song t _), s
  | .life (.applyPending _ t _), s => s.Read t
  | .life (.enqueue n _ _ _), s => (s.life.fetches[n]?).all (fun f =>
    decide (f.read.id ≠ s.task) || s.rowMeets chargeLogged) = true
  | .life (.finish n _), s => (s.life.fetches[n]?).all (fun f =>
    decide (f.read.id ≠ s.task) || !f.endsTask || s.rowMeets chargeLogged) = true
  | .log n env, s => (s.logs[n]?).all (fun l => l.lands env s.life.world) = true
  | .interrupt, s => s.logs = []
  | _, _ => True

instance CopyKept.decidable (q t : Task) : Decidable (CopyKept q t) :=
  decidable_of_iff _ (copyKept_iff q t).symm

instance UsageState.Read.decidable (s : UsageState) (t : Task) : Decidable (s.Read t) :=
  inferInstanceAs (Decidable (t.id = s.task → ∃ q ∈ s.seen, CopyKept q t))

instance UsageFollows.decidable : ∀ call s, Decidable (UsageFollows call s)
  | .life call, s => by
    induction call using LifecycleCall.casesOn <;> dsimp only [UsageFollows] <;> infer_instance
  | .log .., _ | .interrupt, _ | .outside .., _ => by dsimp only [UsageFollows]; infer_instance

/-- What has been counted for a task, or is about to be, by the billing state of its row. -/
def Task.logged (t : Task) : ℤ :=
  match t.billingStatus with
  | .submitting => 0
  | .submitPending => t.billingTargetQuota
  | _ => t.quota

/-- What is still to be counted. -/
def pendingLogs (counter : UsageCounter) (id : ℤ) (logs : List UsageLog) : ℤ :=
  (logs.map fun l => if l.counter = counter ∧ l.id = id then l.quota else 0).sum

/-- The row keeps its user, and its channel once the submission is over. -/
structure RowStable (q r : Task) : Prop where
  userId : r.userId = q.userId
  submitted : q.billingStatus ≠ .submitting → r.billingStatus ≠ .submitting
  channelId : q.billingStatus ≠ .submitting ∨ r.billingStatus = .submitting →
    r.channelId = q.channelId

/-- Counted and still to be counted make what was logged. -/
structure RowCounted (s : UsageState) (r : Task) : Prop where
  id : r.id = s.task
  seen : ∀ q ∈ s.seen, RowStable q r
  user : ∀ u, s.userUsage u + pendingLogs .user u s.logs = if u = r.userId then r.logged else 0
  channel : ∀ c, s.channelUsage c + pendingLogs .channel c s.logs =
    if c = r.channelId then r.logged else 0
  nonneg : r.billingStatus = .settled ∨ r.billingStatus = .refunded → 0 ≤ r.quota
  refunded : r.billingStatus = .refunded → r.quota = 0

/-- What holds after every admissible run. -/
structure UsageInvariant (s : UsageState) : Prop where
  life : LifecycleInvariant s.life
  absent : s.life.world.tasks s.task = none →
    s.seen = [] ∧ s.logs = [] ∧ s.userUsage = 0 ∧ s.channelUsage = 0
  row : ∀ r, s.life.world.tasks s.task = some r → RowCounted s r
  read : ∀ f ∈ s.life.fetches, s.Read f.read

section Steps
variable {s : UsageState} {q r r' t : Task}

theorem RowStable.refl (r : Task) : RowStable r r := ⟨rfl, id, fun _ => rfl⟩

theorem RowStable.trans (h : RowStable q r) (h' : RowStable r r') : RowStable q r' := by
  refine ⟨h'.userId.trans h.userId, fun hq => h'.submitted (h.submitted hq), fun hq => ?_⟩
  rcases hq with hq | hr'
  · exact (h'.channelId (.inl (h.submitted hq))).trans (h.channelId (.inl hq))
  have hr : r.billingStatus = .submitting := by
    by_contra hne
    exact h'.submitted hne hr'
  exact (h'.channelId (.inr hr')).trans (h.channelId (.inr hr))

/-- A copy in the billing state of the row names the row's user and channel. -/
theorem RowCounted.copy (h : RowCounted s r) (hread : s.Read t) (hid : t.id = s.task)
    (hbill : r.billingStatus = t.billingStatus) :
    t.userId = r.userId ∧ t.channelId = r.channelId := by
  obtain ⟨q, hq, hcopy⟩ := hread hid
  have hstab := h.seen q hq
  refine ⟨hcopy.userId.trans hstab.userId.symm, hcopy.channelId.trans ?_⟩
  refine (hstab.channelId ?_).symm
  by_cases hsub : q.billingStatus = .submitting
  · right
    rw [hbill, hcopy.billing, hsub]
  · exact .inl hsub

theorem RowCounted.guarded (h : RowCounted s r) (hread : s.Read t) (hid : t.id = s.task)
    (hg : t.snapshot.guards r = true) : CopyKept r t := by
  simp only [TaskSnapshot.guards, Bool.and_eq_true, decide_eq_true_eq] at hg
  obtain ⟨⟨⟨⟨⟨⟨-, hbill⟩, hqt⟩, htgt⟩, -⟩, -⟩, -⟩ := hg
  obtain ⟨huser, hchan⟩ := h.copy hread hid hbill
  exact ⟨hid.trans h.id.symm, hbill.symm, huser, hchan, hqt.symm, htgt.symm⟩

/-- A row that pays what was logged for it has that as its quota. -/
theorem Task.logged_of_chargeLogged (h : t.chargeLogged = true) : t.logged = t.quota := by
  unfold chargeLogged at h
  unfold logged
  cases hb : t.billingStatus <;> simp only [hb, decide_eq_true_eq] at h ⊢
  · exact h.symm
  · exact h.symm

theorem RowCounted.seen_append (h : RowCounted s r) (hstab : RowStable r r') :
    ∀ q ∈ s.seen ++ [r'], RowStable q r' := by
  intro q hq
  rcases List.mem_append.mp hq with hq | hq
  · exact (h.seen q hq).trans hstab
  · rw [List.mem_singleton.mp hq]
    exact RowStable.refl r'

/-- The row `r'` that a step leaves is accounted for. -/
abbrev UsageState.Leaves (s : UsageState) (life : LifecycleState) (r' : Task) : Prop :=
  RowCounted { s with life := life, seen := s.seen ++ [r'] } r'

variable {life : LifecycleState}

/-- The row is written anew; what is counted for it stays. -/
theorem RowCounted.rewrite (h : RowCounted s r) (hid : r'.id = r.id)
    (huser : r'.userId = r.userId) (hchan : r'.channelId = r.channelId)
    (hlog : r'.logged = r.logged)
    (hsub : r.billingStatus ≠ .submitting → r'.billingStatus ≠ .submitting)
    (hnn : r'.billingStatus = .settled ∨ r'.billingStatus = .refunded → 0 ≤ r'.quota)
    (href : r'.billingStatus = .refunded → r'.quota = 0) : s.Leaves life r' := by
  refine ⟨hid.trans h.id, h.seen_append ⟨huser, hsub, fun _ => hchan⟩, fun u => ?_, fun c => ?_,
    hnn, href⟩
  · rw [huser, hlog]
    exact h.user u
  · rw [hchan, hlog]
    exact h.channel c

theorem RowCounted.kept (h : RowCounted s r) (hcopy : CopyKept r r') : s.Leaves life r' := by
  refine h.rewrite hcopy.id hcopy.userId hcopy.channelId ?_ ?_ ?_ ?_
  · unfold logged
    rw [hcopy.billing, hcopy.quota, hcopy.target]
  · rw [hcopy.billing]
    exact fun hsub => hsub
  · rw [hcopy.billing, hcopy.quota]
    exact h.nonneg
  · rw [hcopy.billing, hcopy.quota]
    exact h.refunded

/-- The bill is closed for good, at what was logged. -/
theorem RowCounted.closed (h : RowCounted s r) (hid : r'.id = r.id)
    (huser : r'.userId = r.userId) (hchan : r'.channelId = r.channelId)
    (hqt : r'.quota = r.quota) (hbill : r'.billingStatus = .finalizePending)
    (hchg : r.chargeLogged = true) : s.Leaves life r' := by
  refine h.rewrite hid huser hchan ?_ ?_ ?_ ?_
  · rw [logged_of_chargeLogged hchg]
    simp only [logged, hbill, hqt]
  · simp [hbill]
  · simp [hbill]
  · simp [hbill]

variable {call : LifecycleCall} {env : Env} {k : TaskWrite} {w : World}

theorem UsageState.Read.mono {s s' : UsageState} (h : s.Read t) (htask : s'.task = s.task)
    (hseen : ∀ q ∈ s.seen, q ∈ s'.seen) : s'.Read t := by
  intro hid
  obtain ⟨q, hq, hcopy⟩ := h (hid.trans htask)
  exact ⟨q, hseen q hq, hcopy⟩

theorem LifecycleCall.begins_read {g : Fetch} (h : call.begins = some g)
    (hok : UsageFollows (.life call) s) : s.Read g.read := by
  cases call with
  | poll t r storage | song t i =>
    obtain ⟨-, hg⟩ := Option.ite_none_right_eq_some.mp h
    cases hg
    exact hok
  | fetch t a storage =>
    cases h
    exact hok
  | _ => cases h

@[simp] theorem UsageState.step_task (call : LifecycleCall) :
    (s.step (.life call)).task = s.task := by
  unfold UsageState.step
  dsimp only
  split_ifs <;> rfl

theorem UsageInvariant.fetches (h : UsageInvariant s) (call : LifecycleCall)
    (hok : UsageFollows (.life call) s) :
    ∀ f ∈ (s.step (.life call)).life.fetches, (s.step (.life call)).Read f.read := by
  intro g hg
  refine UsageState.Read.mono (s := s) ?_ (s.step_task call) fun q hq => List.mem_append_left _ hq
  rcases call.fetches s.life hg with hold | hnew
  · exact h.read g hold
  rcases hnew.source with hbegin | ⟨f, hf, hread⟩
  · exact begins_read hbegin hok
  · rw [hread]
    exact h.read f hf

/-- What becomes of the row in a step of the lifecycle. -/
structure RowOutcome (s : UsageState) (life : LifecycleState) : Prop where
  none : life.world.tasks s.task = none → s.life.world.tasks s.task = none
  some : ∀ r', life.world.tasks s.task = some r' →
    RowCounted { s with life := life, seen := s.seen ++ [r'] } r'

section
variable (h : UsageInvariant s)
include h

/-- A step of the lifecycle after which there is a row keeps the invariant if the row does. -/
theorem UsageInvariant.some_step (hok : UsageFollows (.life call) s)
    (hr : (s.life.step call).world.tasks s.task = some r)
    (hrow : RowCounted (s.step (.life call)) r) : UsageInvariant (s.step (.life call)) := by
  have htask := s.step_task call
  refine ⟨h.life.step call s.life, fun habsent => ?_, fun r' hr' => ?_, h.fetches call hok⟩
  · rw [htask] at habsent
    cases hr.symm.trans habsent
  · rw [htask] at hr'
    cases hr.symm.trans hr'
    exact hrow

/-- A step of the lifecycle that counts nothing keeps the invariant if the row does. -/
theorem UsageInvariant.life_step (hok : UsageFollows (.life call) s)
    (hbook : call.bills s.task = true → (s.life.step call).world = s.life.world)
    (hlogs : call.consumption s.task s.life.world = [])
    (hrow : RowOutcome s (s.life.step call)) : UsageInvariant (s.step (.life call)) := by
  have hbooked : (if call.bills s.task then s.book (s.life.step call).world else s) = s := by
    split_ifs with hbills
    · simp [hbook hbills, book]
    · rfl
  have hstep : s.step (.life call) = { s with
      life := s.life.step call
      seen := s.seen ++ ((s.life.step call).world.tasks s.task).toList } := by
    simp [UsageState.step, hbooked, hlogs]
  cases hr : (s.life.step call).world.tasks s.task with
  | some r =>
    refine h.some_step hok hr ?_
    rw [hstep, hr]
    exact hrow.some r hr
  | none =>
    have hfetc := h.fetches call hok
    rw [hstep, hr] at hfetc ⊢
    obtain ⟨hseen, hrest⟩ := h.absent (hrow.none hr)
    refine ⟨h.life.step call s.life, fun _ => ⟨by rw [hseen]; rfl, hrest⟩, fun r' hr' => ?_, hfetc⟩
    cases hr.symm.trans hr'

theorem UsageInvariant.same_row
    (hrow : life.world.tasks s.task = s.life.world.tasks s.task) : RowOutcome s life := by
  refine ⟨fun hnone => hrow ▸ hnone, fun r' hr' => ?_⟩
  exact (h.row r' (hrow ▸ hr')).kept (CopyKept.refl r')

theorem UsageInvariant.modify_row {j : ℤ}
    {g : Task → Task} (htsk : life.world.tasks = s.life.world.tasks.modify j g)
    (hg : j = s.task → ∀ r, s.life.world.tasks s.task = some r → s.Leaves life (g r)) :
    RowOutcome s life := by
  by_cases hj : s.task = j
  · subst hj
    refine ⟨fun hnone => ?_, fun r' hr' => ?_⟩
    · rw [htsk, Table.modify_self] at hnone
      exact Option.map_eq_none_iff.mp hnone
    · rw [htsk, Table.modify_self] at hr'
      obtain ⟨r, hr, rfl⟩ := Option.map_eq_some_iff.mp hr'
      exact hg rfl r hr
  · exact h.same_row (by rw [htsk, Table.modify_of_ne _ _ hj])

theorem UsageInvariant.put_row {j : ℤ} {q : Task}
    (htsk : life.world.tasks = s.life.world.tasks.put j q)
    (hq : j = s.task → s.Leaves life q) : RowOutcome s life := by
  by_cases hj : s.task = j
  · subst hj
    refine ⟨fun hnone => ?_, fun r' hr' => ?_⟩
    · rw [htsk, Table.put_self] at hnone
      cases hnone
    · rw [htsk, Table.put_self] at hr'
      cases hr'
      exact hq rfl
  · exact h.same_row (by rw [htsk, Table.put_of_ne _ _ hj])

theorem UsageInvariant.created_row (hnone : s.life.world.tasks s.task = none)
    (hid : t.id = s.task) (hbill : t.billingStatus = .submitting) : s.Leaves life t := by
  obtain ⟨hseen, hlogs, huser, hchan⟩ := h.absent hnone
  have hlog : t.logged = 0 := by simp only [logged, hbill]
  refine ⟨hid, fun q hq => ?_, fun u => ?_, fun c => ?_, by simp [hbill],
    by simp [hbill]⟩
  · rw [hseen, List.nil_append, List.mem_singleton] at hq
    rw [hq]
    exact RowStable.refl t
  · simp [hlogs, huser, hlog, pendingLogs]
  · simp [hlogs, hchan, hlog, pendingLogs]

theorem UsageInvariant.finished_row {f : Fetch} (hf : f ∈ s.life.fetches)
    (hst : f.stage = .writing t) (hid : (f.final t).id = s.task)
    (hr : s.life.world.tasks s.task = some r) (hg : f.read.snapshot.guards r = true)
    (hok : f.read.id = s.task → f.ends t = true → r.chargeLogged = true) :
    s.Leaves life { f.final t with updatedAt := env.now } := by
  obtain ⟨-, hcopy⟩ := (h.life.fetches f hf).writing hst
  have hrow := h.row r hr
  have hreadId : f.read.id = s.task := by rw [← hcopy.id, ← (f.final_cases t).1, hid]
  have hbill : CopyKept r t := (hrow.guarded (h.read f hf) hreadId hg).trans hcopy
  rcases f.final_eq t with ⟨-, heq⟩ | ⟨hends, target, heq⟩ <;> rw [heq]
  · exact hrow.kept (hbill.trans ⟨rfl, rfl, rfl, rfl, rfl, rfl⟩)
  · exact hrow.closed hbill.id hbill.userId hbill.channelId hbill.quota rfl (hok hreadId hends)

/-- A transfer is enqueued, which closes the bill. -/
theorem UsageInvariant.enqueued_row {now : ℤ} {f : Fetch} {previous : Task}
    (hf : f ∈ s.life.fetches) (hst : f.stage = .enqueuing t previous) (hid : t.id = s.task)
    (hr : s.life.world.tasks s.task = some r)
    (hok : f.read.id = s.task → r.chargeLogged = true) :
    s.Leaves life ((markVideoMediaTransferPending t).enqueuedFrom now r) := by
  obtain ⟨-, htid, hprep, -⟩ := (h.life.fetches f hf).enqueuing hst
  exact (h.row r hr).closed rfl rfl rfl rfl hprep (hok (htid ▸ hid))

/-- What every step of the lifecycle but guarded writes and billing makes of the row. -/
theorem UsageInvariant.quiet_row (hok : UsageFollows (.life call) s)
    (hwr : ∀ k env t, call ≠ .write k env t)
    (hpay : ∀ c t reason, call ≠ .applyPending c t reason) (life : LifecycleState)
    (heff : LifecycleEffect call s.life life.leaseState) : RowOutcome s life := by
  have hwd : life.world = life.leaseState.world := rfl
  generalize life.leaseState = l at heff hwd
  cases heff with
  | unchanged => exact h.same_row (by rw [hwd]; rfl)
  | submitted hid hbill hsta hmed =>
    rename_i t
    refine h.put_row (j := t.id) (q := t) (by rw [hwd]) fun htask => ?_
    refine h.created_row ?_ htask hbill
    cases hold : s.life.world.tasks s.task with
    | none => rfl
    | some r =>
      have hlt := h.life.tasksBelow _ r hold
      omega
  | written hcall => exact absurd hcall (hwr _ _ _)
  | finished hcall hf hst hr hg =>
    rename_i n env f t r
    subst hcall
    refine h.put_row (j := (f.final t).id) (q := { f.final t with updatedAt := env.now })
      (by rw [hwd]) fun htask => ?_
    rw [htask] at hr
    refine h.finished_row (List.mem_of_getElem? hf) hst htask hr hg fun hread hends => ?_
    simpa [UsageFollows, hf, hread, Fetch.endsTask, hst, hends, UsageState.rowMeets, hr]
      using hok
  | enqueued hcall hf hst hr hprev hnone =>
    rename_i n env ready input f t previous r
    subst hcall
    refine h.modify_row (j := t.id)
      (g := (markVideoMediaTransferPending t).enqueuedFrom env.now) (by rw [hwd]; rfl)
      fun htask q hq => ?_
    refine h.enqueued_row (List.mem_of_getElem? hf) hst htask hq fun hread => ?_
    simpa [UsageFollows, hf, hread, UsageState.rowMeets, hq] using hok
  | billed hcall => exact absurd hcall (hpay _ _ _)
  | rescheduled =>
    rename_i now nextRetryAt j lastError
    exact h.modify_row (j := j) (g := retryScheduled now nextRetryAt lastError)
      (by rw [hwd]) fun _ r hr => (h.row r hr).kept ⟨rfl, rfl, rfl, rfl, rfl, rfl⟩
  | transferred hnot heff =>
    obtain ⟨-, -, j, g, hkept, htsk⟩ := heff.inPlace hnot
    exact h.modify_row (by rw [hwd, htsk]; rfl) fun _ r hr => (h.row r hr).kept (hkept r)

/-- Calls that write no row and move no quota. -/
theorem UsageInvariant.quiet_step (hok : UsageFollows (.life call) s)
    (hwr : ∀ k env t, call ≠ .write k env t)
    (hpay : ∀ c t reason, call ≠ .applyPending c t reason) :
    UsageInvariant (s.step (.life call)) := by
  have hbills : call.bills s.task ≠ true := by
    cases call <;> first | exact Bool.false_ne_true | exact absurd rfl (hpay _ _ _)
  have hlogs : call.consumption s.task s.life.world = [] := by
    cases call <;> first | rfl | exact absurd rfl (hwr _ _ _)
  exact h.life_step hok (absurd · hbills) hlogs (h.quiet_row hok hwr hpay _ (call.effect s.life))

theorem UsageInvariant.write_row (hcopy : CopyKept r t) (hr : s.life.world.tasks s.task = some r)
    (hnot : ∀ info billed res a, k ≠ .complete info billed res a)
    (hok : k.ends = true → r.chargeLogged = true) :
    s.Leaves life { k.result env.now t with updatedAt := env.now } := by
  have hrow := h.row r hr
  -- the row of a task that is given up keeps its quota
  have hfail : k.ends = true → ∀ now reason upstreamError,
      s.Leaves life { t.failedWithRefund now reason upstreamError with updatedAt := env.now } :=
    fun hends now reason upstreamError =>
      hrow.closed hcopy.id hcopy.userId hcopy.channelId hcopy.quota rfl (hok hends)
  cases k with
  | complete info billed res a => exact absurd rfl (hnot _ _ _ _)
  | fail reason upstreamError | recover cutoff reason | abandon reason => exact hfail rfl _ _ _
  | sweep cutoff reason legacyReason =>
    simp only [TaskWrite.result, timedOut]
    split_ifs
    · exact hrow.kept (hcopy.trans ⟨rfl, rfl, rfl, rfl, rfl, rfl⟩)
    · exact hfail rfl _ _ _
  | v6kRetry delay => exact hrow.kept (hcopy.trans ⟨rfl, rfl, rfl, rfl, rfl, rfl⟩)

end

theorem pendingLogs_append (counter : UsageCounter) (id : ℤ) (logs logs' : List UsageLog) :
    pendingLogs counter id (logs ++ logs') =
      pendingLogs counter id logs + pendingLogs counter id logs' := by
  simp [pendingLogs]

variable {info : RelayInfo} {res : TaskSubmitResult}

/-- A completed row is accounted for once its logs are made. -/
theorem RowCounted.completed (hrow : RowCounted s r) {billed : Bool} {a : Attempt} (hcopy : CopyKept r t)
    (hsub : t.billingStatus = .submitting) (howned : info.userId = t.userId)
    (hpos : 0 ≤ res.quota) : RowCounted
      { s with
        life := life
        logs := s.logs ++
          [⟨.user, info.userId, res.quota⟩, ⟨.channel, a.channel.channelId, res.quota⟩]
        seen := s.seen ++ [{ t.completed info billed res a with updatedAt := env.now }] }
      { t.completed info billed res a with updatedAt := env.now } := by
  have hrsub : r.billingStatus = .submitting := hcopy.billing.symm.trans hsub
  have hzero : r.logged = 0 := by simp only [logged, hrsub]
  have hbill : (t.completed info billed res a).billingStatus ≠ .submitting := by
    cases billed <;> simp [Task.completed]
  have hlog : ({ t.completed info billed res a with updatedAt := env.now } : Task).logged =
      res.quota := by
    cases billed <;> simp [Task.completed, logged]
  have hstab : RowStable r { t.completed info billed res a with updatedAt := env.now } := by
    refine ⟨hcopy.userId, fun hne => absurd hrsub hne, fun hne => ?_⟩
    rcases hne with hne | hne
    · exact absurd hrsub hne
    · exact absurd hne hbill
  refine ⟨hcopy.id.trans hrow.id, hrow.seen_append hstab, fun u => ?_, fun c => ?_,
    fun hfin => ?_, fun hfin => ?_⟩
  · have hu := hrow.user u
    rw [hzero, ite_self] at hu
    rw [hlog, pendingLogs_append, ← add_assoc, hu]
    simp [pendingLogs, howned, Task.completed, eq_comm]
  · have hc := hrow.channel c
    rw [hzero, ite_self] at hc
    rw [hlog, pendingLogs_append, ← add_assoc, hc]
    simp [pendingLogs, Task.completed, eq_comm]
  · cases billed with
    | true => simp [Task.completed] at hfin
    | false => simpa [Task.completed] using hpos
  · cases billed <;> simp [Task.completed] at hfin

theorem consumption_of_not_won {task : ℤ} (h : t.id = task → k.takes t = true →
      (updateWithSnapshot env (k.result env.now t) t.snapshot w).1 ≠ .ok true) :
    (write k env t).consumption task w = [] := by
  cases k with
  | complete info billed r a =>
    simp only [consumption]
    split_ifs with htk
    · have hnot := h htk.1 htk.2
      cases hr : (updateWithSnapshot env (t.completed info billed r a) t.snapshot w).1 with
      | error e => rfl
      | ok won =>
        cases won with
        | false => rfl
        | true => exact absurd hr hnot
    · rfl
  | _ => rfl

/-- A handler completes the row, and has its logs to make. -/
theorem UsageInvariant.complete_step (h : UsageInvariant s) {billed : Bool} {a : Attempt}
    (hok : UsageFollows (.life (.write (.complete info billed res a) env t)) s)
    (htask : t.id = s.task) (htk : (TaskWrite.complete info billed res a).takes t = true)
    (hr : s.life.world.tasks s.task = some r) (hg : t.snapshot.guards r = true)
    (hw : updateWithSnapshot env (t.completed info billed res a) t.snapshot s.life.world =
      (.ok true, { s.life.world with
        tasks := s.life.world.tasks.put (t.completed info billed res a).id
          { t.completed info billed res a with updatedAt := env.now } })) :
    UsageInvariant (s.step (.life (.write (.complete info billed res a) env t))) := by
  have hid : (t.completed info billed res a).id = s.task := htask
  have hrow : (s.life.step (.write (.complete info billed res a) env t)).world.tasks s.task =
      some { t.completed info billed res a with updatedAt := env.now } := by
    simp [step, TaskWrite.apply, htk, TaskWrite.result, hw, hid]
  have hlogs : (write (.complete info billed res a) env t).consumption s.task s.life.world =
      [⟨.user, info.userId, res.quota⟩, ⟨.channel, a.channel.channelId, res.quota⟩] := by
    simp [consumption, htask, htk, hw]
  have hstep : s.step (.life (.write (.complete info billed res a) env t)) = { s with
      life := s.life.step (.write (.complete info billed res a) env t)
      logs := s.logs ++
        [⟨.user, info.userId, res.quota⟩, ⟨.channel, a.channel.channelId, res.quota⟩]
      seen := s.seen ++ [{ t.completed info billed res a with updatedAt := env.now }] } := by
    simp [UsageState.step, bills, hlogs, hrow]
  refine h.some_step hok hrow ?_
  rw [hstep]
  obtain ⟨hread, howned, -⟩ := hok
  have hct := h.row r hr
  have hmine := howned htask
  simp only [TaskWrite.owned, Bool.and_eq_true, decide_eq_true_eq] at hmine
  exact hct.completed (hct.guarded hread htask hg) (of_decide_eq_true htk) hmine.1 hmine.2

/-- Calls that write the row. -/
theorem UsageInvariant.write_step (h : UsageInvariant s)
    (hok : UsageFollows (.life (.write k env t)) s) :
    UsageInvariant (s.step (.life (.write k env t))) := by
  obtain ⟨hread, howned, hchg⟩ := hok
  have hlost : (∀ htk : k.takes t = true,
      (updateWithSnapshot env (k.result env.now t) t.snapshot s.life.world).2 = s.life.world ∧
      (updateWithSnapshot env (k.result env.now t) t.snapshot s.life.world).1 ≠ .ok true) →
      UsageInvariant (s.step (.life (.write k env t))) := by
    intro hsame
    refine h.life_step ⟨hread, howned, hchg⟩ (fun hbills => by cases hbills)
      (consumption_of_not_won fun _ htk => (hsame htk).2) (h.same_row ?_)
    simp only [step, TaskWrite.apply]
    split_ifs with htk
    · rw [(hsame htk).1]
    · rfl
  by_cases htk : k.takes t = true
  · rcases updateWithSnapshot_cases env (k.result env.now t) t.snapshot s.life.world with
      hsame | ⟨r, hr, hg, hw⟩
    · exact hlost fun _ => hsame
    have hwd : (s.life.step (.write k env t)).world = { s.life.world with
        tasks := s.life.world.tasks.put (k.result env.now t).id
          { k.result env.now t with updatedAt := env.now } } := by
      simp [step, TaskWrite.apply, htk, hw]
    by_cases htask : t.id = s.task
    · rw [k.result_id, htask] at hr
      have hcopy := (h.row r hr).guarded hread htask hg
      by_cases hcom : ∃ info billed res a, k = .complete info billed res a
      · obtain ⟨info, billed, res, a, rfl⟩ := hcom
        exact h.complete_step ⟨hread, howned, hchg⟩ htask htk hr hg hw
      replace hcom : ∀ info billed res a, k ≠ .complete info billed res a :=
        fun info billed res a heq => hcom ⟨info, billed, res, a, heq⟩
      have hlogs : (write k env t).consumption s.task s.life.world = [] := by
        cases k with
        | complete info billed res a => exact absurd rfl (hcom _ _ _ _)
        | _ => rfl
      refine h.life_step ⟨hread, howned, hchg⟩ (fun hbills => by cases hbills) hlogs
        (h.put_row (by rw [hwd]) ?_)
      intro _
      refine h.write_row hcopy hr hcom fun hends => ?_
      simpa [UsageState.rowMeets, hr] using hchg htask hends
    · refine h.life_step ⟨hread, howned, hchg⟩ (fun hbills => by cases hbills)
        (consumption_of_not_won fun hid => absurd hid htask) (h.put_row (by rw [hwd]) ?_)
      intro hid
      rw [k.result_id] at hid
      exact absurd hid htask
  · exact hlost fun hyes => absurd hyes htk

variable {c : BillingConditions}

/-- The row after a billing step is accounted for, with what the step booked. -/
theorem RowCounted.billed (hrow : RowCounted s r) {reason : String}
    {next : TaskBillingStatus} {w' : World} (hread : s.Read t) (htask : t.id = s.task)
    (hr : s.life.world.tasks s.task = some r) (hnext : pendingTransition t = some next)
    (htgt : 0 ≤ t.billingTargetQuota)
    (hb : Billed c.env t t.billingStatus next (pendingPayload c t reason) s.life.world w') :
    RowCounted
      { s.book w' with
        life := life
        seen := s.seen ++ [r.billed c.env.now next t.billingTargetQuota] }
      (r.billed c.env.now next t.billingTargetQuota) := by
  obtain ⟨r', hr', hbill, hqt, hsame⟩ := hb.matched
  rw [htask, hr, Option.some.injEq] at hr'
  subst hr'
  obtain ⟨huser, hchan⟩ := hrow.copy hread htask hbill
  have htran := pendingTransition_cases hnext
  have haft : (r.billed c.env.now next t.billingTargetQuota).logged = t.billingTargetQuota := by
    rcases htran with ⟨-, rfl⟩ | ⟨-, ⟨rfl, -⟩ | rfl⟩ <;> rfl
  -- what the counters are moved by is what the bill grows by
  have hgrows : r.logged + (if (pendingPayload c t reason).isSome = true then t.billingDelta
      else 0) = t.billingTargetQuota := by
    unfold logged pendingPayload
    rw [hbill]
    rcases htran with ⟨hst, -⟩ | ⟨hst, -⟩
    · simp [hst, hsame]
    · simp [hst, hqt, billingDelta]
  have hstab : RowStable r (r.billed c.env.now next t.billingTargetQuota) := by
    refine ⟨rfl, fun _ => ?_, fun _ => rfl⟩
    simp only [Task.billed]
    rcases htran with ⟨-, rfl⟩ | ⟨-, ⟨rfl, -⟩ | rfl⟩ <;> simp
  refine ⟨hrow.id, hrow.seen_append hstab, fun u => ?_, fun c' => ?_, fun _ => htgt,
    fun href => ?_⟩
  · have hu := hrow.user u
    have hmv := hb.usage.user u
    rw [haft]
    rw [huser] at hmv
    simp only [book, Task.billed]
    by_cases hid : u = r.userId
    · simp only [hid, and_true, if_true] at hu hmv ⊢
      omega
    · simp only [hid, and_false, if_false] at hu hmv ⊢
      omega
  · have hc := hrow.channel c'
    have hmv := hb.usage.channel c'
    rw [haft]
    rw [hchan] at hmv
    simp only [book, Task.billed]
    by_cases hid : c' = r.channelId
    · simp only [hid, and_true, if_true] at hc hmv ⊢
      omega
    · simp only [hid, and_false, if_false] at hc hmv ⊢
      omega
  · simp only [Task.billed] at href
    exact pendingTransition_refunded (href ▸ hnext)

/-- Calls that move the quota. -/
theorem UsageInvariant.pay_step (h : UsageInvariant s) {reason : String}
    (hok : UsageFollows (.life (.applyPending c t reason)) s) :
    UsageInvariant (s.step (.life (.applyPending c t reason))) := by
  rcases applyPendingTaskBilling_cases c t reason s.life.world with
    ⟨hsame, -⟩ | ⟨next, w', hnext, hrefu, hb, happ⟩
  · have hwd : (s.life.step (.applyPending c t reason)).world = s.life.world := by
      simp only [step, hsame]
    exact h.life_step hok (fun _ => hwd) rfl (h.same_row (by rw [hwd]))
  have hwd : (s.life.step (.applyPending c t reason)).world = w' := by
    simp only [step, happ]
  by_cases htask : t.id = s.task
  · obtain ⟨r, hr, -⟩ := hb.matched
    rw [htask] at hr
    have hnew : w'.tasks s.task = some (r.billed c.env.now next t.billingTargetQuota) := by
      rw [hb.tasks, htask, Table.modify_self, hr]
      rfl
    refine h.some_step hok (by rw [hwd, hnew]) ?_
    simp only [UsageState.step, bills, consumption, htask, decide_true, if_true, List.append_nil,
      hwd, hnew, Option.toList_some]
    exact (h.row r hr).billed hok htask hr hnext (taskBillingRefusal_target hrefu) hb
  · refine h.life_step hok (by simp [bills, htask]) rfl ?_
    refine h.modify_row (j := t.id) (g := Task.billed c.env.now next t.billingTargetQuota) ?_
      fun hid => absurd hid htask
    rw [hwd]
    exact hb.tasks

theorem pendingLogs_erase {logs : List UsageLog} {n : ℕ} {l : UsageLog} (h : logs[n]? = some l)
    (counter : UsageCounter) (id : ℤ) :
    pendingLogs counter id logs = (if l.counter = counter ∧ l.id = id then l.quota else 0) +
      pendingLogs counter id (logs.eraseIdx n) := by
  obtain ⟨hn, rfl⟩ := List.getElem?_eq_some_iff.mp h
  have hperm := (List.getElem_cons_eraseIdx_perm hn).symm
  unfold pendingLogs
  rw [(hperm.map _).sum_eq]
  simp

/-- A log that lands moves its counter by its quota, and nothing else. -/
theorem UsageLog.exec_lands {l : UsageLog} (h : l.lands env w = true) :
    (∀ u, (l.exec env w).userUsed u =
        w.userUsed u + if l.counter = .user ∧ l.id = u then l.quota else 0) ∧
      (∀ c, (l.exec env w).channelUsed c =
        w.channelUsed c + if l.counter = .channel ∧ l.id = c then l.quota else 0) ∧
      l.exec env w = { w with users := (l.exec env w).users, channels := (l.exec env w).channels } := by
  simp only [UsageLog.lands, Bool.and_eq_true, Bool.not_eq_true'] at h
  obtain ⟨hcalm, hrow⟩ := h
  cases hl : l.counter with
  | user =>
    simp only [hl, Option.any_eq_true, Bool.not_eq_true'] at hrow
    obtain ⟨r, hr, hdel⟩ := hrow
    have hexec : l.exec env w =
        { w with users := w.users.modify l.id (User.addUsed l.quota) } := by
      have hmat := Table.updateWhere_of_match (p := fun r : User => !r.deleted) hr
        (by rw [hdel]; rfl) (User.addUsed l.quota)
      simp [UsageLog.exec, hl, updateUserUsedQuota, hcalm, hmat]
    rw [hexec]
    refine ⟨fun u => ?_, fun c => by simp [World.channelUsed], rfl⟩
    rw [userUsed_modify (w := w) (f := User.addUsed l.quota) (d := l.quota) (fun _ => rfl)
      (.inr ⟨r, hr⟩) rfl]
    simp [eq_comm]
  | channel =>
    simp only [hl, Option.isSome_iff_exists] at hrow
    obtain ⟨r, hr⟩ := hrow
    have hexec : l.exec env w =
        { w with channels := w.channels.modify l.id (Channel.addUsed l.quota) } := by
      have hmat := Table.updateWhere_of_match (p := fun _ : Channel => true) hr rfl
        (Channel.addUsed l.quota)
      simp [UsageLog.exec, hl, updateChannelUsedQuota, hcalm, hmat]
    rw [hexec]
    refine ⟨fun u => by simp [World.userUsed], fun c => ?_, rfl⟩
    rw [channelUsed_modify (w := w) (f := Channel.addUsed l.quota) (d := l.quota) (fun _ => rfl)
      ⟨r, hr⟩ rfl]
    simp [eq_comm]

/-- The lifecycle does not depend on the rows of users and channels. -/
theorem LifecycleInvariant.withRows (h : LifecycleInvariant life)
    (hw : w = { life.world with users := w.users, channels := w.channels }) :
    LifecycleInvariant { life with world := w } := by
  rw [hw]
  exact ⟨h.leases.of_eq rfl rfl rfl, h.tasksBelow, h.jobsBelow, h.fetches⟩

/-- A counter is raised by what was logged. -/
theorem UsageInvariant.log_step (h : UsageInvariant s) {n : ℕ} (hok : UsageFollows (.log n env) s) :
    UsageInvariant (s.step (.log n env)) := by
  rw [UsageState.step]
  cases hl : s.logs[n]? with
  | none => exact h
  | some l =>
    have hlands : l.lands env s.life.world = true := by simpa [UsageFollows, hl] using hok
    obtain ⟨huser, hchan, hwd⟩ := UsageLog.exec_lands hlands
    have htsk : (l.exec env s.life.world).tasks = s.life.world.tasks := by rw [hwd]
    refine ⟨h.life.withRows hwd, fun hnone => ?_, fun r hr => ?_, fun f hf => h.read f hf⟩
    · -- without a row there is nothing to log
      dsimp only [UsageState.withWorld, book] at hnone
      rw [htsk] at hnone
      rw [(h.absent hnone).2.1] at hl
      cases hl
    · dsimp only [UsageState.withWorld, book] at hr
      rw [htsk] at hr
      have hrow := h.row r hr
      refine ⟨hrow.id, hrow.seen, fun u => ?_, fun c => ?_, hrow.nonneg, hrow.refunded⟩
      · have hu := hrow.user u
        rw [pendingLogs_erase hl] at hu
        dsimp only [UsageState.withWorld, book]
        rw [huser u]
        omega
      · have hc := hrow.channel c
        rw [pendingLogs_erase hl] at hc
        dsimp only [UsageState.withWorld, book]
        rw [hchan c]
        omega

/-- Step lemma: what was counted for the task and what is left to log add up to its bill. -/
theorem UsageInvariant.step (call : UsageCall) (s : UsageState) (hok : UsageFollows call s)
    (h : UsageInvariant s) : UsageInvariant (s.step call) := by
  cases call with
  | life call =>
    by_cases hwr : ∃ k env t, call = .write k env t
    · obtain ⟨k, env, t, rfl⟩ := hwr
      exact h.write_step hok
    by_cases hpay : ∃ c t reason, call = .applyPending c t reason
    · obtain ⟨c, t, reason, rfl⟩ := hpay
      exact h.pay_step hok
    · exact h.quiet_step hok (fun k env t heq => hwr ⟨k, env, t, heq⟩)
        fun c t reason heq => hpay ⟨c, t, reason, heq⟩
  | log n env => exact h.log_step hok
  | interrupt =>
    have hsame : s.step .interrupt = s := by
      simp only [UsageState.step]
      rw [← hok]
    rw [hsame]
    exact h
  | outside users channels =>
    refine ⟨h.life.withRows rfl, h.absent, fun r hr => ?_, fun f hf => h.read f hf⟩
    have hrow := h.row r hr
    exact { hrow with }

end Steps

/-- Before the task is created. -/
theorem UsageInvariant.start {w : World} {task : ℤ} (hw : LifecycleInvariant ⟨w, [], []⟩)
    (hnew : w.tasks task = none) : UsageInvariant (.start w task) := by
  refine ⟨hw, fun _ => ⟨rfl, rfl, rfl, rfl⟩, fun r hr => ?_, fun f hf => absurd hf List.not_mem_nil⟩
  exact absurd (hnew.symm.trans hr) (by simp)

/-- In every run whose steps meet the conditions, a task in a final billing state whose
logs are made has added its quota to the counters of its user and channel, and nothing to
those of others; it is not negative, and zero once the task is refunded. -/
theorem usage_follows_charge (w : World) (task : ℤ) (calls : List UsageCall)
    (hw : LifecycleInvariant ⟨w, [], []⟩) (hnew : w.tasks task = none)
    (hok : Along UsageState.step UsageFollows calls (.start w task)) (r : Task)
    (hr : (run UsageState.step calls (.start w task)).life.world.tasks
      (run UsageState.step calls (.start w task)).task = some r)
    (hfinal : r.billingStatus = .settled ∨ r.billingStatus = .refunded)
    (hlogs : (run UsageState.step calls (.start w task)).logs = []) :
    (∀ u, (run UsageState.step calls (.start w task)).userUsage u =
        if u = r.userId then r.quota else 0) ∧
      (∀ c, (run UsageState.step calls (.start w task)).channelUsage c =
        if c = r.channelId then r.quota else 0) ∧
      0 ≤ r.quota ∧ (r.billingStatus = .refunded → r.quota = 0) := by
  have hinv : UsageInvariant (run UsageState.step calls (.start w task)) :=
    run_invariant UsageInvariant.step hok (.start hw hnew)
  have hrow := hinv.row r hr
  have hlog : r.logged = r.quota := by
    unfold logged
    rcases hfinal with hs | hs <;> rw [hs]
  refine ⟨fun u => ?_, fun c => ?_, hrow.nonneg hfinal, hrow.refunded⟩
  · have hu := hrow.user u
    rwa [hlogs, hlog, pendingLogs, List.map_nil, List.sum_nil, add_zero] at hu
  · have hc := hrow.channel c
    rwa [hlogs, hlog, pendingLogs, List.map_nil, List.sum_nil, add_zero] at hc

/-- A request that has pre-consumed 3, and its row. -/
def paidRequest : SubmissionState :=
  { SubmissionState.start walletInfo "task_1" sampleShop with
    billing := some { BillingSession.new walletInfo (.wallet ⟨1, 3⟩) with preConsumedQuota := 3 } }

def paidAttempt : Attempt := sampleAttempt (paidPrice 3) true

def submittedRow : Task := paidRequest.initTask paidAttempt 1

def acceptedRow : Task := submittedRow.completed walletInfo true ⟨"u1", "", "video", 3⟩ paidAttempt

/-- The submission is accepted at what was pre-consumed; later the task times out. -/
def acceptedThenSwept : List UsageCall :=
  [.life (.submit paidRequest paidAttempt),
    .life (.write (.complete walletInfo true ⟨"u1", "", "video", 3⟩ paidAttempt) (.calm 2)
      submittedRow),
    .log 0 (.calm 2), .log 0 (.calm 2), .life (.applyPending .calm acceptedRow ""),
    .life (.write (.sweep 9 "timeout" "legacy") (.calm 9)
      { acceptedRow with billingStatus := .pending }),
    .life (.applyPending .calm
      ({ acceptedRow with billingStatus := .pending }.failedWithRefund 9 "timeout" "") "")]

theorem usage_follows_charge_sample :
    ∃ r, (run UsageState.step acceptedThenSwept (.start sampleShop 1)).life.world.tasks 1 = some r ∧
      r.billingStatus = .refunded ∧
      (run UsageState.step acceptedThenSwept (.start sampleShop 1)).userUsage r.userId = 0 := by
  have hrow : ((run UsageState.step acceptedThenSwept (.start sampleShop 1)).life.world.tasks 1).map
      billingStatus = some .refunded := by decide
  obtain ⟨r, hr, href⟩ := Option.map_eq_some_iff.mp hrow
  have hst : LifecycleInvariant ⟨sampleShop, [], []⟩ :=
    .start (.start (fun _ => rfl) fun _ => rfl) (fun k t ht => by cases ht) fun k id hk => by cases hk
  obtain ⟨huser, -, -, hzero⟩ := usage_follows_charge sampleShop 1 acceptedThenSwept hst rfl
    (by decide) r hr (.inr href) (by decide)
  refine ⟨r, hr, href, ?_⟩
  rw [huser, if_pos rfl, hzero href]

/-- The upstream rejects the submission: its refund lowers both counters by what was never
counted. -/
def rejectedSubmission : List UsageCall :=
  [.life (.submit paidRequest paidAttempt),
    .life (.write (.fail "rejected" none) (.calm 2) submittedRow),
    .life (.applyPending .calm (submittedRow.failedWithRefund 2 "rejected" "") "")]

theorem rejected_submission_lowers_counters :
    let s := run UsageState.step rejectedSubmission (.start sampleShop 1)
    (s.life.world.tasks 1).map (fun t => (t.billingStatus, t.quota)) = some (.refunded, 0) ∧
      s.logs = [] ∧ s.userUsage 1 = -3 ∧ s.channelUsage 2 = -3 ∧
      s.life.world.userUsed 1 = sampleShop.userUsed 1 - 3 := by
  decide

end NewApi
