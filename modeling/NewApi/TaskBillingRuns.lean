import NewApi.TaskLifecycle

/-!
# Exactly-once billing of a task

Any number of callers hold copies of a task, as stale as may be, and start billing steps
from them; in between, submissions, the poller, realtime fetches, sweeps and media workers
write the row, retries are scheduled, and events are delivered. Each step is one
transaction and may abort.
-/
namespace NewApi

inductive TaskCall where
  | applyBilling (env : Env) (t : Task) (expected next : TaskBillingStatus)
      (payload : Option TaskBillingEventPayload)
  | life (call : LifecycleCall)
  | eventDelivered (env : Env) (eventID : String)
  | eventRetry (env : Env) (eventID : String) (nextRetryAt : ℤ) (lastError : String)

namespace TaskCall

def step : TaskCall → LifecycleState → LifecycleState
  | applyBilling env t expected next payload, s =>
    { s with world := (applyTaskBilling env t expected next payload s.world).2 }
  | life call, s => s.step call
  | eventDelivered env eventID, s =>
    { s with world := (markTaskBillingEventDelivered env eventID s.world).2 }
  | eventRetry env eventID nextRetryAt lastError, s =>
    { s with world := (scheduleTaskBillingEventRetry env eventID nextRetryAt lastError s.world).2 }

/-- The task and the phase in which the call reports to have applied. -/
def appliedTo : TaskCall → LifecycleState → Option (ℤ × TaskBillingStatus)
  | applyBilling env t expected next payload, s =>
    match (applyTaskBilling env t expected next payload s.world).1 with
    | .ok r => if r.applied then some (t.id, expected) else none
    | .error _ => none
  | life (.applyPending c t reason), s =>
    match (applyPendingTaskBilling c t reason s.world).1 with
    | .ok true => some (t.id, t.billingStatus)
    | _ => none
  | _, _ => none

/-- The billing calls, as opposed to what happens between them. -/
def isBilling : TaskCall → Bool
  | applyBilling .. => true
  | life (.applyPending ..) => true
  | _ => false

end TaskCall

/-- One for a call that applied to the task in the phase. -/
def appliedIn (id : ℤ) (phase : TaskBillingStatus) (call : TaskCall) (s : LifecycleState) : ℤ :=
  if call.appliedTo s = some (id, phase) then 1 else 0

/-- The place of a billing status in the course of a task. -/
def TaskBillingStatus.rank : TaskBillingStatus → ℕ
  | legacy => 0
  | submitting => 0
  | submitPending => 1
  | pending => 2
  | finalizePending => 3
  | settled => 4
  | refunded => 4

/-- The status stays or goes forward; from one of the last it may go back to the final
billing, which is prepared whenever a task ends. -/
def TaskBillingStatus.Advances (s s' : TaskBillingStatus) : Prop :=
  s' = s ∨ s.rank < s'.rank ∨ s.rank = 4 ∧ s' = .finalizePending

theorem TaskBillingStatus.Advances.finalize (s : TaskBillingStatus) :
    s.Advances .finalizePending := by
  cases s <;> simp [Advances, rank]

def World.billingAt (w : World) (id : ℤ) : Option TaskBillingStatus :=
  (w.tasks id).map Task.billingStatus

open World

def World.billingRank (w : World) (id : ℤ) : ℕ := (w.billingAt id).elim 0 TaskBillingStatus.rank

def World.taskQuota (w : World) (id : ℤ) : ℤ := (w.tasks id).elim 0 Task.quota

def World.eventDeltas (w : World) (id : ℤ) : List ℤ :=
  (w.events.filter fun e => e.taskRecordID == id).map TaskBillingEvent.delta

/-- A direct billing call names a later status than the one it expects, as its only caller
does. -/
def Forward (id : ℤ) : TaskCall → LifecycleState → Prop
  | .applyBilling _ t expected next _, _ => t.id = id → expected.rank < next.rank
  | _, _ => True

instance Forward.decidable (id : ℤ) (call s) : Decidable (Forward id call s) := by
  induction call using TaskCall.casesOn <;> dsimp only [Forward] <;> infer_instance

/-- The billing status of the row advances, if there is one. -/
def BillAdvances (id : ℤ) (w w' : World) : Prop :=
  ∀ x, w.billingAt id = some x → ∃ y, w'.billingAt id = some y ∧ x.Advances y

section Rows
variable {w w' : World} {id k : ℤ}

theorem BillAdvances.of_eq (h : w'.billingAt id = w.billingAt id) : BillAdvances id w w' :=
  fun x hx => ⟨x, h.trans hx, .inl rfl⟩

theorem BillAdvances.rank_le (h : BillAdvances id w w') :
    min 3 (w.billingRank id) ≤ min 3 (w'.billingRank id) := by
  unfold billingRank
  cases hx : w.billingAt id with
  | none => exact Nat.zero_le _
  | some x =>
    obtain ⟨y, hy, hadv⟩ := h x hx
    rw [hy]
    simp only [Option.elim_some]
    rcases hadv with rfl | hlt | ⟨-, rfl⟩
    · exact le_rfl
    · omega
    · exact Nat.min_le_left 3 _

theorem BillAdvances.put {t : Task} (htsk : w'.tasks = w.tasks.put k t)
    (hok : ∀ r, w.tasks k = some r → k = id → r.billingStatus.Advances t.billingStatus) :
    BillAdvances id w w' := by
  intro x hx
  unfold World.billingAt at hx ⊢
  obtain ⟨r, hr, rfl⟩ := Option.map_eq_some_iff.mp hx
  rw [htsk, Table.put_apply]
  split_ifs with hid
  · exact ⟨t.billingStatus, rfl, hok r (hid ▸ hr) hid.symm⟩
  · exact ⟨r.billingStatus, by rw [hr]; rfl, .inl rfl⟩

theorem BillAdvances.modify {g : Task → Task} (htsk : w'.tasks = w.tasks.modify k g)
    (hok : ∀ r, w.tasks k = some r → k = id → r.billingStatus.Advances (g r).billingStatus) :
    BillAdvances id w w' := by
  intro x hx
  unfold World.billingAt at hx ⊢
  obtain ⟨r, hr, rfl⟩ := Option.map_eq_some_iff.mp hx
  rw [htsk, Table.modify_apply]
  split_ifs with hid
  · subst hid
    exact ⟨(g r).billingStatus, by rw [hr]; rfl, hok r hr rfl⟩
  · exact ⟨r.billingStatus, by rw [hr]; rfl, .inl rfl⟩

end Rows

variable {t : Task}

/-- What a writer makes of a task is further in its billing. -/
theorem TaskWrite.result_advances (k : TaskWrite) (now : ℤ) (htk : k.takes t = true) :
    t.billingStatus.Advances (k.result now t).billingStatus := by
  cases k with
  | complete info billed r a =>
    have hs : t.billingStatus = .submitting := of_decide_eq_true htk
    rw [hs]
    cases billed with
    | false => exact .inr (.inl (Nat.zero_lt_succ 3))
    | true => exact .inr (.inl Nat.zero_lt_one)
  | fail reason upstreamError | recover cutoff reason | abandon reason => exact .finalize _
  | sweep cutoff reason legacyReason =>
    simp only [TaskWrite.result, Task.timedOut]
    split_ifs
    · exact .inl rfl
    · exact .finalize _
  | v6kRetry delay => exact .inl rfl

/-- What a fetch writes at its end is further in its billing than the copy it read. -/
theorem Fetch.final_advances {f : Fetch} (hkept : f.Kept) (hst : f.stage = .writing t) :
    f.read.billingStatus.Advances (f.final t).billingStatus := by
  rcases f.final_eq t with ⟨-, heq⟩ | ⟨-, target, heq⟩
  · rw [heq]
    exact .inl (hkept.writing hst).2.billing
  · rw [heq]
    exact .finalize _

/-- A call bills a copy of a task, or moves no money, adds no event and takes no task back. -/
inductive TaskEffect (call : TaskCall) (s : LifecycleState) : World → Prop
  | quiet {w' : World} (happ : call.appliedTo s = none)
      (hidle : call.isBilling = true → w' = s.world)
      (hevents : ∀ id, w'.eventDeltas id = s.world.eventDeltas id)
      (hstill : Moved s.world w' 0)
      (hrows : ∀ id, BillAdvances id s.world w') : TaskEffect call s w'
  | billed {env : Env} {t : Task} {expected next : TaskBillingStatus}
      {payload : Option TaskBillingEventPayload} {w' : World}
      (happ : call.appliedTo s = some (t.id, expected))
      (hfor : ∀ id, Forward id call s → t.id = id → expected.rank < next.rank)
      (href : taskBillingRefusal t expected next payload = none)
      (hb : Billed env t expected next payload s.world w') : TaskEffect call s w'

variable {next : TaskBillingStatus}

theorem pendingTransition_rank
    (h : pendingTransition t = some next) : t.billingStatus.rank < next.rank := by
  rcases pendingTransition_cases h with ⟨hs, rfl⟩ | ⟨hs, ⟨rfl, -⟩ | rfl⟩ <;> rw [hs] <;> decide

section Effect
variable {call : TaskCall} {s : LifecycleState}

theorem TaskEffect.unchanged (happ : call.appliedTo s = none) : TaskEffect call s s.world :=
  .quiet happ (fun _ => rfl) (fun _ => rfl) (Moved.refl s.world) fun _ => .of_eq rfl

variable {life : LifecycleCall}

/-- Calls that are not billing write rows only. -/
theorem TaskEffect.rows (hnot : (TaskCall.life life).isBilling = false)
    {w' : World} (hev : w'.events = s.world.events) (hst : Moved s.world w' 0)
    (hrows : ∀ id, BillAdvances id s.world w') : TaskEffect (.life life) s w' := by
  have happ : (TaskCall.life life).appliedTo s = none := by
    cases life with
    | applyPending => cases hnot
    | _ => rfl
  refine .quiet happ (fun hbill => ?_) (fun id => ?_) hst hrows
  · rw [hnot] at hbill
    cases hbill
  · rw [eventDeltas, hev, eventDeltas]

theorem LifecycleEffect.quiet {l : LeaseState}
    (heff : LifecycleEffect life s l) (hs : LifecycleInvariant s)
    (hnot : (TaskCall.life life).isBilling = false) : TaskEffect (.life life) s l.world := by
  have hsame : ∀ type id, s.world.reconciled type id = s.world.reconciled type id + 0 :=
    fun _ _ => (add_zero _).symm
  cases heff with
  | unchanged => exact .rows hnot rfl (Moved.refl _) fun _ => .of_eq rfl
  | submitted hid hbill hsta hmed =>
    refine .rows hnot rfl hsame fun id => .put rfl fun r hr _ => ?_
    -- the number of the new row is new
    have hlt := hs.tasksBelow _ r hr
    omega
  | written hcall htk hr hg =>
    rename_i k env t r
    refine .rows hnot rfl hsame fun id => .put rfl fun q hq _ => ?_
    rw [hr] at hq
    cases hq
    rw [(guards_snapshot hg).2.1]
    exact k.result_advances env.now htk
  | finished hcall hf hst hr hg =>
    rename_i n env f t r
    refine .rows hnot rfl hsame fun id => .put rfl fun q hq _ => ?_
    rw [hr] at hq
    cases hq
    rw [(guards_snapshot hg).2.1]
    exact Fetch.final_advances (hs.fetches f (List.mem_of_getElem? hf)) hst
  | enqueued hcall hf hst hr hprev hnone =>
    rename_i n env ready input f t previous r
    obtain ⟨-, -, hprep, -⟩ := (hs.fetches f (List.mem_of_getElem? hf)).enqueuing hst
    refine .rows hnot rfl hsame fun id => .modify rfl fun q _ _ => ?_
    show q.billingStatus.Advances t.billingStatus
    rw [hprep]
    exact .finalize _
  | billed hcall =>
    subst hcall
    cases hnot
  | rescheduled =>
    exact .rows hnot rfl hsame fun _ =>
      .modify (g := Task.retryScheduled _ _ _) rfl fun _ _ _ => .inl rfl
  | transferred hmed heff =>
    obtain ⟨-, -, k, g, hkept, htsk⟩ := heff.inPlace hmed
    have hev : l.world.events = s.world.events := by cases heff <;> rfl
    have hstill : Moved s.world l.world 0 := by cases heff <;> exact hsame
    exact .rows hnot hev hstill fun _ => .modify htsk fun r _ _ => .inl (hkept r).billing

variable {f : TaskBillingEvent → TaskBillingEvent}

theorem eventDeltas_updatePendingEvent (w : World) (id : ℤ) (eventID : String)
    (hf : ∀ e, (f e).taskRecordID = e.taskRecordID ∧ (f e).delta = e.delta) :
    ({ w with events := updatePendingEvent eventID f w.events } : World).eventDeltas id =
      w.eventDeltas id := by
  unfold eventDeltas updatePendingEvent
  induction w.events with
  | nil => rfl
  | cons e es ih =>
    have hkeep : ∀ g : TaskBillingEvent, g.taskRecordID = e.taskRecordID → g.delta = e.delta →
        ((g :: es.map fun e => if e.eventID = eventID ∧ e.status = .pending then f e
          else e).filter fun e => e.taskRecordID == id).map TaskBillingEvent.delta =
        ((e :: es).filter fun e => e.taskRecordID == id).map TaskBillingEvent.delta := by
      intro g hg hd
      by_cases hid : e.taskRecordID = id
      · simp [hg, hd, hid, ih]
      · simp [hg, hid, ih]
    rw [List.map_cons]
    split_ifs
    · exact hkeep (f e) (hf e).1 (hf e).2
    · exact hkeep e rfl rfl

theorem TaskEffect.delivered (happ : call.appliedTo s = none) (hnot : call.isBilling = false)
    (eventID : String)
    (hf : ∀ e, (f e).taskRecordID = e.taskRecordID ∧ (f e).delta = e.delta) :
    TaskEffect call s { s.world with events := updatePendingEvent eventID f s.world.events } := by
  refine .quiet happ (fun hbill => ?_)
    (fun id => eventDeltas_updatePendingEvent s.world id eventID hf)
    (fun _ _ => (add_zero _).symm) fun _ => .of_eq rfl
  rw [hnot] at hbill
  cases hbill

theorem TaskCall.effect (call : TaskCall) (hs : LifecycleInvariant s) :
    TaskEffect call s (call.step s).world := by
  cases call with
  | applyBilling env t expected next payload =>
    rcases applyTaskBilling_cases env t expected next payload s.world with
      ⟨hsame, hnot⟩ | ⟨href, id, w', happ, -, hb⟩
    · have happ : (TaskCall.applyBilling env t expected next payload).appliedTo s = none := by
        simp only [appliedTo]
        split
        · rename_i r hr
          simp [hnot r hr]
        · rfl
      rw [step, hsame]
      exact .unchanged happ
    · rw [step, happ]
      exact .billed (by simp [appliedTo, happ]) (fun id h ht => h ht) href hb
  | life life =>
    have heff := life.effect s
    cases life with
    | applyPending c t reason =>
      rcases applyPendingTaskBilling_cases c t reason s.world with
        ⟨hsame, hnot⟩ | ⟨next, w', hnext, href, hb, happ⟩
      · have happ : (TaskCall.life (.applyPending c t reason)).appliedTo s = none := by
          simp only [appliedTo]
        rw [step, LifecycleState.step, hsame]
        exact .unchanged happ
      · rw [step, LifecycleState.step, happ]
        exact .billed (by simp [appliedTo, happ]) (fun _ _ _ => pendingTransition_rank hnext)
          href hb
    | _ => exact heff.quiet hs rfl
  | eventDelivered env eventID =>
    rw [step, markTaskBillingEventDelivered]
    split_ifs
    · exact .unchanged rfl
    · exact .unchanged rfl
    · exact .delivered rfl rfl eventID fun _ => ⟨rfl, rfl⟩
    · exact .unchanged rfl
    · exact .unchanged rfl
    · exact .unchanged rfl
  | eventRetry env eventID nextRetryAt lastError =>
    rw [step, scheduleTaskBillingEventRetry]
    split_ifs
    · exact .unchanged rfl
    · exact .unchanged rfl
    · exact .delivered rfl rfl eventID fun _ => ⟨rfl, rfl⟩
    · exact .unchanged rfl

theorem LifecycleInvariant.taskCall (hs : LifecycleInvariant s) (call : TaskCall) :
    LifecycleInvariant (call.step s) := by
  have hev : ∀ es, LifecycleInvariant { s with world := { s.world with events := es } } :=
    fun _ => ⟨hs.leases.of_eq rfl rfl rfl, hs.tasksBelow, hs.jobsBelow, hs.fetches⟩
  cases call with
  | applyBilling env t expected next payload =>
    rcases applyTaskBilling_cases env t expected next payload s.world with
      ⟨hsame, -⟩ | ⟨-, id, w', happ, -, hb⟩
    · rw [TaskCall.step, hsame]
      exact hs
    · rw [TaskCall.step, happ]
      exact hs.billed hb
  | life life => exact hs.step life s
  | eventDelivered env eventID =>
    rw [TaskCall.step, markTaskBillingEventDelivered]
    split_ifs
    all_goals first | exact hs | exact hev _
  | eventRetry env eventID nextRetryAt lastError =>
    rw [TaskCall.step, scheduleTaskBillingEventRetry]
    split_ifs
    all_goals first | exact hs | exact hev _

end Effect

variable {env : Env} {payload : Option TaskBillingEventPayload}

section
variable {phase : TaskBillingStatus} {w w' : World} (hb : Billed env t phase next payload w w')
include hb

theorem Billed.billingAt (id : ℤ) :
    w'.billingAt id = if id = t.id then some next else w.billingAt id := by
  obtain ⟨r, hr, -⟩ := hb.matched
  rw [World.billingAt, hb.tasks, Table.modify_apply]
  split_ifs
  · simp [hr, Task.billed]
  · rfl

theorem Billed.expected : w.billingAt t.id = some phase := by
  obtain ⟨r, hr, hs, -⟩ := hb.matched
  simp [World.billingAt, hr, hs]

/-- The delta of a billed copy is the difference it made to the persisted quota. -/
theorem Billed.billingDelta : t.billingDelta = w'.taskQuota t.id - w.taskQuota t.id := by
  obtain ⟨r, hr, -, hq, -⟩ := hb.matched
  simp [taskQuota, hb.tasks, hr, Task.billed, Task.billingDelta, hq]

end

/-- The payload of a call that was not refused comes with the final phase only. -/
theorem payload_of_refusal_none {expected : TaskBillingStatus}
    (h : taskBillingRefusal t expected next payload = none) :
    payload ≠ none ↔ expected = .finalizePending := by
  unfold taskBillingRefusal at h
  split_ifs at h with h₁ h₂ h₃ h₄ h₅ h₆
  by_cases hfin : expected = .finalizePending
  · simp only [hfin, true_and] at h₅
    simp [hfin, h₅]
  · simp only [hfin, not_false_eq_true, ne_eq, true_and, not_not] at h₆
    simp [hfin, h₆]

section Steps
variable {id : ℤ} {call : TaskCall} {s : LifecycleState}

/-- No call takes the accounting back. -/
theorem step_advances (hs : LifecycleInvariant s) (hok : Forward id call s) :
    BillAdvances id s.world (call.step s).world := by
  have heff := call.effect hs
  generalize (call.step s).world = w' at heff ⊢
  cases heff with
  | quiet happ hidle hev hst hrows => exact hrows id
  | billed happ hfor href hb =>
    rename_i env t expected next payload
    intro x hx
    rw [hb.billingAt id]
    split_ifs with hid
    · subst hid
      rw [hb.expected] at hx
      cases hx
      exact ⟨next, rfl, .inr (.inl (hfor t.id hok rfl))⟩
    · exact ⟨x, hx, .inl rfl⟩

theorem TaskBillingStatus.rank_le (s : TaskBillingStatus) : s.rank ≤ 4 := by
  cases s <;> decide

/-- One of the last states stays, or the final billing is prepared again by a call that does
not bill. -/
theorem step_final {x : TaskBillingStatus} (hfin : x.rank = 4) (hs : LifecycleInvariant s)
    (hok : Forward id call s) (hx : s.world.billingAt id = some x) :
    (call.step s).world.billingAt id = some x ∨
      call.isBilling = false ∧ (call.step s).world.billingAt id = some .finalizePending := by
  have heff := call.effect hs
  generalize (call.step s).world = w' at heff ⊢
  cases heff with
  | quiet happ hidle hev hst hrows =>
    obtain ⟨y, hy, rfl | hlt | ⟨-, rfl⟩⟩ := hrows id x hx
    · exact .inl hy
    · have hle := y.rank_le
      omega
    · cases hbill : call.isBilling with
      | false => exact .inr ⟨rfl, hy⟩
      | true => exact .inl (hidle hbill ▸ hx)
  | billed happ hfor href hb =>
    rename_i env t expected next payload
    left
    rw [hb.billingAt id]
    split_ifs with hid
    · -- nothing comes after one of the last states
      subst hid
      rw [hb.expected] at hx
      cases hx
      have hlt := hfor t.id hok rfl
      have hle := next.rank_le
      omega
    · exact hx

variable {phase : TaskBillingStatus}

section
variable (hs : LifecycleInvariant s)
include hs

theorem billed_of_applied (happ : call.appliedTo s = some (id, phase)) :
    ∃ env t next payload, t.id = id ∧ (Forward id call s → phase.rank < next.rank) ∧
      Billed env t phase next payload s.world (call.step s).world := by
  have heff := call.effect hs
  generalize (call.step s).world = w' at heff ⊢
  cases heff with
  | quiet hnone =>
    rw [hnone] at happ
    cases happ
  | billed happ' hfor href hb =>
    rename_i env t expected next payload
    rw [happ'] at happ
    cases happ
    exact ⟨env, t, next, payload, rfl, fun hok => hfor t.id hok rfl, hb⟩

/-- An applied call moves exactly what the row's quota changes by. -/
theorem step_moved (happ : call.appliedTo s = some (id, phase)) : ∃ t : Task, t.id = id ∧
      t.billingDelta = (call.step s).world.taskQuota id - s.world.taskQuota id ∧
      Moved s.world (call.step s).world t.billingMove := by
  obtain ⟨env, t, next, payload, rfl, -, hb⟩ := billed_of_applied hs happ
  exact ⟨t, rfl, hb.billingDelta, hb.moved⟩

/-- A call that did not apply moved nothing, and changed nothing if it was a billing call. -/
theorem step_not_applied (happ : call.appliedTo s = none) :
    Moved s.world (call.step s).world 0 ∧ (call.isBilling = true → call.step s = s) := by
  have heff := call.effect hs
  have hwd : call.isBilling = true → (call.step s).world = s.world → call.step s = s := by
    intro hbill hsame
    cases call with
    | applyBilling => exact congrArg (fun w => { s with world := w }) hsame
    | life life =>
      cases life with
      | applyPending => exact congrArg (fun w => { s with world := w }) hsame
      | _ => cases hbill
    | eventDelivered | eventRetry => cases hbill
  generalize (call.step s).world = w' at heff hwd ⊢
  cases heff with
  | quiet _ hidle _ hst => exact ⟨hst, fun hbill => hwd hbill (hidle hbill)⟩
  | billed happ' =>
    rw [happ'] at happ
    cases happ

end

/-- One if the task is past its submission. -/
def World.accepted (id : ℤ) (w : World) : ℤ := if 1 < w.billingRank id then 1 else 0

/-- The first phase is applied once. -/
theorem step_accepted (hs : LifecycleInvariant s) (hok : Forward id call s) :
    appliedIn id .submitPending call s + s.world.accepted id ≤
      (call.step s).world.accepted id := by
  by_cases happ : call.appliedTo s = some (id, .submitPending)
  · obtain ⟨env, t, next, payload, rfl, hlt, hb⟩ := billed_of_applied hs happ
    have hbef : s.world.billingRank t.id = 1 := by
      simp [billingRank, hb.expected, TaskBillingStatus.rank]
    have haft : (call.step s).world.billingRank t.id = next.rank := by
      simp [billingRank, hb.billingAt]
    have hgt : 1 < next.rank := hlt hok
    simp [appliedIn, accepted, happ, hbef, haft, hgt]
  · have hrank := (step_advances hs hok).rank_le
    unfold appliedIn accepted
    split_ifs <;> omega

/-- The events of the task stay, unless the call applied in the final phase: then they
were none, and are one. -/
theorem step_eventDeltas (id : ℤ) (call : TaskCall) (hs : LifecycleInvariant s) :
    (call.step s).world.eventDeltas id = s.world.eventDeltas id ∧
        call.appliedTo s ≠ some (id, .finalizePending) ∨
      s.world.eventDeltas id = [] ∧ (call.step s).world.eventDeltas id =
        [(call.step s).world.taskQuota id - s.world.taskQuota id] := by
  have heff := call.effect hs
  generalize (call.step s).world = w' at heff ⊢
  cases heff with
  | quiet hnone _ hev => exact .inl ⟨hev id, by simp [hnone]⟩
  | billed happ hfor href hb =>
    rename_i env t expected next payload
    have hev : w'.eventDeltas id = s.world.eventDeltas id ++
        (((payload.map (t.finalEvent env.now)).toList.filter fun e => e.taskRecordID == id).map
          TaskBillingEvent.delta) := by
      simp [eventDeltas, hb.events]
    cases payload with
    | none =>
      have hph : ¬ expected = .finalizePending := by
        rw [← payload_of_refusal_none href]
        simp
      exact .inl ⟨by simp [hev], by simp [happ, hph]⟩
    | some p =>
      by_cases hid : t.id = id
      · subst hid
        right
        have hnone : s.world.eventDeltas t.id = [] := by
          simp only [eventDeltas, List.map_eq_nil_iff, List.filter_eq_nil_iff]
          intro e he
          simpa using (hb.first (by simp) e he).2
        refine ⟨hnone, ?_⟩
        rw [hev, hnone, ← hb.billingDelta]
        simp [Task.finalEvent]
      · refine .inl ⟨?_, by simp [happ, hid]⟩
        rw [hev]
        simp [Task.finalEvent, hid]

/-- One if the task has an event. -/
def World.finalised (id : ℤ) (w : World) : ℤ := if w.eventDeltas id = [] then 0 else 1

/-- The last phase is applied once. -/
theorem step_finalised (hs : LifecycleInvariant s) :
    appliedIn id .finalizePending call s + s.world.finalised id ≤
      (call.step s).world.finalised id := by
  unfold appliedIn finalised
  rcases step_eventDeltas id call hs with ⟨hsame, hnot⟩ | ⟨hnone, hone⟩
  · rw [hsame, if_neg hnot, zero_add]
  · rw [hnone, hone, if_pos rfl, if_neg (List.cons_ne_nil _ _)]
    split_ifs <;> omega

end Steps

/-- What exactly-once billing of a task means over a run from `s`. -/
structure BilledExactlyOnce (id : ℤ) (calls : List TaskCall) (s : LifecycleState) : Prop where
  /-- Each phase applies at most once. -/
  submission : total TaskCall.step (appliedIn id .submitPending) calls s ≤ 1
  finalization : total TaskCall.step (appliedIn id .finalizePending) calls s ≤ 1
  /-- A call that does not apply moves nobody's money, and a billing call changes nothing. -/
  idle : ∀ pre call post, calls = pre ++ call :: post →
    call.appliedTo (run TaskCall.step pre s) = none →
    Moved (run TaskCall.step pre s).world (run TaskCall.step (pre ++ [call]) s).world 0 ∧
      (call.isBilling = true → run TaskCall.step (pre ++ [call]) s = run TaskCall.step pre s)
  /-- A call that applies moves what it adds to the persisted quota, and nothing else. -/
  moved : ∀ pre call post phase, calls = pre ++ call :: post →
    call.appliedTo (run TaskCall.step pre s) = some (id, phase) →
    ∃ t : Task, t.id = id ∧
      t.billingDelta = (run TaskCall.step (pre ++ [call]) s).world.taskQuota id -
        (run TaskCall.step pre s).world.taskQuota id ∧
      Moved (run TaskCall.step pre s).world (run TaskCall.step (pre ++ [call]) s).world
        t.billingMove
  /-- The persisted billing states only move forward up to the final billing. -/
  forward : ∀ pre post, calls = pre ++ post →
    min 3 ((run TaskCall.step pre s).world.billingRank id) ≤
      (run TaskCall.step calls s).world.billingRank id
  /-- One of the last states stays, unless a call that does not bill ends the task once more:
  then its final billing is prepared again. -/
  final : ∀ pre call post x, calls = pre ++ call :: post → x = .settled ∨ x = .refunded →
    (run TaskCall.step pre s).world.billingAt id = some x →
    (run TaskCall.step (pre ++ [call]) s).world.billingAt id = some x ∨ call.isBilling = false ∧
      (run TaskCall.step (pre ++ [call]) s).world.billingAt id = some .finalizePending
  /-- A finalised task has one event, with the delta of its finalisation. -/
  event : ∀ pre call post, calls = pre ++ call :: post →
    call.appliedTo (run TaskCall.step pre s) = some (id, .finalizePending) →
    ∃ e, ((run TaskCall.step calls s).world.events.filter fun e => e.taskRecordID == id) = [e] ∧
      e.delta = (run TaskCall.step (pre ++ [call]) s).world.taskQuota id -
        (run TaskCall.step pre s).world.taskQuota id

section Runs
variable {id : ℤ} {calls : List TaskCall} {s : LifecycleState}

theorem LifecycleInvariant.taskRun (hs : LifecycleInvariant s) (calls : List TaskCall) :
    LifecycleInvariant (run TaskCall.step calls s) :=
  run_invariant_always (fun call _ h => h.taskCall call) calls hs

theorem total_submitted_le (hs : LifecycleInvariant s)
    (hok : Along TaskCall.step (Forward id) calls s) :
    total TaskCall.step (appliedIn id .submitPending) calls s ≤ 1 := by
  have hboth := hok.and_invariant (I := LifecycleInvariant) (fun call _ _ h => h.taskCall call) hs
  have hle : total TaskCall.step (appliedIn id .submitPending) calls s + s.world.accepted id ≤
      (run TaskCall.step calls s).world.accepted id :=
    run_total_le (q := fun s => s.world.accepted id) (fun _ _ h => step_accepted h.2 h.1) hboth
  unfold accepted at hle
  split_ifs at hle <;> omega

/-- What finalises the task makes its first event. -/
theorem total_finalised_le (id : ℤ) (calls : List TaskCall) (hs : LifecycleInvariant s) :
    total TaskCall.step (appliedIn id .finalizePending) calls s + s.world.finalised id ≤ 1 := by
  induction calls generalizing s with
  | nil =>
    unfold total finalised
    split_ifs <;> omega
  | cons call calls ih =>
    have hhead : appliedIn id .finalizePending call s + s.world.finalised id ≤
      (call.step s).world.finalised id := step_finalised hs
    have htail := ih (hs.taskCall call)
    rw [total]
    omega

/-- The event of a task stays as it was written. -/
theorem run_eventDeltas {d : ℤ} (calls : List TaskCall) (hs : LifecycleInvariant s)
    (h : s.world.eventDeltas id = [d]) :
    (run TaskCall.step calls s).world.eventDeltas id = [d] := by
  refine (run_invariant_always (I := fun s : LifecycleState =>
    LifecycleInvariant s ∧ s.world.eventDeltas id = [d]) ?_ calls ⟨hs, h⟩).2
  rintro call v ⟨hinv, hv⟩
  refine ⟨hinv.taskCall call, ?_⟩
  rcases step_eventDeltas id call hinv with ⟨hsame, -⟩ | ⟨hnone, -⟩
  · rw [hsame, hv]
  · rw [hnone] at hv
    cases hv

end Runs

/-- In every run of billing calls on any copies of a task, with the other writers of its row,
retries and deliveries in between and any transaction aborting, the task is billed exactly
once. -/
theorem taskBilling_exactly_once (id : ℤ) (calls : List TaskCall) (s : LifecycleState)
    (hs : LifecycleInvariant s) (hok : Along TaskCall.step (Forward id) calls s) :
    BilledExactlyOnce id calls s where
  submission := total_submitted_le hs hok
  finalization := by
    have hle := total_finalised_le id calls hs
    unfold finalised at hle
    split_ifs at hle <;> omega
  idle pre call post _ hnone := by
    rw [run_append, run_cons, run_nil]
    exact step_not_applied (hs.taskRun pre) hnone
  moved pre call post phase _ happ := by
    rw [run_append, run_cons, run_nil]
    exact step_moved (hs.taskRun pre) happ
  forward pre post hcs := by
    subst hcs
    rw [run_append]
    have hpost := (along_append.mp hok).2
    have hmin := (run_invariant (I := fun v : LifecycleState => LifecycleInvariant v ∧
        min 3 ((run TaskCall.step pre s).world.billingRank id) ≤ min 3 (v.world.billingRank id))
      (fun call v h hv => ⟨hv.1.taskCall call, hv.2.trans (step_advances hv.1 h).rank_le⟩)
      hpost ⟨hs.taskRun pre, le_rfl⟩).2
    exact hmin.trans (Nat.min_le_right 3 _)
  final pre call post x hcs hfin hx := by
    subst hcs
    rw [run_append, run_cons, run_nil]
    have h4 : x.rank = 4 := by rcases hfin with rfl | rfl <;> rfl
    exact step_final h4 (hs.taskRun pre) (along_append.mp hok).2.1 hx
  event pre call post hcs happ := by
    subst hcs
    have hone : (run TaskCall.step (pre ++ [call]) s).world.eventDeltas id =
        [(run TaskCall.step (pre ++ [call]) s).world.taskQuota id -
          (run TaskCall.step pre s).world.taskQuota id] := by
      rw [run_append, run_cons, run_nil]
      rcases step_eventDeltas id call (hs.taskRun pre) with ⟨-, hnot⟩ | ⟨-, hone⟩
      · exact absurd happ hnot
      · exact hone
    have hlast := run_eventDeltas post (hs.taskRun (pre ++ [call])) hone
    rw [← run_append, List.append_assoc, List.singleton_append] at hlast
    obtain ⟨e, he, hd⟩ := List.map_eq_singleton_iff.mp hlast
    exact ⟨e, he, hd⟩

/-- The accounts that the task charges, and the task itself. -/
def taskAccounts (t : Task) : World :=
  { empty with
    users := empty.users.put 1 { quota := 6, usedQuota := 0, deleted := false }
    tokens := empty.tokens.put 7
      { userId := 1, remainQuota := 2, usedQuota := 4, unlimitedQuota := false
        accessedTime := 0, deleted := false, key := "k" }
    channels := empty.channels.put 2 { usedQuota := 0 }
    tasks := empty.tasks.put 1 t
    nextTaskId := 2 }

theorem taskAccounts_start (t : Task) : LifecycleInvariant ⟨taskAccounts t, [], []⟩ := by
  refine .start (.start (fun _ => rfl) fun _ => rfl) (fun k r hr => ?_) fun k id hk => ?_
  · simp only [taskAccounts, Table.put_apply] at hr
    split_ifs at hr with hk
    · rw [hk]
      exact one_lt_two
    · cases hr
  · cases hk

/-- Both phases of the task, each started twice from the same copy. -/
def sampleTaskCalls : List TaskCall :=
  let abandoned := chargedTask.failedWithRefund 9 "" ""
  [.life (.applyPending .calm sampleTask ""), .life (.applyPending .calm sampleTask ""),
    .life (.write (.abandon "") (.calm 9) chargedTask),
    .life (.applyPending .calm abandoned ""), .life (.applyPending .calm abandoned ""),
    .eventDelivered (.calm 9) (finalizeEventID 1)]

theorem taskBilling_exactly_once_sample :
    BilledExactlyOnce 1 sampleTaskCalls ⟨taskAccounts sampleTask, [], []⟩ ∧
      (run TaskCall.step sampleTaskCalls
        ⟨taskAccounts sampleTask, [], []⟩).world.billingAt 1 = some .refunded :=
  ⟨taskBilling_exactly_once 1 sampleTaskCalls ⟨taskAccounts sampleTask, [], []⟩
    (taskAccounts_start sampleTask) (by decide), by decide⟩

/-- A task without a session is settled when it is accepted. -/
def freeTask : Task := { sampleTask with
  billingStatus := .settled, quota := 0, billingTargetQuota := 0 }

/-- The poller gives the free task up. -/
def reopenedSettlement : List TaskCall := [.life (.write (.abandon "") (.calm 4) freeTask)]

/-- The poller does not look at the accounting of the task that it gives up. -/
theorem settlement_reopened :
    (taskAccounts freeTask).billingAt 1 = some .settled ∧
      (run TaskCall.step reopenedSettlement ⟨taskAccounts freeTask, [], []⟩).world.billingAt 1 =
        some .finalizePending := by
  decide

/-- Whatever takes a task back, it is finalised at most once, and not again once it has its event. -/
theorem task_finalized_once (id : ℤ) (calls : List TaskCall) (s : LifecycleState)
    (hs : LifecycleInvariant s) (hle : (s.world.eventDeltas id).length ≤ 1) :
    total TaskCall.step (appliedIn id .finalizePending) calls s +
        (s.world.eventDeltas id).length ≤ 1 ∧
      ((run TaskCall.step calls s).world.eventDeltas id).length ≤ 1 := by
  refine ⟨?_, ?_⟩
  · have hone := total_finalised_le id calls hs
    unfold finalised at hone
    split_ifs at hone with hnil
    · simpa [hnil] using hone
    · omega
  · refine (run_invariant_always (I := fun s : LifecycleState =>
      LifecycleInvariant s ∧ (s.world.eventDeltas id).length ≤ 1) ?_ calls ⟨hs, hle⟩).2
    rintro call v ⟨hinv, hv⟩
    refine ⟨hinv.taskCall call, ?_⟩
    rcases step_eventDeltas id call hinv with ⟨hsame, -⟩ | ⟨-, hone⟩
    · rwa [hsame]
    · rw [hone, List.length_singleton]

theorem task_finalized_once_reopened : ((run TaskCall.step reopenedSettlement
    ⟨taskAccounts freeTask, [], []⟩).world.eventDeltas 1).length ≤ 1 :=
  (task_finalized_once 1 reopenedSettlement _ (taskAccounts_start freeTask) (by decide)).2

end NewApi
