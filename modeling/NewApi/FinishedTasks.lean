import NewApi.TaskLifecycle

/-!
# Finished tasks and their bills

A task may be finished by the poller, a realtime fetch, a sweep, a failed submission or a
media worker. All but the last prepare the final bill in the same write. The worker relies
on the poller, which alone enqueues transfers and prepares the bill before it does.
-/
namespace NewApi
open LifecycleState

/-- The states in which the final charge or refund was made or is queued. A legacy task has
no bill. -/
def TaskBillingStatus.closes : TaskBillingStatus → Bool
  | legacy | finalizePending | settled | refunded => true
  | submitting | submitPending | pending => false

def BillsClosed (w : World) : Prop :=
  ∀ k t, w.tasks k = some t → (t.isDone = true ∨ ∃ id, w.jobOfTask k = some id) →
    t.billingStatus.closes = true

section Rows
variable {w w' : World}

theorem BillsClosed.withRow (h : BillsClosed w) (k : ℤ)
    (hidx : ∀ j, j ≠ k → w'.jobOfTask j = w.jobOfTask j)
    (hoth : ∀ j, j ≠ k → w'.tasks j = w.tasks j)
    (hrow : ∀ t, w'.tasks k = some t → (t.isDone = true ∨ ∃ id, w'.jobOfTask k = some id) →
      t.billingStatus.closes = true) : BillsClosed w' := by
  intro j t ht hdone
  by_cases hj : j = k
  · rw [hj] at ht hdone
    exact hrow t ht hdone
  · rw [hoth j hj] at ht
    rw [hidx j hj] at hdone
    exact h j t ht hdone

theorem Task.isDone_congr {t r : Task} (h : t.status = r.status) : t.isDone = r.isDone := by
  unfold Task.isDone
  rw [h]

/-- A write of a whole row that closes the bill, or neither ends the task nor changes its
bill. -/
theorem BillsClosed.put (h : BillsClosed w) {q r : Task} (now : ℤ) (hr : w.tasks q.id = some r)
    (hq : q.billingStatus.closes = true ∨ (q.isDone = true → r.isDone = true) ∧
      (r.billingStatus.closes = true → q.billingStatus.closes = true)) :
    BillsClosed { w with tasks := w.tasks.put q.id { q with updatedAt := now } } := by
  refine h.withRow q.id (fun _ _ => rfl) (fun j hj => Table.put_of_ne _ _ hj) fun t ht hdone => ?_
  dsimp only at ht hdone
  rw [Table.put_self] at ht
  cases ht
  rcases hq with hcl | ⟨hends, hbill⟩
  · exact hcl
  · exact hbill (h q.id r hr (hdone.imp_left hends))

theorem BillsClosed.modify (h : BillsClosed w) (k : ℤ) {g : Task → Task}
    (hbill : ∀ t, (g t).billingStatus = t.billingStatus)
    (hdone : (∃ id, w.jobOfTask k = some id) ∨ ∀ t, (g t).isDone = t.isDone)
    (htsk : w'.tasks = w.tasks.modify k g) (hidx : w'.jobOfTask = w.jobOfTask) :
    BillsClosed w' := by
  refine h.withRow k (fun j _ => by rw [hidx]) (fun j hj => ?_) fun t ht hend => ?_
  · rw [htsk]
    exact Table.modify_of_ne _ _ hj
  · rw [htsk, Table.modify_self] at ht
    rw [hidx] at hend
    obtain ⟨r, hr, rfl⟩ := Option.map_eq_some_iff.mp ht
    rw [hbill]
    refine h k r hr ?_
    rcases hdone with hjob | hsame
    · exact .inr hjob
    · rwa [hsame] at hend

end Rows

/-- What a writer makes of a task: it closes the bill, or leaves the task's status, and its
bill too unless the task was being submitted. -/
theorem TaskWrite.result_cases (k : TaskWrite) (now : ℤ) {t : Task} (h : k.takes t = true) :
    (k.result now t).billingStatus.closes = true ∨ (k.result now t).status = t.status ∧
      ((k.result now t).billingStatus = t.billingStatus ∨ t.billingStatus = .submitting) := by
  cases k with
  | complete info billed r a => exact .inr ⟨rfl, .inr (of_decide_eq_true h)⟩
  | fail reason upstreamError | recover cutoff reason | abandon reason => exact .inl rfl
  | sweep cutoff reason legacyReason =>
    left
    simp only [TaskWrite.result, Task.timedOut]
    split_ifs with hleg
    · simp only [hleg]
      rfl
    · rfl
  | v6kRetry delay => exact .inr ⟨rfl, .inl rfl⟩

theorem pendingTransition_closes {t : Task} {next : TaskBillingStatus}
    (h : pendingTransition t = some next) (hcl : t.billingStatus.closes = true) :
    next.closes = true := by
  rcases pendingTransition_cases h with ⟨hs, -⟩ | ⟨-, ⟨rfl, -⟩ | rfl⟩
  · rw [hs] at hcl
    cases hcl
  · rfl
  · rfl

section Steps
variable {call : LifecycleCall} {s : LifecycleState}

theorem LeasesGranted.job_of_lease {l : LeaseState} (h : LeasesGranted l) {lease : Lease}
    (hl : lease ∈ l.leases) : ∃ id, l.world.jobOfTask lease.taskRecordID = some id := by
  obtain ⟨j, hj⟩ := h.granted lease hl
  refine ⟨lease.id, ?_⟩
  rw [← h.named lease hl j hj]
  exact h.jobs.indexed lease.id j hj

/-- Workers and administrators keep the bills, and finish only tasks with a job. -/
theorem BillsClosed.transferred {mediaCall : LeaseCall} {l l' : LeaseState}
    (heff : LeaseEffect mediaCall l l') (hnot : mediaCall.isEnqueue = false) (hl : LeasesGranted l)
    (h : BillsClosed l.world) : BillsClosed l'.world := by
  cases heff with
  | unchanged | claimed => exact h
  | enqueued hcall =>
    subst hcall
    cases hnot
  | held hlease hj hheld hkeep hst =>
    have hjob := hl.job_of_lease (LeaseCall.lease_mem hlease)
    refine h.modify _ (fun t => ?_) (.inl hjob) rfl rfl
    rcases hst with ⟨-, -, rfl⟩ | ⟨-, rfl⟩ | ⟨-, now, rfl⟩ | ⟨-, now, url, data, rfl⟩ <;> rfl
  | reopened hcall hj =>
    exact h.modify (g := Task.mediaReopened _) _ (fun _ => rfl)
      (.inl ⟨_, hl.jobs.indexed _ _ hj⟩) rfl rfl

theorem BillsClosed.enqueued {w : World} (h : BillsClosed w) {t : Task} (now : ℤ)
    (input : MediaTransferSource) (hcl : t.billingStatus.closes = true) :
    BillsClosed (w.enqueued now t input) := by
  refine h.withRow t.id (fun j hj => Table.put_of_ne _ _ hj) (fun j hj => Table.modify_of_ne _ _ hj)
    fun q hq _ => ?_
  simp only [World.enqueued, Table.modify_self] at hq
  obtain ⟨r, -, rfl⟩ := Option.map_eq_some_iff.mp hq
  exact hcl

theorem BillsClosed.step (hinv : LifecycleInvariant s) (h : BillsClosed s.world) :
    BillsClosed (s.step call).world := by
  obtain ⟨l, heff, hwd⟩ := call.effect_world s
  rw [hwd]
  cases heff with
  | unchanged => exact h
  | submitted hid hbill hst hmed =>
    rename_i t
    refine h.withRow t.id (fun _ _ => rfl) (fun j hj => Table.put_of_ne _ _ hj) fun q hq hend => ?_
    dsimp only at hq hend
    rw [Table.put_self] at hq
    cases hq
    -- the new row is not finished, and its number is new to the jobs
    rcases hend with hdone | ⟨id, hjob⟩
    · simp [Task.isDone, hst] at hdone
    · have hlt := hinv.jobsBelow _ _ hjob
      omega
  | written hcall htk hr hg =>
    rename_i k env t r
    obtain ⟨hst, hbill, -, -⟩ := guards_snapshot hg
    refine h.put env.now hr ?_
    rcases k.result_cases env.now htk with hcl | ⟨hkept, hsame | hsub⟩
    · exact .inl hcl
    · rw [hsame, hbill]
      exact .inr ⟨fun hdone => Task.isDone_congr (hkept.trans hst.symm) ▸ hdone, id⟩
    · refine .inr ⟨fun hdone => Task.isDone_congr (hkept.trans hst.symm) ▸ hdone, ?_⟩
      rw [hbill, hsub]
      exact fun hfalse => by cases hfalse
  | finished hcall hf hstage hr hg =>
    rename_i n env f t r
    replace hf := List.mem_of_getElem? hf
    obtain ⟨hst, hbill, -, -⟩ := guards_snapshot hg
    have hkept := (hinv.fetches f hf).writing hstage
    obtain ⟨-, hfin, -, hcas⟩ := f.final_cases t
    refine h.put env.now hr ?_
    rcases hcas with hprep | ⟨hends, hsame⟩
    · rw [hprep]
      exact .inl rfl
    -- nothing was prepared, so a finished copy was finished when it was read
    refine .inr ⟨fun hdone => ?_, ?_⟩
    · rw [Task.isDone_congr hfin] at hdone
      simp only [Fetch.ends, hdone, Bool.true_and, decide_eq_false_iff_not, not_not] at hends
      rw [Task.isDone_congr (hst.trans hends)]
      exact hdone
    · rw [hsame, hkept.2.billing, hbill]
      exact id
  | enqueued hcall hf hstage hr hprev hnone =>
    rename_i n env ready input f t previous r
    refine h.enqueued env.now input ?_
    obtain ⟨-, -, hprep, -⟩ := (hinv.fetches f (List.mem_of_getElem? hf)).enqueuing hstage
    have hbill : (markVideoMediaTransferPending t).billingStatus = t.billingStatus := rfl
    rw [hbill, hprep]
    rfl
  | billed hcall hnext htgt hb =>
    rename_i c t reason next w'
    obtain ⟨r, hr, hexpe, -, -⟩ := hb.matched
    refine h.withRow t.id (fun j _ => by rw [hb.media.2.1]) (fun j hj => ?_) fun q hq hend => ?_
    · rw [hb.tasks]
      exact Table.modify_of_ne _ _ hj
    · rw [hb.tasks, Table.modify_self, hr, Option.map_some] at hq
      cases hq
      rw [hb.media.2.1] at hend
      have hcl := h t.id r hr hend
      rw [hexpe] at hcl
      exact pendingTransition_closes hnext hcl
  | rescheduled =>
    exact h.modify (g := Task.retryScheduled _ _ _) _ (fun _ => rfl) (.inr fun _ => rfl) rfl rfl
  | transferred hnot heff => exact h.transferred heff hnot hinv.leases

end Steps

/-- The query of the recovery of pending billing. -/
def Task.isPendingBilling (now : ℤ) (t : Task) : Bool :=
  (decide (t.billingStatus = .finalizePending) || decide (t.billingStatus = .submitPending)) &&
    decide (t.billingNextRetryAt ≤ now)

/-- The final charge or refund was made, or the recovery takes it up once it is due. -/
def Task.BillFinal (t : Task) : Prop :=
  t.billingStatus = .settled ∨ t.billingStatus = .refunded ∨ t.billingStatus = .finalizePending ∧
      ∀ now, t.billingNextRetryAt ≤ now → t.isPendingBilling now = true

theorem Task.billFinal_of_closes {t : Task} (h : t.billingStatus.closes = true)
    (hleg : t.billingStatus ≠ .legacy) : t.BillFinal := by
  unfold Task.BillFinal Task.isPendingBilling
  cases hs : t.billingStatus <;> simp_all [TaskBillingStatus.closes]

/-- In every run, every finished task has its bill made or queued. -/
theorem finishedTasks_billed (w : World) (calls : List LifecycleCall)
    (hw : LifecycleInvariant ⟨w, [], []⟩) (hclosed : BillsClosed w) (k : ℤ) (t : Task)
    (ht : (run step calls ⟨w, [], []⟩).world.tasks k = some t)
    (hdone : t.status = .success ∨ t.status = .failure) (hlegacy : t.billingStatus ≠ .legacy) :
    t.BillFinal := by
  have hrun : LifecycleInvariant (run step calls ⟨w, [], []⟩) ∧
      BillsClosed (run step calls ⟨w, [], []⟩).world :=
    run_invariant_always (I := fun s => LifecycleInvariant s ∧ BillsClosed s.world)
      (fun call s hs => ⟨hs.1.step call s, hs.2.step hs.1⟩) calls ⟨hw, hclosed⟩
  refine t.billFinal_of_closes (hrun.2 k t ht (.inl ?_)) hlegacy
  rcases hdone with hs | hs <;> simp [Task.isDone, hs]

/-- The poller prepares the bill, enqueues the transfer, and a worker finishes the task. -/
def polledTransfer : List LifecycleCall :=
  [.poll chargedTask videoDone true, .enqueue 0 (.calm 3) true ⟨"", "", ""⟩,
    .media (.claim (.calm 4) 1 "a"), .media (.complete 0 (.calm 5) "https://stored/v" "")]

theorem finishedTasks_billed_sample :
    ∃ t, (run step polledTransfer ⟨chargedWorld, [], []⟩).world.tasks 1 = some t ∧
      t.status = .success ∧ t.BillFinal := by
  have hrow : ((run step polledTransfer ⟨chargedWorld, [], []⟩).world.tasks 1).map
      (fun t => (t.status, t.billingStatus)) = some (.success, .finalizePending) := by decide
  obtain ⟨t, ht, hs⟩ := Option.map_eq_some_iff.mp hrow
  rw [Prod.mk.injEq] at hs
  refine ⟨t, ht, hs.1, finishedTasks_billed chargedWorld polledTransfer chargedWorld_start ?_
    1 t ht (.inl hs.1) (by simp [hs.2])⟩
  intro k r hr hend
  obtain ⟨rfl, rfl⟩ := chargedWorld_row hr
  rcases hend with hdone | ⟨id, hid⟩
  · cases hdone
  · cases hid

end NewApi
