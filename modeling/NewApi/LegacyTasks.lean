import NewApi.FinishedTasks

/-!
# Tasks from before the billing states

Rows that are older than the billing states carry `LEGACY`, which is meant to be inert: no
charge or refund is replayed for them. The sweep of timed-out tasks honours this. A task
that is given up, and a task whose end is reported by the upstream, are not told apart, and
are queued for billing whatever their state. `LegacySpared` names those steps.
-/
namespace NewApi

/-- The answer says that the task has ended. -/
def PollResponse.reportsEnd (r : PollResponse) : Bool :=
  decide (r.info.status = .success) || decide (r.info.status = .failure)

def SunoItem.reportsEnd (i : SunoItem) : Bool :=
  decide (i.status = .success) || decide (i.status = .failure) || decide (i.failReason ≠ "")

/-- No legacy task is given up, and none that has not ended is reported to have ended. -/
def LegacySpared : LifecycleCall → LifecycleState → Prop
  | .write (.abandon _) _ t, _ => t.billingStatus ≠ .legacy
  | .poll t r _, _ => t.billingStatus = .legacy → r.reportsEnd = false
  | .fetch t a _, _ => t.billingStatus = .legacy →
      t.isDone = true ∨ a.response.reportsEnd = false
  | .song t i, _ => t.billingStatus = .legacy → i.reportsEnd = false
  | _, _ => True

/-- A fetch of a legacy task does not end it, and enqueues nothing. -/
def Fetch.Spares (f : Fetch) : Prop :=
  f.read.billingStatus = .legacy →
    match f.stage with
    | .ended | .transferring _ => True
    | .enqueuing _ _ | .uploading _ => False
    | .writing t => f.ends t = false

open Fetch

variable {t : Task} {k : ℤ} {s : LifecycleState}

theorem Fetch.ends_of_not_done {f : Fetch} (h : t.isDone = false) : f.ends t = false := by
  rw [ends, h, Bool.false_and]

section Course
variable {r : PollResponse} {storage : Bool}

theorem PollResponse.reportsEnd_eq_false :
    r.reportsEnd = false ↔ r.info.status ≠ .success ∧ r.info.status ≠ .failure := by
  simp [PollResponse.reportsEnd]

theorem updateVideoSingleTask_spares (h : t.billingStatus = .legacy → r.reportsEnd = false) :
    Fetch.Spares ⟨t, r, updateVideoSingleTask r storage t⟩ := by
  intro hleg
  obtain ⟨hsuc, hfail⟩ := PollResponse.reportsEnd_eq_false.mp (h hleg)
  unfold updateVideoSingleTask
  cases hs : r.info.status with
  | submitted | queued | inProgress => exact ends_of_not_done rfl
  | success => exact absurd hs hsuc
  | failure => exact absurd hs hfail
  | notStart | unknown | other text => trivial

/-- Without a reported end the copy has the reported status, or keeps its own. -/
theorem Task.fetched_not_done (hdone : t.isDone = false) (hr : r.reportsEnd = false) :
    (t.fetched r).isDone = false := by
  obtain ⟨hsuc, hfail⟩ := PollResponse.reportsEnd_eq_false.mp hr
  have hst : (t.fetched r).status =
      if r.info.status ≠ .other "" then r.info.status else t.status := by
    unfold Task.fetched
    dsimp only
    split_ifs <;> rfl
  unfold Task.isDone at hdone ⊢
  rw [hst]
  split_ifs
  · simp [hsuc, hfail]
  · exact hdone

theorem tryRealtimeFetch_spares (h : t.billingStatus = .legacy →
      t.isDone = true ∨ r.reportsEnd = false) :
    Fetch.Spares ⟨t, r, tryRealtimeFetch r storage t⟩ := by
  intro hleg
  unfold tryRealtimeFetch
  by_cases hskip : t.isDone ∨ t.mediaTransferState ≠ none
  · rw [if_pos hskip]
    trivial
  rw [if_neg hskip]
  have hdone : t.isDone = false := by
    by_contra hne
    exact hskip (.inl (by simpa using hne))
  rcases h hleg with hfin | hr
  · rw [hdone] at hfin
    cases hfin
  · have hopen := Task.fetched_not_done hdone hr
    dsimp only
    split_ifs
    · exact ends_of_not_done hopen
    · trivial
    · exact ends_of_not_done hopen
    · exact ends_of_not_done hopen
    · exact ends_of_not_done hopen

theorem updateSunoTask_spares {i : SunoItem}
    (h : t.billingStatus = .legacy → i.reportsEnd = false) :
    Fetch.Spares ⟨t, i.response t, updateSunoTask i t⟩ := by
  intro hleg
  have hr := h hleg
  simp only [SunoItem.reportsEnd, Bool.or_eq_false_iff, decide_eq_false_iff_not, ne_eq,
    not_not] at hr
  obtain ⟨⟨hsuc, hfail⟩, hrsn⟩ := hr
  have hst : (i.applied t).status = if i.status ≠ .other "" then i.status else t.status := by
    unfold SunoItem.applied
    simp [hrsn]
  unfold updateSunoTask
  split_ifs
  · show ends _ (i.applied t) = false
    by_cases hsame : i.status = .other ""
    · -- the copy keeps its status, so nothing ends
      simp [ends, hst, hsame]
    · refine ends_of_not_done ?_
      simp [Task.isDone, hst, hsame, hsuc, hfail]
  · trivial

variable {call : LifecycleCall} {g : Fetch}

theorem FetchEffect.spares (hok : LegacySpared call s) (hs : ∀ f ∈ s.fetches, f.Spares)
    (h : FetchEffect call s g) : g.Spares := by
  cases h with
  | begun hcall =>
    cases call with
    | poll t r storage =>
      obtain ⟨-, hg⟩ := Option.ite_none_right_eq_some.mp hcall
      cases hg
      exact updateVideoSingleTask_spares hok
    | fetch t a storage =>
      cases hcall
      exact tryRealtimeFetch_spares hok
    | song t i =>
      obtain ⟨-, hg⟩ := Option.ite_none_right_eq_some.mp hcall
      cases hg
      exact updateSunoTask_spares hok
    | _ => cases hcall
  | enqueued hcall hf hst | uploaded hcall hf hst =>
    intro hleg
    have hfalse := hs _ (List.mem_of_getElem? hf) hleg
    rw [hst] at hfalse
    exact hfalse.elim
  | ended hf => exact fun _ => trivial

end Course

def LegacyRow (k : ℤ) (w : World) : Prop := ∃ t, w.tasks k = some t ∧ t.billingStatus = .legacy

section Row
variable {w : World}

theorem LegacyRow.put (h : LegacyRow k w) (q : Task) {w' : World}
    (hq : q.id = k → q.billingStatus = .legacy) (hw : w'.tasks = w.tasks.put q.id q) :
    LegacyRow k w' := by
  obtain ⟨t, ht, hleg⟩ := h
  unfold LegacyRow
  rw [hw, Table.put_apply]
  by_cases hid : k = q.id
  · rw [if_pos hid]
    exact ⟨q, rfl, hq hid.symm⟩
  · rw [if_neg hid]
    exact ⟨t, ht, hleg⟩

theorem LegacyRow.modify (h : LegacyRow k w) (j : ℤ) {g : Task → Task} {w' : World}
    (hg : j = k → ∀ t, t.billingStatus = .legacy → (g t).billingStatus = .legacy)
    (hw : w'.tasks = w.tasks.modify j g) : LegacyRow k w' := by
  obtain ⟨t, ht, hleg⟩ := h
  unfold LegacyRow
  rw [hw]
  by_cases hid : k = j
  · subst hid
    rw [Table.modify_self, ht]
    exact ⟨g t, rfl, hg rfl t hleg⟩
  · rw [Table.modify_of_ne _ _ hid]
    exact ⟨t, ht, hleg⟩

end Row

/-- A writer that takes up a legacy copy writes it back as legacy, unless it gives it up. -/
theorem TaskWrite.result_legacy {k : TaskWrite} {env : Env} (htk : k.takes t = true)
    (hok : LegacySpared (.write k env t) s) (hleg : t.billingStatus = .legacy) :
    (k.result env.now t).billingStatus = .legacy := by
  cases k with
  | complete info billed r a | fail reason upstreamError =>
    have hsub : t.billingStatus = .submitting := of_decide_eq_true htk
    rw [hsub] at hleg
    cases hleg
  | sweep cutoff reason legacyReason =>
    simp only [TaskWrite.result, Task.timedOut]
    rw [if_pos hleg]
    exact hleg
  | recover cutoff reason =>
    simp only [TaskWrite.takes, Task.isStaleSubmission, hleg] at htk
    cases htk
  | abandon reason => exact absurd hleg hok
  | v6kRetry delay => exact hleg

theorem Billed.not_legacyRow {env : Env} {next : TaskBillingStatus}
    {payload : Option TaskBillingEventPayload} {w w' : World}
    (hb : Billed env t t.billingStatus next payload w w')
    (hnext : pendingTransition t = some next) : ¬ LegacyRow t.id w := by
  rintro ⟨row, hrow, hleg⟩
  obtain ⟨r, hr, hexpe, -, -⟩ := hb.matched
  rw [hrow, Option.some.injEq] at hr
  rw [← hr, hleg] at hexpe
  rw [pendingTransition, ← hexpe] at hnext
  cases hnext

section Steps
variable {call : LifecycleCall}

theorem LegacyRow.step (hinv : LifecycleInvariant s) (hok : LegacySpared call s)
    (hspares : ∀ f ∈ s.fetches, f.Spares) (h : LegacyRow k s.world) :
    LegacyRow k (s.step call).world := by
  obtain ⟨row, hrow, hleg⟩ := h
  have h : LegacyRow k s.world := ⟨row, hrow, hleg⟩
  obtain ⟨l, heff, hwd⟩ := call.effect_world s
  rw [hwd]
  cases heff with
  | unchanged => exact h
  | submitted hid hbill hsta hmed =>
    rename_i t
    refine h.put t (fun htk => ?_) rfl
    have hlt := hinv.tasksBelow k row hrow
    omega
  | written hcall htakes hr hg =>
    rename_i w env t r
    refine h.put { w.result env.now t with updatedAt := env.now } (fun hid => ?_) rfl
    replace hid : (w.result env.now t).id = k := hid
    rw [hid, hrow] at hr
    cases hr
    subst hcall
    exact TaskWrite.result_legacy htakes hok ((guards_snapshot hg).2.1.symm.trans hleg)
  | finished hcall hf hst hr hg =>
    rename_i n env f t r
    replace hf := List.mem_of_getElem? hf
    refine h.put { f.final t with updatedAt := env.now } (fun hid => ?_) rfl
    replace hid : (f.final t).id = k := hid
    rw [hid, hrow] at hr
    cases hr
    have hread := (guards_snapshot hg).2.1.symm.trans hleg
    have hends := hspares f hf hread
    rw [hst] at hends
    have hkept := (hinv.fetches f hf).writing hst
    have hfin : f.final t = t := by
      rw [final, if_neg (by rw [hends]; exact Bool.false_ne_true)]
    rw [hfin]
    exact hkept.2.billing.trans hread
  | enqueued hcall hf hst hr hprev hnone =>
    rename_i n env ready input f t previous r
    refine h.modify t.id (fun hid q _ => ?_) rfl
    show t.billingStatus = .legacy
    rw [hid, hrow] at hr
    cases hr
    have hmem := List.mem_of_getElem? hf
    obtain ⟨-, -, -, hcopy⟩ := (hinv.fetches f hmem).enqueuing hst
    -- the previous copy is the legacy row, and the poller does not enqueue those
    simp only [Task.isPrevious, Bool.and_eq_true, decide_eq_true_eq] at hprev
    have hread : f.read.billingStatus = .legacy := by
      rw [← hcopy.billing, ← hprev.1.2]
      exact hleg
    have hfalse := hspares f hmem hread
    rw [hst] at hfalse
    exact hfalse.elim
  | billed hcall hnext htgt hb =>
    rename_i c t reason next w'
    exact h.modify t.id (fun hid => absurd (hid ▸ h) (hb.not_legacyRow hnext)) hb.tasks
  | rescheduled => exact h.modify (g := Task.retryScheduled _ _ _) _ (fun _ t ht => ht) rfl
  | transferred hnot heff =>
    obtain ⟨-, -, j, g, hkept, htsk⟩ := heff.inPlace hnot
    exact h.modify j (fun _ t ht => (hkept t).billing.trans ht) htsk

end Steps

/-- Wallets, tokens, subscriptions and usage counters are as before. -/
structure SameMoney (w w' : World) : Prop where
  users : w'.users = w.users
  tokens : w'.tokens = w.tokens
  subscriptions : w'.subscriptions = w.subscriptions
  channels : w'.channels = w.channels
  userQuotaBatch : w'.userQuotaBatch = w.userQuotaBatch
  tokenQuotaBatch : w'.tokenQuotaBatch = w.tokenQuotaBatch

theorem LeaseEffect.sameMoney {call : LeaseCall} {l l' : LeaseState}
    (heff : LeaseEffect call l l') : SameMoney l.world l'.world := by
  cases heff <;> exact ⟨rfl, rfl, rfl, rfl, rfl, rfl⟩

/-- The call is not the billing of another task than `k`. -/
def LifecycleCall.mayConcern (k : ℤ) : LifecycleCall → Bool
  | .applyPending _ t _ => decide (t.id = k)
  | _ => true

/-- Step lemma: money moves for other tasks only. -/
theorem LegacyRow.sameMoney {call : LifecycleCall} (h : LegacyRow k s.world)
    (hconc : call.mayConcern k = true) : SameMoney s.world (s.step call).world := by
  obtain ⟨l, heff, hwd⟩ := call.effect_world s
  rw [hwd]
  cases heff with
  | transferred hnot heff => exact heff.sameMoney
  | billed hcall hnext htgt hb =>
    subst hcall
    have hid := of_decide_eq_true hconc
    exact absurd (hid ▸ h) (hb.not_legacyRow hnext)
  | _ => exact ⟨rfl, rfl, rfl, rfl, rfl, rfl⟩

structure LegacyInvariant (k : ℤ) (s : LifecycleState) : Prop where
  lifecycle : LifecycleInvariant s
  row : LegacyRow k s.world
  spares : ∀ f ∈ s.fetches, f.Spares

/-- One step, over the effect of each call. -/
theorem LegacyInvariant.step {call : LifecycleCall} (hok : LegacySpared call s)
    (h : LegacyInvariant k s) : LegacyInvariant k (s.step call) := by
  refine ⟨h.lifecycle.step call s, h.row.step h.lifecycle hok h.spares, fun f hf => ?_⟩
  rcases call.fetches s hf with hold | hnew
  · exact h.spares f hold
  · exact hnew.spares hok h.spares

/-- In every run without the steps that forget about legacy tasks, a legacy task stays
legacy in every state reached, and no step moves money for it. -/
theorem legacyTasks_inert (w : World) (calls : List LifecycleCall) (k : ℤ)
    (hw : LifecycleInvariant ⟨w, [], []⟩) (hrow : LegacyRow k w)
    (hok : Along LifecycleState.step LegacySpared calls ⟨w, [], []⟩) (n : ℕ) :
    LegacyRow k (run LifecycleState.step (calls.take n) ⟨w, [], []⟩).world ∧
      ∀ call, calls[n]? = some call → call.mayConcern k = true →
        SameMoney (run LifecycleState.step (calls.take n) ⟨w, [], []⟩).world
          (run LifecycleState.step (calls.take (n + 1)) ⟨w, [], []⟩).world := by
  have hinv : LegacyInvariant k (run LifecycleState.step (calls.take n) ⟨w, [], []⟩) :=
    run_invariant_along (fun call s h hs => hs.step h) hok ⟨hw, hrow, by simp⟩ _
      (List.take_prefix n calls)
  refine ⟨hinv.row, fun call hcall hconc => ?_⟩
  rw [run_take_succ hcall]
  exact hinv.row.sameMoney hconc

def legacyTask : Task := { sampleTask with billingStatus := .legacy, quota := 5 }

/-- A legacy task that was paid for by user 1 through channel 2. -/
def legacyWorld : World :=
  { World.empty with
    users := World.empty.users.put 1 ⟨10, 5, false⟩
    tokens := World.empty.tokens.put 7 ⟨1, 20, 5, false, 0, false, "k"⟩
    channels := World.empty.channels.put 2 ⟨5⟩
    tasks := World.empty.tasks.put 1 legacyTask
    nextTaskId := 2 }

theorem legacyWorld_start : LifecycleInvariant ⟨legacyWorld, [], []⟩ := by
  refine .start (.start (fun _ => rfl) fun _ => rfl) (fun k t ht => ?_) fun k id hk => ?_
  · simp only [legacyWorld, Table.put_apply] at ht
    split_ifs at ht with hk
    · subst hk
      decide
    · cases ht
  · cases hk

/-- What Vertex says about a video that is not there yet. -/
def videoInProgress : RealtimeResponse where
  channel := .vertexAi
  operation := ⟨false, "", [], "", "", ""⟩
  failReason := ""
  upstreamError := ""
  serverAddress := ""
  pricing := ⟨fun _ _ => none, none⟩
  now := 3

/-- A client's fetch takes over the progress of the task, and a sweep of the row and a stale
billing step follow. -/
def legacyServed : List LifecycleCall :=
  [.fetch legacyTask videoInProgress true, .finish 0 (.calm 3),
    .write (.sweep 9 "timeout" "legacy") (.calm 9) legacyTask, .applyPending .calm legacyTask ""]

theorem legacyTasks_inert_sample :
    LegacyRow 1 (run LifecycleState.step (legacyServed.take 3) ⟨legacyWorld, [], []⟩).world ∧
      ∀ call, legacyServed[3]? = some call → call.mayConcern 1 = true →
        SameMoney (run LifecycleState.step (legacyServed.take 3) ⟨legacyWorld, [], []⟩).world
          (run LifecycleState.step (legacyServed.take 4) ⟨legacyWorld, [], []⟩).world :=
  legacyTasks_inert legacyWorld legacyServed 1 legacyWorld_start ⟨legacyTask, rfl, rfl⟩
    ⟨fun _ => .inr (by decide), trivial, trivial, trivial, trivial⟩ 3

/-- A legacy task is given up because its channel is gone; its quota is refunded then. -/
def legacyAbandoned : List LifecycleCall :=
  [.write (.abandon "no channel") (.calm 3) legacyTask,
    .applyPending .calm (legacyTask.failedWithRefund 3 "no channel" "") ""]

/-- The new accounting refunds a task that it has never charged. -/
theorem abandoned_legacy_task_refunded :
    let w := (run LifecycleState.step legacyAbandoned ⟨legacyWorld, [], []⟩).world
    (w.tasks 1).map Task.billingStatus = some .refunded ∧
      (w.users 1).map User.quota = some 15 ∧ (legacyWorld.users 1).map User.quota = some 10 := by
  decide

end NewApi
