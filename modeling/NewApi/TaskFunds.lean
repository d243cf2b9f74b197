import NewApi.SessionExclusion
import NewApi.TaskBillingSteps
import NewApi.TaskSubmission

/-!
# Funds of a task request

What a wallet-funded task request has removed from the user's wallet is what its row
records, over all attempts, guarded writes and billing steps, provided that no attempt
opens the billing session after an earlier one has inserted the row.
-/
namespace NewApi
open BillingSession

/-- The user's wallet paid `debit`, and no task was written. -/
structure Debited (userId debit : ℤ) (w w' : World) : Prop where
  wallet : w'.reconciled .userQuota userId = w.reconciled .userQuota userId - debit
  tasks : w'.tasks = w.tasks
  nextTaskId : w'.nextTaskId = w.nextTaskId

section Opening
variable {o : OpenEnv} {info : RelayInfo} {quota userId : ℤ} {w w' v : World}

theorem Debited.refl (userId : ℤ) (w : World) : Debited userId 0 w w := ⟨by simp, rfl, rfl⟩

theorem Debited.trans {a b : ℤ} (h : Debited userId a w v) (h' : Debited userId b v w') :
    Debited userId (a + b) w w' := by
  refine ⟨?_, h'.tasks.trans h.tasks, h'.nextTaskId.trans h.nextTaskId⟩
  have h₁ := h.wallet
  have h₂ := h'.wallet
  omega

theorem debited_creditToken (userId now tokenId delta : ℤ) (w : World) :
    Debited userId 0 w (w.creditToken now tokenId delta) := by
  refine ⟨?_, rfl, rfl⟩
  simp [World.creditToken, World.reconciled, World.rowQuota, World.pendingQuota, World.batchStore]

/-- Giving back to a token costs no wallet anything, whether or not it succeeds. -/
theorem debited_increaseTokenQuotaDirect (env : Env) (userId tokenId amount : ℤ) (w : World) :
    Debited userId 0 w (increaseTokenQuotaDirect env tokenId amount w).2 := by
  have hatomic := (LedgerOp.increaseToken env tokenId amount).atomic_exec
  rcases hatomic.cases w with ⟨⟨⟩, v, h⟩ | ⟨e, h⟩
  · simp only [LedgerOp.exec] at h
    rw [h]
    obtain ⟨-, -, -, -, rfl⟩ := adjustTokenQuotaWithPending_eq_ok.mp (ok_of_guard h)
    exact debited_creditToken userId env.now tokenId amount w
  · simp only [LedgerOp.exec] at h
    rw [h]
    exact Debited.refl userId w

variable {e : NewAPIError} {s' session : BillingSession}

/-- A subscription session that was not opened leaves wallets and tasks alone, even if the token
could not be given back. -/
theorem trySubscription_error_debited (userId : ℤ)
    (h : trySubscription o info quota w = (.error e, w')) : Debited userId 0 w w' := by
  obtain ⟨s, hpre⟩ := opened_error h
  rcases preConsume_subscription_error (trySubscription_pos quota) rfl rfl hpre with
    rfl | ⟨t, -, rfl⟩
  · exact Debited.refl userId w'
  · simpa using (debited_creditToken userId _ _ _ w).trans
      (debited_increaseTokenQuotaDirect _ userId _ _ _)

/-- The wallet session of the request, which has just debited the wallet. -/
structure OpenedFromWallet (info : RelayInfo) (session : BillingSession) (w w' : World) :
    Prop where
  debited : Debited info.userId session.preConsumedQuota w w'
  userId : session.relayInfo.userId = info.userId
  source : session.relayInfo.billingSource = .wallet

theorem preConsume_wallet_rest {c : CallEnv} {s : BillingSession} {f : WalletFunding}
    (hf : s.funding = .wallet f) (h : s.preConsume c quota w = (.ok (), s', w')) :
    w'.tasks = w.tasks ∧ w'.nextTaskId = w.nextTaskId ∧
      s'.relayInfo.userId = s.relayInfo.userId ∧ s'.relayInfo.billingSource = .wallet := by
  rcases preConsume_wallet_cases (w := w) hf c quota with ⟨e, hr⟩ | ⟨-, hr⟩ | ⟨-, -, -, hr⟩
  · rw [hr] at h
    cases h
  · rw [hr] at h
    cases h
    simp [syncRelayInfo, hf, FundingSource.source]
  · rw [hr] at h
    cases h
    refine ⟨?_, ?_, rfl, rfl⟩ <;> cases (!s.relayInfo.isPlayground) <;> rfl

theorem tryWallet_opened (hq : 0 ≤ quota)
    (h : tryWallet o info quota w = (.ok session, w')) : OpenedFromWallet info session w w' := by
  have hchg := (tryWallet_ok hq h).1.moved .userQuota info.userId
  have hwal : w'.reconciled .userQuota info.userId =
      w.reconciled .userQuota info.userId - session.preConsumedQuota := by
    rw [hchg]
    simp [tokenDelta, QuotaDelta.single, sub_eq_add_neg]
  unfold tryWallet at h
  split at h
  · simp at h
  split_ifs at h
  · simp at h
  · simp at h
  · obtain ⟨htsk, hnext, huser, hsrc⟩ := preConsume_wallet_rest rfl (opened_ok h)
    exact ⟨⟨hwal, htsk, hnext⟩, huser, hsrc⟩

theorem trySubscription_opened (h : trySubscription o info quota w = (.ok session, w')) :
    session.funding.source = .subscription ∧ session.relayInfo.userId = info.userId := by
  obtain ⟨v, res, -, -, -, -, rfl⟩ :=
    preConsume_subscription_inv (trySubscription_pos quota) rfl rfl (opened_ok h)
  simp [afterSubscription, new, FundingSource.source]

theorem OpenedFromWallet.after (h : Debited info.userId 0 w v)
    (h' : OpenedFromWallet info session v w') : OpenedFromWallet info session w w' :=
  ⟨by simpa using h.trans h'.debited, h'.userId, h'.source⟩

/-- What opening a session does to wallet and tasks, unless a subscription pays. -/
def WalletOutcome (info : RelayInfo) (w : World) : Except NewAPIError BillingSession × World → Prop
  | (.error _, w') => Debited info.userId 0 w w'
  | (.ok session, w') =>
    session.funding.source = .subscription ∧ session.relayInfo.userId = info.userId ∨
      OpenedFromWallet info session w w'

theorem walletOutcome_tryWallet (o : OpenEnv) (hq : 0 ≤ quota) (h : Debited info.userId 0 w v) :
    WalletOutcome info w (tryWallet o info quota v) := by
  cases hr : tryWallet o info quota v with
  | mk r w' =>
    cases r with
    | error e => exact tryWallet_error hr ▸ h
    | ok session => exact .inr ((tryWallet_opened hq hr).after h)

theorem walletOutcome_trySubscription (o : OpenEnv) (info : RelayInfo) (quota : ℤ) (w : World) :
    WalletOutcome info w (trySubscription o info quota w) := by
  cases hr : trySubscription o info quota w with
  | mk r w' =>
    cases r with
    | error e => exact trySubscription_error_debited info.userId hr
    | ok session => exact .inl (trySubscription_opened hr)

theorem walletOutcome_newBillingSession (o : OpenEnv) (info : RelayInfo) (w : World)
    (hq : 0 ≤ quota) : WalletOutcome info w (newBillingSession o info quota w) := by
  have hw := walletOutcome_tryWallet o hq (Debited.refl info.userId w)
  have hs := walletOutcome_trySubscription o info quota w
  rcases newBillingSession_cases o info quota w with ⟨e, h⟩ | h | h | ⟨e, v, hr, h⟩
  · rw [h]
    exact Debited.refl info.userId w
  · rw [h]
    exact hw
  · rw [h]
    exact hs
  · rw [hr] at hs
    rw [h]
    exact walletOutcome_tryWallet o hq hs

end Opening

/-- No attempt opens the billing session once an earlier attempt has inserted the row. -/
def OpensBeforeTask : SubmissionCall → SubmissionState → Prop
  | .attempt a, s => s.billing = none → a.price.freeModel = false → s.persistentTaskID = 0
  | _, _ => True

/-- A session that an attempt opens is paid from the wallet. -/
def WalletFunded : SubmissionCall → SubmissionState → Prop
  | .attempt a, s => (s.preConsumeBilling a).2.billing.all
      (fun session => decide (session.funding.source = .wallet)) = true
  | _, _ => True

instance OpensBeforeTask.decidable (call s) : Decidable (OpensBeforeTask call s) := by
  cases call <;> dsimp only [OpensBeforeTask] <;> infer_instance

instance WalletFunded.decidable (call s) : Decidable (WalletFunded call s) := by
  cases call <;> dsimp only [WalletFunded] <;> infer_instance

/-- What the steps of others move in the user's wallet. -/
def movedByOthers (userId : ℤ) : SubmissionCall → SubmissionState → ℤ
  | .other op, s => (op.step s.world).reconciled .userQuota userId -
      s.world.reconciled .userQuota userId
  | _, _ => 0

/-- A copy of the request's own row, as far as billing steps read it. -/
structure CopyOf (s : SubmissionState) (t : Task) : Prop where
  id : t.id = s.persistentTaskID
  userId : t.userId = s.info.userId
  wallet : t.isSubscription = false

/-- The row accounts for everything the request has taken. -/
structure OwnsFunds (s : SubmissionState) (t : Task) : Prop extends CopyOf s t where
  net : s.net = t.quota
  refunded : t.billingStatus = .refunded → t.quota = 0
  free : t.billingStatus = .submitting → s.billing = none → t.quota = 0

structure Accounted (s : SubmissionState) : Prop where
  fresh : s.persistentTaskID = 0 → s.closed = false → 0 < s.world.nextTaskId
  persistent : 0 ≤ s.persistentTaskID
  source : s.info.billingSource ≠ .subscription
  work : s.work ≠ [] → s.persistentTaskID = 0 ∧ s.closed = true
  unowned : s.persistentTaskID = 0 → s.closed = false →
    s.net = (s.billing.map preConsumedQuota).getD 0
  row : s.persistentTaskID ≠ 0 → ∃ t, s.world.tasks s.persistentTaskID = some t ∧ OwnsFunds s t
  copies : ∀ t ∈ s.copies, s.persistentTaskID ≠ 0 ∧ CopyOf s t
  result : s.billing = none → ∀ r a, s.result = some (r, a) → r.quota = 0

section Writes
variable {s : SubmissionState} {t t' r : Task}

/-- A copy that still matches the row owns the funds as the row does. -/
theorem OwnsFunds.ofCopy (h : OwnsFunds s r) (hcopy : CopyOf s t)
    (hg : t.snapshot.guards r = true) : OwnsFunds s t := by
  obtain ⟨-, hb, hq, -⟩ := guards_snapshot hg
  refine ⟨hcopy, ?_, ?_, ?_⟩
  · rw [← hq]
    exact h.net
  · rw [← hb, ← hq]
    exact h.refunded
  · rw [← hb, ← hq]
    exact h.free

section
variable (h : OwnsFunds s t)
include h

/-- A write that keeps the quota, and the billing status or makes it a pending one. -/
theorem OwnsFunds.rewrite (hid : t'.id = t.id) (huser : t'.userId = t.userId)
    (hwal : t'.isSubscription = t.isSubscription) (hqt : t'.quota = t.quota)
    (hst : t'.billingStatus = t.billingStatus ∨ t'.billingStatus = .finalizePending) :
    OwnsFunds s t' := by
  refine ⟨⟨hid.trans h.id, huser.trans h.userId, hwal.trans h.wallet⟩, ?_, ?_, ?_⟩
  · rw [hqt]
    exact h.net
  · rcases hst with hs | hs
    · rw [hs, hqt]
      exact h.refunded
    · simp [hs]
  · rcases hst with hs | hs
    · rw [hs, hqt]
      exact h.free
    · simp [hs]

theorem OwnsFunds.failedWithRefund (now : ℤ) (reason upstreamError : String) :
    OwnsFunds s (t.failedWithRefund now reason upstreamError) :=
  h.rewrite rfl rfl rfl rfl (.inr rfl)

theorem OwnsFunds.timedOut (now : ℤ) (reason legacyReason : String) :
    OwnsFunds s (t.timedOut now reason legacyReason) := by
  unfold Task.timedOut
  split_ifs
  · exact h.rewrite rfl rfl rfl rfl (.inl rfl)
  · exact h.failedWithRefund now reason t.privateData.upstreamError

theorem OwnsFunds.ended (e : TaskEnd) : OwnsFunds s (t.ended e) := by
  unfold Task.ended
  obtain ⟨target, heq⟩ := prepareTaskFinalBilling_keeps e.pricing
    { t with status := e.status, progress := "100%", finishTime := e.now
             failReason := e.failReason } e.result
  rw [heq]
  exact h.rewrite rfl rfl rfl rfl (.inr rfl)

/-- Completing a submission keeps the quota: without a session there is none to pay. -/
theorem OwnsFunds.completed (hs : Accounted s)
    (hsub : t.billingStatus = .submitting) {res : TaskSubmitResult} {a : Attempt}
    (hres : s.result = some (res, a)) :
    OwnsFunds s (t.completed s.info s.billing.isSome res a) := by
  have hwal : (t.completed s.info s.billing.isSome res a).isSubscription = false := by
    simp [Task.completed, Task.isSubscription, hs.source]
  cases hbill : s.billing with
  | some session =>
    exact ⟨⟨h.id, h.userId, hwal⟩, h.net, by simp [Task.completed], by simp [Task.completed]⟩
  | none =>
    have hzero := h.free hsub hbill
    have hfree := hs.result hbill res a hres
    refine ⟨⟨h.id, h.userId, hwal⟩, ?_, by simp [Task.completed], by simp [Task.completed]⟩
    simp [Task.completed, hfree, h.net, hzero]

end

end Writes

/-- The user's wallet together with what the request has taken from it. -/
def SubmissionState.funds (userId : ℤ) (s : SubmissionState) : ℤ :=
  s.world.reconciled .userQuota userId + s.net

open SubmissionState

/-- The request is accounted for, its user is the same, and no money is gained or lost. -/
structure Kept (s s' : SubmissionState) : Prop extends Accounted s' where
  user : s'.info.userId = s.info.userId
  funds : s'.funds s.info.userId = s.funds s.info.userId

section Steps
variable {s : SubmissionState}

theorem Accounted.same (h : Accounted s) : Kept s s := ⟨h, rfl, rfl⟩

theorem Kept.trans {s' s'' : SubmissionState} (h : Kept s s') (h' : Kept s' s'') : Kept s s'' :=
  ⟨h'.toAccounted, h'.user.trans h.user, (h.user ▸ h'.funds).trans h.funds⟩

theorem funds_charge (s : SubmissionState) (w : World) :
    (s.charge w).funds s.info.userId = s.funds s.info.userId := by
  simp only [funds, charge]
  omega

/-- A step that writes the request's row keeps the invariant if the new row owns the
funds: everything else in it is about the rest of the state. -/
theorem Accounted.withRow (h : Accounted s) {w : World} {net : ℤ} {t : Task}
    (hpid : s.persistentTaskID ≠ 0) (htask : w.tasks s.persistentTaskID = some t)
    (hown : OwnsFunds { s with world := w, net := net } t) :
    Accounted { s with world := w, net := net } :=
  { h with
    fresh := (absurd · hpid), unowned := (absurd · hpid), row := fun _ => ⟨t, htask, hown⟩
    copies := fun c hc => ⟨hpid, { (h.copies c hc).2 with }⟩ }

theorem Accounted.write (h : Accounted s) (env : Env) (n : ℕ) {eligible : Task → Bool}
    {f : Task → Task} (hid : ∀ t, (f t).id = t.id)
    (hf : ∀ t, eligible t = true → OwnsFunds s t → OwnsFunds s (f t)) :
    Kept s (s.write env n eligible f) := by
  unfold SubmissionState.write
  cases hn : s.copies[n]? with
  | none => exact h.same
  | some t =>
    dsimp only
    split_ifs with hel
    · obtain ⟨hpid, hcopy⟩ := h.copies t (List.mem_of_getElem? hn)
      rcases updateWithSnapshot_cases env (f t) t.snapshot s.world with
        ⟨hsame, -⟩ | ⟨r, hr, hg, hw⟩
      · rw [hsame]
        exact h.same
      rw [hw]
      have hft : (f t).id = s.persistentTaskID := (hid t).trans hcopy.id
      rw [hft] at hr
      obtain ⟨r', hr', hown⟩ := h.row hpid
      rw [hr] at hr'
      cases hr'
      have hnew := hf t hel (hown.ofCopy hcopy hg)
      refine ⟨h.withRow (t := { f t with updatedAt := env.now }) hpid (by simp [hft]) ?_, rfl, rfl⟩
      exact ⟨⟨hnew.id, hnew.userId, hnew.wallet⟩, hnew.net, hnew.refunded, hnew.free⟩
    · exact h.same

@[simp] theorem SubmissionState.charge_self (s : SubmissionState) : s.charge s.world = s := by
  simp [SubmissionState.charge]

/-- A billing step of a copy takes its delta from the wallet. -/
theorem Billed.wallet_debited {env : Env} {t : Task} {expected next : TaskBillingStatus}
    {payload : Option TaskBillingEventPayload} {w w' : World}
    (hb : Billed env t expected next payload w w') (hsub : t.isSubscription = false) :
    w.reconciled .userQuota t.userId - w'.reconciled .userQuota t.userId = t.billingDelta := by
  have hmv := hb.moved .userQuota t.userId
  have hmove : t.billingMove .userQuota t.userId = -t.billingDelta := by
    cases htok : t.withToken <;> simp [Task.billingMove, hsub, htok, QuotaDelta.single]
  omega

/-- A billing step moves the wallet by what it adds to the persisted quota. -/
theorem Accounted.applyPending (h : Accounted s) (n : ℕ) (c : BillingConditions) (reason : String) :
    Kept s (s.step (.applyPending n c reason)) := by
  rw [SubmissionState.step]
  cases hn : s.copies[n]? with
  | none => exact h.same
  | some t =>
    dsimp only
    obtain ⟨hpid, hcopy⟩ := h.copies t (List.mem_of_getElem? hn)
    rcases applyPendingTaskBilling_cases c t reason s.world with
      ⟨hsame, -⟩ | ⟨next, w', hnext, -, hb, happ⟩
    · rw [hsame, charge_self]
      exact h.same
    rw [happ]
    obtain ⟨r, hr, hown⟩ := h.row hpid
    obtain ⟨r', hr', -, hqt, -⟩ := hb.matched
    rw [hcopy.id, hr] at hr'
    cases hr'
    have hdb := hb.wallet_debited hcopy.wallet
    rw [hcopy.userId] at hdb
    refine ⟨h.withRow (t := r.billed c.env.now next t.billingTargetQuota) hpid ?_ ?_, rfl,
      funds_charge s w'⟩
    · rw [hb.tasks, hcopy.id, Table.modify_self, hr]
      rfl
    · refine ⟨⟨hown.id, hown.userId, hown.wallet⟩, ?_, ?_, ?_⟩
      · have hnet := hown.net
        simp only [hdb, Task.billed, Task.billingDelta]
        omega
      · intro href
        exact pendingTransition_refunded (href ▸ hnext)
      · intro hsub
        rcases pendingTransition_cases hnext with ⟨-, rfl⟩ | ⟨-, ⟨rfl, -⟩ | rfl⟩ <;> cases hsub

theorem Accounted.scheduleRetry (h : Accounted s) (n : ℕ) (env : Env) (nextRetryAt : ℤ)
    (lastError : String) : Kept s (s.step (.scheduleRetry n env nextRetryAt lastError)) := by
  rw [SubmissionState.step]
  cases hn : s.copies[n]? with
  | none => exact h.same
  | some t =>
    dsimp only
    obtain ⟨hpid, hcopy⟩ := h.copies t (List.mem_of_getElem? hn)
    rcases scheduleTaskBillingRetry_cases env t.id t.billingStatus nextRetryAt lastError s.world
      with hw | hw
    · rw [hw]
      exact h.same
    rw [hw]
    obtain ⟨r, hr, hown⟩ := h.row hpid
    refine ⟨h.withRow (t := r.retryScheduled env.now nextRetryAt lastError) hpid ?_ ?_, rfl, rfl⟩
    · simp [hcopy.id, hr]
    · exact ⟨⟨hown.id, hown.userId, hown.wallet⟩, hown.net, hown.refunded, hown.free⟩

/-- Opening the session before there is a row books what the session records. -/
theorem Accounted.preConsumeBilling (h : Accounted s) {a : Attempt} (hrun : s.closed = false)
    (hopen : OpensBeforeTask (.attempt a) s) (hwal : WalletFunded (.attempt a) s) :
    Kept s (s.preConsumeBilling a).2 := by
  simp only [WalletFunded] at hwal
  unfold SubmissionState.preConsumeBilling at hwal ⊢
  split_ifs at hwal ⊢ with hnd
  · simp only [Bool.and_eq_true, Option.isNone_iff_eq_none, Bool.not_eq_true'] at hnd
    obtain ⟨hnone, hpaid⟩ := hnd
    have hpid : s.persistentTaskID = 0 := hopen hnone hpaid
    have hnet : s.net = 0 := by simpa [hnone] using h.unowned hpid hrun
    have hcop : ∀ t, t ∉ s.copies := fun t ht => (h.copies t ht).1 hpid
    have hout := walletOutcome_newBillingSession a.openEnv
      { s.info with forcePreConsume := true } s.world a.price.nonneg
    dsimp only at hwal ⊢
    cases hr : newBillingSession a.openEnv { s.info with forcePreConsume := true } a.price.quota
        s.world with
    | mk r w' =>
      rw [hr] at hout hwal
      cases r with
      | error e =>
        have hdb := hout.wallet
        refine ⟨⟨?_, h.persistent, h.source, h.work, ?_, fun hne => absurd hpid hne,
          fun t ht => absurd ht (hcop t), h.result⟩, rfl, funds_charge s w'⟩
        · exact fun _ _ => hout.nextTaskId ▸ h.fresh hpid hrun
        · intro _ _
          simp [charge, hnone, hnet, hdb]
      | ok session =>
        rcases hout with ⟨hsrc, -⟩ | hopn
        · simp [hsrc] at hwal
        have hdb := hopn.debited.wallet
        refine ⟨⟨?_, h.persistent, ?_, h.work, ?_, fun hne => absurd hpid hne,
          fun t ht => absurd ht (hcop t), by simp⟩, hopn.userId, funds_charge s w'⟩
        · exact fun _ _ => hopn.debited.nextTaskId ▸ h.fresh hpid hrun
        · simp [hopn.source]
        · intro _ _
          simp [charge, hnet, hdb]
  · exact h.same

theorem preConsumeBilling_flags (s : SubmissionState) (a : Attempt) :
    (s.preConsumeBilling a).2.closed = s.closed ∧ (s.preConsumeBilling a).2.result = s.result ∧
      (s.preConsumeBilling a).2.persistentTaskID = s.persistentTaskID ∧
      ((s.preConsumeBilling a).1 = .ok () → (s.preConsumeBilling a).2.billing = none →
        a.price.freeModel = true) := by
  unfold SubmissionState.preConsumeBilling
  split_ifs with hnd
  · dsimp only
    cases newBillingSession a.openEnv { s.info with forcePreConsume := true } a.price.quota
        s.world with
    | mk r w' => cases r <;> simp [charge]
  · refine ⟨rfl, rfl, rfl, fun _ hnone => ?_⟩
    dsimp only at hnone
    simpa [hnone] using hnd

theorem Accounted.ensurePersistent (h : Accounted s) (hrun : s.closed = false) (a : Attempt) :
    Kept s (s.ensurePersistentTaskSubmission a).2 := by
  unfold ensurePersistentTaskSubmission
  split_ifs with hpos hflt hins
  · exact h.same
  · cases s.world.tasks s.persistentTaskID with
    | none => exact h.same
    | some t =>
      dsimp only
      split_ifs <;> exact h.same
  · exact h.same
  · have hpid : s.persistentTaskID = 0 := le_antisymm (not_lt.mp hpos) h.persistent
    have hcop : ∀ t, t ∉ s.copies := fun t ht => (h.copies t ht).1 hpid
    have hnext := h.fresh hpid hrun
    refine ⟨⟨fun hzero => absurd hzero hnext.ne', hnext.le, h.source, ?_,
      fun hzero => absurd hzero hnext.ne', fun _ => ?_, fun t ht => absurd ht (hcop t),
      h.result⟩, rfl, rfl⟩
    · intro hwork
      simp [(h.work hwork).2] at hrun
    · refine ⟨s.initTask a s.world.nextTaskId, by simp, ⟨rfl, rfl, ?_⟩, ?_, ?_, ?_⟩
      · simp [initTask, Task.isSubscription, h.source]
      · exact h.unowned hpid hrun
      · intro href
        cases href
      · intro _ hnone
        dsimp only at hnone
        simp [initTask, hnone]

theorem ensurePersistent_flags (s : SubmissionState) (a : Attempt) :
    (s.ensurePersistentTaskSubmission a).2.billing = s.billing := by
  unfold ensurePersistentTaskSubmission
  split_ifs
  · rfl
  · cases s.world.tasks s.persistentTaskID with
    | none => rfl
    | some t =>
      dsimp only
      split_ifs <;> rfl
  · rfl
  · rfl

section
variable (h : Accounted s)
include h

theorem Accounted.relayTaskSubmit {a : Attempt} (hrun : s.closed = false)
    (hopen : OpensBeforeTask (.attempt a) s) (hwal : WalletFunded (.attempt a) s) :
    Kept s (s.relayTaskSubmit a) := by
  have hpre := h.preConsumeBilling hrun hopen hwal
  obtain ⟨hcl, -, -, hfree⟩ := preConsumeBilling_flags s a
  unfold SubmissionState.relayTaskSubmit
  cases hr : s.preConsumeBilling a with
  | mk r s' =>
    rw [hr] at hpre hcl hfree
    cases r with
    | error e => exact hpre
    | ok u =>
      have hrow := hpre.ensurePersistent (hcl.trans hrun) a
      have hbill := ensurePersistent_flags s' a
      dsimp only
      cases hr' : s'.ensurePersistentTaskSubmission a with
      | mk r' s'' =>
        rw [hr'] at hrow hbill
        cases r' with
        | error e => exact hpre.trans hrow
        | ok u' =>
          refine { hpre.trans hrow with
            row := fun hne => ?_, copies := fun t ht => ?_, result := ?_ }
          · obtain ⟨t, ht, hown⟩ := hrow.row hne
            exact ⟨t, ht, { hown with }⟩
          · obtain ⟨hne, hcopy⟩ := hrow.copies t ht
            exact ⟨hne, { hcopy with }⟩
          · -- without a session the attempt was free, and so is its result
            intro hnone res a' hres
            rw [hbill] at hnone
            obtain ⟨res', hsome, heq⟩ := Option.map_eq_some_iff.mp hres
            cases heq
            exact a.free (hfree rfl hnone) res hsome

theorem Accounted.close {billing : Option BillingSession}
    {work : List RefundAction} (hwork : work ≠ [] → s.persistentTaskID = 0)
    (hnone : billing = none → s.billing = none) :
    Kept s { s with closed := true, billing := billing, work := work } := by
  refine ⟨⟨by simp, h.persistent, h.source, fun hne => ⟨hwork hne, rfl⟩, by simp,
    fun hne => ?_, fun t ht => ?_, fun hb => h.result (hnone hb)⟩, rfl, rfl⟩
  · obtain ⟨t, ht, hown⟩ := h.row hne
    exact ⟨t, ht, ⟨hown.id, hown.userId, hown.wallet⟩, hown.net, hown.refunded,
      fun hsub hb => hown.free hsub (hnone hb)⟩
  · obtain ⟨hne, hcopy⟩ := h.copies t ht
    exact ⟨hne, { hcopy with }⟩

theorem Accounted.giveUp : Kept s (s.step .giveUp) := by
  have hidle : s.work ≠ [] → s.persistentTaskID = 0 := fun hne => (h.work hne).1
  rw [SubmissionState.step]
  split_ifs with hdone hpid
  · exact h.same
  · cases hbill : s.billing with
    | none => exact h.close hidle fun _ => hbill
    | some session => exact h.close (fun _ => hpid) (by simp)
  · cases hbill : s.billing with
    | none => exact h.close hidle fun _ => hbill
    | some session => exact h.close hidle (by simp)

theorem Accounted.refundWork (env : Env) : Kept s (s.step (.refundWork env)) := by
  rw [SubmissionState.step]
  cases hw : s.work with
  | nil => exact h.same
  | cons action rest =>
    obtain ⟨hpid, hcl⟩ := h.work (by simp [hw])
    have hnot : ¬ s.closed = false := by simp [hcl]
    exact ⟨⟨fun _ hopen => absurd hopen hnot, h.persistent, h.source,
      fun _ => ⟨hpid, hcl⟩, fun _ hopen => absurd hopen hnot, fun hne => absurd hpid hne,
      fun t ht => absurd hpid (h.copies t ht).1, h.result⟩, rfl, funds_charge s _⟩

theorem Accounted.load : Kept s (s.step .load) := by
  rw [SubmissionState.step]
  split_ifs with hpid
  · exact h.same
  obtain ⟨t, ht, hown⟩ := h.row hpid
  rw [ht]
  refine { h.same with row := fun _ => ?_, copies := fun c hc => ?_ }
  · exact ⟨t, ht, { hown with }⟩
  · rcases List.mem_append.mp hc with hc | hc
    · obtain ⟨hne, hcopy⟩ := h.copies c hc
      exact ⟨hne, { hcopy with }⟩
    · rw [List.mem_singleton] at hc
      subst hc
      exact ⟨hpid, { hown with }⟩

theorem Accounted.other (op : LedgerOp) : Accounted (s.step (.other op)) := by
  have hkept := RowsKept.of_effect (op.effect s.world)
  refine { h with
    fresh := hkept.nextTaskId ▸ h.fresh, row := fun hne => ?_, copies := fun t ht => ?_ }
  · obtain ⟨t, ht, hown⟩ := h.row hne
    refine ⟨t, ?_, { hown with }⟩
    exact hkept.tasks ▸ ht
  · obtain ⟨hne, hcopy⟩ := h.copies t ht
    exact ⟨hne, { hcopy with }⟩

end

/-- Step lemma: every step that meets the conditions keeps the request accounted for, and only
the steps of others move its user's money. -/
theorem Accounted.step {call : SubmissionCall} (hopen : OpensBeforeTask call s)
    (hwal : WalletFunded call s) (h : Accounted s) :
    Accounted (s.step call) ∧ (s.step call).info.userId = s.info.userId ∧
      (s.step call).funds s.info.userId =
        s.funds s.info.userId + movedByOthers s.info.userId call s := by
  have hown {s' : SubmissionState} (hkept : Kept s s') : Accounted s' ∧
      s'.info.userId = s.info.userId ∧ s'.funds s.info.userId = s.funds s.info.userId + 0 :=
    ⟨hkept.toAccounted, hkept.user, hkept.funds.trans (add_zero _).symm⟩
  cases call with
  | attempt a =>
    rw [SubmissionState.step]
    split_ifs with hdone
    · exact hown h.same
    · simp only [Bool.or_eq_true, not_or, Bool.not_eq_true] at hdone
      exact hown (h.relayTaskSubmit hdone.1 hopen hwal)
  | giveUp => exact hown h.giveUp
  | refundWork env => exact hown (h.refundWork env)
  | load => exact hown h.load
  | complete n env =>
    rw [SubmissionState.step]
    cases hres : s.result with
    | none => exact hown h.same
    | some p => exact hown (h.write env n (fun _ => rfl) fun t hel hrow =>
      hrow.completed h (of_decide_eq_true hel) hres)
  | fail n env reason upstreamError =>
    rw [SubmissionState.step]
    split_ifs
    · exact hown (h.write env n (fun _ => rfl) fun t _ hrow => hrow.failedWithRefund _ _ _)
    · exact hown h.same
  | sweep n env cutoff reason legacyReason =>
    refine hown (h.write env n (fun t => ?_) fun t _ hrow => hrow.timedOut _ _ _)
    unfold Task.timedOut
    split_ifs <;> rfl
  | recover n env cutoff reason =>
    exact hown (h.write env n (fun _ => rfl) fun t _ hrow => hrow.failedWithRefund _ _ _)
  | finish n env e =>
    refine hown (h.write env n (fun t => ?_) fun t _ hrow => hrow.ended e)
    obtain ⟨target, heq⟩ := prepareTaskFinalBilling_keeps e.pricing
      { t with status := e.status, progress := "100%", finishTime := e.now
               failReason := e.failReason } e.result
    rw [Task.ended, heq]
  | applyPending n c reason => exact hown (h.applyPending n c reason)
  | scheduleRetry n env nextRetryAt lastError =>
    exact hown (h.scheduleRetry n env nextRetryAt lastError)
  | other op =>
    refine ⟨h.other op, rfl, ?_⟩
    simp only [SubmissionState.step, SubmissionState.funds, movedByOthers]
    omega

end Steps

theorem Accounted.start {info : RelayInfo} {w : World} (publicTaskID : String)
    (hid : 0 < w.nextTaskId) (hsrc : info.billingSource ≠ .subscription) :
    Accounted (.start info publicTaskID w) where
  fresh _ _ := hid
  persistent := le_rfl
  source := hsrc
  work hne := absurd rfl hne
  unowned _ _ := rfl
  row hne := absurd rfl hne
  copies t ht := by cases ht
  result _ r a hres := by cases hres

/-- In every run of a wallet-funded task request in which no attempt opens the billing
session after the row was inserted, the wallet has paid, apart from what others moved, the
quota that the row records, which is zero once the row is refunded. -/
theorem taskFunds_conserved (info : RelayInfo) (publicTaskID : String) (w : World)
    (calls : List SubmissionCall) (hid : 0 < w.nextTaskId)
    (hsource : info.billingSource ≠ .subscription)
    (hopen : Along SubmissionState.step OpensBeforeTask calls (.start info publicTaskID w))
    (hwallet : Along SubmissionState.step WalletFunded calls (.start info publicTaskID w)) :
    let s := run SubmissionState.step calls (.start info publicTaskID w)
    s.persistentTaskID ≠ 0 → ∃ t, s.world.tasks s.persistentTaskID = some t ∧
      w.reconciled .userQuota info.userId +
          total SubmissionState.step (movedByOthers info.userId) calls
            (.start info publicTaskID w) -
        s.world.reconciled .userQuota info.userId = t.quota ∧
      (t.billingStatus = .refunded → t.quota = 0) := by
  intro s hpid
  have hsteps : ∀ call s, OpensBeforeTask call s ∧ WalletFunded call s →
      Accounted s ∧ s.info.userId = info.userId →
      Accounted (s.step call) ∧ (s.step call).info.userId = info.userId := by
    rintro call s ⟨hopen, hwallet⟩ ⟨h, huser⟩
    obtain ⟨hinv, hsame, -⟩ := h.step hopen hwallet
    exact ⟨hinv, hsame.trans huser⟩
  have hst : Accounted (.start info publicTaskID w) ∧ info.userId = info.userId :=
    ⟨.start publicTaskID hid hsource, rfl⟩
  have hinv : Accounted s := (run_invariant hsteps (hopen.and hwallet) hst).1
  have hfunds : s.funds info.userId = w.reconciled .userQuota info.userId + 0 +
      total SubmissionState.step (movedByOthers info.userId) calls (.start info publicTaskID w) := by
    refine (total_iff_along _ (funds info.userId) _ calls _).mpr ?_ calls List.prefix_rfl
    refine ((hopen.and hwallet).and_invariant hsteps hst).imp fun call s hok => ?_
    obtain ⟨⟨hopen, hwallet⟩, h, huser⟩ := hok
    rw [← huser]
    exact (h.step hopen hwallet).2.2
  obtain ⟨t, ht, hown⟩ := hinv.row hpid
  have hnet := hown.net
  refine ⟨t, ht, ?_, hown.refunded⟩
  simp only [funds] at hfunds
  omega

/-- An attempt on channel 2 at the price, which the upstream accepts at the same price or
rejects. -/
def sampleAttempt (price : PriceData) (accepted : Bool) : Attempt where
  channel :=
    { channelId := 2, channelType := .other, apiKey := "k", upstreamEndpoint := ""
      upstreamModelName := "m", nextPollAt := none }
  platform := "video"
  group := "default"
  action := "generate"
  originModelName := "m"
  billingContext := { originModelName := "m", perCallBilling := true }
  price := price
  result := if accepted then some
    { upstreamTaskID := "u1", taskData := "", platform := "video", quota := price.quota } else none
  free hfree r hr := by
    cases accepted with
    | false => cases hr
    | true =>
      cases hr
      exact price.free hfree
  openEnv := .calm
  env := .calm 1

def freePrice : PriceData := ⟨0, true, le_rfl, fun _ => rfl⟩

def paidPrice (quota : ℕ) : PriceData := ⟨quota, false, by simp, by simp⟩

/-- The sample accounts, with the channel of the attempts, and a request paid from the
wallet. -/
def sampleShop : World :=
  { sampleAccounts with channels := sampleAccounts.channels.put 2 { usedQuota := 0 } }

def walletInfo : RelayInfo := { sampleInfo with billingPreference := "wallet_only" }

/-- A rejected attempt at 4, one accepted at 3, the settlement of the submission from one
copy twice, and a failure that refunds the rest, with a foreign debit in between. -/
def sampleSubmission : List SubmissionCall :=
  [.attempt (sampleAttempt (paidPrice 4) false), .attempt (sampleAttempt (paidPrice 3) true),
    .load, .complete 0 (.calm 2), .fail 0 (.calm 2) "late" none, .load,
    .applyPending 1 .calm "", .applyPending 1 .calm "", .other (.decreaseUser (.calm 3) 1 2),
    .load, .sweep 2 (.calm 9) 9 "timeout" "legacy", .load, .applyPending 3 .calm ""]

theorem taskFunds_conserved_sample :
    let s := run SubmissionState.step sampleSubmission (.start walletInfo "task_1" sampleShop)
    s.persistentTaskID = 1 ∧ (s.world.tasks 1).map Task.billingStatus = some .refunded ∧
      ∃ t, s.world.tasks s.persistentTaskID = some t ∧ sampleShop.reconciled .userQuota 1 +
            total SubmissionState.step (movedByOthers 1) sampleSubmission
              (.start walletInfo "task_1" sampleShop) -
          s.world.reconciled .userQuota 1 = t.quota ∧
        (t.billingStatus = .refunded → t.quota = 0) :=
  ⟨by decide, by decide, taskFunds_conserved walletInfo "task_1" sampleShop sampleSubmission
    (by decide) (by decide) (by decide) (by decide) (by decide)⟩

/-- A free attempt inserts the row with quota 0; the next attempt, in another group, costs
4 and opens the session. Both are rejected, and the row is refunded from its quota 0: the
wallet has lost 4. -/
theorem free_then_paid_attempt_loses_funds :
    let s := run SubmissionState.step
      [.attempt (sampleAttempt freePrice false), .attempt (sampleAttempt (paidPrice 4) false),
        .giveUp, .load, .fail 0 (.calm 2) "rejected" none, .load, .applyPending 1 .calm ""]
      (.start walletInfo "task_1" sampleShop)
    s.persistentTaskID = 1 ∧ s.work = [] ∧
      (s.world.tasks 1).map (fun t => (t.billingStatus, t.quota)) = some (.refunded, 0) ∧
      s.world.reconciled .userQuota 1 = sampleShop.reconciled .userQuota 1 - 4 := by
  decide

end NewApi
