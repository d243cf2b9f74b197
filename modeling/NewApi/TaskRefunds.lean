import NewApi.FinishedTasks

/-!
# The refund of a failed task goes through

A failed task waits in `FINALIZE_PENDING` with a target of zero until one transaction
returns what was paid. Each statement of that transaction insists on the rows it touches,
so it is shown statement by statement that the rows are there. The usage counters insist
on the row of the channel too, and administrators may delete channels. What is missing then
stays missing: every later attempt fails as well.
-/
namespace NewApi

/-- A failed task that waits for its refund, with the rows that it was charged on. -/
structure Refundable (t : Task) (w : World) : Prop where
  id : 0 < t.id
  userId : 0 < t.userId
  row : w.tasks t.id = some t
  billing : t.billingStatus = .finalizePending
  target : t.billingTargetQuota = 0
  status : t.status = .failure
  paid : 0 ≤ t.quota
  user : ∃ u, w.users t.userId = some u
  token : t.withToken = true → ∃ r, w.tokens t.privateData.tokenId = some r
  subscription : t.isSubscription = true →
    ∃ s, w.subscriptions t.privateData.subscriptionId = some s

/-- The channel is still there, unless nothing was paid; no event was written for the task;
the pre-consumption under its request, if any, is its own; and where there is a cache, the
token is the user's and has a key. -/
structure RefundUnhindered (redis : Bool) (t : Task) (w : World) : Prop where
  channel : t.quota ≠ 0 → ∃ c, w.channels t.channelId = some c
  event : ∀ e ∈ w.events, e.eventID ≠ finalizeEventID t.id ∧ e.taskRecordID ≠ t.id
  record : t.RecordOwned w
  key : redis = true → t.withToken = true →
    ∃ r, w.tokens t.privateData.tokenId = some r ∧ r.userId = t.userId ∧ r.key ≠ ""

/-- The subscription got its quota back before, by the refund of the pre-consumption. -/
def Task.refundClaimed (t : Task) (w : World) : Bool :=
  t.isSubscription && !t.privateData.requestId.toList.all isSpace &&
    (w.preConsumeRecords t.privateData.requestId).any fun r => decide (r.status = .refunded)

theorem Refundable.delta {t : Task} {w : World} (h : Refundable t w) :
    t.billingDelta = -t.quota := by
  rw [Task.billingDelta, h.target, zero_sub]

section Refund
variable {env : Env} {t : Task} {w : World}

section
variable (hcalm : ∀ i, env.fault i = false)
include hcalm

/-- The subscription is adjusted by whoever claims the refund first. -/
theorem claimsSubscription_calm (htgt : t.billingTargetQuota = 0) (hown : t.RecordOwned w) :
    ∃ w₁, claimsSubscription env t .finalizePending .refunded w =
      .ok (decide (t.billingDelta ≠ 0) && !t.refundClaimed w, w₁) := by
  unfold claimsSubscription
  split_ifs with hclaims
  · obtain ⟨hsub, -, -, -, hbl⟩ := hclaims
    have hreq : t.privateData.requestId ≠ "" := by
      intro hemp
      rw [hemp] at hbl
      cases hbl
    obtain ⟨claim, w₁, hclm⟩ := claimSubscriptionPreConsumeRefundTx_calm (w := w) hcalm hreq
      fun r hr => ⟨fun h => h.2 ((hown hsub hbl r hr).1 h.1), fun h => h.2 (hown hsub hbl r hr).2⟩
    refine ⟨w₁, ?_⟩
    rw [Tx.bind_eq_ok]
    refine ⟨claim, w₁, hclm, ?_⟩
    obtain ⟨hrec, hcas⟩ := claimSubscriptionPreConsumeRefundTx_ok hclm
    unfold Task.refundClaimed
    rw [hsub, hbl, ← hrec]
    cases hr : claim.record with
    | none => simp
    | some r =>
      rw [hr] at hcas
      obtain ⟨-, -, ⟨hst, hc, -⟩ | ⟨hst, hc, -⟩⟩ := hcas <;> simp [hst, hc]
  · refine ⟨w, ?_⟩
    have hnone : t.refundClaimed w = false := by
      by_contra hne
      simp only [Task.refundClaimed, Bool.not_eq_false, Bool.and_eq_true, Bool.not_eq_true'] at hne
      exact hclaims ⟨hne.1.1, rfl, rfl, htgt, hne.1.2⟩
    rw [hnone, Bool.not_false, Bool.and_true]
    rfl

end

/-- The subscription after the refund: given back once, by whoever claims it. -/
def Task.subscriptionsRefunded (t : Task) (adjust : Bool) (w : World) : Table ℤ UserSubscription :=
  if t.isSubscription && adjust then
    w.subscriptions.modify t.privateData.subscriptionId (UserSubscription.moveUsed t.billingDelta)
  else w.subscriptions

section
variable (hcalm : ∀ i, env.fault i = false)
include hcalm

theorem moveFunding_calm (adjust : Bool)
    (hdlt : t.billingDelta ≤ 0) (huser : ∃ u, w.users t.userId = some u)
    (hsub : t.isSubscription = true → ∃ s, w.subscriptions t.privateData.subscriptionId = some s) :
    ∃ w', moveFunding env t adjust w = .ok ((), w') ∧
      w'.subscriptions = t.subscriptionsRefunded adjust w ∧ ∃ u, w'.users t.userId = some u := by
  unfold moveFunding Task.subscriptionsRefunded
  cases hs : t.isSubscription with
  | false =>
    exact ⟨_, adjustUserQuota_eq_ok.mpr ⟨hcalm _, huser, rfl⟩, rfl, Table.exists_modify huser _ _⟩
  | true =>
    cases adjust with
    | false => exact ⟨w, rfl, rfl, huser⟩
    | true =>
      exact ⟨_, adjustTaskSubscriptionQuota_calm hcalm hdlt (hsub hs), rfl, huser⟩

theorem moveTaskFunds_calm (adjust : Bool)
    (hdlt : t.billingDelta ≤ 0) (hadjust : adjust = true → t.billingDelta ≠ 0)
    (huser : ∃ u, w.users t.userId = some u)
    (htoken : t.withToken = true → ∃ r, w.tokens t.privateData.tokenId = some r)
    (hsub : t.isSubscription = true → ∃ s, w.subscriptions t.privateData.subscriptionId = some s) :
    ∃ w', moveTaskFunds env t adjust w = .ok ((), w') ∧
      w'.subscriptions = t.subscriptionsRefunded adjust w ∧ ∃ u, w'.users t.userId = some u := by
  unfold moveTaskFunds
  split_ifs with hzero
  · have hkept : adjust = false := by
      by_contra hne
      exact hadjust (by simpa using hne) hzero
    refine ⟨w, rfl, ?_, huser⟩
    rw [Task.subscriptionsRefunded, hkept, Bool.and_false]
    rfl
  obtain ⟨w₁, hfund, hsubs, husers⟩ := moveFunding_calm hcalm adjust hdlt huser hsub
  have hframe := (moveFunding_ok hfund).2.2
  cases htok : t.withToken with
  | false => exact ⟨w₁, Tx.bind_eq_ok.mpr ⟨(), w₁, hfund, rfl⟩, hsubs, husers⟩
  | true =>
    have hrow : ∃ r, w₁.tokens t.privateData.tokenId = some r := by
      rw [hframe]
      exact htoken htok
    let moved := w₁.tokens.modify t.privateData.tokenId (Token.addQuota env.now (-t.billingDelta))
    refine ⟨{ w₁ with tokens := moved }, Tx.bind_eq_ok.mpr ⟨(), w₁, hfund, ?_⟩, hsubs, husers⟩
    exact adjustTokenQuota_eq_ok.mpr ⟨hcalm _, hrow, rfl⟩

theorem applyTaskBillingUsageDelta_calm
    {userID channelID delta : ℤ} (huser : ∃ u, w.users userID = some u)
    (hchan : delta ≠ 0 → ∃ c, w.channels channelID = some c) :
    ∃ w', applyTaskBillingUsageDelta env userID channelID delta w = .ok ((), w') ∧
      w'.events = w.events := by
  unfold applyTaskBillingUsageDelta
  split_ifs with hzero
  · exact ⟨w, rfl, rfl⟩
  obtain ⟨u, hu⟩ := huser
  obtain ⟨c, hc⟩ := hchan hzero
  refine ⟨_, Tx.bind_eq_ok.mpr ⟨(), _, TableIn.updateOne_eq_ok.mpr
    ⟨hcalm _, ⟨u, hu, rfl⟩, rfl⟩, TableIn.updateOne_eq_ok.mpr ⟨hcalm _, ⟨c, hc, rfl⟩, rfl⟩⟩, rfl⟩

theorem finalizeTask_calm (payload : TaskBillingEventPayload)
    (huser : ∃ u, w.users t.userId = some u)
    (hchan : t.billingDelta ≠ 0 → ∃ c, w.channels t.channelId = some c)
    (hevent : ∀ e ∈ w.events, e.eventID ≠ finalizeEventID t.id ∧ e.taskRecordID ≠ t.id) :
    ∃ w', finalizeTask env t .refunded payload w = .ok (finalizeEventID t.id, w') := by
  have hrewa : ∃ w₁, reverseReferralRewards env t.id w = .ok ((), w₁) ∧
      w₁ = { w with rewards := w₁.rewards } := by
    refine ⟨_, (sql_bind_eq_ok _).mpr ⟨hcalm _, rfl⟩, rfl⟩
  obtain ⟨w₁, hrewa, h₁⟩ := hrewa
  have huser₁ : ∃ u, w₁.users t.userId = some u := by
    rw [h₁]
    exact huser
  have hchan₁ : t.billingDelta ≠ 0 → ∃ c, w₁.channels t.channelId = some c := by
    rw [h₁]
    exact hchan
  obtain ⟨w₂, husg, hev⟩ := applyTaskBillingUsageDelta_calm hcalm huser₁ hchan₁
  have heve : w₂.events = w.events := by rw [hev, h₁]
  have hcreate := createEvent_eq_ok.mpr
    ⟨hcalm _, heve ▸ hevent, (rfl : _ = { w₂ with events := _ ++ [t.finalEvent env.now payload] })⟩
  simp only [finalizeTask, decide_true, Tx.onlyIf_true, Tx.bind_eq_ok]
  exact ⟨_, (), w₁, hrewa, (), w₂, husg, (), _, hcreate, rfl⟩

theorem taskBillingOperation_calm (h : Refundable t w)
    (hfree : RefundUnhindered false t w) (payload : TaskBillingEventPayload) :
    ∃ w', taskBillingOperation env t .finalizePending .refunded (some payload) w =
        .ok (finalizeEventID t.id, w') ∧
      w'.subscriptions =
        t.subscriptionsRefunded (decide (t.billingDelta ≠ 0) && !t.refundClaimed w) w := by
  have hdlt : t.billingDelta ≤ 0 := by
    rw [h.delta]
    have := h.paid
    omega
  have hmat : BillingRowMatches t .finalizePending w := ⟨t, h.row, h.billing, rfl, rfl⟩
  obtain ⟨w₁, hw₁, hadva⟩ : ∃ w₁, w₁ = { w with
      tasks := w.tasks.modify t.id (Task.billed env.now .refunded t.billingTargetQuota) } ∧
      advanceBilling env t .finalizePending .refunded w = .ok ((), w₁) :=
    ⟨_, rfl, advanceBilling_eq_ok.mpr ⟨hcalm _, hmat, rfl⟩⟩
  obtain ⟨w₂, hclm⟩ := claimsSubscription_calm (w := w₁) hcalm h.target
    (by rw [hw₁]; exact hfree.record)
  have h₂ := claimsSubscription_ok hclm
  have hcla : t.refundClaimed w₁ = t.refundClaimed w := by
    rw [hw₁]
    rfl
  rw [hcla] at hclm
  obtain ⟨w₃, hmove, hsubs, husers⟩ := moveTaskFunds_calm (w := w₂) hcalm
    (decide (t.billingDelta ≠ 0) && !t.refundClaimed w) hdlt
    (fun hadjust => of_decide_eq_true (Bool.and_eq_true_iff.mp hadjust).1)
    (by rw [h₂, hw₁]; exact h.user) (by rw [h₂, hw₁]; exact h.token)
    (by rw [h₂, hw₁]; exact h.subscription)
  have h₃ := (moveTaskFunds_ok hmove).2.2
  obtain ⟨w₄, hfin⟩ := finalizeTask_calm (w := w₃) hcalm payload husers (by
      rw [h₃, h₂, hw₁, h.delta]
      exact fun hne => hfree.channel (neg_ne_zero.mp hne))
    (by rw [h₃, h₂, hw₁]; exact hfree.event)
  obtain ⟨-, -, -, h₄⟩ := finalizeTask_ok hfin
  refine ⟨w₄, ?_, ?_⟩
  · simp only [taskBillingOperation, Tx.bind_eq_ok]
    exact ⟨(), w₁, hadva, _, w₂, hclm, (), w₃, hmove, hfin⟩
  · have hsame : w₂.subscriptions = w.subscriptions := by rw [h₂, hw₁]
    rw [h₄]
    simp only [hsubs, Task.subscriptionsRefunded, hsame]

end

variable {c : BillingConditions}

theorem Refundable.of_rest {u : World} (h : Refundable t w)
    (hu : u = { w with users := u.users, tokens := u.tokens })
    (huser : ∃ r, u.users t.userId = some r)
    (htok : t.withToken = true → ∃ r, u.tokens t.privateData.tokenId = some r) :
    Refundable t u := by
  refine ⟨h.id, h.userId, ?_, h.billing, h.target, h.status, h.paid, huser, htok, ?_⟩
  · rw [hu]
    exact h.row
  · rw [hu]
    exact h.subscription

/-- What the transaction itself needs is in the tables that it does not move. -/
theorem RefundUnhindered.of_rest {u : World} {redis : Bool} (h : RefundUnhindered redis t w)
    (hu : u = { w with users := u.users, tokens := u.tokens }) : RefundUnhindered false t u := by
  rw [hu]
  exact ⟨h.channel, h.event, h.record, fun hred => by cases hred⟩

/-- The transaction commits, whatever deltas are pending for the wallet and the token. -/
theorem runTaskBilling_refunds {env : Env} (hcalm : ∀ i, env.fault i = false) (h : Refundable t w)
    (hfree : RefundUnhindered false t w) (payload : TaskBillingEventPayload) :
    ∃ w', runTaskBilling env t
        (taskBillingOperation env t .finalizePending .refunded (some payload)) w =
        (.ok (finalizeEventID t.id), w') ∧
      w'.subscriptions =
        t.subscriptionsRefunded (decide (t.billingDelta ≠ 0) && !t.refundClaimed w) w := by
  unfold runTaskBilling
  split_ifs with hsub htok
  · obtain ⟨v, hop, hsubs⟩ := taskBillingOperation_calm (w := w.foldPendingToken env.now
      t.privateData.tokenId) hcalm
      (h.of_rest rfl h.user fun htok => Table.exists_modify (h.token htok) _ _)
      (hfree.of_rest rfl) payload
    refine ⟨_, withReconciledTokenQuota_eq_ok.mpr ⟨hcalm _, .inr ⟨hcalm _, h.token htok⟩, v, hop,
      rfl⟩, hsubs⟩
  · obtain ⟨v, hop, hsubs⟩ := taskBillingOperation_calm hcalm h hfree payload
    exact ⟨v, commit_eq_ok.mpr ⟨hcalm _, hop⟩, hsubs⟩
  · have hrest := foldPending_rest env.now t.userId t.privateData.tokenId t.withToken w
    have hfold : Refundable t (w.foldPending env.now t.userId t.privateData.tokenId t.withToken) := by
      refine h.of_rest hrest ?_ fun htok => ?_
      · rw [foldPending_users]
        exact Table.exists_modify h.user _ _
      · rw [htok, foldPending_tokens]
        exact Table.exists_modify (h.token htok) _ _
    obtain ⟨v, hop, hsubs⟩ := taskBillingOperation_calm hcalm hfold (hfree.of_rest hrest) payload
    refine ⟨_, withReconciledWalletQuota_eq_ok.mpr ⟨hcalm _, .inr ⟨hcalm _, h.user⟩,
      fun htok => .inr ⟨hcalm _, h.token htok⟩, v, hop, rfl⟩, ?_⟩
    have hdrop : (v.dropPending t.userId t.privateData.tokenId t.withToken).subscriptions =
        v.subscriptions := by rw [dropPending_rest]
    have hwal := Bool.not_eq_true _ ▸ hsub
    simp only [Task.subscriptionsRefunded, hwal, Bool.false_and, Bool.false_eq_true,
      if_false] at hsubs ⊢
    rw [hdrop, hsubs, hrest]

def Task.refundMove (t : Task) : QuotaDelta :=
  (if t.isSubscription then 0 else .single .userQuota t.userId t.quota) +
    if t.withToken then .single .tokenQuota t.privateData.tokenId t.quota else 0

def Task.subscriptionRefunded (t : Task) (w : World) (s : UserSubscription) : UserSubscription :=
  if t.quota = 0 ∨ t.refundClaimed w = true then s else s.moveUsed (-t.quota)

/-- The quota is back where it was paid from, and the recovery does not take the task up
again. -/
structure Refunded (t : Task) (w w' : World) : Prop where
  moved : Moved w w' t.refundMove
  subscription : t.isSubscription = true →
    ∀ s, w.subscriptions t.privateData.subscriptionId = some s →
      w'.subscriptions t.privateData.subscriptionId = some (t.subscriptionRefunded w s)
  row : ∃ r, w'.tasks t.id = some r ∧ r.billingStatus = .refunded ∧ r.quota = 0 ∧
    ∀ now, r.isPendingBilling now = false

theorem getTokenByIds_eq_some {fails : Bool} {id userId : ℤ} {r : Token}
    (h : getTokenByIds fails id userId w = some r) : w.tokens id = some r ∧ r.userId = userId := by
  unfold getTokenByIds at h
  obtain ⟨-, hrow⟩ := Option.ite_none_left_eq_some.mp h
  obtain ⟨hr, howner⟩ := Option.filter_eq_some_iff.mp hrow
  exact ⟨hr, of_decide_eq_true (Bool.and_eq_true_iff.mp howner).1⟩

theorem getTokenKeyByIdsUnscoped_eq_some {fails : Bool} {id userId : ℤ} {key : String} :
    getTokenKeyByIdsUnscoped fails id userId w = some key ↔
      ¬ (fails = true ∨ id ≤ 0 ∨ userId ≤ 0) ∧
        ∃ r, w.tokens id = some r ∧ r.userId = userId ∧ r.key = key := by
  simp only [getTokenKeyByIdsUnscoped, Option.ite_none_left_eq_some, Option.map_eq_some_iff,
    Option.filter_eq_some_iff, decide_eq_true_eq, and_assoc]

/-- A key that was read is the one of a row of the user's. -/
theorem exists_of_resolveTokenKey (env : Env) (h : resolveTokenKey env t w ≠ "") :
    ∃ r, w.tokens t.privateData.tokenId = some r ∧ r.userId = t.userId ∧ r.key ≠ "" := by
  unfold resolveTokenKey at h
  split at h
  · rename_i token hfound
    obtain ⟨hr, howner⟩ := getTokenByIds_eq_some hfound
    exact ⟨token, hr, howner, h⟩
  · cases hkey : getTokenKeyByIdsUnscoped (env.fault 21) t.privateData.tokenId t.userId w with
    | none => exact absurd (by rw [hkey]; rfl) h
    | some key =>
      obtain ⟨-, r, hr, howner, rfl⟩ := getTokenKeyByIdsUnscoped_eq_some.mp hkey
      rw [hkey] at h
      exact ⟨r, hr, howner, h⟩

/-- The key of a soft-deleted token is found by the second read. -/
theorem resolveTokenKey_calm {env : Env} (hcalm : ∀ i, env.fault i = false) (huser : 0 < t.userId)
    (htok : t.withToken = true) {r : Token} (hr : w.tokens t.privateData.tokenId = some r)
    (howner : r.userId = t.userId) : resolveTokenKey env t w = r.key := by
  have hid : 0 < t.privateData.tokenId := of_decide_eq_true htok
  have hread : ¬ (env.fault 21 = true ∨ t.privateData.tokenId ≤ 0 ∨ t.userId ≤ 0) := by
    rw [hcalm]
    rintro (hfault | hle | hle)
    · cases hfault
    · omega
    · omega
  have hkey := getTokenKeyByIdsUnscoped_eq_some.mpr ⟨hread, r, hr, howner, rfl⟩
  unfold resolveTokenKey
  split
  · rename_i token hfound
    have hsame := (getTokenByIds_eq_some hfound).1.symm.trans hr
    cases hsame
    rfl
  · rw [hkey]
    rfl

theorem refund_calm (c : BillingConditions) (t : Task) (reason : String) (w : World)
    (hcalm : ∀ i, c.env.fault i = false) (h : Refundable t w)
    (hfree : RefundUnhindered c.redisEnabled t w) :
    ∃ w', applyPendingTaskBilling c t reason w =
        (.ok true, { t with quota := 0, billingStatus := .refunded }, w') ∧ Refunded t w w' := by
  have hnext : pendingTransition t = some .refunded := by
    simp [pendingTransition, h.billing, h.status, h.target]
  have hpayl : pendingPayload c t reason = some (finalPayload c t reason) := if_pos h.billing
  have hrefu : taskBillingRefusal t .finalizePending .refunded
      (some (finalPayload c t reason)) = none := by
    have hid : ¬ t.id ≤ 0 := not_le.mpr h.id
    simp [taskBillingRefusal, hid, h.target]
  obtain ⟨w', hrun, hsubs⟩ := runTaskBilling_refunds hcalm h (hfree.of_rest rfl)
    (finalPayload c t reason)
  have hb := runTaskBilling_ok hrun
  have hguard : ¬ (c.redisEnabled = true ∧ 0 < t.privateData.tokenId ∧
      resolveTokenKey c.env t w = "") := by
    rintro ⟨hred, hid, hmiss⟩
    have htok : t.withToken = true := decide_eq_true hid
    obtain ⟨r, hr, howner, hkey⟩ := hfree.key hred htok
    exact hkey ((resolveTokenKey_calm hcalm h.userId htok hr howner).symm.trans hmiss)
  refine ⟨w', ?_, ?_, fun hsub s hs => ?_, ?_⟩
  · rw [applyPendingTaskBilling, hnext]
    dsimp only
    rw [if_neg hguard, h.billing, hpayl, applyTaskBilling, hrefu]
    rw [hrun]
    simp [h.target]
  · have hmove : t.refundMove = t.billingMove := by
      rw [Task.refundMove, Task.billingMove, h.delta, neg_neg]
    rw [hmove]
    exact hb.moved
  · rw [hsubs, Task.subscriptionsRefunded, hsub, Bool.true_and, Task.subscriptionRefunded, h.delta]
    by_cases hzero : t.quota = 0
    · simp [hzero, hs]
    · cases hclm : t.refundClaimed w <;> simp [hzero, hs]
  · refine ⟨t.billed c.env.now .refunded t.billingTargetQuota, ?_, rfl, h.target, fun now => rfl⟩
    rw [hb.tasks, Table.modify_self, h.row]
    rfl

/-- Whatever statements fail, an attempt that commits found everything it needs. -/
theorem unhindered_of_refund {c : BillingConditions} {reason : String} (h : Refundable t w)
    (happ : (applyPendingTaskBilling c t reason w).1 = .ok true) :
    RefundUnhindered c.redisEnabled t w := by
  rcases applyPendingTaskBilling_cases c t reason w with ⟨-, hnot⟩ | ⟨next, w', hnext, -, hb, -⟩
  · exact absurd happ hnot
  have hsome : pendingPayload c t reason = some (finalPayload c t reason) := if_pos h.billing
  have hrefunded : next = .refunded := by
    simpa [pendingTransition, h.billing, h.status, h.target, eq_comm] using hnext
  refine ⟨fun hpaid => ?_, hb.first (by simp [hsome]), hb.owned h.billing hrefunded h.target,
    fun hred htok => ?_⟩
  · refine hb.usage.channelRow (by simp [hsome]) ?_
    rw [h.delta]
    exact neg_ne_zero.mpr hpaid
  · refine exists_of_resolveTokenKey c.env fun hmiss => ?_
    rw [applyPendingTaskBilling, hnext] at happ
    dsimp only at happ
    rw [if_pos ⟨hred, of_decide_eq_true htok, hmiss⟩] at happ
    cases happ

/-- Without database faults the refund of a failed task commits exactly if nothing hinders
it. If something does, every attempt fails, whatever its conditions, and leaves the database
as it was, so that the recovery tries for ever. -/
theorem failedTask_refunded (c : BillingConditions) (t : Task) (reason : String) (w : World)
    (hcalm : ∀ i, c.env.fault i = false) (h : Refundable t w) :
    (RefundUnhindered c.redisEnabled t w ↔ ∃ w', applyPendingTaskBilling c t reason w =
        (.ok true, { t with quota := 0, billingStatus := .refunded }, w') ∧ Refunded t w w') ∧
      (¬ RefundUnhindered c.redisEnabled t w → ∀ c' : BillingConditions, ∀ reason',
        c'.redisEnabled = c.redisEnabled →
        (applyPendingTaskBilling c' t reason' w).1 ≠ .ok true ∧
          (applyPendingTaskBilling c' t reason' w).2.2 = w) := by
  refine ⟨⟨refund_calm c t reason w hcalm h, ?_⟩, fun hhind c' reason' hred => ?_⟩
  · rintro ⟨w', happ, -⟩
    exact unhindered_of_refund h (by rw [happ])
  · rcases applyPendingTaskBilling_cases c' t reason' w with
      ⟨hsame, hnot⟩ | ⟨next, w', -, -, -, happ⟩
    · exact ⟨hnot, by rw [hsame]⟩
    · have hfree := unhindered_of_refund h (by rw [happ])
      rw [hred] at hfree
      exact absurd hfree hhind

end Refund

def failedTask : Task :=
  { sampleTask with
    status := .failure, billingStatus := .finalizePending, quota := 5, billingTargetQuota := 0 }

/-- The rows that the task was charged on; channel 2, which it was submitted to, is deleted. -/
def orphanedWorld : World :=
  { World.empty with
    users := World.empty.users.put 1 ⟨10, 5, false⟩
    tokens := World.empty.tokens.put 7 ⟨1, 20, 5, false, 0, false, "k"⟩
    tasks := World.empty.tasks.put 1 failedTask
    nextTaskId := 2 }

theorem failedTask_refundable (channels : Table ℤ Channel) :
    Refundable failedTask { orphanedWorld with channels := channels } :=
  ⟨by decide, by decide, rfl, rfl, rfl, rfl, by decide, ⟨_, rfl⟩, fun _ => ⟨_, rfl⟩,
    fun h => by cases h⟩

theorem failedTask_refunded_sample : ∃ w', applyPendingTaskBilling .calm failedTask "failed"
        { orphanedWorld with channels := orphanedWorld.channels.put 2 ⟨5⟩ } =
        (.ok true, { failedTask with quota := 0, billingStatus := .refunded }, w') := by
  obtain ⟨w', happ, -⟩ := (failedTask_refunded .calm failedTask "failed"
    { orphanedWorld with channels := orphanedWorld.channels.put 2 ⟨5⟩ } (fun _ => rfl)
    (failedTask_refundable _)).1.mp
    ⟨fun _ => ⟨_, rfl⟩, fun e he => absurd he List.not_mem_nil, fun h => (by cases h),
      fun h => (by cases h)⟩
  exact ⟨w', happ⟩

/-- The counter of the channel is part of the transaction. -/
theorem deleted_channel_blocks_refund : Refundable failedTask orphanedWorld ∧
      ∀ c reason, (applyPendingTaskBilling c failedTask reason orphanedWorld).1 ≠ .ok true := by
  refine ⟨failedTask_refundable _, fun c reason happ => ?_⟩
  obtain ⟨row, hrow⟩ := (unhindered_of_refund (failedTask_refundable _) happ).channel (by decide)
  cases hrow

end NewApi
