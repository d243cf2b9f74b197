import NewApi.TaskBilling

/-!
# What a billing step of a task does

Each statement of the billing transaction gets its inversion, and together they give
`Billed`: a committed step found the row as the copy says, advanced it, moved the wallet
and the token of the copy by its delta, and appended the task's first event in the final
phase. Every other outcome of a call leaves the state as it was.
-/
namespace NewApi

/-- What a billing step of the copy moves: the wallet of a wallet task, and the token. -/
def Task.billingMove (t : Task) : QuotaDelta :=
  (if t.isSubscription then 0 else .single .userQuota t.userId (-t.billingDelta)) +
    if t.withToken then .single .tokenQuota t.privateData.tokenId (-t.billingDelta) else 0

section Moves
variable {w w' : World}

/-- A write that changes neither a quota nor a pending delta moves nothing. -/
theorem moved_zero_of_quotas (hu : ∀ id, (w'.users id).map User.quota = (w.users id).map User.quota)
    (ht : w'.tokens = w.tokens) (hub : w'.userQuotaBatch = w.userQuotaBatch)
    (htb : w'.tokenQuotaBatch = w.tokenQuotaBatch) : Moved w w' 0 := by
  intro type id
  cases type with
  | tokenQuota =>
    simp [World.reconciled, World.rowQuota, World.pendingQuota, World.batchStore, ht, htb]
  | userQuota =>
    have hrow : (w'.users id).elim 0 User.quota = (w.users id).elim 0 User.quota := by
      have hid := hu id
      cases h : w.users id <;> cases h' : w'.users id <;> simp_all
    simpa [World.reconciled, World.rowQuota, World.pendingQuota, World.batchStore, hub] using hrow

variable {env : Env} {v : World} {d : QuotaDelta}

theorem moved_dropPending {userId tokenId : ℤ} {withToken : Bool} (hu : UserFolds env userId w)
    (ht : withToken = true → TokenFolds env tokenId w) (hub : v.userQuotaBatch = w.userQuotaBatch)
    (htb : v.tokenQuotaBatch = w.tokenQuotaBatch)
    (h : Moved (w.foldPending env.now userId tokenId withToken) v d) :
    Moved w (v.dropPending userId tokenId withToken) d := by
  cases withToken with
  | false => exact moved_dropPendingUser hu hub h
  | true =>
    have htok : Moved (w.foldPendingUser userId) (v.dropPendingToken tokenId) d :=
      moved_dropPendingToken (ht rfl) htb h
    exact moved_dropPendingUser (v := v.dropPendingToken tokenId) hu hub htok

end Moves

def World.userUsed (w : World) (id : ℤ) : ℤ := (w.users id).elim 0 User.usedQuota

def World.channelUsed (w : World) (id : ℤ) : ℤ := (w.channels id).elim 0 Channel.usedQuota

/-- The final phase adds the delta to the counters of the copy's user and channel, whose
row is there unless the delta is zero. The phase after submission leaves them alone. -/
structure UsageMoved (t : Task) (final : Bool) (w w' : World) : Prop where
  user : ∀ id, w'.userUsed id =
    w.userUsed id + if final = true ∧ id = t.userId then t.billingDelta else 0
  channel : ∀ id, w'.channelUsed id =
    w.channelUsed id + if final = true ∧ id = t.channelId then t.billingDelta else 0
  channelRow : final = true → t.billingDelta ≠ 0 → ∃ c, w.channels t.channelId = some c

section Calls
variable {w w' : World} {k d : ℤ}

theorem userUsed_modify {f : User → User} (hf : ∀ r, (f r).usedQuota = r.usedQuota + d)
    (hrow : d = 0 ∨ ∃ r, w.users k = some r) (hw : w'.users = w.users.modify k f) (id : ℤ) :
    w'.userUsed id = w.userUsed id + if id = k then d else 0 := by
  unfold World.userUsed
  rw [hw]
  exact Table.elim_modify hf fun _ => hrow

theorem userUsed_addQuota {q : ℤ} (hw : w'.users = w.users.modify k (User.addQuota q)) (id : ℤ) :
    w'.userUsed id = w.userUsed id := by
  rw [userUsed_modify (f := User.addQuota q) (d := 0) (fun r => (add_zero _).symm) (.inl rfl) hw]
  simp

theorem channelUsed_modify {f : Channel → Channel} (hf : ∀ r, (f r).usedQuota = r.usedQuota + d)
    (hrow : ∃ r, w.channels k = some r) (hw : w'.channels = w.channels.modify k f) (id : ℤ) :
    w'.channelUsed id = w.channelUsed id + if id = k then d else 0 := by
  unfold World.channelUsed
  rw [hw]
  exact Table.elim_modify hf fun _ => .inr hrow

theorem UsageMoved.of_eq {t : Task} {final : Bool} {u v : World} (h : UsageMoved t final u v)
    (hu : ∀ id, u.userUsed id = w.userUsed id) (huc : u.channels = w.channels)
    (hv : ∀ id, w'.userUsed id = v.userUsed id) (hvc : w'.channels = v.channels) :
    UsageMoved t final w w' := by
  have hused : u.channelUsed = w.channelUsed := by
    unfold World.channelUsed
    rw [huc]
  have hused' : w'.channelUsed = v.channelUsed := by
    unfold World.channelUsed
    rw [hvc]
  refine ⟨fun id => ?_, fun id => ?_, ?_⟩
  · rw [hv, h.user, hu]
  · rw [hused', h.channel, hused]
  · rw [← huc]
    exact h.channelRow

theorem UsageMoved.none (t : Task) (w : World) : UsageMoved t false w w :=
  ⟨fun _ => by simp, fun _ => by simp, fun h => by cases h⟩

variable {env : Env} {t : Task} {expected next : TaskBillingStatus}

/-- The row is as the copy says, with the expected billing status. -/
def BillingRowMatches (t : Task) (expected : TaskBillingStatus) (w : World) : Prop :=
  ∃ r, w.tasks t.id = some r ∧ r.billingStatus = expected ∧ r.quota = t.quota ∧
    r.billingTargetQuota = t.billingTargetQuota

variable {u : Unit}

theorem advanceBilling_eq_ok : advanceBilling env t expected next w = .ok (u, w') ↔
      env.fault 10 = false ∧ BillingRowMatches t expected w ∧ w' = { w with
          tasks := w.tasks.modify t.id (Task.billed env.now next t.billingTargetQuota) } := by
  simp [advanceBilling, TableIn.updateOne_eq_ok, BillingRowMatches, and_assoc]

/-- The pre-consumption under the request of a subscription task, if any, is the task's. -/
def Task.RecordOwned (t : Task) (w : World) : Prop :=
  t.isSubscription = true → t.privateData.requestId.toList.all isSpace = false →
    ∀ r, w.preConsumeRecords t.privateData.requestId = some r →
      (0 < t.userId → r.userId = t.userId) ∧ r.userSubscriptionId = t.privateData.subscriptionId

theorem Task.isSubscription_id {t : Task} (h : t.isSubscription = true) :
    0 < t.privateData.subscriptionId := by
  simp only [Task.isSubscription, Bool.and_eq_true, decide_eq_true_eq] at h
  exact h.2

variable {b : Bool}

theorem claimsSubscription_owned (h : claimsSubscription env t .finalizePending .refunded w =
    .ok (b, w')) (htarget : t.billingTargetQuota = 0) : t.RecordOwned w := by
  intro hsub hreq r hr
  unfold claimsSubscription at h
  rw [if_pos ⟨hsub, rfl, rfl, htarget, hreq⟩, Tx.bind_eq_ok] at h
  obtain ⟨claim, v, hclm, -⟩ := h
  obtain ⟨hrec, hcase⟩ := claimSubscriptionPreConsumeRefundTx_ok hclm
  rw [hrec, hr] at hcase
  exact ⟨hcase.1, hcase.2.1 (Task.isSubscription_id hsub)⟩

theorem claimsSubscription_ok (h : claimsSubscription env t expected next w = .ok (b, w')) :
    w' = { w with preConsumeRecords := w'.preConsumeRecords } := by
  unfold claimsSubscription at h
  split_ifs at h
  · rw [Tx.bind_eq_ok] at h
    obtain ⟨claim, v, hclm, h⟩ := h
    have hv : w' = v := by
      cases hrec : claim.record <;> simp [hrec] at h <;> exact h.2.symm
    subst hv
    obtain ⟨-, hcase⟩ := claimSubscriptionPreConsumeRefundTx_ok hclm
    cases hrec : claim.record with
    | none =>
      rw [hrec] at hcase
      obtain ⟨-, rfl⟩ := hcase
      rfl
    | some r =>
      rw [hrec] at hcase
      obtain ⟨-, -, ⟨-, -, rfl⟩ | ⟨-, -, rfl⟩⟩ := hcase <;> rfl
  · simp only [Tx.pure_eq_ok] at h
    rw [← h.2]

/-- The funding source of the copy moves by its delta. -/
theorem moveFunding_ok (h : moveFunding env t b w = .ok (u, w')) :
    Moved w w' (if t.isSubscription then 0 else .single .userQuota t.userId (-t.billingDelta)) ∧
      (∀ id, w'.userUsed id = w.userUsed id) ∧
      w' = { w with users := w'.users, subscriptions := w'.subscriptions } := by
  unfold moveFunding at h
  cases hsub : t.isSubscription with
  | false =>
    rw [hsub, if_neg Bool.false_ne_true, adjustUserQuota_eq_ok] at h
    obtain ⟨-, ⟨r, hr⟩, rfl⟩ := h
    exact ⟨by simpa using moved_userRow hr (-t.billingDelta), userUsed_addQuota rfl, rfl⟩
  | true =>
    rw [hsub, if_pos rfl] at h
    cases b with
    | false =>
      cases h
      exact ⟨Moved.refl w, fun _ => rfl, rfl⟩
    | true =>
      obtain ⟨-, -, rfl⟩ := adjustTaskSubscriptionQuota_eq_ok.mp h
      exact ⟨moved_zero_of_quotas (fun _ => rfl) rfl rfl rfl, fun _ => rfl, rfl⟩

theorem moveTaskFunds_ok (h : moveTaskFunds env t b w = .ok (u, w')) :
    Moved w w' t.billingMove ∧ (∀ id, w'.userUsed id = w.userUsed id) ∧
      w' = { w with users := w'.users, tokens := w'.tokens, subscriptions := w'.subscriptions } := by
  unfold moveTaskFunds at h
  split_ifs at h with hd
  · cases h
    exact ⟨by simpa [Task.billingMove, hd] using Moved.refl w, fun _ => rfl, rfl⟩
  rw [Tx.bind_eq_ok] at h
  obtain ⟨⟨⟩, v, hfund, h⟩ := h
  obtain ⟨hmv, hused, hv⟩ := moveFunding_ok hfund
  unfold Task.billingMove
  cases htok : t.withToken with
  | false =>
    rw [htok] at h
    cases h
    exact ⟨by simpa using hmv, hused, by rw [hv]⟩
  | true =>
    rw [htok, Tx.onlyIf_true, adjustTokenQuota_eq_ok] at h
    obtain ⟨-, ⟨r, hr⟩, rfl⟩ := h
    refine ⟨hmv.trans (moved_tokenRow hr env.now (-t.billingDelta)), hused, ?_⟩
    rw [hv]

variable {id : String}

theorem createEvent_eq_ok {event : TaskBillingEvent} :
    createEvent env event w = .ok ((), w') ↔ env.fault 14 = false ∧
      (∀ e ∈ w.events, e.eventID ≠ event.eventID ∧ e.taskRecordID ≠ event.taskRecordID) ∧
        w' = { w with events := w.events ++ [event] } := by
  rw [createEvent, sql_bind_eq_ok, Tx.read_bind]
  split_ifs with hdup
  · obtain ⟨e, he, hsame⟩ := List.any_eq_true.mp hdup
    refine iff_of_false (by simp) fun ⟨_, hfree, _⟩ => ?_
    simp [hfree e he] at hsame
  · have hfree := List.any_eq_false.mp (Bool.eq_false_of_not_eq_true hdup)
    simp only [Bool.or_eq_true, beq_iff_eq, not_or] at hfree
    refine and_congr_right fun _ => ⟨fun h => ⟨hfree, ?_⟩, fun h => h.2 ▸ rfl⟩
    cases h
    rfl

/-- The final phase inserts the task's first event, and moves no quota. -/
theorem finalizeTask_ok {payload : TaskBillingEventPayload}
    (h : finalizeTask env t next payload w = .ok (id, w')) :
    (∀ e ∈ w.events, e.eventID ≠ finalizeEventID t.id ∧ e.taskRecordID ≠ t.id) ∧
      Moved w w' 0 ∧ UsageMoved t true w w' ∧ w' = { w with
        users := w'.users
        channels := w'.channels
        rewards := w'.rewards
        events := w.events ++ [t.finalEvent env.now payload] } := by
  unfold finalizeTask at h
  simp only [Tx.bind_eq_ok, Tx.pure_eq_ok] at h
  obtain ⟨⟨⟩, v₁, hrew, ⟨⟩, v₂, huse, ⟨⟩, v₃, hev, -, rfl⟩ := h
  have h₁ : v₁ = { w with rewards := v₁.rewards } := by
    unfold reverseReferralRewards at hrew
    by_cases hn : next = .refunded
    · simp only [hn, decide_true, Tx.onlyIf_true, sql_bind_eq_ok, Tx.modify_apply,
        Except.ok.injEq, Prod.mk.injEq, true_and] at hrew
      rw [← hrew.2]
    · simp only [hn, decide_false, Tx.onlyIf_false, Tx.pure_eq_ok, true_and] at hrew
      rw [← hrew]
  have h₂ : (∀ id, (v₂.users id).map User.quota = (v₁.users id).map User.quota) ∧
      UsageMoved t true v₁ v₂ ∧ v₂ = { v₁ with users := v₂.users, channels := v₂.channels } := by
    unfold applyTaskBillingUsageDelta at huse
    split_ifs at huse with hd
    · cases huse
      exact ⟨fun _ => rfl, ⟨fun _ => by simp [hd], fun _ => by simp [hd], fun _ hne => absurd hd hne⟩,
        rfl⟩
    rw [Tx.bind_eq_ok] at huse
    obtain ⟨⟨⟩, v, husers, hchan⟩ := huse
    rw [TableIn.updateOne_eq_ok] at husers hchan
    obtain ⟨-, ⟨r, hr, -⟩, rfl⟩ := husers
    obtain ⟨-, ⟨ch, hch, -⟩, rfl⟩ := hchan
    refine ⟨fun id => ?_, ⟨fun id => ?_, fun id => ?_, fun _ _ => ⟨ch, hch⟩⟩, rfl⟩
    rotate_left
    · rw [userUsed_modify (d := t.billingDelta) (fun _ => rfl) (.inr ⟨r, hr⟩) rfl id]
      simp
    · rw [channelUsed_modify (d := t.billingDelta) (fun _ => rfl) ⟨ch, hch⟩ rfl id]
      simp [World.channelUsed]
    by_cases hid : id = t.userId
    · subst hid
      cases hr : v₁.users t.userId <;> simp [hr]
    · simp [Table.modify_of_ne _ _ hid]
  obtain ⟨hqt, hused, h₂⟩ := h₂
  obtain ⟨-, hnone, h₃⟩ := createEvent_eq_ok.mp hev
  have heve : v₂.events = w.events := by rw [h₂, h₁]
  have husers : v₁.users = w.users := by rw [h₁]
  refine ⟨by rw [← heve]; exact hnone, ?_, ?_, ?_⟩
  · refine moved_zero_of_quotas (fun id => ?_) ?_ ?_ ?_
    · rw [h₃, ← husers]
      exact hqt id
    · rw [h₃, h₂, h₁]
    · rw [h₃, h₂, h₁]
    · rw [h₃, h₂, h₁]
  · exact hused.of_eq (fun _ => by rw [h₁]; rfl) (by rw [h₁]) (fun _ => by rw [h₃]; rfl)
      (by rw [h₃])
  · rw [h₃, h₂, h₁]

/-- What a committed billing step has done. -/
structure Billed (env : Env) (t : Task) (expected next : TaskBillingStatus)
    (payload : Option TaskBillingEventPayload) (w w' : World) : Prop where
  matched : BillingRowMatches t expected w
  tasks : w'.tasks = w.tasks.modify t.id (Task.billed env.now next t.billingTargetQuota)
  first : payload ≠ none →
    ∀ e ∈ w.events, e.eventID ≠ finalizeEventID t.id ∧ e.taskRecordID ≠ t.id
  owned : expected = .finalizePending → next = .refunded → t.billingTargetQuota = 0 →
    t.RecordOwned w
  events : w'.events = w.events ++ (payload.map (t.finalEvent env.now)).toList
  moved : Moved w w' t.billingMove
  usage : UsageMoved t payload.isSome w w'
  rest : w' = { w with
    users := w'.users
    tokens := w'.tokens
    channels := w'.channels
    subscriptions := w'.subscriptions
    preConsumeRecords := w'.preConsumeRecords
    tasks := w'.tasks
    events := w'.events
    rewards := w'.rewards
    userQuotaBatch := w'.userQuotaBatch
    tokenQuotaBatch := w'.tokenQuotaBatch }

theorem taskBillingOperation_ok {payload : Option TaskBillingEventPayload}
    (h : taskBillingOperation env t expected next payload w = .ok (id, w')) :
    Billed env t expected next payload w w' ∧ w'.userQuotaBatch = w.userQuotaBatch ∧
      w'.tokenQuotaBatch = w.tokenQuotaBatch := by
  unfold taskBillingOperation at h
  simp only [Tx.bind_eq_ok] at h
  obtain ⟨⟨⟩, v₁, hadv, b, v₂, hclm, ⟨⟩, v₃, hfund, hfin⟩ := h
  obtain ⟨-, hmatc, rfl⟩ := advanceBilling_eq_ok.mp hadv
  have h₂ := claimsSubscription_ok hclm
  have hown : expected = .finalizePending → next = .refunded → t.billingTargetQuota = 0 →
      t.RecordOwned w := by
    rintro rfl rfl htgt
    have hadvanced := claimsSubscription_owned hclm htgt
    exact hadvanced
  obtain ⟨hmv, hused, h₃⟩ := moveTaskFunds_ok hfund
  have hcts : ∀ id, v₃.userUsed id = w.userUsed id := by
    intro id
    rw [hused, h₂]
    rfl
  have hchs : v₃.channels = w.channels := by rw [h₃, h₂]
  have hzero : Moved w v₂ 0 := by
    refine moved_zero_of_quotas (fun _ => ?_) ?_ ?_ ?_ <;> rw [h₂]
  cases payload with
  | none =>
    simp only [Tx.pure_eq_ok] at hfin
    obtain ⟨-, rfl⟩ := hfin
    refine ⟨⟨hmatc, by rw [h₃, h₂], by simp, hown, by rw [h₃, h₂]; simp, ?_, ?_,
      by rw [h₃, h₂]⟩, by rw [h₃, h₂], by rw [h₃, h₂]⟩
    · simpa using hzero.trans hmv
    · exact (UsageMoved.none t v₃).of_eq hcts hchs (fun _ => rfl) rfl
  | some p =>
    obtain ⟨hfst, hfinal, husg, h₄⟩ := finalizeTask_ok hfin
    have hev : v₃.events = w.events := by rw [h₃, h₂]
    refine ⟨⟨hmatc, by rw [h₄, h₃, h₂], fun _ => by rw [← hev]; exact hfst, hown, ?_, ?_,
      ?_, by rw [h₄, h₃, h₂]⟩, by rw [h₄, h₃, h₂], by rw [h₄, h₃, h₂]⟩
    · rw [h₄, hev]
      rfl
    · simpa using (hzero.trans hmv).trans hfinal
    · exact husg.of_eq hcts hchs (fun _ => rfl) rfl

variable {payload : Option TaskBillingEventPayload}

theorem atomic_runTaskBilling {α : Type} (env : Env) (t : Task) (operation : DBTx α) :
    Atomic (runTaskBilling env t operation) :=
  (atomic_withReconciledTokenQuota.ite (atomic_commit _ _ _)).ite atomic_withReconciledWalletQuota

/-- A step that was billed between folding pending deltas in and dropping them. -/
theorem Billed.reconciled {u v : World} (hb : Billed env t expected next payload u v)
    (hu : u = { w with users := u.users, tokens := u.tokens })
    (hused : ∀ id, u.userUsed id = w.userUsed id)
    (hv : w' = { v with
      userQuotaBatch := w'.userQuotaBatch, tokenQuotaBatch := w'.tokenQuotaBatch })
    (hmv : Moved w w' t.billingMove) : Billed env t expected next payload w w' := by
  have htsk : u.tasks = w.tasks := by rw [hu]
  have hev : u.events = w.events := by rw [hu]
  have hsame : ∀ id, w'.userUsed id = v.userUsed id := by
    intro id
    rw [hv]
    rfl
  refine ⟨?_, ?_, ?_, ?_, ?_, hmv, hb.usage.of_eq hused (by rw [hu]) hsame (by rw [hv]), ?_⟩
  · obtain ⟨r, hr, hrest⟩ := hb.matched
    exact ⟨r, htsk ▸ hr, hrest⟩
  · rw [hv, ← htsk]
    exact hb.tasks
  · rw [← hev]
    exact hb.first
  · have hrec : u.preConsumeRecords = w.preConsumeRecords := by rw [hu]
    unfold Task.RecordOwned
    rw [← hrec]
    exact hb.owned
  · rw [hv, ← hev]
    exact hb.events
  · rw [hv, hb.rest, hu]

theorem foldPending_rest (now userId tokenId : ℤ) (withToken : Bool) (w : World) :
    w.foldPending now userId tokenId withToken =
      { w with
        users := (w.foldPending now userId tokenId withToken).users
        tokens := (w.foldPending now userId tokenId withToken).tokens } := by
  cases withToken <;> rfl

theorem dropPending_rest (userId tokenId : ℤ) (withToken : Bool) (w : World) :
    w.dropPending userId tokenId withToken =
      { w with
        userQuotaBatch := (w.dropPending userId tokenId withToken).userQuotaBatch
        tokenQuotaBatch := (w.dropPending userId tokenId withToken).tokenQuotaBatch } := by
  cases withToken <;> rfl

theorem runTaskBilling_ok
    (h : runTaskBilling env t (taskBillingOperation env t expected next payload) w = (.ok id, w')) :
    Billed env t expected next payload w w' := by
  unfold runTaskBilling at h
  split_ifs at h with hsub htok
  · obtain ⟨-, hfold, v, hop, rfl⟩ := withReconciledTokenQuota_eq_ok.mp h
    obtain ⟨hb, -, htb⟩ := taskBillingOperation_ok hop
    exact hb.reconciled rfl (fun _ => rfl) rfl (moved_dropPendingToken hfold htb hb.moved)
  · obtain ⟨-, hop⟩ := commit_eq_ok.mp h
    exact (taskBillingOperation_ok hop).1
  · obtain ⟨-, hu, ht, v, hop, rfl⟩ := withReconciledWalletQuota_eq_ok.mp h
    obtain ⟨hb, hub, htb⟩ := taskBillingOperation_ok hop
    have hrest := foldPending_rest env.now t.userId t.privateData.tokenId t.withToken w
    refine hb.reconciled hrest (userUsed_addQuota (foldPending_users env.now))
      (dropPending_rest _ _ _ _) (moved_dropPending hu ht ?_ ?_ hb.moved)
    · rw [hub, hrest]
    · rw [htb, hrest]

/-- Everything a billing call can do: nothing, or one committed billing step. -/
theorem applyTaskBilling_cases (env : Env) (t : Task) (expected next : TaskBillingStatus)
    (payload : Option TaskBillingEventPayload) (w : World) :
    ((applyTaskBilling env t expected next payload w).2 = w ∧
        ∀ r, (applyTaskBilling env t expected next payload w).1 = .ok r → r.applied = false) ∨
      (taskBillingRefusal t expected next payload = none ∧ ∃ id w',
        applyTaskBilling env t expected next payload w = (.ok
          { applied := true, beforeQuota := t.quota, targetQuota := t.billingTargetQuota
            delta := t.billingDelta, nextStatus := some next, eventID := id }, w') ∧
        runTaskBilling env t (taskBillingOperation env t expected next payload) w = (.ok id, w') ∧
        Billed env t expected next payload w w') := by
  unfold applyTaskBilling
  cases hr : taskBillingRefusal t expected next payload with
  | some e => exact .inl ⟨rfl, by simp⟩
  | none =>
    rcases (atomic_runTaskBilling env t
      (taskBillingOperation env t expected next payload)).cases w with ⟨id, v, h⟩ | ⟨e, h⟩
    · rw [h]
      exact .inr ⟨rfl, id, v, rfl, rfl, runTaskBilling_ok h⟩
    · rw [h]
      refine .inl ?_
      cases e <;> simp [TaskBillingApplyResult.notApplied]

/-- The call has done nothing, or it has applied the phase that was due. -/
theorem applyPendingTaskBilling_cases (c : BillingConditions) (t : Task) (reason : String)
    (w : World) : ((applyPendingTaskBilling c t reason w).2 = (t, w) ∧
        (applyPendingTaskBilling c t reason w).1 ≠ .ok true) ∨
      ∃ next w', pendingTransition t = some next ∧
        taskBillingRefusal t t.billingStatus next (pendingPayload c t reason) = none ∧
        Billed c.env t t.billingStatus next (pendingPayload c t reason) w w' ∧
        applyPendingTaskBilling c t reason w =
          (.ok true, { t with quota := t.billingTargetQuota, billingStatus := next }, w') := by
  unfold applyPendingTaskBilling
  cases hnext : pendingTransition t with
  | none => exact .inl ⟨rfl, by simp⟩
  | some next =>
    dsimp only
    by_cases hkey : c.redisEnabled = true ∧ 0 < t.privateData.tokenId ∧
      resolveTokenKey c.env t w = ""
    · rw [if_pos hkey]
      exact .inl ⟨rfl, by simp⟩
    rw [if_neg hkey]
    rcases applyTaskBilling_cases c.env t t.billingStatus next (pendingPayload c t reason) w
      with ⟨hsame, hnot⟩ | ⟨href, id, w', happ, -, hb⟩
    · left
      cases hr : applyTaskBilling c.env t t.billingStatus next (pendingPayload c t reason) w with
      | mk r v =>
        rw [hr] at hsame hnot
        cases r with
        | error e => exact ⟨by rw [← hsame], by simp⟩
        | ok result =>
          simp only [hnot result rfl, Bool.false_eq_true, if_false]
          exact ⟨by rw [← hsame], by simp⟩
    · exact .inr ⟨next, w', rfl, href, hb, by rw [happ]; rfl⟩

/-- Preparing the final bill freezes a target; it moves no money. -/
theorem prepareTaskFinalBilling_keeps (p : Pricing) (t : Task) (taskResult : Option TaskInfo) :
    ∃ target, (prepareTaskFinalBilling p t taskResult).1 =
      { t with billingStatus := .finalizePending, billingTargetQuota := target } := by
  unfold prepareTaskFinalBilling
  dsimp only
  generalize (if t.billingStatus = .submitPending then t.billingTargetQuota else t.quota) = base
  split_ifs
  · exact ⟨_, rfl⟩
  · exact ⟨_, rfl⟩
  · exact ⟨_, rfl⟩
  · split <;> exact ⟨_, rfl⟩

theorem guards_fields {snapshot : TaskSnapshot} {r : Task} (h : snapshot.guards r = true) :
    r.status = snapshot.status ∧ r.billingStatus = snapshot.billingStatus ∧
      r.quota = snapshot.quota ∧ r.mediaTransferState = snapshot.mediaTransferState := by
  simp only [TaskSnapshot.guards, Bool.and_eq_true, decide_eq_true_eq] at h
  obtain ⟨⟨⟨⟨⟨⟨hs, hb⟩, hq⟩, -⟩, -⟩, -⟩, hm⟩ := h
  exact ⟨hs, hb, hq, hm⟩

theorem guards_snapshot {t r : Task} (h : t.snapshot.guards r = true) :
    r.status = t.status ∧ r.billingStatus = t.billingStatus ∧ r.quota = t.quota ∧
      r.mediaTransferState = t.mediaTransferState := guards_fields h

/-- The phases that can be due. -/
theorem pendingTransition_cases {t : Task} {next : TaskBillingStatus}
    (h : pendingTransition t = some next) : t.billingStatus = .submitPending ∧ next = .pending ∨
      t.billingStatus = .finalizePending ∧
        (next = .refunded ∧ t.billingTargetQuota = 0 ∨ next = .settled) := by
  unfold pendingTransition at h
  split at h
  · rename_i hs
    cases h
    exact .inl ⟨hs, rfl⟩
  · rename_i hs
    split_ifs at h with hzero <;> cases h
    · exact .inr ⟨hs, .inl ⟨rfl, hzero.2⟩⟩
    · exact .inr ⟨hs, .inr rfl⟩
  · cases h

/-- A copy is billed as refunded only if nothing is left to pay. -/
theorem pendingTransition_refunded {t : Task} (h : pendingTransition t = some .refunded) :
    t.billingTargetQuota = 0 := by
  rcases pendingTransition_cases h with ⟨-, hnext⟩ | ⟨-, ⟨-, hzero⟩ | hnext⟩
  · cases hnext
  · exact hzero
  · cases hnext

/-- A guarded write either changed nothing, or replaced a row that the snapshot matches. -/
theorem updateWithSnapshot_cases (env : Env) (t : Task) (snapshot : TaskSnapshot) (w : World) :
    ((updateWithSnapshot env t snapshot w).2 = w ∧
        (updateWithSnapshot env t snapshot w).1 ≠ .ok true) ∨
      ∃ r, w.tasks t.id = some r ∧ snapshot.guards r = true ∧ updateWithSnapshot env t snapshot w =
          (.ok true, { w with tasks := w.tasks.put t.id { t with updatedAt := env.now } }) := by
  unfold updateWithSnapshot
  split_ifs with hf
  · exact .inl ⟨rfl, by simp⟩
  rcases w.tasks.updateWhere_cases t.id snapshot.guards fun _ => { t with updatedAt := env.now } with
    ⟨r, hr, hg, heq⟩ | ⟨-, heq⟩
  · refine .inr ⟨r, hr, hg, ?_⟩
    rw [heq, ← Table.put_eq_modify hr]
    rfl
  · rw [heq]
    exact .inl ⟨rfl, by simp⟩

theorem scheduleTaskBillingRetry_cases (env : Env) (id : ℤ) (status : TaskBillingStatus)
    (nextRetryAt : ℤ) (lastError : String) (w : World) :
    (scheduleTaskBillingRetry env id status nextRetryAt lastError w).2 = w ∨
      (scheduleTaskBillingRetry env id status nextRetryAt lastError w).2 =
        { w with
          tasks := w.tasks.modify id
            (Task.retryScheduled env.now nextRetryAt lastError) } := by
  unfold scheduleTaskBillingRetry
  split_ifs
  · exact .inl rfl
  · exact .inl rfl
  · dsimp only
    split_ifs
    · exact .inl rfl
    rcases Table.updateWhere_fst w.tasks id (fun t => decide (t.billingStatus = status))
      (Task.retryScheduled env.now nextRetryAt lastError) with he | he
    · left
      rw [he]
    · right
      rw [he]

end Calls

end NewApi
