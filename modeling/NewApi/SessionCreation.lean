import NewApi.BatchUpdate
import NewApi.BillingSession

/-!
# Opening a billing session

A call that opens a session charges the wallet or one subscription, and the token, by
exactly what the session records, or charges nothing. With a preference that falls
back to the other source, the first attempt must have been undone in full.
-/
namespace NewApi

/-- Nothing was charged: quotas, subscriptions and their records are as they were. -/
structure Uncharged (w w' : World) : Prop where
  moved : Moved w w' 0
  granted : ∀ tokenId, w'.tokenGranted tokenId = w.tokenGranted tokenId
  subscriptions : w'.subscriptions = w.subscriptions
  records : w'.preConsumeRecords = w.preConsumeRecords

theorem Uncharged.refl (w : World) : Uncharged w w := ⟨Moved.refl w, fun _ => rfl, rfl, rfl⟩

theorem Uncharged.trans {w₁ w₂ w₃ : World} (h : Uncharged w₁ w₂) (h' : Uncharged w₂ w₃) :
    Uncharged w₁ w₃ := by
  refine ⟨?_, fun t => (h'.granted t).trans (h.granted t),
    h'.subscriptions.trans h.subscriptions, h'.records.trans h.records⟩
  simpa using h.moved.trans h'.moved

/-- The movement of the token of the request, which a playground request does not have. -/
def BillingSession.tokenDelta (info : RelayInfo) (s : BillingSession) : QuotaDelta :=
  .single .tokenQuota info.tokenId (-(if info.isPlayground then 0 else s.tokenConsumed))

open BillingSession

/-- The wallet paid what the session records, and no subscription changed. -/
structure ChargedWallet (info : RelayInfo) (w w' : World) (s : BillingSession) : Prop where
  funding : ∃ f, s.funding = .wallet f ∧ f.consumed = s.preConsumedQuota
  moved : Moved w w'
    (.single .userQuota info.userId (-s.preConsumedQuota) + s.tokenDelta info)
  subscriptions : w'.subscriptions = w.subscriptions

/-- One subscription paid what the session records, and no wallet changed. A quota
period that ended was reset first; no other subscription was charged. -/
structure ChargedSubscription (info : RelayInfo) (due : ℤ → Bool) (w w' : World)
    (s : BillingSession) : Prop where
  funding : ∃ f, s.funding = .subscription f ∧ f.preConsumed = s.preConsumedQuota ∧
    (∃ r, w.subscriptions f.subscriptionId = some r ∧ w'.subscriptions f.subscriptionId =
        some ((r.current (due f.subscriptionId)).addUsed s.preConsumedQuota)) ∧
    ∀ j, j ≠ f.subscriptionId → w'.subscriptions j = w.subscriptions j ∨
      (due j = true ∧ w'.subscriptions j = (w.subscriptions j).map UserSubscription.reset)
  moved : Moved w w' (s.tokenDelta info)

/-- A trusted session starts without any charge. -/
def TrustedFree (s : BillingSession) : Prop :=
  s.trusted = true → s.preConsumedQuota = 0 ∧ s.tokenConsumed = 0

section Attempts
variable {w : World} {now userId tokenId delta : ℤ} {withToken : Bool}

@[simp] theorem creditWallet_subscriptions :
    (w.creditWallet now userId tokenId delta withToken).subscriptions = w.subscriptions := by
  cases withToken <;> rfl

theorem uncharged_roundTrip {r : Token} (hr : w.tokens tokenId = some r) (now' : ℤ) :
    Uncharged w ((w.creditToken now tokenId (-delta)).creditToken now' tokenId delta) := by
  have hr' : (w.creditToken now tokenId (-delta)).tokens tokenId =
      some (r.addQuota now (PendingMap.amount w.tokenQuotaBatch tokenId + -delta)) := by
    simp [World.creditToken, hr]
  refine ⟨?_, fun t => ?_, rfl, rfl⟩
  · have hmv := (moved_creditToken hr now (-delta)).trans (moved_creditToken hr' now' delta)
    rw [QuotaDelta.single_add, neg_add_cancel] at hmv
    intro type id
    rw [hmv type id]
    simp [QuotaDelta.single]
  · exact ((quotaStep_creditToken _ now' tokenId delta).granted t).trans
      ((quotaStep_creditToken w now tokenId (-delta)).granted t)

variable {env : Env} {w' : World} {quota : ℤ}

theorem reserveTokenQuota_debits (hq : 0 < quota)
    (h : reserveTokenQuota env userId tokenId quota w = (.ok (), w')) :
    ∃ r, w.tokens tokenId = some r ∧ w' = w.creditToken env.now tokenId (-quota) := by
  obtain ⟨-, -, -, ⟨r, hr, -⟩, rfl⟩ := (reserveTokenQuota_eq_ok hq).mp h
  exact ⟨r, hr, rfl⟩

/-- Without faults, giving back to a token whose delta was just folded in succeeds. -/
theorem increaseTokenQuotaDirect_calm {now : ℤ} (hcalm : ∀ i, env.fault i = false) (hq : 0 < quota)
    {r : Token} (hr : w.tokens tokenId = some r) (d : ℤ) :
    increaseTokenQuotaDirect env tokenId quota (w.creditToken now tokenId d) =
      (.ok (), (w.creditToken now tokenId d).creditToken env.now tokenId quota) := by
  have hneg : ¬ quota < 0 := by omega
  rw [increaseTokenQuotaDirect, if_neg hneg]
  refine adjustTokenQuotaWithPending_eq_ok.mpr ⟨hcalm _, ?_, hcalm _, ?_, rfl⟩
  · left
    simp [World.creditToken]
  · simp [World.creditToken, hr]

variable {o : OpenEnv} {info : RelayInfo}

/-- What is left to consume once the trust bypass has been decided. -/
def BillingSession.effectiveQuota (s : BillingSession) (quota : ℤ) : ℤ :=
  if s.shouldTrust then 0 else quota

theorem BillingSession.effectiveQuota_eq_zero (s : BillingSession) (hq : 0 ≤ quota)
    (hle : s.effectiveQuota quota ≤ 0) : s.effectiveQuota quota = 0 := by
  unfold effectiveQuota at hle ⊢
  split_ifs at hle ⊢
  · rfl
  · omega

variable {s s' : BillingSession} {c : CallEnv} {e : NewAPIError} {sub : SubscriptionFunding}

/-- Everything the pre-consumption of a wallet session can do. -/
theorem preConsume_wallet_cases {f : WalletFunding} (hf : s.funding = .wallet f) (c : CallEnv)
    (quota : ℤ) :
    (∃ e, s.preConsume c quota w = (.error e, { s with trusted := s.shouldTrust }, w)) ∨
      (s.effectiveQuota quota ≤ 0 ∧ s.preConsume c quota w = (.ok (), { s with
          trusted := s.shouldTrust
          preConsumedQuota := s.effectiveQuota quota }.syncRelayInfo, w)) ∨
      (0 < quota ∧ s.shouldTrust = false ∧
        WalletCovers f.userId s.relayInfo.tokenId quota (!s.relayInfo.isPlayground) w ∧
        s.preConsume c quota w = (.ok (), { s with
            trusted := false
            funding := .wallet { f with consumed := f.consumed + quota }
            tokenConsumed := quota
            preConsumedQuota := quota }.syncRelayInfo,
           w.creditWallet (c.env 0).now f.userId s.relayInfo.tokenId (-quota)
            (!s.relayInfo.isPlayground))) := by
  unfold preConsume
  simp only [hf]
  by_cases hpos : 0 < (if s.shouldTrust then 0 else quota)
  · -- a positive amount is only left when the session is not trusted
    have htrust : s.shouldTrust = false := by
      cases htr : s.shouldTrust with
      | false => rfl
      | true => simp [htr] at hpos
    rw [if_pos hpos]
    simp only [htrust, Bool.false_eq_true, if_false] at hpos ⊢
    rcases (atomic_reserveWalletQuota (c.env 0) f.userId s.relayInfo.tokenId quota
      (!s.relayInfo.isPlayground)).cases w with ⟨⟨⟩, v, hr⟩ | ⟨e, hr⟩
    · obtain ⟨-, hcov, rfl⟩ := (reserveWalletQuota_eq_ok hpos).mp hr
      exact .inr (.inr ⟨hpos, trivial, hcov, by rw [hr]⟩)
    · exact .inl ⟨newQuotaReservationError e, by rw [hr]⟩
  · rw [if_neg hpos]
    exact .inr (.inl ⟨by unfold effectiveQuota; omega, rfl⟩)

theorem preConsume_wallet_ok (hq : 0 ≤ quota) (hf : s.funding = .wallet ⟨s.relayInfo.userId, 0⟩)
    (ht : s.tokenConsumed = 0) (h : s.preConsume c quota w = (.ok (), s', w')) :
    ChargedWallet s.relayInfo w w' s' ∧ TrustedFree s' := by
  rcases preConsume_wallet_cases (w := w) hf c quota with
    ⟨e, hr⟩ | ⟨hle, hr⟩ | ⟨-, -, hcov, hr⟩
  · rw [hr] at h
    cases h
  · rw [hr] at h
    cases h
    have hzero : s.effectiveQuota quota = 0 := s.effectiveQuota_eq_zero hq hle
    refine ⟨⟨⟨⟨s.relayInfo.userId, 0⟩, by simp [hf], by simp [hzero]⟩, ?_, rfl⟩,
      by simp [TrustedFree, hzero, ht]⟩
    intro type id
    simp [tokenDelta, hzero, ht]
  · rw [hr] at h
    cases h
    obtain ⟨u, hu, -⟩ := hcov.wallet
    have hmv := moved_creditWallet hu
      (fun ht => (hcov.token ht).imp fun s hs => hs.1) (c.env 0).now (-quota)
    refine ⟨⟨⟨⟨s.relayInfo.userId, quota⟩, by simp, by simp⟩, ?_, by simp⟩,
      by simp [TrustedFree]⟩
    intro type id
    rw [hmv type id]
    cases hp : s.relayInfo.isPlayground <;>
      simp [QuotaDelta.wallet, tokenDelta, hp]

theorem preConsume_wallet_error {f : WalletFunding} (hf : s.funding = .wallet f)
    (h : s.preConsume c quota w = (.error e, s', w')) : w' = w := by
  rcases preConsume_wallet_cases (w := w) hf c quota with ⟨e, hr⟩ | ⟨-, hr⟩ | ⟨-, -, -, hr⟩ <;>
    rw [hr] at h <;> cases h
  rfl

theorem tryWallet_error (h : tryWallet o info quota w = (.error e, w')) : w' = w := by
  unfold tryWallet at h
  split at h
  · cases h
    rfl
  split_ifs at h
  · cases h
    rfl
  · cases h
    rfl
  · obtain ⟨s, hpre⟩ := opened_error h
    exact preConsume_wallet_error rfl hpre

/-- The wallet was charged, or is trusted and was not. -/
theorem tryWallet_ok (hq : 0 ≤ quota) (h : tryWallet o info quota w = (.ok s, w')) :
    ChargedWallet info w w' s ∧ TrustedFree s := by
  unfold tryWallet at h
  split at h
  · simp at h
  split_ifs at h
  · simp at h
  · simp at h
  · obtain ⟨hc, ht⟩ := preConsume_wallet_ok hq rfl rfl (opened_ok h)
    exact ⟨⟨hc.funding, hc.moved, hc.subscriptions⟩, ht⟩

theorem shouldTrust_subscription (hf : s.funding = .subscription sub) : s.shouldTrust = false := by
  simp [shouldTrust, hf]

/-- The token reservation of a subscription session either failed and changed nothing,
or debited the token of a request that has one. -/
theorem preConsumeTokenQuota_cases (env : Env) (info : RelayInfo) (hq : 0 < quota) (w : World) :
    (∃ e, preConsumeTokenQuota env info quota w = (.error e, w)) ∨
      (info.isPlayground = true ∧ preConsumeTokenQuota env info quota w = (.ok (), w)) ∨
      (info.isPlayground = false ∧ (∃ r, w.tokens info.tokenId = some r) ∧
        preConsumeTokenQuota env info quota w =
          (.ok (), w.creditToken env.now info.tokenId (-quota))) := by
  have hneg : ¬ quota < 0 := by omega
  unfold preConsumeTokenQuota
  rw [if_neg hneg]
  cases hp : info.isPlayground with
  | true => exact .inr (.inl ⟨rfl, rfl⟩)
  | false =>
    rcases (atomic_reserveTokenQuota env info.userId info.tokenId quota).cases w with
      ⟨⟨⟩, v, hr⟩ | ⟨e, hr⟩
    · obtain ⟨r, hrow, rfl⟩ := reserveTokenQuota_debits hq hr
      exact .inr (.inr ⟨rfl, ⟨r, hrow⟩, hr⟩)
    · exact .inl ⟨e, hr⟩

theorem PreConsumed.moved {due : ℤ → Bool} {requestId : String} {userId amount : ℤ}
    {r : SubscriptionPreConsumeResult} (h : PreConsumed due requestId userId amount w w' r) :
    Moved w w' 0 := by
  intro type id
  rw [h.rest]
  cases type <;> simp [World.reconciled, World.rowQuota, World.pendingQuota, World.batchStore]

/-- What a subscription session records once its pre-consumption returned. -/
def BillingSession.afterSubscription (s : BillingSession) (sub : SubscriptionFunding)
    (quota : ℤ) (res : SubscriptionPreConsumeResult) : BillingSession :=
  { s with
    trusted := false
    funding := .subscription { sub with
      subscriptionId := res.userSubscriptionId
      preConsumed := res.preConsumed
      amountTotal := res.amountTotal
      amountUsedAfter := res.amountUsedAfter }
    tokenConsumed := quota
    preConsumedQuota := quota }.syncRelayInfo

/-- A subscription pre-consumption that returned first debited the token of a request
that has one, and then charged a subscription. -/
theorem preConsume_subscription_inv (hq : 0 < quota) (hf : s.funding = .subscription sub)
    (ham : sub.amount = quota) (h : s.preConsume c quota w = (.ok (), s', w')) : ∃ v res,
      Moved w v (.single .tokenQuota s.relayInfo.tokenId
        (-(if s.relayInfo.isPlayground then 0 else quota))) ∧
      v.subscriptions = w.subscriptions ∧ v.preConsumeRecords = w.preConsumeRecords ∧
      preConsumeUserSubscription (c.env 1) (c.env 2) c.due sub.requestId sub.userId quota v =
        (.ok res, w') ∧
      s' = s.afterSubscription sub quota res := by
  subst ham
  unfold preConsume at h
  simp only [hf, shouldTrust_subscription hf, Bool.false_eq_true, if_false, if_pos hq] at h
  -- the token step comes first, whether or not there is a token to debit
  obtain ⟨v, hv, hmv, hsubs, hrecs⟩ : ∃ v,
      preConsumeTokenQuota (c.env 0) s.relayInfo sub.amount w = (.ok (), v) ∧
      Moved w v (.single .tokenQuota s.relayInfo.tokenId
        (-(if s.relayInfo.isPlayground then 0 else sub.amount))) ∧
      v.subscriptions = w.subscriptions ∧ v.preConsumeRecords = w.preConsumeRecords := by
    rcases preConsumeTokenQuota_cases (c.env 0) s.relayInfo hq w with
      ⟨e, hr⟩ | ⟨hp, hr⟩ | ⟨hp, ⟨t, ht⟩, hr⟩
    · simp [hr] at h
    · exact ⟨w, hr, by simpa [hp] using Moved.refl w, rfl, rfl⟩
    · exact ⟨_, hr, by simpa [hp] using moved_creditToken ht (c.env 0).now (-sub.amount), rfl, rfl⟩
  simp only [hv] at h
  cases hsub : preConsumeUserSubscription (c.env 1) (c.env 2) c.due sub.requestId sub.userId
      sub.amount v with
  | mk res v' =>
    cases res with
    | error e =>
      simp only [hsub] at h
      split_ifs at h <;> simp at h
    | ok res =>
      simp only [hsub] at h
      cases h
      exact ⟨v, res, hmv, hsubs, hrecs, hsub, rfl⟩

theorem preConsume_subscription_ok (hq : 0 < quota) (hf : s.funding = .subscription sub)
    (ham : sub.amount = quota) (hfr : w.preConsumeRecords sub.requestId = none)
    (h : s.preConsume c quota w = (.ok (), s', w')) :
    ChargedSubscription s.relayInfo c.due w w' s' ∧ s'.trusted = false := by
  obtain ⟨v, res, hmv, hsubs, hrecs, hsub, rfl⟩ := preConsume_subscription_inv hq hf ham h
  obtain ⟨-, -, hpre⟩ := preConsumeUserSubscription_ok (hrecs ▸ hfr) hsub
  obtain ⟨row, hrow, -, hrow'⟩ := hpre.charged
  rw [hsubs] at hrow
  refine ⟨⟨⟨_, (syncRelayInfo_fields _).1, ?_, ⟨row, hrow, ?_⟩, ?_⟩, ?_⟩,
    by simp [afterSubscription]⟩
  · simp [afterSubscription, hpre.amount_eq]
  · simpa [afterSubscription] using hrow'
  · rw [← hsubs]
    exact hpre.others
  · simpa [tokenDelta, afterSubscription] using hmv.trans hpre.moved

/-- A failed subscription pre-consumption changed nothing, or debited the token and tried to
give that back. -/
theorem preConsume_subscription_error (hq : 0 < quota) (hf : s.funding = .subscription sub)
    (ham : sub.amount = quota) (h : s.preConsume c quota w = (.error e, s', w')) :
    w' = w ∨ ∃ t, w.tokens s.relayInfo.tokenId = some t ∧
      w' = (increaseTokenQuotaDirect (c.env 3) s.relayInfo.tokenId quota
        (w.creditToken (c.env 0).now s.relayInfo.tokenId (-quota))).2 := by
  unfold preConsume at h
  simp only [hf, shouldTrust_subscription hf, Bool.false_eq_true, if_false, if_pos hq, ham] at h
  rcases preConsumeTokenQuota_cases (c.env 0) s.relayInfo hq w with
    ⟨e', hr⟩ | ⟨hp, hr⟩ | ⟨hp, ⟨t, ht⟩, hr⟩
  · simp only [hr, Prod.mk.injEq] at h
    exact .inl h.2.2.symm
  · simp only [hr] at h
    rcases (atomic_preConsumeUserSubscription (c.env 1) (c.env 2) c.due sub.requestId sub.userId
      quota).cases w with ⟨res, v, hsub⟩ | ⟨e', hsub⟩
    · simp [hsub] at h
    · simp only [hsub, hp, Bool.true_eq_false, and_false, if_false, Prod.mk.injEq] at h
      exact .inl h.2.2.symm
  · simp only [hr] at h
    rcases (atomic_preConsumeUserSubscription (c.env 1) (c.env 2) c.due sub.requestId sub.userId
      quota).cases (w.creditToken (c.env 0).now s.relayInfo.tokenId (-quota)) with
      ⟨res, v, hsub⟩ | ⟨e', hsub⟩
    · simp [hsub] at h
    · simp only [hsub, hp, hq, and_self, if_true, Prod.mk.injEq] at h
      exact .inr ⟨t, ht, h.2.2.symm⟩

theorem trySubscription_pos (quota : ℤ) : 0 < (if quota ≤ 0 then 1 else quota) := by
  split_ifs <;> omega

/-- The subscription was charged under the request's id. -/
theorem trySubscription_ok (hfr : w.preConsumeRecords info.requestId = none)
    (h : trySubscription o info quota w = (.ok s, w')) :
    ChargedSubscription info o.subscription.due w w' s ∧ TrustedFree s := by
  obtain ⟨hc, ht⟩ := preConsume_subscription_ok (trySubscription_pos quota) rfl rfl hfr (opened_ok h)
  exact ⟨hc, by simp [TrustedFree, ht]⟩

theorem trySubscription_error (hcalm : ∀ i, (o.subscription.env 3).fault i = false)
    (h : trySubscription o info quota w = (.error e, w')) : Uncharged w w' := by
  have hpos := trySubscription_pos quota
  obtain ⟨s, hpre⟩ := opened_error h
  rcases preConsume_subscription_error hpos rfl rfl hpre with rfl | ⟨t, ht, rfl⟩
  · exact Uncharged.refl w'
  · rw [increaseTokenQuotaDirect_calm hcalm hpos ht]
    exact uncharged_roundTrip ht (o.subscription.env 3).now

theorem Uncharged.thenWallet {v : World} (h : Uncharged w v) (h' : ChargedWallet info v w' s) :
    ChargedWallet info w w' s :=
  ⟨h'.funding, by simpa using h.moved.trans h'.moved, h'.subscriptions.trans h.subscriptions⟩

end Attempts

/-- What opening a session may have done to the state, by its outcome. -/
def OpenOutcome (o : OpenEnv) (info : RelayInfo) (w : World) :
    Except NewAPIError BillingSession × World → Prop
  | (.error _, w') => Uncharged w w'
  | (.ok s, w') =>
    (ChargedWallet info w w' s ∨ ChargedSubscription info o.subscription.due w w' s) ∧ TrustedFree s

section Outcome
variable {o : OpenEnv} {info : RelayInfo} {quota : ℤ} {w : World}

theorem openOutcome_tryWallet (o : OpenEnv) (info : RelayInfo) (w : World) (hq : 0 ≤ quota) :
    OpenOutcome o info w (tryWallet o info quota w) := by
  cases h : tryWallet o info quota w with
  | mk r w' =>
    cases r with
    | error e => exact tryWallet_error h ▸ Uncharged.refl w
    | ok s =>
      obtain ⟨hc, ht⟩ := tryWallet_ok hq h
      exact ⟨.inl hc, ht⟩

theorem openOutcome_trySubscription (quota : ℤ) (hfr : w.preConsumeRecords info.requestId = none)
    (hcalm : ∀ i, (o.subscription.env 3).fault i = false) :
    OpenOutcome o info w (trySubscription o info quota w) := by
  cases h : trySubscription o info quota w with
  | mk r w' =>
    cases r with
    | error e => exact trySubscription_error hcalm h
    | ok s =>
      obtain ⟨hc, ht⟩ := trySubscription_ok hfr h
      exact ⟨.inr hc, ht⟩

/-- Falling back to the wallet after an attempt that charged nothing. -/
theorem OpenOutcome.afterUncharged {v : World} (h : Uncharged w v) (hq : 0 ≤ quota) :
    OpenOutcome o info w (tryWallet o info quota v) := by
  have hv := openOutcome_tryWallet o info v hq
  cases hr : tryWallet o info quota v with
  | mk r w' =>
    rw [hr] at hv
    cases r with
    | error e => exact h.trans hv
    | ok s =>
      obtain ⟨hc | hc, ht⟩ := hv
      · exact ⟨.inl (h.thenWallet hc), ht⟩
      obtain ⟨f, hf, -⟩ := hc.funding
      obtain ⟨f', hf', -⟩ := (tryWallet_ok hq hr).1.funding
      rw [hf] at hf'
      cases hf'

end Outcome

/-- Opening a session fails at once, tries one source, or tries the wallet after the
subscription. -/
theorem newBillingSession_cases (o : OpenEnv) (info : RelayInfo) (quota : ℤ) (w : World) :
    (∃ e, newBillingSession o info quota w = (.error e, w)) ∨
      newBillingSession o info quota w = tryWallet o info quota w ∨
      newBillingSession o info quota w = trySubscription o info quota w ∨
      ∃ e v, trySubscription o info quota w = (.error e, v) ∧
        newBillingSession o info quota w = tryWallet o info quota v := by
  unfold newBillingSession
  split
  · exact .inr (.inr (.inl rfl))
  · exact .inr (.inl rfl)
  · split
    next e v hr =>
      have hsame : v = w := tryWallet_error hr
      subst hsame
      split_ifs
      · exact .inr (.inr (.inl rfl))
      · exact .inr (.inl hr.symm)
    next hr => exact .inr (.inl hr.symm)
  · split
    · exact .inl ⟨_, rfl⟩
    · exact .inr (.inl rfl)
    · split
      next e v hr =>
        split_ifs
        · exact .inr (.inr (.inr ⟨e, v, hr, rfl⟩))
        · exact .inr (.inr (.inl hr.symm))
      next hr => exact .inr (.inr (.inl hr.symm))

/-- For a non-negative quota and a request id without a pre-consumption record, and when
the compensating token write succeeds: a call that fails has charged nothing, and a call
that returns a session has charged exactly one source by what the session records. -/
theorem newBillingSession_charges_one_source (o : OpenEnv) (info : RelayInfo) (quota : ℤ)
    (w : World) (hquota : 0 ≤ quota) (hfresh : w.preConsumeRecords info.requestId = none)
    (hcalm : ∀ i, (o.subscription.env 3).fault i = false) :
    OpenOutcome o info w (newBillingSession o info quota w) := by
  have hsub := openOutcome_trySubscription quota hfresh hcalm
  have hwal := openOutcome_tryWallet o info w hquota
  rcases newBillingSession_cases o info quota w with ⟨e, h⟩ | h | h | ⟨e, v, hs, h⟩
  · rw [h]
    exact Uncharged.refl w
  · rw [h]
    exact hwal
  · rw [h]
    exact hsub
  · rw [hs] at hsub
    rw [h]
    exact OpenOutcome.afterUncharged hsub hquota

/-- Calls without faults and without resets that are due. -/
def CallEnv.calm : CallEnv := ⟨fun k => .calm k, fun _ => false⟩

def OpenEnv.calm : OpenEnv := ⟨none, .calm 0, .calm 0, .calm, .calm⟩

def sampleInfo : RelayInfo where
  userId := 1
  tokenId := 7
  requestId := "r1"
  isPlayground := false
  forcePreConsume := true
  tokenUnlimited := false
  tokenQuota := 6
  trustQuota := 0
  billingPreference := "subscription_first"
  userQuota := 0
  finalPreConsumedQuota := 0
  billingSource := .unset
  subscriptionId := 0
  subscriptionPreConsumed := 0
  subscriptionPostDelta := 0
  subscriptionAmountTotal := 0
  subscriptionAmountUsedAfterPreConsume := 0

/-- User 1 with a quota of 10, token 7 with 6 left, and subscription 3 with 2 of 8 used. -/
def sampleAccounts : World :=
  { World.empty with
    users := World.empty.users.put 1 { quota := 10, usedQuota := 0, deleted := false }
    tokens := World.empty.tokens.put 7
      { userId := 1, remainQuota := 6, usedQuota := 0, unlimitedQuota := false
        accessedTime := 0, deleted := false, key := "k" }
    subscriptions := World.empty.subscriptions.put 3
      { userId := 1, amountTotal := 8, amountUsed := 2, endTime := 100, active := true }
    subscriptionIds := [3] }

theorem newBillingSession_charges_one_source_sample : OpenOutcome .calm sampleInfo sampleAccounts
      (newBillingSession .calm sampleInfo 5 sampleAccounts) :=
  newBillingSession_charges_one_source .calm sampleInfo 5 sampleAccounts (by decide) rfl
    (fun _ => rfl)

/-- The same accounts after the request "r1" has pre-consumed 5 from subscription 3. -/
def replayedAccounts : World :=
  { sampleAccounts with
    subscriptions := sampleAccounts.subscriptions.modify 3 (UserSubscription.addUsed 5)
    preConsumeRecords := sampleAccounts.preConsumeRecords.put "r1"
      { userId := 1, userSubscriptionId := 3, preConsumed := 5, status := .consumed } }

/-- Three sessions that record more than was debited. A playground request records token
consumption although no token is debited. A negative quota is recorded and not debited.
A request id that has pre-consumed before is recorded again and not debited again. -/
theorem newBillingSession_records_undebited : (∃ s w', newBillingSession .calm
        { sampleInfo with isPlayground := true, billingPreference := "wallet_only" } 5
        sampleAccounts = (.ok s, w') ∧ s.tokenConsumed = 5 ∧
      w'.reconciled .tokenQuota 7 = sampleAccounts.reconciled .tokenQuota 7) ∧
    (∃ s w', newBillingSession .calm { sampleInfo with billingPreference := "wallet_only" } (-5)
        sampleAccounts = (.ok s, w') ∧ s.preConsumedQuota = -5 ∧
      w'.reconciled .userQuota 1 = sampleAccounts.reconciled .userQuota 1) ∧
    (∃ s w', newBillingSession .calm { sampleInfo with billingPreference := "subscription_only" }
        5 replayedAccounts = (.ok s, w') ∧ s.preConsumedQuota = 5 ∧
      w'.subscriptions 3 = replayedAccounts.subscriptions 3 ∧
      w'.reconciled .userQuota 1 = replayedAccounts.reconciled .userQuota 1) :=
  ⟨⟨_, _, rfl, rfl, by decide⟩, ⟨_, _, rfl, rfl, by decide⟩, ⟨_, _, rfl, rfl, by decide, by decide⟩⟩

end NewApi
