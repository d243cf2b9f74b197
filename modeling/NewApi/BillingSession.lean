import NewApi.GoStrings
import NewApi.SubscriptionQuota

/-!
# Billing sessions

The lifecycle of the charge for one request: pre-consumption, further reservations,
settlement and refund, from a wallet or from a subscription. A session keeps its own
record of what it debited; the mutex of the session makes each call one step. The
refund is started by a call and carried out later by a background routine, one
database action at a time. Log output and the plan's title are left out.
-/
namespace NewApi

/-- The codes that the relay tells apart. -/
inductive ErrorCode where
  | insufficientUserQuota | preConsumeTokenQuotaFailed | updateDataError | queryDataError
  deriving DecidableEq

/-- An error of the relay with its cause. -/
structure NewAPIError where
  code : ErrorCode
  cause : Err

/-- The fields of the relay info and of the request context that billing uses. The
last seven are written by `syncRelayInfo` and by the settlement. -/
structure RelayInfo where
  (userId tokenId : ℤ)
  requestId : String
  (isPlayground forcePreConsume tokenUnlimited : Bool)
  (tokenQuota trustQuota : ℤ)
  billingPreference : String
  (userQuota finalPreConsumedQuota : ℤ)
  billingSource : BillingSource
  (subscriptionId subscriptionPreConsumed subscriptionPostDelta subscriptionAmountTotal : ℤ)
  subscriptionAmountUsedAfterPreConsume : ℤ

/-- A session that is paid from the user's quota. -/
structure WalletFunding where
  (userId consumed : ℤ)

/-- A session that is paid from a subscription, with what was found when it was opened. -/
structure SubscriptionFunding where
  requestId : String
  (userId amount subscriptionId preConsumed amountTotal amountUsedAfter : ℤ)

/-- What a session is paid from. -/
inductive FundingSource where
  | wallet (f : WalletFunding)
  | subscription (f : SubscriptionFunding)

def FundingSource.source : FundingSource → BillingSource
  | wallet _ => .wallet
  | subscription _ => .subscription

/-- What was taken for a request so far, and how far its accounting is. -/
structure BillingSession where
  relayInfo : RelayInfo
  funding : FundingSource
  (preConsumedQuota tokenConsumed extraReserved : ℤ)
  (trusted fundingSettled settled refunded : Bool)

/-- A session that has taken nothing. -/
def BillingSession.new (relayInfo : RelayInfo) (funding : FundingSource) : BillingSession where
  relayInfo := relayInfo
  funding := funding
  preConsumedQuota := 0
  tokenConsumed := 0
  extraReserved := 0
  trusted := false
  fundingSettled := false
  settled := false
  refunded := false

/-- The conditions of the database calls of one session call, in their order, and the
subscription resets that fall due in it. -/
structure CallEnv where
  env : ℕ → Env
  due : ℤ → Bool

/-- The playground has no token. -/
def preConsumeTokenQuota (env : Env) (info : RelayInfo) (quota : ℤ) (w : World) :
    Except Err Unit × World :=
  if quota < 0 then (.error negativeQuota, w)
  else if info.isPlayground then (.ok (), w)
  else reserveTokenQuota env info.userId info.tokenId quota w

/-- The code of a failed reservation. -/
def newQuotaReservationError (err : Err) : NewAPIError :=
  match err with
  | .insufficientUserQuota => ⟨.insufficientUserQuota, err⟩
  | .insufficientTokenQuota => ⟨.preConsumeTokenQuotaFailed, err⟩
  | _ => ⟨.updateDataError, err⟩

namespace BillingSession

/-- Copy the state of the session into the compatibility fields of the relay info. -/
def syncRelayInfo (s : BillingSession) : BillingSession :=
  let info := { s.relayInfo with
    finalPreConsumedQuota := s.preConsumedQuota
    billingSource := s.funding.source }
  match s.funding with
  | .subscription sub => { s with relayInfo := { info with
      subscriptionId := sub.subscriptionId
      subscriptionPreConsumed := sub.preConsumed + s.extraReserved
      subscriptionPostDelta := 0
      subscriptionAmountTotal := sub.amountTotal
      subscriptionAmountUsedAfterPreConsume := sub.amountUsedAfter + s.extraReserved } }
  | .wallet _ => { s with relayInfo := { info with
      subscriptionId := 0
      subscriptionPreConsumed := 0 } }

/-- Only compatibility fields of the relay info change. -/
@[simp] theorem syncRelayInfo_fields (s : BillingSession) : s.syncRelayInfo.funding = s.funding ∧
      s.syncRelayInfo.preConsumedQuota = s.preConsumedQuota ∧
      s.syncRelayInfo.tokenConsumed = s.tokenConsumed ∧
      s.syncRelayInfo.extraReserved = s.extraReserved ∧ s.syncRelayInfo.trusted = s.trusted ∧
      s.syncRelayInfo.fundingSettled = s.fundingSettled ∧
      s.syncRelayInfo.settled = s.settled ∧ s.syncRelayInfo.refunded = s.refunded ∧
      s.syncRelayInfo.relayInfo.userId = s.relayInfo.userId ∧
      s.syncRelayInfo.relayInfo.tokenId = s.relayInfo.tokenId ∧
      s.syncRelayInfo.relayInfo.isPlayground = s.relayInfo.isPlayground := by
  unfold syncRelayInfo
  cases s.funding <;> simp

/-- Whether a failed request has anything to give back. -/
def needsRefundLocked (s : BillingSession) : Bool :=
  if s.settled || s.refunded || s.fundingSettled then false
  else if 0 < s.tokenConsumed then true
  else match s.funding with
    | .subscription sub => decide (0 < sub.preConsumed)
    | .wallet _ => false

/-- A user with enough quota is not charged in advance; a subscription always is. -/
def shouldTrust (s : BillingSession) : Bool :=
  if s.relayInfo.forcePreConsume then false
  else if s.relayInfo.trustQuota ≤ 0 then false
  else if !(s.relayInfo.tokenUnlimited || decide (s.relayInfo.trustQuota < s.relayInfo.tokenQuota))
    then false
  else match s.funding with
    | .wallet _ => decide (s.relayInfo.trustQuota < s.relayInfo.userQuota)
    | .subscription _ => false

/-- The difference to what was taken is moved; the session counts as settled from then on. -/
def settle (c : CallEnv) (actualQuota : ℤ) (s : BillingSession) (w : World) :
    Except Err Unit × BillingSession × World :=
  if s.settled then (.ok (), s, w)
  else
    let delta := actualQuota - s.preConsumedQuota
    if delta = 0 then (.ok (), { s with settled := true }, w)
    else match s.funding with
      | .wallet _ =>
        if s.fundingSettled then (.ok (), { s with settled := true }, w)
        else match adjustWalletQuota (c.env 0) s.relayInfo.userId s.relayInfo.tokenId delta
            (!s.relayInfo.isPlayground) w with
          | (.error e, w') => (.error e, s, w')
          | (.ok _, w') => (.ok (), { s with fundingSettled := true, settled := true }, w')
      | .subscription sub =>
        let funded := if s.fundingSettled then (.ok (), w)
          else postConsumeUserSubscriptionDelta (c.env 0) sub.subscriptionId delta w
        match funded with
        | (.error e, w') => (.error e, s, w')
        | (.ok _, w') =>
          let adjusted :=
            if s.relayInfo.isPlayground then (.ok (), w')
            else if 0 < delta then
              decreaseTokenQuotaDirect (c.env 1) s.relayInfo.tokenId delta w'
            else increaseTokenQuotaDirect (c.env 1) s.relayInfo.tokenId (-delta) w'
          (adjusted.1, { s with
            fundingSettled := true
            settled := true
            relayInfo := { s.relayInfo with
              subscriptionPostDelta := s.relayInfo.subscriptionPostDelta + delta } },
            adjusted.2)

end BillingSession

/-- A database action of the background refund, with the values it captured. -/
inductive RefundAction where
  | wallet (userId tokenId consumed : ℤ) (withToken : Bool)
  | preConsumption (requestId : String) (attempts : ℕ)
  | extraReserved (subscriptionId amount : ℤ)
  | token (tokenId amount : ℤ)

namespace RefundAction

/-- One movement of a refund. -/
def exec (env : Env) : RefundAction → World → Except Err Unit × World
  | wallet userId tokenId consumed withToken =>
    adjustWalletQuota env userId tokenId (-consumed) withToken
  | preConsumption requestId _ => refundSubscriptionPreConsume env requestId
  | extraReserved subscriptionId amount =>
    postConsumeUserSubscriptionDelta env subscriptionId (-amount)
  | token tokenId amount => increaseTokenQuotaDirect env tokenId amount

/-- What is left of the action: only the refund of the pre-consumption is retried. -/
def retry (result : Except Err Unit) : RefundAction → List RefundAction
  | preConsumption requestId attempts =>
    match result with
    | .ok _ => []
    | .error _ => if attempts ≤ 1 then [] else [preConsumption requestId (attempts - 1)]
  | _ => []

end RefundAction

def maxAttempts : ℕ := 3

namespace BillingSession

/-- The last action of the background routine: the token's share. -/
def refundToken (s : BillingSession) : List RefundAction :=
  if 0 < s.tokenConsumed ∧ s.relayInfo.isPlayground = false
  then [.token s.relayInfo.tokenId s.tokenConsumed] else []

/-- What was reserved beyond the first amount is given back apart. -/
def refundExtra (s : BillingSession) : List RefundAction :=
  if 0 < s.extraReserved ∧ 0 < s.relayInfo.subscriptionId
  then [.extraReserved s.relayInfo.subscriptionId s.extraReserved] else []

/-- The actions of the background routine that `refund` starts. -/
def refundActions (s : BillingSession) : List RefundAction :=
  match s.funding with
  | .wallet f =>
    if 0 < f.consumed then
      [.wallet s.relayInfo.userId s.relayInfo.tokenId f.consumed (!s.relayInfo.isPlayground)]
    else s.refundToken
  | .subscription sub =>
    (if sub.preConsumed ≤ 0 then [] else [.preConsumption sub.requestId maxAttempts]) ++
    s.refundExtra ++ s.refundToken

/-- Mark the session refunded and start the background routine, once. -/
def refund (s : BillingSession) : BillingSession × List RefundAction :=
  if s.settled || s.refunded || !s.needsRefundLocked then (s, [])
  else ({ s with refunded := true }, s.refundActions)

/-- A refund starts once, on a session that is neither settled nor refunded. -/
theorem refund_cases (s : BillingSession) : s.refund = (s, []) ∨
      (s.settled = false ∧ s.refunded = false ∧ s.needsRefundLocked = true ∧
        s.refund = ({ s with refunded := true }, s.refundActions)) := by
  unfold refund
  split_ifs with hskip
  · exact .inl rfl
  · simp only [Bool.or_eq_true, not_or, Bool.not_eq_true, Bool.not_eq_false'] at hskip
    exact .inr ⟨hskip.1.1, hskip.1.2, hskip.2, rfl⟩

/-- Takes more from the subscription. -/
def reserveFunding (env : Env) (delta : ℤ) (sub : SubscriptionFunding) (w : World) :
    Except NewAPIError Unit × World :=
  match postConsumeUserSubscriptionDelta env sub.subscriptionId delta w with
  | (.error e, w') => (.error ⟨.insufficientUserQuota, e⟩, w')
  | (.ok _, w') => (.ok (), w')

/-- Gives it back if the token has failed; an error is only logged. -/
def rollbackFundingReserve (env : Env) (delta : ℤ) (sub : SubscriptionFunding) (w : World) :
    World :=
  (postConsumeUserSubscriptionDelta env sub.subscriptionId (-delta) w).2

/-- Takes more from the token. -/
def reserveToken (env : Env) (info : RelayInfo) (delta : ℤ) (w : World) :
    Except NewAPIError Unit × World :=
  if delta ≤ 0 ∨ info.isPlayground = true then (.ok (), w)
  else match preConsumeTokenQuota env info delta w with
    | (.error e, w') => (.error ⟨.preConsumeTokenQuotaFailed, e⟩, w')
    | (.ok _, w') => (.ok (), w')

/-- What the session records after a reservation of `delta` more. -/
def recordReserve (delta : ℤ) (s : BillingSession) : BillingSession :=
  syncRelayInfo { s with
    preConsumedQuota := s.preConsumedQuota + delta
    tokenConsumed := s.tokenConsumed + delta
    extraReserved := s.extraReserved + delta }

/-- Raises what is taken to a target. -/
def reserve (c : CallEnv) (targetQuota : ℤ) (s : BillingSession) (w : World) :
    Except NewAPIError Unit × BillingSession × World :=
  if s.settled || s.refunded || s.trusted || decide (targetQuota ≤ s.preConsumedQuota) then
    (.ok (), s, w)
  else
    let delta := targetQuota - s.preConsumedQuota
    match s.funding with
    | .wallet f =>
      match reserveWalletQuota (c.env 0) f.userId s.relayInfo.tokenId delta
          (!s.relayInfo.isPlayground) w with
      | (.error e, w') => (.error (newQuotaReservationError e), s, w')
      | (.ok _, w') => (.ok (), recordReserve delta
          { s with funding := .wallet { f with consumed := f.consumed + delta } }, w')
    | .subscription sub =>
      match reserveFunding (c.env 0) delta sub w with
      | (.error e, w') => (.error e, s, w')
      | (.ok _, w') =>
        match reserveToken (c.env 1) s.relayInfo delta w' with
        | (.error e, w'') => (.error e, s, rollbackFundingReserve (c.env 2) delta sub w'')
        | (.ok _, w'') => (.ok (), recordReserve delta s, w'')

/-- A subscription without quota is the user's error, anything else is the server's. -/
def preConsumeErrorCode : Err → ErrorCode
  | .noActiveSubscription => .insufficientUserQuota
  | .subscriptionQuotaInsufficient _ => .insufficientUserQuota
  | _ => .updateDataError

/-- Takes the first amount, from the token and from the source. -/
def preConsume (c : CallEnv) (quota : ℤ) (s : BillingSession) (w : World) :
    Except NewAPIError Unit × BillingSession × World :=
  let trust := s.shouldTrust
  let effectiveQuota := if trust then 0 else quota
  let s := { s with trusted := trust }
  match s.funding with
  | .wallet f =>
    if 0 < effectiveQuota then
      match reserveWalletQuota (c.env 0) f.userId s.relayInfo.tokenId effectiveQuota
          (!s.relayInfo.isPlayground) w with
      | (.error e, w') => (.error (newQuotaReservationError e), s, w')
      | (.ok _, w') => (.ok (), syncRelayInfo { s with
          funding := .wallet { f with consumed := f.consumed + effectiveQuota }
          tokenConsumed := effectiveQuota
          preConsumedQuota := effectiveQuota }, w')
    else (.ok (), syncRelayInfo { s with preConsumedQuota := effectiveQuota }, w)
  | .subscription sub =>
    let reserved := if 0 < effectiveQuota
      then preConsumeTokenQuota (c.env 0) s.relayInfo effectiveQuota w else (.ok (), w)
    match reserved with
    | (.error e, w') => (.error ⟨.preConsumeTokenQuotaFailed, e⟩, s, w')
    | (.ok _, w') =>
      let tokenConsumed := if 0 < effectiveQuota then effectiveQuota else s.tokenConsumed
      match preConsumeUserSubscription (c.env 1) (c.env 2) c.due sub.requestId sub.userId
          sub.amount w' with
      | (.error e, w'') =>
        if 0 < tokenConsumed ∧ s.relayInfo.isPlayground = false then
          (.error ⟨preConsumeErrorCode e, e⟩, { s with tokenConsumed := 0 },
            (increaseTokenQuotaDirect (c.env 3) s.relayInfo.tokenId tokenConsumed w'').2)
        else (.error ⟨preConsumeErrorCode e, e⟩, { s with tokenConsumed := tokenConsumed }, w'')
      | (.ok res, w'') => (.ok (), syncRelayInfo { s with
          funding := .subscription { sub with
            subscriptionId := res.userSubscriptionId
            preConsumed := res.preConsumed
            amountTotal := res.amountTotal
            amountUsedAfter := res.amountUsedAfter }
          tokenConsumed := tokenConsumed
          preConsumedQuota := effectiveQuota }, w'')

end BillingSession

/-- Which source is tried, and in which order. -/
inductive BillingPreference where
  | subscriptionFirst | walletFirst | subscriptionOnly | walletOnly

/-- What is not known means the subscription first. -/
def normalizeBillingPreference (pref : String) : BillingPreference :=
  if trimSpace pref = "wallet_first" then .walletFirst
  else if trimSpace pref = "subscription_only" then .subscriptionOnly
  else if trimSpace pref = "wallet_only" then .walletOnly
  else .subscriptionFirst

/-- The quota shown for a user: the cached value if the cache has one, else the row's. -/
def getUserQuota (cached : Option ℤ) (env : Env) (userId : ℤ) (w : World) : Except Err ℤ :=
  match cached with
  | some quota => .ok quota
  | none =>
    if env.fault 0 then .error .database
    else .ok (match w.users userId with
      | some r => if r.deleted then 0 else r.quota
      | none => 0)

/-- The faults of the steps that open a session. -/
structure OpenEnv where
  cachedQuota : Option ℤ
  (quotaRead subscriptionCheck : Env)
  (wallet subscription : CallEnv)

/-- Pre-consume, and return the session unless that failed. -/
def BillingSession.opened (session : BillingSession) (c : CallEnv) (quota : ℤ) (w : World) :
    Except NewAPIError BillingSession × World :=
  match session.preConsume c quota w with
  | (.error e, _, w') => (.error e, w')
  | (.ok _, s, w') => (.ok s, w')

theorem BillingSession.opened_ok {session s : BillingSession} {c : CallEnv} {quota : ℤ}
    {w w' : World} (h : session.opened c quota w = (.ok s, w')) :
    session.preConsume c quota w = (.ok (), s, w') := by
  unfold opened at h
  split at h
  · simp at h
  · rename_i hpre
    cases h
    exact hpre

theorem BillingSession.opened_error {session : BillingSession} {c : CallEnv} {quota : ℤ}
    {w w' : World} {e : NewAPIError} (h : session.opened c quota w = (.error e, w')) :
    ∃ s, session.preConsume c quota w = (.error e, s, w') := by
  unfold opened at h
  split at h
  · rename_i hpre
    cases h
    exact ⟨_, hpre⟩
  · simp at h

section Open
variable (o : OpenEnv) (info : RelayInfo) (preConsumedQuota : ℤ) (w : World)

/-- The quota is checked before it is taken. -/
def tryWallet : Except NewAPIError BillingSession × World :=
  match getUserQuota o.cachedQuota o.quotaRead info.userId w with
  | .error e => (.error ⟨.queryDataError, e⟩, w)
  | .ok userQuota =>
    if userQuota ≤ 0 then (.error ⟨.insufficientUserQuota, .text "用户额度不足"⟩, w)
    else if userQuota - preConsumedQuota < 0 then
      (.error ⟨.insufficientUserQuota, .text "预扣费额度失败"⟩, w)
    else
      (BillingSession.new { info with userQuota := userQuota }
        (.wallet { userId := info.userId, consumed := 0 })).opened o.wallet preConsumedQuota w

/-- A subscription is charged at least one unit. -/
def trySubscription : Except NewAPIError BillingSession × World :=
  let subConsume := if preConsumedQuota ≤ 0 then 1 else preConsumedQuota
  (BillingSession.new info (.subscription
    { requestId := info.requestId, userId := info.userId, amount := subConsume,
      subscriptionId := 0, preConsumed := 0, amountTotal := 0, amountUsedAfter := 0 })).opened
    o.subscription subConsume w

/-- The second source is tried if the first has no quota. -/
def newBillingSession : Except NewAPIError BillingSession × World :=
  match normalizeBillingPreference info.billingPreference with
  | .subscriptionOnly => trySubscription o info preConsumedQuota w
  | .walletOnly => tryWallet o info preConsumedQuota w
  | .walletFirst =>
    match tryWallet o info preConsumedQuota w with
    | (.error e, w') =>
      if e.code = .insufficientUserQuota then trySubscription o info preConsumedQuota w'
      else (.error e, w')
    | (.ok s, w') => (.ok s, w')
  | .subscriptionFirst =>
    match hasActiveUserSubscription o.subscriptionCheck info.userId w with
    | .error e => (.error ⟨.queryDataError, e⟩, w)
    | .ok false => tryWallet o info preConsumedQuota w
    | .ok true =>
      match trySubscription o info preConsumedQuota w with
      | (.error e, w') =>
        if e.code = .insufficientUserQuota then tryWallet o info preConsumedQuota w'
        else (.error e, w')
      | (.ok s, w') => (.ok s, w')

end Open

end NewApi
