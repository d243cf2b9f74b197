import NewApi.QuotaReservation

/-!
# Subscription quota

Pre-consumption, refund and later adjustment of a subscription's `amount_used`. A
request pre-consumes from the first active subscription, by end time, that has room,
and leaves a record under its request id that makes both the pre-consumption and its
refund idempotent. Whether a quota period has ended is a matter of the calendar of the
plan: `due` says for which subscriptions the reset falls due in this call. Request ids
are taken as already trimmed.
-/
namespace NewApi

/-- What a pre-consumption has taken, and from which subscription. -/
structure SubscriptionPreConsumeResult where
  (userSubscriptionId preConsumed amountTotal amountUsedBefore amountUsedAfter : ℤ)

/-- The subscription can be charged. -/
def UserSubscription.activeAt (now userId : ℤ) (s : UserSubscription) : Bool :=
  decide (s.userId = userId) && s.active && decide (now < s.endTime)

open UserSubscription

/-- `end_time asc, id asc`. -/
def endsFirst (a b : ℤ × UserSubscription) : Bool :=
  decide (a.2.endTime < b.2.endTime ∨ (a.2.endTime = b.2.endTime ∧ a.1 ≤ b.1))

/-- The active subscriptions of the user, in the order in which they are tried. -/
def World.activeSubscriptions (w : World) (now userId : ℤ) : List (ℤ × UserSubscription) :=
  ((w.subscriptionIds.filterMap fun id => (w.subscriptions id).map fun s => (id, s)).filter
    fun c => c.2.activeAt now userId).insertionSort fun a b => endsFirst a b = true

def hasActiveUserSubscription (env : Env) (userId : ℤ) (w : World) : Except Err Bool :=
  if userId ≤ 0 then .error (.text "invalid userId")
  else if env.fault 0 then .error .database
  else .ok (!(w.activeSubscriptions env.now userId).isEmpty)

def UserSubscription.reset (s : UserSubscription) : UserSubscription := { s with amountUsed := 0 }

/-- The candidate with its period reset, when the reset is due, saved in the same step. -/
def maybeResetUserSubscriptionWithPlanTx (env : Env) (site : ℕ) (due : ℤ → Bool) (id : ℤ)
    (sub : UserSubscription) : DBTx UserSubscription := do
  sql env site
  if due id then
    Tx.modify fun w => { w with subscriptions := w.subscriptions.put id sub.reset }
    return sub.reset
  else return sub

def maxInt64 : ℤ := 2 ^ 63 - 1

/-- The condition of the conditional update of `amount_used`. -/
def UserSubscription.takes (now userId amount : ℤ) (s : UserSubscription) : Bool :=
  s.activeAt now userId &&
    (if s.amountUsed < 0 ∨ maxInt64 - amount < s.amountUsed then false
     else if s.amountTotal ≤ 0 then true
     else decide (s.amountUsed + amount ≤ s.amountTotal))

def UserSubscription.addUsed (amount : ℤ) (s : UserSubscription) : UserSubscription :=
  { s with amountUsed := s.amountUsed + amount }

/-- The candidate is passed over: spent in the past, or without room for the amount. -/
def UserSubscription.lacksRoom (amount : ℤ) (s : UserSubscription) : Bool :=
  decide (s.amountUsed < 0) ||
    (decide (0 < s.amountTotal) &&
      (decide (s.amountTotal < s.amountUsed) || decide (s.amountTotal - s.amountUsed < amount)))

/-- The loop over the candidates; `k` counts them, to number their statements. The error
of the record's insertion is told apart, because the caller looks the record up then. -/
def preConsumeFrom (env : Env) (due : ℤ → Bool) (requestId : String) (userId amount : ℤ) :
    ℕ → List (ℤ × UserSubscription) → DBTx SubscriptionPreConsumeResult
  | _, [] => Tx.abort (.subscriptionQuotaInsufficient amount)
  | k, (id, candidate) :: rest => do
    let sub ← maybeResetUserSubscriptionWithPlanTx env (4 * k + 2) due id candidate
    if sub.lacksRoom amount then preConsumeFrom env due requestId userId amount (k + 1) rest
    else do
      Tx.statement (env.fault (4 * k + 3)) .duplicatedKey
      Tx.modify fun w => { w with
        preConsumeRecords := w.preConsumeRecords.put requestId
          { userId := userId, userSubscriptionId := id, preConsumed := amount,
            status := .consumed } }
      let rows ← subscriptionsTable.update (env.fault (4 * k + 4)) Err.database id
        (takes env.now userId amount) (addUsed amount)
      sql env (4 * k + 5)
      if rows = 1 then
        let w ← Tx.read
        match w.subscriptions id with
        | none => Tx.abort .recordNotFound
        | some updated => return {
            userSubscriptionId := id
            preConsumed := amount
            amountTotal := updated.amountTotal
            amountUsedBefore := updated.amountUsed - amount
            amountUsedAfter := updated.amountUsed }
      else do
        Tx.modify fun w => { w with preConsumeRecords := w.preConsumeRecords.remove requestId }
        preConsumeFrom env due requestId userId amount (k + 1) rest

/-- The result of an earlier pre-consumption under the same request id. -/
def populateSubscriptionPreConsumeResultTx (env : Env) (record : SubscriptionPreConsumeRecord)
    (expectedUserID expectedAmount : ℤ) : DBTx SubscriptionPreConsumeResult :=
  if record.userId ≠ expectedUserID then
    Tx.abort (.text ("subscription pre-consume request owner mismatch: got user " ++
      toString record.userId ++ " want " ++ toString expectedUserID))
  else if record.preConsumed ≠ expectedAmount then
    Tx.abort (.text ("subscription pre-consume request amount mismatch: got " ++
      toString record.preConsumed ++ " want " ++ toString expectedAmount))
  else match record.status with
    | .refunded => Tx.abort (.text "subscription pre-consume already refunded")
    | .consumed => do
      sql env 1
      let w ← Tx.read
      match w.subscriptions record.userSubscriptionId with
      | none => Tx.abort .recordNotFound
      | some sub =>
        if sub.userId ≠ expectedUserID then Tx.abort .recordNotFound
        else return {
          userSubscriptionId := record.userSubscriptionId
          preConsumed := record.preConsumed
          amountTotal := sub.amountTotal
          amountUsedBefore := sub.amountUsed
          amountUsedAfter := sub.amountUsed }

/-- A repeated request gets the first one's result. -/
def preConsumeBody (env : Env) (due : ℤ → Bool) (requestId : String) (userId amount : ℤ) :
    DBTx SubscriptionPreConsumeResult := do
  sql env 0
  let w ← Tx.read
  match w.preConsumeRecords requestId with
  | some existing => populateSubscriptionPreConsumeResultTx env existing userId amount
  | none => do
    sql env 1
    match w.activeSubscriptions env.now userId with
    | [] => Tx.abort .noActiveSubscription
    | candidates => preConsumeFrom env due requestId userId amount 0 candidates

/-- The second transaction, after the record could not be inserted. -/
def lookupBody (env : Env) (requestId : String) (userId amount : ℤ) :
    DBTx SubscriptionPreConsumeResult := do
  sql env 0
  let w ← Tx.read
  match w.preConsumeRecords requestId with
  | none => Tx.abort .recordNotFound
  | some existing => populateSubscriptionPreConsumeResultTx env existing userId amount

/-- An insertion that collides is answered with the other one's record. -/
def preConsumeUserSubscription (env lookup : Env) (due : ℤ → Bool) (requestId : String)
    (userId amount : ℤ) (w : World) : Except Err SubscriptionPreConsumeResult × World :=
  if userId ≤ 0 then (.error (.text "invalid userId"), w)
  else if requestId = "" then (.error (.text "requestId is empty"), w)
  else if amount ≤ 0 then (.error (.text "amount must be > 0"), w)
  else match dbTransaction env (preConsumeBody env due requestId userId amount) w with
    | (.ok result, w') => (.ok result, w')
    | (.error .duplicatedKey, w') =>
      match dbTransaction lookup (lookupBody lookup requestId userId amount) w' with
      | (.ok result, w'') => (.ok result, w'')
      | (.error .recordNotFound, w'') => (.error .duplicatedKey, w'')
      | (.error e, w'') => (.error e, w'')
    | (.error e, w') => (.error e, w')

/-- `amount_used` moved by a delta, never below zero. -/
def UserSubscription.moveUsed (delta : ℤ) (s : UserSubscription) : UserSubscription :=
  { s with amountUsed := if s.amountUsed + delta < 0 then 0 else s.amountUsed + delta }

def adjustmentRejected (subscriptionID : ℤ) : Err :=
  .text ("subscription quota adjustment rejected for subscription " ++ toString subscriptionID)

/-- A task is not charged beyond the total. -/
def adjustTaskSubscriptionQuota (env : Env) (site : ℕ) (subscriptionID delta : ℤ) : DBTx Unit :=
  if 0 < delta then
    subscriptionsTable.updateOne (env.fault site) .database
      (adjustmentRejected subscriptionID) subscriptionID
      (fun s => decide (s.amountTotal ≤ 0) || decide (s.amountUsed + delta ≤ s.amountTotal))
      (addUsed delta)
  else
    subscriptionsTable.updateOne (env.fault site) .database
      (adjustmentRejected subscriptionID) subscriptionID (fun _ => true)
      (moveUsed delta)

structure RefundClaim where
  record : Option SubscriptionPreConsumeRecord
  claimed : Bool

/-- Claim the refund of a pre-consumption; zero stands for no ownership guard. A request id has no
blanks around it here; the source trims them away. -/
def claimSubscriptionPreConsumeRefundTx (env : Env) (requestID : String)
    (expectedUserID expectedSubscriptionID : ℤ) : DBTx RefundClaim := do
  if requestID = "" then Tx.abort (.text "requestId is empty")
  else do
    sql env 4
    let w ← Tx.read
    match w.preConsumeRecords requestID with
    | none => return { record := none, claimed := false }
    | some record =>
      if 0 < expectedUserID ∧ record.userId ≠ expectedUserID then
        Tx.abort (.text ("subscription pre-consume user mismatch for request \"" ++ requestID ++
          "\": got " ++ toString record.userId ++ " want " ++ toString expectedUserID))
      else if 0 < expectedSubscriptionID ∧ record.userSubscriptionId ≠ expectedSubscriptionID then
        Tx.abort (.text ("subscription pre-consume owner mismatch for request \"" ++ requestID ++
          "\": got " ++ toString record.userSubscriptionId ++ " want " ++
          toString expectedSubscriptionID))
      else match record.status with
        | .refunded => return { record := some record, claimed := false }
        | .consumed => do
          let rows ← preConsumeRecordsTable.update (env.fault 5) Err.database requestID
            (fun r => decide (r.status = .consumed)) (fun r => { r with status := .refunded })
          return { record := some record, claimed := decide (rows = 1) }

/-- Only the call that claims the record gives the quota back. -/
def refundSubscriptionPreConsume (env : Env) (requestId : String) (w : World) :
    Except Err Unit × World :=
  if requestId = "" then (.error (.text "requestId is empty"), w)
  else dbTransaction env (do
    let claim ← claimSubscriptionPreConsumeRefundTx env requestId 0 0
    match claim.record with
    | none => Tx.abort .recordNotFound
    | some record =>
      if !claim.claimed || decide (record.preConsumed ≤ 0) then pure ()
      else adjustTaskSubscriptionQuota env 6 record.userSubscriptionId (-record.preConsumed)) w

/-- Moves the use by a difference, not below zero. -/
def postConsumeUserSubscriptionDelta (env : Env) (userSubscriptionId delta : ℤ) (w : World) :
    Except Err Unit × World :=
  if userSubscriptionId ≤ 0 then (.error (.text "invalid userSubscriptionId"), w)
  else if delta = 0 then (.ok (), w)
  else dbTransaction env (do
    sql env 0
    let w ← Tx.read
    match w.subscriptions userSubscriptionId with
    | none => Tx.abort .recordNotFound
    | some sub =>
      let moved := sub.moveUsed delta
      if 0 < sub.amountTotal ∧ sub.amountTotal < moved.amountUsed then
        Tx.abort (.text ("subscription used exceeds total, used=" ++
          toString moved.amountUsed ++ " total=" ++ toString sub.amountTotal))
      else do
        sql env 1
        Tx.modify fun w => { w with
          subscriptions := w.subscriptions.put userSubscriptionId moved }) w

def World.modifySubscription (id : ℤ) (f : UserSubscription → UserSubscription) (w : World) :
    World :=
  { w with subscriptions := w.subscriptions.modify id f }

section PreConsume
variable {env : Env} {w w' : World} {site : ℕ} {id delta : ℤ}

/-- The row moves by the delta, clamped at zero only when the delta is not positive. -/
def UserSubscription.adjusted (delta : ℤ) : UserSubscription → UserSubscription :=
  if 0 < delta then addUsed delta else moveUsed delta

theorem adjustTaskSubscriptionQuota_eq_ok {u : Unit} :
    adjustTaskSubscriptionQuota env site id delta w = .ok (u, w') ↔ env.fault site = false ∧
      (∃ s, w.subscriptions id = some s ∧
        (0 < delta → s.amountTotal ≤ 0 ∨ s.amountUsed + delta ≤ s.amountTotal)) ∧
      w' = w.modifySubscription id (adjusted delta) := by
  unfold adjustTaskSubscriptionQuota adjusted
  split_ifs with hd <;> simp [TableIn.updateOne_eq_ok, hd, World.modifySubscription]

theorem adjustTaskSubscriptionQuota_calm (hcalm : ∀ i, env.fault i = false) (hdlt : delta ≤ 0)
    (hs : ∃ s, w.subscriptions id = some s) : adjustTaskSubscriptionQuota env site id delta w =
      .ok ((), w.modifySubscription id (moveUsed delta)) := by
  obtain ⟨s, hs⟩ := hs
  have hneg : ¬ 0 < delta := by omega
  rw [adjustTaskSubscriptionQuota_eq_ok, adjusted, if_neg hneg]
  exact ⟨hcalm _, ⟨s, hs, fun h => absurd h hneg⟩, rfl⟩

theorem atomic_postConsumeUserSubscriptionDelta (env : Env) (id delta : ℤ) :
    Atomic (postConsumeUserSubscriptionDelta env id delta) :=
  (atomic_return _).ite ((atomic_return _).ite (atomic_commit _ _ _))

theorem atomic_refundSubscriptionPreConsume (env : Env) (requestId : String) :
    Atomic (refundSubscriptionPreConsume env requestId) :=
  (atomic_return _).ite (atomic_commit _ _ _)

/-- A nonzero adjustment returns when nothing fails and the row keeps within its total. -/
theorem postConsumeUserSubscriptionDelta_eq_ok (hd : delta ≠ 0) :
    postConsumeUserSubscriptionDelta env id delta w = (.ok (), w') ↔
      (env.fault commitSite = false ∧ env.fault 0 = false ∧ env.fault 1 = false) ∧ 0 < id ∧
        ∃ s, w.subscriptions id = some s ∧
          (s.amountTotal ≤ 0 ∨ (s.moveUsed delta).amountUsed ≤ s.amountTotal) ∧
          w' = w.modifySubscription id (moveUsed delta) := by
  unfold postConsumeUserSubscriptionDelta dbTransaction
  by_cases hid : id ≤ 0
  · simp [hid, not_lt.mpr hid]
  rw [if_neg hid, if_neg hd, commit_eq_ok, sql_bind_eq_ok, Tx.read_bind]
  cases hs : w.subscriptions id with
  | none => simp
  | some s =>
    dsimp only
    split_ifs with hover
    · simp only [Tx.abort_apply, reduceCtorEq, and_false, false_iff]
      rintro ⟨-, -, r, hr, hroom, -⟩
      cases hr
      omega
    rw [sql_bind_eq_ok, Tx.modify_apply, Except.ok.injEq, Prod.mk.injEq, Table.put_eq_modify hs]
    constructor
    · rintro ⟨hc, h0, h1, -, rfl⟩
      exact ⟨⟨hc, h0, h1⟩, by omega, s, rfl, by omega, rfl⟩
    · rintro ⟨⟨hc, h0, h1⟩, -, -, -, -, rfl⟩
      exact ⟨hc, h0, h1, rfl, rfl⟩

variable {s c : UserSubscription}

variable {requestId : String} {expectedUserID expectedSubID : ℤ}

def World.markRefunded (requestId : String) (w : World) : World :=
  { w with
    preConsumeRecords := w.preConsumeRecords.modify requestId fun r => { r with status := .refunded } }

/-- A claim that returned: there was no record, or its owner matched and the record is
refunded now; it is claimed exactly when it was not refunded before. -/
theorem claimSubscriptionPreConsumeRefundTx_ok {claim : RefundClaim}
    (h : claimSubscriptionPreConsumeRefundTx env requestId expectedUserID expectedSubID w =
      .ok (claim, w')) : claim.record = w.preConsumeRecords requestId ∧
      match claim.record with
      | none => claim.claimed = false ∧ w' = w
      | some r =>
        (0 < expectedUserID → r.userId = expectedUserID) ∧
        (0 < expectedSubID → r.userSubscriptionId = expectedSubID) ∧
        ((r.status = .refunded ∧ claim.claimed = false ∧ w' = w) ∨
          (r.status = .consumed ∧ claim.claimed = true ∧ w' = w.markRefunded requestId)) := by
  unfold claimSubscriptionPreConsumeRefundTx at h
  by_cases hemp : requestId = ""
  · simp [hemp] at h
  rw [if_neg hemp, sql_bind_eq_ok, Tx.read_bind] at h
  obtain ⟨-, h⟩ := h
  cases hr : w.preConsumeRecords requestId with
  | none =>
    simp only [hr] at h
    cases h
    exact ⟨rfl, rfl, rfl⟩
  | some r =>
    simp only [hr] at h
    by_cases hu : 0 < expectedUserID ∧ r.userId ≠ expectedUserID
    · simp [hu] at h
    by_cases hs : 0 < expectedSubID ∧ r.userSubscriptionId ≠ expectedSubID
    · simp [hu, hs] at h
    rw [if_neg hu, if_neg hs] at h
    have hu' : 0 < expectedUserID → r.userId = expectedUserID := by
      intro hp
      by_contra hne
      exact hu ⟨hp, hne⟩
    have hs' : 0 < expectedSubID → r.userSubscriptionId = expectedSubID := by
      intro hp
      by_contra hne
      exact hs ⟨hp, hne⟩
    cases hst : r.status with
    | refunded =>
      simp only [hst] at h
      cases h
      exact ⟨rfl, hu', hs', .inl ⟨hst, rfl, rfl⟩⟩
    | consumed =>
      simp only [hst, Tx.bind_eq_ok, TableIn.update_eq_ok, Tx.pure_eq_ok] at h
      obtain ⟨n, v, ⟨-, ⟨rfl, -, rfl⟩ | ⟨-, hno, -⟩⟩, rfl, rfl⟩ := h
      · exact ⟨rfl, hu', hs', .inr ⟨hst, rfl, rfl⟩⟩
      · have := hno r hr
        simp [hst] at this

/-- A refund that returned: the record was refunded already, or it is now, and the
subscription got back what the record had consumed. -/
theorem refundSubscriptionPreConsume_ok
    (h : refundSubscriptionPreConsume env requestId w = (.ok (), w')) :
    ∃ r, w.preConsumeRecords requestId = some r ∧ ((r.status = .refunded ∧ w' = w) ∨
        (r.status = .consumed ∧ r.preConsumed ≤ 0 ∧ w' = w.markRefunded requestId) ∨
        (r.status = .consumed ∧ 0 < r.preConsumed ∧
          (∃ s, w.subscriptions r.userSubscriptionId = some s) ∧
          w' = (w.markRefunded requestId).modifySubscription r.userSubscriptionId
            (moveUsed (-r.preConsumed)))) := by
  unfold refundSubscriptionPreConsume dbTransaction at h
  by_cases hemp : requestId = ""
  · simp [hemp] at h
  rw [if_neg hemp, commit_eq_ok, Tx.bind_eq_ok] at h
  obtain ⟨-, claim, v, hclm, h⟩ := h
  obtain ⟨hrec, hcase⟩ := claimSubscriptionPreConsumeRefundTx_ok hclm
  cases hr : claim.record with
  | none => simp [hr] at h
  | some r =>
    rw [hr] at hrec hcase h
    refine ⟨r, hrec.symm, ?_⟩
    obtain ⟨-, -, ⟨hst, hc, rfl⟩ | ⟨hst, hc, rfl⟩⟩ := hcase
    · simp only [hc, Bool.not_false, Bool.true_or, if_true, Tx.pure_eq_ok, true_and] at h
      exact .inl ⟨hst, h.symm⟩
    by_cases hp : r.preConsumed ≤ 0
    · simp only [hc, hp, Bool.not_true, decide_true, Bool.or_true, if_true, Tx.pure_eq_ok,
        true_and] at h
      exact .inr (.inl ⟨hst, hp, h.symm⟩)
    simp only [hc, hp, Bool.not_true, decide_false, Bool.or_false, Bool.false_eq_true,
      if_false] at h
    obtain ⟨-, ⟨s, hs, -⟩, rfl⟩ := adjustTaskSubscriptionQuota_eq_ok.mp h
    have hneg : ¬ 0 < -r.preConsumed := by omega
    refine .inr (.inr ⟨hst, by omega, ⟨s, hs⟩, ?_⟩)
    rw [adjusted, if_neg hneg]

/-- Without faults, a claim returns on a record that its guards let pass. -/
theorem claimSubscriptionPreConsumeRefundTx_calm (hcalm : ∀ i, env.fault i = false)
    (hreq : requestId ≠ "") (hown : ∀ r, w.preConsumeRecords requestId = some r →
      ¬(0 < expectedUserID ∧ r.userId ≠ expectedUserID) ∧
        ¬(0 < expectedSubID ∧ r.userSubscriptionId ≠ expectedSubID)) : ∃ claim w₁,
      claimSubscriptionPreConsumeRefundTx env requestId expectedUserID expectedSubID w =
        .ok (claim, w₁) := by
  simp only [claimSubscriptionPreConsumeRefundTx, if_neg hreq, sql_bind_eq_ok, Tx.read_bind,
    hcalm, true_and]
  cases hr : w.preConsumeRecords requestId with
  | none => exact ⟨_, _, rfl⟩
  | some r =>
    obtain ⟨hu, hs⟩ := hown r hr
    simp only [if_neg hu, if_neg hs]
    cases hst : r.status with
    | refunded => exact ⟨_, _, rfl⟩
    | consumed =>
      exact ⟨_, _, Tx.bind_eq_ok.mpr ⟨1, _, TableIn.update_eq_ok.mpr
        ⟨rfl, .inl ⟨rfl, ⟨r, hr, decide_eq_true hst⟩, rfl⟩⟩, rfl⟩⟩

theorem refundSubscriptionPreConsume_calm (hcalm : ∀ i, env.fault i = false) (hreq : requestId ≠ "")
    {r : SubscriptionPreConsumeRecord} (hr : w.preConsumeRecords requestId = some r)
    (hst : r.status = .consumed) (hp : 0 < r.preConsumed)
    (hs : w.subscriptions r.userSubscriptionId = some s) :
    refundSubscriptionPreConsume env requestId w =
      (.ok (), (w.markRefunded requestId).modifySubscription r.userSubscriptionId
        (moveUsed (-r.preConsumed))) := by
  obtain ⟨claim, v, hclm⟩ := claimSubscriptionPreConsumeRefundTx_calm (w := w) hcalm hreq
    fun _ _ => ⟨fun h => absurd h.1 (lt_irrefl 0), fun h => absurd h.1 (lt_irrefl 0)⟩
  obtain ⟨hrec, hcase⟩ := claimSubscriptionPreConsumeRefundTx_ok hclm
  rw [hrec, hr] at hcase
  obtain ⟨-, -, ⟨hst', -⟩ | ⟨-, hc, rfl⟩⟩ := hcase
  · cases hst.symm.trans hst'
  have hle : ¬ r.preConsumed ≤ 0 := by omega
  rw [refundSubscriptionPreConsume, if_neg hreq, dbTransaction, commit_eq_ok, Tx.bind_eq_ok]
  refine ⟨hcalm _, _, _, hclm, ?_⟩
  simp only [hrec, hr, hc, Bool.not_true, hle, decide_false, Bool.or_self, Bool.false_eq_true,
    if_false]
  exact adjustTaskSubscriptionQuota_calm hcalm (by omega) ⟨s, hs⟩

variable {due : ℤ → Bool} {userId amount : ℤ}

/-- The subscription in the current period: reset if that falls due. -/
def UserSubscription.current (due : Bool) (s : UserSubscription) : UserSubscription :=
  if due then s.reset else s

/-- The rows stay, or start again where they are due. -/
def ResetsOnly (due : ℤ → Bool) (t t' : Table ℤ UserSubscription) : Prop :=
  ∀ j, t' j = t j ∨ (due j = true ∧ t' j = (t j).map reset)

/-- One subscription was charged, in its current period, and a record says so. -/
structure PreConsumed (due : ℤ → Bool) (requestId : String) (userId amount : ℤ) (w w' : World)
    (r : SubscriptionPreConsumeResult) : Prop where
  amount_eq : r.preConsumed = amount
  charged : ∃ s, w.subscriptions r.userSubscriptionId = some s ∧
    0 ≤ (s.current (due r.userSubscriptionId)).amountUsed ∧ w'.subscriptions r.userSubscriptionId =
      some ((s.current (due r.userSubscriptionId)).addUsed amount)
  within : ∀ s, w'.subscriptions r.userSubscriptionId = some s →
    s.amountTotal ≤ 0 ∨ s.amountUsed ≤ s.amountTotal
  others : ∀ j, j ≠ r.userSubscriptionId → w'.subscriptions j = w.subscriptions j ∨
    (due j = true ∧ w'.subscriptions j = (w.subscriptions j).map reset)
  rest : w' = { w with
    subscriptions := w'.subscriptions
    preConsumeRecords := w.preConsumeRecords.put requestId
      { userId := userId, userSubscriptionId := r.userSubscriptionId, preConsumed := amount,
        status := .consumed } }

theorem maybeReset_ok {site : ℕ} {id : ℤ} {sub : UserSubscription} {v v' : World}
    (hc : v.subscriptions id = some c ∨ due id = true)
    (h : maybeResetUserSubscriptionWithPlanTx env site due id c v = .ok (sub, v')) :
    sub = c.current (due id) ∧ v' = { v with subscriptions := v'.subscriptions } ∧
      v'.subscriptions id = some sub ∧ ∀ j, j ≠ id → v'.subscriptions j = v.subscriptions j := by
  unfold maybeResetUserSubscriptionWithPlanTx at h
  rw [sql_bind_eq_ok] at h
  obtain ⟨-, h⟩ := h
  cases hd : due id with
  | true =>
    rw [if_pos hd, Tx.modify_bind] at h
    cases h
    exact ⟨rfl, rfl, Table.put_self _ _ _, fun j hj => Table.put_of_ne _ _ hj⟩
  | false =>
    simp only [hd, Bool.false_eq_true, if_false, Tx.pure_eq_ok, or_false] at h hc
    obtain ⟨rfl, rfl⟩ := h
    exact ⟨rfl, rfl, hc, fun _ _ => rfl⟩

theorem ResetsOnly.set {t t₁ t₂ : Table ℤ UserSubscription} {id : ℤ}
    (h : ResetsOnly due t t₁) (hc : t id = some c) (hid : t₂ id = some (c.current (due id)))
    (hoth : ∀ j, j ≠ id → t₂ j = t₁ j) : ResetsOnly due t t₂ := by
  intro j
  by_cases hj : j = id
  · subst hj
    cases hd : due j with
    | true => exact .inr ⟨rfl, by rw [hid, hc, hd]; rfl⟩
    | false => exact .inl (by rw [hid, hc, hd]; rfl)
  · rw [hoth j hj]
    exact h j

variable {now : ℤ} {r : SubscriptionPreConsumeResult}

theorem UserSubscription.nonneg_of_takes
    (h : s.takes now userId amount = true) : 0 ≤ s.amountUsed := by
  unfold takes at h
  by_contra hneg
  have hlt : s.amountUsed < 0 := by omega
  simp [hlt] at h

theorem UserSubscription.within_of_takes (h : s.takes now userId amount = true) :
    (s.addUsed amount).amountTotal ≤ 0 ∨ (s.addUsed amount).amountUsed ≤
      (s.addUsed amount).amountTotal := by
  unfold takes at h
  simp only [Bool.and_eq_true] at h
  obtain ⟨-, h⟩ := h
  split_ifs at h with h₁ h₂
  · exact .inl h₂
  · exact .inr (by simpa [addUsed] using h)

/-- The loop charges one candidate; the candidates before it were at most reset. -/
theorem preConsumeFrom_ok (hnone : w.preConsumeRecords requestId = none) {v' : World}
    (cands : List (ℤ × UserSubscription)) (hcands : ∀ c ∈ cands, w.subscriptions c.1 = some c.2) :
    ∀ (k : ℕ) (v : World), v = { w with subscriptions := v.subscriptions } →
      ResetsOnly due w.subscriptions v.subscriptions →
      preConsumeFrom env due requestId userId amount k cands v = .ok (r, v') →
      PreConsumed due requestId userId amount w v' r := by
  induction cands with
  | nil =>
    intro k v _ _ h
    cases h
  | cons c rest ih =>
    obtain ⟨id, candidate⟩ := c
    have hcand : w.subscriptions id = some candidate := hcands _ List.mem_cons_self
    have ih' := ih fun c hc => hcands c (List.mem_cons_of_mem _ hc)
    intro k v hv hres h
    have hrow : v.subscriptions id = some candidate ∨ due id = true := by
      rcases hres id with he | ⟨hd, -⟩
      · exact .inl (he.trans hcand)
      · exact .inr hd
    simp only [preConsumeFrom, Tx.bind_eq_ok (x := maybeResetUserSubscriptionWithPlanTx _ _ _ _ _)]
      at h
    obtain ⟨sub, v₁, hreset, h⟩ := h
    obtain ⟨rfl, hv₁, hid, hoth⟩ := maybeReset_ok hrow hreset
    have hv₁' : v₁ = { w with subscriptions := v₁.subscriptions } := by rw [hv₁, hv]
    have hres₁ := hres.set hcand hid hoth
    by_cases hroom : (candidate.current (due id)).lacksRoom amount = true
    · rw [if_pos hroom] at h
      exact ih' (k + 1) v₁ hv₁' hres₁ h
    rw [if_neg hroom, Tx.statement_bind_eq_ok, Tx.modify_bind, Tx.bind_eq_ok] at h
    obtain ⟨-, rows, v₂, hupd, h⟩ := h
    rw [sql_bind_eq_ok] at h
    obtain ⟨-, h⟩ := h
    obtain ⟨-, ⟨rfl, ⟨s, hs, htk⟩, rfl⟩ | ⟨rfl, -, rfl⟩⟩ := TableIn.update_eq_ok.mp hupd
    · have hcur : s = candidate.current (due id) := Option.some.inj (hs.symm.trans hid)
      subst hcur
      simp only [if_true, Tx.read_bind, subscriptionsTable_set, subscriptionsTable_get,
        Table.modify_self, hid, Option.map_some, Tx.pure_eq_ok] at h
      obtain ⟨rfl, rfl⟩ := h
      refine ⟨rfl, ⟨candidate, hcand, ?_, ?_⟩, ?_, ?_, ?_⟩
      · exact nonneg_of_takes htk
      · simp [hid]
      · intro t ht
        simp only [Table.modify_self, hid, Option.map_some, Option.some.injEq] at ht
        exact ht ▸ within_of_takes htk
      · intro j hj
        have hj' : j ≠ id := hj
        simpa [Table.modify_of_ne _ _ hj'] using hres₁ j
      · rw [hv₁']
    · have hrec : v₁.preConsumeRecords = w.preConsumeRecords := by rw [hv₁']
      simp only [zero_ne_one, if_false, Tx.modify_bind] at h
      rw [Table.remove_put (by rw [hrec]; exact hnone)] at h
      exact ih' (k + 1) v₁ hv₁' hres₁ h

theorem mem_activeSubscriptions {c : ℤ × UserSubscription}
    (h : c ∈ w.activeSubscriptions now userId) : w.subscriptions c.1 = some c.2 := by
  unfold World.activeSubscriptions at h
  rw [List.mem_insertionSort, List.mem_filter, List.mem_filterMap] at h
  obtain ⟨⟨id, -, hid⟩, -⟩ := h
  obtain ⟨s, hs, rfl⟩ := Option.map_eq_some_iff.mp hid
  exact hs

theorem preConsumeBody_ok {w' : World} (hfr : w.preConsumeRecords requestId = none)
    (h : preConsumeBody env due requestId userId amount w = .ok (r, w')) :
    PreConsumed due requestId userId amount w w' r := by
  unfold preConsumeBody at h
  rw [sql_bind_eq_ok, Tx.read_bind, hfr] at h
  obtain ⟨-, h⟩ := h
  rw [sql_bind_eq_ok] at h
  obtain ⟨-, h⟩ := h
  cases hc : w.activeSubscriptions env.now userId with
  | nil => simp [hc] at h
  | cons c cs =>
    rw [hc] at h
    refine preConsumeFrom_ok hfr (c :: cs) (fun d hd => ?_) 0 w rfl (fun _ => .inl rfl) h
    exact mem_activeSubscriptions (hc ▸ hd)

theorem lookupBody_fresh (lookup : Env) (userId amount : ℤ)
    (hfr : w.preConsumeRecords requestId = none) : ∃ e, (e = .recordNotFound ∨ e = .database) ∧
      lookupBody lookup requestId userId amount w = .error e := by
  unfold lookupBody sql
  cases lookup.fault 0 with
  | true => exact ⟨.database, .inr rfl, rfl⟩
  | false => exact ⟨.recordNotFound, .inl rfl, by simp [Tx.bind_apply, hfr]⟩

theorem preConsumeUserSubscription_ok {lookup : Env} {w' : World}
    (hfr : w.preConsumeRecords requestId = none)
    (h : preConsumeUserSubscription env lookup due requestId userId amount w = (.ok r, w')) :
    0 < amount ∧ requestId ≠ "" ∧ PreConsumed due requestId userId amount w w' r := by
  unfold preConsumeUserSubscription at h
  by_cases huser : userId ≤ 0
  · simp [huser] at h
  by_cases hreq : requestId = ""
  · simp [huser, hreq] at h
  by_cases ham : amount ≤ 0
  · simp [huser, hreq, ham] at h
  rw [if_neg huser, if_neg hreq, if_neg ham] at h
  refine ⟨by omega, hreq, ?_⟩
  rcases (atomic_commit (env.fault commitSite) Err.database
    (preConsumeBody env due requestId userId amount)).cases w with ⟨a, v, hc⟩ | ⟨e, hc⟩
  · simp only [dbTransaction, hc] at h
    cases h
    exact preConsumeBody_ok hfr (commit_eq_ok.mp hc).2
  simp only [dbTransaction, hc] at h
  obtain ⟨e', he', hl⟩ := lookupBody_fresh lookup userId amount hfr
  have hlook : commit (lookup.fault commitSite) Err.database
      (lookupBody lookup requestId userId amount) w = (.error e', w) := by
    simp [commit, hl]
  cases e <;> rcases he' with rfl | rfl <;> simp [hlook] at h

theorem atomic_preConsumeUserSubscription (env lookup : Env) (due : ℤ → Bool) (requestId : String)
    (userId amount : ℤ) :
    Atomic (preConsumeUserSubscription env lookup due requestId userId amount) := by
  refine (atomic_return _).ite ((atomic_return _).ite ((atomic_return _).ite ?_))
  intro w err w' h
  rcases (atomic_commit (env.fault commitSite) Err.database
    (preConsumeBody env due requestId userId amount)).cases w with ⟨a, v, hc⟩ | ⟨e, hc⟩
  · simp [dbTransaction, hc] at h
  rcases (atomic_commit (lookup.fault commitSite) Err.database
    (lookupBody lookup requestId userId amount)).cases w with ⟨a, v, hl⟩ | ⟨e', hl⟩
  · cases e <;> simp_all [dbTransaction]
  · cases e <;> cases e' <;> simp_all [dbTransaction]

end PreConsume

end NewApi
