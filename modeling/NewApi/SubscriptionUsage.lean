import NewApi.Runs
import NewApi.TaskBillingSteps

/-!
# Usage of subscriptions

A subscription's `amount_used` is changed by pre-consumption, its refund, post-consumption,
the billing of tasks and the periodic reset. Each is one transaction, so a list of calls is
an interleaving of them. `UsageChange` names what one call did to the table, with the amount
that the call names, and `RowChange` what that was for one subscription.
-/
namespace NewApi
open UserSubscription

/-- A row that cannot be read any more is passed over without an error. -/
def resetDueBody (env : Env) (due : ℤ → Bool) (id : ℤ) : DBTx Unit := do
  let w ← Tx.read
  match if env.fault 0 then none else w.subscriptions id with
  | none => pure ()
  | some locked => do
    let _ ← maybeResetUserSubscriptionWithPlanTx env 1 due id locked
    pure ()

/-- The transaction of `ResetDueSubscriptions` for one of the subscriptions that it found. -/
def resetDueSubscription (env : Env) (due : ℤ → Bool) (id : ℤ) (w : World) :
    Except Err Unit × World :=
  dbTransaction env (resetDueBody env due id) w

/-- What a call did to `amount_used`, apart from resets. -/
inductive UsageChange where
  | none
  | raised (id amount : ℤ)
  | returned (id amount : ℤ)
  | settled (id delta : ℤ)
  deriving DecidableEq

abbrev Subscriptions := Table ℤ UserSubscription

/-- The table was changed in this way, after resets of subscriptions for which that was due. -/
def UsageChange.Explains (due : ℤ → Bool) (t t' : Subscriptions) : UsageChange → Prop
  | .none => ResetsOnly due t t'
  | .raised id amount => 0 < amount ∧ ∃ t₀ s, ResetsOnly due t t₀ ∧ t₀ id = some s ∧
      (s.amountTotal ≤ 0 ∨ s.amountUsed + amount ≤ s.amountTotal) ∧
      t' = t₀.modify id (addUsed amount)
  | .returned id amount => 0 < amount ∧ (∃ s, t id = some s) ∧ t' = t.modify id (moveUsed (-amount))
  | .settled id delta => (∃ s, t id = some s ∧
        (s.amountTotal ≤ 0 ∨ (s.moveUsed delta).amountUsed ≤ s.amountTotal)) ∧
      t' = t.modify id (moveUsed delta)

/-- No reset falls due in the calls that do not look for one. -/
def noneDue : ℤ → Bool := fun _ => false

theorem ResetsOnly.refl (due : ℤ → Bool) (t : Subscriptions) : ResetsOnly due t t :=
  fun _ => .inl rfl

theorem UsageChange.none_explains (due : ℤ → Bool) (t : Subscriptions) :
    UsageChange.none.Explains due t t := ResetsOnly.refl due t

open UsageChange (none_explains)

theorem dbTransaction_same {α : Type} (env : Env) {body : DBTx α} {w : World}
    (hbody : ∀ a v, body w = .ok (a, v) → v = w) : (dbTransaction env body w).2 = w := by
  cases hrun : dbTransaction env body w with
  | mk result v =>
    cases result with
    | error e => exact atomic_commit _ _ _ w e v hrun
    | ok a => exact hbody a v (commit_eq_ok.mp hrun).2

section Others
variable {env lookup : Env} {due : ℤ → Bool} {requestId : String} {userId amount : ℤ} {w w' : World}

variable {r : SubscriptionPreConsumeResult}

/-- The table before the charge, with the resets of the loop. -/
theorem PreConsumed.explained (ham : 0 < amount)
    (h : PreConsumed due requestId userId amount w w' r) :
    (UsageChange.raised r.userSubscriptionId amount).Explains due w.subscriptions
      w'.subscriptions := by
  obtain ⟨s, hs, -, hs'⟩ := h.charged
  have hroom := h.within _ hs'
  refine ⟨ham, w'.subscriptions.put r.userSubscriptionId
    (s.current (due r.userSubscriptionId)), _, ?_, Table.put_self _ _ _, ?_, ?_⟩
  · intro j
    by_cases hj : j = r.userSubscriptionId
    · subst hj
      rw [Table.put_self, hs]
      cases hd : due r.userSubscriptionId with
      | true => exact .inr ⟨rfl, rfl⟩
      | false => exact .inl rfl
    · rw [Table.put_of_ne _ _ hj]
      exact h.others j hj
  · simpa [addUsed] using hroom
  · funext j
    by_cases hj : j = r.userSubscriptionId
    · subst hj
      rw [hs', Table.modify_self, Table.put_self]
      rfl
    · rw [Table.modify_of_ne _ _ hj, Table.put_of_ne _ _ hj]

variable {record : SubscriptionPreConsumeRecord}

theorem populateSubscriptionPreConsumeResultTx_ok
    (h : populateSubscriptionPreConsumeResultTx env record userId amount w = .ok (r, w')) :
    w' = w := by
  unfold populateSubscriptionPreConsumeResultTx at h
  split_ifs at h with huser ham
  · cases h
  · cases h
  · cases hst : record.status with
    | refunded => simp [hst] at h
    | consumed =>
      simp only [hst, sql_bind_eq_ok, Tx.read_bind] at h
      obtain ⟨-, h⟩ := h
      cases hs : w.subscriptions record.userSubscriptionId with
      | none => simp [hs] at h
      | some s =>
        simp only [hs] at h
        split_ifs at h with howner
        · cases h
        · cases h
          rfl

theorem preConsumeUserSubscription_known (hkn : w.preConsumeRecords requestId = some record) :
    (preConsumeUserSubscription env lookup due requestId userId amount w).2 = w := by
  have hbody : ∀ r v, preConsumeBody env due requestId userId amount w = .ok (r, v) → v = w := by
    intro r v h
    unfold preConsumeBody at h
    rw [sql_bind_eq_ok, Tx.read_bind, hkn] at h
    exact populateSubscriptionPreConsumeResultTx_ok h.2
  have hlk : ∀ r v, lookupBody lookup requestId userId amount w = .ok (r, v) → v = w := by
    intro r v h
    unfold lookupBody at h
    rw [sql_bind_eq_ok, Tx.read_bind, hkn] at h
    exact populateSubscriptionPreConsumeResultTx_ok h.2
  have hfst := dbTransaction_same env hbody
  have hsnd := dbTransaction_same lookup hlk
  unfold preConsumeUserSubscription
  split_ifs
  · rfl
  · rfl
  · rfl
  · cases hrun : dbTransaction env (preConsumeBody env due requestId userId amount) w with
    | mk result v =>
      rw [hrun] at hfst
      subst hfst
      cases result with
      | ok r => rfl
      | error e =>
        cases hrun' : dbTransaction lookup (lookupBody lookup requestId userId amount) v with
        | mk result' v' =>
          rw [hrun'] at hsnd
          subst hsnd
          cases e <;> simp only [hrun']
          cases result' with
          | ok r => rfl
          | error e' => cases e' <;> rfl

/-- Everything a pre-consumption can do: nothing, or one charge under a new request id. -/
theorem preConsumeUserSubscription_cases (env lookup : Env) (due : ℤ → Bool) (requestId : String)
    (userId amount : ℤ) (w : World) :
    (preConsumeUserSubscription env lookup due requestId userId amount w).2 = w ∧
        (w.preConsumeRecords requestId = none →
          ∃ e, (preConsumeUserSubscription env lookup due requestId userId amount w).1 = .error e) ∨
      w.preConsumeRecords requestId = none ∧ requestId ≠ "" ∧ 0 < amount ∧ ∃ r w',
        preConsumeUserSubscription env lookup due requestId userId amount w = (.ok r, w') ∧
        PreConsumed due requestId userId amount w w' r := by
  cases hkn : w.preConsumeRecords requestId with
  | some record => exact .inl ⟨preConsumeUserSubscription_known hkn, fun hnone => by cases hnone⟩
  | none =>
    rcases (atomic_preConsumeUserSubscription env lookup due requestId userId amount).cases w
      with ⟨r, w', h⟩ | ⟨e, h⟩
    · obtain ⟨ham, hname, hchg⟩ := preConsumeUserSubscription_ok hkn h
      exact .inr ⟨rfl, hname, ham, r, w', h, hchg⟩
    · exact .inl ⟨by rw [h], fun _ => ⟨e, by rw [h]⟩⟩

variable {t : Task} {expected next : TaskBillingStatus}

/-- The billing step gives everything back under a request id. -/
def Task.FullRefund (t : Task) (expected next : TaskBillingStatus) : Prop :=
  t.isSubscription = true ∧ expected = .finalizePending ∧ next = .refunded ∧
    t.billingTargetQuota = 0 ∧ t.privateData.requestId.toList.all isSpace = false

/-- A claim of the billing step: a full refund takes the record if there is one, and every
other step leaves the records alone. -/
structure SubscriptionClaimed (t : Task) (expected next : TaskBillingStatus) (adjusts : Bool)
    (records records' : Table String SubscriptionPreConsumeRecord) : Prop where
  other : ¬ t.FullRefund expected next → records' = records ∧ adjusts = decide (t.billingDelta ≠ 0)
  unrecorded : t.FullRefund expected next → records t.privateData.requestId = none →
    records' = records ∧ adjusts = decide (t.billingDelta ≠ 0)
  recorded : t.FullRefund expected next → ∀ r, records t.privateData.requestId = some r →
    r.userSubscriptionId = t.privateData.subscriptionId ∧
      ((r.status = .refunded ∧ adjusts = false ∧ records' = records) ∨
        (r.status = .consumed ∧ adjusts = decide (t.billingDelta ≠ 0) ∧
          records' = records.modify t.privateData.requestId fun r =>
            { r with status := .refunded }))

variable {b : Bool}

theorem claimsSubscription_claimed (h : claimsSubscription env t expected next w = .ok (b, w')) :
    SubscriptionClaimed t expected next b w.preConsumeRecords w'.preConsumeRecords := by
  unfold claimsSubscription at h
  split_ifs at h with hfull
  · rw [Tx.bind_eq_ok] at h
    obtain ⟨claim, v, hclm, h⟩ := h
    obtain ⟨hrec, hcase⟩ := claimSubscriptionPreConsumeRefundTx_ok hclm
    refine ⟨fun hno => absurd hfull hno, ?_, ?_⟩
    · intro _ hnone
      rw [hrec, hnone] at hcase h
      cases h
      exact ⟨by rw [hcase.2], rfl⟩
    · intro _ r hr
      rw [hrec, hr] at hcase h
      cases h
      obtain ⟨-, howner, hcase⟩ := hcase
      refine ⟨howner (Task.isSubscription_id hfull.1), ?_⟩
      rcases hcase with ⟨hst, hc, rfl⟩ | ⟨hst, hc, rfl⟩
      · exact .inl ⟨hst, by simp [hc], rfl⟩
      · exact .inr ⟨hst, by simp [hc], rfl⟩
  · cases h
    exact ⟨fun _ => ⟨rfl, rfl⟩, fun hyes => absurd hyes hfull, fun hyes => absurd hyes hfull⟩

variable {u : Unit}

/-- The adjustment was made, and stayed within the total where it took more. -/
theorem adjustTaskSubscriptionQuota_explained {site : ℕ} {id delta : ℤ}
    (hdlt : delta ≠ 0) (h : adjustTaskSubscriptionQuota env site id delta w = .ok (u, w')) :
    (if 0 < delta then UsageChange.raised id delta else .returned id (-delta)).Explains noneDue
      w.subscriptions w'.subscriptions := by
  obtain ⟨-, ⟨s, hs, hroom⟩, rfl⟩ := adjustTaskSubscriptionQuota_eq_ok.mp h
  unfold UserSubscription.adjusted
  split_ifs with hd
  · exact ⟨hd, w.subscriptions, s, ResetsOnly.refl _ _, hs, hroom hd, rfl⟩
  · exact ⟨by omega, ⟨s, hs⟩, by rw [neg_neg]; rfl⟩

def Task.usageChange (t : Task) (adjusts : Bool) : UsageChange :=
  if t.isSubscription = true ∧ adjusts = true ∧ t.billingDelta ≠ 0 then
    if 0 < t.billingDelta then .raised t.privateData.subscriptionId t.billingDelta
    else .returned t.privateData.subscriptionId (-t.billingDelta)
  else .none

theorem moveFunding_explained (hdlt : t.billingDelta ≠ 0)
    (h : moveFunding env t b w = .ok (u, w')) :
    (t.usageChange b).Explains noneDue w.subscriptions w'.subscriptions := by
  unfold moveFunding at h
  cases hsub : t.isSubscription with
  | false =>
    rw [hsub, if_neg Bool.false_ne_true, adjustUserQuota_eq_ok] at h
    obtain ⟨-, -, rfl⟩ := h
    simpa [Task.usageChange, hsub] using none_explains noneDue w.subscriptions
  | true =>
    rw [hsub, if_pos rfl] at h
    cases b with
    | false =>
      cases h
      simpa [Task.usageChange] using none_explains noneDue w.subscriptions
    | true =>
      simpa [Task.usageChange, hsub, hdlt] using adjustTaskSubscriptionQuota_explained hdlt h

theorem moveTaskFunds_explained (h : moveTaskFunds env t b w = .ok (u, w')) :
    (t.usageChange b).Explains noneDue w.subscriptions w'.subscriptions := by
  unfold moveTaskFunds at h
  split_ifs at h with hd
  · cases h
    simpa [Task.usageChange, hd] using none_explains noneDue w.subscriptions
  rw [Tx.bind_eq_ok] at h
  obtain ⟨⟨⟩, v, hfund, h⟩ := h
  have hv := moveFunding_explained hd hfund
  cases htok : t.withToken with
  | false =>
    rw [htok, Tx.onlyIf_false, Tx.pure_eq_ok] at h
    rwa [← h.2]
  | true =>
    rw [htok, Tx.onlyIf_true, adjustTokenQuota_eq_ok] at h
    obtain ⟨-, -, rfl⟩ := h
    exact hv

/-- A committed billing step, as far as subscriptions are concerned. -/
def SubscriptionBilled (t : Task) (expected next : TaskBillingStatus) (w w' : World) : Prop :=
  ∃ adjusts, SubscriptionClaimed t expected next adjusts w.preConsumeRecords
      w'.preConsumeRecords ∧
    (t.usageChange adjusts).Explains noneDue w.subscriptions w'.subscriptions

variable {payload : Option TaskBillingEventPayload}

theorem taskBillingOperation_subscription {id : String}
    (h : taskBillingOperation env t expected next payload w = .ok (id, w')) :
    SubscriptionBilled t expected next w w' := by
  unfold taskBillingOperation at h
  simp only [Tx.bind_eq_ok] at h
  obtain ⟨⟨⟩, v₁, hadv, b, v₂, hclm, ⟨⟩, v₃, hfund, hfin⟩ := h
  obtain ⟨-, -, rfl⟩ := advanceBilling_eq_ok.mp hadv
  have hcla := claimsSubscription_claimed hclm
  have hsubs : v₂.subscriptions = w.subscriptions := by rw [claimsSubscription_ok hclm]
  have hmv := moveTaskFunds_explained hfund
  have hreco : v₃.preConsumeRecords = v₂.preConsumeRecords := by
    rw [(moveTaskFunds_ok hfund).2.2]
  have hlast : w'.subscriptions = v₃.subscriptions ∧
      w'.preConsumeRecords = v₃.preConsumeRecords := by
    cases payload with
    | none =>
      cases hfin
      exact ⟨rfl, rfl⟩
    | some p =>
      rw [(finalizeTask_ok hfin).2.2.2]
      exact ⟨rfl, rfl⟩
  refine ⟨b, ?_, ?_⟩
  · rw [hlast.2, hreco]
    exact hcla
  · rw [hlast.1, ← hsubs]
    exact hmv

theorem runTaskBilling_subscription {id : String}
    (h : runTaskBilling env t (taskBillingOperation env t expected next payload) w = (.ok id, w')) :
    SubscriptionBilled t expected next w w' := by
  unfold runTaskBilling at h
  split_ifs at h with hsub htok
  · obtain ⟨-, -, v, hop, rfl⟩ := withReconciledTokenQuota_eq_ok.mp h
    have hbil := taskBillingOperation_subscription hop
    exact hbil
  · exact taskBillingOperation_subscription (commit_eq_ok.mp h).2
  · obtain ⟨-, -, -, v, hop, rfl⟩ := withReconciledWalletQuota_eq_ok.mp h
    have hbil := taskBillingOperation_subscription hop
    rw [foldPending_rest] at hbil
    rw [dropPending_rest]
    exact hbil

/-- Everything a billing call can do to subscriptions and records. -/
theorem applyTaskBilling_subscription (env : Env) (t : Task) (expected next : TaskBillingStatus)
    (payload : Option TaskBillingEventPayload) (w : World) :
    (applyTaskBilling env t expected next payload w).2 = w ∧
        (∀ r, (applyTaskBilling env t expected next payload w).1 = .ok r → r.applied = false) ∨
      Billed env t expected next payload w (applyTaskBilling env t expected next payload w).2 ∧
        SubscriptionBilled t expected next w (applyTaskBilling env t expected next payload w).2 := by
  refine (applyTaskBilling_cases env t expected next payload w).imp_right ?_
  rintro ⟨-, id, w', happ, hrun, hb⟩
  rw [happ]
  exact ⟨hb, runTaskBilling_subscription hrun⟩

/-- A refund: the record is marked, and what it had consumed is given back. -/
theorem refundSubscriptionPreConsume_cases (env : Env) (requestId : String) (w : World) :
    (refundSubscriptionPreConsume env requestId w).2 = w ∨
      ∃ r, w.preConsumeRecords requestId = some r ∧ r.status = .consumed ∧
        (refundSubscriptionPreConsume env requestId w).2.preConsumeRecords =
          (w.markRefunded requestId).preConsumeRecords ∧
        (refundSubscriptionPreConsume env requestId w).2.tasks = w.tasks ∧
        (if 0 < r.preConsumed then UsageChange.returned r.userSubscriptionId r.preConsumed
          else .none).Explains noneDue w.subscriptions
            (refundSubscriptionPreConsume env requestId w).2.subscriptions := by
  rcases (atomic_refundSubscriptionPreConsume env requestId).cases w with ⟨⟨⟩, w', h⟩ | ⟨e, h⟩
  · rw [h]
    obtain ⟨r, hr, ⟨-, rfl⟩ | ⟨hst, hp, rfl⟩ | ⟨hst, hp, hs, rfl⟩⟩ :=
      refundSubscriptionPreConsume_ok h
    · exact .inl rfl
    · refine .inr ⟨r, hr, hst, rfl, rfl, ?_⟩
      have hnot : ¬ 0 < r.preConsumed := by omega
      rw [if_neg hnot]
      exact none_explains _ _
    · refine .inr ⟨r, hr, hst, rfl, rfl, ?_⟩
      rw [if_pos hp]
      exact ⟨hp, hs, rfl⟩
  · exact .inl (by rw [h])

theorem postConsumeUserSubscriptionDelta_explained (env : Env) (id delta : ℤ) (w : World) :
    (delta = 0 ∨ ∃ e, (postConsumeUserSubscriptionDelta env id delta w).1 = .error e) ∧
        UsageChange.none.Explains noneDue w.subscriptions
          (postConsumeUserSubscriptionDelta env id delta w).2.subscriptions ∨
      (UsageChange.settled id delta).Explains noneDue w.subscriptions
        (postConsumeUserSubscriptionDelta env id delta w).2.subscriptions := by
  by_cases hd : delta = 0
  · refine .inl ⟨.inl hd, ?_⟩
    unfold postConsumeUserSubscriptionDelta
    split_ifs <;> exact none_explains _ _
  rcases (atomic_postConsumeUserSubscriptionDelta env id delta).cases w with
    ⟨⟨⟩, w', h⟩ | ⟨e, h⟩
  · obtain ⟨-, -, s, hs, hroom, rfl⟩ := (postConsumeUserSubscriptionDelta_eq_ok hd).mp h
    rw [h]
    exact .inr ⟨⟨s, hs, hroom⟩, rfl⟩
  · rw [h]
    exact .inl ⟨.inr ⟨e, rfl⟩, none_explains _ _⟩

theorem resetDueSubscription_explained (env : Env) (due : ℤ → Bool) (id : ℤ) (w : World) :
    UsageChange.none.Explains due w.subscriptions
      (resetDueSubscription env due id w).2.subscriptions := by
  rcases (atomic_commit (env.fault commitSite) Err.database (resetDueBody env due id)).cases w
    with ⟨⟨⟩, w', h⟩ | ⟨e, h⟩
  · rw [resetDueSubscription, dbTransaction, h]
    obtain ⟨-, hbody⟩ := commit_eq_ok.mp h
    rw [resetDueBody, Tx.read_bind] at hbody
    cases hrow : if env.fault 0 then none else w.subscriptions id with
    | none =>
      simp only [hrow] at hbody
      cases hbody
      exact none_explains _ _
    | some locked =>
      have hlock : w.subscriptions id = some locked := by
        split_ifs at hrow
        exact hrow
      simp only [hrow, Tx.bind_eq_ok, Tx.pure_eq_ok] at hbody
      obtain ⟨sub, v, hres, -, rfl⟩ := hbody
      obtain ⟨rfl, -, hid, hoth⟩ := maybeReset_ok (.inl hlock) hres
      exact (ResetsOnly.refl due w.subscriptions).set hlock hid hoth
  · rw [resetDueSubscription, dbTransaction, h]
    exact none_explains _ _

end Others

inductive SubscriptionCall where
  | preConsume (env lookup : Env) (due : ℤ → Bool) (requestId : String) (userId amount : ℤ)
  | refund (env : Env) (requestId : String)
  | postConsume (env : Env) (id delta : ℤ)
  | billTask (env : Env) (t : Task) (expected next : TaskBillingStatus)
      (payload : Option TaskBillingEventPayload)
  | resetDue (env : Env) (due : ℤ → Bool) (id : ℤ)

namespace SubscriptionCall

def step : SubscriptionCall → World → World
  | preConsume env lookup due requestId userId amount, w =>
    (preConsumeUserSubscription env lookup due requestId userId amount w).2
  | refund env requestId, w => (refundSubscriptionPreConsume env requestId w).2
  | postConsume env id delta, w => (postConsumeUserSubscriptionDelta env id delta w).2
  | billTask env t expected next payload, w => (applyTaskBilling env t expected next payload w).2
  | resetDue env due id, w => (resetDueSubscription env due id w).2

/-- The subscriptions whose period has ended when the call runs. -/
def due : SubscriptionCall → ℤ → Bool
  | preConsume _ _ due _ _ _ | resetDue _ due _ => due
  | refund .. | postConsume .. | billTask .. => noneDue

/-- What a call that succeeds takes from the subscription. A request id that is known, and a
bill that comes to nothing, take nothing. -/
def consumes (w : World) (id : ℤ) : SubscriptionCall → ℤ
  | preConsume env lookup due requestId userId amount =>
    match (preConsumeUserSubscription env lookup due requestId userId amount w).1 with
    | .ok r =>
      if (w.preConsumeRecords requestId).isNone ∧ r.userSubscriptionId = id then amount else 0
    | .error _ => 0
  | postConsume env asked delta =>
    match (postConsumeUserSubscriptionDelta env asked delta w).1 with
    | .ok _ => if asked = id then max delta 0 else 0
    | .error _ => 0
  | billTask env t expected next payload =>
    match (applyTaskBilling env t expected next payload w).1 with
    | .ok result =>
      if result.applied ∧ t.isSubscription ∧ t.privateData.subscriptionId = id ∧
        0 < t.billingTargetQuota then max t.billingDelta 0 else 0
    | .error _ => 0
  | refund .. | resetDue .. => 0

end SubscriptionCall

/-- What the change takes from the subscription. -/
def UsageChange.consumed (id : ℤ) : UsageChange → ℤ
  | .raised j amount => if j = id then amount else 0
  | .settled j delta => if j = id then max delta 0 else 0
  | .none | .returned .. => 0

theorem UsageChange.Explains.consumed_nonneg {due : ℤ → Bool} {t t' : Subscriptions}
    {change : UsageChange} (h : change.Explains due t t') (id : ℤ) : 0 ≤ change.consumed id := by
  cases change with
  | none | returned => exact le_rfl
  | raised j amount =>
    have ham : 0 < amount := h.1
    rw [consumed]
    split_ifs <;> omega
  | settled j delta =>
    rw [consumed]
    split_ifs
    · exact le_max_right delta 0
    · exact le_rfl

/-- The change has the kind and the amount that the call asks for: a pre-consumption charges
its amount, a refund returns what the record of its request had consumed, and a settlement
and a billing step move the subscription they name by their delta. -/
def UsageChange.MadeBy (call : SubscriptionCall) (w : World) : UsageChange → Prop
  | .none => True
  | .raised id amount =>
    match call with
    | .preConsume _ _ _ _ _ asked => amount = asked
    | .billTask _ t _ _ _ => t.isSubscription = true ∧ id = t.privateData.subscriptionId ∧
        amount = t.billingDelta
    | _ => False
  | .returned id amount =>
    match call with
    | .refund _ requestId => ∃ r, w.preConsumeRecords requestId = some r ∧ r.status = .consumed ∧
        id = r.userSubscriptionId ∧ amount = r.preConsumed
    | .billTask _ t _ _ _ => t.isSubscription = true ∧ id = t.privateData.subscriptionId ∧
        amount = -t.billingDelta
    | _ => False
  | .settled id delta =>
    match call with
    | .postConsume _ asked askedDelta => id = asked ∧ delta = askedDelta
    | _ => False

theorem Task.usageChange_madeBy (env : Env) (t : Task) (expected next : TaskBillingStatus)
    (payload : Option TaskBillingEventPayload) (adjusts : Bool) (w : World) :
    (t.usageChange adjusts).MadeBy (.billTask env t expected next payload) w := by
  unfold Task.usageChange
  split_ifs with hchange
  · exact ⟨hchange.1, rfl, rfl⟩
  · exact ⟨hchange.1, rfl, rfl⟩
  · trivial

theorem Task.usageChange_consumed {t : Task} {expected next : TaskBillingStatus} {adjusts : Bool}
    {records records' : Table String SubscriptionPreConsumeRecord}
    (h : SubscriptionClaimed t expected next adjusts records records')
    (hsub : t.isSubscription = true) (htarget : 0 < t.billingTargetQuota) :
    max t.billingDelta 0 ≤ (t.usageChange adjusts).consumed t.privateData.subscriptionId := by
  -- a bill that comes to something is no full refund, so the subscription is adjusted
  have hnot : ¬ t.FullRefund expected next := fun hfull => htarget.ne' hfull.2.2.2.1
  obtain ⟨-, rfl⟩ := h.other hnot
  unfold Task.usageChange
  by_cases hzero : t.billingDelta = 0
  · simp [hzero, UsageChange.consumed]
  rw [if_pos ⟨hsub, decide_eq_true hzero, hzero⟩]
  split_ifs with hpos
  · simp [UsageChange.consumed, hpos.le]
  · simp [UsageChange.consumed, not_lt.mp hpos]

/-- Step lemma: what a call does to the table is a change of its own kind and amount, and
takes at least what the call is to take. -/
theorem SubscriptionCall.explained (call : SubscriptionCall) (w : World) :
    ∃ change : UsageChange, change.MadeBy call w ∧
      (∀ id, call.consumes w id ≤ change.consumed id) ∧
      change.Explains call.due w.subscriptions (call.step w).subscriptions := by
  cases call with
  | preConsume env lookup due requestId userId amount =>
    rcases preConsumeUserSubscription_cases env lookup due requestId userId amount w with
      ⟨hsame, herr⟩ | ⟨-, -, ham, r, w', hcall, hchg⟩
    · refine ⟨.none, trivial, fun id => ?_, ?_⟩
      · cases hkn : w.preConsumeRecords requestId with
        | none =>
          obtain ⟨e, he⟩ := herr hkn
          simp [consumes, he, UsageChange.consumed]
        | some record =>
          rw [consumes, hkn]
          split <;> simp [UsageChange.consumed]
      · rw [step, hsame]
        exact none_explains _ _
    · refine ⟨.raised r.userSubscriptionId amount, rfl, fun id => ?_, ?_⟩
      · simp only [consumes, hcall, UsageChange.consumed]
        split_ifs <;> omega
      · rw [step, hcall]
        exact hchg.explained ham
  | refund env requestId =>
    rcases refundSubscriptionPreConsume_cases env requestId w with
      hsame | ⟨r, hr, hst, -, -, h⟩
    · refine ⟨.none, trivial, fun _ => le_rfl, ?_⟩
      rw [step, hsame]
      exact none_explains _ _
    · refine ⟨_, ?_, fun id => ?_, h⟩
      · split_ifs
        · exact ⟨r, hr, hst, rfl, rfl⟩
        · trivial
      · split_ifs <;> exact le_rfl
  | postConsume env id delta =>
    rcases postConsumeUserSubscriptionDelta_explained env id delta w with ⟨hnone, h⟩ | h
    · refine ⟨.none, trivial, fun j => ?_, h⟩
      rcases hnone with rfl | ⟨e, he⟩
      · rw [consumes]
        split <;> simp [UsageChange.consumed]
      · simp [consumes, he, UsageChange.consumed]
    · refine ⟨.settled id delta, ⟨rfl, rfl⟩, fun j => ?_, h⟩
      rw [consumes]
      split
      · exact le_rfl
      · exact h.consumed_nonneg j
  | billTask env t expected next payload =>
    rcases applyTaskBilling_subscription env t expected next payload w with
      ⟨hsame, hnot⟩ | ⟨-, adjusts, hclaimed, h⟩
    · refine ⟨.none, trivial, fun id => ?_, ?_⟩
      · rw [consumes]
        split
        · rename_i result hresult
          simp [hnot result hresult, UsageChange.consumed]
        · exact le_rfl
      · rw [step, hsame]
        exact none_explains _ _
    · refine ⟨_, t.usageChange_madeBy env expected next payload adjusts w, fun id => ?_, h⟩
      have hnonneg := h.consumed_nonneg id
      rw [consumes]
      split
      · split_ifs with hpaid
        · obtain ⟨-, hsub, rfl, htarget⟩ := hpaid
          exact Task.usageChange_consumed hclaimed hsub htarget
        · exact hnonneg
      · exact hnonneg
  | resetDue env due id =>
    exact ⟨.none, trivial, fun _ => le_rfl, resetDueSubscription_explained env due id w⟩

/-- What a call did to one subscription. A charge is `fresh` if it came after a reset in the
same call. -/
inductive RowChange where
  | kept
  | reset
  | charged (fresh : Bool) (amount : ℤ)
  | moved (delta : ℤ)

namespace RowChange

def apply : RowChange → UserSubscription → UserSubscription
  | kept, s => s
  | reset, s => s.reset
  | charged fresh amount, s => (s.current fresh).addUsed amount
  | moved delta, s => s.moveUsed delta

/-- What the code makes sure of: a reset is due, and more is taken only within the total. -/
def Fits (due : Bool) : RowChange → UserSubscription → Prop
  | kept, _ => True
  | reset, _ => due = true
  | charged fresh amount, s => (fresh = true → due = true) ∧ 0 < amount ∧
      (s.amountTotal ≤ 0 ∨ (s.current fresh).amountUsed + amount ≤ s.amountTotal)
  | moved delta, s => delta ≤ 0 ∨ s.amountTotal ≤ 0 ∨ (s.moveUsed delta).amountUsed ≤ s.amountTotal

/-- What the change takes from the subscription. -/
def consumed : RowChange → ℤ
  | charged _ amount => amount
  | moved delta => max delta 0
  | kept | reset => 0

/-- The change of subscription `id` has the kind and the amount that the call asks for, and
takes at least what the call is to take. -/
def MadeBy (call : SubscriptionCall) (w : World) (id : ℤ) (c : RowChange) : Prop :=
  call.consumes w id ≤ c.consumed ∧
    match c with
    | kept | reset => True
    | charged _ amount => (UsageChange.raised id amount).MadeBy call w
    | moved delta => (UsageChange.returned id (-delta)).MadeBy call w ∨
        (UsageChange.settled id delta).MadeBy call w

end RowChange

variable {s : UserSubscription}

theorem ResetsOnly.row {due : ℤ → Bool} {t t' : Subscriptions} (h : ResetsOnly due t t') {id : ℤ}
    (hs : t id = some s) : ∃ fresh, (fresh = true → due id = true) ∧ t' id = some (s.current fresh) := by
  rcases h id with hsame | ⟨hdue, hres⟩
  · exact ⟨false, by simp, hsame.trans hs⟩
  · exact ⟨true, fun _ => hdue, by rw [hres, hs]; rfl⟩

/-- A change of the table is a change of each row that fits it. -/
theorem UsageChange.Explains.row {due : ℤ → Bool} {t t' : Subscriptions} {change : UsageChange}
    {call : SubscriptionCall} {w : World} (h : change.Explains due t t')
    (hmade : change.MadeBy call w) {id : ℤ} (hcons : call.consumes w id ≤ change.consumed id)
    (hs : t id = some s) :
    ∃ c : RowChange, c.MadeBy call w id ∧ c.Fits (due id) s ∧ t' id = some (c.apply s) := by
  have hrest : ∀ {t₀ : Subscriptions}, call.consumes w id ≤ 0 → ResetsOnly due t t₀ →
      ∃ c : RowChange, c.MadeBy call w id ∧ c.Fits (due id) s ∧ t₀ id = some (c.apply s) := by
    intro t₀ hzero h₀
    obtain ⟨fresh, hfr, hrow⟩ := h₀.row hs
    cases fresh with
    | true => exact ⟨.reset, ⟨hzero, trivial⟩, hfr rfl, hrow⟩
    | false => exact ⟨.kept, ⟨hzero, trivial⟩, trivial, hrow⟩
  cases change with
  | none => exact hrest hcons h
  | raised j amount =>
    obtain ⟨ham, t₀, s₀, h₀, hs₀, hroom, rfl⟩ := h
    by_cases hj : id = j
    · subst hj
      obtain ⟨fresh, hfr, hrow⟩ := h₀.row hs
      have heq : s₀ = s.current fresh := Option.some.inj (hs₀.symm.trans hrow)
      have htot : (s.current fresh).amountTotal = s.amountTotal := by cases fresh <;> rfl
      rw [heq, htot] at hroom
      rw [consumed, if_pos rfl] at hcons
      refine ⟨.charged fresh amount, ⟨hcons, hmade⟩, ⟨hfr, ham, hroom⟩, ?_⟩
      rw [Table.modify_self, hrow]
      rfl
    · rw [Table.modify_of_ne _ _ hj]
      rw [consumed, if_neg (Ne.symm hj)] at hcons
      exact hrest hcons h₀
  | returned j amount =>
    obtain ⟨ham, -, rfl⟩ := h
    by_cases hj : id = j
    · subst hj
      refine ⟨.moved (-amount), ⟨hcons.trans (le_max_right _ _), .inl (by rwa [neg_neg])⟩,
        .inl (by omega), ?_⟩
      rw [Table.modify_self, hs]
      rfl
    · rw [Table.modify_of_ne _ _ hj]
      exact ⟨.kept, ⟨hcons, trivial⟩, trivial, hs⟩
  | settled j delta =>
    obtain ⟨⟨s₀, hs₀, hroom⟩, rfl⟩ := h
    by_cases hj : id = j
    · subst hj
      rw [hs] at hs₀
      cases hs₀
      rw [consumed, if_pos rfl] at hcons
      refine ⟨.moved delta, ⟨hcons, .inr hmade⟩, .inr hroom, ?_⟩
      rw [Table.modify_self, hs]
      rfl
    · rw [Table.modify_of_ne _ _ hj]
      rw [consumed, if_neg (Ne.symm hj)] at hcons
      exact ⟨.kept, ⟨hcons, trivial⟩, trivial, hs⟩

/-- The changes are what the calls did to the subscription, one by one, each with the kind
and the amount of its call. -/
inductive Accounts (id : ℤ) : List SubscriptionCall → World → List RowChange → Prop
  | nil (w : World) : Accounts id [] w []
  | cons {call : SubscriptionCall} {calls : List SubscriptionCall} {w : World} {c : RowChange}
      {changes : List RowChange} {s : UserSubscription} (row : w.subscriptions id = some s)
      (made : c.MadeBy call w id) (fits : c.Fits (call.due id) s)
      (result : (call.step w).subscriptions id = some (c.apply s))
      (rest : Accounts id calls (call.step w) changes) :
      Accounts id (call :: calls) w (c :: changes)

/-- What was consumed since the last reset, and what was given back since then. -/
structure SinceReset where
  (consumed returned : ℤ)

def SinceReset.after (p : SinceReset) : RowChange → SinceReset
  | .kept => p
  | .reset => ⟨0, 0⟩
  | .charged true amount => ⟨amount, 0⟩
  | .charged false amount => ⟨p.consumed + amount, p.returned⟩
  | .moved delta => ⟨p.consumed + max delta 0, p.returned + max (-delta) 0⟩

/-- The subscription is within its bounds, and usage of the period is missing from it only as
far as something was given back. -/
structure UsageKept (total : ℤ) (p : SinceReset) (s : UserSubscription) : Prop where
  total_eq : s.amountTotal = total
  nonneg : 0 ≤ s.amountUsed
  within : s.amountUsed ≤ total
  covered : p.consumed - p.returned ≤ s.amountUsed

theorem UsageKept.change {total : ℤ} {p : SinceReset} {due : Bool}
    {c : RowChange} (h : UsageKept total p s) (htot : 0 < total) (hfits : c.Fits due s) :
    UsageKept total (p.after c) (c.apply s) := by
  obtain ⟨heq, hlow, hhigh, hcov⟩ := h
  cases c with
  | kept => exact ⟨heq, hlow, hhigh, hcov⟩
  | reset => exact ⟨heq, le_rfl, le_of_lt htot, le_rfl⟩
  | charged fresh amount =>
    obtain ⟨-, ham, hroom⟩ := hfits
    have hroom : (s.current fresh).amountUsed + amount ≤ total := by omega
    cases fresh with
    | true =>
      have hused : (s.current true).amountUsed = 0 := rfl
      refine ⟨heq, ?_, hroom, ?_⟩ <;>
        simp only [RowChange.apply, addUsed, SinceReset.after, hused] <;> omega
    | false =>
      have hused : (s.current false).amountUsed = s.amountUsed := rfl
      refine ⟨heq, ?_, hroom, ?_⟩ <;>
        simp only [RowChange.apply, addUsed, SinceReset.after, hused] <;> omega
  | moved delta =>
    have hmv : (s.moveUsed delta).amountUsed =
        if s.amountUsed + delta < 0 then 0 else s.amountUsed + delta := rfl
    simp only [RowChange.Fits, hmv] at hfits
    refine ⟨heq, ?_, ?_, ?_⟩ <;> simp only [RowChange.apply, SinceReset.after, hmv] <;>
      split_ifs at hfits ⊢ <;> omega

/-- Every run can be accounted for. -/
theorem exists_accounts {id : ℤ} {w : World} (hs : w.subscriptions id = some s)
    (calls : List SubscriptionCall) : ∃ changes, Accounts id calls w changes := by
  induction calls generalizing w s with
  | nil => exact ⟨[], .nil w⟩
  | cons call calls ih =>
    obtain ⟨change, hmade, hcons, hch⟩ := call.explained w
    obtain ⟨c, hc, hfits, hrow⟩ := hch.row hmade (hcons id) hs
    obtain ⟨changes, hrest⟩ := ih hrow
    exact ⟨c :: changes, .cons hs hc hfits hrow hrest⟩

/-- Run lemma: the bounds and the sums of the period go through every accounted run. -/
theorem Accounts.usageKept {id total : ℤ} {p : SinceReset} {w : World}
    {calls : List SubscriptionCall} {changes : List RowChange} (h : Accounts id calls w changes)
    (hs : w.subscriptions id = some s) (htot : 0 < total) (hkept : UsageKept total p s) :
    ∃ s', (run SubscriptionCall.step calls w).subscriptions id = some s' ∧
      UsageKept total (changes.foldl SinceReset.after p) s' := by
  induction h generalizing s p with
  | nil w => exact ⟨s, hs, hkept⟩
  | cons hrow made hfits hresult hrest ih =>
    rw [hs, Option.some.injEq] at hrow
    subst hrow
    exact ih hresult (hkept.change htot hfits)

/-- The bounds hold in every state that the calls can reach, in any order. The usage is never
below what was consumed since the last reset less what was given back since then, whenever
the charge that is given back was made; what was consumed and given back are the amounts of
the calls themselves. -/
theorem subscription_usage_bounded {id : ℤ} {w : World} {s : UserSubscription}
    (hs : w.subscriptions id = some s) (htotal : 0 < s.amountTotal) (hlow : 0 ≤ s.amountUsed)
    (hhigh : s.amountUsed ≤ s.amountTotal) (calls : List SubscriptionCall) :
    ∃ s', (run SubscriptionCall.step calls w).subscriptions id = some s' ∧
      s'.amountTotal = s.amountTotal ∧ 0 ≤ s'.amountUsed ∧ s'.amountUsed ≤ s.amountTotal ∧
      (∃ changes, Accounts id calls w changes) ∧
      ∀ changes, Accounts id calls w changes →
        (changes.foldl SinceReset.after ⟨s.amountUsed, 0⟩).consumed -
          (changes.foldl SinceReset.after ⟨s.amountUsed, 0⟩).returned ≤ s'.amountUsed := by
  have hst : UsageKept s.amountTotal ⟨s.amountUsed, 0⟩ s := ⟨rfl, hlow, hhigh, by simp⟩
  obtain ⟨changes, hacc⟩ := exists_accounts hs calls
  obtain ⟨s', hend, hkept⟩ := hacc.usageKept hs htotal hst
  refine ⟨s', hend, hkept.total_eq, hkept.nonneg, hkept.within, ⟨changes, hacc⟩,
    fun changes' hacc' => ?_⟩
  obtain ⟨s'', hend', hkept'⟩ := hacc'.usageKept hs htotal hst
  rw [hend, Option.some.injEq] at hend'
  subst hend'
  exact hkept'.covered

def freshSubscription : UserSubscription where
  userId := 1
  amountTotal := 100
  amountUsed := 0
  endTime := 1000
  active := true

def subscribedWorld : World :=
  { World.empty with
    subscriptions := World.empty.subscriptions.put 3 freshSubscription
    subscriptionIds := [3] }

/-- A charge of 50, the reset, a charge of 30 in the new period, and the refund of the first. -/
def refundAfterReset : List SubscriptionCall :=
  [.preConsume (.calm 0) (.calm 0) noneDue "r1" 1 50, .resetDue (.calm 1) (fun _ => true) 3,
    .preConsume (.calm 2) (.calm 2) noneDue "r2" 1 30, .refund (.calm 3) "r1"]

theorem subscription_usage_bounded_sample :
    ∃ s', (run SubscriptionCall.step refundAfterReset subscribedWorld).subscriptions 3 = some s' ∧
      s'.amountTotal = 100 ∧ 0 ≤ s'.amountUsed ∧ s'.amountUsed ≤ 100 := by
  obtain ⟨s', hend, htot, hlow, hhigh, -⟩ := @subscription_usage_bounded 3 subscribedWorld
    freshSubscription rfl (by decide) le_rfl (by decide) refundAfterReset
  exact ⟨s', hend, htot, hlow, hhigh⟩

/-- The refund of the charge from before the reset takes away the usage of the new period: 30
were consumed since the reset, and nothing is left of them. -/
theorem refund_after_reset_erases_usage :
    ((run SubscriptionCall.step (refundAfterReset.take 2) subscribedWorld).subscriptions 3).map
        amountUsed = some 0 ∧
      ((run SubscriptionCall.step (refundAfterReset.take 3) subscribedWorld).subscriptions 3).map
        amountUsed = some 30 ∧
      ((run SubscriptionCall.step refundAfterReset subscribedWorld).subscriptions 3).map
        amountUsed = some 0 := by
  decide +kernel

end NewApi
