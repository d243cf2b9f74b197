import NewApi.SessionRuns

/-!
# Settlement and refund exclude each other

For wallet and subscription sessions alike: as long as no other amount than the
pre-consumed one is settled after a refund has started, and the compensating writes
succeed, a session ends up having debited the settled amount or nothing.
-/
namespace NewApi
open BillingSession RefundAction SessionState

section SubscriptionCalls
variable {s : BillingSession} {f : SubscriptionFunding} {w : World}

theorem rowsKept_settleToken (env : Env) (playground : Bool) (tokenId delta : ℤ) (w : World) :
    RowsKept w (if playground then ((.ok (), w) : Except Err Unit × World)
      else if 0 < delta then decreaseTokenQuotaDirect env tokenId delta w
      else increaseTokenQuotaDirect env tokenId (-delta) w).2 := by
  split_ifs
  · exact RowsKept.refl w
  · exact RowsKept.of_effect (LedgerOp.effect (.decreaseToken env tokenId delta) w)
  · exact RowsKept.of_effect (LedgerOp.effect (.increaseToken env tokenId (-delta)) w)

/-- Everything a settlement of a subscription session can do, when committed funding
means that the session is settled. -/
theorem settle_subscription_cases (hf : s.funding = .subscription f)
    (hcomm : s.fundingSettled = true → s.settled = true) (c : CallEnv) (actual : ℤ) :
    ((s.settle c actual w).2 = (s, w)) ∨ (s.settled = false ∧ actual = s.preConsumedQuota ∧
        (s.settle c actual w).2 = ({ s with settled := true }, w)) ∨
      (s.settled = false ∧ actual ≠ s.preConsumedQuota ∧
        ∃ r v w', w.subscriptions f.subscriptionId = some r ∧
          v = w.modifySubscription f.subscriptionId
            (UserSubscription.moveUsed (actual - s.preConsumedQuota)) ∧
          (r.amountTotal ≤ 0 ∨
            (r.moveUsed (actual - s.preConsumedQuota)).amountUsed ≤ r.amountTotal) ∧
          RowsKept v w' ∧ (s.settle c actual w).2 = ({ s with
              fundingSettled := true
              settled := true
              relayInfo := { s.relayInfo with
                subscriptionPostDelta := s.relayInfo.subscriptionPostDelta + (actual - s.preConsumedQuota) } }, w')) := by
  unfold settle
  cases hset : s.settled with
  | true => exact .inl rfl
  | false =>
    have hfs : s.fundingSettled = false := by
      cases hfs : s.fundingSettled with
      | false => rfl
      | true =>
        rw [hcomm hfs] at hset
        cases hset
    rw [if_neg Bool.false_ne_true]
    by_cases hd : actual - s.preConsumedQuota = 0
    · refine .inr (.inl ⟨rfl, by omega, ?_⟩)
      simp only [hd, if_true]
    simp only [hd, if_false, hf, hfs, Bool.false_eq_true]
    rcases (atomic_postConsumeUserSubscriptionDelta (c.env 0) f.subscriptionId
      (actual - s.preConsumedQuota)).cases w with ⟨⟨⟩, v, hpost⟩ | ⟨e, hpost⟩
    · obtain ⟨-, -, r, hr, hroom, hv⟩ := (postConsumeUserSubscriptionDelta_eq_ok hd).mp hpost
      refine .inr (.inr ⟨trivial, by omega, r, v, _, hr, hv, hroom,
        rowsKept_settleToken (c.env 1) s.relayInfo.isPlayground s.relayInfo.tokenId
          (actual - s.preConsumedQuota) v, ?_⟩)
      rw [hpost]
    · left
      rw [hpost]

/-- A reservation that fails has changed nothing. -/
theorem reserveToken_cases (env : Env) (info : RelayInfo) (delta : ℤ) (w : World) :
    (∃ e, reserveToken env info delta w = (.error e, w)) ∨
      ∃ w', RowsKept w w' ∧ reserveToken env info delta w = (.ok (), w') := by
  unfold reserveToken
  split_ifs with hskip
  · exact .inr ⟨w, RowsKept.refl w, rfl⟩
  have hpos : 0 < delta := by
    by_contra hle
    exact hskip (.inl (by omega))
  rcases preConsumeTokenQuota_cases env info hpos w with ⟨e, hr⟩ | ⟨-, hr⟩ | ⟨-, -, hr⟩
  · exact .inl ⟨⟨.preConsumeTokenQuotaFailed, e⟩, by rw [hr]⟩
  · exact .inr ⟨w, RowsKept.refl w, by rw [hr]⟩
  · exact .inr ⟨_, RowsKept.creditToken w env.now info.tokenId (-delta), by rw [hr]⟩

/-- Everything a reservation on a subscription session can do. If the token refuses, the
funding is given back. -/
theorem reserve_subscription_cases (hf : s.funding = .subscription f) (c : CallEnv) (target : ℤ) :
    ((s.reserve c target w).2 = (s, w)) ∨
      ∃ d, 0 < d ∧ s.settled = false ∧ s.refunded = false ∧ 0 < f.subscriptionId ∧
        ∃ r v, w.subscriptions f.subscriptionId = some r ∧
          v = w.modifySubscription f.subscriptionId (UserSubscription.moveUsed d) ∧
          (r.amountTotal ≤ 0 ∨ (r.moveUsed d).amountUsed ≤ r.amountTotal) ∧
          ((s.reserve c target w).2 =
              (s, (postConsumeUserSubscriptionDelta (c.env 2) f.subscriptionId (-d) v).2) ∨
            ∃ w', RowsKept v w' ∧ (s.reserve c target w).2 = (recordReserve d s, w')) := by
  unfold reserve
  by_cases hskip : (s.settled || s.refunded || s.trusted ||
      decide (target ≤ s.preConsumedQuota)) = true
  · rw [if_pos hskip]
    exact .inl rfl
  rw [if_neg hskip]
  simp only [Bool.or_eq_true, decide_eq_true_eq, not_or, Bool.not_eq_true] at hskip
  obtain ⟨⟨⟨hs, hr⟩, -⟩, hlt⟩ := hskip
  have hd : 0 < target - s.preConsumedQuota := by omega
  simp only [hf, reserveFunding]
  rcases (atomic_postConsumeUserSubscriptionDelta (c.env 0) f.subscriptionId
    (target - s.preConsumedQuota)).cases w with ⟨⟨⟩, v, hpost⟩ | ⟨e, hpost⟩
  · right
    obtain ⟨-, hid, r, hrow, hroom, hv⟩ := (postConsumeUserSubscriptionDelta_eq_ok hd.ne').mp hpost
    refine ⟨target - s.preConsumedQuota, hd, hs, hr, hid, r, v, hrow, hv, hroom, ?_⟩
    simp only [hpost]
    rcases reserveToken_cases (c.env 1) s.relayInfo (target - s.preConsumedQuota) v with
      ⟨e, ht⟩ | ⟨w', hkept, ht⟩
    · left
      rw [ht]
      rfl
    · right
      refine ⟨w', hkept, ?_⟩
      rw [ht]
  · left
    rw [hpost]

end SubscriptionCalls

/-- The pre-consumption of `f` is on record and has not been refunded. -/
def Consumed (f : SubscriptionFunding) (w : World) : Prop :=
  ∃ r, w.preConsumeRecords f.requestId = some r ∧ r.userSubscriptionId = f.subscriptionId ∧
    r.preConsumed = f.preConsumed ∧ r.status = .consumed

variable {f : SubscriptionFunding} {w w' : World} {s : SessionState}

theorem RowsKept.consumed (h : RowsKept w w') (hc : Consumed f w) : Consumed f w' := by
  unfold Consumed
  rw [h.records]
  exact hc

/-- The subscription's row covers a debit and is within its total. -/
def Covers (f : SubscriptionFunding) (debit : ℤ) (w : World) : Prop :=
  ∃ r, w.subscriptions f.subscriptionId = some r ∧ debit ≤ r.amountUsed ∧
    (r.amountTotal ≤ 0 ∨ r.amountUsed ≤ r.amountTotal)

variable {debit d quota : ℤ}

theorem RowsKept.covers (h : RowsKept w w') (hc : Covers f debit w) :
    Covers f debit w' := by
  unfold Covers
  rw [h.subscriptions]
  exact hc

/-- The invariant of a session that subscription `f` pays for. Once a refund has started,
the debit is what the remaining actions still have to give back. -/
structure SubscriptionSession (f : SubscriptionFunding) (s : SessionState) : Prop where
  funding : s.session.funding = .subscription f
  preConsumed : 0 < f.preConsumed
  requestId : f.requestId ≠ ""
  recorded : f.preConsumed + s.session.extraReserved = s.session.preConsumedQuota
  extra : 0 ≤ s.session.extraReserved
  infoId : s.session.relayInfo.subscriptionId = f.subscriptionId
  extraId : 0 < s.session.extraReserved → 0 < f.subscriptionId
  committed : s.session.fundingSettled = true → s.session.settled = true
  covers : Covers f s.debit s.world
  nonneg : 0 ≤ s.debit
  idle : s.session.refunded = false → s.work = [] ∧ Consumed f s.world
  unsettled : s.session.refunded = false → s.session.settled = false →
    s.debit = s.session.preConsumedQuota
  settled : s.session.refunded = false → s.session.settled = true → s.settledAs = some s.debit
  refunded : s.session.refunded = true → (∃ n, s.work = .preConsumption f.requestId n ::
        (s.session.refundExtra ++ s.session.refundToken) ∧
      Consumed f s.world ∧ s.debit = s.session.preConsumedQuota) ∨
    (s.work = s.session.refundExtra ++ s.session.refundToken ∧ s.debit = s.session.extraReserved) ∨
    ((s.work = s.session.refundToken ∨ s.work = []) ∧ s.debit = 0)

/-- No settlement of another amount than the pre-consumed one after a refund started, and
none of a subscription at a negative amount. -/
def SettlesInTurn : SessionCall → SessionState → Prop
  | .settle c actual, s => SettlesBeforeRefund (.settle c actual) s ∧
      (s.session.funding.source = .subscription → 0 ≤ actual)
  | _, _ => True

instance SettlesInTurn.decidable (call s) : Decidable (SettlesInTurn call s) := by
  induction call using SessionCall.casesOn <;> dsimp only [SettlesInTurn] <;> infer_instance

variable {call : SessionCall}

theorem SettlesInTurn.settlesBeforeRefund (h : SettlesInTurn call s) :
    SettlesBeforeRefund call s := by
  cases call with
  | settle c actual => exact h.1
  | _ => trivial

/-- The writes that give something back do not fail: the rollback of a reservation whose
token refused, and the actions of the refund. -/
def Compensates : SessionCall → SessionState → Prop
  | .reserve c _, _ => ∀ i, (c.env 2).fault i = false
  | .refundWork env, _ => ∀ i, env.fault i = false
  | _, _ => True

variable (r : UserSubscription)

theorem UserSubscription.moveUsed_eq (delta : ℤ) (h : 0 ≤ r.amountUsed + delta) :
    r.moveUsed delta = { r with amountUsed := r.amountUsed + delta } := by
  have hneg : ¬ r.amountUsed + delta < 0 := by omega
  simp [UserSubscription.moveUsed, hneg]

open UserSubscription

/-- A row that covers a debit follows an adjustment of that debit exactly. -/
theorem Covers.moved {delta : ℤ} {v : World}
    {r : UserSubscription} (hc : Covers f debit w) (hdlt : 0 ≤ debit + delta)
    (hv : v.subscriptions = w.subscriptions) (hr : w.subscriptions f.subscriptionId = some r)
    (hroom : r.amountTotal ≤ 0 ∨ (r.moveUsed delta).amountUsed ≤ r.amountTotal)
    (hkept : RowsKept (v.modifySubscription f.subscriptionId (moveUsed delta))
      w') : Covers f (debit + delta) w' ∧
      (FundingSource.subscription f).drawn w' - (FundingSource.subscription f).drawn w =
        delta := by
  obtain ⟨r', hr', hused, -⟩ := hc
  rw [hr] at hr'
  cases hr'
  rw [r.moveUsed_eq delta (by omega)] at hroom
  have hrow : w'.subscriptions f.subscriptionId =
      some { r with amountUsed := r.amountUsed + delta } := by
    rw [hkept.subscriptions, ← r.moveUsed_eq delta (by omega)]
    simp [World.modifySubscription, hv, hr]
  refine ⟨⟨_, hrow, ?_, hroom⟩, ?_⟩
  · simp only
    omega
  · simp [FundingSource.drawn, hr, hrow]

theorem UserSubscription.moveUsed_back (hused : 0 ≤ r.amountUsed)
    (hd : 0 < d) : (r.moveUsed d).moveUsed (-d) = r := by
  rw [r.moveUsed_eq d (by omega), moveUsed_eq]
  · simp
  · simp only
    omega

theorem modifySubscription_undo {id : ℤ} {r : UserSubscription} (hr : w.subscriptions id = some r)
    (hused : 0 ≤ r.amountUsed) (hd : 0 < d) :
    (w.modifySubscription id (moveUsed d)).modifySubscription id
      (moveUsed (-d)) = w := by
  have hsame : (w.subscriptions.modify id (moveUsed d)).modify id
      (moveUsed (-d)) = w.subscriptions := by
    rw [Table.modify_modify]
    refine Table.modify_id _ _ fun r' hr' => ?_
    rw [hr] at hr'
    cases hr'
    exact r.moveUsed_back hused hd
  simp [World.modifySubscription, hsame]

namespace SubscriptionSession

section
variable (h : SubscriptionSession f s)
include h

theorem step_settle (c : CallEnv) (actual : ℤ) (hok : SettlesInTurn (.settle c actual) s) :
    SubscriptionSession f (SessionState.step (.settle c actual) s) := by
  obtain ⟨hok, hactual⟩ := hok
  have hact0 : 0 ≤ actual := hactual (by rw [h.funding]; rfl)
  rcases settle_subscription_cases (w := s.world) h.funding h.committed c actual with
    hsame | ⟨hset, hact, hres⟩ | ⟨hset, hne, r, v, w', hr, rfl, hroom, hkept, hres⟩
  · simpa [SessionState.step, hsame] using h
  · -- nothing moves: the amount is the pre-consumed one
    simp only [SessionState.step, charge, hres, hset, sub_self, add_zero]
    refine { h with committed := fun _ => rfl, unsettled := by simp, settled := ?_ }
    intro href _
    simp [h.unsettled href hset, hact]
  · have href : s.session.refunded = false := by
      by_contra hr
      rcases hok (by simpa using hr) with hs | ha
      · rw [hs] at hset
        cases hset
      · exact hne ha
    have hdb := h.unsettled href hset
    have hsum : s.debit + (actual - s.session.preConsumedQuota) = actual := by omega
    obtain ⟨hcov, hdraw⟩ := h.covers.moved (by omega) rfl hr hroom hkept
    rw [hsum] at hcov
    simp only [SessionState.step, charge, hres, hset, h.funding, hdraw, hsum]
    refine { h with
      funding := rfl, committed := fun _ => rfl, covers := hcov, nonneg := hact0, idle := ?_
      unsettled := by simp, settled := by simp, refunded := by simp [href] }
    intro _
    obtain ⟨hwork, hc⟩ := h.idle href
    exact ⟨hwork, hkept.consumed hc⟩

theorem step_reserve (c : CallEnv) (target : ℤ) (hcalm : ∀ i, (c.env 2).fault i = false) :
    SubscriptionSession f (SessionState.step (.reserve c target) s) := by
  rcases reserve_subscription_cases (w := s.world) h.funding c target with
    hsame | ⟨d, hd, hset, href, hid, r, v, hr, rfl, hroom, hres | ⟨w', hkept, hres⟩⟩
  · simpa [SessionState.step, hsame] using h
  · -- the token refused, and the rollback restores the row
    obtain ⟨r', hr', hused, htot⟩ := h.covers
    rw [hr] at hr'
    cases hr'
    have hnn := h.nonneg
    have hrow : (s.world.modifySubscription f.subscriptionId
        (moveUsed d)).subscriptions f.subscriptionId = some (r.moveUsed d) := by
      simp [World.modifySubscription, hr]
    have hundo := (postConsumeUserSubscriptionDelta_eq_ok (by omega : -d ≠ 0)).mpr
      ⟨⟨hcalm _, hcalm _, hcalm _⟩, hid, _, hrow,
        by rw [r.moveUsed_back (by omega) hd]; simpa [moveUsed] using htot, rfl⟩
    rw [hundo, modifySubscription_undo hr (by omega) hd] at hres
    simpa [SessionState.step, hres] using h
  · have hdb := h.unsettled href hset
    have hnn := h.nonneg
    have hext := h.extra
    obtain ⟨hcov, hdraw⟩ := h.covers.moved (by omega) rfl hr hroom hkept
    obtain ⟨hwork, hc⟩ := h.idle href
    simp only [SessionState.step, charge, hres, h.funding, hdraw]
    refine ⟨by simpa using h.funding, h.preConsumed, h.requestId, ?_, ?_, ?_, fun _ => hid,
      by simpa using h.committed, hcov, ?_, fun _ => ⟨hwork, hkept.consumed hc⟩, ?_,
      by simp [hset], by simp [href]⟩
    · simp only [recordReserve_fields]
      rw [← add_assoc, h.recorded]
    · simp only [recordReserve_fields]
      omega
    · simp [recordReserve, syncRelayInfo, h.funding]
    · simp only
      omega
    · simp [hdb]

theorem step_refund :
    SubscriptionSession f (SessionState.step .refund s) := by
  rcases s.session.refund_cases with hsame | ⟨hset, href, -, heff⟩
  · simpa [SessionState.step, hsame] using h
  obtain ⟨hwork, hc⟩ := h.idle href
  have hpre : ¬ f.preConsumed ≤ 0 := by
    have := h.preConsumed
    omega
  simp only [SessionState.step, heff, hwork, List.nil_append]
  refine { h with
    idle := by simp, unsettled := by simp, settled := by simp
    refunded := fun _ => .inl ⟨maxAttempts, ?_, hc, h.unsettled href hset⟩ }
  simp only [refundActions, h.funding, if_neg hpre, List.cons_append, List.nil_append]
  rfl

theorem step_other (op : LedgerOp) :
    SubscriptionSession f (SessionState.step (.other op) s) := by
  have hkept := RowsKept.of_effect (op.effect s.world)
  refine { h with covers := hkept.covers h.covers, idle := ?_, refunded := ?_ }
  · intro href
    obtain ⟨hwork, hc⟩ := h.idle href
    exact ⟨hwork, hkept.consumed hc⟩
  · intro href
    exact (h.refunded href).imp_left fun ⟨n, hwork, hc, hd⟩ =>
      ⟨n, hwork, hkept.consumed hc, hd⟩

/-- An action of the refund that leaves the debit covered, and after which the remaining
actions owe exactly the debit. -/
theorem afterAction (hr : s.session.refunded = true)
    {w' : World} {work : List RefundAction} {debit : ℤ} (outcome : Except Err Unit)
    (hcov : Covers f debit w') (hnn : 0 ≤ debit)
    (howes : (work = s.session.refundExtra ++ s.session.refundToken ∧
        debit = s.session.extraReserved) ∨
      ((work = s.session.refundToken ∨ work = []) ∧ debit = 0)) : SubscriptionSession f { s with
      world := w', work := work, debit := debit, refundOutcome := some outcome } :=
  { h with
    covers := hcov, nonneg := hnn, idle := by simp [hr], unsettled := by simp [hr]
    settled := by simp [hr], refunded := fun _ => .inr howes }

end

variable {env : Env}

section
variable (h : SubscriptionSession f s)
include h

theorem refundWork_preConsumption
    (hr : s.session.refunded = true) {n : ℕ} (hcalm : ∀ i, env.fault i = false)
    (hwork : s.work = .preConsumption f.requestId n ::
      (s.session.refundExtra ++ s.session.refundToken))
    (hc : Consumed f s.world) (hdb : s.debit = s.session.preConsumedQuota) :
    SubscriptionSession f (SessionState.step (.refundWork env) s) := by
  obtain ⟨rec, hrec, hsub, hpre, hst⟩ := hc
  obtain ⟨r, hrow, hused, htot⟩ := h.covers
  have hpos := h.preConsumed
  have hreco := h.recorded
  have hext := h.extra
  have hexec := refundSubscriptionPreConsume_calm hcalm h.requestId hrec hst
    (by omega) (by rw [hsub]; exact hrow)
  rw [hsub, hpre] at hexec
  have hroom : r.amountTotal ≤ 0 ∨ (r.moveUsed (-f.preConsumed)).amountUsed ≤ r.amountTotal := by
    rw [r.moveUsed_eq _ (by omega)]
    simp only
    omega
  obtain ⟨hcov, hdraw⟩ := h.covers.moved (v := s.world.markRefunded f.requestId) (by omega) rfl
    hrow hroom (RowsKept.refl _)
  have hsum : s.debit + -f.preConsumed = s.session.extraReserved := by omega
  rw [hsum] at hcov
  have hnext := h.afterAction hr (.ok ()) hcov hext (.inl ⟨rfl, rfl⟩)
  simpa [SessionState.step, charge, hwork, exec, hexec, retry, h.funding, hdraw, hsum] using hnext

theorem refundWork_extra (hr : s.session.refunded = true)
    (hcalm : ∀ i, env.fault i = false) (hpos : 0 < s.session.extraReserved)
    (hwork : s.work = s.session.refundExtra ++ s.session.refundToken)
    (hdb : s.debit = s.session.extraReserved) :
    SubscriptionSession f (SessionState.step (.refundWork env) s) := by
  obtain ⟨r, hrow, hused, htot⟩ := h.covers
  have hid := h.extraId hpos
  have hext : s.session.refundExtra =
      [.extraReserved f.subscriptionId s.session.extraReserved] := by
    simp [refundExtra, h.infoId, hpos, hid]
  have hroom : r.amountTotal ≤ 0 ∨
      (r.moveUsed (-s.session.extraReserved)).amountUsed ≤ r.amountTotal := by
    rw [r.moveUsed_eq _ (by omega)]
    simp only
    omega
  have hexec := (postConsumeUserSubscriptionDelta_eq_ok
    (by omega : -s.session.extraReserved ≠ 0)).mpr
    ⟨⟨hcalm _, hcalm _, hcalm _⟩, hid, r, hrow, hroom, rfl⟩
  obtain ⟨hcov, hdraw⟩ := h.covers.moved (by omega) rfl hrow hroom (RowsKept.refl _)
  have hsum : s.debit + -s.session.extraReserved = 0 := by omega
  rw [hsum] at hcov
  have hnext := h.afterAction hr (.ok ()) hcov le_rfl (.inr ⟨.inl rfl, rfl⟩)
  simpa [SessionState.step, charge, hwork, hext, exec, hexec,
    retry, h.funding, hdraw, hsum] using hnext

theorem refundWork_token (hr : s.session.refunded = true) (env : Env)
    (hwork : s.work = s.session.refundToken ∨ s.work = []) (hdb : s.debit = 0) :
    SubscriptionSession f (SessionState.step (.refundWork env) s) := by
  have hcas : s.work = [] ∨
      s.work = [.token s.session.relayInfo.tokenId s.session.tokenConsumed] := by
    rcases hwork with hw | hw
    · unfold refundToken at hw
      split_ifs at hw
      · exact .inr hw
      · exact .inl hw
    · exact .inl hw
  rcases hcas with hw | hw
  · simpa [SessionState.step, hw] using h
  -- only the token's quota moves
  let action := increaseTokenQuotaDirect env s.session.relayInfo.tokenId
    s.session.tokenConsumed s.world
  have hkept : RowsKept s.world action.2 := RowsKept.of_effect (LedgerOp.effect
    (.increaseToken env s.session.relayInfo.tokenId s.session.tokenConsumed) s.world)
  have hdraw : (FundingSource.subscription f).drawn action.2 =
      (FundingSource.subscription f).drawn s.world := by
    simp only [FundingSource.drawn, hkept.subscriptions]
  have hcov := hkept.covers h.covers
  rw [hdb] at hcov
  have hnext := h.afterAction hr action.1 hcov le_rfl (.inr ⟨.inr rfl, rfl⟩)
  simpa [SessionState.step, charge, hw, exec, retry, h.funding, hdraw, hdb, action] using hnext

theorem step_refundWork (hcalm : ∀ i, env.fault i = false) :
    SubscriptionSession f (SessionState.step (.refundWork env) s) := by
  cases hr : s.session.refunded with
  | false =>
    obtain ⟨hwork, -⟩ := h.idle hr
    simpa [SessionState.step, hwork] using h
  | true =>
    rcases h.refunded hr with ⟨n, hwork, hc, hd⟩ | ⟨hwork, hd⟩ | ⟨hwork, hd⟩
    · exact h.refundWork_preConsumption hr hcalm hwork hc hd
    · by_cases hpos : 0 < s.session.extraReserved
      · exact h.refundWork_extra hr hcalm hpos hwork hd
      -- nothing was reserved on top: the token's share is all that is left
      have hnone : s.session.refundExtra = [] := by
        simp [refundExtra, hpos]
      have hext := h.extra
      rw [hnone, List.nil_append] at hwork
      exact h.refundWork_token hr env (.inl hwork) (by omega)
    · exact h.refundWork_token hr env hwork hd

end

/-- Every step keeps the invariant, except a settlement after a refund started and writes
that fail to give something back. -/
theorem step (call : SessionCall) (s : SessionState)
    (hok : SettlesInTurn call s ∧ Compensates call s) (h : SubscriptionSession f s) :
    SubscriptionSession f (SessionState.step call s) := by
  cases call with
  | reserve c target => exact h.step_reserve c target hok.2
  | settle c actual => exact h.step_settle c actual hok.1
  | refund => exact h.step_refund
  | refundWork env => exact h.step_refundWork hok.2
  | other op => exact h.step_other op

theorem opened {info : RelayInfo} {c : CallEnv} {quota : ℤ} {w w' : World}
    {sub : SubscriptionFunding} {session : BillingSession} (hq : 0 < quota)
    (ham : sub.amount = quota) (hfr : w.preConsumeRecords sub.requestId = none)
    (h : (new info (.subscription sub)).preConsume c quota w =
      (.ok (), session, w')) : ∃ f, SubscriptionSession f (.opened session w') := by
  obtain ⟨v, res, -, -, hrecs, hsub, rfl⟩ := preConsume_subscription_inv hq rfl ham h
  obtain ⟨-, hreq, hpre⟩ := preConsumeUserSubscription_ok (hrecs ▸ hfr) hsub
  obtain ⟨row, -, hused, hrow⟩ := hpre.charged
  refine ⟨_, (syncRelayInfo_fields _).1, ?_, hreq, ?_, ?_, ?_, ?_, ?_, ?_, ?_,
    fun _ => ⟨rfl, ?_⟩, fun _ _ => rfl, ?_, ?_⟩
  · simp [hpre.amount_eq, hq]
  · simp [SessionState.opened, afterSubscription, new, hpre.amount_eq]
  · simp [SessionState.opened, afterSubscription, new]
  · simp [SessionState.opened, afterSubscription, syncRelayInfo]
  · simp [SessionState.opened, afterSubscription, new]
  · simp [SessionState.opened, afterSubscription, new]
  · refine ⟨_, hrow, ?_, hpre.within _ hrow⟩
    simp only [SessionState.opened, afterSubscription, syncRelayInfo_fields, addUsed]
    omega
  · simp [SessionState.opened, afterSubscription, hq.le]
  · refine ⟨{ userId := sub.userId, userSubscriptionId := res.userSubscriptionId,
              preConsumed := quota, status := .consumed }, ?_, rfl, hpre.amount_eq.symm, rfl⟩
    simp only [SessionState.opened]
    rw [hpre.rest]
    simp
  · simp [SessionState.opened, afterSubscription, new]
  · simp [SessionState.opened, afterSubscription, new]

end SubscriptionSession

/-- Without faults, the only action of a wallet session's refund succeeds. -/
theorem WalletSession.step_compensated (h : WalletSession s)
    (hcomp : Compensates call s) (hout : ∀ e, s.refundOutcome ≠ some (.error e)) (e : Err) :
    (SessionState.step call s).refundOutcome ≠ some (.error e) := by
  cases call with
  | reserve c target | settle c actual | refund | other op => exact hout e
  | refundWork env =>
    cases hr : s.session.refunded with
    | false =>
      obtain ⟨hwork, -⟩ := h.idle hr
      simpa [SessionState.step, hwork] using hout e
    | true =>
      rcases h.refunded hr with ⟨hpos, hwork, -, -⟩ | ⟨hwork, -, -⟩ | ⟨hwork, -, -⟩
      · obtain ⟨hu, ht⟩ := h.rows hpos
        have htok : (!s.session.relayInfo.isPlayground) = true →
            ∃ r, s.world.tokens s.session.relayInfo.tokenId = some r :=
          fun hp => ht (by simpa using hp)
        have hacti := h.refundActions_eq hpos
        have hadj := (adjustWalletQuota_eq_ok (by omega : -s.session.preConsumedQuota ≠ 0)).mpr
          ⟨⟨hcomp _, .inr ⟨hcomp _, hu⟩, hcomp _, fun hp => .inr ⟨hcomp _, htok hp⟩,
            fun _ => hcomp _⟩, hu, htok, rfl⟩
        simp [SessionState.step, hwork, hacti, exec, hadj]
      · simpa [SessionState.step, hwork] using hout e
      · simpa [SessionState.step, hwork] using hout e

/-- A session that was opened pre-consumed from the wallet or, under the request's id,
from a subscription. -/
theorem newBillingSession_ok {o : OpenEnv} {info : RelayInfo} {session : BillingSession}
    (h : newBillingSession o info quota w = (.ok session, w')) :
    (∃ v info', (new info' (.wallet ⟨info'.userId, 0⟩)).preConsume o.wallet
        quota v = (.ok (), session, w')) ∨
      ∃ q sub, 0 < q ∧ sub.amount = q ∧ sub.requestId = info.requestId ∧
        (new info (.subscription sub)).preConsume o.subscription q w = (.ok (), session, w') := by
  have hwal : ∀ v, tryWallet o info quota v = (.ok session, w') →
      ∃ v info', (new info' (.wallet ⟨info'.userId, 0⟩)).preConsume o.wallet
        quota v = (.ok (), session, w') := by
    intro v hv
    unfold tryWallet at hv
    split at hv
    · simp at hv
    rename_i userQuota _
    split_ifs at hv
    · simp at hv
    · simp at hv
    · exact ⟨v, { info with userQuota := userQuota }, opened_ok hv⟩
  rcases newBillingSession_cases o info quota w with ⟨e, hc⟩ | hc | hc | ⟨e, v, -, hc⟩
  · cases hc.symm.trans h
  · exact .inl (hwal w (hc.symm.trans h))
  · exact .inr ⟨_, _, trySubscription_pos quota, rfl, rfl, opened_ok (hc.symm.trans h)⟩
  · exact .inl (hwal v (hc.symm.trans h))

theorem reserve_flags (s : BillingSession) (c : CallEnv) (target : ℤ) (w : World) :
    (s.reserve c target w).2.1.settled = s.settled ∧
      (s.reserve c target w).2.1.refunded = s.refunded ∧
      (s.reserve c target w).2.1.fundingSettled = s.fundingSettled := by
  cases hf : s.funding with
  | wallet f =>
    rcases reserve_wallet_cases (w := w) hf c target with h | ⟨d, -, -, -, -, -, -, h⟩ <;>
      simp [h]
  | subscription f =>
    rcases reserve_subscription_cases (w := w) hf c target with
      h | ⟨d, -, -, -, -, r, v, -, -, -, h | ⟨w', -, h⟩⟩ <;> simp [h]

/-- A settlement leaves the session as it is or settles it; only one of another amount
than the pre-consumed one commits the funding. -/
theorem settle_flags (s : BillingSession) (hcomm : s.fundingSettled = true → s.settled = true)
    (c : CallEnv) (actual : ℤ) (w : World) : (s.settle c actual w).2.1 = s ∨
      (s.settled = false ∧ (s.settle c actual w).2.1.settled = true ∧
        (s.settle c actual w).2.1.refunded = s.refunded ∧
        ((s.settle c actual w).2.1.fundingSettled = s.fundingSettled ∨
          actual ≠ s.preConsumedQuota)) := by
  cases hf : s.funding with
  | wallet f =>
    rcases settle_wallet_cases (w := w) hf c actual with h | ⟨hs, -, h⟩ | ⟨hs, hne, -, -, h⟩
    · simp [h]
    · simp [h, hs]
    · simp [h, hs, hne]
  | subscription f =>
    rcases settle_subscription_cases (w := w) hf hcomm c actual with
      h | ⟨hs, -, h⟩ | ⟨hs, hne, r, v, w', -, -, -, -, h⟩
    · simp [h]
    · simp [h, hs]
    · simp [h, hs, hne]

/-- What keeps the two ways to end a session apart, whichever writes fail: actions are
only left behind by a refund, and committed funding is never refunded. -/
structure Exclusive (s : SessionState) : Prop where
  idle : s.session.refunded = false → s.work = []
  committed : s.session.fundingSettled = true →
    s.session.settled = true ∧ s.session.refunded = false

namespace Exclusive

theorem step_settle (h : Exclusive s) (c : CallEnv) (actual : ℤ)
    (hok : SettlesInTurn (.settle c actual) s) :
    Exclusive (SessionState.step (.settle c actual) s) := by
  rcases settle_flags s.session (fun hf => (h.committed hf).1) c actual s.world with
    hsame | ⟨hset, hset', href, hfund⟩
  · constructor
    · simpa [SessionState.step, charge, hsame] using h.idle
    · simpa [SessionState.step, charge, hsame] using h.committed
  constructor
  · simpa [SessionState.step, charge, href] using h.idle
  · simp only [SessionState.step, charge, hset', href, true_and]
    intro hcom
    rcases hfund with hf | hne
    · exact (h.committed (hf ▸ hcom)).2
    by_contra hr
    rcases hok.1 (by simpa using hr) with hs | ha
    · rw [hs] at hset
      cases hset
    · exact hne ha

theorem step_refund (h : Exclusive s) : Exclusive (SessionState.step .refund s) := by
  rcases s.session.refund_cases with hsame | ⟨hset, href, -, heff⟩
  · simpa [SessionState.step, hsame] using h
  simp only [SessionState.step, heff]
  refine ⟨by simp, fun hcom => ?_⟩
  rw [(h.committed hcom).1] at hset
  cases hset

theorem step (call : SessionCall) (s : SessionState) (hok : SettlesInTurn call s)
    (h : Exclusive s) : Exclusive (SessionState.step call s) := by
  cases call with
  | reserve c target =>
    obtain ⟨hs, hr, hf⟩ := reserve_flags s.session c target s.world
    exact ⟨by simpa [SessionState.step, charge, hr] using h.idle,
      by simpa [SessionState.step, charge, hs, hr, hf] using h.committed⟩
  | settle c actual => exact h.step_settle c actual hok
  | refund => exact h.step_refund
  | refundWork env =>
    cases hwork : s.work with
    | nil => simpa [SessionState.step, hwork] using h
    | cons action rest =>
      refine ⟨?_, by simpa [SessionState.step, charge, hwork] using h.committed⟩
      intro hr
      have hidle := h.idle (by simpa [SessionState.step, charge, hwork] using hr)
      simp [hwork] at hidle
  | other op => exact ⟨h.idle, h.committed⟩

end Exclusive

/-- What the session has debited: the pre-consumed amount while it is open, the settled
amount, or nothing once the actions of its refund are done. -/
structure DebitSettledOrZero (s : SessionState) : Prop where
  unsettled : s.session.refunded = false → s.session.settled = false →
    s.debit = s.session.preConsumedQuota
  settled : s.session.refunded = false → s.session.settled = true → s.settledAs = some s.debit
  refunded : s.session.refunded = true → s.work = [] → s.debit = 0

theorem WalletSession.debitSettledOrZero (h : WalletSession s)
    (hout : ∀ e, s.refundOutcome ≠ some (.error e)) : DebitSettledOrZero s := by
  refine ⟨h.unsettled, h.settled, fun hr hwork => ?_⟩
  rcases h.refunded hr with ⟨hpos, hw, -, -⟩ | ⟨-, -, hd⟩ | ⟨-, ⟨e, he⟩, -⟩
  · rw [hwork, h.refundActions_eq hpos] at hw
    cases hw
  · exact hd
  · exact absurd he (hout e)

theorem SubscriptionSession.debitSettledOrZero (h : SubscriptionSession f s) :
    DebitSettledOrZero s := by
  refine ⟨h.unsettled, h.settled, fun hr hwork => ?_⟩
  rcases h.refunded hr with ⟨n, hw, -, -⟩ | ⟨hw, hd⟩ | ⟨-, hd⟩
  · rw [hwork] at hw
    cases hw
  · -- no action is left for what was reserved on top, so nothing was
    rw [hwork, eq_comm, List.append_eq_nil_iff] at hw
    have hext := h.extra
    by_contra hne
    have hpos : 0 < s.session.extraReserved := by omega
    have hid := h.extraId hpos
    simp [refundExtra, hpos, h.infoId, hid] at hw
  · exact hd

theorem settle_world_of_refunded {c : CallEnv} {actual : ℤ} (hr : s.session.refunded = true)
    (hok : SettlesInTurn (.settle c actual) s) :
    (SessionState.step (.settle c actual) s).world = s.world := by
  simp only [SessionState.step, charge, settle]
  rcases hok.1 hr with hs | ha
  · simp [hs]
  · subst ha
    cases s.session.settled <;> simp

theorem refund_of_committed (h : s.session.fundingSettled = true) :
    SessionState.step .refund s = s := by
  rcases s.session.refund_cases with hsame | ⟨hset, href, hnd, -⟩
  · simp [SessionState.step, hsame]
  · simp [needsRefundLocked, h] at hnd

theorem Exclusive.opened {session s : BillingSession} {c : CallEnv}
    (hnew : session.fundingSettled = false) (h : session.preConsume c quota w = (.ok (), s, w')) :
    Exclusive (.opened s w') := by
  have hfund : (session.preConsume c quota w).2.1.fundingSettled = session.fundingSettled := by
    cases hf : session.funding with
    | wallet f =>
      rcases preConsume_wallet_cases (w := w) hf c quota with
        ⟨e, hr⟩ | ⟨-, hr⟩ | ⟨-, -, -, hr⟩ <;> simp [hr]
    | subscription sub =>
      unfold preConsume
      simp only [hf]
      split
      · rfl
      · split
        · split_ifs <;> rfl
        · simp
  rw [h, hnew] at hfund
  refine ⟨fun _ => rfl, fun hcom => ?_⟩
  rw [SessionState.opened, hfund] at hcom
  cases hcom

/-- For every session that was opened with a non-negative quota under a new request id, and
every run in which no other amount than the pre-consumed one is settled after a refund
started, with any write failing: a settlement after a refund started moves nothing, and a
session whose funding is committed neither has refund actions left nor starts a refund. If
the writes that give something back succeed, the session has debited its funding source by
the pre-consumed amount while it is open, by the settled amount, or by nothing. -/
theorem settle_excludes_refund (o : OpenEnv) (info : RelayInfo) (quota : ℤ) (w w' : World)
    (session : BillingSession) (calls : List SessionCall) (hquota : 0 ≤ quota)
    (hfresh : w.preConsumeRecords info.requestId = none)
    (hopen : newBillingSession o info quota w = (.ok session, w'))
    (hok : Along SessionState.step SettlesInTurn calls (.opened session w')) :
    let s := run SessionState.step calls (.opened session w')
    (s.session.refunded = true → ∀ c actual, SettlesInTurn (.settle c actual) s →
        (SessionState.step (.settle c actual) s).world = s.world) ∧
      (s.session.fundingSettled = true → s.work = [] ∧ SessionState.step .refund s = s) ∧
      (Along SessionState.step Compensates calls (.opened session w') → DebitSettledOrZero s) := by
  intro s
  have hinit : Exclusive (.opened session w') := by
    rcases newBillingSession_ok hopen with ⟨v, info', hpre⟩ | ⟨q, sub, -, -, -, hpre⟩
    · exact Exclusive.opened rfl hpre
    · exact Exclusive.opened rfl hpre
  have hexcl : Exclusive s := run_invariant Exclusive.step hok hinit
  refine ⟨fun hr c actual hcall => settle_world_of_refunded hr hcall,
    fun hcom => ⟨hexcl.idle (hexcl.committed hcom).2, refund_of_committed hcom⟩, ?_⟩
  intro hcomp
  rcases newBillingSession_ok hopen with ⟨v, info', hpre⟩ | ⟨q, sub, hq, ham, hid, hpre⟩
  · -- the refund's outcome is carried along with the invariant of the wallet session
    obtain ⟨hinv, hout⟩ : WalletSession s ∧ ∀ e, s.refundOutcome ≠ some (.error e) :=
      run_invariant (I := fun s => WalletSession s ∧ ∀ e, s.refundOutcome ≠ some (.error e))
        (fun call s hcall h => ⟨h.1.step call s hcall.1.settlesBeforeRefund,
          h.1.step_compensated hcall.2 h.2⟩)
        (hok.and hcomp) ⟨WalletSession.opened hquota hpre, by simp [SessionState.opened]⟩
    exact hinv.debitSettledOrZero hout
  · obtain ⟨f, hopn⟩ := SubscriptionSession.opened hq ham (hid ▸ hfresh) hpre
    have hinv : SubscriptionSession f s :=
      run_invariant SubscriptionSession.step (hok.and hcomp) hopn
    exact hinv.debitSettledOrZero

/-- A subscription session that reserves more, starts its refund, and is then settled at
the amount it has pre-consumed. -/
theorem settle_excludes_refund_sample :
    ∃ session w', newBillingSession .calm sampleInfo 4 sampleAccounts = (.ok session, w') ∧
      (run SessionState.step [.reserve .calm 5, .refund, .refundWork (.calm 9), .settle .calm 5,
        .refundWork (.calm 9), .refundWork (.calm 9)] (.opened session w')).debit = 0 :=
  ⟨_, _, rfl, ((settle_excludes_refund .calm sampleInfo 4 sampleAccounts _ _
    [.reserve .calm 5, .refund, .refundWork (.calm 9), .settle .calm 5, .refundWork (.calm 9),
      .refundWork (.calm 9)] (by decide) rfl rfl (by decide)).2.2
    ⟨fun _ => rfl, trivial, fun _ => rfl, trivial, fun _ => rfl, fun _ => rfl, trivial⟩).refunded
    (by decide) (by decide)⟩

/-- A wallet session that pre-consumed 4 is refunded and then settled at 3: the settlement
gives back 1 on top of the refund's 4, and the session ends with a debit of 3 - 4. -/
theorem settle_after_refund_moves_money :
    ∃ session w', newBillingSession .calm { sampleInfo with billingPreference := "wallet_only" } 4
        sampleAccounts = (.ok session, w') ∧
      let s := run SessionState.step [.refund] (.opened session w')
      s.session.refunded = true ∧
        (SessionState.step (.settle .calm 3) s).world.reconciled .userQuota 1 =
          s.world.reconciled .userQuota 1 + 1 ∧
        let s' := run SessionState.step [.settle .calm 3, .refundWork (.calm 9)] s
        s'.work = [] ∧ s'.settledAs = some 3 ∧ s'.debit = 3 - 4 :=
  ⟨_, _, rfl, by decide, by decide, by decide, by decide, by decide⟩

end NewApi
