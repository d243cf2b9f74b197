import NewApi.QuotaLedger
import NewApi.SessionCreation

/-!
# Runs of a billing session

An open session takes calls in any order, its background refund proceeds one database
action at a time, and other requests move quotas in between. Each database call may
fail. `debit` accumulates what the session's own steps drew from its funding source.
-/
namespace NewApi
open BillingSession

/-- What the funding source shows as drawn: the wallet's quota taken negatively, or the
used amount of the subscription. -/
def FundingSource.drawn (w : World) : FundingSource → ℤ
  | wallet f => -w.reconciled .userQuota f.userId
  | subscription f => (w.subscriptions f.subscriptionId).elim 0 UserSubscription.amountUsed

/-- An open session together with the database and what became of its charge. The last
three fields are bookkeeping of the model: the net debit of the session's own steps, the
actual quota of the call that settled it, and how the last refund action ended. -/
structure SessionState where
  world : World
  session : BillingSession
  work : List RefundAction
  debit : ℤ
  settledAs : Option ℤ
  refundOutcome : Option (Except Err Unit)

open SessionState

/-- A session as it was opened: it has drawn what it pre-consumed. -/
def SessionState.opened (session : BillingSession) (world : World) : SessionState where
  world := world
  session := session
  work := []
  debit := session.preConsumedQuota
  settledAs := none
  refundOutcome := none

inductive SessionCall where
  | reserve (c : CallEnv) (targetQuota : ℤ)
  | settle (c : CallEnv) (actualQuota : ℤ)
  | refund
  | refundWork (env : Env)
  | other (op : LedgerOp)

namespace SessionState

/-- Charge the difference that a step of the session made to its funding source. -/
def charge (s : SessionState) (session : BillingSession) (world : World) : SessionState :=
  { s with
    world := world
    session := session
    debit := s.debit + (s.session.funding.drawn world - s.session.funding.drawn s.world) }

def step : SessionCall → SessionState → SessionState
  | .reserve c targetQuota, s =>
    let r := s.session.reserve c targetQuota s.world
    s.charge r.2.1 r.2.2
  | .settle c actualQuota, s =>
    let r := s.session.settle c actualQuota s.world
    { s.charge r.2.1 r.2.2 with
      settledAs := if !s.session.settled && r.2.1.settled then some actualQuota
        else s.settledAs }
  | .refund, s =>
    let r := s.session.refund
    { s with session := r.1, work := s.work ++ r.2 }
  | .refundWork env, s =>
    match s.work with
    | [] => s
    | action :: rest =>
      let r := action.exec env s.world
      { s.charge s.session r.2 with
        work := action.retry r.1 ++ rest
        refundOutcome := some r.1 }
  | .other op, s => { s with world := op.step s.world }

end SessionState

/-- Rows stay, and subscriptions are untouched. -/
structure RowsKept (w w' : World) : Prop where
  users : ∀ id, (∃ r, w.users id = some r) → ∃ r, w'.users id = some r
  tokens : ∀ id, (∃ r, w.tokens id = some r) → ∃ r, w'.tokens id = some r
  subscriptions : w'.subscriptions = w.subscriptions
  records : w'.preConsumeRecords = w.preConsumeRecords
  tasks : w'.tasks = w.tasks
  nextTaskId : w'.nextTaskId = w.nextTaskId

namespace RowsKept
variable {w w₁ w₂ w₃ : World}

protected theorem refl (w : World) : RowsKept w w :=
  ⟨fun _ h => h, fun _ h => h, rfl, rfl, rfl, rfl⟩

protected theorem trans (h : RowsKept w₁ w₂) (h' : RowsKept w₂ w₃) : RowsKept w₁ w₃ :=
  ⟨fun id hr => h'.users id (h.users id hr), fun id hr => h'.tokens id (h.tokens id hr),
    h'.subscriptions.trans h.subscriptions, h'.records.trans h.records,
    h'.tasks.trans h.tasks, h'.nextTaskId.trans h.nextTaskId⟩

theorem creditUser (w : World) (id delta : ℤ) : RowsKept w (w.creditUser id delta) :=
  ⟨fun _ h => Table.exists_modify h _ _, fun _ h => h, rfl, rfl, rfl, rfl⟩

theorem creditToken (w : World) (now id delta : ℤ) : RowsKept w (w.creditToken now id delta) :=
  ⟨fun _ h => h, fun _ h => Table.exists_modify h _ _, rfl, rfl, rfl, rfl⟩

theorem creditWallet (w : World) (now userId tokenId delta : ℤ) (withToken : Bool) :
    RowsKept w (w.creditWallet now userId tokenId delta withToken) := by
  cases withToken with
  | false => exact creditUser w userId delta
  | true => exact (creditUser w userId delta).trans (creditToken _ now tokenId delta)

theorem setBatchStore (w : World) (m : PendingMap ℤ) (type : BatchUpdateType) :
    RowsKept w (w.setBatchStore m type) := by
  cases type <;> exact ⟨fun _ h => h, fun _ h => h, rfl, rfl, rfl, rfl⟩

theorem increaseUserQuota (w : World) (id quota : ℤ) :
    RowsKept w (NewApi.increaseUserQuota false id quota w).2 := by
  rw [increaseUserQuota_false]
  refine ⟨fun k h => ?_, fun _ h => h, rfl, rfl, rfl, rfl⟩
  rcases Table.updateWhere_fst w.users id (fun r => !r.deleted) (User.addQuota quota) with he | he
  · rwa [he]
  · rw [he]
    exact Table.exists_modify h _ _

theorem increaseTokenQuota (w : World) (now id quota : ℤ) :
    RowsKept w (NewApi.increaseTokenQuota now false id quota w).2 := by
  rw [increaseTokenQuota_false]
  refine ⟨fun _ h => h, fun k h => ?_, rfl, rfl, rfl, rfl⟩
  rcases Table.updateWhere_fst w.tokens id (fun r => !r.deleted) (Token.addQuota now quota) with
    he | he
  · rwa [he]
  · rw [he]
    exact Table.exists_modify h _ _

theorem batchUpdateEntry (w : World) (type : BatchUpdateType) (now : ℤ) (fails : ℤ → Bool)
    (e : BatchEntry) : RowsKept w (NewApi.batchUpdateEntry type now fails w e) := by
  rw [batchUpdateEntry_eq]
  split_ifs
  · exact setBatchStore w _ type
  · cases type with
    | userQuota => exact increaseUserQuota w e.1 e.2
    | tokenQuota => exact increaseTokenQuota w now e.1 e.2

theorem batchUpdateEntries (type : BatchUpdateType) (now : ℤ) (fails : ℤ → Bool)
    (es : List BatchEntry) (w : World) :
    RowsKept w (es.foldl (NewApi.batchUpdateEntry type now fails) w) := by
  induction es generalizing w with
  | nil => exact RowsKept.refl w
  | cons e es ih => exact (batchUpdateEntry w type now fails e).trans (ih _)

theorem of_effect {w w' : World} {d : QuotaDelta} (h : LedgerEffect w w' d) : RowsKept w w' := by
  cases h with
  | unchanged => exact RowsKept.refl w
  | queued type id delta => exact setBatchStore w _ type
  | passed type now order fails =>
    exact (setBatchStore w ∅ type).trans (batchUpdateEntries type now fails _ _)
  | user id delta => exact creditUser w id delta
  | token now id delta => exact creditToken w now id delta
  | wallet now userId tokenId delta withToken =>
    exact creditWallet w now userId tokenId delta withToken

end RowsKept

section WalletCalls
variable {s : BillingSession} {f : WalletFunding} {w : World}

section
variable (hf : s.funding = .wallet f)
include hf

/-- All that raising the reservation can do to a wallet's session. -/
theorem reserve_wallet_cases (c : CallEnv) (target : ℤ) :
    ((s.reserve c target w).2 = (s, w)) ∨
      ∃ d, 0 < d ∧ s.settled = false ∧ s.refunded = false ∧ s.trusted = false ∧
        WalletCovers f.userId s.relayInfo.tokenId d (!s.relayInfo.isPlayground) w ∧
        (s.reserve c target w).1 = .ok () ∧ (s.reserve c target w).2 = (recordReserve d
            { s with funding := .wallet { f with consumed := f.consumed + d } },
           w.creditWallet (c.env 0).now f.userId s.relayInfo.tokenId (-d)
            (!s.relayInfo.isPlayground)) := by
  unfold reserve
  by_cases hskip : (s.settled || s.refunded || s.trusted ||
      decide (target ≤ s.preConsumedQuota)) = true
  · rw [if_pos hskip]
    exact .inl rfl
  rw [if_neg hskip]
  simp only [Bool.or_eq_true, decide_eq_true_eq, not_or, Bool.not_eq_true] at hskip
  obtain ⟨⟨⟨hs, hr⟩, ht⟩, hlt⟩ := hskip
  have hd : 0 < target - s.preConsumedQuota := by omega
  simp only [hf]
  rcases (atomic_reserveWalletQuota (c.env 0) f.userId s.relayInfo.tokenId
    (target - s.preConsumedQuota) (!s.relayInfo.isPlayground)).cases w with
    ⟨⟨⟩, v, hres⟩ | ⟨e, hres⟩
  · obtain ⟨-, hcov, rfl⟩ := (reserveWalletQuota_eq_ok hd).mp hres
    refine .inr ⟨target - s.preConsumedQuota, hd, hs, hr, ht, hcov, ?_, ?_⟩ <;> rw [hres]
  · left
    rw [hres]

theorem reserve_wallet_error {c : CallEnv} {target : ℤ}
    {e : NewAPIError} (h : (s.reserve c target w).1 = .error e) :
    (s.reserve c target w).2 = (s, w) := by
  rcases reserve_wallet_cases (w := w) hf c target with hsame | ⟨d, -, -, -, -, -, hok, -⟩
  · exact hsame
  · rw [hok] at h
    cases h

/-- All that a settlement can do to a wallet's session. -/
theorem settle_wallet_cases (c : CallEnv) (actual : ℤ) :
    ((s.settle c actual w).2 = (s, w)) ∨
      (s.settled = false ∧ (actual = s.preConsumedQuota ∨ s.fundingSettled = true) ∧
        (s.settle c actual w).2 = ({ s with settled := true }, w)) ∨
      (s.settled = false ∧ actual ≠ s.preConsumedQuota ∧
        (∃ r, w.users s.relayInfo.userId = some r) ∧
        (s.relayInfo.isPlayground = false → ∃ r, w.tokens s.relayInfo.tokenId = some r) ∧
        (s.settle c actual w).2 = ({ s with fundingSettled := true, settled := true },
           w.creditWallet (c.env 0).now s.relayInfo.userId s.relayInfo.tokenId
            (-(actual - s.preConsumedQuota)) (!s.relayInfo.isPlayground))) := by
  unfold settle
  cases hset : s.settled with
  | true => exact .inl rfl
  | false =>
    by_cases hd : actual - s.preConsumedQuota = 0
    · refine .inr (.inl ⟨rfl, .inl (by omega), ?_⟩)
      simp [hd]
    simp only [hd, if_false, hf]
    cases hfs : s.fundingSettled with
    | true => exact .inr (.inl ⟨trivial, .inr rfl, rfl⟩)
    | false =>
      simp only [Bool.false_eq_true, if_false]
      rcases (atomic_adjustWalletQuota (c.env 0) s.relayInfo.userId s.relayInfo.tokenId
        (actual - s.preConsumedQuota) (!s.relayInfo.isPlayground)).cases w with
        ⟨⟨⟩, v, hadj⟩ | ⟨e, hadj⟩
      · obtain ⟨-, hu, ht, rfl⟩ := (adjustWalletQuota_eq_ok hd).mp hadj
        refine .inr (.inr ⟨trivial, by omega, hu, fun hp => ht (by simp [hp]), ?_⟩)
        rw [hadj]
      · left
        rw [hadj]

end

end WalletCalls

/-- The invariant of a wallet session. Once a refund has started, the session owes the
wallet what it pre-consumed until the refund's only action has run. -/
structure WalletSession (s : SessionState) : Prop where
  funding : ∃ f, s.session.funding = .wallet f ∧
    f.userId = s.session.relayInfo.userId ∧ f.consumed = s.session.preConsumedQuota
  nonneg : 0 ≤ s.session.preConsumedQuota
  token : s.session.tokenConsumed = s.session.preConsumedQuota
  trusted : s.session.trusted = true → s.session.preConsumedQuota = 0
  committed : s.session.fundingSettled = true → s.session.settled = true
  rows : 0 < s.session.preConsumedQuota → (∃ r, s.world.users s.session.relayInfo.userId = some r) ∧
      (s.session.relayInfo.isPlayground = false →
        ∃ r, s.world.tokens s.session.relayInfo.tokenId = some r)
  idle : s.session.refunded = false → s.work = [] ∧ s.refundOutcome = none
  unsettled : s.session.refunded = false → s.session.settled = false →
    s.debit = s.session.preConsumedQuota
  settled : s.session.refunded = false → s.session.settled = true → s.settledAs = some s.debit
  refunded : s.session.refunded = true →
    (0 < s.session.preConsumedQuota ∧ s.work = s.session.refundActions ∧
        s.refundOutcome = none ∧ s.debit = s.session.preConsumedQuota) ∨
      (s.work = [] ∧ s.refundOutcome = some (.ok ()) ∧ s.debit = 0) ∨
      (s.work = [] ∧ (∃ e, s.refundOutcome = some (.error e)) ∧
        s.debit = s.session.preConsumedQuota)

/-- No settlement of another amount than the pre-consumed one after a refund started. -/
def SettlesBeforeRefund : SessionCall → SessionState → Prop
  | .settle _ actual, s => s.session.refunded = true →
      s.session.settled = true ∨ actual = s.session.preConsumedQuota
  | _, _ => True

instance SettlesBeforeRefund.decidable (call s) : Decidable (SettlesBeforeRefund call s) := by
  cases call <;> dsimp only [SettlesBeforeRefund] <;> infer_instance

/-- A credit is drawn from the wallet, and the rows of a session stay. -/
theorem drawn_wallet_creditWallet {w : World} {userId tokenId : ℤ} {isPlayground : Bool}
    {f : WalletFunding} (hf : f.userId = userId) (hu : ∃ r, w.users userId = some r)
    (ht : isPlayground = false → ∃ r, w.tokens tokenId = some r) (now delta : ℤ) :
    let w' := w.creditWallet now userId tokenId delta (!isPlayground)
    (FundingSource.wallet f).drawn w' - (FundingSource.wallet f).drawn w = -delta ∧
      (∃ r, w'.users userId = some r) ∧
        (isPlayground = false → ∃ r, w'.tokens tokenId = some r) := by
  have hkept := RowsKept.creditWallet w now userId tokenId delta (!isPlayground)
  refine ⟨?_, hkept.users _ hu, fun hp => hkept.tokens _ (ht hp)⟩
  obtain ⟨r, hr⟩ := hu
  have htok : (!isPlayground) = true → _ := fun hp => ht (by simpa using hp)
  have hmv := moved_creditWallet hr htok now delta .userQuota userId
  have hself : QuotaDelta.wallet userId tokenId delta (!isPlayground) .userQuota userId = delta := by
    cases isPlayground <;> simp [QuotaDelta.wallet, QuotaDelta.single]
  rw [hself] at hmv
  simp only [FundingSource.drawn, hf, hmv]
  ring

@[simp] theorem SessionState.charge_self (s : SessionState) : s.charge s.session s.world = s := by
  simp [charge]

@[simp] theorem recordReserve_fields (d : ℤ) (s : BillingSession) :
    (s.recordReserve d).funding = s.funding ∧
      (s.recordReserve d).preConsumedQuota = s.preConsumedQuota + d ∧
      (s.recordReserve d).tokenConsumed = s.tokenConsumed + d ∧
      (s.recordReserve d).extraReserved = s.extraReserved + d ∧
      (s.recordReserve d).trusted = s.trusted ∧
      (s.recordReserve d).fundingSettled = s.fundingSettled ∧
      (s.recordReserve d).settled = s.settled ∧ (s.recordReserve d).refunded = s.refunded ∧
      (s.recordReserve d).relayInfo.userId = s.relayInfo.userId ∧
      (s.recordReserve d).relayInfo.tokenId = s.relayInfo.tokenId ∧
      (s.recordReserve d).relayInfo.isPlayground = s.relayInfo.isPlayground := by
  simp [recordReserve]

namespace WalletSession
variable {s : SessionState}

section
variable (h : WalletSession s)
include h

theorem step_reserve (c : CallEnv) (target : ℤ) :
    WalletSession (step (.reserve c target) s) := by
  obtain ⟨f, hf, hfu, hfc⟩ := h.funding
  rcases reserve_wallet_cases (w := s.world) hf c target with
    hsame | ⟨d, hd, hset, href, htr, hcov, -, hres⟩
  · simpa [step, hsame] using h
  obtain ⟨u, hu, -⟩ := hcov.wallet
  have htok : s.session.relayInfo.isPlayground = false → _ :=
    fun hp => (hcov.token (by simp [hp])).imp fun r hr => hr.1
  obtain ⟨hdraw, hrows⟩ :=
    drawn_wallet_creditWallet (f := f) rfl ⟨u, hu⟩ htok (c.env 0).now (-d)
  have hdb := h.unsettled href hset
  simp only [step, charge, hres, hf, hdraw]
  refine ⟨⟨{ f with consumed := f.consumed + d }, by simp, by simpa using hfu,
    by simp [hfc]⟩, ?_, by simp [h.token], by simp [htr], by simpa using h.committed, ?_,
    fun _ => h.idle href, by simp [hdb], by simp [hset], by simp [href]⟩
  · have hpre := h.nonneg
    simp only [recordReserve_fields]
    omega
  · intro _
    simp only [recordReserve_fields]
    exact hfu ▸ hrows

theorem step_settle (c : CallEnv) (actual : ℤ) (hok : SettlesBeforeRefund (.settle c actual) s) :
    WalletSession (step (.settle c actual) s) := by
  obtain ⟨f, hf, hfu, hfc⟩ := h.funding
  rcases settle_wallet_cases (w := s.world) hf c actual with
    hsame | ⟨hset, hor, hres⟩ | ⟨hset, hne, hu, ht, hres⟩
  · simpa [step, hsame] using h
  · -- the settlement moves nothing: the amount is the pre-consumed one
    have hact : actual = s.session.preConsumedQuota := by
      rcases hor with ha | hfs
      · exact ha
      · rw [h.committed hfs] at hset
        cases hset
    simp only [step, charge, hres, hset, sub_self, add_zero]
    refine ⟨⟨f, hf, hfu, hfc⟩, h.nonneg, h.token, h.trusted, fun _ => rfl, h.rows, h.idle,
      by simp, ?_, h.refunded⟩
    intro href _
    simp [h.unsettled href hset, hact]
  · have href : s.session.refunded = false := by
      by_contra hr
      rcases hok (by simpa using hr) with hs | ha
      · rw [hs] at hset
        cases hset
      · exact hne ha
    obtain ⟨hdraw, hrows⟩ := drawn_wallet_creditWallet hfu hu ht (c.env 0).now
      (-(actual - s.session.preConsumedQuota))
    simp only [step, charge, hres, hset, hf, hdraw]
    refine ⟨⟨f, rfl, hfu, hfc⟩, h.nonneg, h.token, h.trusted, fun _ => rfl, fun _ => hrows, h.idle,
      by simp, ?_, by simp [href]⟩
    intro _ _
    simp [h.unsettled href hset]

theorem step_refund : WalletSession (step .refund s) := by
  obtain ⟨f, hf, hfu, hfc⟩ := h.funding
  rcases s.session.refund_cases with hsame | ⟨hset, href, hnd, heff⟩
  · simpa [step, hsame] using h
  -- a wallet session needs a refund only when it has debited its token's share
  have hpos : 0 < s.session.preConsumedQuota := by
    by_contra hle
    have hnone : s.session.needsRefundLocked = false := by
      simp [needsRefundLocked, hf, h.token, hle]
    simp [hnone] at hnd
  obtain ⟨hwork, hout⟩ := h.idle href
  simp only [step, heff, hwork, List.nil_append]
  refine ⟨⟨f, hf, hfu, hfc⟩, h.nonneg, h.token, h.trusted, h.committed, h.rows, by simp,
    by simp, by simp, fun _ => .inl ⟨hpos, ?_, hout, h.unsettled href hset⟩⟩
  rfl

theorem refundActions_eq (hpos : 0 < s.session.preConsumedQuota) :
    s.session.refundActions = [.wallet s.session.relayInfo.userId s.session.relayInfo.tokenId
        s.session.preConsumedQuota (!s.session.relayInfo.isPlayground)] := by
  obtain ⟨f, hf, -, hfc⟩ := h.funding
  simp [refundActions, hf, hfc, hpos]

theorem step_refundWork (env : Env) :
    WalletSession (step (.refundWork env) s) := by
  obtain ⟨f, hf, hfu, hfc⟩ := h.funding
  cases hr : s.session.refunded with
  | false =>
    obtain ⟨hwork, -⟩ := h.idle hr
    simpa [step, hwork] using h
  | true =>
    rcases h.refunded hr with ⟨hpos, hwork, hout, hdb⟩ | ⟨hwork, hout, hdb⟩ |
      ⟨hwork, hout, hdb⟩
    · obtain ⟨hu, ht⟩ := h.rows hpos
      have hacti := h.refundActions_eq hpos
      have hne : -s.session.preConsumedQuota ≠ 0 := by omega
      rcases (atomic_adjustWalletQuota env s.session.relayInfo.userId
        s.session.relayInfo.tokenId (-s.session.preConsumedQuota)
        (!s.session.relayInfo.isPlayground)).cases s.world with ⟨⟨⟩, v, hadj⟩ | ⟨e, hadj⟩
      · obtain ⟨-, -, -, rfl⟩ := (adjustWalletQuota_eq_ok hne).mp hadj
        obtain ⟨hdraw, hrows⟩ :=
          drawn_wallet_creditWallet hfu hu ht env.now (- -s.session.preConsumedQuota)
        simp only [step, hwork, hacti, RefundAction.exec, hadj, charge, hf, hdraw]
        refine ⟨⟨f, hf, hfu, hfc⟩, h.nonneg, h.token, h.trusted, h.committed, fun _ => hrows,
          by simp [hr], by simp [hr], by simp [hr], fun _ => .inr (.inl ⟨rfl, rfl, ?_⟩)⟩
        rw [hdb]
        ring
      · simp only [step, hwork, hacti, RefundAction.exec, hadj, charge, sub_self, add_zero]
        exact ⟨⟨f, hf, hfu, hfc⟩, h.nonneg, h.token, h.trusted, h.committed, h.rows,
          by simp [hr], by simp [hr], by simp [hr],
          fun _ => .inr (.inr ⟨rfl, ⟨e, rfl⟩, hdb⟩)⟩
    · simpa [step, hwork] using h
    · simpa [step, hwork] using h

theorem step_other (op : LedgerOp) : WalletSession (step (.other op) s) := by
  have hkept := RowsKept.of_effect (op.effect s.world)
  exact ⟨h.funding, h.nonneg, h.token, h.trusted, h.committed,
    fun hpos => ⟨hkept.users _ (h.rows hpos).1, fun hp => hkept.tokens _ ((h.rows hpos).2 hp)⟩,
    h.idle, h.unsettled, h.settled, h.refunded⟩

end

theorem step (call : SessionCall) (s : SessionState) (hok : SettlesBeforeRefund call s)
    (h : WalletSession s) : WalletSession (step call s) := by
  cases call with
  | reserve c target => exact h.step_reserve c target
  | settle c actual => exact h.step_settle c actual hok
  | refund => exact h.step_refund
  | refundWork env => exact h.step_refundWork env
  | other op => exact h.step_other op

theorem opened {info : RelayInfo} {c : CallEnv} {quota : ℤ} {w w' : World}
    {session : BillingSession} (hq : 0 ≤ quota)
    (h : (new info (.wallet ⟨info.userId, 0⟩)).preConsume c quota w =
      (.ok (), session, w')) : WalletSession (.opened session w') := by
  rcases preConsume_wallet_cases (w := w) (s := new info (.wallet ⟨info.userId, 0⟩))
    rfl c quota with ⟨e, hr⟩ | ⟨hle, hr⟩ | ⟨hpos, -, hcov, hr⟩
  · rw [hr] at h
    cases h
  · rw [hr] at h
    cases h
    simp only [effectiveQuota_eq_zero _ hq hle]
    constructor <;> simp [SessionState.opened, new]
  · rw [hr] at h
    cases h
    obtain ⟨u, hu, -⟩ := hcov.wallet
    have hkept := RowsKept.creditWallet w (c.env 0).now info.userId info.tokenId (-quota)
      (!info.isPlayground)
    constructor <;> simp [SessionState.opened, new]
    · omega
    · intro _
      exact ⟨hkept.users _ ⟨u, hu⟩, fun hp => hkept.tokens _
        ((hcov.token (by simpa [new] using hp)).imp fun r hr => hr.1)⟩

end WalletSession

/-- For every wallet session opened with a non-negative quota and every run in which no
other amount is settled after a refund started: the session has debited its wallet by
what it pre-consumed until it settles, by the settled amount afterwards, and by nothing
once the write of its refund has succeeded; a failed refund leaves the pre-consumed
amount. A trusted session has debited nothing until it settles, and a reservation that
fails leaves session and state as they were. -/
theorem walletSession_debit (info : RelayInfo) (c : CallEnv) (quota : ℤ) (w w' : World)
    (session : BillingSession) (calls : List SessionCall) (hquota : 0 ≤ quota)
    (hopen : (new info (.wallet ⟨info.userId, 0⟩)).preConsume c quota w =
      (.ok (), session, w')) (hok : Along step SettlesBeforeRefund calls (.opened session w')) :
    let s := run step calls (.opened session w')
    w.reconciled .userQuota info.userId - w'.reconciled .userQuota info.userId =
        session.preConsumedQuota ∧
      (s.session.refunded = false → s.session.settled = false →
        s.debit = s.session.preConsumedQuota) ∧
      (s.session.refunded = false → s.session.settled = true → s.settledAs = some s.debit) ∧
      (s.session.refunded = true → s.refundOutcome = some (.ok ()) → s.debit = 0) ∧
      (s.session.refunded = true → s.refundOutcome ≠ some (.ok ()) →
        s.debit = s.session.preConsumedQuota) ∧
      (s.session.trusted = true → s.session.settled = false → s.debit = 0) ∧
      ∀ c target e, (s.session.reserve c target s.world).1 = .error e →
        (s.session.reserve c target s.world).2 = (s.session, s.world) := by
  intro s
  have hinv : WalletSession s :=
    run_invariant WalletSession.step hok (WalletSession.opened hquota hopen)
  have hchg := (preConsume_wallet_ok hquota rfl rfl hopen).1.moved .userQuota info.userId
  refine ⟨?_, hinv.unsettled, hinv.settled, ?_, ?_, ?_, ?_⟩
  · simp only [tokenDelta, new, Pi.add_apply, QuotaDelta.single,
      and_self, if_true, reduceCtorEq, false_and, if_false, add_zero] at hchg
    rw [hchg]
    ring
  · intro hr hout
    rcases hinv.refunded hr with ⟨-, -, hnone, -⟩ | ⟨-, -, hd⟩ | ⟨-, ⟨e, he⟩, -⟩
    · rw [hnone] at hout
      cases hout
    · exact hd
    · rw [he] at hout
      cases hout
  · intro hr hout
    rcases hinv.refunded hr with ⟨-, -, -, hd⟩ | ⟨-, hsome, -⟩ | ⟨-, -, hd⟩
    · exact hd
    · exact absurd hsome hout
    · exact hd
  · intro htr hset
    have hpre := hinv.trusted htr
    cases hr : s.session.refunded with
    | false => rw [hinv.unsettled hr hset, hpre]
    | true =>
      rcases hinv.refunded hr with ⟨-, -, -, hd⟩ | ⟨-, -, hd⟩ | ⟨-, -, hd⟩
      · rw [hd, hpre]
      · exact hd
      · rw [hd, hpre]
  · intro c target e he
    obtain ⟨f, hf, -⟩ := hinv.funding
    exact reserve_wallet_error hf he

/-- Opening a wallet session for 4, reserving up to 6 and settling at 3. -/
theorem walletSession_debit_sample :
    ∃ session w', (new sampleInfo (.wallet ⟨1, 0⟩)).preConsume .calm 4
        sampleAccounts = (.ok (), session, w') ∧
      (run step [.reserve .calm 6, .settle .calm 3, .refund]
        (.opened session w')).settledAs =
      some (run step [.reserve .calm 6, .settle .calm 3, .refund]
        (.opened session w')).debit :=
  ⟨_, _, rfl, (walletSession_debit sampleInfo .calm 4 sampleAccounts _ _
    [.reserve .calm 6, .settle .calm 3, .refund] (by decide) rfl (by decide)).2.2.1
    (by decide) (by decide)⟩

/-- A refund whose write fails leaves the wallet debited, and a negative quota is recorded
as pre-consumed although nothing was debited. -/
theorem walletSession_debit_not_recorded :
    (∃ session w', (new sampleInfo (.wallet ⟨1, 0⟩)).preConsume .calm 4
        sampleAccounts = (.ok (), session, w') ∧
      let s := run step [.refund, .refundWork (.broken 9)] (.opened session w')
      s.session.refunded = true ∧ s.work = [] ∧ s.debit = 4) ∧
    (∃ session w', (new sampleInfo (.wallet ⟨1, 0⟩)).preConsume .calm (-5)
        sampleAccounts = (.ok (), session, w') ∧ session.preConsumedQuota = -5 ∧
      sampleAccounts.reconciled .userQuota 1 - w'.reconciled .userQuota 1 = 0) :=
  ⟨⟨_, _, rfl, by decide⟩, ⟨_, _, rfl, rfl, by decide⟩⟩

end NewApi
