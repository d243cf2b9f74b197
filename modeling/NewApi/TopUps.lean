import NewApi.Schema

/-!
# Top-up orders

An order is created as pending and credited to its user when it completes. Each payment
provider has its own completion function, and an administrator may complete an order by hand.
All of them lock the order, check its status and write status and credit in one transaction;
`Completion` holds what they do not have in common. Money and the quota per unit are exact
rationals. The quota that Stripe's completion adds may be a fraction, and what an integer
column keeps of one is a matter of the database: quotas are rationals here.
-/
namespace NewApi

/-- Where an order is paid. -/
inductive PaymentProvider where
  | epay | stripe | creem | waffo | waffoPancake
  deriving DecidableEq

inductive TopUpStatus where
  | pending | success | failed | expired
  deriving DecidableEq

/-- A row of `top_ups`, under its unique trade number. -/
structure TopUp where
  (userId amount : ℤ)
  money : ℚ
  paymentMethod : String
  paymentProvider : PaymentProvider
  (createTime completeTime : ℤ)
  status : TopUpStatus

/-- The columns of a user that a completion changes. -/
structure TopUpUser where
  quota : ℚ
  (email stripeCustomer : String)
  deriving DecidableEq

/-- The users and the orders. -/
structure TopUpWorld where
  users : Table ℤ TopUpUser
  orders : Table String TopUp

/-- Transactions on these two tables. -/
abbrev TopUpTx (α : Type) := Tx TopUpWorld Err α

/-- The users, for the statements of the transactions. -/
@[simps get set] def topUpUsersTable : TableIn TopUpWorld ℤ TopUpUser :=
  ⟨TopUpWorld.users, fun t w => { w with users := t }, fun _ => rfl⟩

def paymentMethodMismatch : Err := .text "payment method mismatch"

def topUpNotFound : Err := .text "topup not found"

def topUpStatusInvalid : Err := .text "topup status invalid"

/-- What one completion function does differently from the others: the provider whose orders
it takes, its errors, whether an order that has succeeded is one, the quota it credits, what
else it changes, and the order of its statements. -/
structure Completion where
  provider : Option PaymentProvider
  (unreadable notFound : Err)
  again : Bool
  wrongStatus : Err
  quota : TopUp → Except Err ℚ
  paymentMethod : TopUp → String := TopUp.paymentMethod
  email : TopUpUser → String := TopUpUser.email
  stripeCustomer : TopUpUser → String := TopUpUser.stripeCustomer
  creditFirst : Bool := false
  readsUser : Bool := false

namespace Completion
variable (c : Completion) (env : Env)

/-- The order after its payment. -/
def completed (t : TopUp) : TopUp :=
  { t with status := .success, completeTime := env.now, paymentMethod := c.paymentMethod t }

/-- The user after the payment. -/
def credited (quota : ℚ) (u : TopUpUser) : TopUpUser where
  quota := u.quota + quota
  email := c.email u
  stripeCustomer := c.stripeCustomer u

/-- The order is written as paid. -/
def save (tradeNo : String) (topUp : TopUp) : TopUpTx Unit := do
  Tx.statement (env.fault 1) .database
  Tx.modify fun w => { w with orders := w.orders.put tradeNo (c.completed env topUp) }

/-- The user's row is written. -/
def credit (userId : ℤ) (quota : ℚ) : TopUpTx Unit := do
  Tx.statement (c.readsUser && env.fault 2) .database
  topUpUsersTable.updateOne (env.fault 3) .database .recordNotFound userId (fun _ => true)
    (c.credited quota)

/-- The two writes come in either order, in one transaction. -/
def settle (tradeNo : String) (topUp : TopUp) (quota : ℚ) : TopUpTx Unit :=
  if c.creditFirst then do
    c.credit env topUp.userId quota
    c.save env tradeNo topUp
  else do
    c.save env tradeNo topUp
    c.credit env topUp.userId quota

/-- The transaction; the quota that it credited, if any. -/
def body (tradeNo : String) : TopUpTx (Option ℚ) := do
  Tx.statement (env.fault 0) c.unreadable
  let w ← Tx.read
  match w.orders tradeNo with
  | none => Tx.abort c.notFound
  | some topUp =>
    if c.provider.any (fun p => decide (p ≠ topUp.paymentProvider)) = true then
      Tx.abort paymentMethodMismatch
    else match topUp.status with
      | .success => if c.again then return none else Tx.abort c.wrongStatus
      | .failed | .expired => Tx.abort c.wrongStatus
      | .pending =>
        match c.quota topUp with
        | .error e => Tx.abort e
        | .ok quota => do
          c.settle env tradeNo topUp quota
          return some quota

/-- The function; `hide` replaces the errors that are not shown to the caller. -/
def run (empty : String) (hide : Err → Err) (tradeNo : String) (w : TopUpWorld) :
    Except Err (Option ℚ) × TopUpWorld :=
  if tradeNo = "" then (.error (.text empty), w)
  else match commit (env.fault commitSite) .database (c.body env tradeNo) w with
    | (.error e, w') => (.error (hide e), w')
    | (.ok quota, w') => (.ok quota, w')

end Completion

def topUpFailed : Err := .text "充值失败，请稍后重试"

def orderMissing : Err := .text "充值订单不存在"

def orderStatusWrong : Err := .text "充值订单状态错误"

/-- A payment that buys nothing is an error. -/
def positiveQuota (quota : ℤ) : Except Err ℚ :=
  if quota ≤ 0 then .error (.text "无效的充值额度") else .ok quota

section Functions
variable (quotaPerUnit : ℚ)

/-- Stripe's orders are credited by the money. -/
def stripeCompletion (customerId : String) : Completion where
  provider := some .stripe
  unreadable := orderMissing
  notFound := orderMissing
  again := false
  wrongStatus := orderStatusWrong
  quota := fun t => .ok (t.money * quotaPerUnit)
  stripeCustomer := fun _ => customerId

/-- Stripe's notification. -/
def recharge (env : Env) (customerId referenceId : String) :
    TopUpWorld → Except Err (Option ℚ) × TopUpWorld :=
  (stripeCompletion quotaPerUnit customerId).run env "未提供支付单号" (fun _ => topUpFailed)
    referenceId

/-- Orders of Epay are credited by the amount, and may be notified twice. -/
def epayCompletion (actualPaymentMethod : String) : Completion where
  provider := some .epay
  unreadable := .database
  notFound := topUpNotFound
  again := true
  wrongStatus := topUpStatusInvalid
  quota := fun t => positiveQuota (intPart (t.amount * quotaPerUnit))
  paymentMethod := fun t =>
    if actualPaymentMethod ≠ "" then actualPaymentMethod else t.paymentMethod
  creditFirst := true

/-- Three errors of an Epay order are shown. -/
def epayError (e : Err) : Err :=
  if e = topUpNotFound ∨ e = paymentMethodMismatch ∨ e = topUpStatusInvalid then e
  else topUpFailed

/-- Epay's notification. -/
def rechargeEpay (env : Env) (actualPaymentMethod referenceId : String) :
    TopUpWorld → Except Err (Option ℚ) × TopUpWorld :=
  (epayCompletion quotaPerUnit actualPaymentMethod).run env "未提供支付单号" epayError referenceId

/-- The amount of a Stripe order is in its money, that of every other order in its amount. -/
def manualQuota (t : TopUp) : ℤ :=
  if t.paymentProvider = .stripe then intPart (t.money * quotaPerUnit)
  else intPart (t.amount * quotaPerUnit)

/-- An administrator completes orders of every provider. -/
def manualCompletion : Completion where
  provider := none
  unreadable := orderMissing
  notFound := orderMissing
  again := true
  wrongStatus := .text "订单状态不是待支付，无法补单"
  quota := fun t => positiveQuota (manualQuota quotaPerUnit t)

/-- An administrator's request. -/
def manualCompleteTopUp (env : Env) (tradeNo : String) :
    TopUpWorld → Except Err (Option ℚ) × TopUpWorld :=
  (manualCompletion quotaPerUnit).run env "未提供订单号" (fun e => e) tradeNo

/-- Creem's amount is the quota itself. The user's email is filled in if there is none. -/
def creemCompletion (customerEmail : String) : Completion where
  provider := some .creem
  unreadable := orderMissing
  notFound := orderMissing
  again := false
  wrongStatus := orderStatusWrong
  quota := fun t => .ok t.amount
  email := fun u => if customerEmail ≠ "" ∧ u.email = "" then customerEmail else u.email
  readsUser := decide (customerEmail ≠ "")

/-- Creem's notification. -/
def rechargeCreem (env : Env) (customerEmail referenceId : String) :
    TopUpWorld → Except Err (Option ℚ) × TopUpWorld :=
  (creemCompletion customerEmail).run env "未提供支付单号" (fun _ => topUpFailed) referenceId

/-- The completion of the two Waffo gateways. -/
def waffoCompletion (provider : PaymentProvider) : Completion where
  provider := some provider
  unreadable := orderMissing
  notFound := orderMissing
  again := true
  wrongStatus := orderStatusWrong
  quota := fun t => positiveQuota (intPart (t.amount * quotaPerUnit))

/-- Waffo's notification. -/
def rechargeWaffo (env : Env) (tradeNo : String) :
    TopUpWorld → Except Err (Option ℚ) × TopUpWorld :=
  (waffoCompletion quotaPerUnit .waffo).run env "未提供支付单号" (fun _ => topUpFailed) tradeNo

/-- The notification of Waffo's other product. -/
def rechargeWaffoPancake (env : Env) (tradeNo : String) :
    TopUpWorld → Except Err (Option ℚ) × TopUpWorld :=
  (waffoCompletion quotaPerUnit .waffoPancake).run env "未提供支付单号" (fun _ => topUpFailed)
    tradeNo

end Functions

/-- The transaction that moves a pending order to another status. -/
def updatePendingBody (env : Env) (expectedPaymentProvider : Option PaymentProvider)
    (targetStatus : TopUpStatus) (tradeNo : String) : TopUpTx Unit := do
  Tx.statement (env.fault 0) topUpNotFound
  let w ← Tx.read
  match w.orders tradeNo with
  | none => Tx.abort topUpNotFound
  | some topUp =>
    if expectedPaymentProvider.any (fun p => decide (p ≠ topUp.paymentProvider)) = true then
      Tx.abort paymentMethodMismatch
    else if topUp.status ≠ .pending then Tx.abort topUpStatusInvalid
    else do
      Tx.statement (env.fault 1) .database
      Tx.modify fun w => { w with
        orders := w.orders.put tradeNo { topUp with status := targetStatus } }

/-- Only pending orders expire or fail. -/
def updatePendingTopUpStatus (env : Env) (expectedPaymentProvider : Option PaymentProvider)
    (targetStatus : TopUpStatus) (tradeNo : String) (w : TopUpWorld) :
    Except Err Unit × TopUpWorld :=
  if tradeNo = "" then (.error (.text "未提供支付单号"), w)
  else commit (env.fault commitSite) .database
    (updatePendingBody env expectedPaymentProvider targetStatus tradeNo) w

/-- The order and its user after a completion that credited `quota`. -/
def Completion.after (c : Completion) (env : Env) (tradeNo : String) (t : TopUp) (quota : ℚ)
    (w : TopUpWorld) : TopUpWorld where
  users := w.users.modify t.userId (c.credited quota)
  orders := w.orders.put tradeNo (c.completed env t)

/-- The provider's check. -/
def Completion.Takes (c : Completion) (t : TopUp) : Prop :=
  c.provider = none ∨ c.provider = some t.paymentProvider

section Effects
variable {c : Completion} {env : Env} {tradeNo : String} {w w' : TopUpWorld}

theorem Completion.takes_of_any {t : TopUp}
    (h : ¬ c.provider.any (fun p => decide (p ≠ t.paymentProvider)) = true) : c.Takes t := by
  cases hp : c.provider with
  | none => exact .inl hp
  | some p =>
    rw [hp] at h
    refine .inr (hp.trans (congrArg some ?_))
    simpa using h

/-- Whichever statement comes first, the user was there and the two rows are written. -/
theorem Completion.settle_ok {t : TopUp} {quota : ℚ} {u : Unit}
    (h : c.settle env tradeNo t quota w = .ok (u, w')) :
    (∃ user, w.users t.userId = some user) ∧ w' = c.after env tradeNo t quota w := by
  unfold settle at h
  split at h
  · obtain ⟨⟨⟩, v, hcredit, hsave⟩ := Tx.bind_eq_ok.mp h
    obtain ⟨-, hup⟩ := Tx.statement_bind_eq_ok.mp hcredit
    obtain ⟨-, ⟨user, huser, -⟩, rfl⟩ := TableIn.updateOne_eq_ok.mp hup
    obtain ⟨-, hput⟩ := Tx.statement_bind_eq_ok.mp hsave
    cases hput
    exact ⟨⟨user, huser⟩, rfl⟩
  obtain ⟨⟨⟩, v, hsave, hcredit⟩ := Tx.bind_eq_ok.mp h
  obtain ⟨-, hput⟩ := Tx.statement_bind_eq_ok.mp hsave
  cases hput
  obtain ⟨-, hup⟩ := Tx.statement_bind_eq_ok.mp hcredit
  obtain ⟨-, ⟨user, huser, -⟩, rfl⟩ := TableIn.updateOne_eq_ok.mp hup
  exact ⟨⟨user, huser⟩, rfl⟩

/-- A completion that returns without a credit changed nothing; one with a credit found the
order pending and wrote order and user together. -/
theorem Completion.body_ok {credit : Option ℚ} (h : c.body env tradeNo w = .ok (credit, w')) :
    (credit = none ∧ w' = w) ∨
      ∃ t quota, credit = some quota ∧ w.orders tradeNo = some t ∧ c.Takes t ∧
        t.status = .pending ∧ c.quota t = .ok quota ∧
        (∃ user, w.users t.userId = some user) ∧ w' = c.after env tradeNo t quota w := by
  unfold body at h
  obtain ⟨-, h⟩ := Tx.statement_bind_eq_ok.mp h
  rw [Tx.read_bind] at h
  cases hord : w.orders tradeNo with
  | none => simp [hord] at h
  | some t =>
    simp only [hord] at h
    split at h
    · cases h
    rename_i htk
    cases hst : t.status with
    | success =>
      simp only [hst] at h
      split at h
      · cases h
        exact .inl ⟨rfl, rfl⟩
      · cases h
    | failed | expired => simp [hst] at h
    | pending =>
      simp only [hst] at h
      cases hqt : c.quota t with
      | error e => simp [hqt] at h
      | ok quota =>
        simp only [hqt] at h
        obtain ⟨⟨⟩, v, hsettle, hret⟩ := Tx.bind_eq_ok.mp h
        cases hret
        obtain ⟨huser, rfl⟩ := settle_ok hsettle
        exact .inr ⟨t, quota, rfl, rfl, takes_of_any htk, hst, hqt, huser, rfl⟩

/-- A completion credits a pending order, or changes nothing and reports no credit. -/
theorem Completion.run_cases (c : Completion) (env : Env) (empty : String) (hide : Err → Err)
    (tradeNo : String) (w : TopUpWorld) :
    (∃ t quota, w.orders tradeNo = some t ∧ c.Takes t ∧ t.status = .pending ∧
        c.quota t = .ok quota ∧ (∃ user, w.users t.userId = some user) ∧
        c.run env empty hide tradeNo w = (.ok (some quota), c.after env tradeNo t quota w)) ∨
      (c.run env empty hide tradeNo w).2 = w ∧
        ∀ quota, (c.run env empty hide tradeNo w).1 ≠ .ok (some quota) := by
  unfold run
  split
  · exact .inr ⟨rfl, fun quota h => by cases h⟩
  rcases (atomic_commit (env.fault commitSite) .database (c.body env tradeNo)).cases w with
    ⟨credit, w', h⟩ | ⟨e, h⟩
  · rw [h]
    obtain ⟨-, hbody⟩ := commit_eq_ok.mp h
    rcases body_ok hbody with ⟨rfl, rfl⟩ | ⟨t, quota, rfl, hord, htk, hrest⟩
    · exact .inr ⟨rfl, fun quota h => by cases h⟩
    · obtain ⟨hst, hqt, huser, rfl⟩ := hrest
      exact .inl ⟨t, quota, hord, htk, hst, hqt, huser, rfl⟩
  · rw [h]
    exact .inr ⟨rfl, fun quota h => by cases h⟩

/-- Nothing is changed, or a pending order is. -/
theorem updatePendingTopUpStatus_cases (env : Env) (provider : Option PaymentProvider)
    (target : TopUpStatus) (tradeNo : String) (w : TopUpWorld) :
    (updatePendingTopUpStatus env provider target tradeNo w).2 = w ∨
      ∃ t, w.orders tradeNo = some t ∧ t.status = .pending ∧
        (updatePendingTopUpStatus env provider target tradeNo w).2 =
          { w with orders := w.orders.put tradeNo { t with status := target } } := by
  unfold updatePendingTopUpStatus
  split
  · exact .inl rfl
  rcases (atomic_commit (env.fault commitSite) Err.database
    (updatePendingBody env provider target tradeNo)).cases w with ⟨u, w', h⟩ | ⟨e, h⟩
  · rw [h]
    obtain ⟨-, h⟩ := commit_eq_ok.mp h
    obtain ⟨-, h⟩ := Tx.statement_bind_eq_ok.mp h
    rw [Tx.read_bind] at h
    cases hord : w.orders tradeNo with
    | none => simp [hord] at h
    | some t =>
      simp only [hord] at h
      split at h
      · cases h
      split at h
      · cases h
      rename_i hpend
      obtain ⟨-, h⟩ := Tx.statement_bind_eq_ok.mp h
      cases h
      exact .inr ⟨t, rfl, not_not.mp hpend, rfl⟩
  · rw [h]
    exact .inl rfl

end Effects

end NewApi
