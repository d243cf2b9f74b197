import NewApi.TopUpCredits

/-!
# Completion by hand and by the provider

What a pending order is worth is computed twice: by the provider's completion function, and by
the one for administrators. They agree for Epay and the two Waffo gateways. Creem's orders hold
the quota itself in their amount, which an administrator's completion multiplies once more, and
Stripe's completion credits the fraction that an administrator's cuts off.
-/
namespace NewApi

structure TopUpSettings where
  quotaPerUnit : ℚ
  displayTokens : Bool
  topupGroupRatio : ℚ

/-- A request for an order; what is paid for it is given. -/
inductive OrderRequest where
  | epay (amount : ℤ) (paymentMethod : String) (payMoney : ℚ)
  | stripe (amount : ℤ)
  | creem (quota : ℤ) (price : ℚ)
  | waffo (amount : ℤ) (payMoney : ℚ)
  | waffoPancake (amount : ℤ) (payMoney : ℚ)

open OrderRequest

section Orders
variable (s : TopUpSettings)

/-- Amounts given in tokens are stored in units. -/
def normalizeTopUpAmount (amount : ℤ) : ℤ :=
  if s.displayTokens then intPart (amount / s.quotaPerUnit) else amount

/-- The Waffo gateways store one unit at least. -/
def normalizeWaffoTopUpAmount (amount : ℤ) : ℤ :=
  if s.displayTokens then max 1 (intPart (amount / s.quotaPerUnit)) else amount

def getChargedAmount (count : ℤ) : ℚ :=
  count * if s.topupGroupRatio = 0 then 1 else s.topupGroupRatio

def OrderRequest.order (userId now : ℤ) : OrderRequest → TopUp
  | .epay amount method money =>
    ⟨userId, normalizeTopUpAmount s amount, money, method, .epay, now, 0, .pending⟩
  | .stripe amount =>
    ⟨userId, amount, getChargedAmount s amount, "stripe", .stripe, now, 0, .pending⟩
  | .creem quota price => ⟨userId, quota, price, "creem", .creem, now, 0, .pending⟩
  | .waffo amount money =>
    ⟨userId, normalizeWaffoTopUpAmount s amount, money, "waffo", .waffo, now, 0, .pending⟩
  | .waffoPancake amount money =>
    ⟨userId, normalizeWaffoTopUpAmount s amount, money, "waffo_pancake", .waffoPancake, now, 0,
      .pending⟩

/-- The provider's own completion. `detail` is what its callback tells: Stripe's customer, the
payment method of Epay, or the customer's email. -/
def OrderRequest.completion (detail : String) : OrderRequest → CompletionCall
  | .epay .. => .epay detail
  | .stripe _ => .stripe detail
  | .creem .. => .creem detail
  | .waffo .. => .waffo
  | .waffoPancake .. => .waffoPancake

/-- An administrator's completion is worth what the provider's is. For Stripe the credit has
no fraction and is in range; for Creem the quota per unit does not change it. -/
def OrderRequest.Agrees : OrderRequest → Prop
  | .epay .. | .waffo .. | .waffoPancake .. => True
  | .stripe amount => ∃ n : ℕ, n < 2 ^ 63 ∧ getChargedAmount s amount * s.quotaPerUnit = n
  | .creem quota _ => quota = 0 ∨
      0 < quota ∧ quota < 2 ^ 63 ∧ ⌊(quota : ℚ) * s.quotaPerUnit⌋ ≡ quota [ZMOD 2 ^ 64]

@[simp] theorem OrderRequest.order_userId (r : OrderRequest) (userId now : ℤ) :
    (r.order s userId now).userId = userId := by cases r <;> rfl

@[simp] theorem OrderRequest.order_status (r : OrderRequest) (userId now : ℤ) :
    (r.order s userId now).status = .pending := by cases r <;> rfl

end Orders

/-- The quota that the completion credits for the order; a refused one credits none. -/
def Completion.worth (c : Completion) (t : TopUp) : ℚ := (c.quota t).toOption.getD 0

section Calm
variable {c : Completion} (clock : ℤ) {tradeNo : String} {w : TopUpWorld} {t : TopUp}
  {user : TopUpUser}

theorem Completion.settle_calm (huser : w.users t.userId = some user) (quota : ℚ) :
    c.settle (.calm clock) tradeNo t quota w =
      .ok ((), c.after (.calm clock) tradeNo t quota w) := by
  have hcredit : ∀ v : TopUpWorld, v.users = w.users → c.credit (.calm clock) t.userId quota v =
        .ok ((), { v with users := v.users.modify t.userId (c.credited quota) }) := by
    intro v hv
    refine Tx.statement_bind_eq_ok.mpr ⟨by simp, TableIn.updateOne_eq_ok.mpr ⟨rfl, ?_, rfl⟩⟩
    exact ⟨user, by rw [topUpUsersTable_get, hv, huser], rfl⟩
  have hsave : ∀ v : TopUpWorld, c.save (.calm clock) tradeNo t v =
      .ok ((), { v with orders := v.orders.put tradeNo (c.completed (.calm clock) t) }) :=
    fun v => rfl
  unfold settle
  split
  · exact Tx.bind_eq_ok.mpr ⟨(), _, hcredit w rfl, hsave _⟩
  · exact Tx.bind_eq_ok.mpr ⟨(), _, hsave w, hcredit _ rfl⟩

/-- If no statement fails, a completion of a pending order raises the wallet by its worth. -/
theorem Completion.wallet_run (empty : String) (hide : Err → Err) (htr : tradeNo ≠ "")
    (hord : w.orders tradeNo = some t) (hst : t.status = .pending) (htk : c.Takes t)
    (huser : w.users t.userId = some user) :
    ((c.run (.calm clock) empty hide tradeNo w).2.users t.userId).map TopUpUser.quota =
      some (user.quota + c.worth t) := by
  have hprov : c.provider.any (fun p => decide (p ≠ t.paymentProvider)) = false := by
    rcases htk with h | h <;> simp [h]
  have hbody : c.body (.calm clock) tradeNo w =
      (c.quota t).map fun quota => (some quota, c.after (.calm clock) tradeNo t quota w) := by
    unfold body
    rw [Tx.bind_apply, Env.calm_fault, Tx.statement_false]
    simp only [Tx.read_bind, hord, hprov, hst, Bool.false_eq_true, if_false]
    cases hqt : c.quota t with
    | error e => rfl
    | ok quota => exact Tx.bind_eq_ok.mpr ⟨(), _, settle_calm clock huser quota, rfl⟩
  unfold run worth
  rw [if_neg htr]
  cases hqt : c.quota t with
  | error e =>
    rw [hqt] at hbody
    simp [commit, hbody, Except.map, huser, Except.toOption]
  | ok quota =>
    rw [hqt] at hbody
    simp [commit, hbody, Except.map, after, credited, huser, Except.toOption]

end Calm

/-- What a quota that must be positive is worth. -/
def positivePart (quota : ℤ) : ℚ := if quota ≤ 0 then 0 else quota

variable (quota : ℤ)

theorem positiveQuota_getD :
    ((positiveQuota quota).toOption.getD 0 : ℚ) = positivePart quota := by
  unfold positiveQuota positivePart
  split <;> rfl

theorem positivePart_nonneg : 0 ≤ positivePart quota := by
  unfold positivePart
  split
  · exact le_refl 0
  · rename_i h
    exact_mod_cast (not_le.mp h).le

/-- The credit of a Stripe order survives being cut to a 64-bit integer. -/
theorem positivePart_intPart_eq_iff (x : ℚ) :
    positivePart (intPart x) = x ↔ ∃ n : ℕ, n < 2 ^ 63 ∧ x = n := by
  constructor
  · intro h
    unfold positivePart at h
    split at h
    · exact ⟨0, by norm_num, by rw [← h]; norm_num⟩
    rename_i hpos
    refine ⟨(intPart x).toNat, ?_, ?_⟩
    · have hrange := (wrapInt64_range (x.num.tdiv x.den)).2
      change intPart x < 2 ^ 63 at hrange
      omega
    · have hnat : ((intPart x).toNat : ℤ) = intPart x := Int.toNat_of_nonneg (not_le.mp hpos).le
      calc x = (intPart x : ℚ) := h.symm
        _ = ((intPart x).toNat : ℚ) := by exact_mod_cast congrArg (Int.cast : ℤ → ℚ) hnat.symm
  · rintro ⟨n, hn, rfl⟩
    rw [intPart_natCast hn]
    unfold positivePart
    split
    · rename_i h
      have hzero : n = 0 := by omega
      simp [hzero]
    · norm_cast

/-- The amount of a Creem order survives being multiplied. -/
theorem positivePart_mul_eq_iff {rate : ℚ} (hrate : 0 < rate) :
    positivePart (intPart (quota * rate)) = quota ↔ quota = 0 ∨
      0 < quota ∧ quota < 2 ^ 63 ∧ ⌊(quota : ℚ) * rate⌋ ≡ quota [ZMOD 2 ^ 64] := by
  rcases lt_trichotomy quota 0 with hneg | rfl | hpos
  · have hne : positivePart (intPart (quota * rate)) ≠ quota := by
      have hnn := positivePart_nonneg (intPart (quota * rate))
      have hcast : (quota : ℚ) < 0 := by exact_mod_cast hneg
      exact ne_of_gt (lt_of_lt_of_le hcast hnn)
    simp only [hne, false_iff]
    omega
  · simp [intPart, wrapInt64, positivePart]
  · have hprod : 0 ≤ (quota : ℚ) * rate := mul_nonneg (by exact_mod_cast hpos.le) hrate.le
    have hpart : positivePart (intPart (quota * rate)) = quota ↔
        intPart (quota * rate) = quota := by
      unfold positivePart
      split
      · rename_i h
        constructor
        · intro h0
          have : quota = 0 := by exact_mod_cast h0.symm
          omega
        · intro h0
          omega
      · exact Int.cast_inj
    rw [hpart, intPart_of_nonneg hprod, wrapInt64_eq_iff]
    constructor
    · rintro ⟨hmod, -, hlt⟩
      exact .inr ⟨hpos, hlt, hmod⟩
    · rintro (h0 | ⟨-, hlt, hmod⟩)
      · omega
      · exact ⟨hmod, by omega, hlt⟩

def walletAfter (r : Except Err (Option ℚ) × TopUpWorld) (userId : ℤ) : Option ℚ :=
  (r.2.users userId).map TopUpUser.quota

def OrderRequest.worth (s : TopUpSettings) (r : OrderRequest) : ℚ :=
  match r with
  | .epay amount _ _ => positivePart (intPart (normalizeTopUpAmount s amount * s.quotaPerUnit))
  | .stripe amount => getChargedAmount s amount * s.quotaPerUnit
  | .creem quota _ => quota
  | .waffo amount _ | .waffoPancake amount _ =>
    positivePart (intPart (normalizeWaffoTopUpAmount s amount * s.quotaPerUnit))

section Orders
variable {s : TopUpSettings} {r : OrderRequest} {userId now : ℤ} {tradeNo : String}
  {w : TopUpWorld} {user : TopUpUser}

section
variable (htr : tradeNo ≠ "") (hord : w.orders tradeNo = some (r.order s userId now))
  (huser : w.users userId = some user)
include htr hord huser

theorem Completion.wallet_order {c : Completion} {clock : ℤ} {empty : String} {hide : Err → Err}
    {worth : ℚ} (htk : c.Takes (r.order s userId now))
    (hworth : c.worth (r.order s userId now) = worth) :
    walletAfter (c.run (.calm clock) empty hide tradeNo w) userId = some (user.quota + worth) := by
  have huser' : w.users (r.order s userId now).userId = some user := by
    rw [order_userId, huser]
  have hwal := wallet_run clock empty hide htr hord
    (r.order_status s userId now) htk huser'
  rw [order_userId, hworth] at hwal
  exact hwal

theorem wallet_manual (clock : ℤ) :
    walletAfter (manualCompleteTopUp s.quotaPerUnit (.calm clock) tradeNo w) userId =
      some (user.quota + positivePart (manualQuota s.quotaPerUnit (r.order s userId now))) :=
  Completion.wallet_order htr hord huser (.inl rfl) (positiveQuota_getD _)

theorem wallet_provider (clock : ℤ) (detail : String) :
    walletAfter ((r.completion detail).run s.quotaPerUnit (.calm clock) tradeNo w) userId =
      some (user.quota + r.worth s) := by
  cases r with
  | epay amount method money | waffo amount money | waffoPancake amount money =>
    exact Completion.wallet_order htr hord huser (.inr rfl) (positiveQuota_getD _)
  | stripe amount | creem quota price =>
    exact Completion.wallet_order htr hord huser (.inr rfl) rfl

end

/-- The administrator's formula gives the provider's worth exactly for the orders that agree. -/
theorem manualQuota_eq_worth_iff (hrate : 0 < s.quotaPerUnit) :
    positivePart (manualQuota s.quotaPerUnit (r.order s userId now)) = r.worth s ↔ r.Agrees s := by
  cases r with
  | epay amount method money | waffo amount money => simp [OrderRequest.Agrees, worth, order,
      manualQuota]
  | waffoPancake amount money => simp [OrderRequest.Agrees, worth, order, manualQuota]
  | stripe amount => exact positivePart_intPart_eq_iff _
  | creem quota price => exact positivePart_mul_eq_iff quota hrate

end Orders

/-- A pending order is worth the same to both completions exactly if it is an order of Epay
or of a Waffo gateway, a Stripe order whose credit is a whole number in range, or a Creem order
whose quota the quota per unit does not change. -/
theorem manual_completion_agrees (s : TopUpSettings) (hrate : 0 < s.quotaPerUnit) (r : OrderRequest)
    (userId now clock clock' : ℤ) (tradeNo detail : String) (w : TopUpWorld) (user : TopUpUser)
    (htrade : tradeNo ≠ "") (horder : w.orders tradeNo = some (r.order s userId now))
    (huser : w.users userId = some user) :
    walletAfter (manualCompleteTopUp s.quotaPerUnit (.calm clock) tradeNo w) userId =
        walletAfter ((r.completion detail).run s.quotaPerUnit (.calm clock') tradeNo w) userId ↔
      r.Agrees s := by
  rw [wallet_manual htrade horder huser clock, wallet_provider htrade horder huser clock' detail,
    Option.some_inj, add_right_inj]
  exact manualQuota_eq_worth_iff hrate

def orderedWorld (t : TopUp) : TopUpWorld := ⟨emptyWallet, Table.empty.put "ref_1" t⟩

/-- One and a half units, in the group with the ratio 3/2. -/
theorem manual_completion_agrees_sample :
    let s : TopUpSettings := ⟨500000, false, 3 / 2⟩
    let w := orderedWorld ((stripe 1).order s 1 10)
    walletAfter (manualCompleteTopUp 500000 (.calm 20) "ref_1" w) 1 =
      walletAfter (recharge 500000 (.calm 30) "cus_1" "ref_1" w) 1 := by
  intro s w
  refine (manual_completion_agrees s (by decide) (.stripe 1) 1 10 20 30 "ref_1" "cus_1" w
    ⟨0, "", ""⟩ (by decide) rfl rfl).mpr ⟨750000, by decide, by decide +kernel⟩

/-- A Creem product of 500000 quota is worth 500000 times as much when it is completed by
hand. -/
theorem manual_completion_multiplies_creem :
    let s : TopUpSettings := ⟨500000, false, 1⟩
    let w := orderedWorld ((creem 500000 1).order s 1 10)
    walletAfter (rechargeCreem (.calm 20) "" "ref_1" w) 1 = some 500000 ∧
      walletAfter (manualCompleteTopUp 500000 (.calm 20) "ref_1" w) 1 = some 250000000000 := by
  decide +kernel

end NewApi
