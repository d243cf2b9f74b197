import Mathlib.Algebra.Order.Ring.Int

/-!
# How a sale is shared with the referrer

What a sale leaves after the payment fee and the costs is the margin. The referrer gets a share of
the margin that is capped by a part of the sale, and nothing that would leave the platform less
than its protected part of the sale. Amounts are in units of 0.0001 RMB.
-/
namespace NewApi.Referral

/-- What `referralRewardAmount` returns. -/
structure Amounts where
  (fee margin reward platform : ℤ)

/-- The part of the margin that is offered, in percent. -/
def share (agent : Bool) : ℤ := if agent then 30 else 20

/-- The part of the sale that a reward may reach, in percent. -/
def cap (agent : Bool) : ℤ := if agent then 8 else 5

/-- The amounts that `CreateReferralRewardForTask` works with; others are refused. -/
def verified (sale cost extra : ℤ) : Bool :=
  decide (0 < sale ∧ 0 ≤ cost ∧ 0 ≤ extra ∧
    sale ≤ 1000000000 ∧ cost ≤ 1000000000 ∧ extra ≤ 1000000000)

-- No dividend is negative where it is divided, so that all ways to round down are the same.
def referralRewardAmount (sale cost extra : ℤ) (agent : Bool) : Amounts :=
  if sale ≤ 0 ∨ cost < 0 ∨ extra < 0 then ⟨0, 0, 0, 0⟩
  else
    let fee := (sale * 3 + 99) / 100
    let margin := sale - fee - cost - extra
    if margin ≤ 0 then ⟨fee, margin, 0, margin⟩
    else
      let reward := margin * share agent / 100
      let reward := if sale * cap agent / 100 < reward then sale * cap agent / 100 else reward
      let protection := margin - (sale * 15 + 99) / 100
      let reward := if protection < reward then protection else reward
      let reward := if reward < 0 then 0 else reward
      ⟨fee, margin, reward, margin - reward⟩

/-- What the reward is computed from on the way, before any division. -/
def products (sale cost extra : ℤ) (agent : Bool) : List ℤ :=
  let margin := (referralRewardAmount sale cost extra agent).margin
  [sale * 3 + 99, margin, margin * share agent, sale * cap agent, sale * 15 + 99]

section
variable {sale cost extra : ℤ}

section
variable (h : 0 < sale ∧ 0 ≤ cost ∧ 0 ≤ extra)
include h

/-- Without a margin the smallest of the three bounds is not positive, so one formula is enough. -/
theorem referralRewardAmount_eq (agent : Bool) :
    ∃ fee margin reward, fee = (sale * 3 + 99) / 100 ∧ margin = sale - fee - cost - extra ∧
      reward = max 0 (min (min (margin * share agent / 100) (sale * cap agent / 100))
        (margin - (sale * 15 + 99) / 100)) ∧
      referralRewardAmount sale cost extra agent = ⟨fee, margin, reward, margin - reward⟩ := by
  refine ⟨_, _, _, rfl, rfl, rfl, ?_⟩
  rw [referralRewardAmount, if_neg (by omega)]
  cases agent <;> simp only [share, cap, Bool.false_eq_true, if_true, if_false] <;>
    split_ifs <;> simp only [Amounts.mk.injEq, true_and] <;> omega

/-- A larger sale raises the fee and the protected part by at most one unit more than it raises
the bounds of the reward. -/
theorem reward_le_succ {other : ℤ} (hle : sale ≤ other)
    (agent : Bool) : (referralRewardAmount sale cost extra agent).reward ≤
      (referralRewardAmount other cost extra agent).reward + 1 := by
  obtain ⟨_, _, _, hf, hm, hr, ha⟩ := referralRewardAmount_eq h agent
  obtain ⟨_, _, _, hf', hm', hr', ha'⟩ :=
    referralRewardAmount_eq ⟨Int.lt_of_lt_of_le h.1 hle, h.2⟩ agent
  rw [ha, ha']
  cases agent <;> simp only [share, cap, Bool.false_eq_true, if_true, if_false] at hr hr' ⊢ <;>
    omega

/-- An agent gets no less than a promoter. -/
theorem promotion_le_agent :
    (referralRewardAmount sale cost extra false).reward ≤
      (referralRewardAmount sale cost extra true).reward := by
  obtain ⟨_, _, _, hf, hm, hr, ha⟩ := referralRewardAmount_eq h false
  obtain ⟨_, _, _, hf', hm', hr', ha'⟩ := referralRewardAmount_eq h true
  rw [ha, ha']
  simp only [share, cap, Bool.false_eq_true, if_true, if_false] at hr hr' ⊢
  omega

end

end

/-- For every verified sale: the amounts add up to the sale, the reward is within its cap, and a
positive one is within its share of the margin and leaves the platform its part. No product
overflows, an agent gets no less than a promoter, and a larger sale lowers the reward by one unit at
most. -/
theorem referral_amounts (sale cost extra : ℤ) (agent : Bool)
    (h : verified sale cost extra = true) :
    let a := referralRewardAmount sale cost extra agent
    (0 ≤ a.fee ∧ 0 ≤ a.reward ∧ (0 ≤ a.margin ↔ a.fee + cost + extra ≤ sale) ∧
      (0 ≤ a.platform ↔ a.fee + cost + extra ≤ sale) ∧
      sale = a.fee + cost + extra + a.reward + a.platform ∧ a.reward ≤ sale * cap agent / 100 ∧
      (0 < a.reward → a.reward ≤ a.margin * share agent / 100 ∧
        (sale * 15 + 99) / 100 ≤ a.platform)) ∧
      (∀ x ∈ products sale cost extra agent, -2 ^ 63 ≤ x ∧ x < 2 ^ 63) ∧
      (referralRewardAmount sale cost extra false).reward ≤
        (referralRewardAmount sale cost extra true).reward ∧
      ∀ other, sale ≤ other →
        a.reward ≤ (referralRewardAmount other cost extra agent).reward + 1 := by
  have hv := of_decide_eq_true h
  have hpos : 0 < sale ∧ 0 ≤ cost ∧ 0 ≤ extra := ⟨hv.1, hv.2.1, hv.2.2.1⟩
  refine ⟨?_, ?_, promotion_le_agent hpos, fun _ hle => reward_le_succ hpos hle agent⟩
  all_goals
    obtain ⟨fee, margin, reward, hf, hm, hr, ha⟩ := referralRewardAmount_eq hpos agent
  · rw [ha]
    cases agent <;> simp only [share, cap, Bool.false_eq_true, if_true, if_false] at hr ⊢ <;> omega
  · rw [products, ha]
    cases agent <;>
      simp only [share, cap, Bool.false_eq_true, if_true, if_false, List.forall_mem_cons,
        List.not_mem_nil, false_imp_iff, implies_true, and_true] <;> omega

theorem referral_amounts_sample :
    (referralRewardAmount 10000 5000 0 true).reward ≤ 10000 * cap true / 100 :=
  (referral_amounts 10000 5000 0 true (by decide +kernel)).1.2.2.2.2.2.1

/-- One unit more in the sale costs the referrer one of two units, as the fee and the protected
part both cross a hundred; and the share of the platform is negative where the costs exceed the
sale. -/
theorem referral_amounts_fall :
    verified 100 80 0 = true ∧ (referralRewardAmount 100 80 0 false).reward = 2 ∧
      verified 101 80 0 = true ∧ (referralRewardAmount 101 80 0 false).reward = 1 ∧
      verified 100 200 0 = true ∧ (referralRewardAmount 100 200 0 false).platform = -103 := by
  decide +kernel

end NewApi.Referral
