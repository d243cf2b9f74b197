import Mathlib.Algebra.Order.BigOperators.GroupWithZero.List
import Mathlib.Data.Rat.Floor
import Mathlib.Tactic.Positivity

/-!
# Integers from exact numbers

A program that multiplies an amount by one factor after the other and makes an integer of each
result loses what is behind the point every time, so the order of the factors matters. It does
not matter if no product of the amount with some of the factors has a fraction: `ExactProducts`.
-/
namespace NewApi

/-- The integer part: what is behind the point is dropped. -/
def truncate (q : ℚ) : ℤ := q.num.tdiv q.den

@[simp] theorem truncate_intCast (n : ℤ) : truncate n = n := by simp [truncate]

/-- What is dropped makes the number smaller, but never changes its side of zero. -/
theorem exists_truncate_eq (q : ℚ) : ∃ t, 0 ≤ t ∧ t ≤ 1 ∧ (truncate q : ℚ) = t * q := by
  have hnonneg : ∀ q : ℚ, 0 < q → ∃ t, 0 ≤ t ∧ t ≤ 1 ∧ (truncate q : ℚ) = t * q := by
    intro q hq
    have hfloor : truncate q = ⌊q⌋ := by
      rw [truncate, Rat.floor_def', Int.tdiv_eq_ediv_of_nonneg (Rat.num_nonneg.mpr hq.le)]
    refine ⟨⌊q⌋ / q, div_nonneg ?_ hq.le, (div_le_one hq).mpr (Int.floor_le q), ?_⟩
    · exact_mod_cast Int.floor_nonneg.mpr hq.le
    · rw [hfloor, div_mul_cancel₀ _ hq.ne']
  rcases lt_trichotomy q 0 with hneg | rfl | hpos
  · obtain ⟨t, hzero, hone, ht⟩ := hnonneg (-q) (neg_pos.mpr hneg)
    refine ⟨t, hzero, hone, ?_⟩
    have htrunc : truncate (-q) = -truncate q := by simp [truncate]
    rw [htrunc] at ht
    push_cast at ht
    linarith
  · exact ⟨1, zero_le_one, le_rfl, by simp [truncate]⟩
  · exact hnonneg q hpos

/-- The nearest integer, and of two the one that is farther from zero. -/
def roundHalf (q : ℚ) : ℤ := if 0 ≤ q then ⌊q + 1 / 2⌋ else -⌊-q + 1 / 2⌋

theorem roundHalf_mono {p q : ℚ} (hp : 0 ≤ p) (h : p ≤ q) : roundHalf p ≤ roundHalf q := by
  rw [roundHalf, roundHalf, if_pos hp, if_pos (hp.trans h)]
  exact Int.floor_mono (by linarith)

theorem roundHalf_nonneg {q : ℚ} (h : 0 ≤ q) : 0 ≤ roundHalf q := by
  rw [roundHalf, if_pos h]
  exact Int.floor_nonneg.mpr (by linarith)

@[simp] theorem roundHalf_one : roundHalf 1 = 1 := by
  rw [roundHalf, if_pos zero_le_one, Int.floor_eq_iff]
  norm_num

/-! ## Factors applied one by one -/

/-- Multiply by the factors in their order, an integer each time. -/
def scaleAll (n : ℤ) (factors : List ℚ) : ℤ := factors.foldl (fun n r => truncate (n * r)) n

@[simp] theorem scaleAll_cons (n : ℤ) (r : ℚ) (factors : List ℚ) :
    scaleAll n (r :: factors) = scaleAll (truncate (n * r)) factors := rfl

/-- Divide by the factors in their order, an integer each time. -/
def unscaleAll (n : ℤ) (factors : List ℚ) : ℤ := factors.foldl (fun n r => truncate (n / r)) n

/-- What the integers fall short of the exact product of all factors: a fraction that is dropped
would have been multiplied by the factors behind it. -/
def dropped (n : ℤ) : List ℚ → ℚ
  | [] => 0
  | r :: factors => (n * r - truncate (n * r)) * factors.prod + dropped (truncate (n * r)) factors

/-- Every product of the number with some of the factors is an integer. -/
def ExactProducts (n : ℤ) (factors : List ℚ) : Prop :=
  ∀ part : List ℚ, part.Subperm factors → ∃ m : ℤ, (m : ℚ) = n * part.prod

/-- It is enough to look at the products of the sublists. -/
theorem exactProducts_iff {n : ℤ} {factors : List ℚ} :
    ExactProducts n factors ↔ ∀ part ∈ factors.sublists, (n * part.prod : ℚ).den = 1 := by
  constructor
  · intro h part hpart
    obtain ⟨m, hm⟩ := h part (List.mem_sublists.mp hpart).subperm
    rw [← hm]
    exact Rat.den_intCast m
  · rintro h part ⟨sub, hperm, hsub⟩
    refine ⟨(n * sub.prod : ℚ).num, ?_⟩
    rw [Rat.den_eq_one_iff _ |>.mp (h sub (List.mem_sublists.mpr hsub)), hperm.prod_eq]

instance ExactProducts.decidable (n : ℤ) (factors : List ℚ) : Decidable (ExactProducts n factors) :=
  decidable_of_iff _ exactProducts_iff.symm

namespace ExactProducts
variable {n : ℤ} {factors factors' : List ℚ}

theorem perm (h : ExactProducts n factors) (hperm : factors.Perm factors') :
    ExactProducts n factors' :=
  fun part hpart => h part (hpart.trans hperm.symm.subperm)

theorem tail {r : ℚ} (h : ExactProducts n (r :: factors)) : ExactProducts n factors :=
  fun part hpart => h part (hpart.trans (List.sublist_cons_self r factors).subperm)

/-- Once the first factor is applied, the products with the others are still exact. -/
theorem head {r : ℚ} (h : ExactProducts n (r :: factors)) :
    ∃ m : ℤ, (m : ℚ) = n * r ∧ ExactProducts m factors := by
  obtain ⟨m, hm⟩ := h [r] (List.Sublist.subperm (by simp))
  have hmr : (m : ℚ) = n * r := by simpa using hm
  refine ⟨m, hmr, fun part hpart => ?_⟩
  obtain ⟨k, hk⟩ := h (r :: part) ((List.subperm_cons r).mpr hpart)
  refine ⟨k, ?_⟩
  rw [hk, hmr, List.prod_cons, mul_assoc]

section
variable (h : ExactProducts n factors)
include h

theorem cast_scaleAll :
    (scaleAll n factors : ℚ) = n * factors.prod := by
  induction factors generalizing n with
  | nil => simp [scaleAll]
  | cons r factors ih =>
    obtain ⟨m, hm, hrest⟩ := h.head
    rw [scaleAll_cons, ← hm, truncate_intCast, ih hrest, hm, List.prod_cons, mul_assoc]

theorem unscaleAll_eq (hpos : ∀ r ∈ factors, 0 < r) {k : ℤ}
    (hk : (k : ℚ) = n * factors.prod) : unscaleAll k factors = n := by
  induction factors generalizing k with
  | nil =>
    have hkn : (k : ℚ) = n := by simpa using hk
    exact Int.cast_injective hkn
  | cons r factors ih =>
    have hr : r ≠ 0 := (hpos r List.mem_cons_self).ne'
    obtain ⟨m, hm⟩ := h.tail factors (List.Subperm.refl factors)
    have hdiv : (k : ℚ) / r = m := by
      rw [hk, hm, List.prod_cons]
      field_simp
    have hstep : unscaleAll k (r :: factors) = unscaleAll m factors := by
      simp [unscaleAll, hdiv]
    rw [hstep]
    exact ih h.tail (fun r' hr' => hpos r' (List.mem_cons_of_mem r hr')) hm

end

end ExactProducts

section
variable {n k : ℤ} {factors factors' first rest : List ℚ}

theorem scaleAll_add_dropped (n : ℤ) (factors : List ℚ) :
    scaleAll n factors + dropped n factors = n * factors.prod := by
  induction factors generalizing n with
  | nil => simp [scaleAll, dropped]
  | cons r factors ih =>
    rw [scaleAll_cons, dropped, add_left_comm, ih, List.prod_cons]
    ring

/-- Two orders give the same number iff they drop the same. -/
theorem scaleAll_eq_iff (hperm : factors.Perm factors') :
    scaleAll n factors = scaleAll n factors' ↔ dropped n factors = dropped n factors' := by
  have hsum := scaleAll_add_dropped n factors
  rw [hperm.prod_eq, ← scaleAll_add_dropped n factors'] at hsum
  rw [← @Int.cast_inj ℚ]
  constructor <;> intro heq <;> linarith

theorem exists_scaleAll_eq (n : ℤ) (factors : List ℚ) :
    ∃ t, 0 ≤ t ∧ t ≤ 1 ∧ (scaleAll n factors : ℚ) = t * (n * factors.prod) := by
  induction factors generalizing n with
  | nil => exact ⟨1, zero_le_one, le_rfl, by simp [scaleAll]⟩
  | cons r factors ih =>
    obtain ⟨t, hzero, hone, ht⟩ := exists_truncate_eq (n * r)
    obtain ⟨u, hzero', hone', hu⟩ := ih (truncate (n * r))
    refine ⟨u * t, mul_nonneg hzero' hzero, mul_le_one₀ hone' hzero hone, ?_⟩
    rw [scaleAll_cons, hu, ht, List.prod_cons]
    ring

/-- A number that comes back after it was made smaller twice was never made smaller. -/
theorem mul_eq_self_of_mul_mul {t u x : ℚ} (hzero : 0 ≤ t) (hone : t ≤ 1) (hone' : u ≤ 1)
    (h : u * (t * x) = x) : t * x = x := by
  by_cases hx : x = 0
  · rw [hx, mul_zero]
  · have hprod : u * t = 1 := mul_right_cancel₀ hx (by rw [mul_assoc, h, one_mul])
    have hle : 1 ≤ t := hprod ▸ mul_le_of_le_one_left hzero hone'
    rw [le_antisymm hone hle, one_mul]

/-- If the product of all factors is exact, so is the one of the first factors. -/
theorem scaleAll_exact (hne : rest.prod ≠ 0)
    (h : (scaleAll n (first ++ rest) : ℚ) = n * (first ++ rest).prod) :
    (scaleAll n first : ℚ) = n * first.prod := by
  obtain ⟨t, hzero, hone, ht⟩ := exists_scaleAll_eq n first
  obtain ⟨u, -, hone', hu⟩ := exists_scaleAll_eq (scaleAll n first) rest
  have hsplit : scaleAll n (first ++ rest) = scaleAll (scaleAll n first) rest := List.foldl_append
  rw [hsplit, hu, ht, List.prod_append, mul_assoc t, ← mul_assoc (n : ℚ)] at h
  have hall := mul_eq_self_of_mul_mul hzero hone hone' h
  rw [ht]
  exact mul_right_cancel₀ hne (by rw [mul_assoc, hall])

/-- No order of the factors drops anything iff all products are exact. -/
theorem exactProducts_iff_dropped (hpos : ∀ r ∈ factors, 0 < r) :
    ExactProducts n factors ↔ ∀ order : List ℚ, order.Perm factors → dropped n order = 0 := by
  constructor
  · intro h order hperm
    have hsum := scaleAll_add_dropped n order
    rwa [(h.perm hperm.symm).cast_scaleAll, add_eq_left] at hsum
  · rintro h part ⟨sub, hsub, hmem⟩
    obtain ⟨rest, hfactors⟩ := hmem.exists_perm_append
    have hperm : (part ++ rest).Perm factors := (hsub.symm.append_right rest).trans hfactors.symm
    have hne : rest.prod ≠ 0 := (List.prod_pos fun r hr =>
      hpos r (hperm.mem_iff.mp (List.mem_append_right part hr))).ne'
    refine ⟨scaleAll n part, scaleAll_exact hne ?_⟩
    rw [← scaleAll_add_dropped, h _ hperm, add_zero]

theorem unscaleAll_eq_scaleAll (k : ℤ) (factors : List ℚ) :
    unscaleAll k factors = scaleAll k (factors.map (·⁻¹)) := by
  simp only [unscaleAll, scaleAll, List.foldl_map, div_eq_mul_inv]

/-- If a number comes back after it was divided by factors and multiplied again, every division was
exact. -/
theorem unscaleAll_exact (hpos : ∀ r ∈ first ++ rest, 0 < r)
    (h : truncate (unscaleAll k (first ++ rest) * (first ++ rest).prod) = k) :
    (unscaleAll k first : ℚ) * first.prod = k := by
  have hne := (List.prod_pos hpos).ne'
  obtain ⟨hfst, hrest⟩ : first.prod ≠ 0 ∧ rest.prod ≠ 0 := by
    rwa [← mul_ne_zero_iff, ← List.prod_append]
  obtain ⟨v, -, hone', hv⟩ :=
    exists_truncate_eq (unscaleAll k (first ++ rest) * (first ++ rest).prod)
  obtain ⟨t, hzero, hone, ht⟩ := exists_scaleAll_eq k ((first ++ rest).map (·⁻¹))
  rw [h, unscaleAll_eq_scaleAll, ht, ← List.prod_inv, mul_assoc t, inv_mul_cancel_right₀ hne] at hv
  rw [← mul_assoc, mul_eq_self_of_mul_mul hzero hone hone' hv.symm, List.map_append] at ht
  rw [unscaleAll_eq_scaleAll, scaleAll_exact (List.prod_inv rest ▸ inv_ne_zero hrest) ht,
    ← List.prod_inv, inv_mul_cancel_right₀ hfst]

/-- A number comes back from all orders of division iff the factors give it exactly from another. -/
theorem unscaleAll_stable_iff (hpos : ∀ r ∈ factors, 0 < r) :
    (∀ order : List ℚ, order.Perm factors → truncate (unscaleAll k order * factors.prod) = k) ↔
      ∃ n : ℤ, ExactProducts n factors ∧ (k : ℚ) = n * factors.prod := by
  constructor
  · intro h
    have hexact : ∀ first rest : List ℚ, (first ++ rest).Perm factors →
        (unscaleAll k first : ℚ) * first.prod = k := by
      intro first rest hperm
      exact unscaleAll_exact (fun r hr => hpos r (hperm.mem_iff.mp hr))
        (by rw [hperm.prod_eq]; exact h _ hperm)
    have hbase := hexact factors [] (by simp)
    refine ⟨unscaleAll k factors, ?_, hbase.symm⟩
    rintro part ⟨sub, hsub, hmem⟩
    obtain ⟨rest, hfactors⟩ := hmem.exists_perm_append
    have hperm : (rest ++ part).Perm factors :=
      (List.perm_append_comm.trans (hsub.symm.append_right rest)).trans hfactors.symm
    have hne : rest.prod ≠ 0 := (List.prod_pos fun r hr =>
      hpos r (hperm.mem_iff.mp (List.mem_append_left part hr))).ne'
    refine ⟨unscaleAll k rest, mul_right_cancel₀ hne ?_⟩
    rw [hexact rest part hperm, ← hbase, ← hperm.prod_eq, List.prod_append]
    ring
  · rintro ⟨n, hn, hk⟩ order hperm
    have hord : unscaleAll k order = n := (hn.perm hperm.symm).unscaleAll_eq
      (fun r hr => hpos r (hperm.mem_iff.mp hr)) (by rw [hk, hperm.prod_eq])
    rw [hord, ← hk, truncate_intCast]

end

end NewApi
