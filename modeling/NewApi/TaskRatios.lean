import NewApi.GoStrings
import NewApi.Rounding

/-!
# Ratios of a task's price

The price of a task is a quota for the call, multiplied by ratios for the duration, the size and
other parameters of the request (`types/price_data.go`, `relay/task_billing_mode.go`). The ratios
are kept in a map, which the code enumerates in any order. Amounts and ratios are exact numbers,
and a conversion to `int` drops what is behind the point.
-/
namespace NewApi.TaskPricing

/-- A map from names to ratios, in the order in which it is enumerated. -/
structure Ratios where
  entries : List (String × ℚ)
  nodup : (entries.map Prod.fst).Nodup
  deriving DecidableEq

namespace Ratios
variable (m : Ratios)

def empty : Ratios := ⟨[], List.nodup_nil⟩

def values : List ℚ := m.entries.map Prod.snd

def get (key : String) : Option ℚ := m.entries.lookup key

def set (key : String) (ratio : ℚ) : Ratios where
  entries := (key, ratio) :: m.entries.filter fun e => e.1 ≠ key
  nodup := by
    rw [List.map_cons, List.nodup_cons]
    refine ⟨?_, (m.nodup.sublist (List.filter_sublist.map Prod.fst))⟩
    simp

/-- The same map, enumerated in another order perhaps. -/
def Same (m m' : Ratios) : Prop := m.entries.Perm m'.entries

variable {m} {m' : Ratios}

theorem Same.values (h : m.Same m') : m.values.Perm m'.values := h.map Prod.snd

/-- Every order of the values is one in which the map may be enumerated. -/
theorem exists_same {values : List ℚ} (h : values.Perm m.values) :
    ∃ order : Ratios, order.Same m ∧ order.values = values := by
  obtain ⟨entries, hvalues, hperm⟩ := (congrFun₂ (List.eq_map_comp_perm Prod.snd) _ _).mpr h
  exact ⟨⟨entries, (hperm.map Prod.fst).nodup_iff.mpr m.nodup⟩, hperm, hvalues.symm⟩

theorem get_eq_some_iff {key : String} {ratio : ℚ} :
    m.get key = some ratio ↔ (key, ratio) ∈ m.entries := by
  obtain ⟨entries, hnd⟩ := m
  change entries.lookup key = some ratio ↔ (key, ratio) ∈ entries
  induction entries with
  | nil => simp
  | cons e rest ih =>
    obtain ⟨k, r⟩ := e
    rw [List.map_cons, List.nodup_cons] at hnd
    by_cases hkey : key = k
    · subst hkey
      have hrest : (key, ratio) ∉ rest := fun hmem =>
        hnd.1 (List.mem_map.mpr ⟨_, hmem, rfl⟩)
      simp [hrest, eq_comm]
    · have hne : (key == k) = false := beq_eq_false_iff_ne.mpr hkey
      rw [List.lookup_cons, hne, List.mem_cons, Prod.mk.injEq]
      simpa [hkey] using ih hnd.2

theorem Same.get (h : m.Same m') (key : String) : m.get key = m'.get key := by
  ext ratio
  rw [get_eq_some_iff, get_eq_some_iff]
  exact h.mem_iff

end Ratios

/-- How a video is charged. -/
inductive VideoBillingMode where
  | dynamic | fixed | tieredSeconds | tieredRequest
  deriving DecidableEq

def normalizeVideoBillingMode (mode : String) : VideoBillingMode :=
  let mode := trimSpace mode
  if mode = "fixed" then .fixed
  else if mode = "tiered_seconds" then .tieredSeconds
  else if mode = "tiered_request" then .tieredRequest
  else .dynamic

/-- The price of a task. -/
structure PriceData where
  freeModel : Bool
  (modelPrice modelRatio : ℚ)
  otherRatios : Ratios
  videoBillingMode : VideoBillingMode
  (appliedOtherRatios usePrice : Bool)
  quota : ℤ
  groupRatio : ℚ
  deriving DecidableEq

open PriceData

namespace PriceData
variable (p : PriceData)

/-- A ratio that is not positive is ignored. -/
def addOtherRatio (key : String) (ratio : ℚ) : PriceData :=
  if ratio ≤ 0 then p else { p with otherRatios := p.otherRatios.set key ratio }

/-- Each ratio is applied to the quota and truncated. -/
def applyRatio (ra : ℚ) : PriceData :=
  if ra ≠ 1 then { p with quota := truncate (p.quota * ra), appliedOtherRatios := true } else p

end PriceData

/-- What the ratios do depends on the mode. -/
def applyTaskOtherRatiosToQuota (priceData : PriceData) (videoBillingMode : String)
    (skipOtherRatios : Bool) : Except String PriceData :=
  let mode := normalizeVideoBillingMode videoBillingMode
  let p := { priceData with videoBillingMode := mode, appliedOtherRatios := false }
  if skipOtherRatios then .ok p
  else match mode with
    | .fixed | .tieredRequest =>
      if p.usePrice then .ok p else .error "fixed video billing requires ModelPrice"
    | .tieredSeconds =>
      if p.usePrice then
        let p := (p.otherRatios.get "seconds").elim p p.applyRatio
        .ok ((p.otherRatios.get "reference_video").elim p p.applyRatio)
      else .error "tiered video billing requires ModelPrice"
    | .dynamic => .ok (p.otherRatios.values.foldl applyRatio p)

/-- The quota of the price for other ratios: the ones of the price are divided out first. -/
def recalcQuotaFromRatios (priceData : PriceData) (ratios : Ratios) : ℤ :=
  let baseQuota := priceData.otherRatios.values.foldl
    (fun q ra => if ra ≠ 1 ∧ 0 < ra then truncate (q / ra) else q) priceData.quota
  let result := ratios.values.foldl (fun q ra => if ra ≠ 1 then q * ra else q) (baseQuota : ℚ)
  truncate result

namespace PriceData
variable (p : PriceData)

@[simp] theorem applyRatio_quota (ra : ℚ) : (p.applyRatio ra).quota = truncate (p.quota * ra) := by
  unfold applyRatio
  split_ifs with h
  · rfl
  · rw [not_not.mp h, mul_one, truncate_intCast]

@[simp] theorem applyRatio_otherRatios (ra : ℚ) : (p.applyRatio ra).otherRatios = p.otherRatios := by
  unfold applyRatio
  split_ifs <;> rfl

@[simp] theorem elim_applyRatio_otherRatios (ra : Option ℚ) :
    (ra.elim p p.applyRatio).otherRatios = p.otherRatios := by
  cases ra <;> simp

@[simp] theorem foldl_applyRatio_otherRatios (ratios : List ℚ) :
    (ratios.foldl applyRatio p).otherRatios = p.otherRatios := by
  induction ratios generalizing p with
  | nil => rfl
  | cons ra ratios ih => simp [ih]

theorem foldl_applyRatio_quota (ratios : List ℚ) :
    (ratios.foldl applyRatio p).quota = scaleAll p.quota ratios := by
  induction ratios generalizing p with
  | nil => rfl
  | cons ra ratios ih => simp [ih]

end PriceData

theorem applyTaskOtherRatiosToQuota_otherRatios {p applied : PriceData} {mode : String}
    {skip : Bool} (h : applyTaskOtherRatiosToQuota p mode skip = .ok applied) :
    applied.otherRatios = p.otherRatios := by
  cases skip with
  | true =>
    cases h
    rfl
  | false =>
    simp only [applyTaskOtherRatiosToQuota, Bool.false_eq_true, if_false] at h
    cases hmode : normalizeVideoBillingMode mode with
    | fixed | tieredRequest =>
      simp only [hmode] at h
      split_ifs at h
      cases h
      rfl
    | tieredSeconds =>
      simp only [hmode] at h
      split_ifs at h
      cases h
      simp only [elim_applyRatio_otherRatios]
    | dynamic =>
      simp only [hmode] at h
      cases h
      simp only [foldl_applyRatio_otherRatios]

theorem recalcQuotaFromRatios_eq {p : PriceData} (hpos : ∀ ra ∈ p.otherRatios.values, 0 < ra)
    (ratios : Ratios) : recalcQuotaFromRatios p ratios =
      truncate (unscaleAll p.quota p.otherRatios.values * ratios.values.prod) := by
  have hbase : p.otherRatios.values.foldl
      (fun q ra => if ra ≠ 1 ∧ 0 < ra then truncate (q / ra) else q) p.quota =
        unscaleAll p.quota p.otherRatios.values := by
    apply List.foldl_ext
    intro q ra hra
    by_cases hone : ra = 1
    · simp [hone]
    · simp [hone, hpos ra hra]
  have hprod : ∀ (rs : List ℚ) (q : ℚ),
      rs.foldl (fun q ra => if ra ≠ 1 then q * ra else q) q = q * rs.prod := by
    intro rs
    induction rs with
    | nil => simp
    | cons ra rs ih =>
      intro q
      rw [List.foldl_cons, ih, List.prod_cons]
      split_ifs with hone
      · ring
      · rw [not_not.mp hone, one_mul]
  simp only [recalcQuotaFromRatios]
  rw [hbase, hprod]

/-- Only the loop of the dynamic mode goes through the map. -/
theorem applyTaskOtherRatiosToQuota_order (p : PriceData) (mode : String) (skip : Bool)
    {order : Ratios} (hord : order.Same p.otherRatios) :
    (applyTaskOtherRatiosToQuota { p with otherRatios := order } mode skip).map quota =
        (applyTaskOtherRatiosToQuota p mode skip).map quota ↔
      skip = true ∨ normalizeVideoBillingMode mode ≠ .dynamic ∨
        dropped p.quota order.values = dropped p.quota p.otherRatios.values := by
  rw [← scaleAll_eq_iff hord.values]
  cases skip with
  | true => exact iff_of_true rfl (.inl rfl)
  | false =>
    simp only [applyTaskOtherRatiosToQuota, Bool.false_eq_true, if_false, false_or]
    cases normalizeVideoBillingMode mode with
    | fixed | tieredRequest =>
      refine iff_of_true ?_ (.inl (by decide))
      split_ifs <;> rfl
    | tieredSeconds =>
      refine iff_of_true ?_ (.inl (by decide))
      split_ifs
      · rw [hord.get "seconds"]
        cases p.otherRatios.get "seconds" <;>
          simp [hord.get "reference_video", Except.map] <;>
          cases p.otherRatios.get "reference_video" <;> simp
      · rfl
    | dynamic => simp [Except.map, foldl_applyRatio_quota]

/-- A quota is recalculated to the same value in all orders iff the ratios give it exactly from some
base quota. -/
theorem recalcQuotaFromRatios_stable_iff {p : PriceData}
    (hpos : ∀ ra ∈ p.otherRatios.values, 0 < ra) :
    (∀ order ratios : Ratios, order.Same p.otherRatios → ratios.Same p.otherRatios →
        recalcQuotaFromRatios { p with otherRatios := order } ratios = p.quota) ↔
      ∃ base : ℤ, ExactProducts base p.otherRatios.values ∧
        (p.quota : ℚ) = base * p.otherRatios.values.prod := by
  have hrecalc : ∀ order ratios : Ratios, order.Same p.otherRatios → ratios.Same p.otherRatios →
      recalcQuotaFromRatios { p with otherRatios := order } ratios =
        truncate (unscaleAll p.quota order.values * p.otherRatios.values.prod) := by
    intro order ratios hord hratios
    rw [recalcQuotaFromRatios_eq fun ra hra => hpos ra (hord.values.mem_iff.mp hra),
      hratios.values.prod_eq]
  rw [← unscaleAll_stable_iff hpos]
  constructor
  · intro h values hperm
    obtain ⟨order, hord, rfl⟩ := Ratios.exists_same hperm
    rw [← hrecalc order p.otherRatios hord (.refl _)]
    exact h order p.otherRatios hord (.refl _)
  · intro h order ratios hord hratios
    rw [hrecalc order ratios hord hratios]
    exact h order.values hord.values

def samplePrice (quota : ℤ) (entries : Ratios) : PriceData where
  freeModel := false
  modelPrice := 1
  modelRatio := 0
  otherRatios := entries
  videoBillingMode := .dynamic
  appliedOtherRatios := false
  usePrice := true
  quota := quota
  groupRatio := 1

end NewApi.TaskPricing
