import NewApi.QuotaDialects
import NewApi.Runs

/-!
# Settlement after retries in other groups

Each retry of a request can be served by another group, and refreshes the ratio of the price. The
snapshot of a billing expression keeps the ratio of the group that was selected first.
-/
namespace NewApi.TextQuota

/-- The ratios of groups, and those that a group has in another. -/
structure GroupRatios where
  getGroupGroupRatio : String → String → Option ℚ≥0
  getGroupRatio : String → ℚ≥0

/-- The special ratio of the user's group, or that of the group in use. -/
def handleGroupRatio (ratios : GroupRatios) (userGroup usingGroup : String) : ℚ≥0 :=
  (ratios.getGroupGroupRatio userGroup usingGroup).getD (ratios.getGroupRatio usingGroup)

/-- What was fixed when the request began. -/
structure BillingSnapshot where
  (groupRatio quotaPerUnit : ℚ≥0)
  estimatedQuotaAfterGroup : ℤ

/-- A request. With tiered billing its expression has a value for the estimated tokens, and one or
an error for a report of usage. What is reserved of an estimate is up to the billing session. -/
structure BilledRequest where
  userGroup : String
  info : RelayInfo
  estimatedCost : Option ℚ≥0
  runExpr : Usage → Option ℚ≥0
  reserved : ℤ → ℤ

/-- What the settlement reads of the request. -/
structure BillingInfo where
  info : RelayInfo
  tieredBillingSnapshot : Option BillingSnapshot
  finalPreConsumedQuota : ℤ

/-- The price with another group's ratio. -/
def RelayInfo.withGroupRatio (info : RelayInfo) (ratio : ℚ≥0) : RelayInfo :=
  { info with priceData := { info.priceData with groupRatio := ratio } }

/-- A quota beyond the limit is refused. -/
def quotaRoundChecked (value quotaPerUnit : ℚ≥0) : Option ℤ :=
  if min (1000000000 * quotaPerUnit : ℚ) (2 ^ 53 - 1) < roundHalf value then none
  else some (roundHalf value)

section
variable (lib : Settings) (ctx : Ctx) (ratios : GroupRatios) (req : BilledRequest)

/-- The price in the group that is selected first; a quota that is too large is refused. -/
def modelPriceHelper (group : String) : Option BillingInfo :=
  let ratio := handleGroupRatio ratios req.userGroup group
  let info := req.info.withGroupRatio ratio
  match req.estimatedCost with
  | none => some ⟨info, none, 0⟩
  | some cost =>
    (quotaRoundChecked (cost / (1000000 : ℕ) * lib.quotaPerUnit * ratio) lib.quotaPerUnit).map
      fun quota => ⟨info, some ⟨ratio, lib.quotaPerUnit, quota⟩, req.reserved quota⟩

/-- A retry that is served by the group. -/
def getChannel (group : String) (s : BillingInfo) : BillingInfo :=
  { s with info := s.info.withGroupRatio (handleGroupRatio ratios req.userGroup group) }

/-- The quota before the group ratio, and with it. -/
def computeTieredQuotaWithRequest (snap : BillingSnapshot) (usage : Usage) : Option (ℚ≥0 × ℤ) := do
  let quotaBeforeGroup := (← req.runExpr usage) / (1000000 : ℕ) * snap.quotaPerUnit
  return (quotaBeforeGroup,
    ← quotaRoundChecked (quotaBeforeGroup * snap.groupRatio) snap.quotaPerUnit)

/-- The price by expression, with the tools; the estimate if it fails. -/
def composeTieredTextQuota (s : BillingInfo) (snap : BillingSnapshot) (surcharge : ℚ) :
    Option (ℚ≥0 × ℤ) → ℤ
  | some (quotaBeforeGroup, quota) =>
    if surcharge = 0 then quota
    else intPart (roundHalf (quotaBeforeGroup * snap.groupRatio + surcharge))
  | none =>
    let quota := if s.finalPreConsumedQuota ≤ 0 then snap.estimatedQuotaAfterGroup
      else s.finalPreConsumedQuota
    if surcharge = 0 then quota else quota + intPart (roundHalf surcharge)

/-- What the request costs at its end. -/
def postTextConsumeQuota (s : BillingInfo) (usage : Option Usage) : ℤ :=
  let summary := calculateTextQuotaSummary lib ctx s.info usage
  match usage, s.tieredBillingSnapshot with
  | some usage, some snap => composeTieredTextQuota s snap summary.surcharge.quota
    (computeTieredQuotaWithRequest req snap usage)
  | _, _ => summary.quota

/-- What a request costs that is first sent to one group and then retried in others. -/
def settledAfter (first : String) (retries : List String) (usage : Option Usage) : Option ℤ :=
  (modelPriceHelper lib ratios req first).map fun s =>
    postTextConsumeQuota lib ctx req (run (getChannel ratios req) retries s) usage

/-- Only the last attempt's group counts. -/
theorem run_getChannel (retries : List String) (group : String) (s : BillingInfo) :
    run (getChannel ratios req) (retries ++ [group]) s = getChannel ratios req group s := by
  induction retries generalizing s with
  | nil => rfl
  | cons other retries ih => exact ih (getChannel ratios req other s)

/-- What the expression settles for a report of usage, with the ratio of the snapshot and that of
the group that serves the request. It is refused if the estimate is too large. -/
def settledAt (cost snapshotRatio servingRatio : ℚ≥0) (usage : Usage) : Option ℤ :=
  let served := req.info.withGroupRatio servingRatio
  (quotaRoundChecked (cost / (1000000 : ℕ) * lib.quotaPerUnit * snapshotRatio)
    lib.quotaPerUnit).map fun estimate =>
      let snap : BillingSnapshot := ⟨snapshotRatio, lib.quotaPerUnit, estimate⟩
      composeTieredTextQuota ⟨served, some snap, req.reserved estimate⟩ snap
        (calculateTextQuotaSummary lib ctx served (some usage)).surcharge.quota
        (computeTieredQuotaWithRequest req snap usage)

theorem settledAfter_tiered {cost : ℚ≥0} (hcost : req.estimatedCost = some cost)
    (first last : String) (retries : List String) (usage : Usage) :
    settledAfter lib ctx ratios req first (retries ++ [last]) (some usage) =
      settledAt lib ctx req cost (handleGroupRatio ratios req.userGroup first)
        (handleGroupRatio ratios req.userGroup last) usage := by
  simp only [settledAfter, run_getChannel, modelPriceHelper, hcost, Option.map_map]
  rfl

theorem settledAfter_unused {cost : ℚ≥0} (hcost : req.estimatedCost = some cost)
    (first last : String) (retries : List String) :
    settledAfter lib ctx ratios req first (retries ++ [last]) none =
      (quotaRoundChecked (cost / (1000000 : ℕ) * lib.quotaPerUnit *
        handleGroupRatio ratios req.userGroup first) lib.quotaPerUnit).map fun _ =>
          (calculateTextQuotaSummary lib ctx (req.info.withGroupRatio
            (handleGroupRatio ratios req.userGroup last)) none).quota := by
  simp only [settledAfter, run_getChannel, modelPriceHelper, hcost, Option.map_map]
  rfl

/-- A retry in the group that is selected already changes nothing. -/
theorem settledAfter_again (group : String) (usage : Option Usage) :
    settledAfter lib ctx ratios req group ([] ++ [group]) usage =
      settledAfter lib ctx ratios req group [] usage := by
  simp only [settledAfter, run_getChannel, run_nil, modelPriceHelper]
  cases req.estimatedCost with
  | none => rfl
  | some cost =>
    rw [Option.map_map, Option.map_map]
    rfl

end

/-- The group `vip` has the ratio 2 and every other one the ratio 1. -/
def twoRatios : GroupRatios := ⟨fun _ _ => none, fun group => if group = "vip" then (2 : ℕ) else 1⟩

/-- A thousand tokens at two units of money for a million, by ratio or by an expression. -/
def settledSample (estimatedCost : Option ℚ≥0) (first : String) (retries : List String) :
    Option ℤ :=
  settledAfter sampleSettings sampleCtx twoRatios
    { userGroup := "default", estimatedCost, reserved := id
      info := ⟨"m", false, false, 1000, ⟨false, 0, 1, 1, 1, 1, 1, 1, 1, 1, []⟩, none⟩
      runExpr := fun usage => some (2 * usage.promptTokens.toNat : ℕ) }
    first retries (some ⟨1000, 0, 0, 0, 0, 0, 0, 0, "", "", true⟩)

end NewApi.TextQuota
