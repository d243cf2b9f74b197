import NewApi.TextQuota

/-!
# The dialects of usage reports

A request uses tokens of several kinds, and a report in either dialect gives their counts. The quota
of both reports is computed from one exact number, which differs only in what is charged for tokens
of the cache.
-/
namespace NewApi.TextQuota

/-- The tokens of a request, by kind. -/
structure Spent where
  (text cacheRead cacheWrite5m cacheWrite1h cacheWriteOther image audio completion : ℕ)

open Spent

namespace Spent

def cacheWrite (s : Spent) : ℕ := s.cacheWrite5m + s.cacheWrite1h + s.cacheWriteOther

def cached (s : Spent) : ℕ := s.cacheRead + s.cacheWrite

/-- The tokens that have nothing to do with the cache. -/
def uncached (s : Spent) : ℕ := s.text + s.image + s.audio + s.completion

structure Le (s s' : Spent) : Prop where
  text : s.text ≤ s'.text
  cacheRead : s.cacheRead ≤ s'.cacheRead
  cacheWrite5m : s.cacheWrite5m ≤ s'.cacheWrite5m
  cacheWrite1h : s.cacheWrite1h ≤ s'.cacheWrite1h
  cacheWriteOther : s.cacheWriteOther ≤ s'.cacheWriteOther
  image : s.image ≤ s'.image
  audio : s.audio ≤ s'.audio
  completion : s.completion ≤ s'.completion

end Spent

/-- What both dialects report alike. -/
structure Reports (s : Spent) (usage : Usage) : Prop where
  completion : usage.completionTokens = s.completion
  cached : usage.cachedTokens = s.cacheRead
  created : usage.cachedCreationTokens = s.cacheWrite
  image : usage.imageTokens = s.image
  audio : usage.audioTokens = s.audio

structure OpenAIReport (info : RelayInfo) (s : Spent) (usage : Usage) : Prop
    extends Reports s usage where
  semantic : usageSemanticFromUsage info (some usage) ≠ "anthropic"
  prompt : usage.promptTokens = s.text + s.image + s.audio + s.cached
  /-- A report that is taken for a legacy one splits the writes by their time to live. -/
  split : isLegacyClaudeDerivedOpenAIUsage info usage = true →
    usage.claudeCacheCreation5mTokens = s.cacheWrite5m ∧
      usage.claudeCacheCreation1hTokens = s.cacheWrite1h

structure AnthropicReport (info : RelayInfo) (s : Spent) (usage : Usage) : Prop
    extends Reports s usage where
  semantic : usageSemanticFromUsage info (some usage) = "anthropic"
  prompt : usage.promptTokens = s.text + s.image + s.audio
  created5m : usage.claudeCacheCreation5mTokens = s.cacheWrite5m
  created1h : usage.claudeCacheCreation1hTokens = s.cacheWrite1h

/-- What is charged for the tokens that are written to the cache: all at one ratio in a report of
OpenAI, and by their time to live in one of Anthropic. -/
def openAIWrites (price : PriceData) (s : Spent) : ℚ≥0 := s.cacheWrite * price.cacheCreationRatio

def anthropicWrites (price : PriceData) (s : Spent) : ℚ≥0 :=
  s.cacheWriteOther * price.cacheCreationRatio + s.cacheWrite5m * price.cacheCreation5mRatio +
    s.cacheWrite1h * price.cacheCreation1hRatio

/-- What a report of OpenAI is charged for the cache beside the reads. One that is taken for a legacy
report of Claude pays for its cached tokens as text, too. -/
def openAICharge (info : RelayInfo) (s : Spent) (usage : Usage) : ℚ :=
  if isLegacyClaudeDerivedOpenAIUsage info usage then s.cached + anthropicWrites info.priceData s
  else openAIWrites info.priceData s

/-- The tokens that OpenRouter is taken to have written to the cache where it reports none. -/
def estimatedWrites (lib : Settings) (info : RelayInfo) (usage : Usage) : ℤ :=
  let created := lib.calcOpenRouterCacheCreateTokens usage info.priceData
  if usage.cachedCreationTokens = 0 ∧ info.priceData.cacheCreationRatio ≠ 1 ∧ usage.costNonzero ∧
      ¬(info.priceData.usePrice ||
        lib.hasCustomModelRatio info.originModelName info.priceData.modelRatio) ∧
      0 ≤ created ∧ created ≤ usage.promptTokens - usage.cachedTokens then created
  else 0

/-- What a report of Anthropic is charged for the cache beside the reads. Over OpenRouter the cache
is taken off the prompt tokens, which do not include it. -/
def anthropicCharge (lib : Settings) (info : RelayInfo) (s : Spent) (usage : Usage) : ℚ :=
  anthropicWrites info.priceData s +
    if info.channelIsOpenRouter then
      estimatedWrites lib info usage * ((info.priceData.cacheCreationRatio : ℚ) - 1) - s.cached
    else 0

section
variable (lib : Settings) (ctx : Ctx) (info : RelayInfo)

/-- The tokens by their ratios. Audio tokens may have a price of their own. -/
def weight (s : Spent) (charge : ℚ) : ℚ :=
  s.text + (if 0 < lib.getGeminiInputAudioPricePerMillionTokens info.originModelName then 0
    else (s.audio : ℚ)) + s.cacheRead * info.priceData.cacheRatio +
    s.image * info.priceData.imageRatio + charge + s.completion * info.priceData.completionRatio

def audioQuota (s : Spent) : ℚ≥0 :=
  lib.getGeminiInputAudioPricePerMillionTokens info.originModelName / 1000000 * s.audio *
    info.priceData.groupRatio * lib.quotaPerUnit

/-- The quota before it is rounded. -/
def exactQuota (s : Spent) (charge : ℚ) : ℚ :=
  let price := info.priceData
  let surcharge := (calculateTextToolCallSurcharge lib ctx info).quota
  applyOtherRatios price
    (if price.usePrice then price.modelPrice * lib.quotaPerUnit * price.groupRatio + surcharge
    else weight lib info s charge * (price.modelRatio * price.groupRatio) + surcharge +
      audioQuota lib info s)

def quotaBy (totalTokens : ℤ) (exact : ℚ) : ℤ :=
  let ratio := info.priceData.modelRatio * info.priceData.groupRatio
  finishQuota ratio totalTokens (intPart (roundHalf
    (if ¬info.priceData.usePrice ∧ ratio ≠ 0 ∧ exact ≤ 0 then 1 else exact)))

variable {lib : Settings} {ctx : Ctx} {info : RelayInfo} {s s' : Spent} {usage : Usage}

variable {audioPrice : ℚ≥0} {charge : ℚ} {total : ℤ} {exact : ℚ}

section
variable (apart : Bool) {c : Counts}

/-- The counts agree with the tokens where these have a ratio of their own, and the rest of the
prompt tokens is the text with `charge` for the cache. -/
structure Charged (info : RelayInfo) (s : Spent) (charge : ℚ) (apart : Bool) (c : Counts) : Prop
    where
  completion : c.completionTokens = s.completion
  cached : c.cacheTokens = s.cacheRead
  image : c.imageTokens = s.image
  audio : c.audioTokens = s.audio
  prompt : ((c.promptTokens - if apart then 0 else c.cacheTokens + c.cacheCreationTokens : ℤ) : ℚ) +
    cachedCreationTokensWithRatio info.priceData apart c = s.text + s.image + s.audio + charge

theorem tokenQuota_eq {surcharge : ℚ} (h : Charged info s charge apart c)
    (haud : audioPrice = lib.getGeminiInputAudioPricePerMillionTokens info.originModelName ∨
      s.audio = 0) :
    tokenQuota lib info audioPrice apart c surcharge =
      weight lib info s charge * (info.priceData.modelRatio * info.priceData.groupRatio) +
        surcharge + audioQuota lib info s := by
  have hbase : (baseTokens audioPrice apart c : ℚ) +
      cachedCreationTokensWithRatio info.priceData apart c =
        s.text + (if 0 < audioPrice then 0 else (s.audio : ℚ)) + charge := by
    have hprompt := h.prompt
    rw [baseTokens, h.image, h.audio]
    push_cast at hprompt ⊢
    split_ifs at hprompt ⊢ <;> linarith
  have hweight : (s.text + (if 0 < audioPrice then 0 else (s.audio : ℚ)) + charge) +
      s.cacheRead * info.priceData.cacheRatio + s.image * info.priceData.imageRatio +
      s.completion * info.priceData.completionRatio = weight lib info s charge := by
    rw [weight]
    rcases haud with rfl | hnone
    · ring
    · rw [hnone]
      split_ifs <;> push_cast <;> ring
  have hown : (audioPrice : ℚ) / 1000000 * s.audio * info.priceData.groupRatio * lib.quotaPerUnit =
      audioQuota lib info s := by
    rw [audioQuota]
    rcases haud with rfl | hnone
    · push_cast
      rfl
    · simp [hnone]
  simp only [tokenQuota, h.completion, h.cached, h.image, h.audio]
  push_cast
  rw [← hweight, ← hbase, ← hown]
  ring

/-- The quota of a report is that of its exact charge. -/
theorem quota_eq (hc : (if info.channelIsOpenRouter &&
      usageSemanticFromUsage info (some usage) == "anthropic" then
        openRouterCounts lib info usage (countsOf usage) else countsOf usage) = c)
    (hap : (usageSemanticFromUsage info (some usage) == "anthropic" ||
      isLegacyClaudeDerivedOpenAIUsage info usage) = apart)
    (htot : c.totalTokens = total) (h : Charged info s charge apart c) :
    (calculateTextQuotaSummary lib ctx info (some usage)).quota =
      quotaBy info total (exactQuota lib ctx info s charge) := by
  simp only [calculateTextQuotaSummary, Option.getD_some, hc, hap, quotaBy, exactQuota, htot]
  by_cases huseP : info.priceData.usePrice = true
  · simp [huseP]
  have haud : (if c.audioTokens = 0 then 0
      else lib.getGeminiInputAudioPricePerMillionTokens info.originModelName) =
        lib.getGeminiInputAudioPricePerMillionTokens info.originModelName ∨ s.audio = 0 := by
    by_cases hzero : s.audio = 0
    · exact .inr hzero
    · refine .inl (if_neg ?_)
      simpa [h.audio] using hzero
  simp only [huseP, Bool.false_eq_true, false_or, if_false, not_false_eq_true, true_and,
    tokenQuota_eq apart h haud]

end

/-- Writes that are split by their time to live, with more that were not reported. -/
theorem cachedCreation_split {c : Counts} {estimated : ℤ} (hest : 0 ≤ estimated)
    (hwr : c.cacheCreationTokens = s.cacheWrite + estimated)
    (h5m : c.cacheCreationTokens5m = s.cacheWrite5m)
    (h1h : c.cacheCreationTokens1h = s.cacheWrite1h) (price : PriceData) :
    cachedCreationTokensWithRatio price true c =
      anthropicWrites price s + estimated * price.cacheCreationRatio := by
  have hcach : (s.cacheWrite : ℤ) = s.cacheWrite5m + s.cacheWrite1h + s.cacheWriteOther := by
    rw [cacheWrite]
    rfl
  unfold cachedCreationTokensWithRatio anthropicWrites
  simp only [hwr, h5m, h1h, if_true]
  split_ifs with hany
  · rw [show max ((s.cacheWrite : ℤ) + estimated - s.cacheWrite5m - s.cacheWrite1h) 0 =
      s.cacheWriteOther + estimated by omega]
    push_cast
    ring
  have hoth : s.cacheWriteOther = 0 := by omega
  have h5m : s.cacheWrite5m = 0 := by omega
  have h1h : s.cacheWrite1h = 0 := by omega
  have hzero : estimated = 0 := by omega
  rw [hoth, h5m, h1h, hzero]
  simp

theorem openRouterCounts_created (lib : Settings) (info : RelayInfo) (usage : Usage) :
    0 ≤ estimatedWrites lib info usage ∧
      (openRouterCounts lib info usage (countsOf usage)).cacheCreationTokens =
        usage.cachedCreationTokens + estimatedWrites lib info usage := by
  unfold estimatedWrites
  dsimp only
  split_ifs with hest
  · refine ⟨hest.2.2.2.2.1, (if_pos hest).trans ?_⟩
    rw [hest.1, zero_add]
  · exact ⟨le_rfl, (if_neg hest).trans (add_zero _).symm⟩

theorem quota_openAI (h : OpenAIReport info s usage) :
    (calculateTextQuotaSummary lib ctx info (some usage)).quota =
      quotaBy info (s.uncached + s.cached)
        (exactQuota lib ctx info s (openAICharge info s usage)) := by
  have hsema : (usageSemanticFromUsage info (some usage) == "anthropic") = false :=
    beq_false_of_ne h.semantic
  have htot : usage.promptTokens + usage.completionTokens = s.uncached + s.cached := by
    rw [h.prompt, h.completion, uncached]
    push_cast
    ring
  refine quota_eq (isLegacyClaudeDerivedOpenAIUsage info usage) (if_neg (by simp [hsema]))
    (by rw [hsema, Bool.false_or]) htot ⟨h.completion, h.cached, h.image, h.audio, ?_⟩
  rw [openAICharge]
  cases hleg : isLegacyClaudeDerivedOpenAIUsage info usage with
  | false =>
    have hwr : cachedCreationTokensWithRatio info.priceData false (countsOf usage) =
        openAIWrites info.priceData s := by
      unfold cachedCreationTokensWithRatio openAIWrites
      simp only [countsOf, h.created, Bool.false_eq_true, if_false]
      split_ifs with hany
      · push_cast
        rfl
      · have hzero : s.cacheWrite = 0 := by omega
        rw [hzero]
        simp
    rw [hwr]
    simp only [countsOf, h.prompt, h.cached, h.created, Spent.cached, Bool.false_eq_true, if_false]
    push_cast
    ring
  | true =>
    rw [cachedCreation_split le_rfl (h.created.trans (add_zero _).symm) (h.split hleg).1
      (h.split hleg).2]
    simp only [countsOf, h.prompt, if_true]
    push_cast
    ring

theorem quota_anthropic (h : AnthropicReport info s usage) :
    (calculateTextQuotaSummary lib ctx info (some usage)).quota = quotaBy info s.uncached
        (exactQuota lib ctx info s (anthropicCharge lib info s usage)) := by
  have hsema : (usageSemanticFromUsage info (some usage) == "anthropic") = true :=
    beq_iff_eq.mpr h.semantic
  have htot : usage.promptTokens + usage.completionTokens = s.uncached := by
    rw [h.prompt, h.completion, uncached]
    push_cast
    ring
  cases hrouter : info.channelIsOpenRouter with
  | false =>
    refine quota_eq true (if_neg (by simp [hrouter])) (by rw [hsema, Bool.true_or]) htot
      ⟨h.completion, h.cached, h.image, h.audio, ?_⟩
    rw [cachedCreation_split le_rfl (h.created.trans (add_zero _).symm) h.created5m h.created1h,
      anthropicCharge, hrouter]
    simp [countsOf, h.prompt]
  | true =>
    refine quota_eq true (if_pos (by simp [hrouter, hsema])) (by rw [hsema, Bool.true_or]) htot
      ⟨h.completion, h.cached, h.image, h.audio, ?_⟩
    obtain ⟨hest, hcre⟩ := openRouterCounts_created lib info usage
    have hpro : (openRouterCounts lib info usage (countsOf usage)).promptTokens =
        usage.promptTokens - usage.cachedTokens -
          (usage.cachedCreationTokens + estimatedWrites lib info usage) := by
      rw [← hcre]
      rfl
    rw [h.created] at hcre hpro
    rw [anthropicCharge, if_pos hrouter, cachedCreation_split hest hcre h.created5m h.created1h,
      hpro, h.prompt, h.cached, Spent.cached, if_pos rfl]
    push_cast
    ring

variable (price : PriceData)

theorem applyOtherRatios_eq (quota : ℚ) :
    applyOtherRatios price quota = quota * (price.otherRatios.prod : ℚ≥0) := by
  unfold applyOtherRatios
  induction price.otherRatios generalizing quota with
  | nil => simp
  | cons ratio rest ih =>
    rw [List.foldl_cons, ih, List.prod_cons]
    push_cast
    ring

theorem ToolCalls.quota_nonneg (lib : Settings) (info : RelayInfo) {calls : ToolCalls}
    (h : 0 ≤ calls.count ∨ calls.price = 0) : 0 ≤ calls.quota lib info := by
  unfold ToolCalls.quota
  rcases h with hct | hpr
  · have : (0 : ℚ) ≤ calls.count := by exact_mod_cast hct
    positivity
  · rw [hpr]
    simp

theorem surcharge_nonneg (lib : Settings) (ctx : Ctx) (info : RelayInfo) :
    0 ≤ (calculateTextToolCallSurcharge lib ctx info).quota := by
  have hweb : 0 ≤ (webSearchCalls lib info).count := by
    unfold webSearchCalls ToolCalls.none
    split
    · split
      · split_ifs <;> dsimp only <;> omega
      · exact le_refl _
    · split_ifs <;> simp
  have hclaude : 0 ≤ (claudeWebSearchCalls lib ctx).count ∨
      (claudeWebSearchCalls lib ctx).price = 0 := by
    by_cases hct : 0 < ctx.claudeWebSearchRequests
    · exact .inl hct.le
    · exact .inr (if_neg hct)
  have hfile : 0 ≤ (fileSearchCalls lib info).count := by
    unfold fileSearchCalls ToolCalls.none
    split
    · split
      · split_ifs <;> dsimp only <;> omega
      · exact le_refl _
    · exact le_refl _
  have h₁ := ToolCalls.quota_nonneg lib info (.inl hweb)
  have h₂ := ToolCalls.quota_nonneg lib info hclaude
  have h₃ := ToolCalls.quota_nonneg lib info (.inl hfile)
  unfold calculateTextToolCallSurcharge
  positivity

theorem exactQuota_mono {charge' : ℚ} (h : s.Le s') (hpos : 0 ≤ charge) (hchg : charge ≤ charge') :
    0 ≤ exactQuota lib ctx info s charge ∧
      exactQuota lib ctx info s charge ≤ exactQuota lib ctx info s' charge' := by
  have hsurc := surcharge_nonneg lib ctx info
  have hweight : 0 ≤ weight lib info s charge ∧
      weight lib info s charge ≤ weight lib info s' charge' := by
    obtain ⟨htext, hread, -, -, -, himage, haud, hcomp⟩ := h
    unfold weight
    constructor
    · split_ifs <;> positivity
    · split_ifs <;> gcongr
  have haud : audioQuota lib info s ≤ audioQuota lib info s' := by
    have := h.audio
    unfold audioQuota
    gcongr
  obtain ⟨hnonneg, hle⟩ := hweight
  simp only [exactQuota, applyOtherRatios_eq]
  constructor
  · split_ifs <;> positivity
  · split_ifs <;> gcongr

/-- The quota of a request with tokens is the nearest integer, but at least 1 unless the ratio
is 0. -/
theorem quotaBy_eq (htot : total ≠ 0) (hex : 0 ≤ exact) (hfits : roundHalf exact < 2 ^ 63) :
    quotaBy info total exact =
      if info.priceData.modelRatio * info.priceData.groupRatio = 0 then roundHalf exact
      else max 1 (roundHalf exact) := by
  have hrnd := roundHalf_nonneg hex
  have hint : intPart (roundHalf exact) = roundHalf exact := by
    rw [intPart_intCast, wrapInt64_eq_self (by omega) hfits]
  simp only [quotaBy, finishQuota, if_neg htot]
  by_cases hrat : info.priceData.modelRatio * info.priceData.groupRatio = 0
  · simp [hrat, hint]
  rw [if_neg hrat]
  by_cases hone : ¬info.priceData.usePrice = true ∧
      info.priceData.modelRatio * info.priceData.groupRatio ≠ 0 ∧ exact ≤ 0
  · -- an exact quota of 0 is replaced by 1
    have hle : roundHalf exact ≤ roundHalf 1 := roundHalf_mono hex (hone.2.2.trans zero_le_one)
    have hint1 : intPart ((1 : ℤ) : ℚ) = 1 := by
      rw [intPart_intCast]
      exact wrapInt64_eq_self (by omega) (by omega)
    rw [roundHalf_one] at hle
    rw [if_pos hone, roundHalf_one, hint1, if_neg (by omega), max_eq_left hle]
  · rw [if_neg hone, hint]
    split_ifs with hnone
    · rw [hnone.2]
      rfl
    · have hpos : roundHalf exact ≠ 0 := fun h => hnone ⟨hrat, h⟩
      omega

/-- Of the tokens in total it only matters if there are any. -/
theorem quotaBy_of_total (htot : total ≠ 0) (exact : ℚ) :
    quotaBy info total exact = quotaBy info 1 exact := by
  simp [quotaBy, finishQuota, htot]

theorem quotaBy_nonneg (hex : 0 ≤ exact) (hfits : roundHalf exact < 2 ^ 63) :
    0 ≤ quotaBy info total exact := by
  have hrnd := roundHalf_nonneg hex
  by_cases htot : total = 0
  · rw [quotaBy, finishQuota, if_pos htot]
  · rw [quotaBy_eq htot hex hfits]
    split_ifs <;> omega

theorem quotaBy_mono {total' : ℤ} {exact' : ℚ} (htot : total' = 0 → total = 0)
    (hex : 0 ≤ exact) (hle : exact ≤ exact') (hfits : roundHalf exact' < 2 ^ 63) :
    quotaBy info total exact ≤ quotaBy info total' exact' := by
  by_cases hnone : total = 0
  · have hzero : quotaBy info total exact = 0 := if_pos hnone
    rw [hzero]
    exact quotaBy_nonneg (hex.trans hle) hfits
  have hrnd := roundHalf_mono hex hle
  rw [quotaBy_eq hnone hex (hrnd.trans_lt hfits),
    quotaBy_eq (fun h => hnone (htot h)) (hex.trans hle) hfits]
  split_ifs <;> omega

theorem one_le_quotaBy (htot : total ≠ 0)
    (hrat : info.priceData.modelRatio * info.priceData.groupRatio ≠ 0) (hex : 0 ≤ exact)
    (hfits : roundHalf exact < 2 ^ 63) : 1 ≤ quotaBy info total exact := by
  rw [quotaBy_eq htot hex hfits, if_neg hrat]
  omega

/-- Where the larger of two requests fits, the quota of the smaller one is not above it. -/
theorem quota_grows {charge' : ℚ} {total total' : ℤ} (h : s.Le s') (hpos : 0 ≤ charge)
    (hchg : charge ≤ charge') (hfits : roundHalf (exactQuota lib ctx info s' charge') < 2 ^ 63)
    (htot : total' = 0 → total = 0) :
    0 ≤ quotaBy info total (exactQuota lib ctx info s charge) ∧
      quotaBy info total (exactQuota lib ctx info s charge) ≤
        quotaBy info total' (exactQuota lib ctx info s' charge') ∧
      (info.priceData.modelRatio * info.priceData.groupRatio ≠ 0 → total ≠ 0 →
        1 ≤ quotaBy info total (exactQuota lib ctx info s charge)) := by
  obtain ⟨hex, hmono⟩ := exactQuota_mono h hpos hchg
  have hsmall := (roundHalf_mono hex hmono).trans_lt hfits
  exact ⟨quotaBy_nonneg hex hsmall, quotaBy_mono htot hex hmono hfits,
    fun hrat hne => one_le_quotaBy hne hrat hex hsmall⟩

/-- The charge for the cache counts unless there is a price per call, or a ratio is 0. -/
theorem exactQuota_eq_iff {charge' : ℚ} :
    exactQuota lib ctx info s charge = exactQuota lib ctx info s charge' ↔
      info.priceData.usePrice = true ∨
        info.priceData.modelRatio * info.priceData.groupRatio = 0 ∨
        info.priceData.otherRatios.prod = 0 ∨ charge = charge' := by
  by_cases huseP : info.priceData.usePrice = true
  · simp [exactQuota, huseP]
  have hdiff : exactQuota lib ctx info s charge - exactQuota lib ctx info s charge' =
      (charge - charge') * (info.priceData.modelRatio * info.priceData.groupRatio : ℚ≥0) *
        info.priceData.otherRatios.prod := by
    simp only [exactQuota, applyOtherRatios_eq, huseP, Bool.false_eq_true, if_false, weight]
    push_cast
    ring
  rw [← sub_eq_zero, hdiff, mul_eq_zero, mul_eq_zero, sub_eq_zero, NNRat.cast_eq_zero,
    NNRat.cast_eq_zero]
  tauto

/-- Requests that are charged alike: only the route to the upstream differs. -/
structure RelayInfo.SamePrices (info info' : RelayInfo) : Prop where
  model : info'.originModelName = info.originModelName
  price : info'.priceData = info.priceData
  tools : info'.responsesUsageInfo = info.responsesUsageInfo

variable {info' : RelayInfo}

theorem exactQuota_congr (h : info.SamePrices info') (charge : ℚ) :
    exactQuota lib ctx info' s charge = exactQuota lib ctx info s charge := by
  simp only [exactQuota, weight, audioQuota, calculateTextToolCallSurcharge, webSearchCalls,
    fileSearchCalls, ToolCalls.quota, h.model, h.price, h.tools]

theorem quotaBy_congr (h : info.SamePrices info') (total : ℤ) (exact : ℚ) :
    quotaBy info' total exact = quotaBy info total exact := by
  simp only [quotaBy, h.price]

theorem Spent.Le.tokens (h : s.Le s') : s.uncached ≤ s'.uncached ∧ s.cached ≤ s'.cached := by
  obtain ⟨h₁, h₂, h₃, h₄, h₅, h₆, h₇, h₈⟩ := h
  unfold uncached cached cacheWrite
  omega

theorem writes_mono (h : s.Le s') :
    openAIWrites price s ≤ openAIWrites price s' ∧
      anthropicWrites price s ≤ anthropicWrites price s' := by
  obtain ⟨-, -, h5m, h1h, hoth, -, -, -⟩ := h
  have hwr : s.cacheWrite ≤ s'.cacheWrite := by
    unfold cacheWrite
    omega
  unfold openAIWrites anthropicWrites
  constructor <;> gcongr

def Fits (lib : Settings) (ctx : Ctx) (info : RelayInfo) (s : Spent) : Prop :=
  roundHalf (exactQuota lib ctx info s (openAIWrites info.priceData s)) < 2 ^ 63 ∧
    roundHalf (exactQuota lib ctx info s (anthropicWrites info.priceData s)) < 2 ^ 63

end

/-- Prices of a model whose writes to the cache cost more if they live for an hour. -/
def samplePrice : PriceData where
  usePrice := false
  modelPrice := 0
  modelRatio := 1
  completionRatio := 5
  cacheRatio := 1 / 10
  cacheCreationRatio := 5 / 4
  cacheCreation5mRatio := 5 / 4
  cacheCreation1hRatio := 2
  imageRatio := 1
  groupRatio := 1
  otherRatios := []

def sampleInfo : RelayInfo where
  originModelName := "claude-sonnet-4"
  finalFormatIsClaude := false
  channelIsOpenRouter := false
  estimatePromptTokens := 0
  priceData := samplePrice
  responsesUsageInfo := none

def sampleSettings : Settings where
  quotaPerUnit := 500000
  getToolPriceForModel _ _ := 10
  getGPTImage1PriceOnceCall _ _ := 0
  getGeminiInputAudioPricePerMillionTokens _ := 0
  hasCustomModelRatio _ _ := false
  calcOpenRouterCacheCreateTokens _ _ := 0

def sampleCtx : Ctx := ⟨0, none⟩

namespace Spent

/-- A report with all counts that OpenAI's semantics have. -/
def openAI (s : Spent) : Usage where
  promptTokens := s.text + s.image + s.audio + s.cached
  completionTokens := s.completion
  cachedTokens := s.cacheRead
  cachedCreationTokens := s.cacheWrite
  imageTokens := s.image
  audioTokens := s.audio
  claudeCacheCreation5mTokens := s.cacheWrite5m
  claudeCacheCreation1hTokens := s.cacheWrite1h
  usageSource := ""
  usageSemantic := "openai"
  costNonzero := true

def anthropic (s : Spent) : Usage :=
  { s.openAI with promptTokens := s.text + s.image + s.audio, usageSemantic := "anthropic" }

theorem openAI_report (s : Spent) : OpenAIReport sampleInfo s s.openAI :=
  ⟨⟨rfl, rfl, rfl, rfl, rfl⟩, by simp [usageSemanticFromUsage, openAI],
    rfl, fun _ => ⟨rfl, rfl⟩⟩

theorem anthropic_report (s : Spent) : AnthropicReport sampleInfo s s.anthropic :=
  ⟨⟨rfl, rfl, rfl, rfl, rfl⟩, by simp [usageSemanticFromUsage, anthropic], rfl, rfl, rfl⟩

end Spent

def sampleQuota (usage : Usage) : ℤ :=
  (calculateTextQuotaSummary sampleSettings sampleCtx sampleInfo (some usage)).quota

end NewApi.TextQuota
