import NewApi.GoStrings
import NewApi.Int64
import NewApi.Rounding

/-!
# The quota of a text request

`calculateTextQuotaSummary` (`service/text_quota.go`) computes the quota of a request from the usage
that the upstream has reported. In the semantics of Anthropic the prompt tokens do not include the
tokens that are read from or written to the cache, in that of OpenAI they do.

Ratios and prices are exact and not negative. The prices of tools and models, and what OpenRouter's
cost says about the cache, are settings.
-/
namespace NewApi.TextQuota

/-- The price of a model as the relay has looked it up: a fixed price or ratios, and the group's
ratio. -/
structure PriceData where
  usePrice : Bool
  (modelPrice modelRatio completionRatio cacheRatio cacheCreationRatio cacheCreation5mRatio : ℚ≥0)
  (cacheCreation1hRatio imageRatio groupRatio : ℚ≥0)
  otherRatios : List ℚ≥0

/-- The tokens that the upstream reports, and which of the two dialects it counts them in. -/
structure Usage where
  (promptTokens completionTokens cachedTokens cachedCreationTokens imageTokens audioTokens : ℤ)
  (claudeCacheCreation5mTokens claudeCacheCreation1hTokens : ℤ)
  (usageSource usageSemantic : String)
  costNonzero : Bool

/-- The calls of built-in tools, if the tool was there. -/
structure BuiltInTools where
  (webSearchPreview fileSearch : Option ℤ)

/-- What the computation of the quota reads of the request. -/
structure RelayInfo where
  originModelName : String
  (finalFormatIsClaude channelIsOpenRouter : Bool)
  estimatePromptTokens : ℤ
  priceData : PriceData
  responsesUsageInfo : Option BuiltInTools

/-- What the request context has for billing. An image generation call has a quality and a size. -/
structure Ctx where
  claudeWebSearchRequests : ℤ
  imageGenerationCall : Option (String × String)

/-- The configured prices, and the computations that are not modelled. -/
structure Settings where
  quotaPerUnit : ℚ≥0
  (getToolPriceForModel getGPTImage1PriceOnceCall : String → String → ℚ≥0)
  getGeminiInputAudioPricePerMillionTokens : String → ℚ≥0
  hasCustomModelRatio : String → ℚ≥0 → Bool
  calcOpenRouterCacheCreateTokens : Usage → PriceData → ℤ

/-- The price of a tool for every model. -/
def Settings.getToolPrice (lib : Settings) (tool : String) : ℚ≥0 := lib.getToolPriceForModel tool ""

/-- How often a tool was called, and its price for a thousand calls. -/
structure ToolCalls where
  count : ℤ
  price : ℚ≥0

/-- A tool that was not called. -/
def ToolCalls.none : ToolCalls := ⟨0, 0⟩

/-- The calls of each tool and what they cost together. -/
structure Surcharge where
  (webSearch claudeWebSearch fileSearch : ToolCalls)
  imageGenerationCallPrice : ℚ≥0
  quota : ℚ

/-- Web searches are counted by the Responses API; else a search model has made one. -/
def webSearchCalls (lib : Settings) (info : RelayInfo) : ToolCalls :=
  let price := lib.getToolPriceForModel "web_search_preview" info.originModelName
  match info.responsesUsageInfo with
  | some tools =>
    match tools.webSearchPreview with
    | some count => if 0 < count then ⟨count, price⟩ else .none
    | none => .none
  | none => if hasSuffix info.originModelName "search-preview" then ⟨1, price⟩ else .none

/-- Web searches that the relay has counted for Claude. -/
def claudeWebSearchCalls (lib : Settings) (ctx : Ctx) : ToolCalls :=
  ⟨ctx.claudeWebSearchRequests,
    if 0 < ctx.claudeWebSearchRequests then lib.getToolPrice "web_search" else 0⟩

/-- File searches are only counted by the Responses API. -/
def fileSearchCalls (lib : Settings) (info : RelayInfo) : ToolCalls :=
  match info.responsesUsageInfo with
  | some tools =>
    match tools.fileSearch with
    | some count => if 0 < count then ⟨count, lib.getToolPrice "file_search"⟩ else .none
    | none => .none
  | none => .none

/-- Prices of tools are for a thousand calls. -/
def ToolCalls.quota (lib : Settings) (info : RelayInfo) (calls : ToolCalls) : ℚ :=
  calls.price * calls.count / 1000 * info.priceData.groupRatio * lib.quotaPerUnit

/-- The tools are paid apart from the tokens. -/
def calculateTextToolCallSurcharge (lib : Settings) (ctx : Ctx) (info : RelayInfo) : Surcharge :=
  let webSearch := webSearchCalls lib info
  let claudeWebSearch := claudeWebSearchCalls lib ctx
  let fileSearch := fileSearchCalls lib info
  let imagePrice := match ctx.imageGenerationCall with
    | some (quality, size) => lib.getGPTImage1PriceOnceCall quality size
    | none => 0
  { webSearch, claudeWebSearch, fileSearch
    imageGenerationCallPrice := imagePrice
    quota := webSearch.quota lib info + claudeWebSearch.quota lib info + fileSearch.quota lib info +
      imagePrice * info.priceData.groupRatio * lib.quotaPerUnit }

/-- The dialect that the usage names, or else that of the format that was sent. -/
def usageSemanticFromUsage (info : RelayInfo) (usage : Option Usage) : String :=
  match usage with
  | some u =>
    if u.usageSemantic ≠ "" then u.usageSemantic
    else if info.finalFormatIsClaude then "anthropic" else "openai"
  | none => if info.finalFormatIsClaude then "anthropic" else "openai"

/-- Usage in OpenAI's format that has Claude's cache writes and no mark of where it is from. -/
def isLegacyClaudeDerivedOpenAIUsage (info : RelayInfo) (usage : Usage) : Bool :=
  if info.finalFormatIsClaude then false
  else if usage.usageSource ≠ "" ∨ usage.usageSemantic ≠ "" then false
  else decide (0 < usage.claudeCacheCreation5mTokens ∨ 0 < usage.claudeCacheCreation1hTokens)

/-- The tokens that are charged, by kind. -/
structure Counts where
  (promptTokens completionTokens totalTokens cacheTokens cacheCreationTokens : ℤ)
  (cacheCreationTokens5m cacheCreationTokens1h imageTokens audioTokens : ℤ)

/-- The tokens as they are reported. -/
def countsOf (usage : Usage) : Counts where
  promptTokens := usage.promptTokens
  completionTokens := usage.completionTokens
  totalTokens := usage.promptTokens + usage.completionTokens
  cacheTokens := usage.cachedTokens
  cacheCreationTokens := usage.cachedCreationTokens
  cacheCreationTokens5m := usage.claudeCacheCreation5mTokens
  cacheCreationTokens1h := usage.claudeCacheCreation1hTokens
  imageTokens := usage.imageTokens
  audioTokens := usage.audioTokens

/-- OpenRouter reports prompt tokens that include the cache, and may not report what was written. -/
def openRouterCounts (lib : Settings) (info : RelayInfo) (usage : Usage) (c : Counts) : Counts :=
  let promptTokens := c.promptTokens - c.cacheTokens
  let isUsingCustomSettings := info.priceData.usePrice ||
    lib.hasCustomModelRatio info.originModelName info.priceData.modelRatio
  let created := lib.calcOpenRouterCacheCreateTokens usage info.priceData
  let cacheCreationTokens :=
    if c.cacheCreationTokens = 0 ∧ info.priceData.cacheCreationRatio ≠ 1 ∧ usage.costNonzero ∧
        ¬isUsingCustomSettings ∧ 0 ≤ created ∧ created ≤ promptTokens then created
    else c.cacheCreationTokens
  { c with promptTokens := promptTokens - cacheCreationTokens, cacheCreationTokens }

/-- The tokens that were written to the cache, by their ratios. `apart` says that the prompt tokens
do not include the cache. -/
def cachedCreationTokensWithRatio (price : PriceData) (apart : Bool) (c : Counts) : ℚ :=
  if c.cacheCreationTokens ≠ 0 ∨ 0 < c.cacheCreationTokens5m ∨ 0 < c.cacheCreationTokens1h then
    if apart then
      let remaining :=
        max (c.cacheCreationTokens - c.cacheCreationTokens5m - c.cacheCreationTokens1h) 0
      remaining * price.cacheCreationRatio + c.cacheCreationTokens5m * price.cacheCreation5mRatio +
        c.cacheCreationTokens1h * price.cacheCreation1hRatio
    else c.cacheCreationTokens * price.cacheCreationRatio
  else 0

/-- The prompt tokens that have no ratio of their own. -/
def baseTokens (audioInputPrice : ℚ≥0) (apart : Bool) (c : Counts) : ℤ :=
  c.promptTokens - (if apart then 0 else c.cacheTokens + c.cacheCreationTokens) - c.imageTokens -
    (if 0 < audioInputPrice then c.audioTokens else 0)

/-- The price by tokens: each kind has its ratio, and audio has a price of its own. -/
def tokenQuota (lib : Settings) (info : RelayInfo) (audioInputPrice : ℚ≥0) (apart : Bool)
    (c : Counts) (surcharge : ℚ) : ℚ :=
  let price := info.priceData
  let promptQuota : ℚ := baseTokens audioInputPrice apart c + c.cacheTokens * price.cacheRatio +
    c.imageTokens * price.imageRatio + cachedCreationTokensWithRatio price apart c
  let completionQuota : ℚ := c.completionTokens * price.completionRatio
  let audioInputQuota : ℚ := audioInputPrice / 1000000 * c.audioTokens * price.groupRatio *
    lib.quotaPerUnit
  (promptQuota + completionQuota) * (price.modelRatio * price.groupRatio) + surcharge +
    audioInputQuota

/-- Further ratios of the request multiply the whole. -/
def applyOtherRatios (price : PriceData) (quota : ℚ) : ℚ :=
  price.otherRatios.foldl (fun (quota : ℚ) (ratio : ℚ≥0) => quota * ratio) quota

/-- What is charged for a request, with the counts that it was computed from. -/
structure TextQuotaSummary where
  counts : Counts
  surcharge : Surcharge
  audioInputPrice : ℚ≥0
  usageSemantic : String
  quota : ℤ

/-- The quota is at least 1 unless the ratio is 0, and there is none without tokens. -/
def finishQuota (ratio : ℚ≥0) (totalTokens quota : ℤ) : ℤ :=
  if totalTokens = 0 then 0 else if ratio ≠ 0 ∧ quota = 0 then 1 else quota

/-- Without usage the estimated prompt is charged. -/
def calculateTextQuotaSummary (lib : Settings) (ctx : Ctx) (info : RelayInfo)
    (usage : Option Usage) : TextQuotaSummary :=
  let price := info.priceData
  let usageSemantic := usageSemanticFromUsage info usage
  let isClaudeUsageSemantic := usageSemantic == "anthropic"
  let usage := usage.getD
    { promptTokens := info.estimatePromptTokens, completionTokens := 0, cachedTokens := 0
      cachedCreationTokens := 0, imageTokens := 0, audioTokens := 0
      claudeCacheCreation5mTokens := 0, claudeCacheCreation1hTokens := 0
      usageSource := "", usageSemantic := "", costNonzero := true }
  let apart := isClaudeUsageSemantic || isLegacyClaudeDerivedOpenAIUsage info usage
  let counts :=
    if info.channelIsOpenRouter && isClaudeUsageSemantic then
      openRouterCounts lib info usage (countsOf usage)
    else countsOf usage
  let ratio := price.modelRatio * price.groupRatio
  let surcharge := calculateTextToolCallSurcharge lib ctx info
  let audioInputPrice :=
    if price.usePrice ∨ counts.audioTokens = 0 then 0
    else lib.getGeminiInputAudioPricePerMillionTokens info.originModelName
  let quota :=
    if price.usePrice then
      applyOtherRatios price
        (price.modelPrice * lib.quotaPerUnit * price.groupRatio + surcharge.quota)
    else
      let quota := applyOtherRatios price
        (tokenQuota lib info audioInputPrice apart counts surcharge.quota)
      if ratio ≠ 0 ∧ quota ≤ 0 then 1 else quota
  { counts, surcharge, audioInputPrice, usageSemantic
    quota := finishQuota ratio counts.totalTokens (intPart (roundHalf quota)) }

end NewApi.TextQuota
