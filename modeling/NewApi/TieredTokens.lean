import NewApi.TextQuota

/-!
# The tokens of a tiered price

`BuildTieredTokenParams` (`service/tiered_settle.go`) splits the tokens of a request among the
variables of a billing expression. Tokens of a kind that the expression prices by a variable of
its own are taken out of `p` or `c`. Counts are exact.
-/
namespace NewApi.TextQuota

structure TieredUsage extends Usage where
  (completionImageTokens completionAudioTokens : ℤ)

structure TokenParams where
  (p c len cr cc cc1h img imgO ai ao : ℤ)

/-- The variables that name tokens of one kind. -/
inductive TokenVar where
  | cr | cc | cc1h | img | ai | imgO | ao
  deriving DecidableEq

open TokenVar

namespace TokenVar

def inputs : List TokenVar := [.cr, .cc, .cc1h, .img, .ai]

def outputs : List TokenVar := [.imgO, .ao]

def value (params : TokenParams) : TokenVar → ℤ
  | .cr => params.cr
  | .cc => params.cc
  | .cc1h => params.cc1h
  | .img => params.img
  | .ai => params.ai
  | .imgO => params.imgO
  | .ao => params.ao

/-- The tokens of the kind in a usage. The split of the cache-creation tokens is read only from a
usage that says that it is Anthropic's. -/
def count (usage : TieredUsage) : TokenVar → ℤ
  | .cr => usage.cachedTokens
  | .cc => if usage.usageSemantic = "anthropic" then usage.claudeCacheCreation5mTokens
      else usage.cachedCreationTokens
  | .cc1h => if usage.usageSemantic = "anthropic" then usage.claudeCacheCreation1hTokens else 0
  | .img => usage.imageTokens
  | .ai => usage.audioTokens
  | .imgO => usage.completionImageTokens
  | .ao => usage.completionAudioTokens

end TokenVar

/-- What is left of a total after the tokens of the variables in use are taken out. -/
def withoutUsed (usedVars : TokenVar → Bool) (usage : TieredUsage) (vars : List TokenVar)
    (total : ℤ) : ℤ :=
  vars.foldl (fun n v => if usedVars v then n - v.count usage else n) total

def buildTieredTokenParams (usage : TieredUsage) (isClaudeUsageSemantic : Bool)
    (usedVars : TokenVar → Bool) : TokenParams :=
  let inputLen := if isClaudeUsageSemantic then usage.promptTokens + cr.count usage +
    cc.count usage + cc1h.count usage else usage.promptTokens
  let p := if isClaudeUsageSemantic then usage.promptTokens
    else withoutUsed usedVars usage inputs usage.promptTokens
  let c := if isClaudeUsageSemantic then usage.completionTokens
    else withoutUsed usedVars usage outputs usage.completionTokens
  { p := if p < 0 then 0 else p
    c := if c < 0 then 0 else c
    len := inputLen
    cr := cr.count usage
    cc := cc.count usage
    cc1h := cc1h.count usage
    img := img.count usage
    imgO := imgO.count usage
    ai := ai.count usage
    ao := ao.count usage }

def usedTokens (usedVars : TokenVar → Bool) (f : TokenVar → ℤ) (vars : List TokenVar) : ℤ :=
  ((vars.filter usedVars).map f).sum

namespace TieredUsage
variable (usage : TieredUsage) (isClaude : Bool)

/-- The tokens of all kinds. Prompt tokens of the Claude dialect are those of no other kind. -/
def totalInput : ℤ :=
  if isClaude then usage.promptTokens + usage.cachedTokens + usage.cachedCreationTokens +
    usage.imageTokens + usage.audioTokens
  else usage.promptTokens

def totalOutput : ℤ :=
  if isClaude then
    usage.completionTokens + usage.completionImageTokens + usage.completionAudioTokens
  else usage.completionTokens

/-- No count is negative, and none exceeds the total that it is part of. Tokens of two kinds
may be the same ones, so the counts together may exceed it. -/
structure Bounded : Prop where
  prompt : 0 ≤ usage.promptTokens
  completion : 0 ≤ usage.completionTokens
  count : ∀ v, 0 ≤ TokenVar.count usage v
  creation : cc.count usage + cc1h.count usage ≤ usage.cachedCreationTokens
  input : isClaude = false → ∀ v ∈ inputs, v.count usage ≤ usage.promptTokens
  output : isClaude = false → ∀ v ∈ outputs, v.count usage ≤ usage.completionTokens

end TieredUsage

/-- Each of the variables is in use, or there are no tokens of its kind. -/
def Covers (usedVars : TokenVar → Bool) (usage : TieredUsage) (vars : List TokenVar) : Prop :=
  ∀ v ∈ vars, usedVars v = true ∨ v.count usage = 0

section
variable {usage : TieredUsage} {usedVars : TokenVar → Bool}

theorem withoutUsed_eq (vars : List TokenVar) (total : ℤ) : withoutUsed usedVars usage vars total =
      total - usedTokens usedVars (TokenVar.count usage) vars := by
  induction vars generalizing total with
  | nil => simp [withoutUsed, usedTokens]
  | cons v vars ih =>
    simp only [withoutUsed, usedTokens, List.foldl_cons] at ih ⊢
    rw [ih]
    cases hv : usedVars v <;> simp [hv, sub_sub]

/-- The variables in use name all tokens iff they cover the kinds. -/
theorem usedTokens_le (usedVars : TokenVar → Bool) (h : ∀ v, 0 ≤ TokenVar.count usage v)
    (vars : List TokenVar) :
    usedTokens usedVars (TokenVar.count usage) vars ≤ (vars.map (TokenVar.count usage)).sum ∧
      (usedTokens usedVars (TokenVar.count usage) vars = (vars.map (TokenVar.count usage)).sum ↔
        Covers usedVars usage vars) := by
  induction vars with
  | nil => simp [usedTokens, Covers]
  | cons v vars ih =>
    have hv := h v
    simp only [usedTokens, Covers, List.forall_mem_cons, List.map_cons, List.sum_cons] at ih ⊢
    cases hused : usedVars v with
    | true => simpa [hused] using ih
    | false =>
      simp only [hused, List.filter_cons, Bool.false_eq_true, if_false, false_or, ← ih.2]
      omega

theorem usedTokens_value (isClaude : Bool) (vars : List TokenVar) :
    usedTokens usedVars (value (buildTieredTokenParams usage isClaude usedVars)) vars =
      usedTokens usedVars (TokenVar.count usage) vars := by
  have hval : value (buildTieredTokenParams usage isClaude usedVars) = TokenVar.count usage := by
    funext v
    cases v <;> rfl
  rw [hval]

end

/-- The input tokens are priced once each iff, in the dialect of OpenAI, the counts that the
expression uses fit into the total together, and in that of Claude, the expression has a
variable for every kind that occurs and the usage splits all cache-creation tokens; the output
tokens likewise. -/
theorem tiered_tokens_once_iff (usage : TieredUsage) (isClaude : Bool) (usedVars : TokenVar → Bool)
    (h : usage.Bounded isClaude) :
    let params := buildTieredTokenParams usage isClaude usedVars
    (params.p + usedTokens usedVars (value params) inputs = usage.totalInput isClaude ↔
      if isClaude then Covers usedVars usage inputs ∧
        cc.count usage + cc1h.count usage = usage.cachedCreationTokens
      else usedTokens usedVars (TokenVar.count usage) inputs ≤ usage.promptTokens) ∧
    (params.c + usedTokens usedVars (value params) outputs = usage.totalOutput isClaude ↔
      if isClaude then Covers usedVars usage outputs
      else usedTokens usedVars (TokenVar.count usage) outputs ≤ usage.completionTokens) := by
  intro params
  have hin := usedTokens_le usedVars h.count inputs
  have hout := usedTokens_le usedVars h.count outputs
  rw [usedTokens_value, usedTokens_value, ← hin.2, ← hout.2]
  cases isClaude with
  | false =>
    have hp : params.p = max (usage.promptTokens -
        usedTokens usedVars (TokenVar.count usage) inputs) 0 := by
      simp only [params, buildTieredTokenParams, withoutUsed_eq, Bool.false_eq_true, if_false]
      omega
    have hc : params.c = max (usage.completionTokens -
        usedTokens usedVars (TokenVar.count usage) outputs) 0 := by
      simp only [params, buildTieredTokenParams, withoutUsed_eq, Bool.false_eq_true, if_false]
      omega
    simp only [hp, hc, TieredUsage.totalInput, TieredUsage.totalOutput, Bool.false_eq_true,
      if_false]
    omega
  | true =>
    have hp : params.p = usage.promptTokens := if_neg h.prompt.not_gt
    have hc : params.c = usage.completionTokens := if_neg h.completion.not_gt
    have hcrea := h.creation
    have hinputs : (inputs.map (TokenVar.count usage)).sum = usage.cachedTokens +
        (cc.count usage + cc1h.count usage) + (usage.imageTokens + usage.audioTokens) := by
      simp only [inputs, List.map_cons, List.map_nil, List.sum_cons, List.sum_nil, TokenVar.count]
      ring
    have houtp : (outputs.map (TokenVar.count usage)).sum =
        usage.completionImageTokens + usage.completionAudioTokens := by
      simp [outputs, TokenVar.count]
    simp only [hp, hc, TieredUsage.totalInput, TieredUsage.totalOutput, if_true]
    omega

/-- A long prompt of which most was cached, in the dialect of Claude. -/
def cachedUsage : TieredUsage where
  promptTokens := 10
  completionTokens := 5
  cachedTokens := 1000
  cachedCreationTokens := 30
  imageTokens := 0
  audioTokens := 0
  claudeCacheCreation5mTokens := 20
  claudeCacheCreation1hTokens := 10
  usageSource := ""
  usageSemantic := "anthropic"
  costNonzero := false
  completionImageTokens := 0
  completionAudioTokens := 0

theorem cachedUsage_bounded : cachedUsage.Bounded true := by
  refine ⟨by decide, by decide, fun v => ?_, by decide, by simp, by simp⟩
  cases v <;> decide

theorem tiered_tokens_once_cached :
    let usedVars (v : TokenVar) : Bool := v = .cr || v = .cc || v = .cc1h
    let params := buildTieredTokenParams cachedUsage true usedVars
    params.p + usedTokens usedVars (value params) inputs = cachedUsage.totalInput true :=
  (tiered_tokens_once_iff cachedUsage true _ cachedUsage_bounded).1.mpr
    ⟨by unfold Covers; decide, by decide⟩

/-- A prompt in the dialect of OpenAI of which the cached part and the audio overlap. -/
def overlappingUsage : TieredUsage :=
  { cachedUsage with
    promptTokens := 100, cachedTokens := 80, cachedCreationTokens := 0, audioTokens := 50
    claudeCacheCreation5mTokens := 0, claudeCacheCreation1hTokens := 0, usageSemantic := "" }

theorem overlappingUsage_bounded : overlappingUsage.Bounded false := by
  refine ⟨by decide, by decide, fun v => ?_, by decide, fun _ => by decide, fun _ => by decide⟩
  cases v <;> decide

/-- An expression without `cr` and `cc1h` leaves the tokens of these kinds unpriced, and one with
`cr` and `ai` prices tokens of both kinds twice. -/
theorem tiered_tokens_unpriced :
    (let usedVars (v : TokenVar) : Bool := v = .cc
    let params := buildTieredTokenParams cachedUsage true usedVars
    params.p + usedTokens usedVars (value params) inputs = 30 ∧
      cachedUsage.totalInput true = 1040) ∧ overlappingUsage.Bounded false ∧
    (let usedVars (v : TokenVar) : Bool := v = .cr || v = .ai
    let params := buildTieredTokenParams overlappingUsage false usedVars
    params.p + usedTokens usedVars (value params) inputs = 130 ∧
      overlappingUsage.totalInput false = 100) :=
  ⟨by decide, overlappingUsage_bounded, by decide⟩

end NewApi.TextQuota
