import NewApi.StreamHandler
import NewApi.TextQuota

/-!
# Answers of a Claude upstream

An upstream of the Claude format answers with one message, or with a stream of events: the message
starts, content blocks are started, filled and stopped, and the message gets its stop reason and
stops. The answer is sent to the client in the client's format, and its usage is kept for billing
(`relay/channel/claude/relay-claude.go`). Web searches of the upstream are billed through the
request context.

Each answer is given parsed, or as `none` if it cannot be parsed. What a message in one piece looks
like for the client, and the patch of the usage in events for a client of the Claude format, are left
out.
-/
namespace NewApi.ClaudeUpstream
open Chat

/-- The usage that Claude reports. -/
structure UpstreamUsage extends ClaudeUsage where
  /-- The web searches, if the upstream has used tools. -/
  webSearchRequests : Option ℤ

/-- Cache writes that are kept for five minutes. -/
def UpstreamUsage.getCacheCreation5mTokens (u : UpstreamUsage) : ℤ :=
  (u.cacheCreation.map Prod.fst).getD 0

/-- Cache writes that are kept for an hour. -/
def UpstreamUsage.getCacheCreation1hTokens (u : UpstreamUsage) : ℤ :=
  (u.cacheCreation.map Prod.snd).getD 0

/-- The types of blocks and of deltas. -/
inductive MediaType where
  | text | thinking | toolUse
  | textDelta | inputJsonDelta | signatureDelta | thinkingDelta
  | other (name : String)

/-- A block, a delta or a message; each uses some of the fields. -/
structure ClaudeMediaMessage where
  type : MediaType
  (id name model : String)
  (text thinking partialJson stopReason : Option String)
  usage : Option UpstreamUsage

def ClaudeMediaMessage.ofType (type : MediaType) : ClaudeMediaMessage :=
  ⟨type, "", "", "", none, none, none, none, none⟩

inductive ResponseType where
  | message | messageStart | contentBlockStart | contentBlockDelta | contentBlockStop
  | messageDelta | messageStop | ping
  | other (name : String)
  deriving DecidableEq

/-- An event of the stream, or a whole answer. -/
structure ClaudeResponse where
  type : ResponseType
  model : String
  index : Option ℤ
  (contentBlock delta message : Option ClaudeMediaMessage)
  usage : Option UpstreamUsage
  /-- The type of the error, if there is one. -/
  error : Option String

def ClaudeResponse.ofType (type : ResponseType) : ClaudeResponse :=
  ⟨type, "", none, none, none, none, none, none⟩

/-- How the relay of an answer can end early. -/
inductive Failure where
  | badResponseBody
  | claudeError (type : String)
  | panic
  deriving DecidableEq

/-- Reasons that are not known are passed on. -/
def stopReasonClaude2OpenAI (stopReason : String) : String :=
  let reason := toLower stopReason
  if reason = "stop_sequence" ∨ reason = "end_turn" then "stop"
  else if reason = "max_tokens" then "length"
  else if reason = "tool_use" then "tool_calls"
  else if reason = "refusal" then "content_filter"
  else stopReason

/-- The index of a tool call. A text block is assumed to come first. -/
def fcIdx (r : ClaudeResponse) : ℕ := ((r.index.getD 0) - 1).toNat

/-- A choice with tool calls has no content. -/
def toolChoice (call : ToolCall) : Choice := ⟨⟨none, none, none, some [call]⟩, none, 0⟩

/-- A tool's block starts a call; thinking starts nothing. -/
def blockStartChoice (r : ClaudeResponse) (block : ClaudeMediaMessage) : Choice :=
  match block.type with
  | .text => ⟨⟨block.text, none, none, none⟩, none, 0⟩
  | .toolUse => toolChoice ⟨some (fcIdx r), block.id, block.name, ""⟩
  | _ => ⟨.empty, none, 0⟩

/-- A delta of a call without its JSON panics. -/
def blockDeltaChoice (r : ClaudeResponse) (delta : ClaudeMediaMessage) : Except Failure Choice :=
  match delta.type with
  | .inputJsonDelta =>
    match delta.partialJson with
    | none => .error .panic
    | some json => .ok (toolChoice ⟨some (fcIdx r), "", "", json⟩)
  | .signatureDelta => .ok ⟨⟨delta.text, some "\n", none, none⟩, none, 0⟩
  | .thinkingDelta => .ok ⟨⟨delta.text, delta.thinking, none, none⟩, none, 0⟩
  | _ => .ok ⟨⟨delta.text, none, none, none⟩, none, 0⟩

/-- The choice of the chunk for an event, if there is a chunk. -/
def choiceOf (r : ClaudeResponse) : Except Failure (Option Choice) :=
  match r.type with
  | .messageStart => .ok (some ⟨⟨some "", none, none, none⟩, none, 0⟩)
  | .contentBlockStart => .ok (r.contentBlock.map (blockStartChoice r))
  | .contentBlockDelta =>
    match r.delta with
    | none => .ok (some ⟨.empty, none, 0⟩)
    | some delta => (blockDeltaChoice r delta).map some
  | .messageDelta =>
    let reason := (r.delta.bind (·.stopReason)).map stopReasonClaude2OpenAI
    .ok (some ⟨.empty, reason.filter (· ≠ "null"), 0⟩)
  | _ => .ok none

/-- Events without content become no chunk. -/
def streamResponseClaude2OpenAI (r : ClaudeResponse) : Except Failure (Option Chunk) := do
  let choice ← choiceOf r
  let start := if r.type = .messageStart then r.message else none
  return choice.map fun choice =>
    { id := (start.map (·.id)).getD ""
      created := 0
      model := (start.map (·.model)).getD r.model
      systemFingerprint := none
      choices := [choice]
      usage := none }

/-- The usage that is charged, with the dialect that it is counted in. -/
structure BilledUsage extends Usage where
  usageSemantic : String

/-- What the relay gathers over the stream. -/
structure ClaudeResponseInfo where
  responseId : String
  created : ℤ
  (model responseText : String)
  usage : BilledUsage
  done : Bool

/-- The usage of a message replaces all that was known. -/
def BilledUsage.take (u : UpstreamUsage) : BilledUsage where
  promptTokens := u.inputTokens
  completionTokens := u.outputTokens
  totalTokens := u.inputTokens + u.outputTokens
  cachedTokens := u.cacheReadInputTokens
  cachedCreationTokens := u.cacheCreationInputTokens
  claudeCacheCreation5mTokens := u.getCacheCreation5mTokens
  claudeCacheCreation1hTokens := u.getCacheCreation1hTokens
  usageSemantic := "anthropic"

/-- The usage when a message starts. The total is not touched. -/
def BilledUsage.start (usage : BilledUsage) (u : UpstreamUsage) : BilledUsage :=
  { BilledUsage.take u with totalTokens := usage.totalTokens }

/-- A later number replaces an earlier one if it is positive. -/
def newer (old new : ℤ) : ℤ := if 0 < new then new else old

/-- The usage in a message delta replaces what it has. -/
def BilledUsage.patch (usage : BilledUsage) (u : UpstreamUsage) : BilledUsage :=
  let promptTokens := newer usage.promptTokens u.inputTokens
  let completionTokens := newer usage.completionTokens u.outputTokens
  { promptTokens, completionTokens
    totalTokens := promptTokens + completionTokens
    cachedTokens := newer usage.cachedTokens u.cacheReadInputTokens
    cachedCreationTokens := newer usage.cachedCreationTokens u.cacheCreationInputTokens
    claudeCacheCreation5mTokens :=
      newer usage.claudeCacheCreation5mTokens u.getCacheCreation5mTokens
    claudeCacheCreation1hTokens :=
      newer usage.claudeCacheCreation1hTokens u.getCacheCreation1hTokens
    usageSemantic := "anthropic" }

/-- What an event does to the information about the stream, or `none` if it is not an event to
send. -/
def formatClaudeResponseInfo (r : ClaudeResponse) (info : ClaudeResponseInfo) :
    Option ClaudeResponseInfo :=
  match r.type with
  | .messageStart =>
    let info := match r.message with
      | some message => { info with responseId := message.id, model := message.model }
      | none => info
    match r.message.bind (·.usage) with
    | some u => some { info with usage := info.usage.start u }
    | none => some info
  | .contentBlockDelta =>
    match r.delta with
    | some delta => some { info with
        responseText := info.responseText ++ delta.text.getD "" ++ delta.thinking.getD "" }
    | none => some info
  | .messageDelta =>
    match r.usage with
    | some u => some { info with usage := info.usage.patch u, done := true }
    | none => some { info with done := true }
  | .contentBlockStart => some info
  | _ => none

/-- What the client gets. A missing chunk is sent as `null`. -/
inductive Sent where
  | chunk (c : Option Chunk)
  | event (r : ClaudeResponse)
  | done

/-- What stays the same while the answer is handled. -/
structure Relay where
  relayFormat : RelayFormat
  shouldIncludeUsage : Bool
  estimatePromptTokens : ℤ
  estimateTokenByModel : String → String → ℤ

/-- The state of the loop over the events. -/
structure StreamState where
  info : ClaudeResponseInfo
  upstreamModelName : String
  sent : List Sent

/-- An event that cannot be read, or an error, ends the stream. -/
def handleStreamResponseData (relay : Relay) (s : StreamState) :
    Option ClaudeResponse → Except Failure StreamState
  | none => .error .badResponseBody
  | some r =>
    if r.error.getD "" ≠ "" then .error (.claudeError (r.error.getD ""))
    else match relay.relayFormat with
      | .claude =>
        .ok { info := (formatClaudeResponseInfo r s.info).getD s.info
              upstreamModelName :=
                if r.type = .messageStart then (r.message.map (·.model)).getD s.upstreamModelName
                else s.upstreamModelName
              sent := s.sent ++ [.event r] }
      | .openAI => do
        let chunk ← streamResponseClaude2OpenAI r
        match formatClaudeResponseInfo r s.info with
        | none => .ok s
        | some info =>
          let chunk := chunk.map fun chunk =>
            { chunk with id := info.responseId, created := info.created, model := info.model }
          .ok { s with info, sent := s.sent ++ [.chunk chunk] }
      | .gemini => .ok s

/-- The larger of the total and the sum of its parts. -/
def cacheCreationTokensForOpenAIUsage (usage : Usage) : ℤ :=
  let split := usage.claudeCacheCreation5mTokens + usage.claudeCacheCreation1hTokens
  if split = 0 then usage.cachedCreationTokens else max usage.cachedCreationTokens split

/-- OpenAI counts cached tokens as part of the prompt. -/
def buildOpenAIStyleUsageFromClaudeUsage (usage : Usage) : Usage :=
  let split := normalizeCacheCreationSplit usage.cachedCreationTokens
    usage.claudeCacheCreation5mTokens usage.claudeCacheCreation1hTokens
  let totalInputTokens := usage.promptTokens + usage.cachedTokens +
    cacheCreationTokensForOpenAIUsage usage
  { usage with
    promptTokens := totalInputTokens
    totalTokens := totalInputTokens + usage.completionTokens
    claudeCacheCreation5mTokens := split.1
    claudeCacheCreation1hTokens := split.2 }

/-- The missing counts of a stream that is not complete are estimated. -/
def completeUsage (relay : Relay) (s : StreamState) : BilledUsage :=
  let usage := s.info.usage
  if usage.completionTokens = 0 ∨ s.info.done = false then
    let estimate := relay.estimateTokenByModel s.upstreamModelName s.info.responseText
    let completionTokens :=
      if usage.completionTokens = 0 ∨ (s.info.done = false ∧ usage.completionTokens < estimate) then
        estimate
      else usage.completionTokens
    let promptTokens :=
      if usage.promptTokens = 0 then relay.estimatePromptTokens else usage.promptTokens
    { usage with
      promptTokens, completionTokens
      totalTokens := promptTokens + completionTokens
      usageSemantic := "anthropic" }
  else { usage with usageSemantic := "anthropic" }

/-- What is sent after the last event. -/
def handleStreamFinalResponse (relay : Relay) (s : StreamState) : StreamState :=
  let usage := completeUsage relay s
  let final : Chunk :=
    { id := s.info.responseId
      created := s.info.created
      model := s.upstreamModelName
      systemFingerprint := none
      choices := []
      usage := some (buildOpenAIStyleUsageFromClaudeUsage usage.toUsage) }
  { s with
    info := { s.info with usage }
    sent := s.sent ++ match relay.relayFormat with
      | .openAI => (if relay.shouldIncludeUsage then [.chunk (some final)] else []) ++ [.done]
      | _ => [] }

/-- The events are handled one after another, up to the first failure. -/
def relayEvents (relay : Relay) : List (Option ClaudeResponse) → StreamState →
    Option Failure × StreamState
  | [], s => (none, s)
  | r :: rs, s =>
    match handleStreamResponseData relay s r with
    | .ok s' => relayEvents relay rs s'
    | .error failure => (some failure, s)

/-- Before the first event. -/
def StreamState.start (responseId upstreamModelName : String) (created : ℤ) : StreamState where
  info := ⟨responseId, created, upstreamModelName, "", ⟨.zero, ""⟩, false⟩
  upstreamModelName := upstreamModelName
  sent := []

/-- What a handler leaves for settlement. -/
structure Settlement where
  usage : BilledUsage
  ctx : TextQuota.Ctx

/-- The stream. A panic in the handling of an event ends it, as if the upstream had. The context is
not touched. -/
def claudeStreamHandler (relay : Relay) (s : StreamState) (events : List (Option ClaudeResponse))
    (ctx : TextQuota.Ctx) : Except Failure (Settlement × List Sent) :=
  match relayEvents relay events s with
  | (none, s) | (some .panic, s) =>
    let s := handleStreamFinalResponse relay s
    .ok (⟨s.info.usage, ctx⟩, s.sent)
  | (some failure, _) => .error failure

/-- An answer that is not streamed. -/
def claudeHandler (s : StreamState) (ctx : TextQuota.Ctx) :
    Option ClaudeResponse → Except Failure Settlement
  | none => .error .badResponseBody
  | some r =>
    if r.error.getD "" ≠ "" then .error (.claudeError (r.error.getD ""))
    else
      let usage := match r.usage with
        | some u => BilledUsage.take u
        | none => s.info.usage
      let searches := (r.usage.bind (·.webSearchRequests)).getD 0
      .ok ⟨usage, if 0 < searches then { ctx with claudeWebSearchRequests := searches } else ctx⟩

/-- The usage as the price is computed from it. -/
def BilledUsage.forQuota (u : BilledUsage) : TextQuota.Usage where
  promptTokens := u.promptTokens
  completionTokens := u.completionTokens
  cachedTokens := u.cachedTokens
  cachedCreationTokens := u.cachedCreationTokens
  imageTokens := 0
  audioTokens := 0
  claudeCacheCreation5mTokens := u.claudeCacheCreation5mTokens
  claudeCacheCreation1hTokens := u.claudeCacheCreation1hTokens
  usageSource := ""
  usageSemantic := u.usageSemantic
  costNonzero := true

/-- What the request costs. -/
def Settlement.quota (lib : TextQuota.Settings) (info : TextQuota.RelayInfo) (s : Settlement) : ℤ :=
  (TextQuota.calculateTextQuotaSummary lib s.ctx info (some s.usage.forQuota)).quota

end NewApi.ClaudeUpstream
