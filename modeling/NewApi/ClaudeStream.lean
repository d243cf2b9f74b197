import NewApi.ChatChunks

/-!
# Chat chunks as Claude events

A client that speaks the Claude format gets a message as a sequence of events: the message
starts, content blocks are started, filled and stopped, and the message gets its stop reason and
stops. The conversion goes chunk by chunk. It keeps the type of the open blocks and their
indices in counters.
-/
namespace NewApi.Chat

inductive ContentBlock where
  | text
  | thinking
  | toolUse (id name : String)
  deriving DecidableEq

inductive BlockDelta where
  | text (text : String)
  | thinking (text : String)
  | inputJson (text : String)
  deriving DecidableEq

structure ClaudeUsage where
  (inputTokens outputTokens cacheCreationInputTokens cacheReadInputTokens : ℤ)
  /-- The tokens that are cached for five minutes and for an hour. -/
  cacheCreation : Option (ℤ × ℤ)
  deriving DecidableEq

/-- The events that a client gets. -/
inductive ClaudeEvent where
  | messageStart (id model : String) (inputTokens : ℤ)
  | contentBlockStart (index : ℕ) (block : ContentBlock)
  | contentBlockDelta (index : ℕ) (delta : BlockDelta)
  | contentBlockStop (index : ℕ)
  | messageDelta (stopReason : String) (usage : ClaudeUsage)
  | messageStop
  deriving DecidableEq

/-- What is in neither part counts as cached for five minutes. -/
def normalizeCacheCreationSplit (totalTokens tokens5m tokens1h : ℤ) : ℤ × ℤ :=
  (tokens5m + max (totalTokens - tokens5m - tokens1h) 0, tokens1h)

/-- The prompt is passed on with its cached tokens. -/
def buildClaudeUsageFromOpenAIUsage (u : Usage) : ClaudeUsage :=
  let split := normalizeCacheCreationSplit u.cachedCreationTokens u.claudeCacheCreation5mTokens
    u.claudeCacheCreation1hTokens
  { inputTokens := u.promptTokens
    outputTokens := u.completionTokens
    cacheCreationInputTokens := u.cachedCreationTokens
    cacheReadInputTokens := u.cachedTokens
    cacheCreation := if 0 < split.1 ∨ 0 < split.2 then some split else none }

/-- Reasons that are not known are passed on. -/
def stopReasonOpenAI2Claude (finishReason : String) : String :=
  let reason := toLower finishReason
  if reason = "stop" then "end_turn"
  else if reason = "stop_sequence" then "stop_sequence"
  else if reason = "length" ∨ reason = "max_tokens" then "max_tokens"
  else if reason = "content_filter" then "refusal"
  else if reason = "tool_calls" then "tool_use"
  else finishReason

/-- The kind of the open block. -/
inductive LastMessageType where
  | none | text | tools | thinking
  deriving DecidableEq

/-- The blocks that are open: one at `index`, or those of the tool calls from
`toolCallBaseIndex` on. -/
structure Counters where
  lastMessagesType : LastMessageType
  (index toolCallBaseIndex toolCallMaxIndexOffset : ℕ)

namespace Counters
variable (s : Counters)

def start : Counters := ⟨.none, 0, 0, 0⟩

/-- All tool blocks of the run are stopped, whether or not they were started. -/
def stopOpenBlocks : List ClaudeEvent :=
  match s.lastMessagesType with
  | .none => []
  | .text | .thinking => [.contentBlockStop s.index]
  | .tools => (List.range (s.toolCallMaxIndexOffset + 1)).map fun offset =>
    .contentBlockStop (s.toolCallBaseIndex + offset)

/-- The counters after the open blocks are stopped. -/
def advance : Counters :=
  match s.lastMessagesType with
  | .none => s
  | .tools => ⟨.none, s.toolCallBaseIndex + s.toolCallMaxIndexOffset + 1, 0, 0⟩
  | .text | .thinking => { s with index := s.index + 1, lastMessagesType := .none }

/-- A tool call in the first chunk. Only the first fragment is used. -/
def firstToolCall (calls : List ToolCall) : Counters × List ClaudeEvent :=
  match calls with
  | [] => (s, [])
  | call :: _ =>
    ({ s with lastMessagesType := .tools, toolCallBaseIndex := 0, toolCallMaxIndexOffset := 0 },
      .contentBlockStart 0 (.toolUse call.id call.name) ::
        if call.arguments ≠ "" then [.contentBlockDelta 0 (.inputJson call.arguments)] else [])

/-- A piece of text or reasoning in the first chunk: a block is always started. -/
def firstPiece (type : LastMessageType) (block : ContentBlock) (delta : BlockDelta) :
    Counters × List ClaudeEvent :=
  let s' := if s.lastMessagesType ≠ type then s.advance else s
  ({ s' with lastMessagesType := type },
    (if s.lastMessagesType ≠ type then s.stopOpenBlocks else []) ++
      [.contentBlockStart s'.index block, .contentBlockDelta s'.index delta])

/-- The content of the first chunk: reasoning comes before text. -/
def firstContent (d : Delta) : Counters × List ClaudeEvent :=
  if d.getReasoningContent ≠ "" then
    s.firstPiece .thinking .thinking (.thinking d.getReasoningContent)
  else if d.getContentString ≠ "" then s.firstPiece .text .text (.text d.getContentString)
  else (s, [])

/-- A piece of text or reasoning: a block is started if none of its type is open. -/
def nextPiece (type : LastMessageType) (block : ContentBlock) (delta : BlockDelta) :
    Counters × List ClaudeEvent :=
  if s.lastMessagesType ≠ type then
    ({ s.advance with lastMessagesType := type },
      s.stopOpenBlocks ++ [.contentBlockStart s.advance.index block,
        .contentBlockDelta s.advance.index delta])
  else (s, [.contentBlockDelta s.index delta])

/-- The events of a fragment: a block is started by a name. -/
def toolEvents (base : ℕ) (offset : ℕ) (call : ToolCall) : List ClaudeEvent :=
  (if call.name ≠ "" then [.contentBlockStart (base + offset) (.toolUse call.id call.name)]
    else []) ++
  (if call.arguments ≠ "" then [.contentBlockDelta (base + offset) (.inputJson call.arguments)]
    else [])

/-- The fragments with their offsets, which default to their places in the chunk. -/
def offsets (calls : List ToolCall) : List (ℕ × ToolCall) :=
  calls.mapIdx fun i call => (call.index.getD i, call)

/-- The fragments of calls in a later chunk. -/
def nextTools (calls : List ToolCall) : Counters × List ClaudeEvent :=
  let opened := if s.lastMessagesType ≠ .tools then
      { s.advance with toolCallBaseIndex := s.advance.index, toolCallMaxIndexOffset := 0 }
    else s
  let base := opened.toolCallBaseIndex
  let maxOffset := (offsets calls).foldl (fun m p => max m p.1) opened.toolCallMaxIndexOffset
  (⟨.tools, base + maxOffset, base, maxOffset⟩,
    (if s.lastMessagesType ≠ .tools then s.stopOpenBlocks else []) ++
      (offsets calls).flatMap fun p => toolEvents base p.1 p.2)

/-- Tool calls hide reasoning, and reasoning hides text. -/
def nextContent (d : Delta) : Counters × List ClaudeEvent :=
  if d.calls ≠ [] then s.nextTools d.calls
  else if d.getReasoningContent ≠ "" then
    s.nextPiece .thinking .thinking (.thinking d.getReasoningContent)
  else if d.getContentString ≠ "" then s.nextPiece .text .text (.text d.getContentString)
  else (s, [])

end Counters

/-- The converter's state. -/
structure ClaudeConvertInfo extends Counters where
  usage : Option Usage
  finishReason : String
  done : Bool

namespace ClaudeConvertInfo
variable (s : ClaudeConvertInfo)

def start : ClaudeConvertInfo := { Counters.start with usage := none, finishReason := "", done := false }

def withCounters (c : Counters) : ClaudeConvertInfo := { s with toCounters := c }

/-- The end of the message: open blocks are stopped, and the stop reason is sent if the usage is
known. -/
def finish (usage : Option Usage) : ClaudeConvertInfo × List ClaudeEvent :=
  ({ s with done := true }, s.stopOpenBlocks ++ (match usage with
        | some u => [.messageDelta (stopReasonOpenAI2Claude s.finishReason)
            (buildClaudeUsageFromOpenAIUsage u)]
        | none => []) ++
      [.messageStop])

/-- The first chunk; of its calls only the first is converted. -/
def convertFirst (estimatePromptTokens : ℤ) (chunk : Chunk) :
    ClaudeConvertInfo × List ClaudeEvent :=
  let head := ClaudeEvent.messageStart chunk.id chunk.model estimatePromptTokens
  match chunk.choices with
  | [] => (s, [head])
  | choice :: _ =>
    let tool := s.firstToolCall choice.delta.calls
    let content := tool.1.firstContent choice.delta
    let s' := s.withCounters content.1
    match choice.finished with
    | none => (s', head :: tool.2 ++ content.2)
    | some reason =>
      let last := { s' with finishReason := reason }.finish (chunk.usage.or s.usage)
      (last.1, head :: tool.2 ++ content.2 ++ last.2)

/-- Later chunks. -/
def convertNext (chunk : Chunk) : ClaudeConvertInfo × List ClaudeEvent :=
  match chunk.choices with
  | [] =>
    match chunk.usage.or s.usage with
    | none => (s, [])
    | some u =>
      let reason := stopReasonOpenAI2Claude s.finishReason
      ({ s with done := true }, s.stopOpenBlocks ++
          [.messageDelta (if reason = "" then "end_turn" else reason)
            (buildClaudeUsageFromOpenAIUsage u), .messageStop])
  | choice :: _ =>
    match choice.finished, chunk.usage with
    | none, _ =>
      let content := s.nextContent choice.delta
      (s.withCounters content.1, content.2)
    -- without usage in the chunk itself nothing is converted
    | some reason, none => ({ s with finishReason := reason }, [])
    | some reason, some u =>
      let content := s.nextContent choice.delta
      let last := { s.withCounters content.1 with finishReason := reason }.finish (some u)
      (last.1, content.2 ++ last.2)

end ClaudeConvertInfo

/-- After the end nothing is converted. -/
def streamResponseOpenAI2Claude (estimatePromptTokens : ℤ) (sendResponseCount : ℕ)
    (chunk : Chunk) (s : ClaudeConvertInfo) : ClaudeConvertInfo × List ClaudeEvent :=
  if s.done then (s, [])
  else if sendResponseCount = 1 then s.convertFirst estimatePromptTokens chunk
  else s.convertNext chunk

end NewApi.Chat
