import NewApi.KeyedTable
import NewApi.StreamHandler

/-!
# Chat streams from Responses events

`OaiResponsesToChatStreamHandler` serves a chat client from an upstream that speaks the
Responses format. Events become chat chunks, which go to the client in its own format. Text
hides the tool calls that come after it. The last chunk only says why the answer is finished.

Writing to the client does not fail. The arguments of a function call are given as text.
-/
namespace NewApi.Chat

structure ResponsesUsage where
  (inputTokens outputTokens totalTokens : ℤ)
  /-- The cached tokens, if there are details of the input. -/
  cachedTokens : Option ℤ

/-- What is read of a response. -/
structure ResponsesResponse where
  model : String
  createdAt : ℤ
  usage : Option ResponsesUsage

/-- A function call as the output lists it. -/
structure FunctionCallItem where
  (id callId name arguments : String)

/-- The events that the converter reads. -/
inductive ResponsesEvent where
  | created (response : Option ResponsesResponse)
  | reasoningSummaryTextDelta (delta : String)
  | reasoningSummaryTextDone
  | outputTextDelta (delta : String)
  /-- A function call is added or done. -/
  | outputItem (item : FunctionCallItem)
  | functionCallArgumentsDelta (itemID delta : String)
  | completed (response : Option ResponsesResponse)
  /-- The upstream fails, with the type and the message of an error. -/
  | failed (event : String) (error : Option (String × String))
  | other

/-- Why the stream was ended. -/
inductive StreamError where
  | upstream (type message : String)
  | badResponse (message : String)

/-- What the converter gathers. -/
structure ResponsesState (J : Type) where
  info : RelayInfo
  sent : List (Sent J)
  createAt : ℤ
  model : String
  usage : Usage
  (outputText usageText : String)
  (sentStart sentStop sawToolCall : Bool)
  streamErr : Option StreamError
  toolCallIndexByID : AList fun _ : String => ℕ
  (toolCallNameByID toolCallArgsByID : Table String String)
  toolCallNameSent : Table String Unit
  toolCallCanonicalIDByItemID : Table String String
  (hasSentReasoningSummary needsReasoningSummarySeparator : Bool)

/-- What is fixed for the stream. -/
structure ResponsesContext where
  responseId : String
  now : ℤ

/-- Paragraphs of a summary are separated by an empty line. -/
def separateSummary (delta : String) : String :=
  if startsWith delta "\n\n" then delta
  else if startsWith delta "\n" then "\n" ++ delta
  else "\n\n" ++ delta

/-- What is new in arguments that are sent as a whole. -/
def argumentsDelta (newArgs prevArgs : String) : String :=
  if startsWith newArgs prevArgs then String.ofList (newArgs.toList.drop prevArgs.length)
  else newArgs

/-- Counts that are not zero replace those known so far. -/
def Usage.update (usage : Usage) (u : ResponsesUsage) : Usage :=
  let promptTokens := if u.inputTokens ≠ 0 then u.inputTokens else usage.promptTokens
  let completionTokens := if u.outputTokens ≠ 0 then u.outputTokens else usage.completionTokens
  { usage with
    promptTokens := promptTokens
    completionTokens := completionTokens
    totalTokens := if u.totalTokens ≠ 0 then u.totalTokens else promptTokens + completionTokens
    cachedTokens := u.cachedTokens.getD usage.cachedTokens }

namespace ResponsesState
variable {J : Type} (relay : Relay J) (context : ResponsesContext) (s : ResponsesState J)

/-- Before the first event. -/
def start : ResponsesState J where
  info := .start
  sent := []
  createAt := context.now
  model := relay.upstreamModelName
  usage := .zero
  outputText := ""
  usageText := ""
  sentStart := false
  sentStop := false
  sawToolCall := false
  streamErr := none
  toolCallIndexByID := ∅
  toolCallNameByID := .empty
  toolCallArgsByID := .empty
  toolCallNameSent := .empty
  toolCallCanonicalIDByItemID := .empty
  hasSentReasoningSummary := false
  needsReasoningSummarySeparator := false

/-- A chunk with one choice. -/
def chunk (delta : Delta) (finishReason : Option String) : Chunk where
  id := context.responseId
  created := s.createAt
  model := s.model
  systemFingerprint := none
  choices := [⟨delta, finishReason, 0⟩]
  usage := none

/-- The chunk in the format of the client. -/
def sendChatChunk (chunk : Chunk) : ResponsesState J :=
  match relay.relayFormat with
  | .openAI => { s with sent := s.sent ++ [.chunk chunk] }
  | _ =>
    let handled := handleStreamFormat relay s.info chunk
    { s with info := handled.1, sent := s.sent ++ handled.2 }

def sendDelta (delta : Delta) : ResponsesState J :=
  s.sendChatChunk relay (s.chunk context delta none)

/-- The first chunk is an empty content. -/
def sendStartIfNeeded : ResponsesState J :=
  if s.sentStart then s
  else { s.sendDelta relay context { Delta.empty with content := some "" } with sentStart := true }

/-- Parts of the summary are set apart. -/
def sendReasoningSummaryDelta (delta : String) : ResponsesState J :=
  if delta = "" then s
  else
    let delta := if s.needsReasoningSummarySeparator then separateSummary delta else delta
    let s := { s with needsReasoningSummarySeparator := false }.sendStartIfNeeded relay context
    { s.sendDelta relay context { Delta.empty with reasoningContent := some delta } with
      usageText := s.usageText ++ delta
      hasSentReasoningSummary := true }

/-- The name of a call is sent once. -/
def sendToolCallDelta (callID name argsDelta : String) : ResponsesState J :=
  if callID = "" then s
  -- text that has been sent hides the call
  else if s.outputText ≠ "" then s
  else
    let s := s.sendStartIfNeeded relay context
    let known := s.toolCallIndexByID.lookup callID
    let index := known.getD s.toolCallIndexByID.entries.length
    let names := if name ≠ "" then s.toolCallNameByID.put callID name else s.toolCallNameByID
    let name := (names callID).getD name
    let sendsName := decide (name ≠ "") && (s.toolCallNameSent callID).isNone
    let sentName := if sendsName then name else ""
    let s := { s with
      toolCallIndexByID :=
        if known.isSome then s.toolCallIndexByID else s.toolCallIndexByID.insert callID index
      toolCallNameByID := names
      toolCallNameSent :=
        if sendsName then s.toolCallNameSent.put callID () else s.toolCallNameSent }
    { s.sendDelta relay context
        { Delta.empty with toolCalls := some [⟨some index, callID, sentName, argsDelta⟩] } with
      sawToolCall := true
      usageText := s.usageText ++ sentName ++ argsDelta }

/-- The head of a response names the model and the time. -/
def readResponse (response : Option ResponsesResponse) : ResponsesState J :=
  match response with
  | none => s
  | some response =>
    { s with
      model := if response.model ≠ "" then response.model else s.model
      createAt := if response.createdAt ≠ 0 then response.createdAt else s.createAt }

/-- Calls beside text count as a plain stop. -/
def finishReason : String :=
  if s.sawToolCall && decide (s.outputText = "") then "tool_calls" else "stop"

/-- The last chunk. For a Claude client the usage is stored before it is sent. -/
def sendStop (usage : Usage) : ResponsesState J :=
  let info := if relay.relayFormat = .claude then
      { s.info with convert := { s.info.convert with usage := some usage } }
    else s.info
  { { s with info := info }.sendChatChunk relay
      (s.chunk context .empty (some s.finishReason)) with sentStop := true }

/-- A function call is listed; its arguments so far are sent. -/
def outputItem (item : FunctionCallItem) : ResponsesState J :=
  let itemID := trimSpace item.id
  let callID := if trimSpace item.callId = "" then itemID else trimSpace item.callId
  let name := trimSpace item.name
  let prevArgs := (s.toolCallArgsByID callID).getD ""
  { s with
    toolCallCanonicalIDByItemID :=
      if itemID ≠ "" ∧ callID ≠ "" then s.toolCallCanonicalIDByItemID.put itemID callID
      else s.toolCallCanonicalIDByItemID
    toolCallNameByID :=
      if name ≠ "" then s.toolCallNameByID.put callID name else s.toolCallNameByID
    toolCallArgsByID :=
      if item.arguments ≠ "" then s.toolCallArgsByID.put callID item.arguments
      else s.toolCallArgsByID }.sendToolCallDelta relay context callID name
    (if item.arguments ≠ "" then argumentsDelta item.arguments prevArgs else "")

/-- Arguments come under the item's id. -/
def functionCallArgumentsDelta (itemID delta : String) : ResponsesState J :=
  let itemID := trimSpace itemID
  let canonical := (s.toolCallCanonicalIDByItemID itemID).getD ""
  let callID := if canonical = "" then itemID else canonical
  if callID = "" then s
  else
    let args := (s.toolCallArgsByID callID).getD "" ++ delta
    { s with toolCallArgsByID := s.toolCallArgsByID.put callID args }.sendToolCallDelta relay
      context callID "" delta

/-- The end, with the usage. -/
def completed (response : Option ResponsesResponse) : ResponsesState J :=
  let s := s.readResponse response
  let usage := match response.bind ResponsesResponse.usage with
    | none => s.usage
    | some u => s.usage.update u
  let s := { s with usage := usage }.sendStartIfNeeded relay context
  if s.sentStop then s else s.sendStop relay context s.usage

/-- The error that ends the stream. -/
def failed (event : String) (error : Option (String × String)) : ResponsesState J :=
  { s with
    streamErr := some (match error with
      | some (type, message) =>
        if type ≠ "" then .upstream type message
        else .badResponse ("responses stream error: " ++ event)
      | none => .badResponse ("responses stream error: " ++ event)) }

/-- An event arrives. After an error the rest is not read. -/
def handleEvent (event : ResponsesEvent) : ResponsesState J :=
  if s.streamErr.isSome then s
  else match event with
    | .created response => s.readResponse response
    | .reasoningSummaryTextDelta delta => s.sendReasoningSummaryDelta relay context delta
    | .reasoningSummaryTextDone =>
      if s.hasSentReasoningSummary then { s with needsReasoningSummarySeparator := true } else s
    | .outputTextDelta delta =>
      let s := s.sendStartIfNeeded relay context
      if delta ≠ "" then
        { s.sendDelta relay context { Delta.empty with content := some delta } with
          outputText := s.outputText ++ delta
          usageText := s.usageText ++ delta }
      else s
    | .outputItem item => s.outputItem relay context item
    | .functionCallArgumentsDelta itemID delta =>
      s.functionCallArgumentsDelta relay context itemID delta
    | .completed response => s.completed relay context response
    | .failed event error => s.failed event error
    | .other => s

end ResponsesState

/-- The usage for billing or an error, and what the client has got. -/
def oaiResponsesToChatStreamHandler {J : Type} (relay : Relay J) (context : ResponsesContext)
    (events : List ResponsesEvent) : Except StreamError Usage × List (Sent J) :=
  let s := events.foldl (ResponsesState.handleEvent relay context) (.start relay context)
  match s.streamErr with
  | some e => (.error e, s.sent)
  | none =>
    let usage := if s.usage.totalTokens = 0 then responseText2Usage relay s.usageText
      else s.usage
    let s := s.sendStartIfNeeded relay context
    let s := if s.sentStop then s else s.sendStop relay context usage
    let final : Chunk := { s.chunk context .empty none with choices := [], usage := some usage }
    (.ok usage, s.sent ++
      if relay.relayFormat = .openAI then
        (if relay.shouldIncludeUsage then [.chunk final] else []) ++ [.done]
      else [])

end NewApi.Chat
