import NewApi.ClaudeStream
import NewApi.GeminiStream

/-!
# The handler of chat streams

`OaiStreamHandler` reads the chunks of the upstream and sends them to the client in the
client's format. It is one chunk behind: a chunk is sent when the next one arrives, and the last
one is looked at for its usage before it is sent in its own way. The usage that is returned for
billing is a report of the upstream, or an estimate from the text.

Each chunk is given parsed. The estimate of tokens and the treatment of cached tokens, which
depends on the provider, are parameters. The options that rewrite chunks for a client of the
OpenAI format are off.
-/
namespace NewApi.Chat

/-- The format that the client reads. -/
inductive RelayFormat where
  | openAI | claude | gemini
  deriving DecidableEq

/-- What stays the same while the stream is handled. -/
structure Relay (J : Type) where
  relayFormat : RelayFormat
  shouldIncludeUsage : Bool
  upstreamModelName : String
  estimatePromptTokens : ℤ
  estimateTokenByModel : String → String → ℤ
  applyUsagePostProcessing : Usage → Option Chunk → Usage
  json : JsonObjects J

/-- What is sent to the client in any of the three formats. -/
inductive Sent (J : Type) where
  | chunk (c : Chunk)
  | done
  | claude (e : ClaudeEvent)
  | gemini (r : GeminiResponse J)
  deriving DecidableEq

/-- What the relay keeps of a stream: how many chunks were sent, and Claude's state. -/
structure RelayInfo where
  sendResponseCount : ℕ
  convert : ClaudeConvertInfo

/-- Nothing was sent yet. -/
def RelayInfo.start : RelayInfo := ⟨0, .start⟩

variable {J : Type} (relay : Relay J)

/-- Claude's converter gets the usage of the chunk, or the last one that it had. -/
def handleClaudeFormat (info : RelayInfo) (chunk : Chunk) : RelayInfo × List (Sent J) :=
  let result := streamResponseOpenAI2Claude relay.estimatePromptTokens info.sendResponseCount
    chunk { info.convert with usage := chunk.usage.or info.convert.usage }
  ({ info with convert := result.1 }, result.2.map .claude)

/-- A chunk becomes at most one response of Gemini's. -/
def handleGeminiFormat (info : RelayInfo) (chunk : Chunk) : RelayInfo × List (Sent J) :=
  (info, ((streamResponseOpenAI2Gemini relay.json relay.estimatePromptTokens chunk).map
    Sent.gemini).toList)

/-- The chunk is counted before it is converted. -/
def handleStreamFormat (info : RelayInfo) (chunk : Chunk) : RelayInfo × List (Sent J) :=
  let info := { info with sendResponseCount := info.sendResponseCount + 1 }
  match relay.relayFormat with
  | .openAI => (info, [.chunk chunk])
  | .claude => handleClaudeFormat relay info chunk
  | .gemini => handleGeminiFormat relay info chunk

/-- The state of the loop over the chunks, which is always one chunk behind. -/
structure StreamState (J : Type) where
  info : RelayInfo
  sent : List (Sent J)
  (lastStreamData secondLastStreamData : Option Chunk)
  streamItems : List Chunk

/-- Before the first chunk. -/
def StreamState.start : StreamState J := ⟨.start, [], none, none, []⟩

/-- The models whose usage is in the chunk before the last one. -/
def isAudioModel : Bool := containsText (toLower relay.upstreamModelName) "audio"

/-- A chunk arrives, and the one before it is sent. -/
def dataHandler (s : StreamState J) (data : Chunk) : StreamState J :=
  let handled := match s.lastStreamData with
    | none => (s.info, [])
    | some last => handleStreamFormat relay s.info last
  { info := handled.1
    sent := s.sent ++ handled.2
    lastStreamData := some data
    secondLastStreamData :=
      if isAudioModel relay && s.lastStreamData.isSome then s.lastStreamData
      else s.secondLastStreamData
    streamItems := s.streamItems ++ [data] }

/-- All that is counted when the tokens have to be estimated. -/
def responseText (items : List Chunk) : String :=
  String.join (items.flatMap fun chunk => chunk.choices.flatMap fun choice =>
    [choice.delta.getContentString, choice.delta.getReasoningContent] ++
      choice.delta.calls.flatMap fun call => [call.name, call.arguments])

/-- The largest number of calls in one choice. -/
def toolCount (items : List Chunk) : ℕ :=
  items.foldl (fun n chunk => chunk.choices.foldl (fun n choice =>
    max n choice.delta.calls.length) n) 0

/-- The estimate for a text. -/
def responseText2Usage (responseText : String) : Usage :=
  let completionTokens := relay.estimateTokenByModel relay.upstreamModelName responseText
  { Usage.zero with
    promptTokens := relay.estimatePromptTokens
    completionTokens := completionTokens
    totalTokens := relay.estimatePromptTokens + completionTokens }

/-- Each tool call counts seven tokens more. -/
def estimatedUsage (items : List Chunk) : Usage :=
  let usage := responseText2Usage relay (responseText items)
  { usage with completionTokens := usage.completionTokens + toolCount items * 7 }

/-- What `handleLastResponse` finds out about the last chunk. -/
structure LastResponse where
  responseId : String
  createAt : ℤ
  (systemFingerprint model : String)
  /-- The usage of the stream, if it has reported one. -/
  streamUsage : Option Usage
  shouldSendLastResp : Bool

/-- The last chunk of an audio model but one may have the usage. -/
def audioUsage (secondLast : Option Chunk) : Option Usage :=
  if isAudioModel relay then (secondLast.bind Chunk.usage).filter fun u => validUsage (some u)
  else none

/-- Reads the last chunk; one that has only usage is not sent on. -/
def handleLastResponse (last : Option Chunk) (streamUsage : Option Usage) : LastResponse :=
  match last with
  | none => ⟨"", 0, "", relay.upstreamModelName, streamUsage, true⟩
  | some chunk =>
    let valid := validUsage chunk.usage
    { responseId := chunk.id
      createAt := chunk.created
      systemFingerprint := chunk.systemFingerprint.getD ""
      model := chunk.model
      streamUsage := if valid then chunk.usage else streamUsage
      shouldSendLastResp :=
        if valid && !relay.shouldIncludeUsage then
          chunk.choices.any fun choice => decide (choice.delta.getContentString ≠ "") ||
            decide (choice.delta.getReasoningContent ≠ "")
        else true }

/-- The chunk with the usage that the client has asked for. -/
def generateFinalUsageResponse (last : LastResponse) (usage : Usage) : Chunk where
  id := last.responseId
  created := last.createAt
  model := last.model
  systemFingerprint := some last.systemFingerprint
  choices := []
  usage := some usage

/-- What ends the stream in each format. -/
def handleFinalResponse (info : RelayInfo) (lastStreamData : Option Chunk) (last : LastResponse)
    (usage : Usage) : List (Sent J) :=
  match relay.relayFormat, lastStreamData with
  | .openAI, _ =>
    (if relay.shouldIncludeUsage && last.streamUsage.isNone then
      [.chunk (generateFinalUsageResponse last usage)] else []) ++ [.done]
  | _, none => []
  | .claude, some chunk =>
    (streamResponseOpenAI2Claude relay.estimatePromptTokens info.sendResponseCount chunk
      { info.convert with usage := some usage }).2.map .claude
  | .gemini, some chunk =>
    ((streamResponseOpenAI2Gemini relay.json relay.estimatePromptTokens chunk).map
      Sent.gemini).toList

/-- The usage for billing, and what the client has got. -/
def oaiStreamHandler (chunks : List Chunk) : Usage × List (Sent J) :=
  let s := chunks.foldl (dataHandler relay) .start
  let last := handleLastResponse relay s.lastStreamData (audioUsage relay s.secondLastStreamData)
  let forwarded := match relay.relayFormat, s.lastStreamData with
    | .openAI, some chunk => if last.shouldSendLastResp then [.chunk chunk] else []
    | _, _ => []
  let usage := relay.applyUsagePostProcessing
    (last.streamUsage.getD (estimatedUsage relay s.streamItems)) s.lastStreamData
  (usage, s.sent ++ forwarded ++ handleFinalResponse relay s.info s.lastStreamData last usage)

/-- All chunks are sent on, one after another. -/
def sendAll : RelayInfo → List Chunk → RelayInfo × List (Sent J)
  | info, [] => (info, [])
  | info, chunk :: chunks =>
    let handled := handleStreamFormat relay info chunk
    let rest := sendAll handled.1 chunks
    (rest.1, handled.2 ++ rest.2)

theorem sendAll_append (info : RelayInfo) (cs ds : List Chunk) : sendAll relay info (cs ++ ds) =
      ((sendAll relay (sendAll relay info cs).1 ds).1,
        (sendAll relay info cs).2 ++ (sendAll relay (sendAll relay info cs).1 ds).2) := by
  induction cs generalizing info with
  | nil => rfl
  | cons c cs ih => simp [sendAll, ih]

variable (cs : List Chunk)

/-- When the last chunk has arrived, those before it have been sent. -/
theorem foldl_dataHandler (last : Chunk) :
    (cs ++ [last]).foldl (dataHandler relay) .start =
      { info := (sendAll relay .start cs).1
        sent := (sendAll relay .start cs).2
        lastStreamData := some last
        secondLastStreamData := if isAudioModel relay then cs.getLast? else none
        streamItems := cs ++ [last] } := by
  induction cs using List.reverseRecOn generalizing last with
  | nil => simp [dataHandler, StreamState.start, sendAll]
  | append_singleton cs c ih =>
    rw [List.foldl_append, ih c, sendAll_append]
    by_cases haud : isAudioModel relay = true
    · simp [dataHandler, sendAll, haud]
    · simp [dataHandler, sendAll, haud]

/-- The report that is used for billing: that of the last chunk, or for an audio model of the
one before it. -/
def inspectedUsage (cs : List Chunk) (last : Chunk) : Option Usage :=
  if validUsage last.usage then last.usage
  else audioUsage relay (if isAudioModel relay then cs.getLast? else none)

/-- The usage that is charged after all chunks. -/
def billedUsage (cs : List Chunk) (last : Chunk) : Usage :=
  relay.applyUsagePostProcessing
    ((inspectedUsage relay cs last).getD (estimatedUsage relay (cs ++ [last]))) (some last)

/-- What is charged, for every stream of at least one chunk. -/
theorem oaiStreamHandler_fst (last : Chunk) :
    (oaiStreamHandler relay (cs ++ [last])).1 = billedUsage relay cs last := by
  rw [oaiStreamHandler, foldl_dataHandler]
  rfl

/-- What is read of the last chunk. -/
def lastResponse (cs : List Chunk) (last : Chunk) : LastResponse :=
  handleLastResponse relay (some last)
    (audioUsage relay (if isAudioModel relay then cs.getLast? else none))

/-- What is sent: all chunks but the last, the last one if it is due, and the end. -/
theorem oaiStreamHandler_snd (last : Chunk) :
    (oaiStreamHandler relay (cs ++ [last])).2 = (sendAll relay .start cs).2 ++
        (if relay.relayFormat = .openAI ∧ (lastResponse relay cs last).shouldSendLastResp then
          [.chunk last] else []) ++
        handleFinalResponse relay (sendAll relay .start cs).1 (some last)
          (lastResponse relay cs last) (billedUsage relay cs last) := by
  have hforw : (match relay.relayFormat, some last with
      | .openAI, some chunk => if (lastResponse relay cs last).shouldSendLastResp then
          [.chunk chunk] else []
      | _, _ => ([] : List (Sent J))) =
      if relay.relayFormat = .openAI ∧ (lastResponse relay cs last).shouldSendLastResp then
        [.chunk last] else [] := by
    cases relay.relayFormat with
    | openAI => simp
    | claude | gemini => rfl
  rw [oaiStreamHandler, foldl_dataHandler, ← hforw]
  rfl

end NewApi.Chat
