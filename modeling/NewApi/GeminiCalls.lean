import NewApi.StreamForwarding

/-!
# Function calls of a Gemini stream

A tool call may come in fragments, which have the same index in the same choice. The Gemini
format has no fragments of function calls: the client should get each call once, with all of its
arguments. `messageCalls` are the calls of the message in this sense.
-/
namespace NewApi.Chat

/-- The choice of a fragment and its index in it. -/
abbrev CallKey := ℤ × Option ℕ

def Chunk.fragments (c : Chunk) : List (CallKey × ToolCall) :=
  c.choices.flatMap fun choice => choice.delta.calls.map fun call =>
    ((choice.index, call.index), call)

def fragments (chunks : List Chunk) : List (CallKey × ToolCall) := chunks.flatMap Chunk.fragments

/-- The arguments of a call: those of its fragments, joined. -/
def wholeArguments (fs : List (CallKey × ToolCall)) (key : CallKey) : String :=
  String.join ((fs.filter fun f => decide (f.1 = key)).map fun f => f.2.arguments)

section
variable {J : Type} (json : JsonObjects J)

/-- The calls of a message in the order in which they begin, each with the name of its first
fragment and all of its arguments. -/
def messageCalls (chunks : List Chunk) : List (FunctionCall J) :=
  (distinctBy Prod.fst [] (fragments chunks)).map fun f =>
    ⟨f.2.name, json.arguments (wholeArguments (fragments chunks) f.1)⟩

def messageChoices (chunks : List Chunk) : List Choice := chunks.flatMap Chunk.choices

def messageContent (chunks : List Chunk) : String :=
  String.join ((messageChoices chunks).map fun choice => choice.delta.getContentString)

def Sent.parts : Sent J → List (GeminiPart J)
  | .gemini r => r.candidates.flatMap GeminiCandidate.parts
  | _ => []

def GeminiPart.calls : GeminiPart J → List (FunctionCall J)
  | .functionCall call => [call]
  | .text _ => []

def GeminiPart.textOf : GeminiPart J → String
  | .functionCall _ => ""
  | .text t => t

def receivedCalls (sent : List (Sent J)) : List (FunctionCall J) :=
  (sent.flatMap Sent.parts).flatMap GeminiPart.calls

def receivedText (sent : List (Sent J)) : String :=
  String.join ((sent.flatMap Sent.parts).map GeminiPart.textOf)

/-- The client gets the calls of the message and its text. -/
def DeliversMessage (chunks : List Chunk) (sent : List (Sent J)) : Prop :=
  receivedCalls sent = messageCalls json chunks ∧ receivedText sent = messageContent chunks

end

/-- No tool call comes in more than one fragment, and no choice with a list of tool calls, be it
empty, has text. -/
def UnsplitCalls (chunks : List Chunk) : Prop :=
  ((fragments chunks).map Prod.fst).Nodup ∧
    ∀ choice ∈ messageChoices chunks, choice.delta.toolCalls.isSome →
      choice.delta.getContentString = ""

section
variable {J : Type} {relay : Relay J}

/-- A skipped chunk has no parts, so the parts are those of the choices in any case. -/
theorem streamResponseOpenAI2Gemini_parts (json : JsonObjects J) (estimate : ℤ) (chunk : Chunk) :
    ((streamResponseOpenAI2Gemini json estimate chunk).map Sent.gemini).toList.flatMap Sent.parts =
      chunk.choices.flatMap fun choice => geminiParts json choice.delta := by
  unfold streamResponseOpenAI2Gemini
  dsimp only
  split
  next hskip =>
    rw [Bool.and_eq_true, Bool.not_eq_true', List.any_eq_false] at hskip
    symm
    rw [Option.map_none, Option.toList_none, List.flatMap_nil, List.flatMap_eq_nil_iff]
    intro choice hch
    have hemp := hskip.1 choice hch
    simp only [Bool.or_eq_true, decide_eq_true_eq, not_or, not_not] at hemp
    obtain ⟨htext, hnone⟩ := hemp
    unfold geminiParts
    split
    next calls hcs =>
      rw [Delta.calls, hcs, Option.getD_some] at hnone
      rw [hnone, List.map_nil]
    · rw [if_neg (not_not.mpr htext)]
  · simp only [Option.map_some, Option.toList_some, List.flatMap_cons, List.flatMap_nil,
      List.append_nil, Sent.parts, List.flatMap_map]
    rfl

theorem sendAll_gemini_parts (h : relay.relayFormat = .gemini) (info : RelayInfo)
    (cs : List Chunk) : (sendAll relay info cs).2.flatMap Sent.parts =
      (messageChoices cs).flatMap fun choice => geminiParts relay.json choice.delta := by
  induction cs generalizing info with
  | nil => rfl
  | cons c cs ih =>
    rw [sendAll, messageChoices, List.flatMap_cons, List.flatMap_append, List.flatMap_append, ih]
    congr 1
    simp only [handleStreamFormat, h, handleGeminiFormat]
    exact streamResponseOpenAI2Gemini_parts _ _ _

theorem parts_oaiStreamHandler (h : relay.relayFormat = .gemini) (chunks : List Chunk) :
    (oaiStreamHandler relay chunks).2.flatMap Sent.parts =
      (messageChoices chunks).flatMap fun choice => geminiParts relay.json choice.delta := by
  rcases List.eq_nil_or_concat chunks with rfl | ⟨cs, last, rfl⟩
  · simp [oaiStreamHandler, StreamState.start, handleFinalResponse, h, messageChoices]
  have hnot : ¬(relay.relayFormat = .openAI ∧
      (lastResponse relay cs last).shouldSendLastResp = true) := by
    rw [h]
    rintro ⟨hfmt, -⟩
    cases hfmt
  rw [List.concat_eq_append, oaiStreamHandler_snd, if_neg hnot, List.append_nil,
    List.flatMap_append, sendAll_gemini_parts h, messageChoices, messageChoices,
    List.flatMap_append, List.flatMap_append, List.flatMap_singleton]
  congr 1
  simp only [handleFinalResponse, h]
  exact streamResponseOpenAI2Gemini_parts _ _ _

theorem geminiParts_calls (json : JsonObjects J) (d : Delta) :
    (geminiParts json d).flatMap GeminiPart.calls =
      d.calls.map fun call => ⟨call.name, json.arguments call.arguments⟩ := by
  unfold geminiParts Delta.calls
  cases d.toolCalls with
  | none =>
    dsimp only
    split <;> rfl
  | some calls =>
    rw [Option.getD_some, List.flatMap_map, List.map_eq_flatMap]
    rfl

theorem geminiParts_text (json : JsonObjects J) (d : Delta) :
    String.join ((geminiParts json d).map GeminiPart.textOf) =
      if d.toolCalls.isSome then "" else d.getContentString := by
  unfold geminiParts
  cases d.toolCalls with
  | none =>
    dsimp only
    split
    · simp [GeminiPart.textOf]
    next hemp => simp [not_not.mp hemp]
  | some calls =>
    have hnone : (calls.map fun call => GeminiPart.functionCall
        ⟨call.name, json.arguments call.arguments⟩).map GeminiPart.textOf =
        calls.map fun _ => "" := List.map_map
    rw [hnone]
    exact join_eq_empty_iff.mpr fun t ht => (List.mem_map.mp ht).choose_spec.2.symm

section
variable (h : relay.relayFormat = .gemini)
include h

/-- Each fragment is a call of its own for the client. -/
theorem receivedCalls_eq (chunks : List Chunk) :
    receivedCalls (oaiStreamHandler relay chunks).2 =
      (fragments chunks).map fun f => ⟨f.2.name, relay.json.arguments f.2.arguments⟩ := by
  simp only [receivedCalls, parts_oaiStreamHandler h, List.flatMap_assoc, geminiParts_calls,
    fragments, Chunk.fragments, messageChoices, List.map_flatMap, List.map_map]
  rfl

theorem receivedText_eq (chunks : List Chunk) :
    receivedText (oaiStreamHandler relay chunks).2 =
      String.join ((messageChoices chunks).map fun choice =>
        if choice.delta.toolCalls.isSome then "" else choice.delta.getContentString) := by
  rw [receivedText, parts_oaiStreamHandler h, List.map_flatMap, join_flatMap]
  simp only [geminiParts_text]

theorem receivedCalls_eq_messageCalls_iff (chunks : List Chunk) :
    receivedCalls (oaiStreamHandler relay chunks).2 = messageCalls relay.json chunks ↔
      ((fragments chunks).map Prod.fst).Nodup := by
  rw [receivedCalls_eq h, messageCalls]
  constructor
  · intro heq
    have hlen := congrArg List.length heq
    rw [List.length_map, List.length_map] at hlen
    rw [← (distinctBy_sublist _ []).eq_of_length hlen.symm]
    exact nodup_map_distinctBy _ []
  · intro hnd
    rw [distinctBy_eq_self hnd fun _ _ => List.not_mem_nil]
    refine List.map_congr_left fun f hf => ?_
    have hwhole : wholeArguments (fragments chunks) f.1 = f.2.arguments := by
      rw [wholeArguments, filter_eq_singleton hnd hf]
      simp
    rw [hwhole]

theorem receivedText_eq_messageContent_iff (chunks : List Chunk) :
    receivedText (oaiStreamHandler relay chunks).2 = messageContent chunks ↔
      ∀ choice ∈ messageChoices chunks, choice.delta.toolCalls.isSome →
        choice.delta.getContentString = "" := by
  rw [receivedText_eq h, messageContent, join_map_eq_iff]
  · refine forall₂_congr fun choice _ => ?_
    by_cases hcs : choice.delta.toolCalls.isSome = true
    · simp only [hcs, if_true, forall_const]
      exact eq_comm
    · simp [hcs]
  · intro choice _
    by_cases hcs : choice.delta.toolCalls.isSome = true
    · exact .inr (if_pos hcs)
    · exact .inl (if_neg hcs)

end

end

/-- A client of the Gemini format gets the tool calls of the message, in order, each once with
its complete arguments, and the whole text, exactly if no call is split over fragments and no
choice has both a list of tool calls and text. -/
theorem gemini_delivers_iff {J : Type} (relay : Relay J) (h : relay.relayFormat = .gemini)
    (chunks : List Chunk) :
    DeliversMessage relay.json chunks (oaiStreamHandler relay chunks).2 ↔ UnsplitCalls chunks :=
  and_congr (receivedCalls_eq_messageCalls_iff h chunks)
    (receivedText_eq_messageContent_iff h chunks)

def callChunk (id name arguments : String) : Chunk :=
  .single { Delta.empty with toolCalls := some [⟨some 0, id, name, arguments⟩] } none none

theorem gemini_delivers_iff_whole :
    DeliversMessage (sampleRelay .gemini).json [textChunk "Hi", callChunk "call-1" "f" "\x7b\x7d"]
      (oaiStreamHandler (sampleRelay .gemini)
        [textChunk "Hi", callChunk "call-1" "f" "\x7b\x7d"]).2 := by
  refine (gemini_delivers_iff (sampleRelay .gemini) rfl _).mpr ⟨by decide +kernel, ?_⟩
  simp [messageChoices, textChunk, callChunk, Chunk.single, Delta.empty, Delta.getContentString]

/-- A call in two fragments: the client gets two calls, of which the second has no name. And the
text of a chunk with an empty list of tool calls is lost. -/
theorem split_call_delivered : receivedCalls (oaiStreamHandler (sampleRelay .gemini)
        [callChunk "call-1" "f" "\x7b\"a\"", callChunk "" "" ":1\x7d"]).2 =
        [⟨"f", sampleObjects.ofText "\x7b\"a\""⟩, ⟨"", sampleObjects.ofText ":1\x7d"⟩] ∧
      messageCalls sampleObjects
        [callChunk "call-1" "f" "\x7b\"a\"", callChunk "" "" ":1\x7d"] =
        [⟨"f", "\x7b\"a\":1\x7d"⟩] ∧
      receivedText (oaiStreamHandler (sampleRelay .gemini)
        [.single { Delta.empty with content := some "Hi", toolCalls := some [] } none none]).2 =
        "" := by
  decide +kernel

end NewApi.Chat
