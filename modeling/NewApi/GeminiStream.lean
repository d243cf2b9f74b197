import NewApi.ChatChunks

/-!
# Chat chunks as Gemini responses

A client that speaks the Gemini format gets a response for a chunk, with a candidate for each
choice. A candidate has parts: a text, or function calls with their arguments as a JSON object.
How such objects are parsed is a parameter.
-/
namespace NewApi.Chat

/-- JSON objects: the parser, the empty object and `{"arguments": text}`. -/
structure JsonObjects (J : Type) where
  parse : String → Option J
  empty : J
  ofText : String → J

structure FunctionCall (J : Type) where
  functionName : String
  arguments : J
  deriving DecidableEq

inductive GeminiPart (J : Type) where
  | text (text : String)
  | functionCall (call : FunctionCall J)
  deriving DecidableEq

structure GeminiCandidate (J : Type) where
  index : ℤ
  finishReason : Option String
  parts : List (GeminiPart J)
  deriving DecidableEq

structure GeminiResponse (J : Type) where
  candidates : List (GeminiCandidate J)
  (promptTokenCount candidatesTokenCount totalTokenCount : ℤ)
  deriving DecidableEq

variable {J : Type} (json : JsonObjects J)

/-- The arguments of a call, as they are taken from a text. -/
def JsonObjects.arguments (text : String) : J :=
  if text ≠ "" then (json.parse text).getD (json.ofText text) else json.empty

def geminiFinishReason (reason : String) : String :=
  if reason = "stop" then "STOP"
  else if reason = "length" then "MAX_TOKENS"
  else if reason = "content_filter" then "SAFETY"
  else if reason = "tool_calls" then "STOP"
  else "STOP"

/-- The parts of a choice: every fragment of a tool call is a function call, and the text is used
only if there is no list of tool calls. -/
def geminiParts (d : Delta) : List (GeminiPart J) :=
  match d.toolCalls with
  | some calls => calls.map fun call => .functionCall ⟨call.name, json.arguments call.arguments⟩
  | none => if d.getContentString ≠ "" then [.text d.getContentString] else []

def geminiCandidate (choice : Choice) : GeminiCandidate J where
  index := choice.index
  finishReason := choice.finishReason.map geminiFinishReason
  parts := geminiParts json choice.delta

/-- A chunk without content and without a reason to finish is skipped. -/
def streamResponseOpenAI2Gemini (estimatePromptTokens : ℤ) (chunk : Chunk) :
    Option (GeminiResponse J) :=
  let hasContent := chunk.choices.any fun choice =>
    decide (choice.delta.getContentString ≠ "") || decide (choice.delta.calls ≠ [])
  let hasFinishReason := chunk.choices.any fun choice => choice.finishReason.isSome
  if !hasContent && !hasFinishReason then none
  else some
    { candidates := chunk.choices.map (geminiCandidate json)
      promptTokenCount := (chunk.usage.map Usage.promptTokens).getD estimatePromptTokens
      candidatesTokenCount := (chunk.usage.map Usage.completionTokens).getD 0
      totalTokenCount := (chunk.usage.map Usage.totalTokens).getD estimatePromptTokens }

end NewApi.Chat
