import NewApi.GoStrings

/-!
# Chunks of a streamed chat completion

A streamed answer is a sequence of chunks. A chunk has choices, of which each carries a piece of
text, of reasoning, fragments of tool calls or the reason why the answer is finished, and it may
carry a report of the tokens used.
-/
namespace NewApi.Chat

structure Usage where
  (promptTokens completionTokens totalTokens cachedTokens cachedCreationTokens : ℤ)
  (claudeCacheCreation5mTokens claudeCacheCreation1hTokens : ℤ)
  deriving DecidableEq

def Usage.zero : Usage := ⟨0, 0, 0, 0, 0, 0, 0⟩

/-- Usage without tokens does not count. -/
def validUsage : Option Usage → Bool
  | none => false
  | some u => decide (u.promptTokens ≠ 0) || decide (u.completionTokens ≠ 0)

/-- A fragment of a call. -/
structure ToolCall where
  index : Option ℕ
  (id name arguments : String)
  deriving DecidableEq

/-- The lists of tool calls `none` and `some []` are told apart, as a missing and an empty list
are. -/
structure Delta where
  (content reasoningContent reasoning : Option String)
  toolCalls : Option (List ToolCall)
  deriving DecidableEq

namespace Delta
variable (d : Delta)

def empty : Delta := ⟨none, none, none, none⟩

/-- The text, empty if there is none. -/
def getContentString : String := d.content.getD ""

/-- The reasoning under either of its names. -/
def getReasoningContent : String := (d.reasoningContent.or d.reasoning).getD ""

/-- The fragments, of which a missing list has none. -/
def calls : List ToolCall := d.toolCalls.getD []

end Delta

structure Choice where
  delta : Delta
  finishReason : Option String
  index : ℤ
  deriving DecidableEq

/-- The reason to finish, if there is one that is not empty. -/
def Choice.finished (c : Choice) : Option String := c.finishReason.filter (· ≠ "")

structure Chunk where
  id : String
  created : ℤ
  model : String
  systemFingerprint : Option String
  choices : List Choice
  usage : Option Usage
  deriving DecidableEq

def Chunk.single (delta : Delta) (finishReason : Option String) (usage : Option Usage) : Chunk :=
  ⟨"chatcmpl-1", 0, "gpt-4o", none, [⟨delta, finishReason, 0⟩], usage⟩

end NewApi.Chat
