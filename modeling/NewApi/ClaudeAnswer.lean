import NewApi.GoStrings

/-!
# A Claude message as a chat message

`ResponseClaude2OpenAI` goes through the content blocks of a message in one piece. It keeps one
variable for the text and one for the thinking, and a list of the tool calls. The variable of the
text, and a second one for the thinking, start with what the first block has.
-/
namespace NewApi.ClaudeAnswer

/-- The input of a tool is the text that it is encoded as. -/
structure ToolUse where
  (id name input : String)
  deriving DecidableEq

inductive Block where
  | text (value : Option String)
  | thinking (value : Option String)
  | toolUse (tool : ToolUse)

namespace Block

def text? : Block → Option String
  | text value => some (value.getD "")
  | _ => none

def thinking? : Block → Option String
  | thinking value => value
  | _ => none

def toolUse? : Block → Option ToolUse
  | toolUse tool => some tool
  | _ => none

def getText (b : Block) : String := b.text?.getD ""

end Block

open Block

structure Message where
  content : String
  reasoningContent : Option String
  toolCalls : List ToolUse
  deriving DecidableEq

/-- The variables of the loop. -/
structure Collected where
  (responseText thinkingContent : String)
  tools : List ToolUse

def Collected.step (l : Collected) : Block → Collected
  | toolUse tool => { l with tools := l.tools ++ [tool] }
  | thinking value => { l with thinkingContent := value.getD l.thinkingContent }
  | text value => { l with responseText := value.getD "" }

def responseClaude2OpenAI (content : List Block) : Message :=
  let responseThinking := (content.head?.bind thinking?).getD ""
  let l := content.foldl Collected.step ⟨(content.head?.map getText).getD "", "", []⟩
  { content := l.responseText
    reasoningContent :=
      if l.thinkingContent ≠ "" then some l.thinkingContent
      else if responseThinking ≠ "" then some responseThinking
      else none
    toolCalls := l.tools }

/-- The loop ends with the last text, the last thinking and all tools. -/
theorem foldl_step (content : List Block) (l : Collected) :
    content.foldl Collected.step l = ⟨(content.filterMap text?).getLast?.getD l.responseText,
      (content.filterMap thinking?).getLast?.getD l.thinkingContent,
      l.tools ++ content.filterMap toolUse?⟩ := by
  induction content generalizing l with
  | nil => simp
  | cons b content ih =>
    rw [List.foldl_cons, ih]
    cases b with
    | text value | toolUse tool =>
      simp [Collected.step, text?, thinking?, toolUse?, List.filterMap_cons, List.getLast?_cons,
        -List.getLast?_filterMap]
    | thinking value =>
      cases value <;> simp [Collected.step, text?, thinking?, toolUse?, List.filterMap_cons,
        List.getLast?_cons, -List.getLast?_filterMap]

theorem last_eq_join_iff {parts : List String} :
    parts.getLast?.getD "" = String.join parts ↔ ∀ t ∈ parts.dropLast, t = "" := by
  rcases List.eq_nil_or_concat parts with rfl | ⟨front, last, rfl⟩
  · simp
  · rw [← join_eq_empty_iff, eq_comm]
    simp [String.join_append]

/-- The last thinking stands for all, or the first one does if the last is empty. -/
theorem reasoning_iff (first : Option String) (later : List String) :
    let last := (first.toList ++ later).getLast?.getD ""
    (if last ≠ "" then last else first.getD "") = String.join (first.toList ++ later) ↔
      (∀ t ∈ (first.toList ++ later).dropLast, t = "") ∨ ∀ t ∈ later, t = "" := by
  intro last
  have hjoin : String.join (first.toList ++ later) = first.getD "" ++ String.join later := by
    cases first <;> simp
  rw [← last_eq_join_iff, ← join_eq_empty_iff, hjoin]
  by_cases hlast : last = ""
  · rw [if_neg (not_not.mpr hlast), eq_comm, String.append_eq_left_iff]
    refine (or_iff_right_of_imp fun h => ?_).symm
    exact (String.append_eq_empty_iff.mp (h.symm.trans hlast)).2
  · rw [if_pos hlast]
    refine (or_iff_left_of_imp fun h => ?_).symm
    -- nothing comes later, or the last would be empty
    rcases List.eq_nil_or_concat later with rfl | ⟨front, t, rfl⟩
    · cases first <;> simp [last]
    · exact absurd (by simpa [last] using join_eq_empty_iff.mp h t (by simp)) hlast

/-- All tools are kept. The texts are kept if only the last one holds anything. So is the thinking;
here it may also be the first block that holds all of it. -/
theorem blocks_kept_iff (content : List Block) :
    let m := responseClaude2OpenAI content
    (m.content = String.join (content.filterMap text?) ∧
        m.reasoningContent.getD "" = String.join (content.filterMap thinking?) ∧
        m.toolCalls = content.filterMap toolUse?) ↔
      (∀ t ∈ (content.filterMap text?).dropLast, t = "") ∧
        ((∀ t ∈ (content.filterMap thinking?).dropLast, t = "") ∨
          ∀ t ∈ content.tail.filterMap thinking?, t = "") := by
  have htext : (content.filterMap text?).getLast?.getD ((content.head?.map getText).getD "") =
      (content.filterMap text?).getLast?.getD "" := by
    rcases content with _ | ⟨b, content⟩
    · rfl
    · -- a first block that is no text has none
      cases b with
      | text value => simp [text?, List.getLast?_cons, -List.getLast?_filterMap]
      | _ => simp [text?, getText]
  have hthin : content.filterMap thinking? =
      (content.head?.bind thinking?).toList ++ content.tail.filterMap thinking? := by
    rcases content with _ | ⟨b, content⟩
    · rfl
    · cases h : thinking? b <;> simp [h]
  simp only [responseClaude2OpenAI, foldl_step, List.nil_append, and_true, htext, hthin]
  rw [last_eq_join_iff]
  refine and_congr_right' (.trans (Eq.congr_left ?_) (reasoning_iff _ _))
  split_ifs with hlast hfst
  · rfl
  · rfl
  · exact (not_not.mp hfst).symm

/-- Of two texts only the last is kept, and of two thinkings as well. -/
theorem earlier_blocks_lost :
    let content := [thinking (some "a"), text (some "b"), thinking (some "c"), text (some "d")]
    responseClaude2OpenAI content = ⟨"d", some "c", []⟩ ∧
      String.join (content.filterMap text?) = "bd" ∧
      String.join (content.filterMap thinking?) = "ac" := by
  decide +kernel

end NewApi.ClaudeAnswer
