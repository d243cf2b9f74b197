import Mathlib.Data.List.Nodup
import Mathlib.Tactic.Cases
import NewApi.Lists

/-!
# Tool calls in Gemini requests

A Gemini request has no ids for its function calls. `GeminiToOpenAIRequest` numbers the calls of
each content from 1, and gives a response the number of calls before it in its own content.
-/
namespace NewApi.GeminiRequest

/-- A part by its first field that is set, with its data as text. -/
inductive Part where
  | text (text : String)
  | media (url : String)
  | functionCall (name arguments : String)
  | functionResponse (name response : String)
  | other

structure ToolCall where
  (id name arguments : String)
  deriving DecidableEq

/-- A tool message answers a function that it does not name itself. -/
structure ToolMessage where
  (toolCallId response answered : String)

inductive Message where
  | tool (m : ToolMessage)
  | content (role : String) (contents : List String)
  | calls (role : String) (toolCalls : List ToolCall)

structure Loop where
  toolMessages : List ToolMessage
  mediaContents : List String
  toolCalls : List ToolCall

def callId (n : ℕ) : String := "call_" ++ toString n

/-- What the loop over the parts appends after `n` calls. -/
def convertParts : ℕ → List Part → Loop
  | _, [] => ⟨[], [], []⟩
  | n, .text t :: parts | n, .media t :: parts =>
    let s := convertParts n parts
    { s with mediaContents := t :: s.mediaContents }
  | n, .functionCall name arguments :: parts =>
    let s := convertParts (n + 1) parts
    { s with toolCalls := ⟨callId (n + 1), name, arguments⟩ :: s.toolCalls }
  | n, .functionResponse name response :: parts =>
    let s := convertParts n parts
    { s with toolMessages := ⟨callId n, response, name⟩ :: s.toolMessages }
  | n, .other :: parts => convertParts n parts

def convertContent (c : String × List Part) : List Message :=
  let s := convertParts 0 c.2
  s.toolMessages.map .tool ++ (if s.toolCalls ≠ [] then [.calls c.1 s.toolCalls]
    else if s.mediaContents ≠ [] then [.content c.1 s.mediaContents] else [])

/-- The slice `stops[:4]` of an array with room for `capacity`; `none` is a panic. -/
def firstFour (stops : List String) (capacity : ℕ) : Option (List String) :=
  if stops = [] then some []
  else if capacity < 4 then none
  else some ((stops ++ List.replicate (capacity - stops.length) "").take 4)

def Message.toolCalls : Message → List ToolCall
  | .calls _ toolCalls => toolCalls
  | _ => []

def Message.answer : Message → Option (String × String)
  | .tool m => some (m.answered, m.toolCallId)
  | _ => none

def toolCalls (contents : List (String × List Part)) : List ToolCall :=
  (contents.flatMap convertContent).flatMap Message.toolCalls

/-- The functions that tool messages answer, with the ids that they carry. -/
def answers (contents : List (String × List Part)) : List (String × String) :=
  (contents.flatMap convertContent).filterMap Message.answer

/-- The ids of the calls of a function and of the tool messages that answer it, in their order. -/
def callIds (name : String) (contents : List (String × List Part)) : List String :=
  ((toolCalls contents).filter fun call => call.name = name).map ToolCall.id

def answerIds (name : String) (contents : List (String × List Part)) : List String :=
  ((answers contents).filter fun answer => answer.1 = name).map Prod.snd

def Part.isCall : Part → Bool
  | .functionCall .. => true
  | _ => false

/-- The function that a part calls, and the one to which it responds. -/
def Part.called : Part → Option String
  | .functionCall name _ => some name
  | _ => none

def Part.answered : Part → Option String
  | .functionResponse name _ => some name
  | _ => none

/-- The parts, each with the number of calls up to it after `n` others. -/
def numbered : ℕ → List Part → List (Part × ℕ)
  | _, [] => []
  | n, p :: parts =>
    let m := if p.isCall then n + 1 else n
    (p, m) :: numbered m parts

/-- The numbers, each in its own content, of the parts that have `name` as the function. -/
def places (function : Part → Option String) (name : String) (contents : List (String × List Part)) :
    List ℕ :=
  ((contents.flatMap fun c => numbered 0 c.2).filter fun e => function e.1 = some name).map Prod.snd

section
variable {c : String × List Part} {contents : List (String × List Part)}

theorem calls_convertContent :
    (convertContent c).flatMap Message.toolCalls = (convertParts 0 c.2).toolCalls := by
  simp only [convertContent, List.flatMap_append, List.flatMap_map, Message.toolCalls]
  split_ifs <;> simp_all [Message.toolCalls]

theorem answers_convertContent : (convertContent c).filterMap Message.answer =
    (convertParts 0 c.2).toolMessages.map fun m => (m.answered, m.toolCallId) := by
  simp only [convertContent, List.filterMap_append, List.filterMap_map, Function.comp_def,
    Message.answer, List.filterMap_eq_map']
  split_ifs <;> simp [Message.answer]

theorem ids_convertParts (n : ℕ) (parts : List Part) :
    (convertParts n parts).toolCalls.map ToolCall.id =
      (List.range' (n + 1) (parts.countP Part.isCall)).map callId := by
  induction parts generalizing n with
  | nil => rfl
  | cons p parts ih =>
    cases p with
    | functionCall =>
      rw [List.countP_cons_of_pos (by rfl), List.range'_succ]
      exact congrArg _ (ih (n + 1))
    | _ =>
      rw [List.countP_cons_of_neg Bool.false_ne_true]
      exact ih n

theorem callId_injective : Function.Injective callId := by
  intro m n h
  have hrepr : m.repr = n.repr := (String.append_right_inj _).mp h
  rw [Nat.repr_eq_ofList_toDigits, Nat.repr_eq_ofList_toDigits] at hrepr
  rw [← Nat.ofDigitChars_ten_toDigits (n := m), String.ofList_injective hrepr,
    Nat.ofDigitChars_ten_toDigits]

/-- Lists that start alike can only be joined without a duplicate if all but one are empty. -/
theorem nodup_flatMap_iff {α β : Type} {f : α → List β} {b : β} (l : List α)
    (hnd : ∀ a, (f a).Nodup) (hmem : ∀ a, f a ≠ [] → b ∈ f a) :
    (l.flatMap f).Nodup ↔ (l.filter fun a => f a ≠ []).length ≤ 1 := by
  have hall : ∀ a ∈ l.filter fun a => f a ≠ [], b ∈ f a := fun a ha =>
    hmem a (by simpa using (List.mem_filter.mp ha).2)
  have hdrop : l.flatMap f = (l.filter fun a => f a ≠ []).flatMap f :=
    (flatMap_filter_eq l (by simp)).symm
  rw [hdrop]
  generalize l.filter _ = kept at hall ⊢
  obtain _ | ⟨a, _ | ⟨a', kept⟩⟩ := kept
  · simp
  · simpa using hnd a
  refine iff_of_false (fun h => ?_) (by simp)
  rw [List.flatMap_cons, List.nodup_append] at h
  exact h.2.2 b (hall a (by simp)) b
    (List.mem_flatMap.mpr ⟨a', by simp, hall a' (by simp)⟩) rfl

/-- Ids are counted anew in each content. -/
theorem nodup_ids_iff : ((toolCalls contents).map ToolCall.id).Nodup ↔
    (contents.filter fun c => c.2.any Part.isCall).length ≤ 1 := by
  rw [toolCalls, List.flatMap_assoc, List.map_flatMap]
  simp only [calls_convertContent, ids_convertParts]
  rw [nodup_flatMap_iff (b := callId 1) contents]
  · simp [List.countP_eq_zero, List.any_eq]
  · intro c
    exact List.Nodup.map callId_injective List.nodup_range'
  · intro c hc
    refine List.mem_map_of_mem (List.mem_range'_1.mpr ?_)
    simp only [ne_eq, List.map_eq_nil_iff, List.range'_eq_nil_iff] at hc
    omega

/-- The calls and the messages of a content have the numbers of their parts. -/
theorem numbers_convertParts (name : String) (n : ℕ) (parts : List Part) :
    ((convertParts n parts).toolCalls.filter fun call => call.name = name).map ToolCall.id =
        (((numbered n parts).filter fun e => e.1.called = some name).map Prod.snd).map callId ∧
      ((convertParts n parts).toolMessages.filter fun m => m.answered = name).map
          ToolMessage.toolCallId =
        (((numbered n parts).filter fun e => e.1.answered = some name).map Prod.snd).map callId := by
  induction parts generalizing n with
  | nil => exact ⟨rfl, rfl⟩
  | cons p parts ih =>
    cases p with
    | functionCall called arguments =>
      obtain ⟨hcalls, hanswers⟩ := ih (n + 1)
      by_cases hname : called = name <;>
        simp [convertParts, numbered, Part.isCall, Part.called, Part.answered, hname, hcalls,
          hanswers]
    | functionResponse answered response =>
      obtain ⟨hcalls, hanswers⟩ := ih n
      by_cases hname : answered = name <;>
        simp [convertParts, numbered, Part.isCall, Part.called, Part.answered, hname, hcalls,
          hanswers]
    | _ => simpa [convertParts, numbered, Part.isCall, Part.called, Part.answered] using ih n

theorem callIds_eq (name : String) (contents : List (String × List Part)) :
    callIds name contents = (places Part.called name contents).map callId := by
  simp only [callIds, toolCalls, places, List.flatMap_assoc, calls_convertContent,
    List.filter_flatMap, List.map_flatMap, (numbers_convertParts name 0 _).1]

theorem answerIds_eq (name : String) (contents : List (String × List Part)) :
    answerIds name contents = (places Part.answered name contents).map callId := by
  simp only [answerIds, answers, places, List.filterMap_flatMap, answers_convertContent,
    List.filter_flatMap, List.map_flatMap, List.filter_map, List.map_map, Function.comp_def]
  refine List.flatMap_congr fun c _ => ?_
  simpa [Function.comp_def] using (numbers_convertParts name 0 c.2).2

theorem map_prefix_iff {α β : Type} {f : α → β} (hf : Function.Injective f) {l l' : List α} :
    l.map f <+: l'.map f ↔ l <+: l' := by
  rw [List.prefix_iff_eq_take, List.prefix_iff_eq_take, List.length_map, ← List.map_take,
    hf.list_map.eq_iff]

end

theorem firstFour_eq_iff {stops : List String} {capacity : ℕ} (h : stops.length ≤ capacity) :
    firstFour stops capacity = some (stops.take 4) ↔ stops = [] ∨ 4 ≤ stops.length := by
  unfold firstFour
  split_ifs with hnil hcap
  · simp [hnil]
  · simpa [hnil] using h.trans_lt hcap
  · simp only [Option.some.injEq, hnil, false_or]
    refine ⟨fun heq => ?_, fun hfour => List.take_append_of_le_length hfour⟩
    have hlen := congrArg List.length heq
    simp only [List.length_take, List.length_append, List.length_replicate] at hlen
    omega

/-- Ids are distinct iff one content has all calls. The responses to a function carry the ids of its
calls, one after the other, iff before each of them there are as many calls in its content as there
are up to the call it answers in the content of that. Stop sequences are right iff there are none or
at least four. -/
theorem gemini_tool_links (contents : List (String × List Part)) (stops : List String)
    (capacity : ℕ) (h : stops.length ≤ capacity) : (((toolCalls contents).map ToolCall.id).Nodup ↔
        (contents.filter fun c => c.2.any Part.isCall).length ≤ 1) ∧
      (∀ name, answerIds name contents <+: callIds name contents ↔
        places Part.answered name contents <+: places Part.called name contents) ∧
      (firstFour stops capacity = some (stops.take 4) ↔ stops = [] ∨ 4 ≤ stops.length) := by
  refine ⟨nodup_ids_iff, fun name => ?_, firstFour_eq_iff h⟩
  rw [answerIds_eq, callIds_eq, map_prefix_iff callId_injective]

/-- Two calls in a content of which the first is answered before the second. -/
theorem gemini_tool_links_sample :
    let contents : List (String × List Part) :=
      [("model", [.functionCall "f" "", .functionResponse "f" "1", .functionCall "f" ""])]
    answerIds "f" contents <+: callIds "f" contents :=
  ((gemini_tool_links _ [] 0 le_rfl).2.1 "f").mpr ⟨[2], rfl⟩

/-- The two calls have the same id, the response one that no call has, and a single stop sequence
is a panic. -/
theorem gemini_tool_links_lost :
    let contents : List (String × List Part) := [("model", [.functionCall "f" ""]),
      ("user", [.functionResponse "f" "1"]), ("model", [.functionCall "g" ""])]
    (toolCalls contents).map ToolCall.id = ["call_1", "call_1"] ∧
      answerIds "f" contents = ["call_0"] ∧ firstFour ["end"] 1 = none := by
  decide +kernel

end NewApi.GeminiRequest
