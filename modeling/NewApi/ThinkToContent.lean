import NewApi.ChatChunks

/-!
# Reasoning sent as content

For a client that does not know reasoning the stream handler turns it into content between two
tags. Three flags say where the stream is: before the first reasoning, in the reasoning, or behind
it.
-/
namespace NewApi.Chat

structure ThinkingContentInfo where
  (isFirstThinkingContent sendLastThinkingContent hasSentThinkingContent : Bool)

/-- The flags as the adaptor sets them. -/
def ThinkingContentInfo.init : ThinkingContentInfo := ⟨true, false, false⟩

/-- The text takes the place of content and reasoning. -/
def Delta.replaced (d : Delta) (text : String) : Delta := ⟨some text, none, none, d.toolCalls⟩

def Delta.flushed (d : Delta) : Delta := ⟨d.content, none, none, d.toolCalls⟩

def Chunk.mapDeltas (c : Chunk) (f : Delta → Delta) : Chunk :=
  { c with choices := c.choices.map fun choice => { choice with delta := f choice.delta } }

/-- The chunks that are sent for one, with reasoning turned to content, and the flags then. -/
def sendStreamData (c : Chunk) (info : ThinkingContentInfo) : List Chunk × ThinkingContentInfo :=
  let thinkingContent := String.join (c.choices.map (·.delta.getReasoningContent))
  let hasThinkingContent := c.choices.any (·.delta.getReasoningContent ≠ "")
  let hasContent := c.choices.any (·.delta.getContentString ≠ "")
  if info.isFirstThinkingContent && hasThinkingContent then
    ([c.mapDeltas (·.replaced ("<think>\n" ++ thinkingContent))], { info with
      isFirstThinkingContent := false
      hasSentThinkingContent := true })
  else
    let sent := c.mapDeltas fun d =>
      if d.getReasoningContent ≠ "" then d.replaced d.getReasoningContent
      else if !hasThinkingContent && !hasContent then d.flushed
      else d
    -- The first choice sends the tag for all of them and sets the flag that stops the others.
    if hasContent && !info.sendLastThinkingContent && info.hasSentThinkingContent then
      ([c.mapDeltas (·.replaced "\n</think>\n"), sent], { info with
        sendLastThinkingContent := true })
    else ([sent], info)

def Chunk.text (c : Chunk) : String := (c.choices.head?.map (·.delta.getContentString)).getD ""

def Chunk.thought (c : Chunk) : String :=
  (c.choices.head?.map (·.delta.getReasoningContent)).getD ""

/-- The text of a chunk that has been sent without a tag. -/
def Chunk.carried (c : Chunk) : String := if c.thought ≠ "" then c.thought else c.text

def sentText : List Chunk → ThinkingContentInfo → String
  | [], _ => ""
  | c :: cs, info => String.join ((sendStreamData c info).1.map Chunk.text) ++
    sentText cs (sendStreamData c info).2

open ThinkingContentInfo

section
variable {c : Chunk} {cs rest : List Chunk}

theorem text_mapDeltas {choice : Choice} (h : c.choices = [choice]) (f : Delta → Delta) :
    (c.mapDeltas f).text = (f choice.delta).getContentString := by
  simp [Chunk.text, Chunk.mapDeltas, h]

@[simp] theorem getContentString_replaced (d : Delta) (text : String) :
    (d.replaced text).getContentString = text := rfl

@[simp] theorem getContentString_flushed (d : Delta) :
    d.flushed.getContentString = d.getContentString := rfl

/-- What is sent for a chunk: a tag where one is due, and its reasoning, or its content if it has
none. -/
theorem sentText_cons (hone : c.choices.length = 1) (info : ThinkingContentInfo) :
    sentText (c :: cs) info =
      if info.isFirstThinkingContent ∧ c.thought ≠ "" then
        "<think>\n" ++ c.thought ++ sentText cs { info with
          isFirstThinkingContent := false
          hasSentThinkingContent := true }
      else if c.text ≠ "" ∧ info.sendLastThinkingContent = false ∧ info.hasSentThinkingContent then
        "\n</think>\n" ++ c.carried ++ sentText cs { info with sendLastThinkingContent := true }
      else c.carried ++ sentText cs info := by
  obtain ⟨choice, hch⟩ := List.length_eq_one_iff.mp hone
  have hthou : c.thought = choice.delta.getReasoningContent := by simp [Chunk.thought, hch]
  have htext : c.text = choice.delta.getContentString := by simp [Chunk.text, hch]
  rw [sentText, sendStreamData]
  obtain ⟨first, last, sent⟩ := info
  cases first <;> cases last <;> cases sent <;> by_cases hr : c.thought = "" <;>
    by_cases ht : c.text = "" <;> simp_all [text_mapDeltas hch, Chunk.carried]

def total (part : Chunk → String) (cs : List Chunk) : String := String.join (cs.map part)

/-- Chunks with one choice that have nothing of a part. -/
def Without (part : Chunk → String) (cs : List Chunk) : Prop :=
  ∀ c ∈ cs, c.choices.length = 1 ∧ part c = ""

variable (part : Chunk → String)

theorem total_cons : total part (c :: cs) = part c ++ total part cs := by
  rw [total, List.map_cons, String.join_cons, total]

theorem total_append :
    total part (cs ++ rest) = total part cs ++ total part rest := by
  rw [total, List.map_append, String.join_append, total, total]

theorem total_without {part : Chunk → String} (h : Without part cs) : total part cs = "" :=
  join_eq_empty_iff.mpr (List.forall_mem_map.mpr fun c hc => (h c hc).2)

/-- The first content behind the reasoning is sent after the closing tag. -/
theorem sentText_contents (h : Without Chunk.thought cs) (info : ThinkingContentInfo) :
    sentText cs info = (if total Chunk.text cs ≠ "" ∧ info.sendLastThinkingContent = false ∧
      info.hasSentThinkingContent then "\n</think>\n" else "") ++ total Chunk.text cs := by
  induction cs generalizing info with
  | nil => rfl
  | cons c cs ih =>
    obtain ⟨⟨hone, hthou⟩, hcs⟩ := List.forall_mem_cons.mp h
    have hcar : c.carried = c.text := if_neg (not_not.mpr hthou)
    rw [sentText_cons hone, if_neg (fun h => h.2 hthou), hcar, total_cons]
    split_ifs with hnow <;> rw [ih hcs] <;> simp_all [String.append_assoc]

/-- The first reasoning is sent after the opening tag. -/
theorem sentText_reasoning (h : Without Chunk.text cs) (info : ThinkingContentInfo) :
    sentText (cs ++ rest) info =
      if info.isFirstThinkingContent ∧ total Chunk.thought cs ≠ "" then
        "<think>\n" ++ total Chunk.thought cs ++ sentText rest { info with
          isFirstThinkingContent := false
          hasSentThinkingContent := true }
      else total Chunk.thought cs ++ sentText rest info := by
  induction cs generalizing info with
  | nil => simp [total, String.join_nil]
  | cons c cs ih =>
    obtain ⟨⟨hone, htext⟩, hcs⟩ := List.forall_mem_cons.mp h
    have hcar : c.carried = c.thought := by
      unfold Chunk.carried
      split_ifs with hthou
      · rfl
      · rw [htext, not_not.mp hthou]
    rw [List.cons_append, sentText_cons hone, hcar, total_cons]
    by_cases hnow : info.isFirstThinkingContent ∧ c.thought ≠ ""
    · rw [if_pos hnow, ih hcs]
      simp [hnow, String.append_assoc]
    · rw [if_neg hnow, if_neg (fun h => h.1 htext), ih hcs]
      cases hfst : info.isFirstThinkingContent <;> simp_all [String.append_assoc]

/-- Single-choice chunks in which no reasoning comes behind content. -/
structure ReasoningFirst (cs : List Chunk) : Prop where
  single : ∀ c ∈ cs, c.choices.length = 1
  order : cs.Pairwise fun a b => a.text = "" ∨ b.thought = ""

/-- The reasoning ends and the content begins between two chunks, or in one. -/
theorem ReasoningFirst.split (h : ReasoningFirst cs) :
    ∃ rs ts, Without Chunk.text rs ∧ Without Chunk.thought ts ∧ (cs = rs ++ ts ∨
      ∃ b, cs = rs ++ b :: ts ∧ b.choices.length = 1 ∧ b.thought ≠ "" ∧ b.text ≠ "") := by
  induction cs with
  | nil => exact ⟨[], [], by simp [Without], by simp [Without], .inl rfl⟩
  | cons c cs ih =>
    obtain ⟨hone, hones⟩ := List.forall_mem_cons.mp h.single
    obtain ⟨hfst, hord⟩ := List.pairwise_cons.mp h.order
    by_cases htext : c.text = ""
    · obtain ⟨rs, ts, hrs, hts, hcs⟩ := ih ⟨hones, hord⟩
      refine ⟨c :: rs, ts, List.forall_mem_cons.mpr ⟨⟨hone, htext⟩, hrs⟩, hts, ?_⟩
      rcases hcs with rfl | ⟨b, rfl, hb⟩
      · exact .inl rfl
      · exact .inr ⟨b, rfl, hb⟩
    · -- All chunks behind the first content are without reasoning.
      have hcs : Without Chunk.thought cs := fun d hd =>
        ⟨hones d hd, (hfst d hd).resolve_left htext⟩
      by_cases hthou : c.thought = ""
      · exact ⟨[], c :: cs, by simp [Without], List.forall_mem_cons.mpr ⟨⟨hone, hthou⟩, hcs⟩,
          .inl rfl⟩
      · exact ⟨[], cs, by simp [Without], hcs, .inr ⟨c, rfl, hone, hthou, htext⟩⟩

/-- The text for the client. -/
def thoughtThenText (thoughts texts : String) : String :=
  if thoughts = "" then texts else "<think>\n" ++ thoughts ++ "\n</think>\n" ++ texts

/-- The closing tag is sent with the first content, so it is missing iff there is reasoning and no
content follows. -/
theorem sentText_apart {rs ts : List Chunk} (hr : Without Chunk.text rs)
    (ht : Without Chunk.thought ts) :
    sentText (rs ++ ts) init =
        thoughtThenText (total Chunk.thought (rs ++ ts)) (total Chunk.text (rs ++ ts)) ↔
      total Chunk.thought (rs ++ ts) = "" ∨ total Chunk.text (rs ++ ts) ≠ "" := by
  rw [total_append, total_append, total_without ht, total_without hr, String.append_empty,
    String.empty_append, sentText_reasoning hr, sentText_contents ht, sentText_contents ht,
    thoughtThenText]
  by_cases hno : total Chunk.thought rs = ""
  · simp [hno, init]
  by_cases hnone : total Chunk.text ts = ""
  · have hlonger : total Chunk.thought rs ≠ total Chunk.thought rs ++ "\n</think>\n" := fun h => by
      simpa using congrArg String.length h
    simp [hno, hnone, init, String.append_assoc, hlonger]
  · simp [hno, hnone, init, String.append_assoc]

/-- Of a chunk with both only the reasoning is sent, so that the text is too short. -/
theorem sentText_both {rs ts : List Chunk} {b : Chunk} (hr : Without Chunk.text rs)
    (ht : Without Chunk.thought ts) (hone : b.choices.length = 1) (hthou : b.thought ≠ "")
    (htext : b.text ≠ "") :
    sentText (rs ++ b :: ts) init ≠ thoughtThenText (total Chunk.thought (rs ++ b :: ts))
      (total Chunk.text (rs ++ b :: ts)) := by
  intro h
  have hlost : 0 < b.text.length :=
    Nat.pos_of_ne_zero fun h => htext (String.length_eq_zero_iff.mp h)
  have hcar : b.carried = b.thought := if_pos hthou
  have hsome : total Chunk.thought rs ++ b.thought ≠ "" := by simp [hthou]
  have hlen := congrArg String.length h
  rw [total_append, total_append, total_cons, total_cons, total_without ht, total_without hr,
    String.append_empty, String.empty_append, thoughtThenText, if_neg hsome,
    sentText_reasoning hr, sentText_cons hone, sentText_cons hone, hcar] at hlen
  simp only [sentText_contents ht] at hlen
  by_cases hno : total Chunk.thought rs = ""
  · by_cases hnone : total Chunk.text ts = "" <;>
      simp [hno, hnone, hthou, init] at hlen <;> omega
  · simp [hno, htext, init] at hlen
    omega

end

/-- All text arrives iff no chunk has both reasoning and content and, where there is reasoning,
content follows that sends the closing tag. -/
theorem think_to_content_iff (cs : List Chunk) (h : ReasoningFirst cs) :
    sentText cs init = thoughtThenText (total Chunk.thought cs) (total Chunk.text cs) ↔
      (∀ c ∈ cs, c.thought = "" ∨ c.text = "") ∧
        (total Chunk.thought cs = "" ∨ total Chunk.text cs ≠ "") := by
  obtain ⟨rs, ts, hr, ht, rfl | ⟨b, rfl, hone, hthou, htext⟩⟩ := h.split
  · rw [sentText_apart hr ht]
    refine (and_iff_right fun c hc => ?_).symm
    rcases List.mem_append.mp hc with hc | hc
    · exact .inr (hr c hc).2
    · exact .inl (ht c hc).2
  · refine iff_of_false (sentText_both hr ht hone hthou htext) fun hcond => ?_
    exact (hcond.1 b (by simp)).elim hthou htext

/-- Reasoning and its answer in chunks of their own. -/
theorem think_to_content_apart :
    let thought := Chunk.single ⟨none, some "so", none, none⟩ none none
    let answer := Chunk.single ⟨some "yes", none, none, none⟩ none none
    sentText [thought, answer] init = "<think>\nso\n</think>\nyes" :=
  (think_to_content_iff [_, _] ⟨by decide +kernel, by decide +kernel⟩).mpr
    ⟨by decide +kernel, .inr (by decide +kernel)⟩

/-- A chunk with both loses its content, first or not; and reasoning alone is never closed. -/
theorem think_to_content_lost :
    let thought := Chunk.single ⟨none, some "so", none, none⟩ none none
    let both := Chunk.single ⟨some "yes", some "so", none, none⟩ none none
    sentText [both] init = "<think>\nso" ∧
      sentText [thought, both] init = "<think>\nso\n</think>\nso" ∧
      sentText [thought] init = "<think>\nso" := by
  decide +kernel

end NewApi.Chat
