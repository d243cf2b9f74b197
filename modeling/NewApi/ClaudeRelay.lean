import NewApi.StreamHandler

/-!
# The events of a relayed stream

The conversion to Claude events is called once for each chunk. What a call does depends on the
chunk, on whether the chunk is taken for the first one, and on the usage that is known by then:
this is a reading. A stream of chunks is a list of readings, and so is what the stream handler
does, where the last chunk is read in a way of its own.
-/
namespace NewApi.Chat
open ClaudeConvertInfo

structure Reading where
  first : Bool
  stored : Option Usage
  chunk : Chunk

def Chunk.finished (c : Chunk) : Option String := c.choices.head?.bind Choice.finished

namespace Reading
variable (estimate : ℤ) (r : Reading)

def convert (s : ClaudeConvertInfo) : ClaudeConvertInfo × List ClaudeEvent :=
  if s.done then ({ s with usage := r.stored }, [])
  else if r.first then { s with usage := r.stored }.convertFirst estimate r.chunk
  else { s with usage := r.stored }.convertNext r.chunk

/-- The message ends with this chunk. -/
def ends : Bool :=
  if r.first then r.chunk.finished.isSome
  else if r.chunk.choices = [] then (r.chunk.usage.or r.stored).isSome
  else r.chunk.finished.isSome && r.chunk.usage.isSome

def head : List ClaudeEvent :=
  if r.first then [.messageStart r.chunk.id r.chunk.model estimate] else []

/-- The stop reason, where `reason` is the reason to finish that is known by then. -/
def stopReason (reason : String) : String :=
  let stop := stopReasonOpenAI2Claude reason
  if r.first = false ∧ r.chunk.choices = [] ∧ stop = "" then "end_turn" else stop

/-- What ends the message: the stop, before which the stop reason is sent if the usage is
known. -/
def closing (finishReason : String) : List ClaudeEvent :=
  (match r.chunk.usage.or r.stored with
    | some u => [.messageDelta (r.stopReason (r.chunk.finished.getD finishReason))
        (buildClaudeUsageFromOpenAIUsage u)]
    | none => []) ++ [.messageStop]

/-- What is converted of the choice. A reason to finish without usage hides what comes with
it. -/
def content (c : Counters) : Counters × List ClaudeEvent :=
  match r.chunk.choices with
  | [] => (c, [])
  | choice :: _ =>
    if r.first then
      let tool := c.firstToolCall choice.delta.calls
      let text := tool.1.firstContent choice.delta
      (text.1, tool.2 ++ text.2)
    else if choice.finished.isSome && r.chunk.usage.isNone then (c, [])
    else c.nextContent choice.delta

end Reading

def readAll (estimate : ℤ) : ClaudeConvertInfo → List Reading → ClaudeConvertInfo × List ClaudeEvent
  | s, [] => (s, [])
  | s, r :: rs =>
    let now := r.convert estimate s
    let rest := readAll estimate now.1 rs
    (rest.1, now.2 ++ rest.2)

/-- The readings of chunks that are relayed one after the other, of which `count` have been
before. -/
def readings : ℕ → Option Usage → List Chunk → List Reading
  | _, _, [] => []
  | count, stored, c :: cs =>
    ⟨decide (count = 0), c.usage.or stored, c⟩ :: readings (count + 1) (c.usage.or stored) cs

/-- The readings of the stream handler. The last chunk is taken for the first one if it is the
second. -/
def handlerReadings (billed : Usage) (cs : List Chunk) (last : Chunk) : List Reading :=
  readings 0 none cs ++ [⟨decide (cs.length = 1), some billed, last⟩]

/-- The event starts, fills or stops a block. -/
def ClaudeEvent.isContent : ClaudeEvent → Bool
  | .contentBlockStart _ _ | .contentBlockDelta _ _ | .contentBlockStop _ => true
  | _ => false

namespace Counters
variable {s : Counters} {e : ClaudeEvent}

theorem stopOpenBlocks_isContent (he : e ∈ s.stopOpenBlocks) : e.isContent = true := by
  unfold stopOpenBlocks at he
  cases hlast : s.lastMessagesType with
  | none => simp [hlast] at he
  | text | thinking => simp_all [ClaudeEvent.isContent]
  | tools =>
    rw [hlast] at he
    obtain ⟨offset, -, rfl⟩ := List.mem_map.mp he
    rfl

variable {calls : List ToolCall}

theorem firstToolCall_isContent (he : e ∈ (s.firstToolCall calls).2) :
    e.isContent = true := by
  cases calls with
  | nil => cases he
  | cons call calls =>
    rcases List.mem_cons.mp he with rfl | he
    · rfl
    split_ifs at he
    · rw [List.mem_singleton.mp he]
      rfl
    · cases he

variable {block : ContentBlock} {delta : BlockDelta} {type : LastMessageType}

theorem firstPiece_isContent (he : e ∈ (s.firstPiece type block delta).2) : e.isContent = true := by
  rcases List.mem_append.mp he with he | he
  · split_ifs at he
    · exact stopOpenBlocks_isContent he
    · cases he
  · simp only [List.mem_cons, List.not_mem_nil, or_false] at he
    rcases he with rfl | rfl <;> rfl

theorem firstContent_isContent {d : Delta} (he : e ∈ (s.firstContent d).2) :
    e.isContent = true := by
  unfold firstContent at he
  split_ifs at he
  · exact firstPiece_isContent he
  · exact firstPiece_isContent he
  · cases he

theorem nextPiece_isContent (he : e ∈ (s.nextPiece type block delta).2) : e.isContent = true := by
  unfold nextPiece at he
  split_ifs at he
  · rcases List.mem_append.mp he with he | he
    · exact stopOpenBlocks_isContent he
    · simp only [List.mem_cons, List.not_mem_nil, or_false] at he
      rcases he with rfl | rfl <;> rfl
  · rw [List.mem_singleton.mp he]
    rfl

theorem toolEvents_isContent {base offset : ℕ} {call : ToolCall}
    (he : e ∈ toolEvents base offset call) : e.isContent = true := by
  rcases List.mem_append.mp he with he | he <;> split_ifs at he
  · rw [List.mem_singleton.mp he]
    rfl
  · cases he
  · rw [List.mem_singleton.mp he]
    rfl
  · cases he

theorem nextTools_isContent (he : e ∈ (s.nextTools calls).2) :
    e.isContent = true := by
  rcases List.mem_append.mp he with he | he
  · split_ifs at he
    · exact stopOpenBlocks_isContent he
    · cases he
  · obtain ⟨p, -, he⟩ := List.mem_flatMap.mp he
    exact toolEvents_isContent he

theorem nextContent_isContent {d : Delta} (he : e ∈ (s.nextContent d).2) : e.isContent = true := by
  unfold nextContent at he
  split_ifs at he
  · exact nextTools_isContent he
  · exact nextPiece_isContent he
  · exact nextPiece_isContent he
  · cases he

end Counters

namespace Reading
variable {estimate : ℤ} {r : Reading} {s : ClaudeConvertInfo}

theorem convert_done (h : s.done = true) :
    r.convert estimate s = ({ s with usage := r.stored }, []) := if_pos h

def outcome (estimate : ℤ) (r : Reading) (s : ClaudeConvertInfo) :
    ClaudeConvertInfo × List ClaudeEvent :=
  ({ toCounters := (r.content s.toCounters).1
     usage := r.stored
     finishReason := r.chunk.finished.getD s.finishReason
     done := r.ends },
    r.head estimate ++ (r.content s.toCounters).2 ++
      if r.ends then (r.content s.toCounters).1.stopOpenBlocks ++ r.closing s.finishReason
      else [])

/-- A call emits its part of the frame around what is converted. -/
theorem convert_eq (hs : s.done = false) : r.convert estimate s = outcome estimate r s := by
  obtain ⟨first, stored, chunk⟩ := r
  cases hcs : chunk.choices with
  | nil =>
    cases first <;> cases husg : chunk.usage.or stored <;>
      simp [convert, outcome, content, head, ends, closing, stopReason, Chunk.finished,
        convertFirst, convertNext, hs, hcs, husg]
  | cons choice choices =>
    cases hrsn : choice.finished with
    | none =>
      cases first <;> simp [convert, outcome, content, head, ends, Chunk.finished, convertFirst,
        convertNext, withCounters, hs, hcs, hrsn]
    | some reason =>
      cases first <;> cases husg : chunk.usage <;> cases stored <;>
        simp [convert, outcome, content, head, ends, closing, stopReason, Chunk.finished,
          convertFirst, convertNext, withCounters, finish, hs, hcs, hrsn, husg]

theorem content_isContent {c : Counters} {e : ClaudeEvent} (he : e ∈ (r.content c).2) :
    e.isContent = true := by
  unfold content at he
  split at he
  · cases he
  split_ifs at he
  · rcases List.mem_append.mp he with he | he
    · exact Counters.firstToolCall_isContent he
    · exact Counters.firstContent_isContent he
  · cases he
  · exact Counters.nextContent_isContent he

theorem convert_of_not_ends (hs : s.done = false) (hends : r.ends = false) : r.convert estimate s =
      ({ toCounters := (r.content s.toCounters).1
         usage := r.stored
         finishReason := r.chunk.finished.getD s.finishReason
         done := false }, r.head estimate ++ (r.content s.toCounters).2) := by
  rw [convert_eq hs, outcome, hends]
  simp

/-- A call that ends the message: content events are between the two parts of the frame. -/
theorem convert_of_ends (estimate : ℤ) (hs : s.done = false) (hends : r.ends = true) :
    ∃ body, (∀ e ∈ body, e.isContent = true) ∧
      (r.convert estimate s).2 = r.head estimate ++ body ++ r.closing s.finishReason := by
  refine ⟨(r.content s.toCounters).2 ++ (r.content s.toCounters).1.stopOpenBlocks, ?_, ?_⟩
  · intro e he
    rcases List.mem_append.mp he with he | he
    · exact content_isContent he
    · exact Counters.stopOpenBlocks_isContent he
  · rw [convert_eq hs, outcome, hends]
    simp

theorem convert_usage : (r.convert estimate s).1.usage = r.stored := by
  cases hs : s.done with
  | true => rw [convert_done hs]
  | false => rw [convert_eq hs, outcome]

end Reading

section
variable {estimate : ℤ} {s : ClaudeConvertInfo}

theorem readAll_append (rs rs' : List Reading) : readAll estimate s (rs ++ rs') =
      ((readAll estimate (readAll estimate s rs).1 rs').1,
        (readAll estimate s rs).2 ++ (readAll estimate (readAll estimate s rs).1 rs').2) := by
  induction rs generalizing s with
  | nil => rfl
  | cons r rs ih => simp [readAll, ih]

theorem readAll_done (h : s.done = true) (rs : List Reading) : (readAll estimate s rs).2 = [] := by
  induction rs generalizing s with
  | nil => rfl
  | cons r rs ih =>
    rw [readAll, Reading.convert_done h]
    exact ih h

/-- Nothing follows a call that ends the message. -/
theorem readAll_of_ends {r : Reading} (hs : s.done = false) (hends : r.ends = true)
    (rs : List Reading) : (readAll estimate s (r :: rs)).2 = (r.convert estimate s).2 := by
  have hdone : (r.convert estimate s).1.done = true := by rw [Reading.convert_eq hs]; exact hends
  rw [readAll, readAll_done hdone, List.append_nil]

end

variable {J : Type} {relay : Relay J}

section
variable (h : relay.relayFormat = .claude)
include h

theorem handleStreamFormat_claude (info : RelayInfo) (c : Chunk) :
    handleStreamFormat relay info c =
      let r : Reading := ⟨decide (info.sendResponseCount = 0), c.usage.or info.convert.usage, c⟩
      let result := r.convert relay.estimatePromptTokens info.convert
      (⟨info.sendResponseCount + 1, result.1⟩, result.2.map .claude) := by
  rw [handleStreamFormat, h]
  simp [handleClaudeFormat, streamResponseOpenAI2Claude, Reading.convert]

theorem sendAll_claude (info : RelayInfo) (cs : List Chunk) :
    sendAll relay info cs =
      let result := readAll relay.estimatePromptTokens info.convert
        (readings info.sendResponseCount info.convert.usage cs)
      (⟨info.sendResponseCount + cs.length, result.1⟩, result.2.map .claude) := by
  induction cs generalizing info with
  | nil => rfl
  | cons c cs ih =>
    rw [sendAll, handleStreamFormat_claude h]
    rw [ih, readings, readAll]
    dsimp only
    rw [Reading.convert_usage, List.map_append, List.length_cons, Nat.add_right_comm, Nat.add_assoc]

theorem oaiStreamHandler_claude (cs : List Chunk) (last : Chunk) :
    (oaiStreamHandler relay (cs ++ [last])).2 = (readAll relay.estimatePromptTokens .start
        (handlerReadings (billedUsage relay cs last) cs last)).2.map .claude := by
  have hsent := sendAll_claude h .start cs
  dsimp only [RelayInfo.start] at hsent
  rw [oaiStreamHandler_snd, handlerReadings, readAll_append, h]
  simp only [reduceCtorEq, false_and, if_false, List.append_nil, handleFinalResponse, h]
  rw [RelayInfo.start, hsent]
  simp [readAll, streamResponseOpenAI2Claude, Reading.convert, start]

end

end NewApi.Chat
