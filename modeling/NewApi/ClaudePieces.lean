import NewApi.ClaudeRelay

/-!
# The pieces of a converted stream

A call converts at most a few pieces of its chunk: fragments of tool calls, reasoning or text.
What it leaves out is lost. The conversion of a stream is the emission of the pieces of its
readings, up to the reading that ends the message.
-/
namespace NewApi.Chat
open Counters

/-- A piece of a choice. There is at least one fragment in a piece of tool calls. -/
inductive Piece where
  | tools (call : ToolCall) (calls : List ToolCall)
  | thinking (text : String)
  | text (text : String)

/-- The reasoning of a choice, or its text. -/
def Delta.prose (d : Delta) : Option Piece :=
  if d.getReasoningContent ≠ "" then some (.thinking d.getReasoningContent)
  else if d.getContentString ≠ "" then some (.text d.getContentString)
  else none

def toolsPiece : List ToolCall → List Piece
  | [] => []
  | call :: calls => [.tools call calls]

/-- What a call converts. In a first chunk this is one fragment, and reasoning or text. -/
def Reading.pieces (r : Reading) : List Piece :=
  match r.chunk.choices with
  | [] => []
  | choice :: _ =>
    let d := choice.delta
    if r.first then toolsPiece (d.calls.take 1) ++ d.prose.toList
    else if choice.finished.isSome && r.chunk.usage.isNone then []
    else if d.calls ≠ [] then toolsPiece d.calls
    else d.prose.toList

namespace Counters

def emit (c : Counters) : Piece → Counters × List ClaudeEvent
  | .tools call calls => c.nextTools (call :: calls)
  | .thinking text => c.nextPiece .thinking .thinking (.thinking text)
  | .text text => c.nextPiece .text .text (.text text)

def emitAll : Counters → List Piece → Counters × List ClaudeEvent
  | c, [] => (c, [])
  | c, p :: ps => ((emitAll (c.emit p).1 ps).1, (c.emit p).2 ++ (emitAll (c.emit p).1 ps).2)

variable (c : Counters)

theorem emitAll_append (ps qs : List Piece) :
    c.emitAll (ps ++ qs) = (((c.emitAll ps).1.emitAll qs).1,
      (c.emitAll ps).2 ++ ((c.emitAll ps).1.emitAll qs).2) := by
  induction ps generalizing c with
  | nil => rfl
  | cons p ps ih => simp [emitAll, ih]

theorem emitAll_prose (d : Delta) : c.emitAll d.prose.toList =
      if d.getReasoningContent ≠ "" then
        c.nextPiece .thinking .thinking (.thinking d.getReasoningContent)
      else if d.getContentString ≠ "" then c.nextPiece .text .text (.text d.getContentString)
      else (c, []) := by
  unfold Delta.prose
  split_ifs <;> simp [emitAll, emit]

theorem emitAll_toolsPiece {calls : List ToolCall} (h : calls ≠ []) :
    c.emitAll (toolsPiece calls) = c.nextTools calls := by
  obtain ⟨call, calls, rfl⟩ := List.exists_cons_of_ne_nil h
  simp [toolsPiece, emitAll, emit]

end Counters

namespace Reading
variable {r : Reading}

theorem content_next (hfst : r.first = false) (c : Counters) :
    r.content c = c.emitAll r.pieces := by
  unfold content pieces
  rw [hfst]
  cases r.chunk.choices with
  | nil => rfl
  | cons choice choices =>
    simp only [Bool.false_eq_true, if_false]
    split_ifs with hhidden hcs
    · rfl
    · rw [emitAll_toolsPiece c hcs, nextContent, if_pos hcs]
    · rw [emitAll_prose, nextContent, if_neg hcs]

end Reading

namespace Counters

/-- The first fragment opens block 0. A first chunk starts it whatever the fragment says. -/
theorem nextTools_start {call : ToolCall} (hidx : call.index.getD 0 = 0)
    (hname : call.name ≠ "") : start.nextTools [call] = start.firstToolCall [call] := by
  simp [nextTools, firstToolCall, start, advance, stopOpenBlocks, offsets, toolEvents, hidx,
    hname]

theorem firstPiece_eq_nextPiece {c : Counters} {type : LastMessageType} (block : ContentBlock)
    (delta : BlockDelta) (h : c.lastMessagesType ≠ type) :
    c.firstPiece type block delta = c.nextPiece type block delta := by
  simp [firstPiece, nextPiece, h]

theorem firstContent_eq_emitAll {c : Counters} (d : Delta)
    (h : c.lastMessagesType = .none ∨ c.lastMessagesType = .tools) :
    c.firstContent d = c.emitAll d.prose.toList := by
  have hthin : c.lastMessagesType ≠ .thinking := by rcases h with h | h <;> simp [h]
  have htext : c.lastMessagesType ≠ .text := by rcases h with h | h <;> simp [h]
  rw [emitAll_prose, firstContent, firstPiece_eq_nextPiece _ _ hthin,
    firstPiece_eq_nextPiece _ _ htext]

end Counters

def Chunk.calls (c : Chunk) : List ToolCall :=
  (c.choices.head?.map fun choice => choice.delta.calls).getD []

/-- A first chunk emits its pieces too, if its fragment starts call 0. -/
theorem Reading.content_first {r : Reading} (hfst : r.first = true)
    (hcall : ∀ call ∈ r.chunk.calls.head?, call.index.getD 0 = 0 ∧ call.name ≠ "") :
    r.content .start = start.emitAll r.pieces := by
  unfold content pieces
  rw [hfst]
  cases hcho : r.chunk.choices with
  | nil => rfl
  | cons choice choices =>
    have hcs : r.chunk.calls = choice.delta.calls := by rw [Chunk.calls, hcho]; rfl
    rw [hcs] at hcall
    simp only [if_true]
    rw [emitAll_append]
    cases hd : choice.delta.calls with
    | nil =>
      rw [firstToolCall, firstContent_eq_emitAll _ (.inl rfl)]
      rfl
    | cons call calls =>
      obtain ⟨hidx, hname⟩ := hcall call (by rw [hd]; rfl)
      have htool : start.firstToolCall (call :: calls) =
          start.emitAll (toolsPiece ((call :: calls).take 1)) := by
        rw [List.take_succ_cons, List.take_zero, emitAll_toolsPiece _ (List.cons_ne_nil call []),
          nextTools_start hidx hname]
        rfl
      rw [firstContent_eq_emitAll _ (.inr rfl), htool]

def upToEnd : List Reading → List Reading
  | [] => []
  | r :: rs => if r.ends then [r] else r :: upToEnd rs

def convertedPieces (rs : List Reading) : List Piece := (upToEnd rs).flatMap Reading.pieces

theorem convertedPieces_of_ends {r : Reading} (h : r.ends = true) (rs : List Reading) :
    convertedPieces (r :: rs) = r.pieces := by
  simp [convertedPieces, upToEnd, h]

theorem convertedPieces_of_not_ends {r : Reading} (h : r.ends = false) (rs : List Reading) :
    convertedPieces (r :: rs) = r.pieces ++ convertedPieces rs := by
  simp [convertedPieces, upToEnd, h]

variable {estimate : ℤ} {s : ClaudeConvertInfo} {rs : List Reading}

def headEvents (estimate : ℤ) (rs : List Reading) : List ClaudeEvent :=
  (rs.head?.map (Reading.head estimate)).getD []

theorem headEvents_eq_nil (h : ∀ r ∈ rs, r.first = false) : headEvents estimate rs = [] := by
  cases rs with
  | nil => rfl
  | cons r rs => simp [headEvents, Reading.head, h r List.mem_cons_self]

/-- What holds of the readings of a stream: all but the first are taken for later chunks, and
the first one emits its pieces. -/
structure Regular (c : Counters) (rs : List Reading) : Prop where
  head : ∀ r ∈ rs.head?, r.content c = c.emitAll r.pieces
  tail : ∀ r ∈ rs.tail, r.first = false

theorem Regular.of_next (h : ∀ r ∈ rs, r.first = false) (c : Counters) : Regular c rs := by
  refine ⟨fun r hr => ?_, fun r hr => h r (List.mem_of_mem_tail hr)⟩
  exact Reading.content_next (h r (List.mem_of_mem_head? hr)) c

/-- The events of a message that does not end: the start and the pieces. -/
theorem readAll_events_of_open (hs : s.done = false) (h : Regular s.toCounters rs)
    (hopen : ∀ r ∈ rs, r.ends = false) : (readAll estimate s rs).2 =
      headEvents estimate rs ++ (s.toCounters.emitAll (convertedPieces rs)).2 := by
  induction rs generalizing s with
  | nil => rfl
  | cons r rs ih =>
    have hends := hopen r List.mem_cons_self
    have hconv : r.convert estimate s = _ := Reading.convert_of_not_ends hs hends
    have hnext : ∀ r' ∈ rs, r'.first = false := h.tail
    have hrest := ih (s := (r.convert estimate s).1) (by rw [hconv]) (.of_next hnext _)
      fun r' hr' => hopen r' (List.mem_cons_of_mem r hr')
    rw [readAll, hrest, headEvents_eq_nil hnext, hconv, h.head r rfl,
      convertedPieces_of_not_ends hends, emitAll_append]
    simp [headEvents]

/-- The events of a message that ends: open blocks are stopped before. -/
theorem readAll_events_of_end (hs : s.done = false) (h : Regular s.toCounters rs)
    (hend : ∃ r ∈ rs, r.ends = true) : ∃ r finishReason, (readAll estimate s rs).2 =
      headEvents estimate rs ++ ((s.toCounters.emitAll (convertedPieces rs)).2 ++
        ((s.toCounters.emitAll (convertedPieces rs)).1.stopOpenBlocks ++
          Reading.closing r finishReason)) := by
  induction rs generalizing s with
  | nil =>
    obtain ⟨r, hr, -⟩ := hend
    cases hr
  | cons r rs ih =>
    cases hends : r.ends with
    | true =>
      refine ⟨r, s.finishReason, ?_⟩
      rw [readAll_of_ends hs hends, Reading.convert_eq hs, Reading.outcome, hends,
        h.head r rfl, convertedPieces_of_ends hends]
      simp [headEvents]
    | false =>
      have hconv : r.convert estimate s = _ := Reading.convert_of_not_ends hs hends
      obtain ⟨r', hr', hends'⟩ := hend
      have hmem : r' ∈ rs := by
        rcases List.mem_cons.mp hr' with rfl | hmem
        · rw [hends] at hends'
          cases hends'
        · exact hmem
      have hnext : ∀ r' ∈ rs, r'.first = false := h.tail
      obtain ⟨e, finishReason, hrest⟩ := ih (s := (r.convert estimate s).1)
        (by rw [hconv]) (.of_next hnext _) ⟨r', hmem, hends'⟩
      refine ⟨e, finishReason, ?_⟩
      rw [readAll, hrest, headEvents_eq_nil hnext, hconv, h.head r rfl,
        convertedPieces_of_not_ends hends, emitAll_append]
      simp [headEvents]

end NewApi.Chat
