import NewApi.ClaudePieces
import NewApi.KeyedTable
import NewApi.StreamForwarding

/-!
# The discipline of content blocks

A client of the Claude format keeps the blocks that are open. It rejects a block at an index
that was used before, a delta for a block that is not open or has another type, a stop of a
block that is not open, and the end of a message with an open block.

The conversion numbers the blocks of tool calls by the upstream's indices, counted from the
first index of a run of fragments.
-/
namespace NewApi.Chat
open Counters

inductive BlockType where
  | text | thinking | toolUse
  deriving DecidableEq

def ContentBlock.type : ContentBlock → BlockType
  | .text => .text
  | .thinking => .thinking
  | .toolUse _ _ => .toolUse

def BlockDelta.type : BlockDelta → BlockType
  | .text _ => .text
  | .thinking _ => .thinking
  | .inputJson _ => .toolUse

/-- What a client knows about the blocks of a message. -/
structure Blocks where
  used : List ℕ
  opened : Table ℕ BlockType

open Blocks

namespace Blocks

def start : Blocks := ⟨[], .empty⟩

/-- What a client accepts: a delta is of the kind of its open block. -/
def accept (b : Blocks) : ClaudeEvent → Option Blocks
  | .contentBlockStart i block =>
    if i ∈ b.used then none else some ⟨i :: b.used, b.opened.put i block.type⟩
  | .contentBlockDelta i delta => if b.opened i = some delta.type then some b else none
  | .contentBlockStop i =>
    if (b.opened i).isSome then some ⟨b.used, b.opened.remove i⟩ else none
  | .messageStop => if b.used.all fun i => (b.opened i).isNone then some b else none
  | .messageStart _ _ _ | .messageDelta _ _ => some b

/-- The client after some events. -/
def acceptAll (b : Blocks) (events : List ClaudeEvent) : Option Blocks := events.foldlM accept b

theorem acceptAll_append (b : Blocks) (es es' : List ClaudeEvent) :
    b.acceptAll (es ++ es') = (b.acceptAll es).bind fun b' => b'.acceptAll es' := by
  simp [acceptAll, List.foldlM_append]

theorem acceptAll_cons (b : Blocks) (e : ClaudeEvent) (es : List ClaudeEvent) :
    b.acceptAll (e :: es) = (b.accept e).bind fun b' => b'.acceptAll es := by
  simp [acceptAll]

/-- The events are accepted, and what the client then knows satisfies `P`. -/
def Reaches (b : Blocks) (events : List ClaudeEvent) (P : Blocks → Prop) : Prop :=
  ∃ b', b.acceptAll events = some b' ∧ P b'

theorem Reaches.nil {b : Blocks} {P : Blocks → Prop} (h : P b) : b.Reaches [] P := ⟨b, rfl, h⟩

theorem Reaches.append {b : Blocks} {es es' : List ClaudeEvent} {P Q : Blocks → Prop}
    (h : b.Reaches es P) (h' : ∀ b', P b' → b'.Reaches es' Q) : b.Reaches (es ++ es') Q := by
  obtain ⟨b', hb', hP⟩ := h
  obtain ⟨b'', hb'', hQ⟩ := h' b' hP
  refine ⟨b'', ?_, hQ⟩
  rw [acceptAll_append, hb']
  exact hb''

end Blocks

/-- Every event is accepted. -/
def Disciplined (events : List ClaudeEvent) : Prop := (start.acceptAll events).isSome

instance (events : List ClaudeEvent) : Decidable (Disciplined events) :=
  inferInstanceAs (Decidable (_ = true))

/-- The number of calls after a fragment: a new call has a name and takes the next index, and
other fragments have the index of a call that is known. -/
def nextCall (n : ℕ) (p : ℕ × ToolCall) : Option ℕ :=
  if p.2.name ≠ "" then if p.1 = n then some (n + 1) else none
  else if p.1 < n then some n else none

/-- Each run of fragments is indexed from 0. -/
def runIndex (n : ℕ) : Piece → Option ℕ
  | .tools call calls => (offsets (call :: calls)).foldlM nextCall n
  | .thinking _ | .text _ => some 0

theorem nextCall_cases {n m : ℕ} {p : ℕ × ToolCall} (h : nextCall n p = some m) :
    (p.2.name ≠ "" ∧ p.1 = n ∧ m = n + 1) ∨ (p.2.name = "" ∧ p.1 < n ∧ m = n) := by
  unfold nextCall at h
  split_ifs at h with hname hidx hidx
  · cases h
    exact .inl ⟨hname, hidx, rfl⟩
  · cases h
    exact .inr ⟨not_not.mp hname, hidx, rfl⟩

theorem foldl_max_of_nextCall {ps : List (ℕ × ToolCall)} {n m : ℕ}
    (h : ps.foldlM nextCall n = some m) :
    ps.foldl (fun k p => max k p.1) (n - 1) = m - 1 ∧ n ≤ m := by
  induction ps generalizing n with
  | nil =>
    cases h
    exact ⟨rfl, Nat.le_refl _⟩
  | cons p ps ih =>
    obtain ⟨k, hk, hrest⟩ := Option.bind_eq_some_iff.mp h
    obtain ⟨hfold, hle⟩ := ih hrest
    have hmax : max (n - 1) p.1 = k - 1 := by
      rcases nextCall_cases hk with ⟨-, hidx, hct⟩ | ⟨-, hidx, hct⟩ <;> omega
    have hle' : n ≤ k := by
      rcases nextCall_cases hk with ⟨-, -, hct⟩ | ⟨-, -, hct⟩ <;> omega
    rw [List.foldl_cons, hmax]
    exact ⟨hfold, hle'.trans hle⟩

theorem ne_zero_of_nextCall {ps : List (ℕ × ToolCall)} {n m : ℕ} (hps : ps ≠ [])
    (h : ps.foldlM nextCall n = some m) : m ≠ 0 := by
  obtain ⟨p, ps, rfl⟩ := List.exists_cons_of_ne_nil hps
  obtain ⟨k, hk, hrest⟩ := Option.bind_eq_some_iff.mp h
  have hle := (foldl_max_of_nextCall hrest).2
  rcases nextCall_cases hk with ⟨-, hidx, hct⟩ | ⟨-, hidx, hct⟩ <;> omega

namespace Counters
variable (c : Counters)

def nextIndex : ℕ := c.advance.index

/-- The blocks that the converter takes to be open. -/
def openAt (i : ℕ) : Option BlockType :=
  match c.lastMessagesType with
  | .none => none
  | .text => if i = c.index then some .text else none
  | .thinking => if i = c.index then some .thinking else none
  | .tools =>
    if c.toolCallBaseIndex ≤ i ∧ i ≤ c.toolCallBaseIndex + c.toolCallMaxIndexOffset then
      some .toolUse
    else none

/-- The counters in a run of fragments, of which `k` is the highest offset. -/
def inRun (base k : ℕ) : Counters := ⟨.tools, base + k, base, k⟩

variable {c}

theorem nextTools_of_tools (h : c.lastMessagesType = .tools) (calls : List ToolCall) :
    c.nextTools calls = (inRun c.toolCallBaseIndex
        ((offsets calls).foldl (fun k p => max k p.1) c.toolCallMaxIndexOffset),
      (offsets calls).flatMap fun p => toolEvents c.toolCallBaseIndex p.1 p.2) := by
  simp [nextTools, inRun, h]

/-- Fragments open a run after the open blocks. -/
theorem nextTools_of_ne (h : c.lastMessagesType ≠ .tools) (calls : List ToolCall) :
    c.nextTools calls = (inRun c.nextIndex ((offsets calls).foldl (fun k p => max k p.1) 0),
      c.stopOpenBlocks ++ (offsets calls).flatMap fun p => toolEvents c.nextIndex p.1 p.2) := by
  simp [nextTools, inRun, nextIndex, h]

end Counters

/-- The counters agree with the client, and `n` calls have been started in the open run. -/
structure Tracks (c : Counters) (n : ℕ) (b : Blocks) : Prop where
  count : n = if c.lastMessagesType = .tools then c.toolCallMaxIndexOffset + 1 else 0
  used : ∀ i ∈ b.used, i < c.nextIndex
  opened : ∀ i, b.opened i = c.openAt i

/-- Blocks of `n` calls from `base` on are open. -/
structure RunOpen (base n : ℕ) (b : Blocks) : Prop where
  used : ∀ i ∈ b.used, i < base + n
  opened : ∀ i, b.opened i = if base ≤ i ∧ i < base + n then some .toolUse else none

section
variable {c : Counters} {n : ℕ} {b : Blocks}
  {base m k : ℕ} {p : ℕ × ToolCall} {ps : List (ℕ × ToolCall)}

variable {i : ℕ}

theorem reaches_start (block : ContentBlock) (hi : i ∉ b.used) :
    b.Reaches [.contentBlockStart i block] fun b' =>
      b' = ⟨i :: b.used, b.opened.put i block.type⟩ := by
  refine ⟨_, ?_, rfl⟩
  simp [acceptAll, accept, hi]

theorem reaches_delta (delta : BlockDelta) (hi : b.opened i = some delta.type) :
    b.Reaches [.contentBlockDelta i delta] fun b' => b' = b := by
  refine ⟨_, ?_, rfl⟩
  simp [acceptAll, accept, hi]

theorem reaches_stop (hi : (b.opened i).isSome) :
    b.Reaches [.contentBlockStop i] fun b' => b' = ⟨b.used, b.opened.remove i⟩ := by
  refine ⟨_, ?_, rfl⟩
  simp [acceptAll, accept, hi]

def Closed (used : List ℕ) (b : Blocks) : Prop := b.used = used ∧ ∀ i, b.opened i = none

theorem reaches_stops (hk : k ≤ m)
    (hopn : ∀ i, b.opened i = if base ≤ i ∧ i < base + m then some .toolUse else none) :
    b.Reaches ((List.range k).map fun offset => .contentBlockStop (base + offset)) fun b' =>
      b'.used = b.used ∧
        ∀ i, b'.opened i = if base + k ≤ i ∧ i < base + m then some .toolUse else none := by
  induction k with
  | zero => exact .nil ⟨rfl, hopn⟩
  | succ k ih =>
    rw [List.range_succ, List.map_append]
    refine (ih (Nat.le_of_succ_le hk)).append ?_
    rintro b' ⟨hused, hb'⟩
    have hopen : (b'.opened (base + k)).isSome := by
      rw [hb', if_pos ⟨Nat.le_refl _, by omega⟩]
      rfl
    obtain ⟨_, hacc, rfl⟩ := reaches_stop hopen
    refine ⟨_, hacc, hused, fun i => ?_⟩
    change b'.opened.remove (base + k) i = _
    rw [Table.remove_apply, hb']
    by_cases hi : i = base + k
    · rw [if_pos hi, if_neg (by omega)]
    rw [if_neg hi]
    exact if_congr (by omega) rfl rfl

theorem reaches_stop_one {type : BlockType}
    (hopn : ∀ j, b.opened j = if j = i then some type else none) :
    b.Reaches [.contentBlockStop i] (Closed b.used) := by
  have hopen : (b.opened i).isSome := by rw [hopn, if_pos rfl]; rfl
  obtain ⟨_, hacc, rfl⟩ := reaches_stop hopen
  refine ⟨_, hacc, rfl, fun j => ?_⟩
  change b.opened.remove i j = none
  rw [Table.remove_apply, hopn]
  split_ifs <;> rfl

theorem Tracks.reaches_stopOpenBlocks (h : Tracks c n b) :
    b.Reaches c.stopOpenBlocks (Closed b.used) := by
  have hopn := h.opened
  unfold stopOpenBlocks
  unfold Counters.openAt at hopn
  cases hlast : c.lastMessagesType with
  | none =>
    rw [hlast] at hopn
    exact .nil ⟨rfl, hopn⟩
  | text | thinking =>
    rw [hlast] at hopn
    exact reaches_stop_one hopn
  | tools =>
    rw [hlast] at hopn
    have hrun : ∀ i, b.opened i = if c.toolCallBaseIndex ≤ i ∧
        i < c.toolCallBaseIndex + (c.toolCallMaxIndexOffset + 1) then some .toolUse
        else none := by
      intro i
      rw [hopn]
      simp only [← Nat.add_assoc, Nat.lt_succ_iff]
    obtain ⟨b', hacc, hused, hcl⟩ := reaches_stops (Nat.le_refl _) hrun
    refine ⟨b', hacc, hused, fun i => ?_⟩
    rw [hcl, if_neg (by omega)]

/-- A fragment of a well-indexed run is accepted. -/
theorem RunOpen.reaches_fragment (h : RunOpen base n b) (hp : nextCall n p = some m) :
    b.Reaches (toolEvents base p.1 p.2) (RunOpen base m) := by
  have hnamed : b.Reaches
      (if p.2.name ≠ "" then [.contentBlockStart (base + p.1) (.toolUse p.2.id p.2.name)]
        else []) (fun b' => RunOpen base m b' ∧ p.1 < m) := by
    rcases nextCall_cases hp with ⟨hname, hidx, hm⟩ | ⟨hname, hidx, hm⟩
    · have hfr : base + p.1 ∉ b.used := by
        intro hmem
        have := h.used _ hmem
        omega
      obtain ⟨_, hacc, rfl⟩ := reaches_start (.toolUse p.2.id p.2.name) hfr
      rw [if_pos hname]
      refine ⟨_, hacc, ⟨?_, ?_⟩, by omega⟩
      · intro i hi
        rcases List.mem_cons.mp hi with rfl | hi
        · omega
        · have := h.used i hi
          omega
      · intro i
        change b.opened.put (base + p.1) .toolUse i = _
        rw [Table.put_apply, h.opened]
        by_cases hi : i = base + p.1
        · rw [if_pos hi, if_pos (by omega)]
        rw [if_neg hi]
        exact if_congr (by omega) rfl rfl
    · rw [if_neg (not_not.mpr hname)]
      subst hm
      exact .nil ⟨h, hidx⟩
  refine hnamed.append ?_
  rintro b' ⟨hb', hlt⟩
  split_ifs with hargs
  · have hopen : b'.opened (base + p.1) = some (BlockDelta.inputJson p.2.arguments).type := by
      rw [hb'.opened, if_pos (by omega)]
      rfl
    obtain ⟨_, hacc, rfl⟩ := reaches_delta (.inputJson p.2.arguments) hopen
    exact ⟨_, hacc, hb'⟩
  · exact .nil hb'

theorem RunOpen.reaches_fragments (h : RunOpen base n b) (hps : ps.foldlM nextCall n = some m) :
    b.Reaches (ps.flatMap fun p => toolEvents base p.1 p.2) (RunOpen base m) := by
  induction ps generalizing n b with
  | nil =>
    cases hps
    exact .nil h
  | cons p ps ih =>
    obtain ⟨k, hk, hrest⟩ := Option.bind_eq_some_iff.mp hps
    exact (h.reaches_fragment hk).append fun b' hb' => ih hb' hrest

/-- The counters before a piece of tool calls: a run is continued, or a new one is opened. -/
theorem Tracks.runOpen (h : Tracks c n b) (htls : c.lastMessagesType = .tools) :
    RunOpen c.toolCallBaseIndex n b := by
  have hct := h.count
  have hused := h.used
  have hopn := h.opened
  simp only [htls, if_true] at hct
  refine ⟨fun i hi => ?_, fun i => ?_⟩
  · have := hused i hi
    simp only [Counters.nextIndex, advance, htls] at this
    omega
  · rw [hopn, Counters.openAt, htls]
    exact if_congr (by omega) rfl rfl

theorem Tracks.of_runOpen (hm : m ≠ 0) (h : RunOpen base m b) :
    Tracks (.inRun base (m - 1)) m b := by
  refine ⟨?_, fun i hi => ?_, fun i => ?_⟩
  · simp only [inRun, if_true]
    omega
  · have := h.used i hi
    simp only [Counters.nextIndex, advance, inRun]
    omega
  · rw [h.opened, Counters.openAt, inRun]
    dsimp only
    exact if_congr (by omega) rfl rfl

/-- A run can be opened where the counters say, once the open blocks are stopped. -/
theorem Tracks.runOpen_zero {b' : Blocks} (h : Tracks c n b) (hb' : Closed b.used b') :
    RunOpen c.nextIndex 0 b' := by
  refine ⟨fun i hi => ?_, fun i => ?_⟩
  · rw [hb'.1] at hi
    exact h.used i hi
  · rw [hb'.2, if_neg (by omega)]

theorem Tracks.reaches_tools (h : Tracks c n b) (call : ToolCall) (calls : List ToolCall)
    (hcs : (offsets (call :: calls)).foldlM nextCall n = some m) :
    b.Reaches (c.nextTools (call :: calls)).2 (Tracks (c.nextTools (call :: calls)).1 m) := by
  have hmax := (foldl_max_of_nextCall hcs).1
  have hm : m ≠ 0 := ne_zero_of_nextCall (by simp [offsets]) hcs
  have hct := h.count
  by_cases htls : c.lastMessagesType = .tools
  · rw [if_pos htls] at hct
    rw [nextTools_of_tools htls, show c.toolCallMaxIndexOffset = n - 1 by omega, hmax]
    obtain ⟨b', hacc, hb'⟩ := (h.runOpen htls).reaches_fragments hcs
    exact ⟨b', hacc, .of_runOpen hm hb'⟩
  rw [if_neg htls] at hct
  subst hct
  rw [nextTools_of_ne htls, hmax]
  refine h.reaches_stopOpenBlocks.append fun b' hb' => ?_
  obtain ⟨b'', hacc, hb''⟩ := (h.runOpen_zero hb').reaches_fragments hcs
  exact ⟨b'', hacc, .of_runOpen hm hb''⟩

/-- The two kinds of prose, with the type of their blocks. -/
inductive IsProse : LastMessageType → BlockType → Prop where
  | text : IsProse .text .text
  | thinking : IsProse .thinking .thinking

variable {blockType : BlockType}

theorem IsProse.openAt {type : LastMessageType}
    (h : IsProse type blockType) (hc : c.lastMessagesType = type) (i : ℕ) :
    c.openAt i = if i = c.index then some blockType else none := by
  unfold Counters.openAt
  rw [hc]
  cases h <;> rfl

theorem IsProse.nextIndex {type : LastMessageType}
    (h : IsProse type blockType) (hc : c.lastMessagesType = type) : c.nextIndex = c.index + 1 := by
  unfold Counters.nextIndex advance
  rw [hc]
  cases h <;> rfl

theorem IsProse.ne_tools {type : LastMessageType} (h : IsProse type blockType) : type ≠ .tools := by
  cases h <;> exact nofun

theorem Tracks.reaches_prose {type : LastMessageType} {block : ContentBlock} {delta : BlockDelta}
    (h : Tracks c n b) (hprose : IsProse type delta.type) (htype : block.type = delta.type) :
    b.Reaches (c.nextPiece type block delta).2 (Tracks (c.nextPiece type block delta).1 0) := by
  unfold nextPiece
  by_cases hlast : c.lastMessagesType = type
  · rw [if_neg (not_not.mpr hlast)]
    have hopen : b.opened c.index = some delta.type := by
      rw [h.opened, hprose.openAt hlast, if_pos rfl]
    obtain ⟨_, hacc, rfl⟩ := reaches_delta delta hopen
    refine ⟨_, hacc, ?_, h.used, h.opened⟩
    rw [if_neg (hlast.trans_ne hprose.ne_tools)]
  rw [if_pos hlast]
  refine h.reaches_stopOpenBlocks.append ?_
  rintro b' ⟨hused, hcl⟩
  have hfr : c.advance.index ∉ b'.used := by
    rw [hused]
    exact fun hmem => Nat.lt_irrefl _ (h.used _ hmem)
  refine (reaches_start block hfr).append ?_
  rintro started rfl
  have hopen : b'.opened.put c.advance.index block.type c.advance.index = some delta.type := by
    rw [Table.put_self, htype]
  obtain ⟨_, hacc, rfl⟩ :=
    reaches_delta (b := ⟨c.advance.index :: b'.used, b'.opened.put c.advance.index block.type⟩)
      delta hopen
  refine ⟨_, hacc, (if_neg hprose.ne_tools).symm, fun i hi => ?_, fun i => ?_⟩
  · rw [hprose.nextIndex rfl]
    rcases List.mem_cons.mp hi with rfl | hi
    · exact Nat.lt_succ_self _
    · rw [hused] at hi
      exact Nat.lt_succ_of_lt (h.used i hi)
  · change b'.opened.put c.advance.index block.type i = _
    rw [hprose.openAt rfl, Table.put_apply, hcl, htype]

/-- A piece is accepted, if it continues or opens a run that is indexed from 0. -/
theorem Tracks.reaches_emit (h : Tracks c n b) {p : Piece}
    (hp : runIndex n p = some m) : b.Reaches (c.emit p).2 (Tracks (c.emit p).1 m) := by
  cases p with
  | tools call calls => exact h.reaches_tools call calls hp
  | thinking text =>
    cases hp
    exact h.reaches_prose .thinking rfl
  | text text =>
    cases hp
    exact h.reaches_prose .text rfl

theorem Tracks.reaches_emitAll (h : Tracks c n b) {ps : List Piece}
    (hps : ps.foldlM runIndex n = some m) :
    b.Reaches (c.emitAll ps).2 (Tracks (c.emitAll ps).1 m) := by
  induction ps generalizing c n b with
  | nil =>
    cases hps
    exact .nil h
  | cons p ps ih =>
    obtain ⟨k, hk, hrest⟩ := Option.bind_eq_some_iff.mp hps
    exact (h.reaches_emit hk).append fun b' hb' => ih hb' hrest

theorem reaches_head (r : Reading) (estimate : ℤ) :
    b.Reaches (r.head estimate) fun b' => b' = b := by
  unfold Reading.head
  split_ifs
  · exact ⟨b, rfl, rfl⟩
  · exact .nil rfl

theorem reaches_closing (r : Reading) (finishReason : String) (h : ∀ i, b.opened i = none) :
    b.Reaches (r.closing finishReason) fun _ => True := by
  have hcl : (b.used.all fun i => (b.opened i).isNone) = true := by simp [h]
  refine ⟨b, ?_, trivial⟩
  unfold Reading.closing
  split <;> simp [acceptAll, accept, hcl]

/-- Fragments of which some may have been left out: a new call takes an index that was not used,
and other fragments have one that was. -/
def Sparse : ℕ → List (ℕ × ToolCall) → Prop
  | _, [] => True
  | n, p :: ps => ∃ m, n ≤ m ∧
      (p.2.name ≠ "" ∧ p.1 = m ∧ Sparse (m + 1) ps ∨ p.2.name = "" ∧ p.1 < m ∧ Sparse m ps)

theorem Sparse.mono (h : Sparse m ps) (hle : n ≤ m) : Sparse n ps := by
  cases ps with
  | nil => trivial
  | cons p ps =>
    obtain ⟨k, hk, hp⟩ := h
    exact ⟨k, hle.trans hk, hp⟩

theorem Sparse.of_sublist {all : List (ℕ × ToolCall)} (h : ps.Sublist all)
    (hall : all.foldlM nextCall n = some m) : Sparse n ps := by
  induction h generalizing n with
  | slnil => trivial
  | cons p h ih =>
    obtain ⟨k, hk, hrest⟩ := Option.bind_eq_some_iff.mp hall
    refine (ih hrest).mono ?_
    rcases nextCall_cases hk with ⟨-, -, hct⟩ | ⟨-, -, hct⟩ <;> omega
  | cons_cons p h ih =>
    obtain ⟨k, hk, hrest⟩ := Option.bind_eq_some_iff.mp hall
    refine ⟨n, Nat.le_refl n, ?_⟩
    rcases nextCall_cases hk with ⟨hname, hidx, rfl⟩ | ⟨hname, hidx, rfl⟩
    · exact .inl ⟨hname, hidx, ih hrest⟩
    · exact .inr ⟨hname, hidx, ih hrest⟩

theorem Sparse.rest {rest : List (ℕ × ToolCall)} (h : Sparse m (ps ++ rest))
    (hle : n ≤ m) (hps : ps.foldlM nextCall n = some k) : ∃ m', k ≤ m' ∧ Sparse m' rest := by
  induction ps generalizing n m with
  | nil =>
    cases hps
    exact ⟨m, hle, h⟩
  | cons p ps ih =>
    obtain ⟨j, hj, hrest⟩ := Option.bind_eq_some_iff.mp hps
    obtain ⟨l, hl, ⟨hname, hidx, hsp⟩ | ⟨hname, hidx, hsp⟩⟩ := h
    · rcases nextCall_cases hj with ⟨-, hindex', hct⟩ | ⟨hname', -, -⟩
      · exact ih hsp (by omega) hrest
      · exact absurd hname' hname
    · rcases nextCall_cases hj with ⟨hname', -, -⟩ | ⟨-, -, hct⟩
      · exact absurd hname hname'
      · exact ih hsp (by omega) hrest

/-- A block below the highest offset `k` is not open, and no later fragment starts it. -/
def Hole (base k m : ℕ) (b : Blocks) : Prop :=
  ∃ offset, offset ≤ k ∧ offset < m ∧ b.opened (base + offset) = none

theorem acceptAll_stops_eq_none {offsets : List ℕ} {offset : ℕ} (h : offset ∈ offsets)
    (hnone : b.opened (base + offset) = none) :
    b.acceptAll (offsets.map fun o => .contentBlockStop (base + o)) = none := by
  induction offsets generalizing b with
  | nil => cases h
  | cons o os ih =>
    rw [List.map_cons, acceptAll_cons, accept]
    by_cases hopen : (b.opened (base + o)).isSome
    · have hne : offset ≠ o := by
        rintro rfl
        rw [hnone] at hopen
        cases hopen
      have hmem : offset ∈ os := (List.mem_cons.mp h).resolve_left hne
      rw [if_pos hopen]
      refine ih hmem ?_
      change b.opened.remove (base + o) (base + offset) = none
      rw [Table.remove_apply, if_neg (by omega), hnone]
    · rw [if_neg hopen]
      rfl

/-- The events are rejected, or they lead to what satisfies `P`. -/
def Blocks.Leads (b : Blocks) (events : List ClaudeEvent) (P : Blocks → Prop) : Prop :=
  ∀ b', b.acceptAll events = some b' → P b'

theorem Blocks.Leads.append {es es' : List ClaudeEvent} {P Q : Blocks → Prop}
    (h : b.Leads es P) (h' : ∀ b', P b' → b'.Leads es' Q) : b.Leads (es ++ es') Q := by
  intro b'' hb''
  rw [acceptAll_append] at hb''
  obtain ⟨b', hb', hrest⟩ := Option.bind_eq_some_iff.mp hb''
  exact h' b' (h b' hb') b'' hrest

theorem Blocks.Reaches.leads {es : List ClaudeEvent} {P : Blocks → Prop} (h : b.Reaches es P) :
    b.Leads es P := by
  obtain ⟨b', hb', hP⟩ := h
  intro b'' hb''
  cases hb'.symm.trans hb''
  exact hP

theorem Hole.leads_stopOpenBlocks (h : Hole base k m b) :
    b.Leads (inRun base k).stopOpenBlocks fun _ => False := by
  obtain ⟨offset, hle, -, hnone⟩ := h
  have hreject : b.acceptAll (inRun base k).stopOpenBlocks = none :=
    acceptAll_stops_eq_none (List.mem_range.mpr (Nat.lt_succ_of_le hle)) hnone
  intro b' hb'
  rw [hreject] at hb'
  cases hb'

theorem leads_fragment {j : ℕ} (hj : b.opened j = none) (hp : p.2.name = "" ∨ j ≠ base + p.1) :
    b.Leads (toolEvents base p.1 p.2) fun b' => b'.opened j = none := by
  have hst : b.Leads
      (if p.2.name ≠ "" then [.contentBlockStart (base + p.1) (.toolUse p.2.id p.2.name)]
        else []) fun b' => b'.opened j = none := by
    intro b' hb'
    split_ifs at hb' with hname
    · rw [acceptAll_cons, accept] at hb'
      split_ifs at hb' with hused
      · cases hb'
      · cases hb'
        change b.opened.put (base + p.1) _ j = none
        rw [Table.put_apply, if_neg (hp.resolve_left hname), hj]
    · cases hb'
      exact hj
  refine hst.append fun b' hb' b'' hb'' => ?_
  split_ifs at hb'' with hargs
  · rw [acceptAll_cons, accept] at hb''
    split_ifs at hb'' with hopen
    · cases hb''
      exact hb'
    · cases hb''
  · cases hb''
    exact hb'

theorem Hole.mono {m' : ℕ} (h : Hole base k m b) (hle : m ≤ m') : Hole base k m' b := by
  obtain ⟨offset, hk, hm, hnone⟩ := h
  exact ⟨offset, hk, hm.trans_le hle, hnone⟩

theorem Hole.leads_fragments (h : Hole base k m b)
    {rest : List (ℕ × ToolCall)} (hps : Sparse m (ps ++ rest)) :
    b.Leads (ps.flatMap fun p => toolEvents base p.1 p.2) fun b' =>
      ∃ m', Hole base (ps.foldl (fun k p => max k p.1) k) m' b' ∧ Sparse m' rest := by
  induction ps generalizing k m b with
  | nil =>
    intro b' hb'
    cases hb'
    exact ⟨m, h, hps⟩
  | cons p ps ih =>
    obtain ⟨offset, hk, hm, hnone⟩ := h
    obtain ⟨l, hl, hp⟩ := hps
    have hoth : p.2.name = "" ∨ base + offset ≠ base + p.1 := by
      rcases hp with ⟨-, hidx, -⟩ | ⟨hname, -, -⟩
      · exact .inr (by omega)
      · exact .inl hname
    refine (leads_fragment hnone hoth).append fun b' hb' => ?_
    have hhole : Hole base (max k p.1) m b' := ⟨offset, le_max_of_le_left hk, hm, hb'⟩
    rcases hp with ⟨-, -, hsp⟩ | ⟨-, -, hsp⟩
    · exact ih (hhole.mono (by omega)) hsp
    · exact ih (hhole.mono hl) hsp

/-- A run that is not indexed from 0 is rejected or leaves a hole. -/
theorem RunOpen.leads_fragments (h : RunOpen base n b) (hle : n ≤ m)
    {rest : List (ℕ × ToolCall)} (hps : Sparse m (ps ++ rest))
    (hfail : ps.foldlM nextCall n = none) :
    b.Leads (ps.flatMap fun p => toolEvents base p.1 p.2) fun b' =>
      ∃ m', Hole base (ps.foldl (fun k p => max k p.1) (n - 1)) m' b' ∧ Sparse m' rest := by
  induction ps generalizing n m b with
  | nil => cases hfail
  | cons p ps ih =>
    rw [List.foldlM_cons] at hfail
    rw [List.flatMap_cons, List.foldl_cons]
    obtain ⟨l, hl, ⟨hname, hidx, hsp⟩ | ⟨hname, hidx, hsp⟩⟩ := hps
    · by_cases hn : l = n
      · have hnext : nextCall n p = some (n + 1) := by
          rw [nextCall, if_pos hname, if_pos (hidx.trans hn)]
        rw [hnext] at hfail
        rw [show max (n - 1) p.1 = n + 1 - 1 by omega]
        refine (h.reaches_fragment hnext).leads.append fun b' hb' => ?_
        exact ih hb' (by omega) hsp hfail
      · have hnone : b.opened (base + n) = none := by rw [h.opened, if_neg (by omega)]
        refine (leads_fragment hnone (.inr (by omega))).append fun b' hb' => ?_
        have hhole : Hole base (max (n - 1) p.1) (l + 1) b' :=
          ⟨n, le_max_of_le_right (by omega), by omega, hb'⟩
        exact hhole.leads_fragments hsp
    by_cases hn : p.1 < n
    · have hnext : nextCall n p = some n := by
        rw [nextCall, if_neg (not_not.mpr hname), if_pos hn]
      rw [hnext] at hfail
      rw [show max (n - 1) p.1 = n - 1 by omega]
      refine (h.reaches_fragment hnext).leads.append fun b' hb' => ?_
      exact ih hb' (by omega) hsp hfail
    · have hnone : b.opened (base + p.1) = none := by rw [h.opened, if_neg (by omega)]
      refine (leads_fragment hnone (.inl hname)).append fun b' hb' => ?_
      have hhole : Hole base (max (n - 1) p.1) l b' := ⟨p.1, le_max_right _ _, hidx, hb'⟩
      exact hhole.leads_fragments hsp

def Piece.fragments : Piece → List (ℕ × ToolCall)
  | .tools call calls => offsets (call :: calls)
  | .thinking _ | .text _ => []

/-- With a hole the message cannot end. -/
theorem Hole.leads_emitAll {ps : List Piece} (h : Hole base k m b)
    (hps : Sparse m (ps.flatMap Piece.fragments)) : b.Leads (((inRun base k).emitAll ps).2 ++
      ((inRun base k).emitAll ps).1.stopOpenBlocks) fun _ => False := by
  induction ps generalizing k m b with
  | nil => exact h.leads_stopOpenBlocks
  | cons p ps ih =>
    rw [emitAll, List.append_assoc]
    cases p with
    | tools call calls =>
      refine (h.leads_fragments hps).append ?_
      rintro b' ⟨m', hhole, hrest⟩
      exact ih hhole hrest
    | thinking text | text text =>
      rw [emit, nextPiece, if_pos (by simp [inRun]), List.append_assoc]
      exact h.leads_stopOpenBlocks.append fun b' hb' => hb'.elim

/-- Fragments that are not indexed from 0 are rejected or leave a hole. -/
theorem Tracks.leads_tools {rest : List (ℕ × ToolCall)} (h : Tracks c n b) (hle : n ≤ m)
    {call : ToolCall} {calls : List ToolCall} (hps : Sparse m (offsets (call :: calls) ++ rest))
    (hfail : (offsets (call :: calls)).foldlM nextCall n = none) :
    ∃ base k, (c.nextTools (call :: calls)).1 = .inRun base k ∧
      b.Leads (c.nextTools (call :: calls)).2 fun b' =>
        ∃ m', Hole base k m' b' ∧ Sparse m' rest := by
  have hct := h.count
  by_cases htls : c.lastMessagesType = .tools
  · rw [if_pos htls] at hct
    rw [nextTools_of_tools htls, show c.toolCallMaxIndexOffset = n - 1 by omega]
    exact ⟨_, _, rfl, (h.runOpen htls).leads_fragments hle hps hfail⟩
  rw [if_neg htls] at hct
  subst hct
  rw [nextTools_of_ne htls]
  refine ⟨_, _, rfl, h.reaches_stopOpenBlocks.leads.append fun b' hb' => ?_⟩
  exact (h.runOpen_zero hb').leads_fragments hle hps hfail

/-- A message with a run that is not indexed from 0 cannot end. -/
theorem Tracks.leads_emitAll {ps : List Piece} (h : Tracks c n b) (hle : n ≤ m)
    (hps : Sparse m (ps.flatMap Piece.fragments)) (hfail : ps.foldlM runIndex n = none) :
    b.Leads ((c.emitAll ps).2 ++ (c.emitAll ps).1.stopOpenBlocks) fun _ => False := by
  induction ps generalizing c n m b with
  | nil => cases hfail
  | cons p ps ih =>
    rw [emitAll, List.append_assoc]
    rw [List.foldlM_cons] at hfail
    cases hp : runIndex n p with
    | some k =>
      rw [hp] at hfail
      have hrest : ∃ m', k ≤ m' ∧ Sparse m' (ps.flatMap Piece.fragments) := by
        cases p with
        | tools call calls => exact hps.rest hle hp
        | thinking text | text text =>
          cases hp
          exact ⟨m, Nat.zero_le m, hps⟩
      obtain ⟨m', hk, hsp⟩ := hrest
      exact (h.reaches_emit hp).leads.append fun b' hb' => ih hb' hk hsp hfail
    | none =>
      cases p with
      | tools call calls =>
        obtain ⟨base, k, hcts, hleads⟩ := h.leads_tools hle hps hp
        rw [emit, hcts]
        refine hleads.append ?_
        rintro b' ⟨m', hhole, hrest⟩
        exact hhole.leads_emitAll hrest
      | thinking text | text text => cases hp

end

/-- The fragments of a stream carry indices: a new call takes the next one and gives its name in
its first fragment only. -/
structure IndexedCalls (chunks : List Chunk) : Prop where
  oneChoice : ∀ c ∈ chunks, c.choices.length ≤ 1
  index : ∀ c ∈ chunks, ∀ call ∈ c.calls, call.index.isSome
  calls : ((chunks.flatMap fun c => offsets c.calls).foldlM nextCall 0).isSome

/-- The calls are counted from 1: the first one, and no other, is for a first chunk. -/
def Counted : List Reading → Prop
  | [] => True
  | r :: rs => r.first = true ∧ ∀ r' ∈ rs, r'.first = false

/-- In what is converted, each run of fragments is indexed from 0. -/
def RunsFromZero (rs : List Reading) : Prop := ((convertedPieces rs).foldlM runIndex 0).isSome

instance (rs : List Reading) : Decidable (RunsFromZero rs) := inferInstanceAs (Decidable (_ = true))

variable (calls : List ToolCall)

theorem fragments_toolsPiece :
    (toolsPiece calls).flatMap Piece.fragments = offsets calls := by
  cases calls with
  | nil => rfl
  | cons call calls => simp [toolsPiece, Piece.fragments]

theorem fragments_prose (d : Delta) : d.prose.toList.flatMap Piece.fragments = [] := by
  unfold Delta.prose
  split_ifs <;> rfl

theorem offsets_take_one :
    (offsets (calls.take 1)).Sublist (offsets calls) := by
  cases calls with
  | nil => exact List.Sublist.refl _
  | cons call calls => simp [offsets, List.mapIdx_cons]

theorem fragments_pieces (r : Reading) :
    (r.pieces.flatMap Piece.fragments).Sublist (offsets r.chunk.calls) := by
  unfold Reading.pieces Chunk.calls
  cases r.chunk.choices with
  | nil => exact List.Sublist.refl _
  | cons choice choices =>
    dsimp only [List.head?_cons, Option.map_some, Option.getD_some]
    split_ifs
    · rw [List.flatMap_append, fragments_toolsPiece, fragments_prose, List.append_nil]
      exact offsets_take_one _
    · exact List.nil_sublist _
    · rw [fragments_toolsPiece]
    · rw [fragments_prose]
      exact List.nil_sublist _

theorem fragments_convertedPieces (rs : List Reading) :
    ((convertedPieces rs).flatMap Piece.fragments).Sublist
      ((rs.map Reading.chunk).flatMap fun c => offsets c.calls) := by
  induction rs with
  | nil => exact List.Sublist.refl _
  | cons r rs ih =>
    cases hends : r.ends with
    | true =>
      rw [convertedPieces_of_ends hends]
      exact (fragments_pieces r).trans (List.sublist_append_left _ _)
    | false =>
      rw [convertedPieces_of_not_ends hends, List.flatMap_append]
      exact (fragments_pieces r).append ih

/-- The first fragment of a stream starts call 0. -/
theorem head_of_nextCall {c : Chunk} {cs : List Chunk} {call : ToolCall}
    (h : (((c :: cs).flatMap fun c => offsets c.calls).foldlM nextCall 0).isSome)
    (hcall : call ∈ c.calls.head?) : call.index.getD 0 = 0 ∧ call.name ≠ "" := by
  obtain ⟨calls, hcs⟩ : ∃ calls, c.calls = call :: calls := by
    cases hc : c.calls with
    | nil =>
      rw [hc] at hcall
      cases hcall
    | cons first calls =>
      rw [hc] at hcall
      cases hcall
      exact ⟨calls, rfl⟩
  obtain ⟨n, hn⟩ := Option.isSome_iff_exists.mp h
  rw [List.flatMap_cons, hcs, offsets, List.mapIdx_cons, List.cons_append,
    List.foldlM_cons] at hn
  obtain ⟨k, hk, -⟩ := Option.bind_eq_some_iff.mp hn
  rcases nextCall_cases hk with ⟨hname, hidx, -⟩ | ⟨-, hidx, -⟩
  · exact ⟨hidx, hname⟩
  · exact absurd hidx (Nat.not_lt_zero _)

theorem IndexedCalls.regular {rs : List Reading} (h : IndexedCalls (rs.map Reading.chunk))
    (hct : Counted rs) : Regular .start rs := by
  cases rs with
  | nil => exact .of_next (fun r hr => absurd hr List.not_mem_nil) _
  | cons r rs =>
    refine ⟨fun r' hr' => ?_, hct.2⟩
    cases hr'
    exact Reading.content_first hct.1 fun call hcall => head_of_nextCall h.calls hcall

theorem tracks_start : Tracks .start 0 .start where
  count := rfl
  used i hi := by cases hi
  opened _ := rfl

theorem reaches_headEvents (b : Blocks) (estimate : ℤ) (rs : List Reading) :
    b.Reaches (headEvents estimate rs) fun b' => b' = b := by
  cases rs with
  | nil => exact .nil rfl
  | cons r rs => exact reaches_head r estimate

/-- The blocks of a message are in order if each run of converted fragments is indexed from 0.
If the message ends, they are in order only then. -/
theorem block_discipline_iff (estimate : ℤ) (rs : List Reading) (hcounted : Counted rs)
    (hcalls : IndexedCalls (rs.map Reading.chunk)) :
    (RunsFromZero rs → Disciplined (readAll estimate .start rs).2) ∧ ((∃ r ∈ rs, r.ends = true) →
        Disciplined (readAll estimate .start rs).2 → RunsFromZero rs) := by
  have hreg : Regular ClaudeConvertInfo.start.toCounters rs := hcalls.regular hcounted
  have hhead := reaches_headEvents .start estimate rs
  constructor
  · intro hruns
    obtain ⟨n, hn⟩ := Option.isSome_iff_exists.mp hruns
    have hacc : start.Reaches (readAll estimate .start rs).2 fun _ => True := by
      by_cases hend : ∃ r ∈ rs, r.ends = true
      · obtain ⟨r, finishReason, hev⟩ := readAll_events_of_end rfl hreg hend
        rw [hev]
        refine hhead.append ?_
        rintro _ rfl
        refine (tracks_start.reaches_emitAll hn).append fun b hb => ?_
        refine hb.reaches_stopOpenBlocks.append fun b' hb' => ?_
        exact reaches_closing r finishReason hb'.2
      have hopen : ∀ r ∈ rs, r.ends = false := by
        intro r hr
        exact Bool.eq_false_iff.mpr fun hends => hend ⟨r, hr, hends⟩
      rw [readAll_events_of_open rfl hreg hopen]
      refine hhead.append ?_
      rintro _ rfl
      obtain ⟨b, hb, -⟩ := tracks_start.reaches_emitAll hn
      exact ⟨b, hb, trivial⟩
    obtain ⟨b, hb, -⟩ := hacc
    exact Option.isSome_iff_exists.mpr ⟨b, hb⟩
  · intro hend hdisc
    obtain ⟨n, hn⟩ := Option.isSome_iff_exists.mp hcalls.calls
    have hsp := Sparse.of_sublist (fragments_convertedPieces rs) hn
    obtain ⟨b, hb⟩ := Option.isSome_iff_exists.mp hdisc
    obtain ⟨r, finishReason, hev⟩ := readAll_events_of_end rfl hreg hend
    rw [hev, ← List.append_assoc (emitAll _ _).2] at hb
    refine Option.isSome_iff_ne_none.mpr fun hfail => ?_
    have hleads := tracks_start.leads_emitAll (Nat.le_refl 0) hsp hfail
    refine (hhead.leads.append ?_ : start.Leads _ fun _ => False) b hb
    rintro _ rfl
    exact hleads.append fun b' hb' => hb'.elim

def fragmentChunk (index : ℕ) (id name arguments : String) : Chunk :=
  .single { Delta.empty with toolCalls := some [⟨some index, id, name, arguments⟩] } none none

def callThenText : List Chunk :=
  [fragmentChunk 0 "call-0" "f" "\x7b", fragmentChunk 0 "" "" "\x7d", textChunk "Hi", stopChunk]

theorem block_discipline_iff_callThenText :
    Disciplined (readAll 5 .start (readings 0 none callThenText)).2 :=
  (block_discipline_iff 5 (readings 0 none callThenText) ⟨rfl, by decide⟩
    ⟨by decide, by decide, by decide⟩).1 (by decide)

def callTextCall : List Chunk :=
  [fragmentChunk 0 "call-0" "f" "\x7b\x7d", textChunk "Hi",
    fragmentChunk 1 "call-1" "g" "\x7b\x7d", stopChunk]

/-- The second call opens block 3 after the text in block 1, and blocks 2 and 3 are stopped. -/
theorem unstarted_block_stopped :
    Counted (readings 0 none callTextCall) ∧ IndexedCalls callTextCall ∧
      (readAll 5 .start (readings 0 none callTextCall)).2 = [.messageStart "chatcmpl-1" "gpt-4o" 5,
          .contentBlockStart 0 (.toolUse "call-0" "f"),
          .contentBlockDelta 0 (.inputJson "\x7b\x7d"), .contentBlockStop 0,
          .contentBlockStart 1 .text, .contentBlockDelta 1 (.text "Hi"), .contentBlockStop 1,
          .contentBlockStart 3 (.toolUse "call-1" "g"),
          .contentBlockDelta 3 (.inputJson "\x7b\x7d"),
          .contentBlockStop 2, .contentBlockStop 3,
          .messageDelta "end_turn" ⟨5, 2, 0, 0, none⟩, .messageStop] ∧
      ¬Disciplined (readAll 5 .start (readings 0 none callTextCall)).2 := by
  refine ⟨⟨rfl, by decide⟩, ⟨by decide, by decide, by decide⟩, by decide +kernel,
    by decide +kernel⟩

end NewApi.Chat
