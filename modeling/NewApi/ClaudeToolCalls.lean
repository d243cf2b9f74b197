import NewApi.ClaudeUpstream

/-!
# Tool calls of streamed answers

A client of the OpenAI format puts the fragments of tool calls together by their index. The index is
computed from that of the content block alone: it is one less, as if a text came first.
-/
namespace NewApi.ClaudeUpstream
open Chat

inductive ThinkingDelta where
  | thinking (text : String)
  | signature

/-- A content block with its deltas. A text block may start with some text. -/
inductive StreamBlock where
  | text (start : Option String) (deltas : List String)
  | thinking (deltas : List ThinkingDelta)
  | toolUse (id name : String) (deltas : List String)

open StreamBlock

/-- A tool call as the client has put it together. -/
structure Call where
  (id name arguments : String)
  deriving DecidableEq

namespace StreamBlock

def texts : StreamBlock → List String
  | .text start deltas => start.toList ++ deltas
  | _ => []

def call : StreamBlock → Option Call
  | .toolUse id name deltas => some ⟨id, name, String.join deltas⟩
  | _ => none

def startEvent (i : ℕ) (block : ClaudeMediaMessage) : ClaudeResponse :=
  { ClaudeResponse.ofType .contentBlockStart with index := some i, contentBlock := some block }

def deltaEvent (i : ℕ) (delta : ClaudeMediaMessage) : ClaudeResponse :=
  { ClaudeResponse.ofType .contentBlockDelta with index := some i, delta := some delta }

def stopEvent (i : ℕ) : ClaudeResponse :=
  { ClaudeResponse.ofType .contentBlockStop with index := some i }

/-- The events of the block with an index, without the one that stops it. -/
def filling (i : ℕ) : StreamBlock → List ClaudeResponse
  | .text start deltas =>
    startEvent i { ClaudeMediaMessage.ofType .text with text := start } ::
      deltas.map fun t => deltaEvent i { ClaudeMediaMessage.ofType .textDelta with text := some t }
  | .thinking deltas =>
    startEvent i { ClaudeMediaMessage.ofType .thinking with thinking := some "" } :: deltas.map fun
        | .thinking t =>
          deltaEvent i { ClaudeMediaMessage.ofType .thinkingDelta with thinking := some t }
        | .signature => deltaEvent i (ClaudeMediaMessage.ofType .signatureDelta)
  | .toolUse id name deltas =>
    startEvent i { ClaudeMediaMessage.ofType .toolUse with id, name } :: deltas.map fun json =>
        deltaEvent i { ClaudeMediaMessage.ofType .inputJsonDelta with partialJson := some json }

def events (b : StreamBlock × ℕ) : List ClaudeResponse := b.1.filling b.2 ++ [stopEvent b.2]

end StreamBlock

/-- A stream with the blocks, indexed from 0. There may be pings everywhere. -/
structure Carries (blocks : List StreamBlock) (events : List ClaudeResponse) : Prop where
  noError : ∀ r ∈ events, r.error = none
  split : ∃ start last stop : ClaudeResponse,
    start.type = .messageStart ∧ last.type = .messageDelta ∧ stop.type = .messageStop ∧
    events.filter (fun r => decide (r.type ≠ .ping)) =
      start :: (blocks.zipIdx.flatMap StreamBlock.events ++ [last, stop])

/-- The calls with the positions of their blocks. -/
def toolBlocks (blocks : List StreamBlock) : List (ℕ × Call) :=
  blocks.zipIdx.filterMap fun b => b.1.call.map fun c => (b.2, c)

/-- The contents that the client gets. -/
def contents (sent : List Sent) : List String :=
  sent.flatMap fun
    | .chunk (some c) => c.choices.flatMap fun choice => choice.delta.content.toList
    | _ => []

def fragments (sent : List Sent) : List ToolCall :=
  sent.flatMap fun
    | .chunk (some c) => c.choices.flatMap fun choice => choice.delta.calls
    | _ => []

/-- The id and the name are in the first fragment that has them. -/
def Call.extend (c : Call) (t : ToolCall) : Call :=
  ⟨if c.id = "" then t.id else c.id, if c.name = "" then t.name else c.name,
    c.arguments ++ t.arguments⟩

/-- The calls with their indices after one more fragment. -/
def addFragment (calls : List (ℕ × Call)) (t : ToolCall) : List (ℕ × Call) :=
  let i := t.index.getD 0
  if i ∈ calls.map Prod.fst then
    calls.map fun c => if c.1 = i then (i, c.2.extend t) else c
  else calls ++ [(i, ⟨t.id, t.name, t.arguments⟩)]

/-- What a client makes of the fragments. -/
def accumulate (fragments : List ToolCall) : List (ℕ × Call) := fragments.foldl addFragment []

def callFragments (i : ℕ) (id name : String) (deltas : List String) : List ToolCall :=
  ⟨some i, id, name, ""⟩ :: deltas.map fun json => ⟨some i, "", "", json⟩

theorem foldl_addFragment_deltas {i : ℕ} (calls : List (ℕ × Call)) (id name args : String)
    (deltas : List String) (hnew : i ∉ calls.map Prod.fst) :
    (deltas.map fun json => (⟨some i, "", "", json⟩ : ToolCall)).foldl addFragment
        (calls ++ [(i, ⟨id, name, args⟩)]) =
      calls ++ [(i, ⟨id, name, args ++ String.join deltas⟩)] := by
  induction deltas generalizing args with
  | nil => simp [String.join]
  | cons json deltas ih =>
    have hkeep : calls.map (fun c => if c.1 = i then (i, c.2.extend ⟨some i, "", "", json⟩) else c) =
        calls := by
      refine (List.map_congr_left fun c hc => ?_).trans (List.map_id calls)
      have hoth : c.1 ≠ i := by
        intro h
        rw [← h] at hnew
        exact hnew (List.mem_map_of_mem hc)
      rw [if_neg hoth]
      rfl
    have hstep : addFragment (calls ++ [(i, ⟨id, name, args⟩)]) ⟨some i, "", "", json⟩ =
        calls ++ [(i, ⟨id, name, args ++ json⟩)] := by
      unfold addFragment
      simp only [Option.getD_some, List.map_append, List.map_cons, List.map_nil]
      rw [if_pos (by simp), hkeep]
      simp [Call.extend]
    rw [List.map_cons, List.foldl_cons, hstep, ih]
    simp [String.append_assoc]

/-- The fragments of a call with a new index are put together to the call. -/
theorem foldl_addFragment_call {i : ℕ} (calls : List (ℕ × Call)) (id name : String)
    (deltas : List String) (hnew : i ∉ calls.map Prod.fst) :
    (callFragments i id name deltas).foldl addFragment calls =
      calls ++ [(i, ⟨id, name, String.join deltas⟩)] := by
  have hfst : addFragment calls ⟨some i, id, name, ""⟩ = calls ++ [(i, ⟨id, name, ""⟩)] :=
    if_neg hnew
  rw [callFragments, List.foldl_cons, hfst, foldl_addFragment_deltas calls id name "" deltas hnew,
    String.empty_append]

/-- The indices that have been seen, after one more. -/
def addKey (keys : List ℕ) (i : ℕ) : List ℕ := if i ∈ keys then keys else keys ++ [i]

theorem keys_addFragment (calls : List (ℕ × Call)) (t : ToolCall) :
    (addFragment calls t).map Prod.fst = addKey (calls.map Prod.fst) (t.index.getD 0) := by
  unfold addFragment addKey
  dsimp only
  split_ifs with hseen
  · rw [List.map_map]
    refine List.map_congr_left fun c _ => ?_
    rw [Function.comp_apply]
    split_ifs with hsame
    · exact hsame.symm
    · rfl
  · simp

theorem addKey_addKey (keys : List ℕ) (i : ℕ) : addKey (addKey keys i) i = addKey keys i := by
  unfold addKey
  by_cases hseen : i ∈ keys <;> simp [hseen]

theorem keys_foldl_call (i : ℕ) (id name : String) (deltas : List String)
    (calls : List (ℕ × Call)) :
    ((callFragments i id name deltas).foldl addFragment calls).map Prod.fst =
      addKey (calls.map Prod.fst) i := by
  have hdeltas : ∀ calls' : List (ℕ × Call), addKey (calls'.map Prod.fst) i = calls'.map Prod.fst →
      ((deltas.map fun json => (⟨some i, "", "", json⟩ : ToolCall)).foldl addFragment calls').map
        Prod.fst = calls'.map Prod.fst := by
    induction deltas with
    | nil => intro calls' _; rfl
    | cons json deltas ih =>
      intro calls' hseen
      have hkeys : (addFragment calls' ⟨some i, "", "", json⟩).map Prod.fst =
          calls'.map Prod.fst := by
        rw [keys_addFragment]
        exact hseen
      rw [List.map_cons, List.foldl_cons, ih _ (by rw [hkeys, hseen]), hkeys]
  have hfst := keys_addFragment calls ⟨some i, id, name, ""⟩
  rw [callFragments, List.foldl_cons, hdeltas _ (by rw [hfst]; exact addKey_addKey _ i), hfst]
  rfl

/-- Of the indices, those are added that are new. -/
theorem foldl_addKey (is keys : List ℕ) :
    ∃ new, new.Sublist is ∧ is.foldl addKey keys = keys ++ new := by
  induction is generalizing keys with
  | nil => exact ⟨[], .slnil, by simp⟩
  | cons i is ih =>
    obtain ⟨new, hsub, heq⟩ := ih (addKey keys i)
    rw [List.foldl_cons, heq]
    unfold addKey
    split_ifs
    · exact ⟨new, hsub.cons i, rfl⟩
    · exact ⟨i :: new, hsub.cons_cons i, by simp⟩

/-- A call with the index that its fragments carry. -/
structure IndexedCall where
  index : ℕ
  (id name : String)
  deltas : List String

namespace IndexedCall

def fragments (c : IndexedCall) : List ToolCall := callFragments c.index c.id c.name c.deltas

/-- The call that a client should have. -/
def whole (c : IndexedCall) : ℕ × Call := (c.index, ⟨c.id, c.name, String.join c.deltas⟩)

end IndexedCall

open IndexedCall (index)

variable (cs : List IndexedCall)

theorem foldl_addFragment_of_nodup (calls : List (ℕ × Call))
    (h : (calls.map Prod.fst ++ cs.map index).Nodup) :
    (cs.flatMap IndexedCall.fragments).foldl addFragment calls =
      calls ++ cs.map IndexedCall.whole := by
  induction cs generalizing calls with
  | nil => simp
  | cons c cs ih =>
    have hnew : c.index ∉ calls.map Prod.fst := by
      intro hmem
      exact (List.nodup_append.mp h).2.2 _ hmem _ List.mem_cons_self rfl
    rw [List.flatMap_cons, List.foldl_append, IndexedCall.fragments,
      foldl_addFragment_call calls _ _ _ hnew, ih]
    · simp [IndexedCall.whole]
    · simpa using h

theorem keys_foldl (calls : List (ℕ × Call)) :
    ((cs.flatMap IndexedCall.fragments).foldl addFragment calls).map Prod.fst =
      (cs.map index).foldl addKey (calls.map Prod.fst) := by
  induction cs generalizing calls with
  | nil => rfl
  | cons c cs ih =>
    rw [List.flatMap_cons, List.foldl_append, ih, IndexedCall.fragments, keys_foldl_call,
      List.map_cons, List.foldl_cons]

/-- The calls are put together with the indices 0, 1, 2 and so on if and only if they have them. -/
theorem accumulate_eq_iff : accumulate (cs.flatMap IndexedCall.fragments) =
        (cs.map fun c => c.whole.2).zipIdx.map Prod.swap ↔
      cs.map index = List.range cs.length := by
  constructor
  · intro h
    have hkeys := keys_foldl cs []
    have hswap : ((cs.map fun c => c.whole.2).zipIdx.map Prod.swap).map Prod.fst =
        List.range cs.length := by
      rw [List.map_map, show Prod.fst ∘ Prod.swap = (Prod.snd : Call × ℕ → ℕ) from rfl]
      simp [List.range_eq_range']
    unfold accumulate at h
    rw [h, hswap, List.map_nil] at hkeys
    -- as many indices as calls have been seen, so all of them were new
    obtain ⟨new, hsub, hnew⟩ := foldl_addKey (cs.map index) []
    rw [← hkeys, List.nil_append] at hnew
    rw [← hsub.eq_of_length (by rw [← hnew]; simp)]
    exact hnew.symm
  · intro h
    have hnd : ([].map (Prod.fst : ℕ × Call → ℕ) ++ cs.map index).Nodup := by
      rw [h]
      exact List.nodup_range
    rw [accumulate, foldl_addFragment_of_nodup cs [] hnd, List.nil_append]
    apply List.ext_getElem
    · simp
    · intro k hk hk'
      have hidx : (cs.map index)[k]? = (List.range cs.length)[k]? := by rw [h]
      simp only [List.length_map] at hk
      simp only [List.getElem?_map, List.getElem?_eq_getElem hk, Option.map_some,
        List.getElem?_range hk, Option.some.injEq] at hidx
      simp [IndexedCall.whole, hidx]

/-- The choice that is sent for an event, if there is one. -/
def ClaudeResponse.choice (r : ClaudeResponse) : Option Choice :=
  match choiceOf r with
  | .ok choice => choice
  | .error _ => none

/-- The contents that an event becomes. -/
def ClaudeResponse.texts (r : ClaudeResponse) : List String :=
  r.choice.toList.flatMap fun choice => choice.delta.content.toList

/-- The fragments that an event becomes. -/
def ClaudeResponse.calls (r : ClaudeResponse) : List ToolCall :=
  r.choice.toList.flatMap fun choice => choice.delta.calls

open ClaudeResponse (calls)

section
variable {relay : Relay} {s : StreamState} {r : ClaudeResponse}

theorem choice_of_format_none {info : ClaudeResponseInfo}
    (h : formatClaudeResponseInfo r info = none) : choiceOf r = .ok none := by
  unfold formatClaudeResponseInfo at h
  unfold choiceOf
  cases htype : r.type <;> rw [htype] at h <;> dsimp only at h ⊢
  case messageStart =>
    cases husg : r.message.bind (·.usage) <;> rw [husg] at h <;> contradiction
  case contentBlockDelta =>
    cases hdlt : r.delta <;> rw [hdlt] at h <;> contradiction
  case messageDelta =>
    cases husg : r.usage <;> rw [husg] at h <;> contradiction
  case contentBlockStart => contradiction

theorem handle_sent (hfmt : relay.relayFormat = .openAI) (herror : r.error = none)
    {choice : Option Choice} (hch : choiceOf r = .ok choice) (s : StreamState) :
    ∃ s', handleStreamResponseData relay s (some r) = .ok s' ∧
      contents s'.sent = contents s.sent ++ r.texts ∧
      fragments s'.sent = fragments s.sent ++ r.calls := by
  have hsome : r.choice = choice := by rw [ClaudeResponse.choice, hch]
  have hchunk : ∃ f : Choice → Chunk, (∀ c, (f c).choices = [c]) ∧
      streamResponseClaude2OpenAI r = .ok (choice.map f) := by
    unfold streamResponseClaude2OpenAI
    rw [hch]
    exact ⟨_, fun _ => rfl, rfl⟩
  obtain ⟨f, hf, hchunk⟩ := hchunk
  unfold handleStreamResponseData
  dsimp only
  rw [herror, if_neg (by simp), hfmt]
  rw [hchunk]
  cases hinfo : formatClaudeResponseInfo r s.info with
  | none =>
    have hnone : choice = none := by
      have hok := choice_of_format_none hinfo
      rw [hch] at hok
      exact Except.ok.inj hok
    refine ⟨s, rfl, ?_, ?_⟩ <;> simp [ClaudeResponse.texts, calls, hsome, hnone]
  | some info =>
    refine ⟨_, rfl, ?_, ?_⟩ <;> cases choice <;>
      simp [contents, fragments, ClaudeResponse.texts, calls, hsome, hf]

theorem relayEvents_sent (hfmt : relay.relayFormat = .openAI) (events : List ClaudeResponse)
    (s : StreamState) (herror : ∀ r ∈ events, r.error = none)
    (hch : ∀ r ∈ events, ∃ choice, choiceOf r = .ok choice) :
    ∃ s', relayEvents relay (events.map some) s = (none, s') ∧
      contents s'.sent = contents s.sent ++ events.flatMap ClaudeResponse.texts ∧
      fragments s'.sent = fragments s.sent ++ events.flatMap calls := by
  induction events generalizing s with
  | nil => exact ⟨s, rfl, by simp, by simp⟩
  | cons r events ih =>
    obtain ⟨choice, hr⟩ := hch r List.mem_cons_self
    obtain ⟨s₁, hstep, htx, hcs⟩ := handle_sent hfmt (herror r List.mem_cons_self) hr s
    obtain ⟨s', hrun, htexts', hcalls'⟩ := ih s₁
      (fun r' hr' => herror r' (List.mem_cons_of_mem _ hr'))
      (fun r' hr' => hch r' (List.mem_cons_of_mem _ hr'))
    refine ⟨s', ?_, ?_, ?_⟩
    · rw [List.map_cons, relayEvents, hstep]
      exact hrun
    · rw [htexts', htx, List.flatMap_cons, List.append_assoc]
    · rw [hcalls', hcs, List.flatMap_cons, List.append_assoc]

/-- The index is that of the block less one. -/
def indexedCall (b : StreamBlock × ℕ) : Option IndexedCall :=
  match b.1 with
  | .toolUse id name deltas => some ⟨b.2 - 1, id, name, deltas⟩
  | _ => none

variable (b : StreamBlock × ℕ)

/-- The events of a block are converted, and are neither errors nor pings. -/
theorem events_plain (r : ClaudeResponse) (hr : r ∈ StreamBlock.events b) :
    (∃ choice, choiceOf r = .ok choice) ∧ r.error = none ∧ r.type ≠ .ping := by
  obtain ⟨block, i⟩ := b
  cases block <;> simp [StreamBlock.events, filling] at hr
  case text start deltas =>
    rcases hr with rfl | ⟨t, -, rfl⟩ | rfl <;> exact ⟨⟨_, rfl⟩, rfl, nofun⟩
  case thinking deltas =>
    rcases hr with rfl | ⟨d, -, rfl⟩ | rfl
    · exact ⟨⟨_, rfl⟩, rfl, nofun⟩
    · cases d <;> exact ⟨⟨_, rfl⟩, rfl, nofun⟩
    · exact ⟨⟨_, rfl⟩, rfl, nofun⟩
  case toolUse id name deltas =>
    rcases hr with rfl | ⟨json, -, rfl⟩ | rfl <;> exact ⟨⟨_, rfl⟩, rfl, nofun⟩

variable {α : Type}

/-- The events of a block, for a view of them that does not see the end. -/
theorem flatMap_events (f : ClaudeResponse → List α) (b : StreamBlock × ℕ)
    (hstop : f (stopEvent b.2) = []) :
    (StreamBlock.events b).flatMap f = (b.1.filling b.2).flatMap f := by
  simp [StreamBlock.events, hstop]

theorem texts_events :
    (StreamBlock.events b).flatMap ClaudeResponse.texts = b.1.texts := by
  rw [flatMap_events ClaudeResponse.texts b rfl]
  obtain ⟨block, i⟩ := b
  cases block with
  | text start deltas =>
    have hst : (startEvent i
        { ClaudeMediaMessage.ofType .text with text := start }).texts = start.toList :=
      List.append_nil _
    have hdlt : ∀ t, (deltaEvent i
        { ClaudeMediaMessage.ofType .textDelta with text := some t }).texts = [t] := fun _ => rfl
    simp [filling, texts, hst, hdlt, List.flatMap_map]
  | thinking deltas =>
    simp only [filling, texts, List.flatMap_cons, List.flatMap_map,
      List.append_eq_nil_iff, List.flatMap_eq_nil_iff]
    refine ⟨rfl, fun d _ => ?_⟩
    cases d <;> rfl
  | toolUse id name deltas =>
    simp only [filling, texts, List.flatMap_cons, List.flatMap_map,
      List.append_eq_nil_iff, List.flatMap_eq_nil_iff]
    exact ⟨rfl, fun json _ => rfl⟩

theorem calls_events : (StreamBlock.events b).flatMap calls =
      (indexedCall b).toList.flatMap IndexedCall.fragments := by
  rw [flatMap_events calls b rfl]
  obtain ⟨block, i⟩ := b
  cases block with
  | text start deltas =>
    simp only [filling, indexedCall, List.flatMap_cons, List.flatMap_map,
      Option.toList_none, List.flatMap_nil, List.append_eq_nil_iff, List.flatMap_eq_nil_iff]
    exact ⟨rfl, fun t _ => rfl⟩
  | thinking deltas =>
    simp only [filling, indexedCall, List.flatMap_cons, List.flatMap_map,
      Option.toList_none, List.flatMap_nil, List.append_eq_nil_iff, List.flatMap_eq_nil_iff]
    refine ⟨rfl, fun d _ => ?_⟩
    cases d <;> rfl
  | toolUse id name deltas =>
    have hidx : ((i : ℤ) - 1).toNat = i - 1 := by omega
    have hst : (startEvent i
        { ClaudeMediaMessage.ofType .toolUse with id, name }).calls =
          [⟨some ((i : ℤ) - 1).toNat, id, name, ""⟩] := rfl
    have hdlt : ∀ json, (deltaEvent i
        { ClaudeMediaMessage.ofType .inputJsonDelta with partialJson := some json }).calls =
          [⟨some ((i : ℤ) - 1).toNat, "", "", json⟩] := fun _ => rfl
    simp [filling, indexedCall, IndexedCall.fragments, callFragments, hst, hdlt,
      hidx, List.flatMap_map, ← List.map_eq_flatMap]

variable {blocks : List StreamBlock}

def indexedCalls (blocks : List StreamBlock) : List IndexedCall :=
  blocks.zipIdx.filterMap indexedCall

theorem map_indexedCalls (blocks : List StreamBlock) (f : IndexedCall → α)
    (g : ℕ × Call → α) (h : ∀ i id name deltas, f ⟨i - 1, id, name, deltas⟩ =
      g (i, ⟨id, name, String.join deltas⟩)) :
    (indexedCalls blocks).map f = (toolBlocks blocks).map g := by
  unfold indexedCalls toolBlocks
  rw [List.map_filterMap, List.map_filterMap]
  refine List.filterMap_congr fun b _ => ?_
  obtain ⟨block, i⟩ := b
  cases block with
  | text start deltas | thinking deltas => rfl
  | toolUse id name deltas => exact congrArg some (h i id name deltas)

theorem sent_start (h : r.type = .messageStart) : r.texts = [""] ∧ r.calls = [] := by
  rw [ClaudeResponse.texts, calls, ClaudeResponse.choice, choiceOf, h]
  exact ⟨rfl, rfl⟩

theorem sent_empty (h : r.type = .messageDelta ∨ r.type = .messageStop ∨ r.type = .ping) :
    r.texts = [] ∧ r.calls = [] := by
  rw [ClaudeResponse.texts, calls, ClaudeResponse.choice, choiceOf]
  rcases h with h | h | h <;> rw [h] <;> exact ⟨rfl, rfl⟩

variable {events : List ClaudeResponse} (h : Carries blocks events)
include h

theorem Carries.choiceOf_ok : ∀ r ∈ events, ∃ choice, choiceOf r = .ok choice := by
  obtain ⟨start, last, stop, hst, hlast, hstop, hev⟩ := h.split
  have hreg : ∀ r ∈ start :: (blocks.zipIdx.flatMap StreamBlock.events ++ [last, stop]),
      ∃ choice, choiceOf r = .ok choice := by
    intro r hr
    simp only [List.mem_cons, List.mem_append, List.mem_flatMap, List.not_mem_nil, or_false] at hr
    rcases hr with rfl | ⟨b, -, hb⟩ | rfl | rfl
    · exact ⟨_, by rw [choiceOf, hst]⟩
    · exact (events_plain b r hb).1
    · exact ⟨_, by rw [choiceOf, hlast]⟩
    · exact ⟨_, by rw [choiceOf, hstop]⟩
  intro r hr
  by_cases hping : r.type = .ping
  · exact ⟨none, by rw [choiceOf, hping]⟩
  · rw [← hev] at hreg
    exact hreg r (List.mem_filter.mpr ⟨hr, decide_eq_true hping⟩)

/-- A view of the events that does not see pings sees the parts of the stream. -/
theorem Carries.flatMap_eq (f : ClaudeResponse → List α)
    (hping : ∀ r : ClaudeResponse, r.type = .ping → f r = []) :
    ∃ start last stop, start.type = .messageStart ∧ last.type = .messageDelta ∧
      stop.type = .messageStop ∧ events.flatMap f =
        f start ++ (blocks.zipIdx.flatMap fun b => (StreamBlock.events b).flatMap f) ++
          (f last ++ f stop) := by
  obtain ⟨start, last, stop, hst, hlast, hstop, hev⟩ := h.split
  refine ⟨start, last, stop, hst, hlast, hstop, ?_⟩
  rw [← flatMap_filter_eq (p := fun r => decide (r.type ≠ .ping)) events
    (fun r hr => hping r (by simpa using hr)), hev]
  simp [List.flatMap_assoc]

theorem Carries.texts_eq :
    events.flatMap ClaudeResponse.texts = "" :: blocks.flatMap texts := by
  obtain ⟨start, last, stop, hst, hlast, hstop, hev⟩ := h.flatMap_eq ClaudeResponse.texts
    fun r hr => (sent_empty (.inr (.inr hr))).1
  have hblk : (blocks.zipIdx.flatMap fun b => b.1.texts) = blocks.flatMap texts := by
    rw [← List.flatMap_map, List.zipIdx_map_fst]
  simp [hev, (sent_start hst).1, (sent_empty (.inl hlast)).1,
    (sent_empty (.inr (.inl hstop))).1, texts_events, hblk]

theorem Carries.calls_eq : events.flatMap calls =
      (indexedCalls blocks).flatMap IndexedCall.fragments := by
  obtain ⟨start, last, stop, hst, hlast, hstop, hev⟩ := h.flatMap_eq calls
    fun r hr => (sent_empty (.inr (.inr hr))).2
  simp [hev, (sent_start hst).2, (sent_empty (.inl hlast)).2,
    (sent_empty (.inr (.inl hstop))).2, calls_events, indexedCalls,
    List.filterMap_eq_flatMap_toList, List.flatMap_assoc]

end

/-- A client gets the text of a stream. It gets the tool calls in order, with the indices 0, 1, 2 and
so on, if and only if the index of each tool block, less one, is that of its call. -/
theorem claude_tool_calls_iff (relay : Relay) (hformat : relay.relayFormat = .openAI)
    {blocks : List StreamBlock} {events : List ClaudeResponse} (h : Carries blocks events)
    {s : StreamState} (hsent : s.sent = []) (ctx : TextQuota.Ctx) : ∃ settlement sent,
      claudeStreamHandler relay s (events.map some) ctx = .ok (settlement, sent) ∧
      String.join (contents sent) = String.join (blocks.flatMap texts) ∧
      (accumulate (fragments sent) = ((toolBlocks blocks).map Prod.snd).zipIdx.map Prod.swap ↔
        (toolBlocks blocks).map (fun b => b.1 - 1) = List.range (toolBlocks blocks).length) := by
  obtain ⟨s', hrun, htx, hcs⟩ := relayEvents_sent hformat events s h.noError h.choiceOf_ok
  have hfin : contents (handleStreamFinalResponse relay s').sent = contents s'.sent ∧
      fragments (handleStreamFinalResponse relay s').sent = fragments s'.sent := by
    unfold handleStreamFinalResponse
    rw [hformat]
    cases relay.shouldIncludeUsage <;> simp [contents, fragments]
  refine ⟨⟨(handleStreamFinalResponse relay s').info.usage, ctx⟩,
    (handleStreamFinalResponse relay s').sent, ?_, ?_, ?_⟩
  · unfold claudeStreamHandler
    rw [hrun]
  · rw [hfin.1, htx, hsent, h.texts_eq]
    simp [contents]
  · have hcall := map_indexedCalls blocks (fun c => c.whole.2) Prod.snd fun _ _ _ _ => rfl
    have hidx := map_indexedCalls blocks index (fun b => b.1 - 1) fun _ _ _ _ => rfl
    have hlen : (toolBlocks blocks).length = (indexedCalls blocks).length := by
      rw [← List.length_map (fun b : ℕ × Call => b.1 - 1), ← hidx, List.length_map]
    have hnone : fragments s.sent = [] := by rw [hsent]; rfl
    rw [hfin.2, hcs, hnone, List.nil_append, h.calls_eq, ← hcall, ← hidx, hlen]
    exact accumulate_eq_iff (indexedCalls blocks)

def plainEvents (blocks : List StreamBlock) : List ClaudeResponse :=
  .ofType .messageStart :: (blocks.zipIdx.flatMap StreamBlock.events ++
    [.ofType .messageDelta, .ofType .messageStop])

theorem carries_plainEvents (blocks : List StreamBlock) : Carries blocks (plainEvents blocks) := by
  have hplain : ∀ r ∈ plainEvents blocks, r.error = none ∧ r.type ≠ .ping := by
    intro r hr
    simp only [plainEvents, List.mem_cons, List.mem_append, List.mem_flatMap, List.not_mem_nil,
      or_false] at hr
    rcases hr with rfl | ⟨b, -, hb⟩ | rfl | rfl
    · exact ⟨rfl, nofun⟩
    · exact (events_plain b r hb).2
    · exact ⟨rfl, nofun⟩
    · exact ⟨rfl, nofun⟩
  refine ⟨fun r hr => (hplain r hr).1, .ofType .messageStart, .ofType .messageDelta,
    .ofType .messageStop, rfl, rfl, rfl, ?_⟩
  exact List.filter_eq_self.mpr fun r hr => decide_eq_true (hplain r hr).2

/-- What a client of the OpenAI format gets for the blocks. -/
def received (blocks : List StreamBlock) : Except Failure (List Sent) :=
  (claudeStreamHandler ⟨.openAI, true, 0, fun _ _ => 0⟩ (.start "msg_1" "claude-sonnet-4" 0)
    ((plainEvents blocks).map some) ⟨0, none⟩).map Prod.snd

theorem claude_tool_calls_after_text :
    ∃ sent, received [.text none ["so"], .toolUse "a" "f" ["1", "2"], .toolUse "b" "g" ["3"]] =
        .ok sent ∧
      accumulate (fragments sent) = [(0, ⟨"a", "f", "12"⟩), (1, ⟨"b", "g", "3"⟩)] := by
  have hrel : (Relay.mk .openAI true 0 fun _ _ => 0).relayFormat = .openAI := rfl
  have hst : (StreamState.start "msg_1" "claude-sonnet-4" 0).sent = [] := rfl
  obtain ⟨settlement, sent, hrun, -, hcs⟩ := claude_tool_calls_iff _ hrel
    (carries_plainEvents [.text none ["so"], .toolUse "a" "f" ["1", "2"], .toolUse "b" "g" ["3"]])
    hst ⟨0, none⟩
  refine ⟨sent, ?_, hcs.mpr (by decide)⟩
  rw [received, hrun]
  rfl

/-- Two tools at the start are taken for one. A tool after thinking and text has the index 1. -/
theorem claude_tool_calls_confused : (received [.toolUse "a" "f" ["1"], .toolUse "b" "g" ["2"]]).map
        (fun sent => accumulate (fragments sent)) = .ok [(0, ⟨"a", "f", "12"⟩)] ∧
      (received [.thinking [.thinking "hm", .signature], .text none ["so"],
          .toolUse "a" "f" ["1"]]).map (fun sent => accumulate (fragments sent)) =
        .ok [(1, ⟨"a", "f", "1"⟩)] := by
  decide +kernel

end NewApi.ClaudeUpstream
