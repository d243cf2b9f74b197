import NewApi.ClaudeRelay
import NewApi.ResponsesStream
import NewApi.StreamForwarding

/-!
# The frame of a Claude message

A client expects that a message starts once and first, that its content follows, and that one
event with the stop reason and one stop end it.
-/
namespace NewApi.Chat
open Reading

/-- The frame of a message that finishes with `reason`. -/
def Framed (reason : String) (events : List ClaudeEvent) : Prop :=
  ∃ id model tokens body usage, (∀ e ∈ body, ClaudeEvent.isContent e = true) ∧
    events = .messageStart id model tokens :: body ++
      [.messageDelta (stopReasonOpenAI2Claude reason) usage, .messageStop]

def FramedMessage {J : Type} (reason : String) (sent : List (Sent J)) : Prop :=
  ∃ events, sent = events.map .claude ∧ Framed reason events

def ClaudeEvent.isMessageStart : ClaudeEvent → Bool
  | .messageStart _ _ _ => true
  | _ => false

open ClaudeEvent

def ClaudeEvent.isMessageDelta : ClaudeEvent → Bool
  | .messageDelta _ _ => true
  | _ => false

theorem countP_messageStart_eq_zero {body : List ClaudeEvent} (h : ∀ e ∈ body, e.isContent = true) :
    body.countP isMessageStart = 0 := by
  rw [List.countP_eq_zero]
  intro e he
  have hcont := h e he
  cases e <;> simp_all [isContent, isMessageStart]

namespace Framed
variable {reason : String} {events : List ClaudeEvent}

section
variable (h : Framed reason events)
include h

theorem messageStop_mem : messageStop ∈ events := by
  obtain ⟨id, model, tokens, body, usage, -, rfl⟩ := h
  simp

theorem exists_messageDelta : ∃ e ∈ events, e.isMessageDelta = true := by
  obtain ⟨id, model, tokens, body, usage, -, rfl⟩ := h
  exact ⟨.messageDelta (stopReasonOpenAI2Claude reason) usage, by simp, rfl⟩

theorem countP_messageStart : events.countP isMessageStart = 1 := by
  obtain ⟨id, model, tokens, body, usage, hbody, rfl⟩ := h
  simp [List.countP_cons, countP_messageStart_eq_zero hbody, isMessageStart]

end

end Framed

variable {J : Type} {reason : String}

theorem framedMessage_map {events : List ClaudeEvent} :
    FramedMessage (J := J) reason (events.map .claude) ↔ Framed reason events := by
  have hinj : Function.Injective (Sent.claude (J := J)) := fun e e' h => by injection h
  constructor
  · rintro ⟨events', heq, hfr⟩
    rwa [List.map_injective_iff.mpr hinj heq]
  · intro hfr
    exact ⟨events, rfl, hfr⟩

theorem stopReasonOpenAI2Claude_ne_empty (h : reason ≠ "") :
    stopReasonOpenAI2Claude reason ≠ "" := by
  unfold stopReasonOpenAI2Claude
  dsimp only
  split_ifs
  all_goals first | exact h | decide

namespace Reading
variable {estimate : ℤ} {r : Reading} {s : ClaudeConvertInfo}

theorem head_isMessageStart {e : ClaudeEvent} (he : e ∈ r.head estimate) :
    e.isMessageStart = true := by
  unfold head at he
  split_ifs at he
  · rw [List.mem_singleton.mp he]
    rfl
  · cases he

theorem countP_head : (r.head estimate).countP isMessageStart = if r.first then 1 else 0 := by
  unfold head
  split_ifs <;> rfl

theorem countP_convert (hs : s.done = false) :
    (r.convert estimate s).2.countP isMessageStart = if r.first then 1 else 0 := by
  cases hends : r.ends with
  | false =>
    rw [convert_of_not_ends hs hends, List.countP_append, countP_head,
      countP_messageStart_eq_zero fun e he => content_isContent he, Nat.add_zero]
  | true =>
    obtain ⟨body, hbody, hev⟩ := convert_of_ends estimate hs hends
    have hclos : (r.closing s.finishReason).countP isMessageStart = 0 := by
      unfold closing
      split <;> rfl
    rw [hev, List.countP_append, List.countP_append, countP_head,
      countP_messageStart_eq_zero hbody, hclos, Nat.add_zero]

theorem closing_of_usage {u : Usage} (h : r.chunk.usage.or r.stored = some u)
    (finishReason : String) : r.closing finishReason =
      [.messageDelta (r.stopReason (r.chunk.finished.getD finishReason))
        (buildClaudeUsageFromOpenAIUsage u), .messageStop] := by
  rw [closing, h]
  rfl

end Reading

section
variable {estimate : ℤ} {s : ClaudeConvertInfo} {rs : List Reading}

/-- As long as the message does not end, there is only content, apart from the starts. -/
structure StaysOpen (s : ClaudeConvertInfo) (rs : List Reading)
    (result : ClaudeConvertInfo × List ClaudeEvent) : Prop where
  done : result.1.done = false
  events : ∀ e ∈ result.2, e.isContent = true ∨ e.isMessageStart = true
  starts : result.2.countP isMessageStart = rs.countP first
  finishReason : (∀ r ∈ rs, r.chunk.finished = none) → result.1.finishReason = s.finishReason

theorem StaysOpen.isContent {result : ClaudeConvertInfo × List ClaudeEvent}
    (h : StaysOpen s rs result) (hfst : ∀ r ∈ rs, r.first = false) {e : ClaudeEvent}
    (he : e ∈ result.2) : e.isContent = true := by
  have hstarts : rs.countP first = 0 := by
    rw [List.countP_eq_zero]
    intro r hr
    simp [hfst r hr]
  rcases h.events e he with hcont | hst
  · exact hcont
  · have hzero := h.starts.trans hstarts
    exact absurd hst (List.countP_eq_zero.mp hzero e he)

section
variable (hs : s.done = false)
include hs

theorem readAll_open (hopen : ∀ r ∈ rs, r.ends = false) :
    StaysOpen s rs (readAll estimate s rs) := by
  induction rs generalizing s with
  | nil => exact ⟨hs, nofun, rfl, fun _ => rfl⟩
  | cons r rs ih =>
    have hconv : r.convert estimate s = _ := convert_of_not_ends hs (hopen r List.mem_cons_self)
    have hev : (r.convert estimate s).2 = r.head estimate ++ (r.content s.toCounters).2 := by
      rw [hconv]
    have hrsn : (r.convert estimate s).1.finishReason =
        r.chunk.finished.getD s.finishReason := by rw [hconv]
    have hdone : (r.convert estimate s).1.done = false := by rw [hconv]
    have hrest := ih hdone fun r' hr' => hopen r' (List.mem_cons_of_mem r hr')
    refine ⟨hrest.done, ?_, ?_, ?_⟩
    · intro e he
      rw [readAll, hev] at he
      rcases List.mem_append.mp he with he | he
      · rcases List.mem_append.mp he with he | he
        · exact .inr (head_isMessageStart he)
        · exact .inl (content_isContent he)
      · exact hrest.events e he
    · rw [readAll, hev, List.countP_append, List.countP_append, countP_head,
        countP_messageStart_eq_zero fun e he => content_isContent he, hrest.starts,
        List.countP_cons]
      omega
    · intro hnone
      rw [readAll, hrest.finishReason fun r' hr' => hnone r' (List.mem_cons_of_mem r hr'),
        hrsn, hnone r List.mem_cons_self, Option.getD_none]

/-- The reason of the last chunk that finishes is kept. -/
theorem finishReason_readAll {rs' : List Reading} {e : Reading} {reason : String}
    (hrs : ∀ r ∈ rs, r.ends = false) (he : e.ends = false) (hfin : e.chunk.finished = some reason)
    (hrs' : ∀ r ∈ rs', r.ends = false ∧ r.chunk.finished = none) :
    (readAll estimate s (rs ++ e :: rs')).1.finishReason = reason := by
  have hbef : StaysOpen s rs (readAll estimate s rs) := readAll_open hs hrs
  have hconv : e.convert estimate (readAll estimate s rs).1 = _ :=
    convert_of_not_ends hbef.done he
  have hdone : (e.convert estimate (readAll estimate s rs).1).1.done = false := by rw [hconv]
  have haft : StaysOpen _ rs' (readAll estimate
      (e.convert estimate (readAll estimate s rs).1).1 rs') :=
    readAll_open hdone fun r hr => (hrs' r hr).1
  rw [readAll_append, readAll]
  rw [haft.finishReason fun r hr => (hrs' r hr).2, hconv, hfin]
  rfl

theorem not_framed_of_open (hopen : ∀ r ∈ rs, r.ends = false)
    (reason : String) : ¬Framed reason (readAll estimate s rs).2 := by
  intro hfr
  rcases (readAll_open hs hopen).events _ hfr.messageStop_mem with h | h <;> cases h

/-- A message that starts with the first chunk, goes on without a second start and ends with the
usage known is framed. -/
theorem framed_of_end {r e : Reading} {reason : String} {u : Usage}
    (hr : r.first = true ∧ r.ends = false) (hrs : ∀ r ∈ rs, r.first = false ∧ r.ends = false)
    (he : e.first = false ∧ e.ends = true) (husg : e.chunk.usage.or e.stored = some u)
    (hrsn : e.stopReason (e.chunk.finished.getD
      (readAll estimate s (r :: rs)).1.finishReason) = stopReasonOpenAI2Claude reason)
    (rest : List Reading) : Framed reason (readAll estimate s (r :: rs ++ e :: rest)).2 := by
  have hopen : ∀ r' ∈ r :: rs, r'.ends = false := by
    intro r' hr'
    rcases List.mem_cons.mp hr' with rfl | hr'
    · exact hr.2
    · exact (hrs r' hr').2
  have hbef : StaysOpen s (r :: rs) (readAll estimate s (r :: rs)) := readAll_open hs hopen
  have hconv : r.convert estimate s = _ := convert_of_not_ends hs hr.2
  have hdone : (r.convert estimate s).1.done = false := by rw [hconv]
  have hmiddle : StaysOpen _ rs (readAll estimate (r.convert estimate s).1 rs) :=
    readAll_open hdone fun r' hr' => (hrs r' hr').2
  obtain ⟨body, hbody, hend⟩ := convert_of_ends estimate hbef.done he.2
  refine ⟨r.chunk.id, r.chunk.model, estimate, (r.content s.toCounters).2 ++
    (readAll estimate (r.convert estimate s).1 rs).2 ++ body,
    buildClaudeUsageFromOpenAIUsage u, ?_, ?_⟩
  · intro e' he'
    rcases List.mem_append.mp he' with he' | he'
    · rcases List.mem_append.mp he' with he' | he'
      · exact content_isContent he'
      · exact hmiddle.isContent (fun r' hr' => (hrs r' hr').1) he'
    · exact hbody e' he'
  · have hev : (readAll estimate s (r :: rs)).2 =
        .messageStart r.chunk.id r.chunk.model estimate :: (r.content s.toCounters).2 ++
          (readAll estimate (r.convert estimate s).1 rs).2 := by
      rw [readAll]
      rw [hconv]
      simp [head, hr.1]
    rw [readAll_append]
    rw [readAll_of_ends hbef.done he.2, hend, closing_of_usage husg,
      hrsn, hev, head, he.1]
    simp

theorem framed_of_first_iff {r : Reading} {reason : String}
    (hfst : r.first = true) (hfin : r.chunk.finished = some reason) (rest : List Reading) :
    Framed reason (readAll estimate s (r :: rest)).2 ↔ (r.chunk.usage.or r.stored).isSome := by
  have hends : r.ends = true := by rw [ends, if_pos hfst, hfin]; rfl
  obtain ⟨body, hbody, hend⟩ := convert_of_ends estimate hs hends
  rw [readAll_of_ends hs hends, hend, head, if_pos hfst]
  cases husg : r.chunk.usage.or r.stored with
  | some u =>
    refine iff_of_true ?_ rfl
    refine ⟨r.chunk.id, r.chunk.model, estimate, body, buildClaudeUsageFromOpenAIUsage u, hbody, ?_⟩
    rw [closing_of_usage husg, hfin, stopReason]
    simp [hfst]
  | none =>
    refine iff_of_false ?_ (by simp)
    intro hfr
    obtain ⟨e, he, hdlt⟩ := hfr.exists_messageDelta
    rw [closing, husg, List.nil_append] at he
    simp only [List.cons_append, List.nil_append, List.mem_cons, List.mem_append,
      List.not_mem_nil, or_false] at he
    rcases he with rfl | he | rfl
    · cases hdlt
    · have hcont := hbody e he
      cases e <;> simp_all [isContent, isMessageDelta]
    · cases hdlt

end

end

def Chunk.Blank (c : Chunk) : Prop :=
  ∀ choice ∈ c.choices, choice.delta.getContentString = "" ∧
    choice.delta.getReasoningContent = "" ∧ choice.delta.calls = []

/-- The chunk `f` finishes the answer, after all content. Usage is absent, in this chunk or in a
last chunk without choices. -/
structure FinishesOnce (pre : List Chunk) (f : Chunk) (post : List Chunk) (reason : String) :
    Prop where
  oneChoice : ∀ c ∈ pre ++ f :: post, c.choices.length ≤ 1
  finished : f.finished = some reason
  before : ∀ c ∈ pre, c.finished = none ∧ c.usage = none
  after : ∀ c ∈ post, c.finished = none ∧ c.Blank
  unusedUsage : ∀ c ∈ post.dropLast, c.usage = none
  lastUsage : ∀ c ∈ post.getLast?, c.usage.isSome → c.choices = [] ∧ f.usage = none

theorem FinishesOnce.finished_ne_empty {pre post : List Chunk} {f : Chunk}
    (h : FinishesOnce pre f post reason) : reason ≠ "" := by
  obtain ⟨choice, -, hch⟩ := Option.bind_eq_some_iff.mp h.finished
  simpa using (Option.filter_eq_some_iff.mp hch).2

/-- The handler ends the message: with the usage of the finishing chunk, unless the message is
not started or started twice, or with the last chunk, if it has no choice and the finishing
chunk is not the first one. -/
def EndsMessage (pre : List Chunk) (f : Chunk) (post : List Chunk) : Prop :=
  if f.usage.isSome then pre = [] ∧ post ≠ [] ∨ 3 ≤ (pre ++ f :: post).length
  else pre ≠ [] ∧ ∃ last ∈ post.getLast?, last.choices = []

theorem readings_append_of_no_usage {cs : List Chunk} (h : ∀ c ∈ cs, c.usage = none) (count : ℕ)
    (ds : List Chunk) : readings count none (cs ++ ds) =
      readings count none cs ++ readings (count + cs.length) none ds := by
  induction cs generalizing count with
  | nil => rfl
  | cons c cs ih =>
    have hnone : c.usage.or none = none := by rw [h c List.mem_cons_self]; rfl
    rw [List.cons_append, readings, readings, hnone,
      ih (fun c' hc' => h c' (List.mem_cons_of_mem c hc')), List.cons_append,
      List.length_cons, Nat.add_right_comm, Nat.add_assoc]

theorem ends_of_unfinished {r : Reading} (hfst : r.first = false) (hfin : r.chunk.finished = none)
    (hcs : r.chunk.choices ≠ [] ∨ r.chunk.usage.or r.stored = none) : r.ends = false := by
  unfold ends
  rw [hfst, hfin]
  rcases hcs with hcs | husg
  · simp [hcs]
  · simp [husg]

theorem readings_quiet {cs : List Chunk} (h : ∀ c ∈ cs, c.finished = none ∧ c.usage = none)
    {count : ℕ} (hct : count ≠ 0) : ∀ r ∈ readings count none cs,
      r.first = false ∧ r.ends = false ∧ r.chunk.finished = none := by
  induction cs generalizing count with
  | nil =>
    intro r hr
    cases hr
  | cons c cs ih =>
    have hc := h c List.mem_cons_self
    have hnone : c.usage.or none = none := by rw [hc.2]; rfl
    intro r hr
    rw [readings, hnone] at hr
    rcases List.mem_cons.mp hr with rfl | hr
    · have hfst : decide (count = 0) = false := decide_eq_false hct
      exact ⟨hfst, ends_of_unfinished hfst hc.1 (.inr hnone), hc.1⟩
    · exact ih (fun c' hc' => h c' (List.mem_cons_of_mem c hc')) (Nat.succ_ne_zero count) r hr

theorem Chunk.choices_ne_nil {c : Chunk} (h : c.finished = some reason) : c.choices ≠ [] := by
  intro hnil
  rw [Chunk.finished, hnil] at h
  cases h

/-- A reason to finish ends the message only with usage in the chunk itself. -/
theorem ends_of_finished {r : Reading} (hfst : r.first = false)
    (hfin : r.chunk.finished = some reason) : r.ends = r.chunk.usage.isSome := by
  unfold ends
  rw [hfst, hfin]
  simp [Chunk.choices_ne_nil hfin]

section
variable {estimate : ℤ} {cs : List Chunk} {c f last : Chunk} {billed : Usage}

theorem readings_cons (husg : c.usage = none) :
    readings 0 none (c :: cs) = ⟨true, none, c⟩ :: readings 1 none cs := by
  rw [readings, husg]
  rfl

theorem ends_first (hfin : c.finished = none) : ends ⟨true, none, c⟩ = false := by
  rw [ends, if_pos rfl]
  simp [hfin]

theorem not_framed_one :
    ¬Framed reason (readAll estimate .start (handlerReadings billed [] f)).2 := by
  intro hfr
  have hstarts := hfr.countP_messageStart
  simp only [handlerReadings, readings, List.nil_append, readAll, List.append_nil] at hstarts
  rw [countP_convert rfl] at hstarts
  cases hstarts

theorem not_framed_two (hfin : c.finished = none) (husg : c.usage = none) :
    ¬Framed reason (readAll estimate .start (handlerReadings billed [c] f)).2 := by
  intro hfr
  have hstarts := hfr.countP_messageStart
  have hconv : convert estimate ⟨true, none, c⟩ .start = _ :=
    convert_of_not_ends rfl (ends_first hfin)
  have hdone : (convert estimate ⟨true, none, c⟩ .start).1.done = false := by
    rw [hconv]
  rw [handlerReadings, readings_cons husg] at hstarts
  simp only [readings, List.cons_append, List.nil_append, readAll, List.append_nil,
    List.countP_append] at hstarts
  rw [countP_convert rfl, countP_convert hdone] at hstarts
  cases hstarts

theorem framed_of_finished {e : Reading} {rs rest : List Reading} {u : Usage}
    (hc : c.finished = none) (hrs : ∀ r ∈ rs, r.first = false ∧ r.ends = false)
    (hfst : e.first = false) (hfin : e.chunk.finished = some reason)
    (husg : e.chunk.usage = some u) :
    Framed reason (readAll estimate .start (⟨true, none, c⟩ :: rs ++ e :: rest)).2 := by
  have hends : e.ends = true := by rw [ends_of_finished hfst hfin, husg]; rfl
  have hkn : e.chunk.usage.or e.stored = some u := by rw [husg]; rfl
  refine framed_of_end rfl ⟨rfl, ends_first hc⟩ hrs ⟨hfst, hends⟩ hkn ?_ rest
  rw [hfin, Option.getD_some, stopReason]
  simp [Chunk.choices_ne_nil hfin]

/-- A message that is finished without usage stays open until a last chunk without choices. -/
theorem framed_deferred_iff {e d : Reading} {rs rs' : List Reading} (hc : c.finished = none)
    (hrsn : reason ≠ "") (hrs : ∀ r ∈ rs, r.first = false ∧ r.ends = false)
    (hd : d.first = false ∧ d.ends = false) (hfin : d.chunk.finished = some reason)
    (hrs' : ∀ r ∈ rs', r.first = false ∧ r.ends = false ∧ r.chunk.finished = none)
    (hfst : e.first = false) (hlast : e.chunk.finished = none)
    (hkn : ∃ u, e.chunk.usage.or e.stored = some u) : Framed reason (readAll estimate .start
        (⟨true, none, c⟩ :: rs ++ d :: (rs' ++ [e]))).2 ↔ e.chunk.choices = [] := by
  have hopen : ∀ r ∈ rs ++ d :: rs', r.first = false ∧ r.ends = false := by
    intro r hr
    simp only [List.mem_append, List.mem_cons] at hr
    rcases hr with hr | rfl | hr
    · exact hrs r hr
    · exact hd
    · exact ⟨(hrs' r hr).1, (hrs' r hr).2.1⟩
  have hspl : mk true none c :: rs ++ d :: (rs' ++ [e]) =
      ⟨true, none, c⟩ :: (rs ++ d :: rs') ++ [e] := by simp
  rw [hspl]
  by_cases hcs : e.chunk.choices = []
  · refine iff_of_true ?_ hcs
    obtain ⟨u, hu⟩ := hkn
    have hends : e.ends = true := by
      rw [ends, hfst, hu]
      simp [hcs]
    have hbef : ∀ r ∈ mk true none c :: rs, r.ends = false := by
      intro r hr
      rcases List.mem_cons.mp hr with rfl | hr
      · exact ends_first hc
      · exact (hrs r hr).2
    have hkept : (readAll estimate .start
        (⟨true, none, c⟩ :: (rs ++ d :: rs'))).1.finishReason = reason := by
      rw [← List.cons_append]
      exact finishReason_readAll rfl hbef hd.2 hfin fun r hr => (hrs' r hr).2
    refine framed_of_end rfl ⟨rfl, ends_first hc⟩ hopen ⟨hfst, hends⟩ hu ?_ []
    rw [hkept, hlast, Option.getD_none, stopReason]
    simp [stopReasonOpenAI2Claude_ne_empty hrsn]
  · refine iff_of_false (not_framed_of_open rfl ?_ reason) hcs
    intro r hr
    rcases List.mem_append.mp hr with hr | hr
    · rcases List.mem_cons.mp hr with rfl | hr
      · exact ends_first hc
      · exact (hopen r hr).2
    · rw [List.mem_singleton.mp hr]
      exact ends_of_unfinished hfst hlast (.inl hcs)

section
variable (hfin : f.finished = some reason)
include hfin

/-- The last chunk finishes the message. -/
theorem framed_last_iff
    (hbef : ∀ c' ∈ c :: cs, c'.finished = none ∧ c'.usage = none) (hcs : cs ≠ []) :
    Framed reason (readAll estimate .start (handlerReadings billed (c :: cs) f)).2 ↔
      f.usage.isSome := by
  have hc := hbef c List.mem_cons_self
  have hqt := readings_quiet (fun c' hc' => hbef c' (List.mem_cons_of_mem c hc'))
    Nat.one_ne_zero
  have hfst : decide ((c :: cs).length = 1) = false := by
    simp
    omega
  rw [handlerReadings, readings_cons hc.2, hfst]
  cases husg : f.usage with
  | some u =>
    refine iff_of_true ?_ rfl
    exact framed_of_finished hc.1 (fun r hr => ⟨(hqt r hr).1, (hqt r hr).2.1⟩) rfl
      hfin husg
  | none =>
    refine iff_of_false (not_framed_of_open rfl ?_ reason) (by simp)
    intro r hr
    simp only [List.cons_append, List.mem_cons, List.mem_append, List.not_mem_nil, or_false] at hr
    rcases hr with rfl | hr | rfl
    · exact ends_first hc.1
    · exact (hqt r hr).2.1
    · rw [ends_of_finished rfl hfin]
      simp [husg]

/-- The first chunk finishes the message. -/
theorem framed_first_iff :
    Framed reason (readAll estimate .start (handlerReadings billed (f :: cs) last)).2 ↔
      f.usage.isSome := by
  rw [handlerReadings, readings, List.cons_append, framed_of_first_iff rfl rfl hfin]
  simp

/-- A chunk between them finishes the message. -/
theorem framed_middle_iff {ps : List Chunk}
    (hrsn : reason ≠ "") (hbef : ∀ c' ∈ c :: cs, c'.finished = none ∧ c'.usage = none)
    (haft : ∀ c' ∈ ps, c'.finished = none ∧ c'.usage = none) (hlast : last.finished = none) :
    Framed reason (readAll estimate .start
        (handlerReadings billed (c :: cs ++ f :: ps) last)).2 ↔
      f.usage.isSome ∨ last.choices = [] := by
  have hc := hbef c List.mem_cons_self
  have hcs := fun c' hc' => hbef c' (List.mem_cons_of_mem c hc')
  have hqt := readings_quiet hcs Nat.one_ne_zero
  have hfst : decide ((c :: cs ++ f :: ps).length = 1) = false := by simp
  have hread : handlerReadings billed (c :: cs ++ f :: ps) last =
      ⟨true, none, c⟩ :: readings 1 none cs ++
        ⟨false, f.usage, f⟩ :: (readings (1 + cs.length + 1) f.usage ps ++
          [⟨false, some billed, last⟩]) := by
    rw [handlerReadings, hfst, List.cons_append, readings_cons hc.2,
      readings_append_of_no_usage fun c' hc' => (hcs c' hc').2]
    simp [readings]
  rw [hread]
  cases husg : f.usage with
  | some u =>
    refine iff_of_true ?_ (.inl rfl)
    exact framed_of_finished hc.1 (fun r hr => ⟨(hqt r hr).1, (hqt r hr).2.1⟩) rfl
      hfin husg
  | none =>
    have hrest := readings_quiet haft (Nat.succ_ne_zero (1 + cs.length))
    have hf : ends ⟨false, none, f⟩ = false := by
      rw [ends_of_finished rfl hfin, husg]
      rfl
    have hkn : ∃ u, last.usage.or (some billed) = some u := by
      cases last.usage with
      | none => exact ⟨billed, rfl⟩
      | some u => exact ⟨u, rfl⟩
    rw [framed_deferred_iff hc.1 hrsn (fun r hr => ⟨(hqt r hr).1, (hqt r hr).2.1⟩)
      ⟨rfl, hf⟩ hfin hrest rfl hlast hkn]
    simp

end

/-- A stream that finishes once is framed iff the handler ends the message. -/
theorem framed_handler_iff {pre post : List Chunk} (h : FinishesOnce pre f post reason)
    {cs : List Chunk} (hcs : pre ++ f :: post = cs ++ [last]) :
    Framed reason (readAll estimate .start (handlerReadings billed cs last)).2 ↔
      EndsMessage pre f post := by
  have hrsn : reason ≠ "" := h.finished_ne_empty
  unfold EndsMessage
  rcases List.eq_nil_or_concat' post with rfl | ⟨ps, l, rfl⟩
  · obtain ⟨rfl, rfl⟩ : pre = cs ∧ f = last := by simpa using hcs
    match pre, h.before with
    | [], _ => simp [not_framed_one]
    | [c], hbef =>
      have hc := hbef c List.mem_cons_self
      simp [not_framed_two hc.1 hc.2]
    | c :: d :: ds, hbef =>
      rw [framed_last_iff h.finished hbef (List.cons_ne_nil d ds)]
      simp
  obtain ⟨rfl, rfl⟩ : pre ++ f :: ps = cs ∧ l = last := by
    rw [← List.cons_append, ← List.append_assoc] at hcs
    simpa using List.append_inj' hcs rfl
  have hlast := h.after l (by simp)
  have haft : ∀ c ∈ ps, c.finished = none ∧ c.usage = none := by
    intro c hc
    exact ⟨(h.after c (by simp [hc])).1, h.unusedUsage c (by simpa using hc)⟩
  match pre, h.before with
  | [], _ =>
    rw [List.nil_append, framed_first_iff h.finished]
    simp
  | c :: cs, hbef =>
    rw [framed_middle_iff h.finished hrsn hbef haft hlast.1]
    by_cases husg : f.usage.isSome
    · simp [husg]
      omega
    · simp [husg]

end

namespace ResponsesState
variable {J : Type} {relay : Relay J} (context : ResponsesContext) {s : ResponsesState J}

/-- The message is not ended, and a start has been counted. -/
structure Unended (s : ResponsesState J) : Prop where
  done : s.info.convert.done = false
  counted : s.sentStart = true → s.info.sendResponseCount ≠ 0
  noStop : .claude .messageStop ∉ s.sent

section
variable (hs : s.Unended)
include hs

theorem Unended.congr {s' : ResponsesState J} (hinfo : s'.info = s.info)
    (hsent : s'.sent = s.sent) (hst : s'.sentStart = s.sentStart) : s'.Unended := by
  refine ⟨?_, ?_, ?_⟩
  · rw [hinfo]
    exact hs.done
  · rw [hinfo, hst]
    exact hs.counted
  · rw [hsent]
    exact hs.noStop

theorem Unended.readResponse (response : Option ResponsesResponse) :
    (s.readResponse response).Unended := by
  cases response with
  | none => exact hs
  | some response => exact hs.congr rfl rfl rfl

variable (h : relay.relayFormat = .claude)
include h

/-- A chunk without usage does not end the message, unless it is a first one that finishes. -/
theorem Unended.sendChatChunk {chunk : Chunk} (hcs : chunk.choices ≠ []) (husg : chunk.usage = none)
    (hfin : chunk.finished = none ∨ s.info.sendResponseCount ≠ 0) :
    (s.sendChatChunk relay chunk).Unended ∧
      (s.sendChatChunk relay chunk).info.sendResponseCount ≠ 0 := by
  have hends : ends ⟨decide (s.info.sendResponseCount = 0),
      chunk.usage.or s.info.convert.usage, chunk⟩ = false := by
    by_cases hct : s.info.sendResponseCount = 0
    · have hnone := hfin.resolve_right (not_not.mpr hct)
      simp [ends, hct, hnone]
    · simp [ends, hct, hcs, husg]
  have hsend : s.sendChatChunk relay chunk =
      { s with
        info := (handleStreamFormat relay s.info chunk).1
        sent := s.sent ++ (handleStreamFormat relay s.info chunk).2 } := by
    rw [ResponsesState.sendChatChunk, h]
  rw [hsend, handleStreamFormat_claude h]
  dsimp only
  rw [convert_of_not_ends hs.done hends]
  refine ⟨⟨rfl, fun _ => Nat.succ_ne_zero _, ?_⟩, Nat.succ_ne_zero _⟩
  intro hstop
  rcases List.mem_append.mp hstop with hstop | hstop
  · exact hs.noStop hstop
  obtain ⟨e, he, heq⟩ := List.mem_map.mp hstop
  obtain rfl : e = .messageStop := by injection heq
  rcases List.mem_append.mp he with he | he
  · cases head_isMessageStart he
  · cases content_isContent he

theorem Unended.sendDelta (delta : Delta) :
    (s.sendDelta relay context delta).Unended ∧
      (s.sendDelta relay context delta).info.sendResponseCount ≠ 0 :=
  hs.sendChatChunk h (List.cons_ne_nil _ _) rfl (.inl rfl)

theorem Unended.sendStartIfNeeded :
    (s.sendStartIfNeeded relay context).Unended ∧
      (s.sendStartIfNeeded relay context).info.sendResponseCount ≠ 0 := by
  unfold ResponsesState.sendStartIfNeeded
  split_ifs with hst
  · exact ⟨hs, hs.counted hst⟩
  · obtain ⟨hsent, hct⟩ := hs.sendDelta context h { Delta.empty with content := some "" }
    exact ⟨⟨hsent.done, fun _ => hct, hsent.noStop⟩, hct⟩

theorem Unended.sendReasoningSummaryDelta
    (delta : String) : (s.sendReasoningSummaryDelta relay context delta).Unended := by
  unfold ResponsesState.sendReasoningSummaryDelta
  by_cases hdlt : delta = ""
  · rw [if_pos hdlt]
    exact hs
  have hplain : { s with needsReasoningSummarySeparator := false }.Unended := hs.congr rfl rfl rfl
  rw [if_neg hdlt]
  exact ((hplain.sendStartIfNeeded context h).1.sendDelta context h _).1.congr rfl rfl rfl

theorem Unended.sendToolCallDelta (callID name argsDelta : String) :
    (s.sendToolCallDelta relay context callID name argsDelta).Unended := by
  unfold ResponsesState.sendToolCallDelta
  by_cases hid : callID = ""
  · rw [if_pos hid]
    exact hs
  by_cases htext : s.outputText ≠ ""
  · rw [if_neg hid, if_pos htext]
    exact hs
  rw [if_neg hid, if_neg htext]
  have hst := (hs.sendStartIfNeeded context h).1
  refine Unended.congr (Unended.sendDelta context ?_ h _).1 rfl rfl rfl
  exact hst.congr rfl rfl rfl

theorem Unended.sendStop (hct : s.info.sendResponseCount ≠ 0) (usage : Usage) :
    (s.sendStop relay context usage).Unended := by
  have hsto : { s with info :=
      { s.info with convert := { s.info.convert with usage := some usage } } }.Unended :=
    ⟨hs.done, hs.counted, hs.noStop⟩
  unfold ResponsesState.sendStop
  rw [if_pos h]
  exact (hsto.sendChatChunk h (List.cons_ne_nil _ _) rfl (.inr hct)).1.congr rfl rfl rfl

theorem Unended.completed
    (response : Option ResponsesResponse) : (s.completed relay context response).Unended := by
  have hread (usage : Usage) : { s.readResponse response with usage := usage }.Unended :=
    (hs.readResponse response).congr rfl rfl rfl
  unfold ResponsesState.completed
  dsimp only
  split_ifs
  · exact ((hread _).sendStartIfNeeded context h).1
  · obtain ⟨hst, hct⟩ := (hread _).sendStartIfNeeded context h
    exact hst.sendStop context h hct _

theorem Unended.handleEvent
    (event : ResponsesEvent) : (s.handleEvent relay context event).Unended := by
  unfold ResponsesState.handleEvent
  by_cases herr : s.streamErr.isSome
  · rw [if_pos herr]
    exact hs
  rw [if_neg herr]
  cases event with
  | created response => exact hs.readResponse response
  | reasoningSummaryTextDelta delta => exact hs.sendReasoningSummaryDelta context h delta
  | reasoningSummaryTextDone =>
    split_ifs
    · exact hs.congr rfl rfl rfl
    · exact hs
  | outputTextDelta delta =>
    have hst := (hs.sendStartIfNeeded context h).1
    dsimp only
    split_ifs
    · exact (hst.sendDelta context h _).1.congr rfl rfl rfl
    · exact hst
  | outputItem item =>
    refine Unended.sendToolCallDelta context ?_ h _ _ _
    exact hs.congr rfl rfl rfl
  | functionCallArgumentsDelta itemID delta =>
    unfold ResponsesState.functionCallArgumentsDelta
    dsimp only
    split_ifs
    · exact hs
    all_goals
      refine Unended.sendToolCallDelta context ?_ h _ _ _
      exact hs.congr rfl rfl rfl
  | completed response => exact hs.completed context h response
  | failed event error => exact hs.congr rfl rfl rfl
  | other => exact hs

end

end ResponsesState

theorem unended_handleEvents {relay : Relay J} (h : relay.relayFormat = .claude)
    (context : ResponsesContext) (events : List ResponsesEvent) {s : ResponsesState J}
    (hs : s.Unended) : (events.foldl (ResponsesState.handleEvent relay context) s).Unended := by
  induction events generalizing s with
  | nil => exact hs
  | cons event events ih => exact ih (hs.handleEvent context h event)

/-- A Claude client of the Responses handler never gets the end of a message. -/
theorem messageStop_not_sent {relay : Relay J} (h : relay.relayFormat = .claude)
    (context : ResponsesContext) (events : List ResponsesEvent) :
    .claude .messageStop ∉ (oaiResponsesToChatStreamHandler relay context events).2 := by
  have hst : (ResponsesState.start relay context).Unended := ⟨rfl, nofun, List.not_mem_nil⟩
  have hrun := unended_handleEvents h context events hst
  have hopenAI : ¬relay.relayFormat = .openAI := by rw [h]; exact nofun
  unfold oaiResponsesToChatStreamHandler
  dsimp only
  split
  · exact hrun.noStop
  obtain ⟨hsent, hct⟩ := hrun.sendStartIfNeeded context h
  rw [if_neg hopenAI, List.append_nil]
  split_ifs
  · exact hsent.noStop
  · exact (hsent.sendStop context h hct _).noStop
  · exact hsent.noStop
  · exact (hsent.sendStop context h hct _).noStop

/-- A message from a chat stream is framed iff the handler ends it, and a message from Responses
events never is. -/
theorem claude_frame_iff {J : Type} (relay : Relay J) (h : relay.relayFormat = .claude) :
    (∀ pre f post reason, FinishesOnce pre f post reason →
      (FramedMessage reason (oaiStreamHandler relay (pre ++ f :: post)).2 ↔
        EndsMessage pre f post)) ∧
    ∀ context events reason,
      ¬FramedMessage reason (oaiResponsesToChatStreamHandler relay context events).2 := by
  refine ⟨fun pre f post reason hstr => ?_, fun context events reason hfr => ?_⟩
  · obtain ⟨cs, last, hcs⟩ : ∃ cs last, pre ++ f :: post = cs ++ [last] := by
      rcases List.eq_nil_or_concat' (pre ++ f :: post) with hnil | hconcat
      · exact absurd hnil (by simp)
      · exact hconcat
    rw [hcs, oaiStreamHandler_claude h, framedMessage_map, framed_handler_iff hstr hcs]
  · obtain ⟨sent, heq, hsent⟩ := hfr
    refine messageStop_not_sent h context events ?_
    rw [heq]
    exact List.mem_map_of_mem hsent.messageStop_mem

theorem finishesOnce_sample (texts : List String) :
    FinishesOnce (texts.map textChunk) stopChunk [] "stop" where
  oneChoice c hc := by
    rcases List.mem_append.mp hc with hc | hc
    · obtain ⟨text, -, rfl⟩ := List.mem_map.mp hc
      exact Nat.le_refl 1
    · rw [List.mem_singleton.mp hc]
      exact Nat.le_refl 1
  finished := rfl
  before c hc := by
    obtain ⟨text, -, rfl⟩ := List.mem_map.mp hc
    exact ⟨rfl, rfl⟩
  after c hc := absurd hc List.not_mem_nil
  unusedUsage c hc := absurd hc List.not_mem_nil
  lastUsage c hc := by cases hc

theorem claude_frame_iff_three : FramedMessage "stop" (oaiStreamHandler (sampleRelay .claude)
      [textChunk "Hel", textChunk "lo", stopChunk]).2 := by
  have hstr : FinishesOnce [textChunk "Hel", textChunk "lo"] stopChunk [] "stop" :=
    finishesOnce_sample ["Hel", "lo"]
  have hends : EndsMessage [textChunk "Hel", textChunk "lo"] stopChunk [] := .inr (Nat.le_refl 3)
  obtain ⟨hchat, -⟩ := claude_frame_iff (sampleRelay .claude) rfl
  exact (hchat _ _ _ _ hstr).mpr hends

/-- What a client gets of two chunks: the message starts twice. -/
def startedTwice : List ClaudeEvent :=
  [.messageStart "chatcmpl-1" "gpt-4o" 5, .contentBlockStart 0 .text,
    .contentBlockDelta 0 (.text "Hi"), .messageStart "chatcmpl-1" "gpt-4o" 5,
    .contentBlockStop 0, .messageDelta "end_turn" ⟨5, 2, 0, 0, none⟩, .messageStop]

/-- What a client gets of Responses events: the message does not end. -/
def neverEnded : List ClaudeEvent :=
  [.messageStart "resp-1" "gpt-4o" 5, .contentBlockStart 0 .text, .contentBlockDelta 0 (.text "Hi")]

/-- A stream of two chunks starts its message twice, and the Responses stream never ends it. -/
theorem message_starts_twice : FinishesOnce [textChunk "Hi"] stopChunk [] "stop" ∧
    (oaiStreamHandler (sampleRelay .claude) [textChunk "Hi", stopChunk]).2 =
      startedTwice.map .claude ∧
    ¬Framed "stop" startedTwice ∧
    (oaiResponsesToChatStreamHandler (sampleRelay .claude) ⟨"resp-1", 0⟩
        [.outputTextDelta "Hi", .completed (some ⟨"gpt-4o", 0, some ⟨5, 2, 7, none⟩⟩)]).2 =
      neverEnded.map .claude ∧
    ¬Framed "stop" neverEnded := by
  refine ⟨finishesOnce_sample ["Hi"], by decide +kernel, ?_, by decide +kernel, ?_⟩
  · intro hfr
    exact absurd hfr.countP_messageStart (by decide)
  · intro hfr
    exact absurd hfr.messageStop_mem (by decide)

end NewApi.Chat
