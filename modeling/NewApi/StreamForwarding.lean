import NewApi.StreamHandler

/-!
# Forwarded chunks and billed usage

What a client of the OpenAI format gets of a stream, and which report of the upstream is billed.
Both depend on what the handler does with the last chunk.
-/
namespace NewApi.Chat

/-- The chunk carries text, reasoning, a fragment of a tool call or a reason to finish. -/
def Chunk.carries (c : Chunk) : Bool :=
  c.choices.any fun choice =>
    decide (choice.delta.getContentString ≠ "") || decide (choice.delta.getReasoningContent ≠ "") ||
      decide (choice.delta.calls ≠ []) || choice.finished.isSome

/-- A chunk that may be withheld: it has usage and nothing else. -/
def Chunk.OnlyUsage (c : Chunk) : Prop := c.carries = false ∧ c.usage.isSome

/-- The end of a stream: a mark, before which a chunk with the usage is added if the client has
asked for it. -/
def OpenAITail {J : Type} (relay : Relay J) (tail : List (Sent J)) : Prop :=
  tail = [.done] ∨
    relay.shouldIncludeUsage = true ∧ ∃ c : Chunk, c.choices = [] ∧ tail = [.chunk c, .done]

/-- The client gets the chunks in order and once, without some that have usage only. -/
def Forwards {J : Type} (relay : Relay J) (chunks : List Chunk) (sent : List (Sent J)) : Prop :=
  ∃ kept tail, sent = kept.map .chunk ++ tail ∧ DropsOnly Chunk.OnlyUsage chunks kept ∧
    OpenAITail relay tail

/-- The last chunk has valid usage the client did not ask for, and with it a tool call or the
reason to finish but neither text nor reasoning. -/
def Chunk.Withheld (c : Chunk) (shouldIncludeUsage : Bool) : Prop :=
  shouldIncludeUsage = false ∧ validUsage c.usage = true ∧ c.carries = true ∧
    ∀ choice ∈ c.choices, choice.delta.getContentString = "" ∧ choice.delta.getReasoningContent = ""

section
variable {J : Type} {relay : Relay J}

theorem validUsage_isSome {u : Option Usage} (h : validUsage u = true) : u.isSome := by
  cases u with
  | none => cases h
  | some u => rfl

def shouldSend (relay : Relay J) (last : Chunk) : Bool :=
  (handleLastResponse relay (some last) none).shouldSendLastResp

/-- The last chunk is not sent iff it has valid usage that was not asked for, and no text. -/
theorem shouldSend_eq_false_iff (last : Chunk) :
    shouldSend relay last = false ↔ relay.shouldIncludeUsage = false ∧
      validUsage last.usage = true ∧ ∀ choice ∈ last.choices,
        choice.delta.getContentString = "" ∧ choice.delta.getReasoningContent = "" := by
  simp only [shouldSend, handleLastResponse]
  by_cases hval : (validUsage last.usage && !relay.shouldIncludeUsage) = true
  · rw [if_pos hval]
    rw [Bool.and_eq_true, Bool.not_eq_true'] at hval
    simp [hval]
  · rw [if_neg hval]
    rw [Bool.and_eq_true, Bool.not_eq_true'] at hval
    exact iff_of_false nofun fun h => hval ⟨h.2.1, h.1⟩

variable (h : relay.relayFormat = .openAI)
include h

theorem sendAll_openAI (info : RelayInfo) (cs : List Chunk) :
    (sendAll relay info cs).2 = cs.map .chunk := by
  induction cs generalizing info with
  | nil => rfl
  | cons c cs ih =>
    rw [sendAll, List.map_cons]
    rw [ih]
    simp [handleStreamFormat, h]

theorem handleFinalResponse_openAI (info : RelayInfo)
    (lastStreamData : Option Chunk) (last : LastResponse) (usage : Usage) :
    OpenAITail relay (handleFinalResponse relay info lastStreamData last usage) := by
  simp only [handleFinalResponse, h]
  split
  next hadded =>
    obtain ⟨hincl, -⟩ := (Bool.and_eq_true _ _).mp hadded
    exact .inr ⟨hincl, _, rfl, rfl⟩
  · exact .inl rfl

theorem oaiStreamHandler_nil :
    OpenAITail relay (oaiStreamHandler relay []).2 := by
  have hsent : (oaiStreamHandler relay []).2 = handleFinalResponse relay .start none
      (handleLastResponse relay none (audioUsage relay none)) (oaiStreamHandler relay []).1 := by
    simp [oaiStreamHandler, StreamState.start, h]
  rw [hsent]
  exact handleFinalResponse_openAI h _ _ _ _

theorem oaiStreamHandler_openAI (cs : List Chunk) (last : Chunk) :
    ∃ tail, (oaiStreamHandler relay (cs ++ [last])).2 =
      (if shouldSend relay last then cs ++ [last] else cs).map .chunk ++ tail ∧
        OpenAITail relay tail := by
  have hsame : (lastResponse relay cs last).shouldSendLastResp = shouldSend relay last := rfl
  refine ⟨_, ?_, handleFinalResponse_openAI h (sendAll relay .start cs).1 (some last)
    (lastResponse relay cs last) (billedUsage relay cs last)⟩
  rw [oaiStreamHandler_snd, sendAll_openAI h, hsame]
  congr 1
  by_cases hsend : shouldSend relay last = true
  · rw [if_pos ⟨h, hsend⟩, if_pos hsend, List.map_append, List.map_cons, List.map_nil]
  · rw [if_neg fun h' => hsend h'.2, if_neg hsend, List.append_nil]

end

/-- A client of the OpenAI format gets the whole stream, in order and once, except chunks with
usage only, exactly if the last chunk is not withheld with a tool call or the reason to finish. -/
theorem forwarding_complete_iff {J : Type} (relay : Relay J) (h : relay.relayFormat = .openAI)
    (chunks : List Chunk) : Forwards relay chunks (oaiStreamHandler relay chunks).2 ↔
      ∀ last ∈ chunks.getLast?, ¬last.Withheld relay.shouldIncludeUsage := by
  rcases List.eq_nil_or_concat chunks with rfl | ⟨cs, last, rfl⟩
  · exact iff_of_true ⟨[], _, rfl, .nil, oaiStreamHandler_nil h⟩ (by simp)
  obtain ⟨tail, hsent, htail⟩ := oaiStreamHandler_openAI h cs last
  have hlast : (∀ c ∈ (cs.concat last).getLast?, ¬c.Withheld relay.shouldIncludeUsage) ↔
      ¬last.Withheld relay.shouldIncludeUsage := by simp
  rw [hlast, List.concat_eq_append, hsent]
  by_cases hsend : shouldSend relay last = false
  · obtain ⟨hincl, hval, htext⟩ := (shouldSend_eq_false_iff last).mp hsend
    have hdone : ∀ tail : List (Sent J), OpenAITail relay tail → tail = [.done] := by
      rintro tail (hdone | ⟨hadded, -⟩)
      · exact hdone
      · exact nomatch hincl.symm.trans hadded
    rw [if_neg (Bool.not_eq_true _ ▸ hsend), hdone tail htail]
    constructor
    · rintro ⟨kept, tail', hsame, hkept, htail'⟩ ⟨-, -, hcarr, -⟩
      rw [hdone tail' htail'] at hsame
      have hinj : Function.Injective (Sent.chunk : Chunk → Sent J) := fun a b => Sent.chunk.inj
      obtain rfl : cs = kept := hinj.list_map (List.append_cancel_right hsame)
      have hct := hkept.countP_eq (p := Chunk.carries) fun a ha => ha.1
      rw [List.countP_append, List.countP_cons, hcarr] at hct
      simp at hct
    · intro hnot
      have honly : last.OnlyUsage := by
        refine ⟨?_, validUsage_isSome hval⟩
        by_contra hcarr
        exact hnot ⟨hincl, hval, Bool.eq_true_of_not_eq_false hcarr, htext⟩
      exact ⟨cs, [.done], rfl, .dropLast cs honly, .inl rfl⟩
  · rw [if_pos (Bool.eq_true_of_not_eq_false hsend)]
    refine iff_of_true ⟨_, tail, rfl, .refl _, htail⟩ fun hwith => ?_
    exact hsend ((shouldSend_eq_false_iff last).mpr ⟨hwith.1, hwith.2.1, hwith.2.2.2⟩)

/-- A text in braces is an object. -/
def sampleObjects : JsonObjects String where
  parse text := if startsWith text "\x7b" && hasSuffix text "\x7d" then some text else none
  empty := "\x7b\x7d"
  ofText text := "\x7b\"arguments\":" ++ text ++ "\x7d"

/-- A relay on which the results are tried: tokens are not estimated. -/
def sampleRelay (format : RelayFormat) : Relay String where
  relayFormat := format
  shouldIncludeUsage := false
  upstreamModelName := "gpt-4o"
  estimatePromptTokens := 5
  estimateTokenByModel _ _ := 0
  applyUsagePostProcessing u _ := u
  json := sampleObjects

def sampleUsage : Usage := { Usage.zero with promptTokens := 5, completionTokens := 2 }

def textChunk (text : String) : Chunk := .single { Delta.empty with content := some text } none none

/-- The last chunk of a stream, with the usage in it. -/
def stopChunk : Chunk := .single .empty (some "stop") (some sampleUsage)

theorem forwarding_complete_iff_sample :
    Forwards (sampleRelay .openAI) [textChunk "Hi", .single .empty (some "stop") none]
      (oaiStreamHandler (sampleRelay .openAI)
        [textChunk "Hi", .single .empty (some "stop") none]).2 := by
  refine (forwarding_complete_iff (sampleRelay .openAI) rfl _).mpr fun last hlast => ?_
  cases hlast
  rintro ⟨-, hval, -⟩
  cases hval

/-- The reason to finish is not forwarded if it comes with the usage. -/
theorem finish_reason_withheld :
    (oaiStreamHandler (sampleRelay .openAI) [textChunk "Hi", stopChunk]).2 =
        [.chunk (textChunk "Hi"), .done] ∧
      stopChunk.carries = true := by
  decide +kernel

def Chunk.report (c : Chunk) : Option Usage := c.usage.filter fun u => validUsage (some u)

def lastReport (chunks : List Chunk) : Option Usage := (chunks.filterMap Chunk.report).getLast?

def silentTail (chunks : List Chunk) : ℕ :=
  (chunks.reverse.takeWhile fun c => c.report.isNone).length

/-- The last report, if there is one, is in the last chunk, or for an audio model in one of the
last two. -/
def ReportInspected {J : Type} (relay : Relay J) (chunks : List Chunk) : Prop :=
  lastReport chunks = none ∨ silentTail chunks ≤ if isAudioModel relay then 1 else 0

section
variable {J : Type} {relay : Relay J}

variable {cs : List Chunk} {last : Chunk}

theorem lastReport_append_some {u : Usage} (h : last.report = some u) :
    lastReport (cs ++ [last]) = some u := by
  simp [lastReport, h]

theorem lastReport_append_none (h : last.report = none) :
    lastReport (cs ++ [last]) = lastReport cs := by
  simp [lastReport, h]

theorem silentTail_append_some {u : Usage} (h : last.report = some u) :
    silentTail (cs ++ [last]) = 0 := by
  simp [silentTail, h]

theorem silentTail_append_none (h : last.report = none) :
    silentTail (cs ++ [last]) = silentTail cs + 1 := by
  simp [silentTail, h]

theorem report_eq (c : Chunk) : c.report = if validUsage c.usage then c.usage else none := by
  unfold Chunk.report
  cases c.usage with
  | none => rfl
  | some u => simp [Option.filter]

/-- The report that is used is the last one, if it is among those that are looked at. -/
theorem inspectedUsage_eq (cs : List Chunk) (last : Chunk) : inspectedUsage relay cs last =
      if silentTail (cs ++ [last]) ≤ (if isAudioModel relay then 1 else 0) then
        lastReport (cs ++ [last]) else none := by
  by_cases hval : validUsage last.usage = true
  · obtain ⟨u, hu⟩ := Option.isSome_iff_exists.mp (validUsage_isSome hval)
    have hrep : last.report = some u := by rw [report_eq, if_pos hval, hu]
    rw [inspectedUsage, if_pos hval, silentTail_append_some hrep, if_pos (Nat.zero_le _),
      lastReport_append_some hrep, hu]
  have hrep : last.report = none := by rw [report_eq, if_neg hval]
  rw [inspectedUsage, if_neg hval, silentTail_append_none hrep,
    lastReport_append_none hrep, audioUsage]
  by_cases haud : isAudioModel relay = true
  · simp only [haud, if_true]
    rcases List.eq_nil_or_concat cs with rfl | ⟨cs, c, rfl⟩
    · rfl
    have hbind : ((cs.concat c).getLast?.bind Chunk.usage).filter
        (fun u => validUsage (some u)) = c.report := by
      rw [List.concat_eq_append, List.getLast?_concat]
      rfl
    rw [hbind, List.concat_eq_append]
    cases hc : c.report with
    | none => rw [silentTail_append_none hc, if_neg (by omega)]
    | some u => rw [silentTail_append_some hc, lastReport_append_some hc, if_pos le_rfl]
  · rw [if_neg haud, if_neg haud, if_neg (by omega)]

end

/-- The last report of the stream is billed, and an estimate only if there is none, exactly if
that report is one of those that the handler looks at. -/
theorem usage_billed_iff {J : Type} (relay : Relay J) (chunks : List Chunk) : (∀ estimate post,
      let r := { relay with estimateTokenByModel := estimate, applyUsagePostProcessing := post }
      (oaiStreamHandler r chunks).1 =
        post ((lastReport chunks).getD (estimatedUsage r chunks)) chunks.getLast?) ↔
      ReportInspected relay chunks := by
  rcases List.eq_nil_or_concat chunks with rfl | ⟨cs, last, rfl⟩
  · refine iff_of_true (fun estimate post => ?_) (.inl rfl)
    simp [oaiStreamHandler, StreamState.start, handleLastResponse, audioUsage, lastReport]
  rw [List.concat_eq_append]
  have hbil : ∀ estimate post,
      let r := { relay with estimateTokenByModel := estimate, applyUsagePostProcessing := post }
      (oaiStreamHandler r (cs ++ [last])).1 =
        post ((if silentTail (cs ++ [last]) ≤ (if isAudioModel relay then 1 else 0) then
          lastReport (cs ++ [last]) else none).getD (estimatedUsage r (cs ++ [last])))
          (some last) := by
    intro estimate post r
    rw [oaiStreamHandler_fst, billedUsage, inspectedUsage_eq]
    rfl
  constructor
  · intro h
    by_contra hnot
    obtain ⟨hrep, htail⟩ := not_or.mp hnot
    obtain ⟨u, hu⟩ := Option.ne_none_iff_exists'.mp hrep
    -- an estimate that differs from the report
    have hest := h (fun _ _ => u.completionTokens + 1) (fun v _ => v)
    have hcode := hbil (fun _ _ => u.completionTokens + 1) (fun v _ => v)
    dsimp only at hest hcode
    rw [if_neg htail, Option.getD_none] at hcode
    rw [hcode, hu, Option.getD_some] at hest
    have htokens := congrArg Usage.completionTokens hest
    simp only [estimatedUsage, responseText2Usage] at htokens
    omega
  · intro h estimate post r
    refine (hbil estimate post).trans ?_
    rw [List.getLast?_concat]
    congr 2
    obtain hnone | htail := h
    · rw [hnone, ite_self]
    · rw [if_pos htail]

/-- A report that an empty chunk follows is not billed. -/
theorem report_not_billed :
    lastReport [textChunk "Hi", stopChunk, .single .empty none none] = some sampleUsage ∧
      (oaiStreamHandler (sampleRelay .openAI)
        [textChunk "Hi", stopChunk, .single .empty none none]).1 =
        { Usage.zero with promptTokens := 5, totalTokens := 5 } := by
  decide +kernel

end NewApi.Chat
