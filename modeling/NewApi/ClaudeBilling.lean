import NewApi.ClaudeUpstream
import NewApi.QuotaDialects

/-!
# Billing of streamed answers

The usage of a stream is put together from its events: the start of the message has the first counts,
and each message delta replaces those it has. As the counts of a stream are cumulative, this gives the
counts of the answer in one piece. Web searches are only billed if the answer is in one piece.
-/
namespace NewApi.ClaudeUpstream
open Chat

/-- No count is larger than that of the whole message. -/
structure UpstreamUsage.Within (u whole : UpstreamUsage) : Prop where
  input : 0 ≤ u.inputTokens ∧ u.inputTokens ≤ whole.inputTokens
  output : 0 ≤ u.outputTokens ∧ u.outputTokens ≤ whole.outputTokens
  cacheRead : 0 ≤ u.cacheReadInputTokens ∧ u.cacheReadInputTokens ≤ whole.cacheReadInputTokens
  cacheCreation : 0 ≤ u.cacheCreationInputTokens ∧
    u.cacheCreationInputTokens ≤ whole.cacheCreationInputTokens
  cacheCreation5m : 0 ≤ u.getCacheCreation5mTokens ∧
    u.getCacheCreation5mTokens ≤ whole.getCacheCreation5mTokens
  cacheCreation1h : 0 ≤ u.getCacheCreation1hTokens ∧
    u.getCacheCreation1hTokens ≤ whole.getCacheCreation1hTokens

/-- The response carries no usage that is used. -/
def ClaudeResponse.Silent (r : ClaudeResponse) : Prop :=
  r.type ≠ .messageStart ∧ r.type ≠ .messageDelta

open ClaudeResponse

structure ClaudeResponse.Regular (r : ClaudeResponse) : Prop where
  noError : r.error = none
  partialJson : ∀ delta, r.delta = some delta → delta.type = .inputJsonDelta →
    delta.partialJson ≠ none

/-- The events stream a message with the usage `whole`. The start of the message has the initial
usage, the last message delta has the final one, and what is reported in between is not more. -/
structure Streams (whole : UpstreamUsage) (events : List ClaudeResponse) : Prop where
  regular : ∀ r ∈ events, r.Regular
  split : ∃ before start middle last after, events = before ++ start :: (middle ++ last :: after) ∧
    (∀ r ∈ before ++ after, r.Silent) ∧ start.type = .messageStart ∧
    (∃ u, start.message.bind (·.usage) = some u ∧ u.Within whole) ∧
    (∀ r ∈ middle, r.type ≠ .messageStart ∧ ∀ u, r.usage = some u → u.Within whole) ∧
    last.type = .messageDelta ∧ last.usage = some whole ∧ whole.Within whole

def ClaudeResponseInfo.after (info : ClaudeResponseInfo) (r : ClaudeResponse) :
    ClaudeResponseInfo :=
  (formatClaudeResponseInfo r info).getD info

section
variable {relay : Relay} {s : StreamState} {r : ClaudeResponse} {info : ClaudeResponseInfo}
  {whole u : UpstreamUsage} {usage : BilledUsage}

theorem choiceOf_ok (h : r.Regular) : ∃ choice, choiceOf r = .ok choice := by
  unfold choiceOf
  cases htype : r.type
  case contentBlockDelta =>
    cases hdlt : r.delta with
    | none => exact ⟨_, rfl⟩
    | some delta =>
      have hjson := h.partialJson delta hdlt
      simp only [blockDeltaChoice]
      cases hkind : delta.type
      case inputJsonDelta =>
        cases hpart : delta.partialJson with
        | none => exact absurd hpart (hjson hkind)
        | some json => exact ⟨_, rfl⟩
      all_goals exact ⟨_, rfl⟩
  all_goals exact ⟨_, rfl⟩

theorem handle_ok (hfmt : relay.relayFormat ≠ .gemini) (h : r.Regular) :
    ∃ s', handleStreamResponseData relay s (some r) = .ok s' ∧ s'.info = s.info.after r := by
  obtain ⟨choice, hch⟩ := choiceOf_ok h
  unfold handleStreamResponseData ClaudeResponseInfo.after
  dsimp only
  rw [h.noError, if_neg (by simp)]
  cases hrel : relay.relayFormat with
  | claude => exact ⟨_, rfl, rfl⟩
  | gemini => exact absurd hrel hfmt
  | openAI =>
    have hchunk : ∃ chunk, streamResponseClaude2OpenAI r = .ok chunk := by
      unfold streamResponseClaude2OpenAI
      rw [hch]
      exact ⟨_, rfl⟩
    obtain ⟨chunk, hchunk⟩ := hchunk
    rw [hchunk]
    cases hinfo : formatClaudeResponseInfo r s.info with
    | none => exact ⟨s, rfl, rfl⟩
    | some info => exact ⟨_, rfl, rfl⟩

/-- Regular events are all handled. -/
theorem relayEvents_ok (hfmt : relay.relayFormat ≠ .gemini) (events : List ClaudeResponse)
    (s : StreamState) (h : ∀ r ∈ events, r.Regular) :
    ∃ s', relayEvents relay (events.map some) s = (none, s') ∧
      s'.info = events.foldl ClaudeResponseInfo.after s.info := by
  induction events generalizing s with
  | nil => exact ⟨s, rfl, rfl⟩
  | cons r events ih =>
    obtain ⟨s₁, hstep, hinfo⟩ := handle_ok (s := s) hfmt (h r List.mem_cons_self)
    obtain ⟨s', hrun, hfold⟩ := ih s₁ fun r' hr' => h r' (List.mem_cons_of_mem _ hr')
    refine ⟨s', ?_, ?_⟩
    · rw [List.map_cons, relayEvents, hstep]
      exact hrun
    · rw [List.foldl_cons, ← hinfo]
      exact hfold

theorem after_silent (info : ClaudeResponseInfo) (h : r.Silent) :
    (info.after r).usage = info.usage ∧ (info.after r).done = info.done := by
  obtain ⟨hst, hdlt⟩ := h
  unfold ClaudeResponseInfo.after formatClaudeResponseInfo
  cases htype : r.type
  case messageStart => exact absurd htype hst
  case messageDelta => exact absurd htype hdlt
  case contentBlockDelta => cases r.delta <;> exact ⟨rfl, rfl⟩
  all_goals exact ⟨rfl, rfl⟩

theorem foldl_silent (events : List ClaudeResponse) (info : ClaudeResponseInfo)
    (h : ∀ r ∈ events, r.Silent) : (events.foldl ClaudeResponseInfo.after info).usage = info.usage ∧
      (events.foldl ClaudeResponseInfo.after info).done = info.done := by
  induction events generalizing info with
  | nil => exact ⟨rfl, rfl⟩
  | cons r events ih =>
    obtain ⟨husg, hdone⟩ := ih (info.after r) fun r' hr' => h r' (List.mem_cons_of_mem _ hr')
    obtain ⟨husage', hdone'⟩ := after_silent info (h r List.mem_cons_self)
    rw [List.foldl_cons, husg, hdone, husage', hdone']
    exact ⟨rfl, rfl⟩

/-- The counts that are billed are not more than those of the whole message. -/
structure BilledUsage.Within (usage : BilledUsage) (whole : UpstreamUsage) : Prop where
  input : 0 ≤ usage.promptTokens ∧ usage.promptTokens ≤ whole.inputTokens
  output : 0 ≤ usage.completionTokens ∧ usage.completionTokens ≤ whole.outputTokens
  cacheRead : 0 ≤ usage.cachedTokens ∧ usage.cachedTokens ≤ whole.cacheReadInputTokens
  cacheCreation : 0 ≤ usage.cachedCreationTokens ∧
    usage.cachedCreationTokens ≤ whole.cacheCreationInputTokens
  cacheCreation5m : 0 ≤ usage.claudeCacheCreation5mTokens ∧
    usage.claudeCacheCreation5mTokens ≤ whole.getCacheCreation5mTokens
  cacheCreation1h : 0 ≤ usage.claudeCacheCreation1hTokens ∧
    usage.claudeCacheCreation1hTokens ≤ whole.getCacheCreation1hTokens

theorem BilledUsage.Within.start (h : u.Within whole) : (usage.start u).Within whole :=
  { h with }

theorem newer_within {old new bound : ℤ} (hold : 0 ≤ old ∧ old ≤ bound)
    (hnew : 0 ≤ new ∧ new ≤ bound) : 0 ≤ newer old new ∧ newer old new ≤ bound := by
  unfold newer
  split_ifs
  · exact hnew
  · exact hold

theorem BilledUsage.Within.patch (h : usage.Within whole) (hu : u.Within whole) :
    (usage.patch u).Within whole :=
  ⟨newer_within h.input hu.input, newer_within h.output hu.output,
    newer_within h.cacheRead hu.cacheRead, newer_within h.cacheCreation hu.cacheCreation,
    newer_within h.cacheCreation5m hu.cacheCreation5m,
    newer_within h.cacheCreation1h hu.cacheCreation1h⟩

/-- A count that has not become larger than the last one is replaced by it, also if that is 0. -/
theorem newer_of_le {old new : ℤ} (h : 0 ≤ old ∧ old ≤ new) : newer old new = new := by
  unfold newer
  split_ifs
  · rfl
  · omega

theorem BilledUsage.Within.patch_whole (h : usage.Within whole) :
    usage.patch whole = BilledUsage.take whole := by
  unfold BilledUsage.patch BilledUsage.take
  simp only [newer_of_le h.input, newer_of_le h.output, newer_of_le h.cacheRead,
    newer_of_le h.cacheCreation, newer_of_le h.cacheCreation5m, newer_of_le h.cacheCreation1h]

theorem after_middle (h : info.usage.Within whole) (hst : r.type ≠ .messageStart)
    (hu : ∀ u, r.usage = some u → u.Within whole) : (info.after r).usage.Within whole := by
  by_cases hdlt : r.type = .messageDelta
  · unfold ClaudeResponseInfo.after formatClaudeResponseInfo
    rw [hdlt]
    cases husg : r.usage with
    | none => exact h
    | some u => exact h.patch (hu u husg)
  · rw [(after_silent info ⟨hst, hdlt⟩).1]
    exact h

theorem foldl_middle (events : List ClaudeResponse) (info : ClaudeResponseInfo)
    (h : info.usage.Within whole)
    (hmiddle : ∀ r ∈ events, r.type ≠ .messageStart ∧ ∀ u, r.usage = some u → u.Within whole) :
    (events.foldl ClaudeResponseInfo.after info).usage.Within whole := by
  induction events generalizing info with
  | nil => exact h
  | cons r events ih =>
    obtain ⟨hst, hu⟩ := hmiddle r List.mem_cons_self
    exact ih _ (after_middle h hst hu) fun r' hr' => hmiddle r' (List.mem_cons_of_mem _ hr')

theorem Streams.usage_eq {events : List ClaudeResponse} (h : Streams whole events)
    (info : ClaudeResponseInfo) :
    (events.foldl ClaudeResponseInfo.after info).usage = BilledUsage.take whole ∧
      (events.foldl ClaudeResponseInfo.after info).done = true := by
  obtain ⟨before, start, middle, last, after, rfl, hsilent, hst, ⟨u, hu, hwin⟩, hmiddle,
    hlast, hfin, -⟩ := h.split
  have hstar : ∀ info : ClaudeResponseInfo, (info.after start).usage.Within whole := by
    intro info
    unfold ClaudeResponseInfo.after formatClaudeResponseInfo
    simp only [hst, hu, Option.getD_some]
    exact .start hwin
  rw [List.foldl_append, List.foldl_cons, List.foldl_append, List.foldl_cons]
  obtain ⟨info₁, hinfo₁⟩ : ∃ i, before.foldl ClaudeResponseInfo.after info = i := ⟨_, rfl⟩
  obtain ⟨info₂, hinfo₂⟩ : ∃ i, middle.foldl ClaudeResponseInfo.after (info₁.after start) = i :=
    ⟨_, rfl⟩
  have hwin₂ : info₂.usage.Within whole := by
    rw [← hinfo₂]
    exact foldl_middle middle _ (hstar info₁) hmiddle
  rw [hinfo₁, hinfo₂]
  obtain ⟨husg, hdone⟩ := foldl_silent after (info₂.after last)
    fun r hr => hsilent r (List.mem_append_right _ hr)
  rw [husg, hdone]
  have haft : info₂.after last = { info₂ with usage := info₂.usage.patch whole, done := true } := by
    unfold ClaudeResponseInfo.after formatClaudeResponseInfo
    simp [hlast, hfin]
  rw [haft]
  exact ⟨hwin₂.patch_whole, rfl⟩

theorem completeUsage_eq (husg : s.info.usage = BilledUsage.take whole)
    (hdone : s.info.done = true) (hpos : 0 < whole.outputTokens) :
    completeUsage relay s = BilledUsage.take whole := by
  have hcomp : (BilledUsage.take whole).completionTokens ≠ 0 := hpos.ne'
  simp only [completeUsage, husg, hdone, hcomp, Bool.true_eq_false, or_self, if_false]
  rfl

theorem streamHandler_eq (hfmt : relay.relayFormat ≠ .gemini) (hpos : 0 < whole.outputTokens)
    {events : List ClaudeResponse} (h : Streams whole events) (s : StreamState)
    (ctx : TextQuota.Ctx) : ∃ sent, claudeStreamHandler relay s (events.map some) ctx =
      .ok (⟨BilledUsage.take whole, ctx⟩, sent) := by
  obtain ⟨s', hrun, hinfo⟩ := relayEvents_ok hfmt events s h.regular
  obtain ⟨husg, hdone⟩ := h.usage_eq s.info
  rw [← hinfo] at husg hdone
  refine ⟨(handleStreamFinalResponse relay s').sent, ?_⟩
  unfold claudeStreamHandler
  rw [hrun]
  simp only [handleStreamFinalResponse, completeUsage_eq husg hdone hpos]

end

/-- The web searches of an answer, which are 0 if there is no count. -/
def UpstreamUsage.searches (u : UpstreamUsage) : ℤ := u.webSearchRequests.getD 0

/-- A streamed message and the same message in one piece leave the same usage. They leave the same
number of web searches, and so are billed alike, exactly if there are none. -/
theorem claude_billing_same_iff (relay : Relay) (hformat : relay.relayFormat ≠ .gemini)
    {whole : UpstreamUsage} (hpos : 0 < whole.outputTokens) {events : List ClaudeResponse}
    (hevents : Streams whole events) {message : ClaudeResponse} (hmessage : message.Regular)
    (husage : message.usage = some whole) (s : StreamState) {ctx : TextQuota.Ctx}
    (hctx : ctx.claudeWebSearchRequests = 0) : ∃ streamed sent single,
      claudeStreamHandler relay s (events.map some) ctx = .ok (streamed, sent) ∧
      claudeHandler s ctx (some message) = .ok single ∧ streamed.usage = single.usage ∧
      (streamed.ctx.claudeWebSearchRequests = single.ctx.claudeWebSearchRequests ↔
        whole.searches ≤ 0) ∧
      (whole.searches ≤ 0 → ∀ lib info, streamed.quota lib info = single.quota lib info) := by
  obtain ⟨sent, hstr⟩ := streamHandler_eq hformat hpos hevents s ctx
  have hsingle : claudeHandler s ctx (some message) = .ok ⟨BilledUsage.take whole,
      if 0 < whole.searches then { ctx with claudeWebSearchRequests := whole.searches }
      else ctx⟩ := by
    unfold claudeHandler
    dsimp only
    rw [hmessage.noError, if_neg (by simp), husage]
    rfl
  refine ⟨_, sent, _, hstr, hsingle, rfl, ?_, ?_⟩
  · split_ifs with hsear
    · dsimp only
      omega
    · exact iff_of_true rfl (by omega)
  · intro hnone lib info
    rw [if_neg (by omega)]

namespace Sample

def usage (searches : Option ℤ) : UpstreamUsage := ⟨⟨20, 7, 0, 5, none⟩, searches⟩

def initialUsage : UpstreamUsage := ⟨⟨20, 1, 0, 5, none⟩, none⟩

def events (searches : Option ℤ) : List ClaudeResponse :=
  [{ ofType .messageStart with
      message := some { ClaudeMediaMessage.ofType (.other "message") with
        usage := some initialUsage } },
    { ofType .contentBlockDelta with
      index := some 0
      delta := some { ClaudeMediaMessage.ofType .textDelta with text := some "hi" } },
    { ofType .messageDelta with usage := some (usage searches) },
    ofType .messageStop]

def message (searches : Option ℤ) : ClaudeResponse :=
  { ofType .message with usage := some (usage searches) }

def relay : Relay := ⟨.openAI, true, 0, fun _ _ => 0⟩

def state : StreamState := .start "msg" "claude-sonnet-4" 0

theorem streams : Streams (usage none) (events none) := by
  have hwin : initialUsage.Within (usage none) :=
    ⟨by decide, by decide, by decide, by decide, by decide, by decide⟩
  have hself : (usage none).Within (usage none) :=
    ⟨by decide, by decide, by decide, by decide, by decide, by decide⟩
  refine ⟨?_, [], _, [_], _, [_], rfl, ?_, rfl, ⟨_, rfl, hwin⟩, ?_, rfl, rfl, hself⟩
  · intro r hr
    simp only [events, List.mem_cons, List.not_mem_nil, or_false] at hr
    rcases hr with rfl | rfl | rfl | rfl <;> refine ⟨rfl, ?_⟩ <;>
      simp [ofType, ClaudeMediaMessage.ofType]
  · simp [ClaudeResponse.Silent, ofType]
  · simp [ofType]

end Sample

theorem claude_billing_same_sample : ∃ streamed sent single,
      claudeStreamHandler Sample.relay Sample.state ((Sample.events none).map some)
        TextQuota.sampleCtx = .ok (streamed, sent) ∧
      claudeHandler Sample.state TextQuota.sampleCtx (some (Sample.message none)) = .ok single ∧
      ∀ lib info, streamed.quota lib info = single.quota lib info := by
  have hmsg : (Sample.message none).Regular := by
    refine ⟨rfl, ?_⟩
    simp [Sample.message, ofType]
  have hctx : TextQuota.sampleCtx.claudeWebSearchRequests = 0 := rfl
  have hnone : (Sample.usage none).searches ≤ 0 := by decide
  obtain ⟨streamed, sent, single, hstr, hsingle, -, -, hqt⟩ :=
    claude_billing_same_iff Sample.relay (by decide) (by decide) Sample.streams hmsg rfl
      Sample.state hctx
  exact ⟨streamed, sent, single, hstr, hsingle, hqt hnone⟩

/-- A web search is billed if the answer is in one piece, and not if it is streamed. -/
theorem web_search_not_billed : ∃ streamed sent single,
      claudeStreamHandler Sample.relay Sample.state ((Sample.events (some 1)).map some)
        TextQuota.sampleCtx = .ok (streamed, sent) ∧
      claudeHandler Sample.state TextQuota.sampleCtx (some (Sample.message (some 1))) = .ok single ∧
      streamed.quota TextQuota.sampleSettings TextQuota.sampleInfo = 56 ∧
      single.quota TextQuota.sampleSettings TextQuota.sampleInfo = 5056 := by
  refine ⟨_, _, _, rfl, rfl, ?_, ?_⟩ <;> decide +kernel

end NewApi.ClaudeUpstream
