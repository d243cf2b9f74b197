import NewApi.GoStrings
import NewApi.Runs

/-!
# Creation requests with an idempotency key

The middleware `CreationIdempotency` (`middleware/creation_idempotency.go`) lets one request per
token and key through to its handler and answers the others from the row in which the response of
that one is recorded (`model/creation_idempotency.go`). The response is buffered by a writer of its
own until the handler returns, flushes it or writes more than 16 MiB.

Any number of requests run at once. The events are the statements they make on the database, each
of which may fail, and the end of a handler. Expired rows are deleted by
`DeleteExpiredCreationIdempotency`, which releases their keys.
-/
namespace NewApi.Creation

/-- The value of `creationIdempotencyResponseLimit`. -/
def responseLimit : ℕ := 16 * 2 ^ 20

/-- The writer, with what it has passed on to the client: the status, which is sent once, and the
bytes. -/
structure Writer where
  body : Bytes
  truncated : Bool
  status : ℕ
  (written streaming : Bool)
  sentStatus : Option ℕ
  sent : Bytes

/-- The calls of a handler. `WriteString` is `Write`. -/
inductive WriterCall where
  | writeHeader (status : ℕ)
  | write (data : Bytes)
  | flush
deriving DecidableEq

namespace Writer

/-- Nothing was written yet. -/
def start : Writer := ⟨[], false, 0, false, false, none, []⟩

/-- The first status counts. -/
def writeHeader (w : Writer) (status : ℕ) : Writer :=
  if w.written then w else { w with status := status, written := true }

/-- A handler that sets no status answers 200. -/
def finalStatus (w : Writer) : ℕ := if w.status = 0 then 200 else w.status

/-- What is buffered goes to the client, and all that follows goes there at once. -/
def flushBuffered (w : Writer) : Writer :=
  if w.streaming then w
  else { w with
    streaming := true
    sentStatus := some w.finalStatus
    sent := w.sent ++ w.body }

/-- Data that goes straight to the client. -/
def pass (w : Writer) (data : Bytes) : Writer := { w with sent := w.sent ++ data }

/-- Data beyond the limit ends the buffering. -/
def write (w : Writer) (data : Bytes) : Writer :=
  let w := w.writeHeader 200
  if w.streaming then w.pass data
  else if responseLimit < w.body.length + data.length then
    ({ w with truncated := true }.flushBuffered).pass data
  else { w with body := w.body ++ data }

/-- The three calls that a handler makes on its writer. -/
def call (w : Writer) : WriterCall → Writer
  | .writeHeader status => w.writeHeader status
  | .write data => w.write data
  | .flush => w.flushBuffered

end Writer

/-- What the client gets. -/
structure Response where
  status : ℕ
  headers : List (String × String)
  body : Bytes
deriving DecidableEq

/-- What a handler does: its calls of the writer, and the headers that it sets. -/
structure Output where
  calls : List WriterCall
  headers : List (String × String)
deriving DecidableEq

namespace Output

/-- The writer after all calls of the handler. -/
def writer (out : Output) : Writer := out.calls.foldl Writer.call Writer.start

def header (out : Output) (name : String) : String := (out.headers.lookup name).getD ""

/-- The headers that are kept for a replay. -/
def recordedHeaders (out : Output) : List (String × String) :=
  ["Content-Type", "X-Oneapi-Request-Id", "X-Oneapi-Actual-Quota", "X-New-Api-Other-Ratios"].map
    fun name => (name, out.header name)

/-- What the client gets. The middleware flushes at the end. -/
def response (out : Output) : Response :=
  let w := out.writer.flushBuffered
  ⟨w.sentStatus.getD 200, out.headers, w.sent⟩

end Output

def WriterCall.data : WriterCall → Bytes
  | .write data => data
  | _ => []

/-- All data that the handler has written. -/
def Output.written (out : Output) : Bytes := out.calls.flatMap WriterCall.data

/-- The handler leaves it to the middleware to flush the response. -/
def Output.Buffered (out : Output) : Prop := WriterCall.flush ∉ out.calls

namespace Writer

@[simp] theorem writeHeader_body (w : Writer) (status : ℕ) :
    (w.writeHeader status).body = w.body := by
  unfold writeHeader
  split_ifs <;> rfl

@[simp] theorem writeHeader_streaming (w : Writer) (status : ℕ) :
    (w.writeHeader status).streaming = w.streaming := by
  unfold writeHeader
  split_ifs <;> rfl

@[simp] theorem writeHeader_sent (w : Writer) (status : ℕ) :
    (w.writeHeader status).sent = w.sent := by
  unfold writeHeader
  split_ifs <;> rfl

@[simp] theorem writeHeader_truncated (w : Writer) (status : ℕ) :
    (w.writeHeader status).truncated = w.truncated := by
  unfold writeHeader
  split_ifs <;> rfl

/-- What has been written is buffered until the response streams. -/
structure Holds (w : Writer) (data : Bytes) : Prop where
  buffered : w.streaming = false → w.body = data ∧ w.sent = [] ∧ w.truncated = false
  streamed : w.streaming = true → w.sent = data ∧ w.body <+: data
  small : w.body.length ≤ responseLimit
  large : w.truncated = true → responseLimit < data.length

theorem holds_start : start.Holds [] := by
  refine ⟨fun _ => ⟨rfl, rfl, rfl⟩, nofun, Nat.zero_le _, nofun⟩

variable {w : Writer} {data : Bytes}

theorem Holds.writeHeader (h : w.Holds data) (status : ℕ) : (w.writeHeader status).Holds data := by
  constructor
  · simpa using h.buffered
  · simpa using h.streamed
  · simpa using h.small
  · simpa using h.large

theorem Holds.flushBuffered (h : w.Holds data) : w.flushBuffered.Holds data := by
  unfold Writer.flushBuffered
  split_ifs with hstr
  · exact h
  obtain ⟨hbody, hsent, htr⟩ := h.buffered (Bool.eq_false_of_not_eq_true hstr)
  refine ⟨nofun, fun _ => ?_, h.small, h.large⟩
  rw [hsent, hbody]
  exact ⟨rfl, List.prefix_rfl⟩

theorem flushBuffered_streaming (w : Writer) : w.flushBuffered.streaming = true := by
  unfold flushBuffered
  split_ifs with h
  · exact h
  · rfl

/-- A response that is not flushed streams only once it is too large. -/
theorem Holds.write (h : w.Holds data) (more : Bytes) : (w.write more).Holds (data ++ more) := by
  unfold Writer.write
  by_cases hstr : w.streaming = true
  · obtain ⟨hsent, hbody⟩ := h.streamed hstr
    simp only [writeHeader_streaming, hstr, if_true]
    refine ⟨fun hf => ?_, fun _ => ⟨?_, ?_⟩, ?_, ?_⟩
    · simp [pass, hstr] at hf
    · simp [pass, hsent]
    · simpa [pass] using hbody.trans (List.prefix_append data more)
    · simpa [pass] using h.small
    · intro htr
      have hlg := h.large (by simpa [pass] using htr)
      rw [List.length_append]
      omega
  have hf := Bool.eq_false_of_not_eq_true hstr
  obtain ⟨hbody, hsent, htr⟩ := h.buffered hf
  simp only [writeHeader_streaming, hf, Bool.false_eq_true, if_false, writeHeader_body]
  split_ifs with hlg
  · refine ⟨fun hfalse' => ?_, fun _ => ⟨?_, ?_⟩, ?_, fun _ => ?_⟩
    · simp [pass, Writer.flushBuffered] at hfalse'
    · simp [pass, Writer.flushBuffered, hsent, hbody]
    · simp [pass, Writer.flushBuffered, hbody]
    · simpa [pass, Writer.flushBuffered, hf] using h.small
    · rw [List.length_append, ← hbody]
      exact hlg
  · refine ⟨fun _ => ?_, fun htrue => ?_, ?_, fun htrue => ?_⟩
    · simp [hbody, hsent, htr]
    · simp at htrue
    · simpa using Nat.le_of_not_lt hlg
    · simp [htr] at htrue

theorem Holds.calls (h : w.Holds data) (calls : List WriterCall) :
    (calls.foldl call w).Holds (data ++ calls.flatMap WriterCall.data) := by
  induction calls generalizing w data with
  | nil => simpa using h
  | cons c calls ih =>
    have hstep : (w.call c).Holds (data ++ c.data) := by
      cases c with
      | writeHeader status => simpa [call, WriterCall.data] using h.writeHeader status
      | write more => exact h.write more
      | flush => simpa [call, WriterCall.data] using h.flushBuffered
    simpa using ih hstep

/-- Unless it is flushed, a response streams only because it is too large, and then its status is
settled. -/
def Settled (w : Writer) : Prop :=
  w.streaming = true → w.truncated = true ∧ w.written = true ∧ w.sentStatus = some w.finalStatus

theorem Settled.writeHeader (h : w.Settled) (status : ℕ) : (w.writeHeader status).Settled := by
  unfold Writer.writeHeader
  split_ifs with hwrt
  · exact h
  · intro hstr
    exact absurd (h hstr).2.1 hwrt

@[simp] theorem writeHeader_written (w : Writer) (status : ℕ) :
    (w.writeHeader status).written = true := by
  unfold writeHeader
  split_ifs with h
  · exact h
  · rfl

theorem Settled.write (h : w.Settled) (more : Bytes) : (w.write more).Settled := by
  have hhd := h.writeHeader 200
  have hwrt := w.writeHeader_written 200
  unfold Writer.write
  dsimp only
  split_ifs with hstr hlg
  · exact hhd
  · intro _
    simp only [Writer.flushBuffered, hstr, Bool.false_eq_true, if_false, pass]
    exact ⟨trivial, hwrt, rfl⟩
  · intro htrue
    exact absurd htrue hstr

theorem Settled.calls {calls : List WriterCall} (hcs : WriterCall.flush ∉ calls)
    (h : w.Settled) : (calls.foldl call w).Settled := by
  induction calls generalizing w with
  | nil => exact h
  | cons c calls ih =>
    rw [List.mem_cons, not_or] at hcs
    refine ih hcs.2 ?_
    cases c with
    | writeHeader status => exact h.writeHeader status
    | flush => exact absurd rfl hcs.1
    | write more => exact h.write more

end Writer

namespace Output

theorem writer_holds (out : Output) : out.writer.Holds out.written := by
  simpa [writer, written] using Writer.holds_start.calls out.calls

/-- The client gets all that the handler writes. -/
theorem response_body (out : Output) : out.response.body = out.written :=
  (out.writer_holds.flushBuffered.streamed (Writer.flushBuffered_streaming _)).1

variable {out : Output}

theorem settled_of_buffered (h : out.Buffered) : out.writer.Settled :=
  Writer.Settled.calls h nofun

/-- A response that the handler does not flush is sent with the status that is recorded. -/
theorem response_status_of_buffered (h : out.Buffered) :
    out.response.status = out.writer.finalStatus := by
  have hset := settled_of_buffered h
  simp only [response, Writer.flushBuffered]
  split_ifs with hstr
  · rw [(hset hstr).2.2, Option.getD_some]
  · rfl

/-- A response that the handler does not flush is recorded as a whole, unless it is too large. -/
theorem recorded_of_buffered (h : out.Buffered) :
    (out.writer.truncated = true ↔ responseLimit < out.written.length) ∧
      (out.writer.truncated = false → out.writer.body = out.written) := by
  have hholds := out.writer_holds
  cases hstr : out.writer.streaming with
  | true =>
    have htrue := (settled_of_buffered h hstr).1
    refine ⟨⟨hholds.large, fun _ => htrue⟩, fun hf => ?_⟩
    rw [htrue] at hf
    cases hf
  | false =>
    obtain ⟨hbody, -, hf⟩ := hholds.buffered hstr
    refine ⟨⟨hholds.large, fun hlg => ?_⟩, fun _ => hbody⟩
    have hsm := hholds.small
    rw [hbody] at hsm
    omega

end Output

/-- A reservation is completed when its response is stored. -/
inductive Status where
  | processing
  | completed
deriving DecidableEq

/-- A row of the table: the reservation of a key and the response that is stored for it. -/
structure Entry where
  (id tokenID : ℕ)
  (key requestHash : String)
  status : Status
  responseStatus : ℕ
  responseHeaders : List (String × String)
  responseBody : Bytes
  responseTruncated : Bool
  expiresAt : ℕ

/-- The values of the unique index. -/
abbrev Slot := ℕ × String

/-- The rows are unique in token and key. -/
def Entry.slot (e : Entry) : Slot := (e.tokenID, e.key)

/-- What `creationIdempotencyError` answers. -/
structure IdempotencyError where
  status : ℕ
  (code message retryAfter : String)
deriving DecidableEq

def invalidKey : IdempotencyError where
  status := 400
  code := "invalid_idempotency_key"
  message := "Idempotency-Key 必须为 8 到 128 位字母、数字、冒号、下划线或短横线。"
  retryAfter := ""

def invalidBody : IdempotencyError where
  status := 400
  code := "invalid_request_body"
  message := "无法读取请求体。"
  retryAfter := ""

def unavailable : IdempotencyError where
  status := 500
  code := "idempotency_unavailable"
  message := "幂等服务暂时不可用。"
  retryAfter := ""

def conflict : IdempotencyError where
  status := 409
  code := "idempotency_conflict"
  message := "同一 Idempotency-Key 不能用于不同请求。"
  retryAfter := ""

def inProgress : IdempotencyError where
  status := 425
  code := "idempotency_in_progress"
  message := "相同请求正在处理中，请稍后使用同一 Idempotency-Key 重试。"
  retryAfter := "2"

def responseTooLarge : IdempotencyError where
  status := 409
  code := "idempotency_response_too_large"
  message := "原请求已完成，但响应过大，无法通过幂等缓存重放。"
  retryAfter := ""

/-- How a request is answered: by its own handler, from the table, or with an error. -/
inductive Answer where
  | own (r : Response)
  | replayed (r : Response)
  | failed (e : IdempotencyError)
  | panicked
deriving DecidableEq

/-- What `replayCreationIdempotency` answers from a recorded response. -/
def replay (status : ℕ) (headers : List (String × String)) (body : Bytes) (truncated : Bool) :
    Answer :=
  if truncated then .failed responseTooLarge
  else .replayed ⟨if status < 100 then 200 else status, headers.filter fun h => h.2 ≠ "", body⟩

/-- The stored response, as a later request gets it. -/
def Entry.replay (e : Entry) : Answer :=
  Creation.replay e.responseStatus e.responseHeaders e.responseBody e.responseTruncated

/-- What a later request would get of this output. -/
def Output.replay (out : Output) : Answer :=
  Creation.replay out.writer.finalStatus out.recordedHeaders out.writer.body out.writer.truncated

/-- The update of `CompleteCreationIdempotency`. -/
def Entry.complete (id : ℕ) (requestHash : String) (out : Output) (e : Entry) : Entry :=
  if e.id = id ∧ e.requestHash = requestHash ∧ e.status = .processing then
    { e with
      status := .completed
      responseStatus := out.writer.finalStatus
      responseHeaders := out.recordedHeaders
      responseBody := out.writer.body
      responseTruncated := out.writer.truncated }
  else e

/-- A condition on a column is left out if the value is zero. -/
def getCreationIdempotency (entries : List Entry) (tokenID : ℕ) (key : String) : Option Entry :=
  entries.find? fun e => (tokenID = 0 ∨ e.tokenID = tokenID) ∧ (key = "" ∨ e.key = key)

/-- A request of an authenticated token: the token is a stored one, whose id is positive. -/
structure CreationRequest where
  tokenID : ℕ
  authenticated : 0 < tokenID
  key : String
  readable : Bool
  requestHash : String

def CreationRequest.slot (r : CreationRequest) : Slot := (r.tokenID, r.key)

/-- The characters that a key may have. -/
def isKeyChar (c : Char) : Bool :=
  ('A' ≤ c && c ≤ 'Z') || ('a' ≤ c && c ≤ 'z') || ('0' ≤ c && c ≤ '9') ||
    c == ':' || c == '_' || c == '-'

def validKey (key : String) : Bool :=
  decide (8 ≤ key.length) && decide (key.length ≤ 128) && key.toList.all isKeyChar

/-- Where a request stands. -/
inductive Phase where
  | arrived
  | unguarded
  | reserving
  | selecting
  | waiting
  | handling (id : ℕ)
  | completing (id : ℕ) (out : Output)
  | answered (a : Answer)
deriving DecidableEq

def Phase.failed (e : IdempotencyError) : Phase := .answered (.failed e)

/-- A request without a key is not guarded. -/
def checked (r : CreationRequest) : Phase :=
  if r.key = "" then .unguarded
  else if validKey r.key = false then .failed invalidKey
  else if r.readable = false then .failed invalidBody
  else .reserving

/-- What the row says to a request that could not reserve: another body is a conflict. -/
def selected (r : CreationRequest) : Option Entry → Phase
  | none => .failed unavailable
  | some e =>
    if e.requestHash ≠ r.requestHash then .failed conflict
    else if e.status = .completed then .answered e.replay
    else .waiting

/-- A waiting request looks again until the row is completed. -/
def polled : Option Entry → Phase
  | none => .failed unavailable
  | some e => if e.status = .completed then .answered e.replay else .waiting

/-- The rows, what each request is at, the requests that reached their handler, and the rows that
were deleted. -/
structure Service (ι : Type) where
  entries : List Entry
  nextId : ℕ
  phase : ι → Phase
  handled : List ι
  released : List Entry

/-- What can happen next, with the faults of the database. -/
inductive Event (ι : Type) where
  | check (i : ι)
  | insert (i : ι) (now : ℕ) (fails : Bool)
  | select (i : ι) (fails : Bool)
  | poll (i : ι) (fails : Bool)
  | timeout (i : ι)
  | handle (i : ι) (out : Option Output)
  | complete (i : ι) (fails : Bool)
  | deleteExpired (now : ℕ)

/-- The request that an event belongs to. -/
def Event.request {ι : Type} : Event ι → Option ι
  | .check i | .insert i _ _ | .select i _ | .poll i _ | .timeout i | .handle i _
  | .complete i _ => some i
  | .deleteExpired _ => none

variable {ι : Type} [DecidableEq ι] (req : ι → CreationRequest)

/-- An empty table, and no request has begun. -/
def Service.start : Service ι := ⟨[], 1, fun _ => .arrived, [], []⟩

def Service.setPhase (s : Service ι) (i : ι) (p : Phase) : Service ι :=
  { s with phase := Function.update s.phase i p }

/-- The row of a new reservation. -/
def newEntry (r : CreationRequest) (id now : ℕ) : Entry where
  id := id
  tokenID := r.tokenID
  key := r.key
  requestHash := r.requestHash
  status := .processing
  responseStatus := 0
  responseHeaders := []
  responseBody := []
  responseTruncated := false
  expiresAt := now + 7 * 24 * 60 * 60

/-- The row is new: the request goes on to its handler. -/
def Service.reserve (s : Service ι) (i : ι) (now : ℕ) : Service ι :=
  { s with
    entries := s.entries ++ [newEntry (req i) s.nextId now]
    nextId := s.nextId + 1
    phase := Function.update s.phase i (.handling s.nextId)
    handled := s.handled ++ [i] }

/-- The row of the request's token and key. -/
def Service.lookup (s : Service ι) (i : ι) : Option Entry :=
  getCreationIdempotency s.entries (req i).tokenID (req i).key

/-- The response is stored, and the client has it. -/
def Service.complete (s : Service ι) (i : ι) (id : ℕ) (out : Output) : Service ι :=
  { s with
    entries := s.entries.map (Entry.complete id (req i).requestHash out)
    phase := Function.update s.phase i (.answered (.own out.response)) }

/-- Expired rows are deleted, whatever their status. -/
def Service.deleteExpired (s : Service ι) (now : ℕ) : Service ι :=
  { s with
    entries := s.entries.filter fun e => ¬e.expiresAt < now
    released := s.released ++ s.entries.filter fun e => e.expiresAt < now }

/-- An event that does not fit what the request is at does nothing. -/
def step (ev : Event ι) (s : Service ι) : Service ι :=
  match ev with
  | .check i =>
    match s.phase i with
    | .arrived => s.setPhase i (checked (req i))
    | _ => s
  | .insert i now fails =>
    match s.phase i with
    | .reserving =>
      if fails then s.setPhase i (.failed unavailable)
      else if ∃ e ∈ s.entries, e.slot = (req i).slot then s.setPhase i .selecting
      else s.reserve req i now
    | _ => s
  | .select i fails =>
    match s.phase i with
    | .selecting =>
      s.setPhase i (if fails then .failed unavailable else selected (req i) (s.lookup req i))
    | _ => s
  | .poll i fails =>
    match s.phase i with
    | .waiting => s.setPhase i (if fails then .failed unavailable else polled (s.lookup req i))
    | _ => s
  | .timeout i =>
    match s.phase i with
    | .waiting => s.setPhase i (.failed inProgress)
    | _ => s
  | .handle i out =>
    match s.phase i, out with
    | .handling id, some out => s.setPhase i (.completing id out)
    | .handling _, none => s.setPhase i (.answered .panicked)
    | _, _ => s
  | .complete i fails =>
    match s.phase i with
    | .completing id out =>
      if fails then s.setPhase i (.answered (.own out.response)) else s.complete req i id out
    | _ => s
  | .deleteExpired now => s.deleteExpired now

variable (s : Service ι)

@[simp] theorem setPhase_phase (i : ι) (p : Phase) :
    (s.setPhase i p).phase = Function.update s.phase i p := rfl

@[simp] theorem reserve_phase (i : ι) (now : ℕ) :
    (s.reserve req i now).phase = Function.update s.phase i (.handling s.nextId) := rfl

@[simp] theorem complete_phase (i : ι) (id : ℕ) (out : Output) :
    (s.complete req i id out).phase =
      Function.update s.phase i (.answered (.own out.response)) := rfl

/-- The service after a run. -/
def after (evs : List (Event ι)) : Service ι := run (step req) evs Service.start

/-- The requests of a key whose handler has run. -/
def Service.handledFor (s : Service ι) (k : Slot) : List ι :=
  s.handled.filter fun i => (req i).slot = k

/-- The deleted rows of a key. -/
def Service.releasedFor (s : Service ι) (k : Slot) : List Entry :=
  s.released.filter fun e => e.slot = k

end NewApi.Creation
