import Mathlib.Data.List.TakeWhile
import NewApi.CreationIdempotency

/-!
# Replays of a recorded response

The writer of `CreationIdempotency` records the status and the body of a response until the
handler flushes it; what is written later is only passed on. A record that is not marked as
truncated is replayed to later requests. The statuses that reach the writer are three digit
codes, as `net/http` panics on others.
-/
namespace NewApi.Creation

namespace WriterCall

/-- The status that a call fixes, if none is fixed yet. -/
def status : WriterCall → Option ℕ
  | .writeHeader status => some (if status = 0 then 200 else status)
  | .write _ => some 200
  | .flush => none

end WriterCall

/-- The status of the first call: what is written or flushed without a status has 200. -/
def firstStatus : List WriterCall → ℕ
  | [] => 200
  | c :: _ => c.status.getD 200

def fixedStatus (calls : List WriterCall) : ℕ := (calls.findSome? WriterCall.status).getD 200

def dataOf (calls : List WriterCall) : Bytes := calls.flatMap WriterCall.data

def isNotFlush (c : WriterCall) : Bool := decide (c ≠ .flush)

def beforeFlush (calls : List WriterCall) : List WriterCall := calls.takeWhile isNotFlush

def fromFlush (calls : List WriterCall) : List WriterCall := calls.dropWhile isNotFlush

variable (calls : List WriterCall)

theorem flush_not_mem_beforeFlush :
    WriterCall.flush ∉ beforeFlush calls := by
  intro hmem
  have hnot : isNotFlush .flush = true := List.mem_takeWhile_imp hmem
  cases hnot

/-- The calls are all buffered, or the first flush is somewhere among them. -/
theorem flush_cases :
    (WriterCall.flush ∉ calls ∧ beforeFlush calls = calls ∧ fromFlush calls = []) ∨
      ∃ after, fromFlush calls = .flush :: after ∧
        calls = beforeFlush calls ++ .flush :: after := by
  have hspl : beforeFlush calls ++ fromFlush calls = calls := List.takeWhile_append_dropWhile
  cases hfrom : fromFlush calls with
  | nil =>
    rw [hfrom, List.append_nil] at hspl
    refine .inl ⟨?_, hspl, rfl⟩
    rw [← hspl]
    exact flush_not_mem_beforeFlush calls
  | cons c after =>
    have hflush : c = .flush := by
      have hhead := List.head?_dropWhile_not isNotFlush calls
      rw [show calls.dropWhile isNotFlush = c :: after from hfrom] at hhead
      simpa [isNotFlush] using hhead
    subst hflush
    rw [hfrom] at hspl
    exact .inr ⟨after, rfl, hspl.symm⟩

theorem firstStatus_eq :
    firstStatus calls = fixedStatus (beforeFlush calls) := by
  cases calls with
  | nil => rfl
  | cons c calls => cases c <;> rfl

namespace Writer
variable {w : Writer}

theorem call_finalStatus (w : Writer) (c : WriterCall) : (w.call c).finalStatus =
    if w.written then w.finalStatus else c.status.getD w.finalStatus := by
  cases c with
  | writeHeader status =>
    simp only [call, writeHeader]
    split_ifs with hwrt
    · rfl
    · simp [finalStatus, WriterCall.status]
  | flush =>
    simp only [call, flushBuffered]
    split_ifs <;> rfl
  | write data =>
    have hhd : ((w.writeHeader 200).finalStatus) =
        if w.written then w.finalStatus else 200 := by
      unfold writeHeader
      split_ifs <;> rfl
    rw [show (WriterCall.write data).status.getD w.finalStatus = 200 from rfl, ← hhd]
    simp only [call, write]
    split_ifs
    · rfl
    · simp only [flushBuffered, pass]
      split_ifs
      rfl
    · rfl

theorem call_written (w : Writer) (c : WriterCall) :
    (w.call c).written = (w.written || c.status.isSome) := by
  cases c with
  | writeHeader status =>
    simp [call, writeHeader_written, WriterCall.status]
  | flush =>
    simp only [call, flushBuffered, WriterCall.status, Option.isSome_none, Bool.or_false]
    split_ifs <;> rfl
  | write data =>
    have hhd := w.writeHeader_written 200
    simp only [call, write, WriterCall.status, Option.isSome_some, Bool.or_true]
    split_ifs
    · exact hhd
    · simp only [flushBuffered, pass]
      split_ifs
      exact hhd
    · exact hhd

variable (calls : List WriterCall)

/-- The status that is recorded is the one of the first call that fixes one. -/
theorem calls_finalStatus (w : Writer) :
    (calls.foldl call w).finalStatus = if w.written then w.finalStatus
      else (calls.findSome? WriterCall.status).getD w.finalStatus := by
  induction calls generalizing w with
  | nil => simp
  | cons c calls ih =>
    rw [List.foldl_cons, ih, call_written, call_finalStatus, List.findSome?_cons]
    cases hwrt : w.written with
    | true => simp
    | false => cases hst : c.status <;> simp

/-- Once a response streams, its record stays as it is. -/
theorem calls_of_streaming (h : w.streaming = true) :
    (calls.foldl call w).streaming = true ∧ (calls.foldl call w).body = w.body ∧
      (calls.foldl call w).truncated = w.truncated ∧
      (calls.foldl call w).sentStatus = w.sentStatus := by
  induction calls generalizing w with
  | nil => exact ⟨h, rfl, rfl, rfl⟩
  | cons c calls ih =>
    have hstep : (w.call c).streaming = true ∧ (w.call c).body = w.body ∧
        (w.call c).truncated = w.truncated ∧ (w.call c).sentStatus = w.sentStatus := by
      cases c with
      | writeHeader status =>
        simp only [call, writeHeader]
        split_ifs <;> exact ⟨h, rfl, rfl, rfl⟩
      | flush => simp [call, flushBuffered, h]
      | write data =>
        simp only [call, write, writeHeader_streaming, h, if_true, pass, writeHeader_body,
          writeHeader_truncated, true_and]
        unfold writeHeader
        split_ifs <;> rfl
    obtain ⟨hstr, hbody, htr, hst⟩ := ih hstep.1
    exact ⟨hstr, hbody.trans hstep.2.1, htr.trans hstep.2.2.1,
      hst.trans hstep.2.2.2⟩

end Writer

namespace Output
variable (out : Output)

/-- The calls up to the first flush, as the output of a handler that does not flush. -/
def buffered : Output := { out with calls := beforeFlush out.calls }

theorem buffered_buffered : out.buffered.Buffered := flush_not_mem_beforeFlush out.calls

theorem writer_finalStatus : out.writer.finalStatus = fixedStatus out.calls :=
  Writer.calls_finalStatus out.calls Writer.start

/-- The record is made, and the status sent, by the first flush at the latest. -/
theorem record_eq_buffered : out.writer.truncated = out.buffered.writer.truncated ∧
    out.writer.body = out.buffered.writer.body ∧
    out.response.status = out.buffered.response.status := by
  rcases flush_cases out.calls with ⟨-, hbef, -⟩ | ⟨after, -, hcs⟩
  · have hout : out.buffered = out := by rw [buffered, hbef]
    rw [hout]
    exact ⟨rfl, rfl, rfl⟩
  have hwriter : out.writer = after.foldl Writer.call out.buffered.writer.flushBuffered := by
    rw [writer, hcs, List.foldl_append]
    rfl
  have hstr := out.buffered.writer.flushBuffered_streaming
  obtain ⟨hstays, hbody, htr, hst⟩ := Writer.calls_of_streaming after hstr
  rw [← hwriter] at hstays hbody htr hst
  have hflus : out.writer.flushBuffered = out.writer := if_pos hstays
  have hrec : out.buffered.writer.flushBuffered.truncated = out.buffered.writer.truncated ∧
      out.buffered.writer.flushBuffered.body = out.buffered.writer.body := by
    unfold Writer.flushBuffered
    split_ifs <;> exact ⟨rfl, rfl⟩
  refine ⟨htr.trans hrec.1, hbody.trans hrec.2, ?_⟩
  simp only [response, hflus, hst]

/-- A record is truncated if what was written up to the first flush is too large. -/
theorem truncated_iff :
    out.writer.truncated = true ↔ responseLimit < (dataOf (beforeFlush out.calls)).length := by
  rw [out.record_eq_buffered.1]
  exact (recorded_of_buffered out.buffered_buffered).1

/-- Otherwise the record has what was written up to the first flush. -/
theorem body_of_not_truncated (h : out.writer.truncated = false) :
    out.writer.body = dataOf (beforeFlush out.calls) := by
  rw [out.record_eq_buffered.1] at h
  rw [out.record_eq_buffered.2.1]
  exact (recorded_of_buffered out.buffered_buffered).2 h

theorem response_status : out.response.status = firstStatus out.calls := by
  rw [out.record_eq_buffered.2.2, response_status_of_buffered out.buffered_buffered,
    writer_finalStatus, firstStatus_eq]
  rfl

def RecordsResponse : Prop :=
  out.writer.finalStatus = out.response.status ∧ out.writer.body = out.response.body

/-- A record that is not truncated is the response iff nothing is written after the first flush
and no other status is fixed. -/
theorem recordsResponse_iff (h : out.writer.truncated = false) : out.RecordsResponse ↔
    dataOf (fromFlush out.calls) = [] ∧ fixedStatus out.calls = firstStatus out.calls := by
  have hwrt : out.written = dataOf (beforeFlush out.calls) ++ dataOf (fromFlush out.calls) := by
    rw [dataOf, dataOf, ← List.flatMap_append, beforeFlush, fromFlush,
      List.takeWhile_append_dropWhile]
    rfl
  rw [RecordsResponse, writer_finalStatus, response_status, out.body_of_not_truncated h,
    response_body, hwrt, and_comm, List.self_eq_append_right]

/-- The status that is recorded is one of those that the handler sets, or 200. -/
theorem le_finalStatus (hval : ∀ status, WriterCall.writeHeader status ∈ out.calls → 100 ≤ status) :
    100 ≤ out.writer.finalStatus := by
  rw [writer_finalStatus, fixedStatus]
  cases hfnd : out.calls.findSome? WriterCall.status with
  | none => decide
  | some status =>
    obtain ⟨c, hmem, hc⟩ := List.exists_of_findSome?_eq_some hfnd
    cases c with
    | writeHeader s =>
      have hs := hval s hmem
      simp only [WriterCall.status, Option.some.injEq] at hc
      rw [Option.getD_some, ← hc]
      split_ifs <;> omega
    | write data =>
      simp only [WriterCall.status, Option.some.injEq] at hc
      rw [Option.getD_some, ← hc]
      decide
    | flush => cases hc

end Output

end NewApi.Creation
