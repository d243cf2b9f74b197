import NewApi.StreamLines
import NewApi.StreamStops

/-!
# What a stream delivers

In a run without a stop, a timeout or a lost client, the payloads go from the scanner through the
data channel to the handler. None is lost or handled twice, and the main goroutine returns only when
all have been handled.
-/
namespace NewApi.StreamScanner

/-- The handler does not ask to stop, the client stays, no timeout of the stream or of the shutdown
fires, and no goroutine breaks off. -/
def Move.regular : Move → Bool
  | .disconnect | .main .timeout | .main .client | .main .joinTimeout
  | .handler (.call .stop) | .handler (.call .panic)
  | .scanner .fail | .scanner .panic | .ping .panic => false
  | _ => true

def ScannerState.closed : ScannerState → Bool
  | .leaving | .stopping | .exited => true
  | _ => false

open ScannerState

/-- The payloads that the scanner has yet to send. -/
def ScannerState.ahead (lines : List String) : ScannerState → List String
  | .scanning => scan lines
  | .checking line => scan (line :: lines)
  | .sending data => data :: scan lines
  | _ => []

/-- The payload that the handler has received and not handled. -/
def HandlerState.held : HandlerState → List String
  | .locking data | .handling data => [data]
  | _ => []

open HandlerState

def PingState.panicking : PingState → Bool
  | .leaving true | .stopping => true
  | _ => false

def MainState.joined : MainState → Bool
  | .closing | .returned => true
  | _ => false

/-- Nobody stops the scanner while it reads, and the handler ends after the last payload. Each payload
is at one place. -/
structure Flow (all : List String) (s : State) : Prop where
  connected : s.clientGone = false
  reading : s.scanner.reading = true →
    s.stopChan = 0 ∧ s.stopClosed = false ∧ s.ctxDone = false ∧ s.main = .waiting
  dataClosed : s.dataClosed = s.scanner.closed
  drained : s.handler.ending = true → s.dataChan = [] ∧ s.dataClosed = true
  ping : s.ping.panicking = false
  joined : s.main.joined = true → s.allDone = true
  delivered : s.calls ++ (s.handler.held ++ (s.dataChan ++ s.scanner.ahead s.lines)) = scan all

theorem allDone_iff {s : State} : s.allDone = true ↔ (s.scanner = .stopping ∨ s.scanner = .exited) ∧
      (s.handler = .stopping ∨ s.handler = .exited) ∧ (s.ping = .stopping ∨ s.ping = .exited) := by
  simp [State.allDone, and_assoc]

theorem ScannerState.not_closed_of_reading {p : ScannerState} (h : p.reading = true) :
    p.closed = false := by
  cases p <;> first | rfl | contradiction

namespace Flow
variable {all : List String} {s s' : State}

theorem start (pingEnabled : Bool) (lines : List String) : Flow lines (.start pingEnabled lines) := by
  constructor <;> cases pingEnabled <;> simp [State.start, closed, ahead,
    ending, held, PingState.panicking, MainState.joined]

section
variable (h : Flow all s)
include h

theorem open_of_reading (hread : s.scanner.reading = true) :
    s.dataClosed = false := by
  rw [h.dataClosed, not_closed_of_reading hread]

theorem not_joined_of_reading (hread : s.scanner.reading = true) :
    s.main.joined ≠ true := by
  rw [(h.reading hread).2.2.2]
  decide

theorem scannerStep {m : ScannerMove} (hm : ScannerStep s m s')
    (hreg : (Move.scanner m).regular = true) : Flow all s' := by
  have hdel := h.delivered
  -- the scanner goes on, and a payload may have gone to the data channel
  have hrds : ∀ {p lines data}, s.scanner.reading = true → p.reading = true →
      data ++ p.ahead lines = s.dataChan ++ s.scanner.ahead s.lines →
      Flow all { s with lines := lines, dataChan := data, scanner := p } := by
    intro p lines data hold hnew hahead
    have hopen := h.open_of_reading hold
    refine ⟨h.connected, fun _ => h.reading hold, ?_, fun hend => ?_, h.ping,
      fun hjoined => absurd hjoined (h.not_joined_of_reading hold), ?_⟩
    · exact hopen.trans (not_closed_of_reading hnew).symm
    · rw [(h.drained hend).2] at hopen
      contradiction
    · rw [hahead, hdel]
  -- the scanner has read all that it has to
  have hends : s.scanner.reading = true → s.scanner.ahead s.lines = [] →
      Flow all { s with scanner := .closing } := by
    intro hold hahead
    refine ⟨h.connected, fun hnew => ?_, h.open_of_reading hold, h.drained, h.ping,
      fun hjoined => absurd hjoined (h.not_joined_of_reading hold), ?_⟩
    · contradiction
    · rw [hahead] at hdel
      exact hdel
  -- it leaves
  have hleaves : ∀ {n closed p}, s.scanner.ahead s.lines = [] → p.ahead s.lines = [] →
      p.reading = false → p.closed = true → closed = true →
      (s.main.joined = true → p = .exited) →
      Flow all { s with stopChan := n, dataClosed := closed, scanner := p } := by
    intro n closed p hold hahead hread hp hcl hjoined
    refine ⟨h.connected, fun hnew => ?_, hcl.trans hp.symm,
      fun hend => ⟨(h.drained hend).1, hcl⟩, h.ping, fun hj => ?_, ?_⟩
    · rw [show p.reading = true from hnew] at hread
      contradiction
    · obtain ⟨_, hdone⟩ := allDone_iff.mp (h.joined hj)
      exact allDone_iff.mpr ⟨.inr (hjoined hj), hdone⟩
    · rw [hahead, ← hold, hdel]
  have hnot : ∀ {p}, s.scanner = p → p ≠ .stopping → p ≠ .exited → s.main.joined ≠ true := by
    intro p hpc hstop hexited hj
    obtain ⟨hdone, _⟩ := allDone_iff.mp (h.joined hj)
    rw [hpc] at hdone
    exact hdone.elim hstop hexited
  cases hm with
  | read hpc hln => exact hrds (by rw [hpc]; rfl) rfl (by rw [hpc, hln]; rfl)
  | endOfFile hpc hln => exact hends (by rw [hpc]; rfl) (by rw [hpc, hln]; rfl)
  | broken hbroken _ => rcases hbroken with rfl | rfl <;> contradiction
  | stopped _ hread hrdy =>
    obtain ⟨hemp, hopen, _⟩ := h.reading hread
    simp [hemp, hopen] at hrdy
  | cancelled hread hgone =>
    obtain ⟨_, _, hctx, _⟩ := h.reading hread
    simp [hctx, h.connected] at hgone
  | skip hpc hline | payload hpc hline =>
    exact hrds (by rw [hpc]; rfl) rfl (by simp [hpc, ahead, scan, hline])
  | terminator hpc hline =>
    exact hends (by rw [hpc]; rfl) (by simp [hpc, ahead, scan, hline])
  | send hpc _ =>
    exact hrds (by rw [hpc]; rfl) rfl (by simp [hpc, ahead])
  | closeData hpc =>
    exact hleaves (by rw [hpc]; rfl) rfl rfl rfl rfl
      fun hj => absurd hj (hnot hpc (by simp) (by simp))
  | done hpc =>
    have hcl : s.dataClosed = true := by rw [h.dataClosed, hpc]; rfl
    exact hleaves (by rw [hpc]; rfl) rfl rfl rfl hcl
      fun hj => absurd hj (hnot hpc (by simp) (by simp))
  | stop hpc _ =>
    have hcl : s.dataClosed = true := by rw [h.dataClosed, hpc]; rfl
    exact hleaves (by rw [hpc]; rfl) rfl rfl rfl hcl fun _ => rfl

theorem handlerStep {m : HandlerMove} (hm : HandlerStep s m s')
    (hreg : (Move.handler m).regular = true) : Flow all s' := by
  have hdel := h.delivered
  -- the handler goes on
  have hgoes : ∀ {p old data mutex calls}, s.handler = old → old ≠ .stopping → old ≠ .exited →
      (p.ending = true → data = [] ∧ s.dataClosed = true) →
      calls ++ (p.held ++ data) = s.calls ++ (old.held ++ s.dataChan) →
      Flow all { s with dataChan := data, writeMutex := mutex, calls := calls, handler := p } := by
    intro p old data mutex calls hpc hstop hexited hend hsame
    refine ⟨h.connected, h.reading, h.dataClosed, hend, h.ping, fun hj => ?_, ?_⟩
    · obtain ⟨_, hdone, _⟩ := allDone_iff.mp (h.joined hj)
      rw [hpc] at hdone
      exact (hdone.elim hstop hexited).elim
    · rw [hpc] at hdel
      rw [← hdel]
      simp only [← List.append_assoc] at hsame ⊢
      rw [hsame]
  cases hm with
  | receive hpc hdata =>
    exact hgoes hpc (by simp) (by simp) (by simp [ending]) (by simp [held, hdata])
  | noData hpc hdata hcl =>
    exact hgoes hpc (by simp) (by simp) (fun _ => ⟨hdata, hcl⟩) (by simp [held])
  | lock hpc _ | normal hpc =>
    exact hgoes hpc (by simp) (by simp) (by simp [ending]) (by simp [held])
  | ask | panic => contradiction
  | @unlock stopped hpc =>
    refine hgoes hpc (by simp) (by simp) (fun hend => ?_) ?_
    · cases stopped with
      | true => exact h.drained (by rw [hpc]; rfl)
      | false => contradiction
    · cases stopped <;> simp [held]
  | done hpc =>
    exact hgoes hpc (by simp) (by simp) (fun _ => h.drained (by rw [hpc]; rfl)) (by simp [held])
  | stop hpc _ =>
    have hdrai := h.drained (by rw [hpc]; rfl)
    refine ⟨h.connected, fun hread => ?_, h.dataClosed, fun _ => hdrai, h.ping,
      fun hj => ?_, ?_⟩
    · have hopen := h.open_of_reading hread
      rw [hdrai.2] at hopen
      contradiction
    · obtain ⟨hscan, _, hping⟩ := allDone_iff.mp (h.joined hj)
      exact allDone_iff.mpr ⟨hscan, .inr rfl, hping⟩
    · rw [hpc] at hdel
      exact hdel

theorem pingStep {m : PingMove} (hm : PingStep s m s')
    (hreg : (Move.ping m).regular = true) : Flow all s' := by
  -- a message that was received was not there while the scanner reads
  have hgoes : ∀ {p w n mutex}, n ≤ s.stopChan → p.panicking = false →
      (s.ping = p ∨ s.ping ≠ .stopping ∧ s.ping ≠ .exited) →
      Flow all { s with stopChan := n, writeMutex := mutex, write := w, ping := p } := by
    intro p w n mutex hn hp hrunning
    refine ⟨h.connected, fun hread => ?_, h.dataClosed, h.drained, hp, fun hj => ?_, h.delivered⟩
    · obtain ⟨hemp, hrest⟩ := h.reading hread
      exact ⟨Nat.le_zero.mp (hemp ▸ hn), hrest⟩
    · obtain ⟨hscan, hhan, hping⟩ := allDone_iff.mp (h.joined hj)
      refine allDone_iff.mpr ⟨hscan, hhan, ?_⟩
      cases hrunning with
      | inl hsame => exact hsame ▸ hping
      | inr hnot => exact (hping.elim hnot.1 hnot.2).elim
  have hrunning : s.ping.running = true → s.ping ≠ .stopping ∧ s.ping ≠ .exited := by
    intro hrun
    constructor <;> (intro hpc; rw [hpc] at hrun; contradiction)
  have hping := h.ping
  cases hm with
  | tick hpc => exact hgoes le_rfl rfl (.inr (by simp [hpc]))
  | lock | write => exact hgoes le_rfl hping (.inl rfl)
  | @result failed hpc _ =>
    refine hgoes le_rfl ?_ (.inr (by simp [hpc]))
    cases failed <;> rfl
  | leave hrun => exact hgoes le_rfl rfl (.inr (hrunning hrun))
  | stopped hrun _ => exact hgoes (Nat.sub_le _ _) rfl (.inr (hrunning hrun))
  | panic => contradiction
  | @done panicked hpc =>
    cases panicked with
    | true =>
      rw [hpc] at hping
      contradiction
    | false => exact hgoes le_rfl rfl (.inr (by simp [hpc]))
  | stop hpc _ =>
    rw [hpc] at hping
    contradiction

theorem mainStep {m : MainMove} (hm : MainStep s m s')
    (hreg : (Move.main m).regular = true) : Flow all s' := by
  have hgoes : ∀ {p n ctx closed}, s.scanner.reading ≠ true → (p.joined = true → s.allDone = true) →
      Flow all { s with stopChan := n, ctxDone := ctx, stopClosed := closed, main := p } := by
    intro p n ctx closed hread hjoined
    exact ⟨h.connected, fun hr => absurd hr hread, h.dataClosed, h.drained, h.ping, hjoined,
      h.delivered⟩
  have hnot : ∀ {p}, s.main = p → p ≠ .waiting → s.scanner.reading ≠ true := by
    intro p hpc hp hread
    exact hp (hpc ▸ (h.reading hread).2.2.2)
  cases hm with
  | receiveStop _ hrdy =>
    refine hgoes (fun hread => ?_) (by simp [MainState.joined])
    obtain ⟨hemp, hopen, _⟩ := h.reading hread
    simp [hemp, hopen] at hrdy
  | leave hleave _ => rcases hleave with rfl | rfl <;> contradiction
  | cancel hpc | stop hpc _ => exact hgoes (hnot hpc (by simp)) (by simp [MainState.joined])
  | join hpc hdone => exact hgoes (hnot hpc (by simp)) fun _ => hdone
  | joinTimeout => contradiction
  | close hpc => exact hgoes (hnot hpc (by simp)) fun _ => h.joined (by rw [hpc]; rfl)

end

theorem next {m : Move} (hreg : m.regular = true) (h : Flow all s) : Flow all (step m s) := by
  apply step_induction h
  intro s' hmove
  cases m with
  | scanner m => exact h.scannerStep (scannerStep_of_move hmove) hreg
  | handler m => exact h.handlerStep (handlerStep_of_move hmove) hreg
  | ping m => exact h.pingStep (pingStep_of_move hmove) hreg
  | main m => exact h.mainStep (mainStep_of_move hmove) hreg
  | disconnect => contradiction

theorem calls_of_returned (h : Flow all s) (hmain : s.main = .returned) : s.calls = scan all := by
  obtain ⟨hscan, hhan, _⟩ := allDone_iff.mp (h.joined (by rw [hmain]; rfl))
  have hahead : s.scanner.ahead s.lines = [] := by
    cases hscan with
    | inl hpc | inr hpc => rw [hpc]; rfl
  have hheld : s.handler.held = [] := by
    cases hhan with
    | inl hpc | inr hpc => rw [hpc]; rfl
  have hdrai : s.dataChan = [] := by
    apply (h.drained ?_).1
    cases hhan with
    | inl hpc | inr hpc => rw [hpc]; rfl
  have hdel := h.delivered
  rw [hahead, hheld, hdrai] at hdel
  simpa using hdel

end Flow

end NewApi.StreamScanner
