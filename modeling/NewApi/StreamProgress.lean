import NewApi.StreamDelivery

/-!
# A stream that is not cut short ends

The scanner and the handler send one message each when they end. The goroutine for pings may receive
one of them, but only one, so the main goroutine gets the other.
-/
namespace NewApi.StreamScanner

def HandlerState.locked : HandlerState → Bool
  | .handling _ | .unlocking _ => true
  | _ => false

open HandlerState

/-- Who holds the mutex is where it is held. -/
structure Mutex (s : State) : Prop where
  /-- Between two pings there is no write. -/
  quiet : s.ping = .waiting → s.write = .idle
  byHandler : s.writeMutex = some .handler → s.handler.locked = true
  byWrite : s.writeMutex = some .write → s.write = .writing

namespace Mutex
variable {s s' : State}

theorem start (pingEnabled : Bool) (lines : List String) : Mutex (.start pingEnabled lines) := by
  constructor <;> simp [State.start]

theorem scannerStep {m : ScannerMove} (h : Mutex s) (hm : ScannerStep s m s') : Mutex s' := by
  cases hm <;> exact ⟨h.quiet, h.byHandler, h.byWrite⟩

theorem handlerStep {m : HandlerMove} (h : Mutex s) (hm : HandlerStep s m s')
    (hreg : (Move.handler m).regular = true) : Mutex s' := by
  -- the handler neither locks nor unlocks
  have hkeep : ∀ {p n data calls}, (s.handler.locked = true → p.locked = true) →
      Mutex { s with dataChan := data, calls := calls, stopChan := n, handler := p } := by
    intro p n data calls hp
    exact ⟨h.quiet, fun hmutex => hp (h.byHandler hmutex), h.byWrite⟩
  cases hm with
  | receive hpc _ | noData hpc _ _ | normal hpc | done hpc | stop hpc _ =>
    exact hkeep (by simp [hpc, locked])
  | lock => exact ⟨h.quiet, fun _ => rfl, by simp⟩
  | ask | panic => contradiction
  | unlock => exact ⟨h.quiet, by simp, by simp⟩

theorem pingStep {m : PingMove} (h : Mutex s) (hm : PingStep s m s') : Mutex s' := by
  cases hm with
  | tick hpc =>
    refine ⟨by simp, h.byHandler, fun hmutex => ?_⟩
    have hwr := h.byWrite hmutex
    rw [h.quiet hpc] at hwr
    contradiction
  | lock hlock _ =>
    refine ⟨fun hpc => ?_, by simp, fun _ => rfl⟩
    rw [h.quiet hpc] at hlock
    contradiction
  | write hwr =>
    refine ⟨fun hpc => ?_, by simp, by simp⟩
    rw [h.quiet hpc] at hwr
    contradiction
  | result _ hwrt =>
    refine ⟨fun _ => rfl, h.byHandler, fun hmutex => ?_⟩
    rw [h.byWrite hmutex] at hwrt
    contradiction
  | leave | stopped | panic | stop => exact ⟨by simp, h.byHandler, h.byWrite⟩
  | @done panicked _ => exact ⟨by cases panicked <;> simp, h.byHandler, h.byWrite⟩

theorem mainStep {m : MainMove} (h : Mutex s) (hm : MainStep s m s') : Mutex s' := by
  cases hm <;> exact ⟨h.quiet, h.byHandler, h.byWrite⟩

end Mutex

/-- The messages that the goroutine for pings can have received. -/
def PingState.received : PingState → ℕ
  | .waiting | .pinging => 0
  | _ => 1

def MainState.cancelled : MainState → Bool
  | .waiting | .cancelling => false
  | _ => true

/-- Enough messages are left to wake the caller. -/
structure Messages (s : State) : Prop extends Room s where
  cancelled : s.main.cancelled = true → s.ctxDone = true
  /-- Until the main goroutine receives a message, only the goroutine for pings can have received
  one of the two. -/
  waiting : s.main = .waiting →
    2 ≤ s.stopChan + s.scanner.pending + s.handler.pending + s.ping.received

namespace Messages
variable {all : List String} {s s' : State}

theorem start (pingEnabled : Bool) (lines : List String) : Messages (.start pingEnabled lines) := by
  refine ⟨⟨?_, ?_⟩, ?_, ?_⟩ <;>
    simp [State.start, State.pending, ScannerState.pending, pending, MainState.pending,
      MainState.cancelled]

theorem scannerStep {m : ScannerMove} (hflow : Flow all s) (h : Messages s)
    (hm : ScannerStep s m s') : Messages s' := by
  refine ⟨h.toRoom.scannerStep hm, ?_, ?_⟩
  · cases hm <;> exact h.cancelled
  · have hwait := h.waiting
    cases hm with
    | read hpc _ | endOfFile hpc _ | skip hpc _ | terminator hpc _ | payload hpc _ | send hpc _
    | closeData hpc | done hpc =>
      simpa only [hpc, ScannerState.pending] using hwait
    | broken _ hread | cancelled hread _ =>
      rw [ScannerState.pending_of_reading hread] at hwait
      exact hwait
    | stopped _ hread hrdy =>
      obtain ⟨hemp, hopen, _⟩ := hflow.reading hread
      simp [hemp, hopen] at hrdy
    | stop hpc _ =>
      intro hmain
      have hmain' : s.main = .waiting := hmain
      have hopen := h.not_closed (by simp [hmain'])
      have hold := hwait hmain
      simp only [hpc, ScannerState.pending] at hold
      simp only [hopen, ScannerState.pending, Bool.false_eq_true, if_false]
      omega

theorem handlerStep {m : HandlerMove} (h : Messages s) (hm : HandlerStep s m s') : Messages s' := by
  refine ⟨h.toRoom.handlerStep hm, ?_, ?_⟩
  · cases hm <;> exact h.cancelled
  · have hwait := h.waiting
    cases hm with
    | receive hpc _ | noData hpc _ _ | lock hpc _ | normal hpc | ask hpc | panic hpc | done hpc =>
      simpa only [hpc, pending] using hwait
    | @unlock stopped hpc =>
      cases stopped <;> simpa [hpc, pending] using hwait
    | stop hpc _ =>
      intro hmain
      have hmain' : s.main = .waiting := hmain
      have hopen := h.not_closed (by simp [hmain'])
      have hold := hwait hmain
      simp only [hpc, pending] at hold
      simp only [hopen, pending, Bool.false_eq_true, if_false]
      omega

theorem pingStep {m : PingMove} (hflow : Flow all s) (h : Messages s) (hm : PingStep s m s') :
    Messages s' := by
  have hroom := h.room
  have hkeep : ∀ {p w n mutex}, n ≤ s.stopChan → s.stopChan + s.ping.received ≤ n + p.received →
      Messages { s with stopChan := n, writeMutex := mutex, write := w, ping := p } := by
    intro p w n mutex hn hsum
    refine ⟨⟨?_, h.opened⟩, h.cancelled, fun hmain => ?_⟩
    · simp only [State.pending] at hroom ⊢
      omega
    · have := h.waiting hmain
      dsimp only
      omega
  have hrunning : s.ping.running = true → s.ping.received = 0 := by
    intro hrun
    cases hpc : s.ping <;> rw [hpc] at hrun <;> first | rfl | contradiction
  have hping := hflow.ping
  cases hm with
  | tick hpc => exact hkeep le_rfl (by rw [hpc]; rfl)
  | lock | write => exact hkeep le_rfl le_rfl
  | result hpc _ => exact hkeep le_rfl (by simp [hpc, PingState.received])
  | leave hrun | panic hrun => exact hkeep le_rfl (by simp [hrunning hrun])
  | stopped hrun _ =>
    refine hkeep (Nat.sub_le _ _) ?_
    rw [hrunning hrun]
    show s.stopChan + 0 ≤ s.stopChan - 1 + 1
    omega
  | @done panicked hpc => exact hkeep le_rfl (by cases panicked <;> simp [hpc, PingState.received])
  | stop hpc _ =>
    rw [hpc] at hping
    contradiction

theorem mainStep {m : MainMove} (h : Messages s) (hm : MainStep s m s') : Messages s' := by
  refine ⟨h.toRoom.mainStep hm, ?_, ?_⟩
  · have hcanc := h.cancelled
    cases hm with
    | receiveStop | leave => simp [MainState.cancelled]
    | cancel => exact fun _ => rfl
    | stop hpc _ | join hpc _ | joinTimeout hpc | close hpc =>
      exact fun _ => hcanc (by rw [hpc]; rfl)
  · cases hm <;> simp

end Messages

def ScannerState.work : ScannerState → ℕ
  | .checking _ => 15
  | .sending _ => 14
  | .scanning => 4
  | .closing => 3
  | .leaving => 2
  | .stopping => 1
  | .exited => 0

def HandlerState.work : HandlerState → ℕ
  | .locking _ => 7
  | .handling _ => 6
  | .unlocking _ => 5
  | .receiving => 3
  | .leaving => 2
  | .stopping => 1
  | .exited => 0

def PingState.work : PingState → ℕ
  | .pinging => 4
  | .waiting => 3
  | .leaving _ => 2
  | .stopping => 1
  | .exited => 0

def WriteState.work : WriteState → ℕ
  | .locking => 2
  | .writing => 1
  | _ => 0

def MainState.work : MainState → ℕ
  | .waiting => 5
  | .cancelling => 4
  | .stopping => 3
  | .joining => 2
  | .closing => 1
  | .returned => 0

/-- A line costs more than its way through the scanner, and a payload more than its way through the
handler. -/
def State.work (s : State) : ℕ :=
  20 * s.lines.length + s.scanner.work + 5 * s.dataChan.length + s.handler.work + s.ping.work +
    s.write.work + s.main.work

section
variable {s t : State}

theorem ScannerState.work_of_reading {p : ScannerState} (h : p.reading = true) : 4 ≤ p.work := by
  cases p <;> simp_all [ScannerState.reading, ScannerState.work]

theorem ScannerStep.work_lt {m : ScannerMove} (hm : ScannerStep s m t) : t.work < s.work := by
  unfold State.work
  cases hm with
  | read hpc hln =>
    simp only [hpc, hln, ScannerState.work, List.length_cons]
    omega
  | endOfFile hpc _ | skip hpc _ | terminator hpc _ | payload hpc _ | closeData hpc | done hpc
  | stop hpc _ =>
    simp only [hpc, ScannerState.work]
    omega
  | broken _ hread | stopped _ hread _ | cancelled hread _ =>
    have hold := ScannerState.work_of_reading hread
    have hnew : ScannerState.closing.work = 3 := rfl
    dsimp only
    omega
  | send hpc _ =>
    simp only [hpc, ScannerState.work, List.length_append, List.length_singleton]
    omega

theorem HandlerStep.work_lt {m : HandlerMove} (hm : HandlerStep s m t) : t.work < s.work := by
  unfold State.work
  cases hm with
  | receive hpc hdata =>
    simp only [hpc, hdata, work, List.length_cons]
    omega
  | noData hpc _ _ | lock hpc _ | normal hpc | ask hpc | panic hpc | done hpc | stop hpc _ =>
    simp only [hpc, work]
    omega
  | @unlock stopped hpc =>
    cases stopped <;> simp [hpc, work]

theorem PingState.work_of_running {p : PingState} (h : p.running = true) : 3 ≤ p.work := by
  cases p <;> simp_all [PingState.running, PingState.work]

/-- Only a further ping is more work. -/
theorem PingStep.work_lt {m : PingMove} (hm : PingStep s m t) (htick : m ≠ .tick) :
    t.work < s.work := by
  unfold State.work
  cases hm with
  | tick => contradiction
  | lock hwr _ | write hwr =>
    simp only [hwr, WriteState.work]
    omega
  | @result failed hpc hwr =>
    cases failed <;> simp [hpc, hwr, PingState.work, WriteState.work]
  | leave hrun | stopped hrun _ | panic hrun =>
    have hold := PingState.work_of_running hrun
    have hnew : ∀ panicked, (PingState.leaving panicked).work = 2 := fun _ => rfl
    simp only [hnew]
    omega
  | @done panicked hpc => cases panicked <;> simp [hpc, PingState.work]
  | stop hpc _ => simp [hpc, PingState.work]

theorem MainStep.work_lt {m : MainMove} (hm : MainStep s m t) : t.work < s.work := by
  unfold State.work
  cases hm with
  | receiveStop hpc _ | leave _ hpc | cancel hpc | stop hpc _ | join hpc _ | joinTimeout hpc
  | close hpc =>
    simp only [hpc, MainState.work]
    omega

/-- Every move that is possible leaves less work, except for another ping. -/
theorem work_lt_of_move {m : Move} (hreg : m.regular = true) (htick : m ≠ .ping .tick)
    (hmove : move m s = some t) : t.work < s.work := by
  cases m with
  | scanner m => exact (scannerStep_of_move hmove).work_lt
  | handler m => exact (handlerStep_of_move hmove).work_lt
  | ping m => exact (pingStep_of_move hmove).work_lt fun heq => htick (heq ▸ rfl)
  | main m => exact (mainStep_of_move hmove).work_lt
  | disconnect => contradiction

end

/-- Some goroutine can move by itself. -/
def Ready (s : State) : Prop :=
  ∃ m : Move, m.regular = true ∧ m ≠ .ping .tick ∧ (move m s).isSome = true

/-- What holds in every reachable state. -/
structure Live (all : List String) (s : State) : Prop where
  flow : Flow all s
  mutex : Mutex s
  messages : Messages s

namespace Live
variable {all : List String} {s : State}

theorem start (pingEnabled : Bool) (lines : List String) : Live lines (.start pingEnabled lines) :=
  ⟨.start pingEnabled lines, .start pingEnabled lines, .start pingEnabled lines⟩

theorem next {m : Move} (hreg : m.regular = true) (h : Live all s) : Live all (step m s) := by
  refine ⟨h.flow.next hreg, ?_, ?_⟩
  · apply step_induction h.mutex
    intro s' hmove
    cases m with
    | scanner m => exact h.mutex.scannerStep (scannerStep_of_move hmove)
    | handler m => exact h.mutex.handlerStep (handlerStep_of_move hmove) hreg
    | ping m => exact h.mutex.pingStep (pingStep_of_move hmove)
    | main m => exact h.mutex.mainStep (mainStep_of_move hmove)
    | disconnect => contradiction
  · apply step_induction h.messages
    intro s' hmove
    cases m with
    | scanner m => exact h.messages.scannerStep h.flow (scannerStep_of_move hmove)
    | handler m => exact h.messages.handlerStep (handlerStep_of_move hmove)
    | ping m => exact h.messages.pingStep h.flow (pingStep_of_move hmove)
    | main m => exact h.messages.mainStep (mainStep_of_move hmove)
    | disconnect => contradiction

theorem of_run (pingEnabled : Bool) (lines : List String) {moves : List Move}
    (hmv : ∀ m ∈ moves, m.regular = true) : Live lines (runFrom pingEnabled lines moves) :=
  run_invariant_of_forall (fun _ _ hm h => h.next hm) hmv (start pingEnabled lines)

section
variable (h : Live all s)
include h

theorem ready_of_handler (hmain : s.main ≠ .returned) (hpc : s.handler ≠ .exited)
    (hdata : s.dataChan ≠ [] ∨ s.dataClosed = true) : Ready s := by
  cases hhan : s.handler with
  | receiving =>
    cases hchan : s.dataChan with
    | nil =>
      have hcl := hdata.resolve_left (by simp [hchan])
      exact ⟨.handler .noData, rfl, by simp, by simp [move, handlerMove, hhan, hchan, hcl]⟩
    | cons data rest =>
      exact ⟨.handler .receive, rfl, by simp, by simp [move, handlerMove, hhan, hchan]⟩
  | locking data =>
    cases howner : s.writeMutex with
    | none => exact ⟨.handler .lock, rfl, by simp, by simp [move, handlerMove, hhan, howner]⟩
    | some owner =>
      cases owner with
      | handler =>
        have hlock := h.mutex.byHandler howner
        rw [hhan] at hlock
        contradiction
      | write =>
        -- the goroutine that writes a ping has the mutex
        have hwr := h.mutex.byWrite howner
        exact ⟨.ping (.write false), rfl, by simp, by simp [move, pingMove, hwr]⟩
  | handling data =>
    exact ⟨.handler (.call .normal), rfl, by simp, by simp [move, handlerMove, hhan]⟩
  | unlocking stopped => exact ⟨.handler .unlock, rfl, by simp, by simp [move, handlerMove, hhan]⟩
  | leaving => exact ⟨.handler .done, rfl, by simp, by simp [move, handlerMove, hhan]⟩
  | stopping =>
    have hsent := h.messages.sent hmain (by simp [State.pending, hhan, pending])
    exact ⟨.handler .stop, rfl, by simp, by simp [move, handlerMove, hhan, hsent]⟩
  | exited => contradiction

/-- While the scanner waits for room in the data channel, the handler goes on. -/
theorem ready_of_scanner (hmain : s.main ≠ .returned) (hpc : s.scanner ≠ .exited) :
    Ready s := by
  cases hscan : s.scanner with
  | scanning =>
    cases hln : s.lines with
    | nil => exact ⟨.scanner .endOfFile, rfl, by simp, by simp [move, scannerMove, hscan, hln]⟩
    | cons line lines =>
      exact ⟨.scanner .read, rfl, by simp, by simp [move, scannerMove, hscan, hln]⟩
  | checking line =>
    obtain ⟨hemp, hopen, hctx, _⟩ := h.flow.reading (by rw [hscan]; rfl)
    have hrdy : ¬(s.receiveStop.isSome ∨ s.ctxDone ∨ s.clientGone) := by
      simp [State.receiveStop, hemp, hopen, hctx, h.flow.connected]
    refine ⟨.scanner .pass, rfl, by simp, ?_⟩
    simp only [move, scannerMove, hscan, if_neg hrdy]
    cases readLine line <;> rfl
  | sending data =>
    by_cases hlen : s.dataChan.length < 10
    · exact ⟨.scanner .send, rfl, by simp, by simp [move, scannerMove, hscan, hlen]⟩
    have hread : s.scanner.reading = true := by rw [hscan]; rfl
    have hopen := h.flow.open_of_reading hread
    apply h.ready_of_handler hmain
    · intro hexited
      have hcl := (h.flow.drained (by rw [hexited]; rfl)).2
      rw [hopen] at hcl
      contradiction
    · left
      intro hemp
      simp [hemp] at hlen
  | closing => exact ⟨.scanner .closeData, rfl, by simp, by simp [move, scannerMove, hscan]⟩
  | leaving => exact ⟨.scanner .done, rfl, by simp, by simp [move, scannerMove, hscan]⟩
  | stopping =>
    have hsent := h.messages.sent hmain (by simp [State.pending, hscan, ScannerState.pending])
    exact ⟨.scanner .stop, rfl, by simp, by simp [move, scannerMove, hscan, hsent]⟩
  | exited => contradiction

/-- When the scanner and the handler have ended, there is a message for the main goroutine. -/
theorem ready_of_main (hscan : s.scanner = .exited)
    (hhan : s.handler = .exited) (hpc : s.main ≠ .returned) : Ready s := by
  cases hmain : s.main with
  | waiting =>
    have hstop : 0 < s.stopChan := by
      have hwait := h.messages.waiting hmain
      have hone : s.ping.received ≤ 1 := by cases s.ping <;> simp [PingState.received]
      simp only [hscan, hhan, ScannerState.pending, pending] at hwait
      omega
    exact ⟨.main .receiveStop, rfl, by simp, by simp [move, mainMove, hmain, State.receiveStop, hstop]⟩
  | cancelling => exact ⟨.main .cancel, rfl, by simp, by simp [move, mainMove, hmain]⟩
  | stopping =>
    have hsent := h.messages.sent hpc (by simp [State.pending, hmain, MainState.pending])
    exact ⟨.main .stop, rfl, by simp, by simp [move, mainMove, hmain, hsent]⟩
  | joining =>
    have hctx := h.messages.cancelled (by rw [hmain]; rfl)
    have hcalm := h.flow.ping
    cases hping : s.ping with
    | waiting | pinging =>
      exact ⟨.ping .ctx, rfl, by simp, by simp [move, pingMove, hping, hctx]⟩
    | leaving panicked => exact ⟨.ping .done, rfl, by simp, by simp [move, pingMove, hping]⟩
    | stopping =>
      rw [hping] at hcalm
      contradiction
    | exited =>
      have hdone : s.allDone = true := allDone_iff.mpr ⟨.inr hscan, .inr hhan, .inr hping⟩
      exact ⟨.main .join, rfl, by simp, by simp [move, mainMove, hmain, hdone]⟩
  | closing => exact ⟨.main .close, rfl, by simp, by simp [move, mainMove, hmain]⟩
  | returned => contradiction

theorem ready (hmain : s.main ≠ .returned) : Ready s := by
  by_cases hscan : s.scanner = .exited
  · by_cases hhan : s.handler = .exited
    · exact h.ready_of_main hscan hhan hmain
    apply h.ready_of_handler hmain hhan
    right
    rw [h.flow.dataClosed, hscan]
    rfl
  · exact h.ready_of_scanner hmain hscan

/-- The main goroutine can always get to its end. -/
theorem returns :
    ∃ moves : List Move, (∀ m ∈ moves, m.regular = true) ∧ (run step moves s).main = .returned := by
  apply exists_run_of_measure (P := fun m : Move => m.regular = true)
    (fun s : State => s.main = .returned) State.work ?_ h
  intro t ht hmain
  obtain ⟨m, hreg, htick, hmove⟩ := ht.ready hmain
  obtain ⟨t', ht'⟩ := Option.isSome_iff_exists.mp hmove
  refine ⟨m, hreg, ht.next hreg, ?_⟩
  rw [step, ht', Option.getD_some]
  exact work_lt_of_move hreg htick ht'

end

end Live

/-- Every regular run can go on until it returns, and has then called the handler with exactly the
payloads, if and only if the stream does not end with a bare `[DONE]`. -/
theorem stream_delivers_iff (pingEnabled : Bool) (lines : List String) :
    (∀ moves : List Move, (∀ m ∈ moves, m.regular = true) →
      ((runFrom pingEnabled lines moves).main = .returned →
        (runFrom pingEnabled lines moves).calls = payloads lines) ∧
      ∃ more : List Move, (∀ m ∈ more, m.regular = true) ∧
        (runFrom pingEnabled lines (moves ++ more)).main = .returned) ↔
      EndsWithData lines := by
  rw [← scan_eq_payloads_iff]
  constructor
  · intro h
    obtain ⟨_, more, hmore, hret⟩ := h [] (by simp)
    have hcs := (Live.of_run pingEnabled lines hmore).flow.calls_of_returned hret
    rw [← hcs]
    exact (h more hmore).1 hret
  · intro hscan moves hmv
    have hlive := Live.of_run pingEnabled lines hmv
    refine ⟨fun hret => ?_, ?_⟩
    · rw [hlive.flow.calls_of_returned hret, hscan]
    · obtain ⟨more, hmore, hret⟩ := hlive.returns
      refine ⟨more, hmore, ?_⟩
      rw [runFrom, run_append]
      exact hret

def bareEnd : List String := ["data: a", "[DONE]"]

def bareEndRun : List Move :=
  [.scanner .read, .scanner .pass, .scanner .send, .scanner .read, .scanner .pass, .scanner .send,
    .scanner .endOfFile, .scanner .closeData, .scanner .done, .scanner .stop,
    .handler .receive, .handler .lock, .handler (.call .normal), .handler .unlock,
    .handler .receive, .handler .lock, .handler (.call .normal), .handler .unlock,
    .handler .noData, .handler .done, .handler .stop,
    .main .receiveStop, .main .cancel, .main .stop, .main .join, .main .close]

/-- What is left of a bare `[DONE]` is handled as a payload. -/
theorem stream_delivers_bare_done : (∀ m ∈ bareEndRun, m.regular = true) ∧
      (runFrom false bareEnd bareEndRun).main = .returned ∧
      (runFrom false bareEnd bareEndRun).calls = ["a", "]"] ∧ payloads bareEnd = ["a"] := by
  decide +kernel

/-- Each payload is at one place, or was dropped with all those behind it. -/
def InOrder (all : List String) (s : State) : Prop :=
  s.calls ++ (s.handler.held ++ (s.dataChan ++ s.scanner.ahead s.lines)) <+: scan all

/-- One move keeps the order of the lines. -/
theorem inOrder_step {all : List String} (m : Move) (s : State) (h : InOrder all s) :
    InOrder all (step m s) := by
  apply step_induction h
  intro s' hmove
  unfold InOrder at h ⊢
  cases m with
  | scanner m =>
    cases scannerStep_of_move hmove with
    | read hpc hln => simpa [hpc, hln, ScannerState.ahead] using h
    | skip hpc hline | payload hpc hline => simpa [hpc, ScannerState.ahead, scan, hline] using h
    | send hpc => simpa [hpc, ScannerState.ahead] using h
    | endOfFile | broken | stopped | cancelled | terminator | closeData | done | stop =>
      -- what the scanner drops would have come last
      refine List.IsPrefix.trans ?_ h
      simp [ScannerState.ahead, ← List.append_assoc]
  | handler m =>
    cases handlerStep_of_move hmove with
    | receive hpc hdata => simpa [hpc, hdata, held] using h
    | @unlock stopped hpc => cases stopped <;> simpa [hpc, held] using h
    | noData hpc | lock hpc | normal hpc | ask hpc | panic hpc | done hpc | stop hpc =>
      simpa [hpc, held] using h
  | ping m => cases pingStep_of_move hmove <;> exact h
  | main m => cases mainStep_of_move hmove <;> exact h
  | disconnect =>
    cases hmove
    exact h

/-- Whatever fails, stops or panics, the handler is called with the first payloads of the stream, in
order and each once. -/
theorem handler_calls_in_order (pingEnabled : Bool) (lines : List String) (moves : List Move) :
    (runFrom pingEnabled lines moves).calls <+: scan lines := by
  have hstart : InOrder lines (.start pingEnabled lines) := by
    simp [InOrder, State.start, held, ScannerState.ahead]
  exact (List.prefix_append _ _).trans (run_invariant_always inOrder_step moves hstart)

/-- Who writes to the client holds the mutex. -/
def Excluded (s : State) : Prop :=
  (s.handler.locked = true → s.writeMutex = some .handler) ∧
    (s.write = .writing → s.writeMutex = some .write)

/-- One move keeps the two writers apart. -/
theorem excluded_step (m : Move) (s : State) (h : Excluded s) : Excluded (step m s) := by
  apply step_induction h
  intro s' hmove
  obtain ⟨hhan, hwr⟩ := h
  cases m with
  | scanner m => cases scannerStep_of_move hmove <;> exact ⟨hhan, hwr⟩
  | handler m =>
    cases handlerStep_of_move hmove with
    | lock _ hfree => exact ⟨fun _ => rfl, fun hw => absurd (hwr hw) (by simp [hfree])⟩
    | @unlock stopped hpc =>
      refine ⟨by cases stopped <;> simp [locked], fun hw => ?_⟩
      cases (hhan (by rw [hpc]; rfl)).symm.trans (hwr hw)
    | normal hpc | ask hpc => exact ⟨fun _ => hhan (by rw [hpc]; rfl), hwr⟩
    | receive | noData | panic | done | stop => exact ⟨by simp [locked], hwr⟩
  | ping m =>
    cases pingStep_of_move hmove with
    | lock _ hfree => exact ⟨fun hl => absurd (hhan hl) (by simp [hfree]), fun _ => rfl⟩
    | write hw => exact ⟨fun hl => absurd (hhan hl) (by simp [hwr hw]), by simp⟩
    | tick | result => exact ⟨hhan, by simp⟩
    | leave | stopped | panic | done | stop => exact ⟨hhan, hwr⟩
  | main m => cases mainStep_of_move hmove <;> exact ⟨hhan, hwr⟩
  | disconnect =>
    cases hmove
    exact ⟨hhan, hwr⟩

/-- The handler and a ping never write at the same time. -/
theorem one_writer_at_once (pingEnabled : Bool) (lines : List String) (moves : List Move) :
    let s := runFrom pingEnabled lines moves
    ¬(s.write = .writing ∧ ∃ data, s.handler = .handling data) := by
  rintro s ⟨hw, data, hpc⟩
  have h : Excluded s :=
    run_invariant_always excluded_step moves ⟨by simp [State.start, locked], by simp [State.start]⟩
  cases (h.1 (by rw [hpc]; rfl)).symm.trans (h.2 hw)

end NewApi.StreamScanner
