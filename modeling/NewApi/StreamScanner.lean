import NewApi.GoStrings
import NewApi.Runs

/-!
# The stream scanner

`StreamScannerHandler` (`relay/helper/stream_scanner.go`) reads the lines of a stream in one
goroutine, which puts the payloads into a channel for the goroutine that handles them. The main
goroutine waits for a message in the stop channel, for the streaming timeout or for the client to be
gone. It then cancels the context, sends a stop message, waits for the others and closes the stop
channel. A fourth goroutine may send pings, each with a goroutine of its own for the write.

A move is a step of one goroutine, and it has no effect if it is not possible. Moves that wait
for time to pass are possible at any time.
-/
namespace NewApi.StreamScanner

/-- What a line of the stream means. -/
inductive Line where
  | skip
  | done
  | payload (data : String)

/-- The first five characters are dropped, also from a line that starts with `[DONE]`. -/
def readLine (line : String) : Line :=
  if line.utf8ByteSize < 6 then .skip
  else if ¬startsWith line "data:" ∧ ¬startsWith line "[DONE]" then .skip
  else
    let data := trimSpace (String.ofList (line.toList.drop 5))
    if data = "" then .skip
    else if startsWith data "[DONE]" then .done
    else .payload data

/-- The payloads that the scanner puts into the channel. -/
def scan : List String → List String
  | [] => []
  | line :: lines =>
    match readLine line with
    | .skip => scan lines
    | .done => []
    | .payload data => data :: scan lines

/-- The goroutine that reads lines. -/
inductive ScannerState where
  | scanning
  | checking (line : String)
  | sending (data : String)
  | closing
  | leaving
  | stopping
  | exited
  deriving DecidableEq

/-- The goroutine that calls the data handler. -/
inductive HandlerState where
  | receiving
  | locking (data : String)
  | handling (data : String)
  | unlocking (stopped : Bool)
  | leaving
  | stopping
  | exited
  deriving DecidableEq

/-- The goroutine that sends pings. -/
inductive PingState where
  | waiting
  | pinging
  | leaving (panicked : Bool)
  | stopping
  | exited
  deriving DecidableEq

/-- The goroutine that writes a ping. -/
inductive WriteState where
  | idle
  | locking
  | writing
  | written (failed : Bool)
  deriving DecidableEq

/-- The caller, which waits for the others. -/
inductive MainState where
  | waiting
  | cancelling
  | stopping
  | joining
  | closing
  | returned
  deriving DecidableEq

/-- Who holds the mutex of the writer. -/
inductive Owner where
  | handler | write

/-- The four goroutines, the channels and the mutex. -/
structure State where
  /-- The lines that have not been read yet. -/
  lines : List String
  scanner : ScannerState
  handler : HandlerState
  ping : PingState
  write : WriteState
  main : MainState
  dataChan : List String
  dataClosed : Bool
  /-- The number of messages in the stop channel. -/
  stopChan : ℕ
  (stopClosed ctxDone clientGone : Bool)
  writeMutex : Option Owner
  /-- The payloads that the handler was called with. -/
  calls : List String
  /-- The handler has asked to stop. -/
  asked : Bool

/-- Without pings there is no goroutine for them. -/
def State.start (pingEnabled : Bool) (lines : List String) : State where
  lines := lines
  scanner := .scanning
  handler := .receiving
  ping := if pingEnabled then .waiting else .exited
  write := .idle
  main := .waiting
  dataChan := []
  dataClosed := false
  stopChan := 0
  stopClosed := false
  ctxDone := false
  clientGone := false
  writeMutex := none
  calls := []
  asked := false

namespace State
variable (s : State)

/-- A message from the stop channel. A closed channel always has one. -/
def receiveStop : Option State :=
  if 0 < s.stopChan then some { s with stopChan := s.stopChan - 1 }
  else if s.stopClosed then some s else none

/-- `SafeSendBool`. A panic because the channel is closed is recovered from. -/
def safeSendBool : Option State :=
  if s.stopClosed then some s
  else if s.stopChan < 3 then some { s with stopChan := s.stopChan + 1 } else none

/-- `wg.Wait` can return. -/
def allDone : Bool :=
  decide (s.scanner = .stopping ∨ s.scanner = .exited) &&
    decide (s.handler = .stopping ∨ s.handler = .exited) &&
    decide (s.ping = .stopping ∨ s.ping = .exited)

end State

/-- What the reader can do next. -/
inductive ScannerMove where
  | read | endOfFile | fail | panic
  | checkStop | checkCtx | checkClient | pass
  | send | sendCtx | sendStop
  | closeData | done | stop
  deriving DecidableEq

/-- How a call of the data handler ends. -/
inductive Outcome where
  | normal | stop | panic
  deriving DecidableEq

/-- What the goroutine of the data handler can do next. -/
inductive HandlerMove where
  | receive | noData | lock | call (outcome : Outcome) | unlock | done | stop
  deriving DecidableEq

/-- The moves of the goroutine for pings and of the one that writes a ping. -/
inductive PingMove where
  | tick | lock | write (failed : Bool) | result | giveUp | receiveStop | ctx | client | panic
  | done | stop
  deriving DecidableEq

/-- What the caller can do next. -/
inductive MainMove where
  | receiveStop | timeout | client | cancel | stop | join | joinTimeout | close
  deriving DecidableEq

/-- A move of one goroutine, or the client leaves. -/
inductive Move where
  | scanner (m : ScannerMove)
  | handler (m : HandlerMove)
  | ping (m : PingMove)
  | main (m : MainMove)
  | disconnect
  deriving DecidableEq

def scannerMove (m : ScannerMove) (s : State) : Option State :=
  match m, s.scanner with
  | .read, .scanning =>
    match s.lines with
    | [] => none
    | line :: lines => some { s with lines, scanner := .checking line }
  | .endOfFile, .scanning => if s.lines = [] then some { s with scanner := .closing } else none
  | .fail, .scanning | .panic, .scanning | .panic, .checking _ =>
    some { s with scanner := .closing }
  | .checkStop, .checking _ | .sendStop, .sending _ =>
    s.receiveStop.map fun s => { s with scanner := .closing }
  | .checkCtx, .checking _ | .sendCtx, .sending _ =>
    if s.ctxDone then some { s with scanner := .closing } else none
  | .checkClient, .checking _ =>
    if s.clientGone then some { s with scanner := .closing } else none
  | .pass, .checking line =>
    -- the default of a `select`, which is only taken if nothing else is possible
    if s.receiveStop.isSome ∨ s.ctxDone ∨ s.clientGone then none
    else match readLine line with
      | .skip => some { s with scanner := .scanning }
      | .done => some { s with scanner := .closing }
      | .payload data => some { s with scanner := .sending data }
  | .send, .sending data =>
    if s.dataChan.length < 10 then
      some { s with dataChan := s.dataChan ++ [data], scanner := .scanning }
    else none
  | .closeData, .closing => some { s with dataClosed := true, scanner := .leaving }
  | .done, .leaving => some { s with scanner := .stopping }
  | .stop, .stopping => s.safeSendBool.map fun s => { s with scanner := .exited }
  | _, _ => none

/-- The moves of the data handler's goroutine. -/
def handlerMove (m : HandlerMove) (s : State) : Option State :=
  match m, s.handler with
  | .receive, .receiving =>
    match s.dataChan with
    | [] => none
    | data :: rest => some { s with dataChan := rest, handler := .locking data }
  | .noData, .receiving =>
    if s.dataChan = [] ∧ s.dataClosed then some { s with handler := .leaving } else none
  | .lock, .locking data =>
    if s.writeMutex = none then
      some { s with writeMutex := some .handler, handler := .handling data }
    else none
  | .call outcome, .handling data =>
    let s := { s with calls := s.calls ++ [data] }
    match outcome with
    | .normal => some { s with handler := .unlocking false }
    | .stop => some { s with handler := .unlocking true, asked := true }
    -- the mutex stays locked
    | .panic => some { s with handler := .leaving }
  | .unlock, .unlocking stopped =>
    some { s with writeMutex := none, handler := if stopped then .leaving else .receiving }
  | .done, .leaving => some { s with handler := .stopping }
  | .stop, .stopping => s.safeSendBool.map fun s => { s with handler := .exited }
  | _, _ => none

def pingMove (m : PingMove) (s : State) : Option State :=
  match m, s.ping with
  | .tick, .waiting => some { s with ping := .pinging, write := .locking }
  | .lock, _ =>
    if s.write = .locking ∧ s.writeMutex = none then
      some { s with writeMutex := some .write, write := .writing }
    else none
  | .write failed, _ =>
    if s.write = .writing then some { s with writeMutex := none, write := .written failed }
    else none
  | .result, .pinging =>
    match s.write with
    | .written failed =>
      some { s with write := .idle, ping := if failed then .leaving false else .waiting }
    | _ => none
  -- a ping takes too long, or there have been pings for too long
  | .giveUp, .pinging | .giveUp, .waiting => some { s with ping := .leaving false }
  | .receiveStop, .pinging | .receiveStop, .waiting =>
    s.receiveStop.map fun s => { s with ping := .leaving false }
  | .ctx, .pinging | .ctx, .waiting =>
    if s.ctxDone then some { s with ping := .leaving false } else none
  | .client, .waiting => if s.clientGone then some { s with ping := .leaving false } else none
  | .panic, .pinging | .panic, .waiting => some { s with ping := .leaving true }
  | .done, .leaving panicked => some { s with ping := if panicked then .stopping else .exited }
  | .stop, .stopping => s.safeSendBool.map fun s => { s with ping := .exited }
  | _, _ => none

def mainMove (m : MainMove) (s : State) : Option State :=
  match m, s.main with
  | .receiveStop, .waiting => s.receiveStop.map fun s => { s with main := .cancelling }
  | .timeout, .waiting => some { s with main := .cancelling }
  | .client, .waiting => if s.clientGone then some { s with main := .cancelling } else none
  | .cancel, .cancelling => some { s with ctxDone := true, main := .stopping }
  | .stop, .stopping => s.safeSendBool.map fun s => { s with main := .joining }
  | .join, .joining => if s.allDone then some { s with main := .closing } else none
  | .joinTimeout, .joining => some { s with main := .closing }
  | .close, .closing => some { s with stopClosed := true, main := .returned }
  | _, _ => none

/-- The state after a move, if it is possible. -/
def move (m : Move) (s : State) : Option State :=
  match m with
  | .scanner m => scannerMove m s
  | .handler m => handlerMove m s
  | .ping m => pingMove m s
  | .main m => mainMove m s
  | .disconnect => some { s with clientGone := true }

/-- A move that is not possible changes nothing. -/
def step (m : Move) (s : State) : State := (move m s).getD s

/-- The state after some moves. -/
def runFrom (pingEnabled : Bool) (lines : List String) (moves : List Move) : State :=
  run step moves (.start pingEnabled lines)

section
variable {s s' : State}

theorem receiveStop_some {f : State → State} (h : s.receiveStop.map f = some s') :
    (0 < s.stopChan ∨ s.stopClosed = true) ∧ s' = f { s with stopChan := s.stopChan - 1 } := by
  unfold State.receiveStop at h
  split_ifs at h with hmsg hcl
  · exact ⟨.inl hmsg, (Option.some.inj h).symm⟩
  · refine ⟨.inr hcl, ?_⟩
    cases s
    simp_all
  · contradiction

theorem safeSendBool_some {f : State → State} (h : s.safeSendBool.map f = some s') :
    (s.stopClosed = true ∨ s.stopChan < 3) ∧
      s' = f { s with stopChan := if s.stopClosed then s.stopChan else s.stopChan + 1 } := by
  unfold State.safeSendBool at h
  split_ifs at h with hcl hroom
  · exact ⟨.inl hcl, by rw [← Option.some.inj h, if_pos hcl]⟩
  · exact ⟨.inr hroom, by rw [← Option.some.inj h, if_neg hcl]⟩
  · contradiction

end

/-- The reader has not finished. -/
def ScannerState.reading : ScannerState → Bool
  | .scanning | .checking _ | .sending _ => true
  | _ => false

/-- The moves of the scanner, by what they do. -/
inductive ScannerStep (s : State) : ScannerMove → State → Prop
  | read {line lines} : s.scanner = .scanning → s.lines = line :: lines →
      ScannerStep s .read { s with lines, scanner := .checking line }
  | endOfFile : s.scanner = .scanning → s.lines = [] →
      ScannerStep s .endOfFile { s with scanner := .closing }
  | broken {m} : (m = .fail ∨ m = .panic) → s.scanner.reading = true →
      ScannerStep s m { s with scanner := .closing }
  | stopped {m} : (m = .checkStop ∨ m = .sendStop) → s.scanner.reading = true →
      (0 < s.stopChan ∨ s.stopClosed = true) →
      ScannerStep s m { s with stopChan := s.stopChan - 1, scanner := .closing }
  | cancelled {m} : s.scanner.reading = true → (s.ctxDone = true ∨ s.clientGone = true) →
      ScannerStep s m { s with scanner := .closing }
  | skip {line} : s.scanner = .checking line → readLine line = .skip →
      ScannerStep s .pass { s with scanner := .scanning }
  | terminator {line} : s.scanner = .checking line → readLine line = .done →
      ScannerStep s .pass { s with scanner := .closing }
  | payload {line data} : s.scanner = .checking line → readLine line = .payload data →
      ScannerStep s .pass { s with scanner := .sending data }
  | send {data} : s.scanner = .sending data → s.dataChan.length < 10 →
      ScannerStep s .send { s with dataChan := s.dataChan ++ [data], scanner := .scanning }
  | closeData : s.scanner = .closing →
      ScannerStep s .closeData { s with dataClosed := true, scanner := .leaving }
  | done : s.scanner = .leaving → ScannerStep s .done { s with scanner := .stopping }
  | stop : s.scanner = .stopping → (s.stopClosed = true ∨ s.stopChan < 3) →
      ScannerStep s .stop { s with
        stopChan := if s.stopClosed then s.stopChan else s.stopChan + 1, scanner := .exited }

theorem scannerStep_of_move {m : ScannerMove} {s s' : State} (h : scannerMove m s = some s') :
    ScannerStep s m s' := by
  unfold scannerMove at h
  split at h
  next hpc =>
    split at h
    · contradiction
    next hln =>
      cases h
      exact .read hpc hln
  next hpc =>
    split_ifs at h with hln
    cases h
    exact .endOfFile hpc hln
  next hpc =>
    cases h
    exact .broken (.inl rfl) (by rw [hpc]; rfl)
  case h_4 hpc | h_5 hpc =>
    cases h
    exact .broken (.inr rfl) (by rw [hpc]; rfl)
  next hpc =>
    obtain ⟨hrdy, rfl⟩ := receiveStop_some h
    exact .stopped (.inl rfl) (by rw [hpc]; rfl) hrdy
  next hpc =>
    obtain ⟨hrdy, rfl⟩ := receiveStop_some h
    exact .stopped (.inr rfl) (by rw [hpc]; rfl) hrdy
  case h_8 hpc | h_9 hpc =>
    split_ifs at h with hctx
    cases h
    exact .cancelled (by rw [hpc]; rfl) (.inl hctx)
  next hpc =>
    split_ifs at h with hclient
    cases h
    exact .cancelled (by rw [hpc]; rfl) (.inr hclient)
  next hpc =>
    split_ifs at h with hrdy
    split at h <;> cases h
    next hline => exact .skip hpc hline
    next hline => exact .terminator hpc hline
    next hline => exact .payload hpc hline
  next hpc =>
    split_ifs at h with hroom
    cases h
    exact .send hpc hroom
  next hpc =>
    cases h
    exact .closeData hpc
  next hpc =>
    cases h
    exact .done hpc
  next hpc =>
    obtain ⟨hroom, rfl⟩ := safeSendBool_some h
    exact .stop hpc hroom
  · contradiction

/-- The moves of the data handler's goroutine as a relation. -/
inductive HandlerStep (s : State) : HandlerMove → State → Prop
  | receive {data rest} : s.handler = .receiving → s.dataChan = data :: rest →
      HandlerStep s .receive { s with dataChan := rest, handler := .locking data }
  | noData : s.handler = .receiving → s.dataChan = [] → s.dataClosed = true →
      HandlerStep s .noData { s with handler := .leaving }
  | lock {data} : s.handler = .locking data → s.writeMutex = none →
      HandlerStep s .lock { s with writeMutex := some .handler, handler := .handling data }
  | normal {data} : s.handler = .handling data → HandlerStep s (.call .normal)
        { s with calls := s.calls ++ [data], handler := .unlocking false }
  | ask {data} : s.handler = .handling data → HandlerStep s (.call .stop)
        { s with calls := s.calls ++ [data], handler := .unlocking true, asked := true }
  | panic {data} : s.handler = .handling data →
      HandlerStep s (.call .panic) { s with calls := s.calls ++ [data], handler := .leaving }
  | unlock {stopped} : s.handler = .unlocking stopped → HandlerStep s .unlock
        { s with writeMutex := none, handler := if stopped then .leaving else .receiving }
  | done : s.handler = .leaving → HandlerStep s .done { s with handler := .stopping }
  | stop : s.handler = .stopping → (s.stopClosed = true ∨ s.stopChan < 3) →
      HandlerStep s .stop { s with
        stopChan := if s.stopClosed then s.stopChan else s.stopChan + 1, handler := .exited }

theorem handlerStep_of_move {m : HandlerMove} {s s' : State} (h : handlerMove m s = some s') :
    HandlerStep s m s' := by
  unfold handlerMove at h
  split at h
  next hpc =>
    split at h
    · contradiction
    next hdata =>
      cases h
      exact .receive hpc hdata
  next hpc =>
    split_ifs at h with hcl
    cases h
    exact .noData hpc hcl.1 hcl.2
  next hpc =>
    split_ifs at h with hfree
    cases h
    exact .lock hpc hfree
  next hpc =>
    split at h <;> cases h
    · exact .normal hpc
    · exact .ask hpc
    · exact .panic hpc
  next hpc =>
    cases h
    exact .unlock hpc
  next hpc =>
    cases h
    exact .done hpc
  next hpc =>
    obtain ⟨hroom, rfl⟩ := safeSendBool_some h
    exact .stop hpc hroom
  · contradiction

/-- Pings are still sent. -/
def PingState.running : PingState → Bool
  | .waiting | .pinging => true
  | _ => false

/-- The moves of the goroutines for pings, by what they do. -/
inductive PingStep (s : State) : PingMove → State → Prop
  | tick : s.ping = .waiting → PingStep s .tick { s with ping := .pinging, write := .locking }
  | lock : s.write = .locking → s.writeMutex = none →
      PingStep s .lock { s with writeMutex := some .write, write := .writing }
  | write {failed} : s.write = .writing →
      PingStep s (.write failed) { s with writeMutex := none, write := .written failed }
  | result {failed} : s.ping = .pinging → s.write = .written failed → PingStep s .result { s with
        write := .idle, ping := if failed then .leaving false else .waiting }
  | leave {m} : s.ping.running = true → PingStep s m { s with ping := .leaving false }
  | stopped : s.ping.running = true → (0 < s.stopChan ∨ s.stopClosed = true) →
      PingStep s .receiveStop { s with stopChan := s.stopChan - 1, ping := .leaving false }
  | panic : s.ping.running = true → PingStep s .panic { s with ping := .leaving true }
  | done {panicked} : s.ping = .leaving panicked →
      PingStep s .done { s with ping := if panicked then .stopping else .exited }
  | stop : s.ping = .stopping → (s.stopClosed = true ∨ s.stopChan < 3) → PingStep s .stop { s with
        stopChan := if s.stopClosed then s.stopChan else s.stopChan + 1, ping := .exited }

theorem pingStep_of_move {m : PingMove} {s s' : State} (h : pingMove m s = some s') :
    PingStep s m s' := by
  unfold pingMove at h
  split at h
  next hpc =>
    cases h
    exact .tick hpc
  · split_ifs at h with hlock
    cases h
    exact .lock hlock.1 hlock.2
  · split_ifs at h with hwr
    cases h
    exact .write hwr
  next hpc =>
    split at h
    next hwrt =>
      cases h
      exact .result hpc hwrt
    · contradiction
  case h_5 hpc | h_6 hpc =>
    cases h
    exact .leave (by rw [hpc]; rfl)
  case h_7 hpc | h_8 hpc =>
    obtain ⟨hrdy, rfl⟩ := receiveStop_some h
    exact .stopped (by rw [hpc]; rfl) hrdy
  case h_9 hpc | h_10 hpc | h_11 hpc =>
    split_ifs at h
    cases h
    exact .leave (by rw [hpc]; rfl)
  case h_12 hpc | h_13 hpc =>
    cases h
    exact .panic (by rw [hpc]; rfl)
  next hpc =>
    cases h
    exact .done hpc
  next hpc =>
    obtain ⟨hroom, rfl⟩ := safeSendBool_some h
    exact .stop hpc hroom
  · contradiction

/-- The caller's moves as a relation. -/
inductive MainStep (s : State) : MainMove → State → Prop
  | receiveStop : s.main = .waiting → (0 < s.stopChan ∨ s.stopClosed = true) →
      MainStep s .receiveStop { s with stopChan := s.stopChan - 1, main := .cancelling }
  | leave {m} : (m = .timeout ∨ m = .client) → s.main = .waiting →
      MainStep s m { s with main := .cancelling }
  | cancel : s.main = .cancelling → MainStep s .cancel { s with ctxDone := true, main := .stopping }
  | stop : s.main = .stopping → (s.stopClosed = true ∨ s.stopChan < 3) → MainStep s .stop { s with
        stopChan := if s.stopClosed then s.stopChan else s.stopChan + 1, main := .joining }
  | join : s.main = .joining → s.allDone = true → MainStep s .join { s with main := .closing }
  | joinTimeout : s.main = .joining → MainStep s .joinTimeout { s with main := .closing }
  | close : s.main = .closing → MainStep s .close { s with stopClosed := true, main := .returned }

theorem mainStep_of_move {m : MainMove} {s s' : State} (h : mainMove m s = some s') :
    MainStep s m s' := by
  unfold mainMove at h
  split at h
  next hpc =>
    obtain ⟨hrdy, rfl⟩ := receiveStop_some h
    exact .receiveStop hpc hrdy
  next hpc =>
    cases h
    exact .leave (.inl rfl) hpc
  next hpc =>
    split_ifs at h
    cases h
    exact .leave (.inr rfl) hpc
  next hpc =>
    cases h
    exact .cancel hpc
  next hpc =>
    obtain ⟨hroom, rfl⟩ := safeSendBool_some h
    exact .stop hpc hroom
  next hpc =>
    split_ifs at h with hdone
    cases h
    exact .join hpc hdone
  next hpc =>
    cases h
    exact .joinTimeout hpc
  next hpc =>
    cases h
    exact .close hpc
  · contradiction

/-- An invariant of the moves that are possible is one of all steps. -/
theorem step_induction {I : State → Prop} {m : Move} {s : State} (hs : I s)
    (hmove : ∀ s', move m s = some s' → I s') : I (step m s) := by
  unfold step
  cases h : move m s with
  | none => exact hs
  | some s' => exact hmove s' h

end NewApi.StreamScanner
