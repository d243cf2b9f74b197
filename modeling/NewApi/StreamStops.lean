import NewApi.StreamScanner

/-!
# How a stream is stopped

Each goroutine that ends sends a message to the stop channel, which the main goroutine waits for.
But the scanner and the goroutine for pings receive messages from the channel as well. The scanner
sends one when it ends, the other does not.
-/
namespace NewApi.StreamScanner

/-- The moves that happen because time has passed or the client is gone. -/
def Move.external : Move → Bool
  | .main .timeout | .main .client | .disconnect | .scanner .checkClient | .ping .client => true
  | _ => false

/-- The main goroutine can go on, and needs neither the timeout nor the client to be gone. -/
def CanProceed (s : State) : Prop :=
  ∃ moves : List Move, (∀ m ∈ moves, m.external = false) ∧ (run step moves s).main ≠ .waiting

/-- The main goroutine can go on after the handler has asked to stop or the scanner has ended. -/
def Prompt (s : State) : Prop := s.asked = true ∨ s.scanner.reading = false → CanProceed s

inductive Sender where
  | scanner | handler | ping | main

def State.sendsStop (s : State) : Sender → Bool
  | .scanner => decide (s.scanner = .stopping)
  | .handler => decide (s.handler = .stopping)
  | .ping => decide (s.ping = .stopping)
  | .main => decide (s.main = .stopping)

open State

/-- No goroutine is blocked for ever when it sends to the stop channel. -/
def Unblocked (s : State) : Prop :=
  ∀ g, s.sendsStop g = true → ∃ moves : List Move, (run step moves s).sendsStop g = false

def ScannerState.pending : ScannerState → ℕ
  | .exited => 0
  | _ => 1

def HandlerState.pending : HandlerState → ℕ
  | .exited => 0
  | _ => 1

def MainState.pending : MainState → ℕ
  | .waiting | .cancelling | .stopping => 1
  | _ => 0

/-- The messages that the goroutines have yet to send. -/
def State.pending (s : State) : ℕ := s.scanner.pending + s.handler.pending + s.main.pending

theorem ScannerState.pending_of_reading {p : ScannerState} (h : p.reading = true) :
    p.pending = 1 := by
  cases p <;> first | rfl | contradiction

/-- There is room for the messages of the scanner, the handler and the main goroutine, and the
channel is open until the main goroutine returns. -/
structure Room (s : State) : Prop where
  room : s.stopChan + s.pending ≤ 3
  opened : s.stopClosed = true → s.main = .returned

namespace Room
variable {s s' : State}

section
variable (h : Room s)
include h

theorem not_closed (hmain : s.main ≠ .returned) : s.stopClosed = false := by
  by_contra hcl
  exact hmain (h.opened (by simpa using hcl))

theorem keep {t : State} (hsum : t.stopChan + t.pending ≤ s.stopChan + s.pending)
    (hmain : t.main = s.main) (hcl : t.stopClosed = s.stopClosed) : Room t := by
  refine ⟨hsum.trans h.room, ?_⟩
  rw [hmain, hcl]
  exact h.opened

theorem scannerStep {m : ScannerMove} (hm : ScannerStep s m s') : Room s' := by
  cases hm with
  | read hpc _ | endOfFile hpc _ | skip hpc _ | terminator hpc _ | payload hpc _ | send hpc _
  | closeData hpc | done hpc =>
    exact h.keep (by simp [pending, hpc, ScannerState.pending]) rfl rfl
  | broken _ hread | cancelled hread _ =>
    refine h.keep ?_ rfl rfl
    rw [pending, pending, ScannerState.pending_of_reading hread]
    exact le_rfl
  | stopped _ hread _ =>
    refine h.keep ?_ rfl rfl
    rw [pending, pending, ScannerState.pending_of_reading hread]
    exact Nat.add_le_add_right (Nat.sub_le _ _) _
  | stop hpc _ =>
    refine h.keep ?_ rfl rfl
    simp only [pending, hpc, ScannerState.pending]
    split_ifs <;> omega

theorem handlerStep {m : HandlerMove} (hm : HandlerStep s m s') : Room s' := by
  cases hm with
  | receive hpc _ | noData hpc _ _ | lock hpc _ | normal hpc | ask hpc | panic hpc | done hpc =>
    exact h.keep (by simp [pending, hpc, HandlerState.pending]) rfl rfl
  | @unlock stopped hpc =>
    refine h.keep ?_ rfl rfl
    cases stopped <;> simp [pending, hpc, HandlerState.pending]
  | stop hpc _ =>
    refine h.keep ?_ rfl rfl
    simp only [pending, hpc, HandlerState.pending]
    split_ifs <;> omega

theorem mainStep {m : MainMove} (hm : MainStep s m s') : Room s' := by
  have hroom := h.room
  unfold pending at hroom
  have hkeep : ∀ {t : State}, t.stopChan + t.main.pending ≤ s.stopChan + s.main.pending →
      t.scanner = s.scanner → t.handler = s.handler → s.main ≠ .returned →
      t.stopClosed = s.stopClosed → Room t := by
    intro t hsum hscan hhan hmain hcl
    refine ⟨?_, fun hc => absurd (h.opened (hcl ▸ hc)) hmain⟩
    rw [pending, hscan, hhan]
    omega
  cases hm with
  | receiveStop hpc _ =>
    refine hkeep ?_ rfl rfl (by simp [hpc]) rfl
    simp [hpc, MainState.pending]
  | leave _ hpc | cancel hpc | join hpc _ | joinTimeout hpc =>
    exact hkeep (by simp [hpc, MainState.pending]) rfl rfl (by simp [hpc]) rfl
  | stop hpc _ =>
    refine hkeep ?_ rfl rfl (by simp [hpc]) rfl
    simp only [hpc, MainState.pending]
    split_ifs <;> omega
  | close hpc =>
    refine ⟨?_, fun _ => rfl⟩
    simp only [hpc, MainState.pending] at hroom
    simpa only [pending, MainState.pending] using hroom

theorem sent (hmain : s.main ≠ .returned) (hpend : 0 < s.pending) :
    s.safeSendBool = some { s with stopChan := s.stopChan + 1 } := by
  have hroom := h.room
  rw [safeSendBool, h.not_closed hmain, if_neg (by decide), if_pos (by omega)]

end

end Room

def HandlerState.ending : HandlerState → Bool
  | .unlocking true | .leaving | .stopping | .exited => true
  | _ => false

/-- While the main goroutine waits, a message of the scanner stays in the channel, and one of the
handler until the scanner has received it. -/
structure WithoutPings (s : State) : Prop extends Room s where
  ping : s.ping = .exited
  write : s.write = .idle
  scannerSent : s.main = .waiting → s.scanner = .exited → 0 < s.stopChan
  handlerSent : s.main = .waiting → s.handler = .exited → 0 < s.stopChan ∨ s.scanner.reading = false
  asked : s.asked = true → s.handler.ending = true

namespace WithoutPings
variable {s s' : State}

theorem start (lines : List String) : WithoutPings (.start false lines) := by
  refine ⟨⟨?_, ?_⟩, ?_, ?_, ?_, ?_, ?_⟩ <;>
    simp [State.start, pending, ScannerState.pending, HandlerState.pending, MainState.pending]

section
variable (h : WithoutPings s)
include h

theorem scannerStep {m : ScannerMove} (hm : ScannerStep s m s') :
    WithoutPings s' := by
  have hroom := h.toRoom.scannerStep hm
  -- the scanner goes on
  have hrds : ∀ {p lines data}, s.scanner.reading = true → p.reading = true →
      Room { s with lines := lines, dataChan := data, scanner := p } →
      WithoutPings { s with lines := lines, dataChan := data, scanner := p } := by
    intro p lines data hold hnew hroom
    refine ⟨hroom, h.ping, h.write, fun _ hexit => ?_, fun hmain hexit => ?_, h.asked⟩
    · rw [show p = .exited from hexit] at hnew
      contradiction
    · exact .inl ((h.handlerSent hmain hexit).resolve_right (by simp [hold]))
  -- the scanner has ended, and may have received a message
  have hends : ∀ {n closed p}, p.pending = 1 → p.reading = false →
      Room { s with stopChan := n, dataClosed := closed, scanner := p } →
      WithoutPings { s with stopChan := n, dataClosed := closed, scanner := p } := by
    intro n closed p hp hnew hroom
    refine ⟨hroom, h.ping, h.write, fun _ hexit => ?_, fun _ _ => .inr hnew, h.asked⟩
    rw [show p = .exited from hexit] at hp
    contradiction
  cases hm with
  | read hpc _ | skip hpc _ | payload hpc _ | send hpc _ =>
    exact hrds (by rw [hpc]; rfl) rfl hroom
  | endOfFile | broken | stopped | cancelled | terminator | closeData | done =>
    exact hends rfl rfl hroom
  | stop hpc hfree =>
    refine ⟨hroom, h.ping, h.write, fun hmain _ => ?_, fun _ _ => .inr rfl, h.asked⟩
    have hmain' : s.main = .waiting := hmain
    have hopen := h.not_closed (by simp [hmain'])
    simp [hopen]

theorem handlerStep {m : HandlerMove} (hm : HandlerStep s m s') :
    WithoutPings s' := by
  have hroom := h.toRoom.handlerStep hm
  -- the handler goes on, or ends without a message yet
  have hgoes : ∀ {p data mutex calls asked}, p ≠ .exited → (asked = true → p.ending = true) →
      Room { s with
        dataChan := data, writeMutex := mutex, calls := calls, asked := asked, handler := p } →
      WithoutPings { s with
        dataChan := data, writeMutex := mutex, calls := calls, asked := asked, handler := p } := by
    intro p data mutex calls asked hp hend hroom
    exact ⟨hroom, h.ping, h.write, h.scannerSent, fun _ hexit => absurd hexit hp, hend⟩
  have hnone : ∀ {p}, s.handler = p → p.ending = false → s.asked ≠ true := by
    intro p hpc hend hask
    have := h.asked hask
    rw [hpc, hend] at this
    contradiction
  cases hm with
  | receive hpc _ | lock hpc _ | normal hpc =>
    exact hgoes (by simp) (fun hask => absurd hask (hnone hpc rfl)) hroom
  | noData | ask | panic | done => exact hgoes (by simp) (fun _ => rfl) hroom
  | @unlock stopped hpc =>
    cases stopped with
    | true => exact hgoes (by simp) (fun _ => rfl) hroom
    | false => exact hgoes (by simp) (fun hask => absurd hask (hnone hpc rfl)) hroom
  | stop hpc hfree =>
    have hmore : s.stopChan ≤ if s.stopClosed then s.stopChan else s.stopChan + 1 := by
      split_ifs <;> omega
    refine ⟨hroom, h.ping, h.write, fun hmain hexit => ?_, fun hmain _ => .inl ?_, fun _ => rfl⟩
    · exact (h.scannerSent hmain hexit).trans_le hmore
    · have hmain' : s.main = .waiting := hmain
      have hopen := h.not_closed (by simp [hmain'])
      simp [hopen]

theorem mainStep {m : MainMove} (hm : MainStep s m s') : WithoutPings s' := by
  have hroom := h.toRoom.mainStep hm
  have hleaves : ∀ {p n ctx closed}, p ≠ .waiting →
      Room { s with stopChan := n, ctxDone := ctx, stopClosed := closed, main := p } →
      WithoutPings { s with stopChan := n, ctxDone := ctx, stopClosed := closed, main := p } := by
    intro p n ctx closed hp hroom
    exact ⟨hroom, h.ping, h.write, fun h => absurd h hp, fun h => absurd h hp, h.asked⟩
  cases hm with
  | receiveStop | leave | cancel | stop | join | joinTimeout | close =>
    exact hleaves (by simp) hroom

theorem pingStep {m : PingMove} (hm : PingStep s m s') : False := by
  have hping := h.ping
  have hwr := h.write
  cases hm <;> simp_all [PingState.running]

end

theorem next (m : Move) (h : WithoutPings s) : WithoutPings (step m s) := by
  apply step_induction h
  intro s' hmove
  cases m with
  | scanner m => exact h.scannerStep (scannerStep_of_move hmove)
  | handler m => exact h.handlerStep (handlerStep_of_move hmove)
  | ping m => exact (h.pingStep (pingStep_of_move hmove)).elim
  | main m => exact h.mainStep (mainStep_of_move hmove)
  | disconnect =>
    rw [← Option.some.inj hmove]
    exact ⟨⟨h.room, h.opened⟩, h.ping, h.write, h.scannerSent, h.handlerSent, h.asked⟩

theorem of_run (lines : List String) (moves : List Move) :
    WithoutPings (runFrom false lines moves) :=
  run_invariant_always (fun m _ h => h.next m) moves (start lines)

end WithoutPings

section
variable {s : State}

theorem CanProceed.of_step {m : Move} (hm : m.external = false) (h : CanProceed (step m s)) :
    CanProceed s := by
  obtain ⟨moves, hmv, hmain⟩ := h
  refine ⟨m :: moves, ?_, hmain⟩
  intro m' hm'
  cases List.mem_cons.mp hm' with
  | inl heq => rw [heq, hm]
  | inr hm' => exact hmv m' hm'

theorem CanProceed.of_message (hmain : s.main = .waiting) (hstop : 0 < s.stopChan) :
    CanProceed s := by
  refine ⟨[.main .receiveStop], by simp [Move.external], ?_⟩
  simp [run, step, move, mainMove, hmain, receiveStop, hstop]

end

namespace WithoutPings
variable {s : State}

theorem proceed_via (h : WithoutPings s) (m : Move) (t : State) (hm : m.external = false)
    (hmove : move m s = some t) (hproc : WithoutPings t → CanProceed t) : CanProceed s := by
  have hstep : step m s = t := by rw [step, hmove, Option.getD_some]
  have hnext := h.next m
  apply CanProceed.of_step hm
  rw [hstep] at hnext ⊢
  exact hproc hnext

section
variable (h : WithoutPings s)
include h

section
variable (hmain : s.main = .waiting)
include hmain

/-! The scanner goes through its last states and sends a message. -/

theorem proceed_of_exited (hpc : s.scanner = .exited) : CanProceed s :=
  .of_message hmain (h.scannerSent hmain hpc)

theorem proceed_of_stopping (hpc : s.scanner = .stopping) : CanProceed s := by
  apply h.proceed_via (.scanner .stop) { s with stopChan := s.stopChan + 1, scanner := .exited } rfl
  · simp [move, scannerMove, hpc, h.sent (by simp [hmain]) (by simp [pending, hpc, ScannerState.pending])]
  · exact fun h => h.proceed_of_exited hmain rfl

theorem proceed_of_leaving (hpc : s.scanner = .leaving) : CanProceed s := by
  apply h.proceed_via (.scanner .done) { s with scanner := .stopping } rfl
  · simp [move, scannerMove, hpc]
  · exact fun h => h.proceed_of_stopping hmain rfl

theorem proceed_of_ended (hend : s.scanner.reading = false) : CanProceed s := by
  cases hpc : s.scanner with
  | scanning | checking _ | sending _ =>
    rw [hpc] at hend
    contradiction
  | closing =>
    apply h.proceed_via (.scanner .closeData) { s with dataClosed := true, scanner := .leaving } rfl
    · simp [move, scannerMove, hpc]
    · exact fun h => h.proceed_of_leaving hmain rfl
  | leaving => exact h.proceed_of_leaving hmain hpc
  | stopping => exact h.proceed_of_stopping hmain hpc
  | exited => exact h.proceed_of_exited hmain hpc

/-! So does the handler, but the scanner may receive its message. -/

theorem proceed_of_handler_exited (hpc : s.handler = .exited) : CanProceed s := by
  cases h.handlerSent hmain hpc with
  | inl hstop => exact .of_message hmain hstop
  | inr hend => exact h.proceed_of_ended hmain hend

theorem proceed_of_handler_stopping (hpc : s.handler = .stopping) : CanProceed s := by
  apply h.proceed_via (.handler .stop) { s with stopChan := s.stopChan + 1, handler := .exited } rfl
  · simp [move, handlerMove, hpc, h.sent (by simp [hmain]) (by simp [pending, hpc, HandlerState.pending])]
  · exact fun h => h.proceed_of_handler_exited hmain rfl

theorem proceed_of_handler_leaving (hpc : s.handler = .leaving) : CanProceed s := by
  apply h.proceed_via (.handler .done) { s with handler := .stopping } rfl
  · simp [move, handlerMove, hpc]
  · exact fun h => h.proceed_of_handler_stopping hmain rfl

theorem proceed_of_asked (hask : s.asked = true) : CanProceed s := by
  have hend := h.asked hask
  cases hpc : s.handler with
  | receiving | locking _ | handling _ =>
    rw [hpc] at hend
    contradiction
  | unlocking stopped =>
    cases stopped with
    | false =>
      rw [hpc] at hend
      contradiction
    | true =>
      apply h.proceed_via (.handler .unlock)
        { s with writeMutex := none, handler := .leaving } rfl
      · simp [move, handlerMove, hpc]
      · exact fun h => h.proceed_of_handler_leaving hmain rfl
  | leaving => exact h.proceed_of_handler_leaving hmain hpc
  | stopping => exact h.proceed_of_handler_stopping hmain hpc
  | exited => exact h.proceed_of_handler_exited hmain hpc

end

theorem prompt : Prompt s := by
  intro hcause
  by_cases hmain : s.main = .waiting
  · cases hcause with
    | inl hask => exact h.proceed_of_asked hmain hask
    | inr hend => exact h.proceed_of_ended hmain hend
  · exact ⟨[], by simp, hmain⟩

/-- A goroutine that sends a message has one pending, so there is room for it. -/
theorem unblocked : Unblocked s := by
  have hfree : 0 < s.pending → (s.safeSendBool).isSome := by
    intro hpend
    have := h.room
    unfold safeSendBool
    split_ifs with hc hr
    · rfl
    · rfl
    · omega
  intro g hg
  cases g with
  | scanner =>
    have hpc : s.scanner = .stopping := of_decide_eq_true hg
    obtain ⟨s', hs'⟩ := Option.isSome_iff_exists.mp
      (hfree (by simp only [pending, hpc, ScannerState.pending]; omega))
    refine ⟨[.scanner .stop], ?_⟩
    simp [run, step, move, scannerMove, hpc, hs', sendsStop]
  | handler =>
    have hpc : s.handler = .stopping := of_decide_eq_true hg
    obtain ⟨s', hs'⟩ := Option.isSome_iff_exists.mp
      (hfree (by simp only [pending, hpc, HandlerState.pending]; omega))
    refine ⟨[.handler .stop], ?_⟩
    simp [run, step, move, handlerMove, hpc, hs', sendsStop]
  | ping =>
    have hpc : s.ping = .stopping := of_decide_eq_true hg
    rw [h.ping] at hpc
    contradiction
  | main =>
    have hpc : s.main = .stopping := of_decide_eq_true hg
    obtain ⟨s', hs'⟩ := Option.isSome_iff_exists.mp
      (hfree (by simp only [pending, hpc, MainState.pending]; omega))
    refine ⟨[.main .stop], ?_⟩
    simp [run, step, move, mainMove, hpc, hs', sendsStop]

end

end WithoutPings

structure OnlyMain (s : State) : Prop where
  scanner : s.scanner = .exited
  handler : s.handler = .exited
  ping : s.ping = .exited
  write : s.write = .idle

theorem OnlyMain.move_eq_none {s : State} {m : Move} (h : OnlyMain s) (hgone : m ≠ .disconnect)
    (hmain : ∀ m', m = .main m' → mainMove m' s = none) : move m s = none := by
  cases m with
  | scanner m => cases m <;> simp [move, scannerMove, h.scanner]
  | handler m => cases m <;> simp [move, handlerMove, h.handler]
  | ping m => cases m <;> simp [move, pingMove, h.ping, h.write]
  | main m => exact hmain m rfl
  | disconnect => contradiction

/-- The scanner receives the message of the handler, and the goroutine for pings the one of the
scanner. -/
def lostStop : List Move :=
  [.scanner .read, .scanner .pass, .scanner .send,
    .handler .receive, .handler .lock, .handler (.call .stop), .handler .unlock, .handler .done,
    .handler .stop,
    .scanner .read, .scanner .checkStop, .scanner .closeData, .scanner .done, .scanner .stop,
    .ping .receiveStop, .ping .done]

def lostStopLines : List String := ["data: a", "data: b"]

/-- The main goroutine waits for a message that no goroutine will send. -/
structure Forgotten (s : State) : Prop extends OnlyMain s where
  main : s.main = .waiting
  empty : s.stopChan = 0
  opened : s.stopClosed = false

theorem forgotten_lostStop : Forgotten (runFrom true lostStopLines lostStop) := by
  constructor
  · constructor <;> decide +kernel
  all_goals decide +kernel

/-- Without the client or a timeout nothing moves any more. -/
theorem Forgotten.step_eq {s : State} {m : Move} (h : Forgotten s) (hm : m.external = false) :
    step m s = s := by
  have hnone : move m s = none := by
    apply h.move_eq_none
    · rintro rfl
      contradiction
    · rintro m rfl
      cases m <;> first
        | contradiction
        | simp [mainMove, h.main, receiveStop, h.empty, h.opened]
  rw [step, hnone, Option.getD_none]

theorem Forgotten.not_canProceed {s : State} (h : Forgotten s) : ¬CanProceed s := by
  rintro ⟨moves, hmv, hmain⟩
  have hrun : Forgotten (run step moves s) := by
    apply run_invariant_of_forall (P := fun m => m.external = false) ?_ hmv h
    intro m t hm ht
    rw [ht.step_eq hm]
    exact ht
  exact hmain hrun.main

theorem not_prompt_lostStop : ¬Prompt (runFrom true lostStopLines lostStop) := by
  intro hpmt
  have hask : (runFrom true lostStopLines lostStop).asked = true := by decide +kernel
  exact forgotten_lostStop.not_canProceed (hpmt (.inl hask))

/-- All other goroutines send a message before the main goroutine does. -/
def fullStop : List Move :=
  [.scanner .endOfFile, .scanner .closeData, .scanner .done, .scanner .stop,
    .handler .noData, .handler .done, .handler .stop,
    .ping .panic, .ping .done, .ping .stop,
    .main .timeout, .main .cancel]

/-- The main goroutine sends to a channel that is full, and that nobody will receive from. -/
structure Blocked (s : State) : Prop extends OnlyMain s where
  main : s.main = .stopping
  full : s.stopChan = 3
  opened : s.stopClosed = false

theorem blocked_fullStop : Blocked (runFrom true [] fullStop) := by
  constructor
  · constructor <;> decide +kernel
  all_goals decide +kernel

theorem Blocked.next {s : State} (h : Blocked s) (m : Move) : Blocked (step m s) := by
  by_cases hgone : m = .disconnect
  · rw [hgone]
    exact ⟨{ h with }, h.main, h.full, h.opened⟩
  have hnone : move m s = none := by
    apply h.move_eq_none hgone
    rintro m rfl
    cases m <;> simp [mainMove, h.main, safeSendBool, h.full, h.opened]
  rw [step, hnone, Option.getD_none]
  exact h

theorem Blocked.not_unblocked {s : State} (h : Blocked s) : ¬Unblocked s := by
  intro hun
  obtain ⟨moves, hmv⟩ := hun .main (by simp [sendsStop, h.main])
  have hrun : Blocked (run step moves s) := run_invariant_always (fun m _ h => h.next m) moves h
  simp [sendsStop, hrun.main] at hmv

/-- Stopping a stream is prompt exactly if there are no pings, and then no goroutine is blocked for
ever on the stop channel. With pings one may be. -/
theorem stream_stop_prompt_iff (pingEnabled : Bool) :
    ((∀ lines moves, Prompt (runFrom pingEnabled lines moves)) ↔ pingEnabled = false) ∧
      ((∀ lines moves, Unblocked (runFrom pingEnabled lines moves)) ↔ pingEnabled = false) := by
  cases pingEnabled with
  | false =>
    refine ⟨iff_of_true ?_ rfl, iff_of_true ?_ rfl⟩
    · exact fun lines moves => (WithoutPings.of_run lines moves).prompt
    · exact fun lines moves => (WithoutPings.of_run lines moves).unblocked
  | true =>
    refine ⟨iff_of_false ?_ (by decide), iff_of_false ?_ (by decide)⟩
    · exact fun h => not_prompt_lostStop (h lostStopLines lostStop)
    · exact fun h => blocked_fullStop.not_unblocked (h [] fullStop)

/-- With pings a request of the handler to stop can be lost, and the main goroutine can be blocked on
its own message. -/
theorem stream_stop_lost :
    ¬Prompt (runFrom true lostStopLines lostStop) ∧ ¬Unblocked (runFrom true [] fullStop) :=
  ⟨not_prompt_lostStop, blocked_fullStop.not_unblocked⟩

end NewApi.StreamScanner
