import NewApi.Runs

/-!
# Syncing the capabilities of a channel

`QueueChannelCapabilitySync` sets a flag for the channel, and starts a worker if there was no entry.
The worker waits for one of two slots that all channels share. Then it clears the flag and
refreshes, until the flag is clear after a refresh; this removes the entry. Each section under the
lock is one step. A worker stands in the list from the call that starts it.
-/
namespace NewApi.CapabilitySync

inductive Worker where
  | waiting | clearing | refreshing
  deriving DecidableEq

/-- The entry of a channel, its workers, and how many refreshes have begun. -/
structure Queue where
  pending : Option Bool
  workers : List Worker
  refreshes : ℕ

inductive Event where
  | call
  | work (n : ℕ)
  deriving DecidableEq

def step : Event → Queue → Queue
  | .call, q =>
    { q with
      pending := some true
      workers := if q.pending.isSome then q.workers else q.workers ++ [.waiting] }
  | .work n, q =>
    match q.workers[n]? with
    | none => q
    | some .waiting => { q with workers := q.workers.set n .clearing }
    | some .clearing =>
      { pending := some false, workers := q.workers.set n .refreshing, refreshes := q.refreshes + 1 }
    | some .refreshing =>
      if q.pending.getD false then { q with workers := q.workers.set n .clearing }
      else { q with pending := none, workers := q.workers.eraseIdx n }

/-- The queues of the channels, and the free slots of `capabilityWorkers`. -/
structure Sync where
  queues : ℕ → Queue
  free : ℕ

def start : Sync := ⟨fun _ => ⟨none, [], 0⟩, 2⟩

/-- The workers that are past their wait. -/
def running (q : Queue) : ℕ := q.workers.countP (· ≠ .waiting)

/-- A worker waits, and there is no slot for it. -/
def blocked (s : Sync) (c : ℕ) : Event → Bool
  | .call => false
  | .work n => (s.queues c).workers[n]? = some .waiting ∧ s.free = 0

/-- The free slots after an event. A worker that stops waiting acquires one, and the worker that
removes the entry releases it on its return. -/
def slotsAfter (e : Event) (q : Queue) (free : ℕ) : ℕ :=
  match e with
  | .call => free
  | .work n =>
    match q.workers[n]? with
    | some .waiting => free - 1
    | some .refreshing => if q.pending.getD false then free else free + 1
    | _ => free

def syncStep (e : ℕ × Event) (s : Sync) : Sync :=
  if blocked s e.1 e.2 then s
  else
    { queues := Function.update s.queues e.1 (step e.2 (s.queues e.1))
      free := slotsAfter e.2 (s.queues e.1) s.free }

/-- The events of a channel that were not blocked. -/
def taken (c : ℕ) : List (ℕ × Event) → Sync → List Event
  | [], _ => []
  | e :: events, s =>
    if e.1 = c ∧ blocked s c e.2 = false then e.2 :: taken c events (syncStep e s)
    else taken c events (syncStep e s)

/-- Each queue runs by its own events. -/
theorem queue_run (c : ℕ) (events : List (ℕ × Event)) (s : Sync) :
    (run syncStep events s).queues c = run step (taken c events s) (s.queues c) := by
  induction events generalizing s with
  | nil => rfl
  | cons e events ih =>
    rw [run_cons, ih, taken, syncStep]
    by_cases hc : e.1 = c
    · subst hc
      cases hblk : blocked s e.1 e.2 <;> simp
    · cases hblk : blocked s e.1 e.2 <;> simp [hc, Function.update_of_ne (Ne.symm hc)]

/-- `refreshing again` is a refresh that another one follows, or not. -/
inductive Phase where
  | idle | waiting | clearing
  | refreshing (again : Bool)
  deriving DecidableEq

namespace Phase

def queue (refreshes : ℕ) : Phase → Queue
  | idle => ⟨none, [], refreshes⟩
  | waiting => ⟨some true, [.waiting], refreshes⟩
  | clearing => ⟨some true, [.clearing], refreshes⟩
  | refreshing again => ⟨some again, [.refreshing], refreshes⟩

/-- The refreshes that have yet to begin. -/
def due : Phase → ℕ
  | idle | refreshing false => 0
  | _ => 1

/-- The moves of the worker until it ends. -/
def left : Phase → ℕ
  | idle => 0
  | refreshing false => 1
  | clearing => 2
  | _ => 3

def called : Phase → Phase
  | idle => waiting
  | refreshing _ => refreshing true
  | p => p

def worked : Phase → Phase
  | waiting | refreshing true => clearing
  | clearing => refreshing false
  | idle | refreshing false => idle

variable (p : Phase) (n : ℕ)

theorem step_call : step .call (p.queue n) = p.called.queue n := by
  cases p <;> rfl

theorem step_work : step (.work 0) (p.queue n) = p.worked.queue (n + (p.due - p.worked.due)) := by
  rcases p with _ | _ | _ | (_ | _) <;> rfl

theorem step_other (k : ℕ) : step (.work (k + 1)) (p.queue n) = p.queue n := by
  cases p <;> rfl

theorem left_worked : p.worked.left = p.left - 1 ∧ p.worked.due ≤ p.due := by
  rcases p with _ | _ | _ | (_ | _) <;> decide

theorem left_called : p.called.left ≤ 3 ∧ p.called.due = 1 ∧ (p.due = 1 → p.called = p) := by
  rcases p with _ | _ | _ | (_ | _) <;> decide

end Phase

open Phase

variable (events : List Event)

/-- Whatever happens, the channel is in one of its phases. -/
theorem run_queue (p : Phase) (n : ℕ) :
    ∃ (p' : Phase) (n' : ℕ), run step events (p.queue n) = p'.queue n' ∧ n ≤ n' := by
  induction events generalizing p n with
  | nil => exact ⟨p, n, rfl, le_rfl⟩
  | cons e events ih =>
    rw [run_cons]
    rcases e with _ | _ | k
    · rw [step_call]
      exact ih _ _
    · rw [step_work]
      obtain ⟨p', n', hrun, hle⟩ := ih p.worked (n + (p.due - p.worked.due))
      exact ⟨p', n', hrun, by omega⟩
    · rw [step_other]
      exact ih _ _

/-- Without calls, the worker makes its moves and ends, and the refresh that was due has begun. -/
theorem run_work (p : Phase) (n : ℕ) (hcs : .call ∉ events)
    (hmv : p.left ≤ events.count (.work 0)) :
    run step events (p.queue n) = idle.queue (n + p.due) := by
  induction events generalizing p n with
  | nil => rcases p with _ | _ | _ | (_ | _) <;> first | rfl | exact absurd hmv (by decide)
  | cons e events ih =>
    obtain ⟨hcall, hrest⟩ := not_or.mp (List.mem_cons.not.mp hcs)
    rw [run_cons]
    rcases e with _ | _ | k
    · exact absurd rfl hcall
    · rw [step_work]
      obtain ⟨hleft, hdue⟩ := left_worked p
      rw [List.count_cons_self] at hmv
      rw [ih p.worked _ hrest (by omega)]
      congr 1
      omega
    · rw [step_other]
      exact ih p n hrest (by simpa using hmv)

/-- A refresh that is due begins with the next but one move at the latest. -/
theorem run_begins (p : Phase) (n : ℕ) (hdue : p.due = 1)
    (hmv : p.left ≤ events.count (.work 0) + 1) :
    n < (run step events (p.queue n)).refreshes := by
  induction events generalizing p n with
  | nil => rcases p with _ | _ | _ | (_ | _) <;> simp [left, due] at hmv hdue
  | cons e events ih =>
    rw [run_cons]
    rcases e with _ | _ | k
    · rw [step_call, (left_called p).2.2 hdue]
      exact ih p n hdue (by simpa using hmv)
    · rw [step_work]
      obtain ⟨hleft, hworked⟩ := left_worked p
      rw [List.count_cons_self] at hmv
      by_cases hbegun : p.worked.due = 1
      · rw [hdue, hbegun]
        exact ih p.worked n hbegun (by omega)
      · obtain ⟨p', n', hrun, hle⟩ := run_queue events p.worked (n + (p.due - p.worked.due))
        rw [hrun]
        have : (p'.queue n').refreshes = n' := by cases p' <;> rfl
        omega
    · rw [step_other]
      exact ih p n hdue (by simpa using hmv)

theorem run_calls (k : ℕ) (p : Phase) (n : ℕ) (hdue : p.due = 1) :
    run step (List.replicate k .call) (p.queue n) = p.queue n := by
  induction k with
  | zero => rfl
  | succ k ih => rw [List.replicate_succ, run_cons, step_call, (left_called p).2.2 hdue, ih]

/-- A channel has one worker at most, and an entry as long as it has one. After a call a refresh
begins with the second move of the worker at the latest. Once calls have been made in a row, and
none later, exactly one refresh begins, and the entry is removed with the third move. -/
theorem sync_not_lost (before later : List (ℕ × Event)) (c : ℕ) :
    let s := run syncStep before start
    let q := s.queues c
    let q' := (run syncStep later (syncStep (c, .call) s)).queues c
    let moves := taken c later (syncStep (c, .call) s)
    q.workers.length ≤ 1 ∧ (q.pending = none ↔ q.workers = []) ∧
      (2 ≤ moves.count (.work 0) → q.refreshes < q'.refreshes) ∧
      ∀ k works, moves = List.replicate k .call ++ works → .call ∉ works →
        3 ≤ works.count (.work 0) → q' = ⟨none, [], q.refreshes + 1⟩ := by
  intro s q q' moves
  obtain ⟨p, n, hq, -⟩ := run_queue (taken c before start) idle 0
  replace hq : q = p.queue n := (queue_run c before start).trans hq
  have hcall : (syncStep (c, .call) s).queues c = p.called.queue n := by
    rw [← step_call, ← hq]
    simp [syncStep, blocked, q]
  have hq' : q' = run step moves (p.called.queue n) := by rw [← hcall, ← queue_run]
  have hn : (p.queue n).refreshes = n := by cases p <;> rfl
  obtain ⟨hleft, hdue, -⟩ := left_called p
  rw [hq', hq, hn]
  refine ⟨by cases p <;> simp [Phase.queue], by cases p <;> simp [Phase.queue], fun h => ?_, ?_⟩
  · exact run_begins moves p.called n hdue (by omega)
  · intro k works hmv hcs hct
    rw [hmv, run_append, run_calls k _ _ hdue, run_work works _ _ hcs (by omega), hdue]
    rfl

/-- Two channels refresh without end, and a third one waits. -/
def Starved (s : Sync) : Prop :=
  (∃ n, s.queues 1 = (refreshing false).queue n) ∧ (∃ n, s.queues 2 = (refreshing false).queue n) ∧
    s.queues 3 = waiting.queue 0 ∧ s.free = 0

/-- Each of the two channels is called during its refresh; every worker gets its turn. -/
def crowdedRound : List (ℕ × Event) :=
  [(1, .call), (1, .work 0), (1, .work 0), (2, .call), (2, .work 0), (2, .work 0), (3, .work 0)]

theorem starved_round {s : Sync} (h : Starved s) : Starved (run syncStep crowdedRound s) := by
  obtain ⟨⟨n₁, h₁⟩, ⟨n₂, h₂⟩, h₃, hfree⟩ := h
  refine ⟨⟨n₁ + 1, ?_⟩, ⟨n₂ + 1, ?_⟩, ?_, ?_⟩ <;>
    simp [crowdedRound, syncStep, blocked, step, slotsAfter, Phase.queue, h₁, h₂, h₃, hfree]

/-- A refresh of the third channel never begins, however many rounds go by. -/
theorem third_channel_starves :
    let s := run syncStep [(1, .call), (1, .work 0), (1, .work 0), (2, .call), (2, .work 0),
      (2, .work 0), (3, .call)] start
    ¬∃ n, 0 < (((run syncStep crowdedRound)^[n] s).queues 3).refreshes := by
  rintro s ⟨n, h⟩
  have hs : Starved s := ⟨⟨1, rfl⟩, ⟨1, rfl⟩, rfl, rfl⟩
  rw [(Function.Iterate.rec Starved hs (fun _ => starved_round) n).2.2.1] at h
  exact absurd h (by decide)

/-- No slot is lost, and no more than two workers run at once. -/
theorem slots_conserved (channels : Finset ℕ) (events : List (ℕ × Event))
    (h : ∀ e ∈ events, e.1 ∈ channels) :
    let s := run syncStep events start
    ∑ c ∈ channels, running (s.queues c) + s.free = 2 := by
  induction events using List.reverseRecOn with
  | nil => simp [start, running]
  | append_singleton events e ih =>
    have hused := ih fun e he => h e (List.mem_append_left _ he)
    have hmem : e.1 ∈ channels := h e (by simp)
    obtain ⟨p, n, hq, -⟩ := run_queue (taken e.1 events start) idle 0
    replace hq := (queue_run e.1 events start).trans hq
    rw [run_append, run_cons, run_nil]
    generalize run syncStep events start = s at hused hq ⊢
    unfold syncStep
    split_ifs with hblk
    · exact hused
    -- a worker begins to run with the slot it acquires, and ends with the one it releases
    have hslots : running (step e.2 (s.queues e.1)) + slotsAfter e.2 (s.queues e.1) s.free =
        running (s.queues e.1) + s.free := by
      rcases e with ⟨c, _ | _ | k⟩ <;> rcases p with _ | _ | _ | (_ | _) <;>
        simp [hq, blocked, running, step, slotsAfter, Phase.queue] at hblk ⊢ <;> omega
    have hrest : ∀ c ∈ channels.erase e.1, running (Function.update s.queues e.1
        (step e.2 (s.queues e.1)) c) = running (s.queues c) := fun c hc => by
      rw [Function.update_of_ne (Finset.ne_of_mem_erase hc)]
    dsimp only at hused ⊢
    rw [← Finset.add_sum_erase _ _ hmem] at hused ⊢
    rw [Finset.sum_congr rfl hrest, Function.update_self]
    omega

theorem slots_conserved_sample :
    let s := run syncStep [(1, .call), (1, .work 0), (2, .call)] start
    ∑ c ∈ {1, 2}, running (s.queues c) + s.free = 2 :=
  slots_conserved {1, 2} _ (by decide)

end NewApi.CapabilitySync
