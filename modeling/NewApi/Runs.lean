import Mathlib.Tactic

/-!
# Runs of a machine

A machine takes one step for each input. A run is the list of its inputs, so a
statement about every list covers every interleaving of the steps. `Along` says that
each step of a run met a condition in the state where it was taken, and `total` adds
up an amount over the steps.
-/
namespace NewApi

variable {σ ι : Type}

/-- The state after the inputs, in order. -/
def run (step : ι → σ → σ) : List ι → σ → σ
  | [], s => s
  | i :: is, s => run step is (step i s)

/-- Every step of the run met `ok` in the state where it was taken. -/
def Along (step : ι → σ → σ) (ok : ι → σ → Prop) : List ι → σ → Prop
  | [], _ => True
  | i :: is, s => ok i s ∧ Along step ok is (step i s)

instance Along.decidable (step : ι → σ → σ) (ok : ι → σ → Prop)
    [∀ i s, Decidable (ok i s)] : ∀ is s, Decidable (Along step ok is s)
  | [], _ => .isTrue trivial
  | i :: is, s =>
    have := Along.decidable step ok is (step i s)
    inferInstanceAs (Decidable (ok i s ∧ Along step ok is (step i s)))

/-- The amounts of the steps of the run, added up. -/
def total (step : ι → σ → σ) (amount : ι → σ → ℤ) : List ι → σ → ℤ
  | [], _ => 0
  | i :: is, s => amount i s + total step amount is (step i s)

/-- The value that the last step of the run to set one has set, or the one before the run. -/
def lastSet {α : Type} (step : ι → σ → σ) (sets : ι → σ → Option α) : List ι → σ → α → α
  | [], _, a => a
  | i :: is, s, a => lastSet step sets is (step i s) ((sets i s).getD a)

variable {step : ι → σ → σ} {ok : ι → σ → Prop} {I : σ → Prop}

@[simp] theorem run_nil (s : σ) : run step [] s = s := rfl

@[simp] theorem run_cons (i : ι) (is : List ι) (s : σ) :
    run step (i :: is) s = run step is (step i s) := rfl

/-- A run in two parts. -/
theorem run_append (is js : List ι) (s : σ) :
    run step (is ++ js) s = run step js (run step is s) := by
  induction is generalizing s with
  | nil => rfl
  | cons i is ih => exact ih (step i s)

variable {s : σ} {is : List ι} {ok' : ι → σ → Prop}

theorem along_append {js : List ι} : Along step ok (is ++ js) s ↔
      Along step ok is s ∧ Along step ok js (run step is s) := by
  induction is generalizing s with
  | nil => simp [Along]
  | cons i is ih => simp [Along, ih, and_assoc]

theorem run_take_succ {n : ℕ} {i : ι} (h : is[n]? = some i) (s : σ) :
    run step (is.take (n + 1)) s = step i (run step (is.take n) s) := by
  rw [List.take_add_one, h, run_append]
  rfl

theorem along_and_iff : Along step (fun i s => ok i s ∧ ok' i s) is s ↔
      Along step ok is s ∧ Along step ok' is s := by
  induction is generalizing s with
  | nil => simp [Along]
  | cons i is ih =>
    simp only [Along, ih]
    tauto

theorem Along.and (h : Along step ok is s) (h' : Along step ok' is s) :
    Along step (fun i s => ok i s ∧ ok' i s) is s :=
  along_and_iff.mpr ⟨h, h'⟩

theorem along_forall_iff {κ : Type} {ok : κ → ι → σ → Prop} :
    Along step (fun i s => ∀ k, ok k i s) is s ↔ ∀ k, Along step (ok k) is s := by
  induction is generalizing s with
  | nil => simp [Along]
  | cons i is ih => simp only [Along, ih, forall_and]

theorem Along.imp (h : Along step ok is s) (himp : ∀ i s, ok i s → ok' i s) :
    Along step ok' is s := by
  induction is generalizing s with
  | nil => trivial
  | cons i is ih => exact ⟨himp i s h.1, ih h.2⟩

theorem along_congr (h : ∀ i s, ok i s ↔ ok' i s) : Along step ok is s ↔ Along step ok' is s := by
  induction is generalizing s with
  | nil => exact Iff.rfl
  | cons i is ih => exact and_congr (h i s) ih

section
variable (hstep : ∀ i s, ok i s → I s → I (step i s))
include hstep

/-- A property that every admitted step keeps holds after every admitted run. -/
theorem run_invariant (hok : Along step ok is s) (hs : I s) : I (run step is s) := by
  induction is generalizing s with
  | nil => exact hs
  | cons i is ih => exact ih hok.2 (hstep i s hok.1 hs)

/-- A property that every admitted step keeps holds at every point of an admitted run. -/
theorem run_invariant_along (hok : Along step ok is s)
    (hs : I s) : ∀ js, js <+: is → I (run step js s) := by
  rintro js ⟨ks, rfl⟩
  exact run_invariant hstep (along_append.mp hok).1 hs

/-- Every step of an admitted run is taken in a state with the property. -/
theorem Along.and_invariant (hok : Along step ok is s)
    (hs : I s) : Along step (fun i s => ok i s ∧ I s) is s := by
  induction is generalizing s with
  | nil => trivial
  | cons i is ih => exact ⟨⟨hok.1, hs⟩, ih hok.2 (hstep i s hok.1 hs)⟩

end

/-- A property that every step keeps holds after every run. -/
theorem run_invariant_always (hstep : ∀ i s, I s → I (step i s)) (is : List ι) (hs : I s) :
    I (run step is s) := by
  induction is generalizing s with
  | nil => exact hs
  | cons i is ih => exact ih (hstep i s hs)

/-- A property that the steps on some inputs keep holds after every run on such inputs. -/
theorem run_invariant_of_forall {P : ι → Prop} (hstep : ∀ i s, P i → I s → I (step i s))
    (his : ∀ i ∈ is, P i) (hs : I s) : I (run step is s) := by
  induction is generalizing s with
  | nil => exact hs
  | cons i is ih =>
    have hnext := hstep i s (his i List.mem_cons_self) hs
    exact ih (fun j hj => his j (List.mem_cons_of_mem i hj)) hnext

/-- If a step on such an input brings every state with the property closer to the goal, a run on
such inputs gets there. -/
theorem exists_run_of_measure {P : ι → Prop} (goal : σ → Prop) (μ : σ → ℕ)
    (hstep : ∀ s, I s → ¬goal s → ∃ i, P i ∧ I (step i s) ∧ μ (step i s) < μ s) (hs : I s) :
    ∃ is, (∀ i ∈ is, P i) ∧ goal (run step is s) := by
  induction hn : μ s using Nat.strong_induction_on generalizing s with
  | h n ih =>
    by_cases hgoal : goal s
    · exact ⟨[], by simp, hgoal⟩
    obtain ⟨i, hi, hnext, hlt⟩ := hstep s hs hgoal
    obtain ⟨is, his, hrun⟩ := ih _ (hn ▸ hlt) hnext rfl
    refine ⟨i :: is, ?_, hrun⟩
    intro j hj
    cases List.mem_cons.mp hj with
    | inl heq => rw [heq]; exact hi
    | inr hj => exact his j hj

/-- If exactly the admitted steps keep a property, it holds all along a run iff every step of
the run is admitted. -/
theorem invariant_iff_along (hstep : ∀ i s, I s → (I (step i s) ↔ ok i s)) (is : List ι)
    (hs : I s) : (∀ js, js <+: is → I (run step js s)) ↔ Along step ok is s := by
  induction is generalizing s with
  | nil =>
    simp only [List.prefix_nil, Along, iff_true]
    rintro js rfl
    exact hs
  | cons i is ih =>
    constructor
    · intro h
      have hnext : I (step i s) := h [i] (by simp)
      refine ⟨(hstep i s hs).mp hnext, (ih hnext).mp ?_⟩
      intro js hjs
      exact h (i :: js) (by simpa using hjs)
    · rintro ⟨hi, hrest⟩ js hjs
      have hnext : I (step i s) := (hstep i s hs).mpr hi
      cases js with
      | nil => exact hs
      | cons j js =>
        obtain ⟨rfl, htail⟩ := List.cons_prefix_cons.mp hjs
        exact (ih hnext).mpr hrest js htail

variable {amount : ι → σ → ℤ}

/-- A quantity that each step moves by its amount moves by the total over a run. -/
theorem run_total {q : σ → ℤ} (hinv : ∀ i s, I s → I (step i s))
    (hstep : ∀ i s, I s → q (step i s) = q s + amount i s) (is : List ι) (hs : I s) :
    q (run step is s) = q s + total step amount is s := by
  induction is generalizing s with
  | nil => simp [total]
  | cons i is ih =>
    have hrest := ih (hinv i s hs)
    rw [run_cons, hrest, hstep i s hs, total]
    ring

/-- A quantity is all along a run what it was plus the amounts so far iff each step moves it by
its amount. -/
theorem total_iff_along (step : ι → σ → σ) (q : σ → ℤ) (amount : ι → σ → ℤ) (is : List ι) (s : σ) :
    (∀ js, js <+: is → q (run step js s) = q s + total step amount js s) ↔
      Along step (fun i s => q (step i s) = q s + amount i s) is s := by
  induction is generalizing s with
  | nil => simp [Along, total]
  | cons i is ih =>
    rw [Along, ← ih (step i s)]
    constructor
    · intro h
      have hhead : q (step i s) = q s + amount i s := by
        simpa [total] using h [i] (by simp)
      refine ⟨hhead, fun js hjs => ?_⟩
      have hjs' := h (i :: js) (by simpa using hjs)
      rw [run_cons, total] at hjs'
      omega
    · rintro ⟨hhead, htail⟩ js hjs
      cases js with
      | nil => simp [total]
      | cons j js =>
        obtain ⟨rfl, hjs'⟩ := List.cons_prefix_cons.mp hjs
        have hrest := htail js hjs'
        rw [run_cons, total]
        omega

/-- A value is all along a run the one set last iff each step leaves what it sets, or what was
there if it sets none. -/
theorem lastSet_iff_along {α : Type} (step : ι → σ → σ) (v : σ → α) (sets : ι → σ → Option α)
    (is : List ι) (s : σ) : (∀ js, js <+: is → v (run step js s) = lastSet step sets js s (v s)) ↔
      Along step (fun i s => v (step i s) = (sets i s).getD (v s)) is s := by
  induction is generalizing s with
  | nil => simp [Along, lastSet]
  | cons i is ih =>
    rw [Along, ← ih (step i s)]
    constructor
    · intro h
      have hhead : v (step i s) = (sets i s).getD (v s) := by
        simpa [lastSet] using h [i] (by simp)
      refine ⟨hhead, fun js hjs => ?_⟩
      rw [hhead]
      exact h (i :: js) (by simpa using hjs)
    · rintro ⟨hhead, htail⟩ js hjs
      cases js with
      | nil => rfl
      | cons j js =>
        obtain ⟨rfl, hjs'⟩ := List.cons_prefix_cons.mp hjs
        rw [run_cons, lastSet, ← hhead]
        exact htail js hjs'

/-- A quantity that each admitted step raises by at least its amount bounds the total. -/
theorem run_total_le {q : σ → ℤ}
    (hstep : ∀ i s, ok i s → amount i s + q s ≤ q (step i s)) (hok : Along step ok is s) :
    total step amount is s + q s ≤ q (run step is s) := by
  induction is generalizing s with
  | nil => simp [total]
  | cons i is ih =>
    have hhead := hstep i s hok.1
    have htail := ih hok.2
    rw [run_cons, total]
    omega

end NewApi
