import Mathlib.Tactic

/-!
# Atomic transactions with injected faults

A transaction is a state-passing computation that may throw. `commit` runs one
against a store: a transaction that throws, or whose final commit is rejected,
leaves the store exactly as it found it. Faults are data: a plan says for every
numbered statement of the transaction whether the store rejects it, so a theorem
about every plan covers a failure at every point.
-/
namespace NewApi

/-- A transaction over stores `σ` that throws `ε` or returns `α`. -/
def Tx (σ ε α : Type) : Type := σ → Except ε (α × σ)

namespace Tx
variable {σ ε α β : Type}

def ret (a : α) : Tx σ ε α := fun s => .ok (a, s)

def andThen (x : Tx σ ε α) (k : α → Tx σ ε β) : Tx σ ε β := fun s =>
  match x s with
  | .ok (a, s') => k a s'
  | .error e => .error e

instance : Monad (Tx σ ε) where
  pure := ret
  bind := andThen

def abort (e : ε) : Tx σ ε α := fun _ => .error e

def read : Tx σ ε σ := fun s => .ok (s, s)

def modify (f : σ → σ) : Tx σ ε Unit := fun s => .ok ((), f s)

/-- A statement the store rejects with `e` when `fails` is set. -/
def statement (fails : Bool) (e : ε) : Tx σ ε Unit :=
  if fails then abort e else ret ()

/-- The step `x`, taken only when `b` is set. -/
def onlyIf (b : Bool) (x : Tx σ ε Unit) : Tx σ ε Unit := if b then x else ret ()

variable (x : Tx σ ε Unit)

@[simp] theorem onlyIf_true : onlyIf true x = x := rfl

@[simp] theorem onlyIf_false : onlyIf false x = pure () := rfl

@[simp] theorem pure_apply (a : α) (s : σ) : (pure a : Tx σ ε α) s = .ok (a, s) := rfl

theorem pure_eq_ok {a b : α} {s s' : σ} :
    (pure a : Tx σ ε α) s = .ok (b, s') ↔ a = b ∧ s = s' := by
  simp

@[simp] theorem abort_apply (e : ε) (s : σ) : (abort e : Tx σ ε α) s = .error e := rfl

@[simp] theorem read_apply (s : σ) : (read : Tx σ ε σ) s = .ok (s, s) := rfl

@[simp] theorem modify_apply (f : σ → σ) (s : σ) : (modify f : Tx σ ε Unit) s = .ok ((), f s) := rfl

@[simp] theorem statement_true (e : ε) (s : σ) :
    (statement true e : Tx σ ε Unit) s = .error e := rfl

@[simp] theorem statement_false (e : ε) (s : σ) :
    (statement false e : Tx σ ε Unit) s = .ok ((), s) := rfl

theorem bind_apply (x : Tx σ ε α) (k : α → Tx σ ε β) (s : σ) : (x >>= k) s = match x s with
      | .ok (a, s') => k a s'
      | .error e => .error e := rfl

@[simp] theorem pure_bind_apply (a : α) (k : α → Tx σ ε β) (s : σ) :
    ((pure a : Tx σ ε α) >>= k) s = k a s := rfl

@[simp] theorem read_bind (k : σ → Tx σ ε β) (s : σ) : (read >>= k) s = k s s := rfl

@[simp] theorem modify_bind (f : σ → σ) (k : Unit → Tx σ ε β) (s : σ) :
    (modify f >>= k) s = k () (f s) := rfl

@[simp] theorem abort_bind (e : ε) (k : α → Tx σ ε β) (s : σ) : (abort e >>= k) s = .error e := rfl

/-- Inversion of sequencing: both halves returned. -/
theorem bind_eq_ok {x : Tx σ ε α} {k : α → Tx σ ε β} {s s' : σ} {b : β} :
    (x >>= k) s = .ok (b, s') ↔ ∃ a t, x s = .ok (a, t) ∧ k a t = .ok (b, s') := by
  rw [bind_apply]
  cases hx : x s with
  | error e => simp
  | ok r =>
    obtain ⟨a, t⟩ := r
    constructor
    · intro h
      exact ⟨a, t, rfl, h⟩
    · rintro ⟨a', t', he, h⟩
      cases he
      exact h

@[simp] theorem statement_eq_ok {fails : Bool} {e : ε} {s s' : σ} {u : Unit} :
    (statement fails e : Tx σ ε Unit) s = .ok (u, s') ↔ fails = false ∧ s' = s := by
  cases fails
  · simp [eq_comm]
  · simp

theorem statement_bind_eq_ok {fails : Bool} {e : ε} {k : Unit → Tx σ ε β} {s : σ} {r : β × σ} :
    (statement fails e >>= k) s = .ok r ↔ fails = false ∧ k () s = .ok r := by
  cases fails
  · simp [bind_apply]
  · simp [bind_apply]

end Tx

/-- Run a transaction. `rejected` makes the final commit fail with `e`. -/
def commit {σ ε α : Type} (rejected : Bool) (e : ε) (tx : Tx σ ε α) (s : σ) : Except ε α × σ :=
  match tx s with
  | .ok (a, s') => if rejected then (.error e, s) else (.ok a, s')
  | .error err => (.error err, s)

/-- Change the store once the commit has returned; after an error nothing changes. -/
def onCommit {σ ε α : Type} (f : σ → σ) : Except ε α × σ → Except ε α × σ
  | (.ok a, s) => (.ok a, f s)
  | (.error e, s) => (.error e, s)

/-- A step is atomic when every error it reports left the store as it was. -/
def Atomic {σ ε α : Type} (step : σ → Except ε α × σ) : Prop :=
  ∀ s e s', step s = (.error e, s') → s' = s

section Commit
variable {σ ε α : Type} {rejected : Bool} {e : ε} {tx : Tx σ ε α} {s : σ}

/-- A commit succeeds with the body's result. -/
theorem commit_eq_ok {a : α} {s' : σ} :
    commit rejected e tx s = (.ok a, s') ↔ rejected = false ∧ tx s = .ok (a, s') := by
  unfold commit
  cases h : tx s with
  | error err => simp
  | ok r =>
    obtain ⟨b, t⟩ := r
    cases rejected <;> simp

theorem onCommit_eq_ok {f : σ → σ} {r : Except ε α × σ} {a : α} {s' : σ} :
    onCommit f r = (.ok a, s') ↔ ∃ t, r = (.ok a, t) ∧ s' = f t := by
  obtain ⟨x, t⟩ := r
  cases x with
  | error err => simp [onCommit]
  | ok b => simp [onCommit, @eq_comm _ s']

/-- A transaction that fails changes nothing. -/
theorem atomic_commit (rejected : Bool) (e : ε) (tx : Tx σ ε α) :
    Atomic (commit rejected e tx) := by
  intro s err s' h
  unfold commit at h
  cases ht : tx s with
  | error er => simp_all
  | ok r =>
    obtain ⟨b, t⟩ := r
    cases rejected <;> simp_all

variable {step : σ → Except ε α × σ}

theorem Atomic.onCommit (h : Atomic step) (f : σ → σ) :
    Atomic fun s => onCommit f (step s) := by
  intro s err s' hs
  dsimp only at hs
  cases hr : step s with
  | mk x t =>
    rw [hr] at hs
    cases x with
    | ok a => simp [NewApi.onCommit] at hs
    | error er =>
      simp only [NewApi.onCommit, Prod.mk.injEq] at hs
      rw [← hs.2]
      exact h s er t hr

theorem atomic_return (r : Except ε α) : Atomic fun s : σ => (r, s) := by
  intro s err s' h
  cases h
  rfl

theorem Atomic.ite {p : Prop} [Decidable p] {f g : σ → Except ε α × σ} (hf : Atomic f)
    (hg : Atomic g) : Atomic fun s => if p then f s else g s := by
  intro s err s' h
  by_cases hp : p
  · exact hf s err s' (by simpa [hp] using h)
  · exact hg s err s' (by simpa [hp] using h)

theorem Atomic.cases (h : Atomic step) (s : σ) :
    (∃ a s', step s = (.ok a, s')) ∨ ∃ err, step s = (.error err, s) := by
  cases hr : step s with
  | mk x t =>
    cases x with
    | ok a => exact .inl ⟨a, t, rfl⟩
    | error er => exact .inr ⟨er, by rw [h s er t hr]⟩

end Commit

end NewApi
