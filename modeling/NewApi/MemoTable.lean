import NewApi.KeyedTable
import NewApi.Runs

/-!
# A memo table with shared entries

Each item keeps the value that it was loaded with. A value that is computed is also stored under
the item's key, and an item whose key has a value takes it without a computation. A failed
computation is not stored.
-/
namespace NewApi

structure Memo (I K V : Type) where
  own : Table I V
  shared : Table K V

namespace Memo
variable {I K V E : Type}

def empty : Memo I K V := ⟨.empty, .empty⟩

section
variable (key : I → K) (compute : I → Except E V)

/-- The values are computed from items with the right key. -/
structure Sound (m : Memo I K V) : Prop where
  own : ∀ i v, m.own i = some v → ∃ j, key i = key j ∧ compute j = .ok v
  shared : ∀ k v, m.shared k = some v → ∃ j, k = key j ∧ compute j = .ok v

variable [DecidableEq I] [DecidableEq K]

def load (i : I) (m : Memo I K V) : Except E V × Memo I K V :=
  match m.own i with
  | some v => (.ok v, m)
  | none =>
    match m.shared (key i) with
    | some v => (.ok v, { m with own := m.own.put i v })
    | none =>
      match compute i with
      | .error e => (.error e, m)
      | .ok v => (.ok v, ⟨m.own.put i v, m.shared.put (key i) v⟩)

/-- The table after items have been loaded, in order. -/
def loaded (is : List I) : Memo I K V := run (fun i m => (load key compute i m).2) is empty

end

variable {key : I → K} {compute : I → Except E V} {m : Memo I K V}

theorem sound_empty : Sound key compute (empty : Memo I K V) := ⟨nofun, nofun⟩

theorem Sound.put_own [DecidableEq I] (h : Sound key compute m) {i j : I} {v : V}
    (hkey : key i = key j) (hv : compute j = .ok v) :
    Sound key compute { m with own := m.own.put i v } := by
  refine ⟨fun i' v' hv' => ?_, h.shared⟩
  change m.own.put i v i' = some v' at hv'
  rw [Table.put_apply] at hv'
  split_ifs at hv' with hi
  · cases hv'
    exact ⟨j, hi ▸ hkey, hv⟩
  · exact h.own i' v' hv'

theorem Sound.put_shared [DecidableEq K] (h : Sound key compute m) {j : I} {v : V}
    (hv : compute j = .ok v) : Sound key compute { m with shared := m.shared.put (key j) v } := by
  refine ⟨h.own, fun k v' hv' => ?_⟩
  change m.shared.put (key j) v k = some v' at hv'
  rw [Table.put_apply] at hv'
  split_ifs at hv' with hk
  · cases hv'
    exact ⟨j, hk, hv⟩
  · exact h.shared k v' hv'

variable [DecidableEq I] [DecidableEq K]

/-- A load keeps the table sound, and what it returns is the value of an item of this key. -/
theorem Sound.load (h : Sound key compute m) (i : I) : Sound key compute (load key compute i m).2 ∧
      ∀ v, (Memo.load key compute i m).1 = .ok v → ∃ j, key i = key j ∧ compute j = .ok v := by
  unfold Memo.load
  cases hown : m.own i with
  | some v =>
    refine ⟨h, fun v' hv' => ?_⟩
    cases hv'
    exact h.own i v hown
  | none =>
    cases hshared : m.shared (key i) with
    | some v =>
      obtain ⟨j, hkey, hv⟩ := h.shared (key i) v hshared
      refine ⟨h.put_own hkey hv, fun v' hv' => ?_⟩
      cases hv'
      exact ⟨j, hkey, hv⟩
    | none =>
      cases hcomp : compute i with
      | error e => exact ⟨h, nofun⟩
      | ok v =>
        refine ⟨(h.put_shared hcomp).put_own rfl hcomp, fun v' hv' => ?_⟩
        cases hv'
        exact ⟨i, rfl, hcomp⟩

theorem sound_loaded (is : List I) : Sound key compute (loaded key compute is) := by
  exact run_invariant_always (I := Sound key compute) (fun i _ h => (Sound.load h i).1) is sound_empty

/-- Another item of the key gets the value that was computed first. -/
theorem load_after {i j : I} {v : V} (hkey : key i = key j) (hv : compute j = .ok v) :
    (load key compute i (loaded key compute [j])).1 = .ok v := by
  have hloaded : loaded key compute [j] = ⟨Table.empty.put j v, Table.empty.put (key j) v⟩ := by
    simp [loaded, load, empty, Table.empty, hv]
  by_cases hij : i = j
  · simp [hloaded, load, hij]
  · simp [hloaded, load, Table.put_of_ne _ _ hij, Table.empty, hkey]

/-- Whatever has been loaded before, items get values that satisfy `P`, iff the values of all
items of the same key do. -/
theorem faithful_iff (key : I → K) (compute : I → Except E V) (P : I → V → Prop) :
    (∀ is i v, (load key compute i (loaded key compute is)).1 = .ok v → P i v) ↔
      ∀ i j v, key i = key j → compute j = .ok v → P i v := by
  constructor
  · intro h i j v hkey hv
    exact h [j] i v (load_after hkey hv)
  · intro h is i v hload
    obtain ⟨j, hkey, hv⟩ := ((sound_loaded is).load i).2 v hload
    exact h i j v hkey hv

end Memo

end NewApi
