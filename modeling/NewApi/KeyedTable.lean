import Mathlib.Data.List.AList
import NewApi.AtomicTransaction

/-!
# Keyed tables and conditional updates

A table maps a primary key to at most one row. `updateWhere` is the conditional
single-row update of a relational store: it rewrites the row under a key when the
row meets the condition, and reports how many rows it rewrote. Compare-and-set
protocols branch on that count.
-/
namespace NewApi

/-- Rows under their primary key. -/
def Table (K R : Type) : Type := K → Option R

namespace Table
variable {K R : Type} [DecidableEq K]

def empty : Table K R := fun _ => none

/-- Insert or overwrite the row under `k`. -/
def put (t : Table K R) (k : K) (r : R) : Table K R :=
  fun j => if j = k then some r else t j

def remove (t : Table K R) (k : K) : Table K R := fun j => if j = k then none else t j

/-- Rewrite the row under `k`, if there is one. -/
def modify (t : Table K R) (k : K) (f : R → R) : Table K R :=
  fun j => if j = k then (t k).map f else t j

/-- Rewrite the row under `k` when it satisfies `p`; the count of rewritten rows. -/
def updateWhere (t : Table K R) (k : K) (p : R → Bool) (f : R → R) : Table K R × ℕ :=
  match t k with
  | some r => if p r then (t.modify k f, 1) else (t, 0)
  | none => (t, 0)

variable {j : K} (t : Table K R) (k : K) (f : R → R)

@[simp] theorem put_self (r : R) : t.put k r k = some r := by
  simp [put]

theorem put_of_ne {k : K} (r : R) (h : j ≠ k) : t.put k r j = t j := by
  simp [put, h]

theorem remove_put {t : Table K R} {k : K} (h : t k = none) (r : R) : (t.put k r).remove k = t := by
  funext j
  by_cases hj : j = k
  · subst hj
    simp [remove, h]
  · simp [remove, hj, put_of_ne t r hj]

theorem remove_apply (j : K) : t.remove k j = if j = k then none else t j := rfl

theorem put_apply (j : K) (r : R) : t.put k r j = if j = k then some r else t j := rfl

@[simp] theorem modify_self : t.modify k f k = (t k).map f := by simp [modify]

theorem modify_of_ne {k : K} (h : j ≠ k) : t.modify k f j = t j := by simp [modify, h]

theorem modify_apply (j : K) (f : R → R) :
    t.modify k f j = if j = k then (t k).map f else t j := rfl

theorem exists_modify {t : Table K R} (h : ∃ r, t j = some r) (k : K) (f : R → R) :
    ∃ r, t.modify k f j = some r := by
  obtain ⟨r, hr⟩ := h
  by_cases hj : j = k
  · subst hj
    exact ⟨f r, by simp [hr]⟩
  · exact ⟨r, by rw [modify_of_ne t f hj, hr]⟩

theorem exists_modify_iff {t : Table K R} {k : K} {f : R → R} :
    (∃ r, t.modify k f k = some r) ↔ ∃ r, t k = some r := by
  simp

theorem put_eq_modify {t : Table K R} {k : K} {r : R} (h : t k = some r) (f : R → R) :
    t.put k (f r) = t.modify k f := by
  funext j
  by_cases hj : j = k
  · subst hj
    simp [h]
  · rw [put_of_ne t _ hj, modify_of_ne t f hj]

theorem modify_modify (g : R → R) : (t.modify k f).modify k g = t.modify k (fun r => g (f r)) := by
  funext j
  by_cases h : j = k
  · subst h
    simp [Function.comp_def]
  · simp [modify_of_ne _ _ h]

theorem modify_id {f : R → R} (hf : ∀ r, t k = some r → f r = r) : t.modify k f = t := by
  funext j
  by_cases h : j = k
  · subst h
    cases hr : t j with
    | none => simp [hr]
    | some r => simp [hr, hf r hr]
  · exact modify_of_ne t f h

theorem updateWhere_of_match {t : Table K R} {k : K} {p : R → Bool} {r : R} (h : t k = some r)
    (hp : p r = true) (f : R → R) : t.updateWhere k p f = (t.modify k f, 1) := by
  simp [updateWhere, h, hp]

/-- An amount of the rows, zero where there is none, after one row moved by `d`. -/
theorem elim_modify {t : Table K R} {k : K} {f : R → R} {q : R → ℤ} {d : ℤ}
    (hf : ∀ r, q (f r) = q r + d) (hrow : j = k → d = 0 ∨ ∃ r, t k = some r) :
    (t.modify k f j).elim 0 q = (t j).elim 0 q + if j = k then d else 0 := by
  by_cases hj : j = k
  · subst hj
    rcases hrow rfl with rfl | ⟨r, hr⟩
    · cases hr : t j <;> simp [hr, hf]
    · simp [hr, hf]
  · simp [modify_of_ne _ _ hj, hj]

theorem updateWhere_of_no_match {t : Table K R} {k : K} {p : R → Bool}
    (h : ∀ r, t k = some r → p r = false) (f : R → R) : t.updateWhere k p f = (t, 0) := by
  unfold updateWhere
  cases hr : t k with
  | none => rfl
  | some r => simp [h r hr]

/-- One row was changed, or none. -/
theorem updateWhere_cases (p : R → Bool) (f : R → R) :
    (∃ r, t k = some r ∧ p r = true ∧ t.updateWhere k p f = (t.modify k f, 1)) ∨
      (∀ r, t k = some r → p r = false) ∧ t.updateWhere k p f = (t, 0) := by
  by_cases h : ∃ r, t k = some r ∧ p r = true
  · obtain ⟨r, hr, hp⟩ := h
    exact .inl ⟨r, hr, hp, updateWhere_of_match hr hp f⟩
  · have hnone : ∀ r, t k = some r → p r = false := by simpa using h
    exact .inr ⟨hnone, updateWhere_of_no_match hnone f⟩

/-- A conditional update rewrites the row under its key, or nothing. -/
theorem updateWhere_fst (p : R → Bool) (f : R → R) :
    (t.updateWhere k p f).1 = t ∨ (t.updateWhere k p f).1 = t.modify k f := by
  unfold updateWhere
  cases t k with
  | none => exact .inl rfl
  | some r => by_cases hp : p r = true <;> simp [hp]

/-- Every row of a table with numbered rows has a number below `n`. -/
def Below (t : Table ℤ R) (n : ℤ) : Prop := ∀ k r, t k = some r → k < n

section Below
variable {t : Table ℤ R} {n k : ℤ}

theorem Below.put (h : t.Below n) (hk : k < n) (r : R) : (t.put k r).Below n := by
  intro j r' hj
  by_cases hjk : j = k
  · rw [hjk]
    exact hk
  · rw [put_of_ne t r hjk] at hj
    exact h j r' hj

theorem Below.modify (h : t.Below n) (k : ℤ) (f : R → R) : (t.modify k f).Below n := by
  intro j r' hj
  by_cases hjk : j = k
  · rw [hjk, modify_self] at hj
    obtain ⟨r, hr, -⟩ := Option.map_eq_some_iff.mp hj
    rw [hjk]
    exact h k r hr
  · rw [modify_of_ne t f hjk] at hj
    exact h j r' hj

theorem Below.mono {m : ℤ} (h : t.Below n) (hnm : n ≤ m) : t.Below m :=
  fun j r hj => (h j r hj).trans_le hnm

end Below

end Table

/-- Where a table sits in a larger store. -/
structure TableIn (σ K R : Type) where
  get : σ → Table K R
  set : Table K R → σ → σ
  set_get : ∀ s, set (get s) s = s

namespace TableIn
variable {σ ε K R : Type} [DecidableEq K]

/-- The conditional update as a statement of a transaction; the rows it rewrote. -/
def update (T : TableIn σ K R) (fails : Bool) (e : ε) (k : K) (p : R → Bool) (f : R → R) :
    Tx σ ε ℕ := do
  Tx.statement fails e
  let s ← Tx.read
  let r := (T.get s).updateWhere k p f
  Tx.modify (T.set r.1)
  return r.2

/-- The update must rewrite exactly one row, else the transaction throws `miss`. -/
def updateOne (T : TableIn σ K R) (fails : Bool) (e miss : ε) (k : K) (p : R → Bool)
    (f : R → R) : Tx σ ε Unit := do
  let rows ← T.update fails e k p f
  if rows = 1 then pure () else Tx.abort miss

variable {T : TableIn σ K R} {fails : Bool} {e miss : ε} {k : K} {p : R → Bool} {f : R → R}
  {s s' : σ}

theorem update_apply (T : TableIn σ K R) (e : ε) (k : K) (p : R → Bool) (f : R → R) (s : σ) :
    T.update false e k p f s =
      .ok (((T.get s).updateWhere k p f).2, T.set ((T.get s).updateWhere k p f).1 s) := rfl

theorem update_fails (T : TableIn σ K R) (e : ε) (k : K) (p : R → Bool) (f : R → R) (s : σ) :
    T.update true e k p f s = .error e := rfl

/-- What an update that returned did: one matching row was rewritten, or nothing. -/
theorem update_eq_ok {n : ℕ} : T.update fails e k p f s = .ok (n, s') ↔ fails = false ∧
        ((n = 1 ∧ (∃ r, T.get s k = some r ∧ p r = true) ∧ s' = T.set ((T.get s).modify k f) s) ∨
          (n = 0 ∧ (∀ r, T.get s k = some r → p r = false) ∧ s' = s)) := by
  cases fails with
  | true => simp [update_fails]
  | false =>
    rw [update_apply]
    unfold Table.updateWhere
    cases hr : T.get s k with
    | none => simp [T.set_get, @eq_comm _ s', @eq_comm _ n]
    | some r =>
      by_cases hp : p r = true <;> simp [hp, T.set_get, @eq_comm _ s', @eq_comm _ n]

/-- Exactly one row was rewritten: it was there and met the condition. -/
theorem updateOne_eq_ok {u : Unit} : T.updateOne fails e miss k p f s = .ok (u, s') ↔
      fails = false ∧ (∃ r, T.get s k = some r ∧ p r = true) ∧
        s' = T.set ((T.get s).modify k f) s := by
  unfold updateOne
  simp only [Tx.bind_eq_ok, update_eq_ok]
  constructor
  · rintro ⟨n, t, ⟨hf, ⟨rfl, hex, rfl⟩ | ⟨rfl, -, rfl⟩⟩, h⟩
    · cases h
      exact ⟨hf, hex, rfl⟩
    · simp at h
  · rintro ⟨hf, hex, rfl⟩
    exact ⟨1, _, ⟨hf, .inl ⟨rfl, hex, rfl⟩⟩, rfl⟩

end TableIn

/-- A finite map of pending amounts, as an association list without repeated keys. -/
abbrev PendingMap (K : Type) := AList (fun _ : K => ℤ)

namespace PendingMap
variable {K : Type} [DecidableEq K]

/-- The pending amount of `k`, zero when there is none. -/
def amount (m : PendingMap K) (k : K) : ℤ := (m.lookup k).getD 0

/-- Add `v` to the pending amount of `k`. -/
def add (m : PendingMap K) (k : K) (v : ℤ) : PendingMap K :=
  match m.lookup k with
  | none => m.insert k v
  | some old => m.insert k (old + v)

variable (m : PendingMap K) (k : K)

@[simp] theorem amount_empty : amount (∅ : PendingMap K) k = 0 := rfl

@[simp] theorem amount_erase_self : amount (m.erase k) k = 0 := by
  simp [amount]

theorem amount_erase (j : K) : amount (m.erase k) j = if j = k then 0 else amount m j := by
  by_cases h : j = k
  · subst h; simp
  · simp [amount, AList.lookup_erase_ne h, h]

theorem amount_add (j : K) (v : ℤ) :
    amount (m.add k v) j = amount m j + if j = k then v else 0 := by
  unfold add
  by_cases h : j = k
  · subst h
    cases hl : m.lookup j <;> simp [amount, hl]
  · cases hl : m.lookup k <;> simp [amount, AList.lookup_insert_ne h, h]

/-- The amounts listed under `k`, in a list of entries. -/
def listed (k : K) (entries : List (Sigma fun _ : K => ℤ)) : ℤ :=
  (entries.map fun e => if e.1 = k then e.2 else 0).sum

@[simp] theorem listed_nil : listed k [] = 0 := rfl

@[simp] theorem listed_cons (e : Sigma fun _ : K => ℤ) (es : List (Sigma fun _ : K => ℤ)) :
    listed k (e :: es) = (if e.1 = k then e.2 else 0) + listed k es := by
  simp [listed]

theorem listed_perm {k : K} {es fs : List (Sigma fun _ : K => ℤ)} (h : es.Perm fs) :
    listed k es = listed k fs :=
  (h.map _).sum_eq

lemma listed_of_notMem {k : K} {es : List (Sigma fun _ : K => ℤ)} (h : k ∉ es.keys) :
    listed k es = 0 := by
  induction es with
  | nil => rfl
  | cons e es ih =>
    simp only [List.keys_cons, List.mem_cons, not_or] at h
    simp [Ne.symm h.1, ih h.2]

/-- Without repeated keys, what is listed under a key is its pending amount. -/
theorem listed_entries : listed k m.entries = amount m k := by
  obtain ⟨es, hnd⟩ := m
  induction es with
  | nil => rfl
  | cons e es ih =>
    obtain ⟨j, v⟩ := e
    have hes : es.NodupKeys := (List.nodupKeys_cons.mp hnd).2
    have hj : j ∉ es.keys := (List.nodupKeys_cons.mp hnd).1
    have ih' := ih hes
    by_cases h : j = k
    · subst h
      simp [listed_of_notMem hj, amount, AList.lookup]
    · have hk : k ≠ j := Ne.symm h
      simp [listed_cons, if_neg h, ih', amount, AList.lookup, List.dlookup_cons_ne es ⟨j, v⟩ hk]

end PendingMap

end NewApi
