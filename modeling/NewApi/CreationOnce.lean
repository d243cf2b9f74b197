import NewApi.CreationIdempotency

/-!
# Creation requests run at most once

What holds over all runs of the service: a slot (a token and a key) has at most one row, each
request that reached its handler has inserted one, and a completed row has the response that its
request was answered with.
-/
namespace NewApi.Creation

variable {ι : Type} [DecidableEq ι] (req : ι → CreationRequest)

/-- What a request is at next, where the rows stay as they are. -/
inductive Move (s : Service ι) (i : ι) : Phase → Prop where
  | checked : s.phase i = .arrived → Move s i (checked (req i))
  | taken : s.phase i = .reserving → (∃ e ∈ s.entries, e.slot = (req i).slot) → Move s i .selecting
  | unavailable : s.phase i = .reserving ∨ s.phase i = .selecting ∨ s.phase i = .waiting →
      Move s i (.failed unavailable)
  | selected : s.phase i = .selecting → Move s i (selected (req i) (s.lookup req i))
  | polled : s.phase i = .waiting → Move s i (polled (s.lookup req i))
  | timedOut : s.phase i = .waiting → Move s i (.failed inProgress)
  | handled {id : ℕ} (out : Output) : s.phase i = .handling id → Move s i (.completing id out)
  | panicked {id : ℕ} : s.phase i = .handling id → Move s i (.answered .panicked)
  | unrecorded {id : ℕ} {out : Output} : s.phase i = .completing id out →
      Move s i (.answered (.own out.response))

inductive Change (s : Service ι) (i : ι) : Service ι → Prop where
  | move {p : Phase} : Move req s i p → Change s i (s.setPhase i p)
  | reserve (now : ℕ) : s.phase i = .reserving → (¬∃ e ∈ s.entries, e.slot = (req i).slot) →
      Change s i (s.reserve req i now)
  | complete {id : ℕ} {out : Output} : s.phase i = .completing id out →
      Change s i (s.complete req i id out)

variable {p : Phase} {e : Entry} {j : ι} {k : Slot} (evs : List (Event ι)) (ev : Event ι)

/-- All that an event can do. -/
theorem step_cases (s : Service ι) :
    step req ev s = s ∨ (∃ i, ev.request = some i ∧ Change req s i (step req ev s)) ∨
      ∃ now, ev = .deleteExpired now ∧ step req ev s = s.deleteExpired now := by
  cases ev with
  | deleteExpired now => exact .inr (.inr ⟨now, rfl, rfl⟩)
  | check i =>
    simp only [step]
    split
    next h => exact .inr (.inl ⟨i, rfl, .move (.checked h)⟩)
    · exact .inl rfl
  | insert i now fails =>
    simp only [step]
    split
    next h =>
      refine .inr (.inl ⟨i, rfl, ?_⟩)
      split_ifs with hfails htk
      · exact .move (.unavailable (.inl h))
      · exact .move (.taken h htk)
      · exact .reserve now h htk
    · exact .inl rfl
  | select i fails =>
    simp only [step]
    split
    next h =>
      refine .inr (.inl ⟨i, rfl, .move ?_⟩)
      split_ifs with hfails
      · exact .unavailable (.inr (.inl h))
      · exact .selected h
    · exact .inl rfl
  | poll i fails =>
    simp only [step]
    split
    next h =>
      refine .inr (.inl ⟨i, rfl, .move ?_⟩)
      split_ifs with hfails
      · exact .unavailable (.inr (.inr h))
      · exact .polled h
    · exact .inl rfl
  | timeout i =>
    simp only [step]
    split
    next h => exact .inr (.inl ⟨i, rfl, .move (.timedOut h)⟩)
    · exact .inl rfl
  | handle i out =>
    simp only [step]
    split
    next out h => exact .inr (.inl ⟨i, rfl, .move (.handled out h)⟩)
    next h => exact .inr (.inl ⟨i, rfl, .move (.panicked h)⟩)
    · exact .inl rfl
  | complete i fails =>
    simp only [step]
    split
    next h =>
      refine .inr (.inl ⟨i, rfl, ?_⟩)
      split_ifs with hfails
      · exact .move (.unrecorded h)
      · exact .complete h
    · exact .inl rfl

variable {req} {s : Service ι} {i : ι}

def Phase.HasRow (p : Phase) (id : ℕ) : Prop := p = .handling id ∨ ∃ out, p = .completing id out

open Phase

/-- The request has a key and goes on to look at the rows. -/
def Phase.keyed : Phase → Bool
  | .reserving | .selecting | .waiting => true
  | _ => false

def turnedAway : List IdempotencyError := [invalidKey, invalidBody, unavailable, conflict]

/-- The request has a row of its own, or has seen one that is for the same request. -/
def Phase.admitted : Phase → Bool
  | .waiting | .handling _ | .completing _ _ => true
  | .answered (.failed e) => decide (e ∉ turnedAway)
  | .answered _ => true
  | _ => false

def Phase.served : Phase → Bool
  | .handling _ | .completing _ _ | .answered (.own _) | .answered .panicked => true
  | _ => false

theorem Phase.admitted_of_served (h : p.served = true) : p.admitted = true := by
  cases p with
  | answered a => cases a <;> simp_all [served, admitted]
  | _ => simp_all [served, admitted]

/-- A request is not guarded, reserves, or is turned away. -/
theorem checked_cases (r : CreationRequest) : checked r = .unguarded ∨
    (checked r = .reserving ∧ validKey r.key = true) ∨ ∃ e ∈ turnedAway, checked r = .failed e := by
  unfold checked
  split_ifs with hemp hkey hreadable
  · exact .inl rfl
  · exact .inr (.inr ⟨invalidKey, by simp [turnedAway], rfl⟩)
  · exact .inr (.inr ⟨invalidBody, by simp [turnedAway], rfl⟩)
  · exact .inr (.inl ⟨rfl, by simpa using hkey⟩)

/-- A row with another body turns the request away. -/
theorem selected_cases (r : CreationRequest) (row : Option Entry) :
    (∃ e ∈ turnedAway, selected r row = .failed e) ∨ ∃ e, row = some e ∧
      e.requestHash = r.requestHash ∧ (selected r row = .waiting ∨ ∃ a, selected r row = .answered a)
      := by
  cases row with
  | none => exact .inl ⟨unavailable, by simp [turnedAway], rfl⟩
  | some e =>
    by_cases hhash : e.requestHash = r.requestHash
    · refine .inr ⟨e, rfl, hhash, ?_⟩
      by_cases hst : e.status = .completed
      · exact .inr ⟨e.replay, by simp [selected, hhash, hst]⟩
      · exact .inl (by simp [selected, hhash, hst])
    · exact .inl ⟨conflict, by simp [turnedAway], by simp [selected, hhash]⟩

theorem polled_cases (row : Option Entry) : polled row = .waiting ∨ ∃ a, polled row = .answered a := by
  cases row with
  | none => exact .inr ⟨_, rfl⟩
  | some e =>
    by_cases hst : e.status = .completed
    · exact .inr ⟨e.replay, by simp [polled, hst]⟩
    · exact .inl (by simp [polled, hst])

theorem not_admitted_of_turnedAway {e : IdempotencyError} (h : e ∈ turnedAway) :
    (failed e).admitted = false := by
  simpa [failed, admitted] using h

namespace Move
omit [DecidableEq ι]

section
variable (h : Move req s i p)
include h

theorem not_answered (a : Answer) : s.phase i ≠ .answered a := by
  cases h with
  | unavailable h => rcases h with h | h | h <;> simp [h]
  | _ => simp_all

theorem hasRow {id : ℕ} (hp : p.HasRow id) : (s.phase i).HasRow id := by
  cases h with
  | checked h =>
    rcases checked_cases (req i) with h' | ⟨h', -⟩ | ⟨e, -, h'⟩ <;>
      simp [h', Phase.HasRow, failed] at hp
  | selected h =>
    rcases selected_cases (req i) (s.lookup req i) with ⟨e, -, h'⟩ | ⟨e, -, -, h' | ⟨a, h'⟩⟩ <;>
      simp [h', Phase.HasRow, failed] at hp
  | polled h =>
    rcases polled_cases (s.lookup req i) with h' | ⟨a, h'⟩ <;> simp [h', Phase.HasRow] at hp
  | handled out h =>
    rcases hp with hp | ⟨out', hp⟩
    · cases hp
    · cases hp
      exact .inl h
  | _ => simp [Phase.HasRow, failed] at hp

theorem keyed (hp : p.keyed = true) :
    (s.phase i).keyed = true ∨ validKey (req i).key = true := by
  cases h with
  | checked h =>
    rcases checked_cases (req i) with h' | ⟨-, h'⟩ | ⟨e, -, h'⟩
    · simp [h', keyed] at hp
    · exact .inr h'
    · simp [h', keyed, failed] at hp
  | taken h | selected h | polled h => exact .inl (by simp [h, keyed])
  | _ => simp [keyed, failed] at hp

theorem admitted (hp : p.admitted = true) : (s.phase i).admitted = true ∨
    ∃ e, s.phase i = .selecting ∧ s.lookup req i = some e ∧
      e.requestHash = (req i).requestHash := by
  cases h with
  | checked h =>
    rcases checked_cases (req i) with h' | ⟨h', -⟩ | ⟨e, he, h'⟩
    · simp [h', admitted] at hp
    · simp [h', admitted] at hp
    · simp [h', not_admitted_of_turnedAway he] at hp
  | taken h => simp [admitted] at hp
  | unavailable h =>
    have hnot : (failed Creation.unavailable).admitted = false :=
      not_admitted_of_turnedAway (by simp [turnedAway])
    simp [hnot] at hp
  | selected h =>
    rcases selected_cases (req i) (s.lookup req i) with ⟨e, he, h'⟩ | ⟨e, he, hhash, -⟩
    · simp [h', not_admitted_of_turnedAway he] at hp
    · exact .inr ⟨e, h, he, hhash⟩
  | polled h | timedOut h | handled out h | panicked h | unrecorded h =>
    exact .inl (by simp [h, admitted])

theorem served (hs : (s.phase i).served = true) : p.served = true := by
  cases h with
  | handled out h | panicked h | unrecorded h => rfl
  | unavailable h => rcases h with h | h | h <;> simp [h, served] at hs
  | _ => simp_all [served]

end

end Move

theorem key_ne_empty {key : String} (h : validKey key = true) : key ≠ "" := by
  rintro rfl
  simp [validKey] at h

section
omit [DecidableEq ι]

/-- With a token and a key, the row that is found is of the slot. -/
theorem lookup_eq_some (hkey : validKey (req i).key = true) {e : Entry}
    (h : s.lookup req i = some e) : e ∈ s.entries ∧ e.slot = (req i).slot := by
  have hmem := List.mem_of_find?_eq_some h
  have hmat := List.find?_some h
  have htok := (req i).authenticated
  have hne := key_ne_empty hkey
  simp only [hne, false_or, decide_eq_true_eq] at hmat
  refine ⟨hmem, ?_⟩
  rw [Entry.slot, CreationRequest.slot, hmat.1.resolve_left (by omega), hmat.2]

/-- A slot has one row at most: it is the one that is found. -/
theorem lookup_of_mem (hslots : (s.entries.map Entry.slot).Nodup)
    (hkey : validKey (req i).key = true) {e : Entry} (he : e ∈ s.entries)
    (hslot : e.slot = (req i).slot) : s.lookup req i = some e := by
  have hfnd : (s.lookup req i).isSome := by
    obtain ⟨htok, hkey'⟩ := Prod.mk.inj hslot
    rw [Service.lookup, getCreationIdempotency, List.find?_isSome]
    exact ⟨e, he, by simp [htok, hkey']⟩
  obtain ⟨e', he'⟩ := Option.isSome_iff_exists.mp hfnd
  obtain ⟨hmem, hslot'⟩ := lookup_eq_some hkey he'
  rw [he', List.inj_on_of_nodup_map hslots hmem he (hslot'.trans hslot.symm)]

end

/-- The row of the same reservation later on: once completed it does not change. -/
structure Entry.Follows (e e' : Entry) : Prop where
  id : e'.id = e.id
  slot : e'.slot = e.slot
  requestHash : e'.requestHash = e.requestHash
  completed : e.status = .completed → e' = e

theorem Entry.Follows.refl (e : Entry) : e.Follows e := ⟨rfl, rfl, rfl, fun _ => rfl⟩

theorem Entry.Follows.trans {e' e'' : Entry} (h : e.Follows e') (h' : e'.Follows e'') :
    e.Follows e'' where
  id := h'.id.trans h.id
  slot := h'.slot.trans h.slot
  requestHash := h'.requestHash.trans h.requestHash
  completed hcomp := by
    have heq := h.completed hcomp
    rw [h'.completed (heq ▸ hcomp), heq]

theorem Entry.follows_complete (e : Entry) (id : ℕ) (requestHash : String) (out : Output) :
    e.Follows (e.complete id requestHash out) := by
  unfold Entry.complete
  split_ifs with h
  · refine ⟨rfl, rfl, rfl, fun hcomp => ?_⟩
    rw [h.2.2] at hcomp
    cases hcomp
  · exact Follows.refl e

variable (req) in
/-- What holds of a request at a phase, with the rows and the requests that were handled. -/
structure RequestAt (entries : List Entry) (nextId : ℕ) (handled : List ι) (i : ι) (p : Phase) :
    Prop where
  keyed : p.keyed = true → validKey (req i).key = true
  rows : ∀ id, p.HasRow id → i ∈ handled ∧ id < nextId ∧
    ∀ e ∈ entries, e.id = id → e.slot = (req i).slot
  served : i ∈ handled → p.served = true

namespace RequestAt
omit [DecidableEq ι]
variable {entries : List Entry} {nextId : ℕ} {handled : List ι}

theorem move (h : RequestAt req entries nextId handled i (s.phase i)) (hmove : Move req s i p) :
    RequestAt req entries nextId handled i p where
  keyed hp := (hmove.keyed hp).elim h.keyed id
  rows id hp := h.rows id (hmove.hasRow hp)
  served hi := hmove.served (h.served hi)

/-- Rows that come from rows with the same id and slot. -/
theorem mono (h : RequestAt req entries nextId handled i p) {entries' : List Entry}
    (hentr : ∀ e' ∈ entries', ∃ e ∈ entries, e'.id = e.id ∧ e'.slot = e.slot) :
    RequestAt req entries' nextId handled i p where
  keyed := h.keyed
  rows id hp := by
    obtain ⟨hmem, hlt, hrows⟩ := h.rows id hp
    refine ⟨hmem, hlt, fun e' he' heq => ?_⟩
    obtain ⟨e, he, hid, hslot⟩ := hentr e' he'
    rw [hslot]
    exact hrows e he (hid ▸ heq)
  served := h.served

theorem other (h : RequestAt req entries nextId handled i p) {j : ι} (hij : i ≠ j) {e' : Entry}
    (hid : e'.id = nextId) : RequestAt req (entries ++ [e']) (nextId + 1) (handled ++ [j]) i p where
  keyed := h.keyed
  rows id hp := by
    obtain ⟨hmem, hlt, hrows⟩ := h.rows id hp
    refine ⟨List.mem_append_left _ hmem, Nat.lt_succ_of_lt hlt, fun e he heq => ?_⟩
    rcases List.mem_append.mp he with he | he
    · exact hrows e he heq
    · rw [List.mem_singleton.mp he] at heq
      omega
  served hi := by
    refine h.served ((List.mem_append.mp hi).resolve_right fun hmem => ?_)
    exact hij (List.mem_singleton.mp hmem)

end RequestAt

variable (req) in
/-- What holds in every state of the service. -/
structure Inv (s : Service ι) : Prop where
  slots : (s.entries.map Entry.slot).Nodup
  counts : ∀ k, s.handled.countP (fun i => (req i).slot = k) =
    s.released.countP (fun e => e.slot = k) + s.entries.countP (fun e => e.slot = k)
  ids : ∀ e ∈ s.entries, e.id < s.nextId
  validRows : ∀ e ∈ s.entries, validKey e.key = true
  requests : ∀ i, RequestAt req s.entries s.nextId s.handled i (s.phase i)
  /-- A completed row has the response that its request was answered with. -/
  recorded : ∀ e ∈ s.entries, e.status = .completed → ∃ (j : ι) (out : Output),
    j ∈ s.handled ∧ (req j).slot = e.slot ∧ (req j).requestHash = e.requestHash ∧
      s.phase j = .answered (.own out.response) ∧ e.replay = out.replay

omit [DecidableEq ι] in
theorem inv_start : Inv req (Service.start : Service ι) where
  slots := List.nodup_nil
  counts _ := rfl
  ids := nofun
  validRows := nofun
  requests i := ⟨nofun, fun id h => by simp [Service.start, Phase.HasRow] at h, nofun⟩
  recorded := nofun

section
variable (h : Inv req s)
include h

/-- The answers that were given stay, if only a request without an answer changes. -/
theorem Inv.recorded_update (hi : ∀ a, s.phase i ≠ .answered a) (he : e ∈ s.entries)
    (hcomp : e.status = .completed) :
    ∃ (j : ι) (out : Output), j ∈ s.handled ∧ (req j).slot = e.slot ∧
      (req j).requestHash = e.requestHash ∧
      Function.update s.phase i p j = .answered (.own out.response) ∧ e.replay = out.replay := by
  obtain ⟨j, out, hj, hslot, hhash, hph, hrpl⟩ := h.recorded e he hcomp
  have hne : j ≠ i := fun heq => hi _ (heq ▸ hph)
  exact ⟨j, out, hj, hslot, hhash, by rw [Function.update_of_ne hne, hph], hrpl⟩

theorem Inv.setPhase (hmove : Move req s i p) : Inv req (s.setPhase i p) :=
  { h with
    requests := (Function.forall_update_iff s.phase _).mpr
      ⟨(h.requests i).move hmove, fun j _ => h.requests j⟩
    recorded := fun _ he hcomp => h.recorded_update hmove.not_answered he hcomp }

theorem Inv.reserve (hi : s.phase i = .reserving)
    (hfree : ¬∃ e ∈ s.entries, e.slot = (req i).slot) (now : ℕ) :
    Inv req (s.reserve req i now) where
  slots := by
    have hslot : (newEntry (req i) s.nextId now).slot = (req i).slot := rfl
    rw [Service.reserve, List.map_append, List.map_singleton, hslot]
    have hnew : (req i).slot ∉ s.entries.map Entry.slot := by
      intro hmem
      obtain ⟨e, he, heq⟩ := List.mem_map.mp hmem
      exact hfree ⟨e, he, heq⟩
    rw [← List.concat_eq_append]
    exact h.slots.concat hnew
  counts k := by
    have hk := h.counts k
    simp only [Service.reserve, List.countP_append, List.countP_singleton]
    have hslot : (newEntry (req i) s.nextId now).slot = (req i).slot := rfl
    rw [hslot]
    omega
  ids e he := by
    rcases List.mem_append.mp he with he | he
    · have hlt := h.ids e he
      show e.id < s.nextId + 1
      omega
    · rw [List.mem_singleton.mp he]
      exact Nat.lt_succ_self s.nextId
  validRows e he := by
    rcases List.mem_append.mp he with he | he
    · exact h.validRows e he
    · rw [List.mem_singleton.mp he]
      exact (h.requests i).keyed (by rw [hi]; rfl)
  requests := by
    refine (Function.forall_update_iff s.phase _).mpr
      ⟨⟨nofun, fun id hid => ?_, fun _ => rfl⟩, fun j hji => (h.requests j).other hji rfl⟩
    have heq : id = s.nextId := by simpa [Phase.HasRow, eq_comm] using hid
    refine ⟨List.mem_append_right _ (List.mem_singleton_self i), ?_, fun e he hidEq => ?_⟩
    · rw [heq]
      exact Nat.lt_succ_self s.nextId
    · rcases List.mem_append.mp he with he | he
      · have hlt := h.ids e he
        omega
      · rw [List.mem_singleton.mp he]
        rfl
  recorded e he hcomp := by
    rcases List.mem_append.mp he with he | he
    · have hnot : ∀ a, s.phase i ≠ .answered a := by simp [hi]
      obtain ⟨j, out, hj, hrest⟩ := h.recorded_update hnot he hcomp
      exact ⟨j, out, List.mem_append_left _ hj, hrest⟩
    · rw [List.mem_singleton.mp he] at hcomp
      cases hcomp

theorem Inv.complete {id : ℕ} {out : Output} (hi : s.phase i = .completing id out) :
    Inv req (s.complete req i id out) where
  slots := by
    have hmap : (s.complete req i id out).entries.map Entry.slot = s.entries.map Entry.slot := by
      rw [Service.complete, List.map_map]
      exact List.map_congr_left fun e _ => (e.follows_complete id _ out).slot
    rw [hmap]
    exact h.slots
  counts k := by
    have hct : (s.complete req i id out).entries.countP (fun e => e.slot = k) =
        s.entries.countP (fun e => e.slot = k) := by
      rw [Service.complete, List.countP_map]
      refine List.countP_congr fun e _ => ?_
      rw [Function.comp_apply, (e.follows_complete id _ out).slot]
    rw [hct]
    exact h.counts k
  ids e' he' := by
    obtain ⟨e, he, rfl⟩ := List.mem_map.mp he'
    rw [(e.follows_complete id _ out).id]
    exact h.ids e he
  validRows e' he' := by
    obtain ⟨e, he, rfl⟩ := List.mem_map.mp he'
    rw [(Prod.mk.inj (e.follows_complete id _ out).slot).2]
    exact h.validRows e he
  requests := by
    refine (Function.forall_update_iff s.phase _).mpr
      ⟨⟨nofun, fun id' hid => ?_, fun _ => rfl⟩, fun j _ => (h.requests j).mono fun e' he' => ?_⟩
    · simp [Phase.HasRow] at hid
    · obtain ⟨e, he, rfl⟩ := List.mem_map.mp he'
      have hfol := e.follows_complete id (req i).requestHash out
      exact ⟨e, he, hfol.id, hfol.slot⟩
  recorded e' he' hcomp := by
    obtain ⟨e, he, rfl⟩ := List.mem_map.mp he'
    have hnot : ∀ a, s.phase i ≠ .answered a := by simp [hi]
    by_cases hup : e.id = id ∧ e.requestHash = (req i).requestHash ∧ e.status = .processing
    · -- the row of this request
      obtain ⟨hmem, -, hrows⟩ := (h.requests i).rows id (.inr ⟨out, hi⟩)
      refine ⟨i, out, hmem, ?_, ?_, ?_, ?_⟩
      · rw [(e.follows_complete id _ out).slot, hrows e he hup.1]
      · rw [(e.follows_complete id _ out).requestHash, hup.2.1]
      · rw [complete_phase, Function.update_self]
      · rw [Entry.complete, if_pos hup]
        rfl
    · rw [Entry.complete, if_neg hup] at hcomp ⊢
      exact h.recorded_update hnot he hcomp

omit [DecidableEq ι] in
theorem Inv.deleteExpired (now : ℕ) : Inv req (s.deleteExpired now) where
  slots := h.slots.sublist (List.filter_sublist.map _)
  counts k := by
    have hk := h.counts k
    have hspl := List.countP_eq_countP_filter_add s.entries (fun e => decide (e.slot = k))
      (fun e => decide (e.expiresAt < now))
    simp only [Service.deleteExpired, List.countP_append, decide_not]
    omega
  ids e he := h.ids e (List.mem_of_mem_filter he)
  validRows e he := h.validRows e (List.mem_of_mem_filter he)
  requests i := (h.requests i).mono fun e he => ⟨e, List.mem_of_mem_filter he, rfl, rfl⟩
  recorded e he := h.recorded e (List.mem_of_mem_filter he)

theorem Inv.change {s' : Service ι} (hch : Change req s i s') : Inv req s' := by
  cases hch with
  | move hmove => exact h.setPhase hmove
  | reserve now hi hfree => exact h.reserve hi hfree now
  | complete hi => exact h.complete hi

end

/-- One event keeps the invariant. -/
theorem inv_step (s : Service ι) (h : Inv req s) : Inv req (step req ev s) := by
  rcases step_cases req ev s with heq | ⟨i, -, hch⟩ | ⟨now, -, heq⟩
  · rwa [heq]
  · exact h.change hch
  · rw [heq]
    exact h.deleteExpired now

theorem inv_after : Inv req (after req evs) := run_invariant_always inv_step evs inv_start

variable (req) in
/-- An event keeps a row, perhaps completed, or releases it. -/
theorem row_step (s : Service ι) (he : e ∈ s.entries) :
    (∃ e' ∈ (step req ev s).entries, e.Follows e') ∨ e ∈ (step req ev s).released := by
  rcases step_cases req ev s with heq | ⟨i, -, hch⟩ | ⟨now, -, heq⟩
  · rw [heq]
    exact .inl ⟨e, he, .refl e⟩
  · generalize step req ev s = s' at hch
    cases hch with
    | move hmove => exact .inl ⟨e, he, .refl e⟩
    | reserve now hi hfree => exact .inl ⟨e, List.mem_append_left _ he, .refl e⟩
    | complete hi =>
      exact .inl ⟨_, List.mem_map_of_mem he, e.follows_complete _ (req i).requestHash _⟩
  · rw [heq]
    by_cases hexpi : e.expiresAt < now
    · exact .inr (List.mem_append_right _ (List.mem_filter.mpr ⟨he, by simpa using hexpi⟩))
    · exact .inl ⟨e, List.mem_filter.mpr ⟨he, by simpa using hexpi⟩, .refl e⟩

theorem released_step (s : Service ι) (he : e ∈ s.released) : e ∈ (step req ev s).released := by
  rcases step_cases req ev s with heq | ⟨i, -, hch⟩ | ⟨now, -, heq⟩
  · rwa [heq]
  · generalize step req ev s = s' at hch
    cases hch <;> exact he
  · rw [heq]
    exact List.mem_append_left _ he

variable (req) in
/-- A deleted row stays deleted. -/
theorem released_run (s : Service ι) (he : e ∈ s.released) :
    e ∈ (run (step req) evs s).released := by
  induction evs generalizing s with
  | nil => exact he
  | cons ev evs ih => exact ih _ (released_step ev s he)

/-- A row that is not released until the end of a run is there all along. -/
theorem row_run {evs rest : List (Event ι)} (he : e ∈ s.entries)
    (hkept : ∀ e' ∈ (run (step req) (evs ++ rest) s).released, e'.id ≠ e.id) :
    ∃ e' ∈ (run (step req) evs s).entries, e.Follows e' := by
  induction evs generalizing s e with
  | nil => exact ⟨e, he, .refl e⟩
  | cons ev evs ih =>
    rcases row_step req ev s he with ⟨e', he', hfol⟩ | hrel
    · have hkept' : ∀ e'' ∈ (run (step req) (evs ++ rest) (step req ev s)).released,
          e''.id ≠ e'.id := by
        intro e'' he''
        rw [hfol.id]
        exact hkept e'' he''
      obtain ⟨e'', he'', hfollows'⟩ := ih he' hkept'
      exact ⟨e'', he'', hfol.trans hfollows'⟩
    · have hfin := released_run req (evs ++ rest) (step req ev s) hrel
      exact absurd rfl (hkept e hfin)

theorem phase_step {ev : Event ι} (hev : ev.request ≠ some i) (s : Service ι) :
    (step req ev s).phase i = s.phase i := by
  rcases step_cases req ev s with heq | ⟨j, hj, hch⟩ | ⟨now, -, heq⟩
  · rw [heq]
  · have hne : i ≠ j := fun h => hev (h ▸ hj)
    generalize step req ev s = s' at hch
    cases hch with
    | move hmove => rw [setPhase_phase, Function.update_of_ne hne]
    | reserve now hi hfree => rw [reserve_phase, Function.update_of_ne hne]
    | complete hi => rw [complete_phase, Function.update_of_ne hne]
  · rw [heq]
    rfl

/-- Events of other requests leave a request where it is. -/
theorem phase_run {evs : List (Event ι)} (hevs : ∀ ev ∈ evs, ev.request ≠ some i) (s : Service ι) :
    (run (step req) evs s).phase i = s.phase i := by
  induction evs generalizing s with
  | nil => rfl
  | cons ev evs ih =>
    exact (ih (fun ev' h => hevs ev' (List.mem_cons_of_mem _ h)) _).trans
      (phase_step (hevs ev List.mem_cons_self) s)

/-- A request that was not admitted before is admitted by a row of its slot and hash. -/
theorem admitted_step (h : Inv req s) (ev : Event ι)
    (hj : ((step req ev s).phase j).admitted = true) : (s.phase j).admitted = true ∨
      ∃ e ∈ (step req ev s).entries, e.slot = (req j).slot ∧
        e.requestHash = (req j).requestHash := by
  by_cases hev : ev.request = some j
  · rcases step_cases req ev s with heq | ⟨i, hi, hch⟩ | ⟨now, rfl, -⟩
    · rw [heq] at hj
      exact .inl hj
    · cases hi.symm.trans hev
      generalize step req ev s = s' at hch hj
      cases hch with
      | move hmove =>
        rw [setPhase_phase, Function.update_self] at hj
        rcases hmove.admitted hj with hadmi | ⟨e, hsele, hlk, hhash⟩
        · exact .inl hadmi
        · have hkey := (h.requests j).keyed (by rw [hsele]; rfl)
          obtain ⟨he, hslot⟩ := lookup_eq_some hkey hlk
          exact .inr ⟨e, he, hslot, hhash⟩
      | reserve now hi hfree =>
        exact .inr ⟨_, List.mem_append_right _ (List.mem_singleton_self _), rfl, rfl⟩
      | complete hi => exact .inl (by simp [hi, admitted])
    · cases hev
  · rw [phase_step hev] at hj
    exact .inl hj

theorem after_concat :
    after req (evs ++ [ev]) = step req ev (after req evs) := run_append evs [ev] _

omit [DecidableEq ι] in
theorem releasedFor_eq_nil : s.releasedFor k = [] ↔ ∀ e ∈ s.released, e.slot ≠ k := by
  simp [Service.releasedFor]

/-- Until a slot is released, its admitted requests have the hash of its row. -/
theorem admitted_run (hrel : (after req evs).releasedFor k = []) (hslot : (req j).slot = k)
    (hj : ((after req evs).phase j).admitted = true) :
    ∃ e ∈ (after req evs).entries, e.slot = k ∧ e.requestHash = (req j).requestHash := by
  induction evs using List.reverseRecOn with
  | nil => simp [after, run, Service.start, admitted] at hj
  | append_singleton evs ev ih =>
    rw [after_concat] at hrel hj ⊢
    rw [releasedFor_eq_nil] at hrel
    rcases admitted_step (inv_after evs) ev hj with hbef | ⟨e, he, heslot, hhash⟩
    · have hreleased' : (after req evs).releasedFor k = [] :=
        releasedFor_eq_nil.mpr fun e he => hrel e (released_step ev _ he)
      obtain ⟨e, he, heslot, hhash⟩ := ih hreleased' hbef
      rcases row_step req ev _ he with ⟨e', he', hfol⟩ | hgone
      · exact ⟨e', he', hfol.slot.trans heslot, hfol.requestHash.trans hhash⟩
      · exact absurd heslot (hrel e hgone)
    · exact ⟨e, he, heslot.trans hslot, hhash⟩

omit [DecidableEq ι] in
theorem Inv.validKey_of_slot (h : Inv req s) (he : e ∈ s.entries) (hslot : e.slot = (req i).slot) :
    validKey (req i).key = true := by
  rw [← (Prod.mk.inj hslot).2]
  exact h.validRows e he

/-- The events of a request that arrives, among events of others. -/
structure Arrival (i : ι) where
  (before checking inserting : List (Event ι))
  now : ℕ
  others : ∀ ev ∈ before ++ checking ++ inserting, ev.request ≠ some i

omit [DecidableEq ι] in
/-- The request is checked, tries to insert a row and reads the one that is there. -/
def Arrival.events (a : Arrival i) : List (Event ι) :=
  a.before ++ .check i :: a.checking ++ .insert i a.now false :: a.inserting ++ [.select i false]

section
variable (h : Inv req s) {e : Entry} (he : e ∈ s.entries) (hslot : e.slot = (req i).slot)
  (hi : s.phase i = .arrived) (hreadable : (req i).readable = true) (a : Arrival i)
  (hkept : ∀ e' ∈ (run (step req) a.events s).released, e'.id ≠ e.id)
include h he hslot hi hreadable

theorem arrival_checked :
    (run (step req) (a.before ++ .check i :: a.checking) s).phase i = .reserving := by
  have hkey := h.validKey_of_slot he hslot
  have hbef : (run (step req) a.before s).phase i = .arrived := by
    rw [phase_run fun ev hev => a.others ev (by simp [hev]), hi]
  have hcheck : (step req (.check i) (run (step req) a.before s)).phase i = .reserving := by
    simp [step, hbef, setPhase_phase, checked, key_ne_empty hkey, hkey, hreadable]
  rw [run_append]
  change (run (step req) a.checking (step req (.check i) _)).phase i = _
  rw [phase_run fun ev hev => a.others ev (by simp [hev]), hcheck]

include hkept

theorem arrival_inserted :
    (run (step req) (a.before ++ .check i :: a.checking ++ .insert i a.now false :: a.inserting)
      s).phase i = .selecting := by
  have hph := arrival_checked h he hslot hi hreadable a
  have hkept' : ∀ e' ∈ (run (step req) (a.before ++ .check i :: a.checking ++
      (.insert i a.now false :: a.inserting ++ [.select i false])) s).released, e'.id ≠ e.id := by
    simpa [Arrival.events] using hkept
  obtain ⟨e', he', hfol⟩ := row_run he hkept'
  have htk : ∃ e ∈ (run (step req) (a.before ++ .check i :: a.checking) s).entries,
      e.slot = (req i).slot := ⟨e', he', hfol.slot.trans hslot⟩
  have hinsert : (step req (.insert i a.now false)
      (run (step req) (a.before ++ .check i :: a.checking) s)).phase i = .selecting := by
    simp [step, hph, if_pos htk, setPhase_phase]
  rw [run_append]
  change (run (step req) a.inserting (step req (.insert i a.now false) _)).phase i = _
  rw [phase_run fun ev hev => a.others ev (by simp [hev]), hinsert]

/-- A request that arrives while there is a row of its slot gets its answer from that row, however
the events of others fall between its own. -/
theorem arrival_selected : ∃ e', e.Follows e' ∧
    (run (step req) a.events s).phase i = selected (req i) (some e') := by
  have hkey := h.validKey_of_slot he hslot
  have hph := arrival_inserted h he hslot hi hreadable a hkept
  obtain ⟨e', he', hfol⟩ := row_run he hkept
  have hinv : Inv req (run (step req)
      (a.before ++ .check i :: a.checking ++ .insert i a.now false :: a.inserting) s) :=
    run_invariant_always inv_step _ h
  have hlk := lookup_of_mem hinv.slots hkey he' (hfol.slot.trans hslot)
  refine ⟨e', hfol, ?_⟩
  rw [Arrival.events, run_append]
  change (step req (.select i false) _).phase i = _
  simp only [step, hph, setPhase_phase, Function.update_self, hlk, Bool.false_eq_true,
    if_false]

end

/-- A slot is handled once, and once more for every time that it was released. -/
theorem handledFor_le (k : Slot) : ((after req evs).handledFor req k).length ≤
      ((after req evs).releasedFor k).length + 1 := by
  have h : Inv req (after req evs) := inv_after evs
  have hcounts := h.counts k
  have hone : (after req evs).entries.countP (fun e => e.slot = k) ≤ 1 := by
    have hct := List.nodup_iff_count_le_one.mp h.slots k
    rw [List.count_eq_countP, List.countP_map] at hct
    refine le_of_eq_of_le (List.countP_congr fun e _ => ?_) hct
    simp
  rw [Service.handledFor, Service.releasedFor, ← List.countP_eq_length_filter,
    ← List.countP_eq_length_filter]
  omega

theorem turnedAway_of_not_admitted (hp : p.admitted = false) {a : Answer} (ha : p = .answered a) :
    ∃ e ∈ turnedAway, a = .failed e := by
  subst ha
  cases a with
  | failed e => exact ⟨e, by simpa [admitted] using hp, rfl⟩
  | _ => cases hp

theorem not_admitted_of_hash_ne {evs : List (Event ι)}
    (hrel : (after req evs).releasedFor k = []) {i : ι} (hi : (req i).slot = k)
    (hj : (req j).slot = k) (hhand : j ∈ (after req evs).handled)
    (hne : (req i).requestHash ≠ (req j).requestHash) :
    ((after req evs).phase i).admitted = false := by
  have h : Inv req (after req evs) := inv_after evs
  rw [Bool.eq_false_iff]
  intro hadmi
  have hsrv := admitted_of_served ((h.requests j).served hhand)
  obtain ⟨e, he, hslot, hhash⟩ := admitted_run evs hrel hj hsrv
  obtain ⟨e', he', hslot', hhash'⟩ := admitted_run evs hrel hi hadmi
  have heq : e = e' := List.inj_on_of_nodup_map h.slots he he' (hslot.trans hslot'.symm)
  exact hne (hhash'.symm.trans (heq ▸ hhash))

/-- What later requests are answered if the handler did not flush its response. -/
theorem replay_of_buffered {out : Output} (h : out.Buffered) : out.replay =
    if responseLimit < out.response.body.length then .failed responseTooLarge
    else .replayed ⟨if out.response.status < 100 then 200 else out.response.status,
      out.recordedHeaders.filter fun h => h.2 ≠ "", out.response.body⟩ := by
  obtain ⟨htr, hbody⟩ := Output.recorded_of_buffered h
  rw [Output.response_body, Output.response_status_of_buffered h, Output.replay, replay]
  cases hcase : out.writer.truncated with
  | true => rw [if_pos rfl, if_pos (htr.mp hcase)]
  | false =>
    have hsm : ¬responseLimit < out.written.length := fun hlg => by
      rw [htr.mpr hlg] at hcase
      cases hcase
    rw [if_neg Bool.false_ne_true, if_neg hsm, hbody hcase]

@[simp] theorem not_served_replay (e : Entry) : (answered e.replay).served = false := by
  unfold Entry.replay replay
  split_ifs <;> rfl

variable (req) in
/-- For every run of the service: a slot is handled at most once, and once more for every time that
its row was deleted. Until then a request with another hash than the handled one does not reach its
handler, and is turned away. A request that arrives while there is a row of its slot never reaches
its handler: if the hash is another one it gets the conflict error, and if the row is completed it
is answered from the response that the handled request was answered with. That is the same status,
headers and body, if the response was not flushed and is not larger than 16 MiB; one that is larger
is answered with the error for it. -/
theorem creation_once (evs : List (Event ι)) : (∀ k, ((after req evs).handledFor req k).length ≤
      ((after req evs).releasedFor k).length + 1) ∧
    (∀ k i j, (after req evs).releasedFor k = [] → (req i).slot = k → (req j).slot = k →
      j ∈ (after req evs).handled → (req i).requestHash ≠ (req j).requestHash →
        i ∉ (after req evs).handled ∧
          ∀ a, (after req evs).phase i = .answered a → ∃ e ∈ turnedAway, a = .failed e) ∧
    ∀ i e (a : Arrival i), e ∈ (after req evs).entries → e.slot = (req i).slot →
      (after req evs).phase i = .arrived → (req i).readable = true →
      (∀ e' ∈ (after req (evs ++ a.events)).released, e'.id ≠ e.id) →
        (e.requestHash ≠ (req i).requestHash → i ∉ (after req (evs ++ a.events)).handled ∧
            (after req (evs ++ a.events)).phase i = .failed conflict) ∧
        (e.requestHash = (req i).requestHash → e.status = .completed →
          i ∉ (after req (evs ++ a.events)).handled ∧
          ∃ (j : ι) (out : Output), j ∈ (after req evs).handled ∧
            (req j).slot = (req i).slot ∧ (req j).requestHash = (req i).requestHash ∧
            (after req evs).phase j = .answered (.own out.response) ∧
            (after req (evs ++ a.events)).phase i = .answered out.replay ∧
            (out.Buffered → out.replay =
              if responseLimit < out.response.body.length then .failed responseTooLarge
              else .replayed ⟨if out.response.status < 100 then 200 else out.response.status,
                out.recordedHeaders.filter fun h => h.2 ≠ "", out.response.body⟩)) := by
  refine ⟨handledFor_le evs, ?_, ?_⟩
  · intro k i j hrel hi hj hhand hne
    have hnot := not_admitted_of_hash_ne hrel hi hj hhand hne
    refine ⟨fun hmem => ?_, fun a ha => turnedAway_of_not_admitted hnot ha⟩
    have hsrv := admitted_of_served (((inv_after evs).requests i).served hmem)
    rw [hnot] at hsrv
    cases hsrv
  · intro i e a he hslot hi hreadable hkept
    have h : Inv req (after req evs) := inv_after evs
    have haft : after req (evs ++ a.events) = run (step req) a.events (after req evs) :=
      run_append _ _ _
    rw [haft] at hkept ⊢
    have h' : Inv req (run (step req) a.events (after req evs)) := run_invariant_always inv_step _ h
    obtain ⟨e', hfol, hph⟩ := arrival_selected h he hslot hi hreadable a hkept
    have hnot : ((run (step req) a.events (after req evs)).phase i).served = false →
        i ∉ (run (step req) a.events (after req evs)).handled := by
      intro hsrv hmem
      rw [(h'.requests i).served hmem] at hsrv
      cases hsrv
    refine ⟨fun hne => ?_, fun heq hcomp => ?_⟩
    · have hconf : selected (req i) (some e') = .failed conflict := by
        simp [selected, hfol.requestHash, hne]
      rw [hconf] at hph
      exact ⟨hnot (by rw [hph]; rfl), hph⟩
    · have hrpl : selected (req i) (some e') = .answered e.replay := by
        rw [hfol.completed hcomp]
        simp [selected, heq, hcomp]
      rw [hrpl] at hph
      obtain ⟨j, out, hj, hjslot, hjhash, hjphase, hout⟩ := h.recorded e he hcomp
      refine ⟨hnot (by rw [hph]; exact not_served_replay e), j, out, hj, hjslot.trans hslot,
        hjhash.trans heq, hjphase, ?_, replay_of_buffered⟩
      rw [hph, hout]

def twins (_ : Fin 2) : CreationRequest where
  tokenID := 7
  authenticated := by decide
  key := "key-00001"
  readable := true
  requestHash := "hash"

def created (data : Bytes) : Output := ⟨[.writeHeader 201, .write data], []⟩

def firstRun (data : Bytes) : List (Event (Fin 2)) :=
  [.check 0, .insert 0 100 false, .handle 0 (some (created data)), .complete 0 false]

def secondArrival : Arrival (1 : Fin 2) where
  before := []
  checking := []
  inserting := []
  now := 200
  others := by simp

theorem creation_once_twins :
    ((after twins (firstRun [1, 2] ++ secondArrival.events)).handledFor twins
        (7, "key-00001")).length ≤ 1 ∧
      ∃ out : Output, (after twins (firstRun [1, 2])).phase 0 = .answered (.own out.response) ∧
        (after twins (firstRun [1, 2] ++ secondArrival.events)).phase 1 = .answered out.replay := by
  obtain ⟨-, -, harri⟩ := creation_once twins (firstRun [1, 2])
  obtain ⟨hct, -, -⟩ := creation_once twins (firstRun [1, 2] ++ secondArrival.events)
  have hrow : ∃ e ∈ (after twins (firstRun [1, 2])).entries, e.slot = (7, "key-00001") ∧
      e.requestHash = "hash" ∧ e.status = .completed := by
    decide +kernel
  obtain ⟨e, he, hslot, hhash, hcomp⟩ := hrow
  have hrel : (after twins (firstRun [1, 2] ++ secondArrival.events)).released = [] := by
    decide +kernel
  have hhand : (after twins (firstRun [1, 2])).handled = [0] := by decide +kernel
  obtain ⟨-, hrpl⟩ := harri 1 e secondArrival he hslot (by decide +kernel) rfl
    (by simp [hrel])
  obtain ⟨-, j, out, hj, -, -, hph, hanswer, -⟩ := hrpl hhash hcomp
  rw [hhand, List.mem_singleton] at hj
  subst hj
  refine ⟨?_, out, hph, hanswer⟩
  have hnone : (after twins (firstRun [1, 2] ++ secondArrival.events)).releasedFor
      (7, "key-00001") = [] := by simp [Service.releasedFor, hrel]
  simpa [hnone] using hct (7, "key-00001")

theorem created_response (data : Bytes) : (created data).response = ⟨201, [], data⟩ := by
  have hbody : (created data).response.body = data := by
    rw [Output.response_body]
    simp [created, Output.written, WriterCall.data]
  have hst : (created data).writer.finalStatus = 201 := by
    change ((Writer.start.writeHeader 201).write data).finalStatus = 201
    unfold Writer.write
    dsimp only
    split_ifs <;> rfl
  have hbuff : (created data).Buffered := by simp [Output.Buffered, created]
  calc (created data).response
      = ⟨(created data).response.status, [], (created data).response.body⟩ := rfl
    _ = ⟨201, [], data⟩ := by rw [Output.response_status_of_buffered hbuff, hst, hbody]

theorem twins_answers (data : Bytes) :
    (after twins (firstRun data ++ secondArrival.events)).phase 0 =
        .answered (.own (created data).response) ∧
      (after twins (firstRun data ++ secondArrival.events)).phase 1 =
        .answered (created data).replay :=
  ⟨rfl, rfl⟩

/-- A response of more than 16 MiB is recorded, and the second request does not get it. -/
theorem large_response_not_replayed : ∃ data : Bytes, responseLimit < data.length ∧
    (after twins (firstRun data ++ secondArrival.events)).phase 0 =
        .answered (.own ⟨201, [], data⟩) ∧
      (after twins (firstRun data ++ secondArrival.events)).phase 1 =
        .answered (.failed responseTooLarge) := by
  obtain ⟨data, hlg⟩ : ∃ data : Bytes, responseLimit < data.length :=
    ⟨List.replicate (responseLimit + 1) 0, by rw [List.length_replicate]; exact Nat.lt_succ_self _⟩
  have hbuff : (created data).Buffered := by simp [Output.Buffered, created]
  refine ⟨data, hlg, ?_, ?_⟩
  · rw [(twins_answers data).1, created_response]
  · rw [(twins_answers data).2, replay_of_buffered hbuff, created_response, if_pos hlg]

end NewApi.Creation
