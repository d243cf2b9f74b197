import NewApi.Runs

/-!
# Accounting of the disk cache

A file of the cache directory belongs to the body storage or the cached file it was created for,
and the state lists every file created so far with its owner.
-/
namespace NewApi.DiskCache

/-- A file with its owner: a request-body storage (`body`) or a cached file. -/
structure Entry where
  body : Bool
  size : ℕ
  modTime : ℤ
  present : Bool
  closed : Bool

structure CacheState where
  entries : List Entry
  activeDiskFiles : ℤ
  currentDiskUsageBytes : ℤ

inductive CacheCall
  /-- A creation that fails removes what it wrote. -/
  | create (body fails : Bool) (size : ℕ) (now : ℤ)
  | close (i : ℕ)
  /-- `order` is the order in which the directory is read. -/
  | cleanup (now maxAge : ℤ) (order : List ℕ)

def incrementDiskFiles (size : ℕ) (s : CacheState) : CacheState :=
  { s with
    activeDiskFiles := s.activeDiskFiles + 1
    currentDiskUsageBytes := s.currentDiskUsageBytes + size }

def decrementDiskFiles (size : ℕ) (s : CacheState) : CacheState :=
  { s with
    activeDiskFiles := max (s.activeDiskFiles - 1) 0
    currentDiskUsageBytes := max (s.currentDiskUsageBytes - size) 0 }

/-- A body storage lowers the counters whether or not its file was there to remove, a cached file
only if it was. -/
def close (i : ℕ) (s : CacheState) : CacheState :=
  match s.entries[i]? with
  | none => s
  | some e =>
    if e.closed then s
    else
      let s' := { s with entries := s.entries.set i { e with present := false, closed := true } }
      if e.body || e.present then decrementDiskFiles e.size s' else s'

def cleanupFile (now maxAge : ℤ) (s : CacheState) (i : ℕ) : CacheState :=
  match s.entries[i]? with
  | none => s
  | some e =>
    if e.present ∧ maxAge < now - e.modTime then
      decrementDiskFiles e.size { s with entries := s.entries.set i { e with present := false } }
    else s

def step : CacheCall → CacheState → CacheState
  | .create body fails size now, s =>
    if fails then s
    else incrementDiskFiles size { s with entries := s.entries ++ [⟨body, size, now, true, false⟩] }
  | .close i, s => close i s
  | .cleanup now maxAge order, s => order.foldl (cleanupFile now maxAge) s

def start : CacheState := ⟨[], 0, 0⟩

def CacheState.files (s : CacheState) : List Entry := s.entries.filter Entry.present

/-- A cleanup finds no file of a body storage old enough. -/
def Spares : CacheCall → CacheState → Prop
  | .cleanup now maxAge _, s => ∀ e ∈ s.files, e.body → now - e.modTime ≤ maxAge
  | _, _ => True

structure Exact (s : CacheState) : Prop where
  active : s.activeDiskFiles = s.files.length
  usage : s.currentDiskUsageBytes = (s.files.map Entry.size).sum
  owned : ∀ e ∈ s.entries, (e.closed → ¬e.present) ∧ (e.body → ¬e.closed → e.present)

section
variable {s : CacheState} {i : ℕ} {e d : Entry}

theorem files_set {l : List Entry} (hi : l[i]? = some e) (he : d.present = false) :
    (l.filter Entry.present).Perm ((if e.present then [e] else []) ++
      (l.set i d).filter Entry.present) := by
  induction l generalizing i with
  | nil => cases hi
  | cons x l ih =>
    cases i with
    | zero =>
      cases hi
      cases hx : e.present <;> simp [hx, he]
    | succ i =>
      have := @ih i hi
      cases hx : x.present
      · simpa [hx] using this
      · simpa [hx] using (this.cons x).trans List.perm_middle.symm

/-- With the file of an entry gone and the counters lowered for it, the accounting is exact. -/
theorem Exact.removed (h : Exact s) (hi : s.entries[i]? = some e) (he : d.present = false)
    (ho : d.body → d.closed) :
    Exact (if e.present then decrementDiskFiles e.size { s with entries := s.entries.set i d }
      else { s with entries := s.entries.set i d }) := by
  have howned : ∀ x ∈ s.entries.set i d, (x.closed → ¬x.present) ∧
      (x.body → ¬x.closed → x.present) := fun x hx => by
    obtain hx | rfl := List.mem_or_eq_of_mem_set hx
    · exact h.owned x hx
    · simp_all
  have hlen := (files_set hi he).length_eq
  have hsum := ((files_set hi he).map Entry.size).sum_eq
  obtain ⟨ha, hu, -⟩ := h
  split
  · next hp =>
    simp only [hp, if_true, List.singleton_append, List.length_cons, List.map_cons,
      List.sum_cons] at hlen hsum
    refine ⟨?_, ?_, howned⟩ <;> simp only [decrementDiskFiles, CacheState.files] at * <;> omega
  · next hp =>
    rw [if_neg hp, List.nil_append] at hlen hsum
    exact ⟨ha.trans (congrArg _ hlen), hu.trans (congrArg _ hsum), howned⟩

theorem Exact.close (h : Exact s) : Exact (close i s) := by
  unfold DiskCache.close
  split
  · exact h
  · next e hi =>
    split
    · exact h
    · next hopen =>
      have hp : (e.body || e.present) = e.present := by
        have := (h.owned e (List.mem_of_getElem? hi)).2
        grind
      rw [hp]
      exact h.removed hi rfl fun _ => rfl

/-- By induction on the order: a removal leaves no file of a body storage old enough. -/
theorem Exact.cleanup {now maxAge : ℤ} {order : List ℕ} (h : Exact s)
    (hs : ∀ e ∈ s.entries, e.present → e.body → now - e.modTime ≤ maxAge) :
    Exact (order.foldl (cleanupFile now maxAge) s) := by
  induction order generalizing s with
  | nil => exact h
  | cons i order ih =>
    rw [List.foldl_cons]
    unfold cleanupFile
    split
    · exact ih h hs
    · next e hi =>
      split
      · next hold =>
        have hb : ¬e.body := fun hb => by
          have := hs e (List.mem_of_getElem? hi) hold.1 hb
          omega
        have hgone := h.removed hi (d := { e with present := false }) rfl fun hb' => absurd hb' hb
        rw [if_pos hold.1] at hgone
        refine ih hgone fun x hx hxp => ?_
        obtain hx | rfl := List.mem_or_eq_of_mem_set hx
        · exact hs x hx hxp
        · cases hxp
      · exact ih h hs

/-- A step that spares files in use keeps the counters exact. -/
theorem step_exact (c : CacheCall) (s : CacheState) (hc : Spares c s) (h : Exact s) :
    Exact (step c s) := by
  cases c with
  | create body fails size now =>
    rw [step]
    split
    · exact h
    · refine ⟨?_, ?_, ?_⟩
      · simp [incrementDiskFiles, h.active, CacheState.files]
      · simp [incrementDiskFiles, h.usage, CacheState.files]
      · simpa [incrementDiskFiles, or_imp, forall_and] using h.owned
  | close i => exact h.close
  | cleanup now maxAge order =>
    exact h.cleanup fun e he hp => hc e (List.mem_filter.2 ⟨he, hp⟩)

end

/-- If no cleanup finds an old file of a body storage, the counters are exact after every call, and
zero once everything is closed. -/
theorem counters_exact (calls : List CacheCall) (h : Along step Spares calls start) :
    let s := run step calls start
    s.activeDiskFiles = s.files.length ∧ s.currentDiskUsageBytes = (s.files.map Entry.size).sum ∧
      ((∀ e ∈ s.entries, e.closed) → s.activeDiskFiles = 0 ∧ s.currentDiskUsageBytes = 0) := by
  obtain ⟨ha, hu, ho⟩ := run_invariant step_exact h ⟨rfl, rfl, by simp [start]⟩
  refine ⟨ha, hu, fun hall => ?_⟩
  have hnil : (run step calls start).files = [] :=
    List.filter_eq_nil_iff.2 fun e he => (ho e he).1 (hall e he)
  rw [ha, hu, hnil]
  exact ⟨rfl, rfl⟩

theorem counters_exact_sample :
    (run step [.create true false 5 0, .close 0] start).activeDiskFiles = 0 :=
  (counters_exact [.create true false 5 0, .close 0] ⟨trivial, trivial, trivial⟩).1

/-- A body storage whose file was cleaned up lowers the counters a second time. -/
theorem counters_not_exact : ¬∀ calls, let s := run step calls start
    s.activeDiskFiles = s.files.length ∧
      s.currentDiskUsageBytes = (s.files.map Entry.size).sum := fun h =>
  absurd (h [.create true false 5 0, .cleanup 400 300 [0], .create true false 7 400, .close 0]).1
    (by decide)

/-- The counters are at most what is on the disk. -/
structure Covered (s : CacheState) : Prop where
  active : 0 ≤ s.activeDiskFiles ∧ s.activeDiskFiles ≤ s.files.length
  usage : 0 ≤ s.currentDiskUsageBytes ∧ s.currentDiskUsageBytes ≤ (s.files.map Entry.size).sum

section
variable {s : CacheState} {i : ℕ} {e d : Entry}

/-- A file that is gone must be taken off the counters, and one that was gone before may be. -/
theorem Covered.removed {l : Bool} (h : Covered s) (hi : s.entries[i]? = some e)
    (he : d.present = false) (hl : e.present → l) :
    Covered (if l then decrementDiskFiles e.size { s with entries := s.entries.set i d }
      else { s with entries := s.entries.set i d }) := by
  have hlen := (files_set hi he).length_eq
  have hsum := ((files_set hi he).map Entry.size).sum_eq
  obtain ⟨ha, hu⟩ := h
  cases hp : e.present <;>
    simp only [hp, Bool.false_eq_true, if_true, if_false, List.nil_append, List.singleton_append,
      List.length_cons, List.map_cons, List.sum_cons] at hlen hsum
  · split <;> constructor <;> simp only [decrementDiskFiles, CacheState.files] at * <;> omega
  · rw [if_pos (hl hp)]
    constructor <;> simp only [decrementDiskFiles, CacheState.files] at * <;> omega

theorem Covered.cleanup {now maxAge : ℤ} {order : List ℕ} (h : Covered s) :
    Covered (order.foldl (cleanupFile now maxAge) s) := by
  induction order generalizing s with
  | nil => exact h
  | cons i order ih =>
    refine ih ?_
    unfold cleanupFile
    split
    · exact h
    · next e hi =>
      split
      · exact h.removed (l := true) hi rfl fun _ => rfl
      · exact h

/-- Every step keeps the counters at least at what is there. -/
theorem step_covered (c : CacheCall) (s : CacheState) (h : Covered s) : Covered (step c s) := by
  cases c with
  | create body fails size now =>
    rw [step]
    split
    · exact h
    · obtain ⟨ha, hu⟩ := h
      constructor <;>
        simp only [incrementDiskFiles, CacheState.files, List.filter_append, List.map_append,
          List.length_append, List.sum_append, List.filter_cons, List.filter_nil, if_true,
          List.map_cons, List.map_nil, List.sum_cons, List.sum_nil, List.length_cons,
          List.length_nil] at * <;> omega
  | close i =>
    rw [step, close]
    split
    · exact h
    · next e hi =>
      split
      · exact h
      · exact h.removed hi rfl fun hp => by simp [hp]
  | cleanup now maxAge order => exact h.cleanup

end

/-- Whatever the cleanups remove, the counters are never negative and never more than what is on the
disk. -/
theorem counters_never_exceed (calls : List CacheCall) : Covered (run step calls start) :=
  run_invariant_always step_covered calls ⟨by decide, by decide⟩

end NewApi.DiskCache
