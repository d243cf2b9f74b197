import NewApi.Channels
import NewApi.Runs

/-!
# The memory cache of channels

The cache holds every channel under its id, and for each group and model the ids of the channels
that may serve it. It is built from the database, and status changes edit it in place. A request
takes a channel of the highest priority that its retry allows, at random by weight; the random
number and the form of a model name that is tried second are parameters. Ids with the same
priority are listed in the order of the database.
-/
namespace NewApi.Channels

abbrev ChannelRows := AList fun _ : ℤ => Channel

/-- The database, with the map `channelsIDM` and the index `group2model2channels`. -/
structure ChannelCache where
  db : ChannelRows
  channelsIDM : Table ℤ Channel
  index : String → String → List ℤ

open ChannelCache

/-- Before the first initialisation. -/
def ChannelCache.start (db : ChannelRows) : ChannelCache := ⟨db, Table.empty, fun _ _ => []⟩

namespace ChannelCache
variable (parse : String → Option (List String)) (s : ChannelCache)

/-- The entries of a channel in the list of a group and a model: one for each time that the
model is named. -/
def entries (group model : String) (id : ℤ) (c : Channel) : List ℤ :=
  if c.status ≠ .enabled then []
  else c.getGroups.flatMap fun g => c.splitModels.flatMap fun m =>
    if g = group ∧ m = model then [id] else []

def priorityOf (db : ChannelRows) (id : ℤ) : ℤ := ((db.lookup id).map Channel.getPriority).getD 0

/-- The channel as it is cached: with its keys, and the polling index of the one before. -/
def cached (old : Option Channel) (c : Channel) : Channel :=
  if c.channelInfo.isMultiKey then
    let polled := old.filter fun o =>
      decide (c.channelInfo.multiKeyMode = .polling) && o.channelInfo.isMultiKey &&
        decide (o.channelInfo.multiKeyMode = .polling)
    { c with
      keys := c.getKeys parse
      channelInfo := { c.channelInfo with
        multiKeyPollingIndex := match polled with
          | some o => o.channelInfo.multiKeyPollingIndex
          | none => c.channelInfo.multiKeyPollingIndex } }
  else c

/-- The cache is built anew from the database. -/
def initChannelCache : ChannelCache :=
  { s with
    channelsIDM := fun id => (s.db.lookup id).map (cached parse (s.channelsIDM id))
    index := fun group model =>
      (s.db.entries.flatMap fun r => entries group model r.1 r.2).insertionSort fun i j =>
        priorityOf s.db j ≤ priorityOf s.db i }

/-- The status is set; a channel that is not enabled is removed from each list, where its first
entry is deleted. -/
def cacheUpdateChannelStatus (id : ℤ) (status : ChannelStatus) : ChannelCache :=
  { s with
    channelsIDM := s.channelsIDM.modify id fun c => { c with status := status }
    index := if status ≠ .enabled then fun group model => (s.index group model).erase id
      else s.index }

def cacheUpdateChannel (id : ℤ) (c : Channel) : ChannelCache :=
  { s with channelsIDM := s.channelsIDM.put id c }

/-- The part of `UpdateChannelStatus` after the cache: the row in the database. -/
def saveStatus (id : ℤ) (usingKey : String) (status : ChannelStatus) : ChannelCache :=
  match s.db.lookup id with
  | none => s
  | some c =>
    if c.status = status then s
    else if c.channelInfo.isMultiKey then
      { s with db := s.db.replace id (handlerMultiKeyUpdate parse c usingKey status) }
    else { s with db := s.db.replace id { c with status := status } }

/-- The cache is changed for one channel. -/
def updateChannelStatus (id : ℤ) (usingKey : String) (status : ChannelStatus) : ChannelCache :=
  match s.channelsIDM id with
  | none => s
  | some c =>
    if c.channelInfo.isMultiKey then
      -- the cached channel changes in place, and the index stays as it is
      let cache := s.channelsIDM.put id (handlerMultiKeyUpdate parse c usingKey status)
      saveStatus parse { s with channelsIDM := cache } id usingKey status
    else if c.status = status then s
    else saveStatus parse (s.cacheUpdateChannelStatus id status) id usingKey status

/-- The channels of a list of ids, or the first id without one. -/
def resolve (channelsIDM : Table ℤ Channel) : List ℤ → Except ℤ (List (ℤ × Channel))
  | [] => .ok []
  | id :: ids =>
    match channelsIDM id with
    | none => .error id
    | some c => (resolve channelsIDM ids).map ((id, c) :: ·)

/-- The first channel at which the weights so far exceed the random number. -/
def pick (smoothingFactor smoothingAdjustment : ℕ) : List (ℤ × Channel) → ℤ → Option (ℤ × Channel)
  | [], _ => none
  | p :: ps, randomWeight =>
    let rest := randomWeight - (p.2.getWeight * smoothingFactor + smoothingAdjustment : ℕ)
    if rest < 0 then some p else pick smoothingFactor smoothingAdjustment ps rest

/-- A random choice by weight; `draw` is the random number, before it is brought into range. -/
def choose (targets : List (ℤ × Channel)) (draw : ℕ) : Option (ℤ × Channel) :=
  let sumWeight := (targets.map fun p => p.2.getWeight).sum
  if sumWeight = 0 then pick 1 100 targets (draw % (targets.length * 100) : ℕ)
  else if sumWeight / targets.length < 10 then pick 100 0 targets (draw % (sumWeight * 100) : ℕ)
  else pick 1 0 targets (draw % sumWeight : ℕ)

inductive SelectError where
  | inconsistent (id : ℤ)
  | noChannel
  | outOfRange
  deriving DecidableEq

/-- The channels of the model, or else of its general name. -/
def candidates (normalize : String → String) (group model : String) : List ℤ :=
  if s.index group model = [] then s.index group (normalize model) else s.index group model

def sortedUniquePriorities (found : List (ℤ × Channel)) : List ℤ :=
  ((found.map fun p => p.2.getPriority).dedup).insertionSort fun i j => j ≤ i

/-- The priority for the retry; a negative one panics. -/
def targetPriority (priorities : List ℤ) (retry : ℤ) : Option ℤ :=
  let retry := if (priorities.length : ℤ) ≤ retry then (priorities.length : ℤ) - 1 else retry
  if retry < 0 then none else priorities[retry.toNat]?

/-- The channels of the priority that the retry asks for. -/
def targets (found : List (ℤ × Channel)) (retry : ℤ) : Except SelectError (List (ℤ × Channel)) :=
  match targetPriority (sortedUniquePriorities found) retry with
  | none => .error .outOfRange
  | some priority => .ok (found.filter fun p => decide (p.2.getPriority = priority))

/-- A channel for a request, drawn by weight. -/
def getRandomSatisfiedChannelWithFilter (normalize : String → String) (group model : String)
    (retry : ℤ) (filter : ℤ × Channel → Bool) (draw : ℕ) :
    Except SelectError (Option (ℤ × Channel)) :=
  match resolve s.channelsIDM (s.candidates normalize group model) with
  | .error id => .error (.inconsistent id)
  | .ok found =>
    match found.filter filter with
    | [] => .ok none
    | [p] => .ok (some p)
    | p :: q :: ps =>
      match targets (p :: q :: ps) retry with
      | .error e => .error e
      | .ok ts =>
        match choose ts draw with
        | some p => .ok (some p)
        | none => .error .noChannel

end ChannelCache

inductive CacheCall where
  | initChannelCache
  | updateChannelStatus (id : ℤ) (usingKey : String) (status : ChannelStatus)
  | cacheUpdateChannel (id : ℤ) (c : Channel)
  /-- The channels are edited in the database. -/
  | edit (db : ChannelRows)

def CacheCall.step (parse : String → Option (List String)) : CacheCall → ChannelCache → ChannelCache
  | .initChannelCache, s => s.initChannelCache parse
  | .updateChannelStatus id usingKey status, s => s.updateChannelStatus parse id usingKey status
  | .cacheUpdateChannel id c, s => s.cacheUpdateChannel id c
  | .edit db, s => { s with db := db }

namespace ChannelCache
variable (s : ChannelCache)

/-- The id is in the list of some group and model. -/
def Lists (id : ℤ) : Prop := ∃ group model, id ∈ s.index group model

/-- Every listed id is that of a channel whose cached status is enabled. -/
def ListsEnabled : Prop := ∀ id, s.Lists id → ∃ c, s.channelsIDM id = some c ∧ c.status = .enabled

/-- No request gets a channel that is not enabled. -/
def SelectsEnabled : Prop :=
  ∀ normalize group model retry filter draw p,
    s.getRandomSatisfiedChannelWithFilter normalize group model retry filter draw = .ok (some p) →
      p.2.status = .enabled

end ChannelCache

/-- A multi-key channel stays enabled, whose key gets a status. -/
def Channel.StaysEnabled (parse : String → Option (List String)) (c : Channel) (usingKey : String)
    (status : ChannelStatus) : Prop :=
  if c.getKeys parse = [] then status = .enabled
  else c.status = .enabled ∧ (c.disabledAfter parse usingKey status).length < c.channelInfo.multiKeySize

/-- The operation leaves no disabled channel in the index. -/
def CacheCall.KeepsEnabled (parse : String → Option (List String)) : CacheCall → ChannelCache → Prop
  | .updateChannelStatus id usingKey status, s => ∀ c ∈ s.channelsIDM id,
      if c.channelInfo.isMultiKey then s.Lists id → c.StaysEnabled parse usingKey status
      else c.status = status ∨ status = .enabled ∨ ∀ group model, (s.index group model).count id ≤ 1
  | .cacheUpdateChannel id c, s => s.Lists id → c.status = .enabled
  | .initChannelCache, _ | .edit _, _ => True

section
variable {parse : String → Option (List String)} {s : ChannelCache}

variable {p : ℤ × Channel} {ps : List (ℤ × Channel)}

variable {found : List (ℤ × Channel)}

/-- Every id is found among the cached channels. -/
theorem resolve_mem {channelsIDM : Table ℤ Channel} {ids : List ℤ}
    (h : resolve channelsIDM ids = .ok found) (hp : p ∈ found) :
    p.1 ∈ ids ∧ channelsIDM p.1 = some p.2 := by
  induction ids generalizing found with
  | nil =>
    cases h
    cases hp
  | cons id ids ih =>
    rw [resolve] at h
    split at h
    · cases h
    next c hc =>
      cases hrest : resolve channelsIDM ids with
      | error e => rw [hrest] at h; cases h
      | ok rest =>
        rw [hrest] at h
        cases h
        obtain rfl | hp := List.mem_cons.mp hp
        · exact ⟨List.mem_cons_self, hc⟩
        · obtain ⟨hmem, hsome⟩ := ih hrest hp
          exact ⟨List.mem_cons_of_mem _ hmem, hsome⟩

/-- The factor and the adjustment of the weights in the choice among these. -/
def smoothing (targets : List (ℤ × Channel)) : ℕ × ℕ :=
  let sumWeight := (targets.map fun p => p.2.getWeight).sum
  if sumWeight = 0 then (1, 100)
  else if sumWeight / targets.length < 10 then (100, 0)
  else (1, 0)

def effectiveWeight (targets : List (ℤ × Channel)) (p : ℤ × Channel) : ℕ :=
  p.2.getWeight * (smoothing targets).1 + (smoothing targets).2

theorem pick_eq_drawn (factor adjustment : ℕ) (ps : List (ℤ × Channel)) (r : ℕ) :
    pick factor adjustment ps r = drawn (fun p => p.2.getWeight * factor + adjustment) ps r := by
  induction ps generalizing r with
  | nil => rfl
  | cons p ps ih =>
    rw [pick, drawn]
    by_cases hlt : r < p.2.getWeight * factor + adjustment
    · rw [if_pos (by omega), if_pos hlt]
    · rw [if_neg (by omega), if_neg hlt, ← ih, Nat.cast_sub (by omega)]

variable (ts : List (ℤ × Channel))

theorem sum_effectiveWeight : (ts.map (effectiveWeight ts)).sum =
    (ts.map fun p => p.2.getWeight).sum * (smoothing ts).1 + ts.length * (smoothing ts).2 := by
  unfold effectiveWeight
  rw [List.sum_map_add, List.sum_map_mul_right, List.map_const', List.sum_replicate, smul_eq_mul]

theorem choose_eq_drawn (draw : ℕ) :
    choose ts draw = drawn (effectiveWeight ts) ts (draw % (ts.map (effectiveWeight ts)).sum) := by
  rw [sum_effectiveWeight]
  unfold choose effectiveWeight smoothing
  dsimp only
  split_ifs with hzero hsm
  · rw [pick_eq_drawn, hzero, Nat.zero_mul, Nat.zero_add]
  · rw [pick_eq_drawn, Nat.mul_zero, Nat.add_zero]
  · rw [pick_eq_drawn, Nat.mul_zero, Nat.add_zero, Nat.mul_one]

theorem exists_choose {ts : List (ℤ × Channel)} (hts : ts ≠ []) (draw : ℕ) :
    ∃ p ∈ ts, choose ts draw = some p := by
  have hpos : 0 < (ts.map (effectiveWeight ts)).sum := by
    have hlen := List.length_pos_of_ne_nil hts
    rw [sum_effectiveWeight, smoothing]
    split_ifs <;> omega
  rw [choose_eq_drawn]
  exact exists_drawn _ (Nat.mod_lt _ hpos)

/-- What is drawn is one of the targets. -/
theorem choose_mem {ts : List (ℤ × Channel)} {draw : ℕ} {p : ℤ × Channel}
    (h : choose ts draw = some p) : p ∈ ts := by
  have hts : ts ≠ [] := by rintro rfl; cases h
  obtain ⟨q, hq, hchoose⟩ := exists_choose hts draw
  cases hchoose.symm.trans h
  exact hq

variable {retry id : ℤ}

theorem targets_subset (h : targets found retry = .ok ps) (hp : p ∈ ps) : p ∈ found := by
  unfold targets at h
  split at h
  · cases h
  · cases h
    exact (List.mem_filter.mp hp).1

variable {group model : String}

theorem selected_found {normalize : String → String} {filter : ℤ × Channel → Bool} {draw : ℕ}
    (h : s.getRandomSatisfiedChannelWithFilter normalize group model retry filter draw =
      .ok (some p)) :
    ∃ found, resolve s.channelsIDM (s.candidates normalize group model) = .ok found ∧
      p ∈ found := by
  unfold getRandomSatisfiedChannelWithFilter at h
  split at h
  · cases h
  next found hfnd =>
    refine ⟨found, hfnd, ?_⟩
    have hsub : ∀ q ∈ found.filter filter, q ∈ found := fun q hq => (List.mem_filter.mp hq).1
    split at h
    · cases h
    next q hq =>
      cases h
      exact hsub p (hq ▸ List.mem_cons_self)
    next a b ps hps =>
      split at h
      · cases h
      next ts hts =>
        split at h
        next hchoose =>
          cases h
          exact hsub p (hps ▸ targets_subset hts (choose_mem hchoose))
        · cases h

theorem ChannelCache.ListsEnabled.selects (h : s.ListsEnabled) : s.SelectsEnabled := by
  intro normalize group model retry filter draw p hp
  obtain ⟨found, hfnd, hmem⟩ := selected_found hp
  obtain ⟨hlist, hcac⟩ := resolve_mem hfnd hmem
  have hlists : s.Lists p.1 := by
    unfold candidates at hlist
    split at hlist
    · exact ⟨_, _, hlist⟩
    · exact ⟨_, _, hlist⟩
  obtain ⟨c, hc, henb⟩ := h p.1 hlists
  cases hcac.symm.trans hc
  exact henb

@[simp] theorem cached_status (old : Option Channel) (c : Channel) :
    (cached parse old c).status = c.status := by
  unfold cached
  split <;> rfl

theorem mem_entries {j : ℤ} {c : Channel}
    (h : j ∈ entries group model id c) : j = id ∧ c.status = .enabled := by
  unfold entries at h
  split at h
  · cases h
  next henb =>
    refine ⟨?_, not_not.mp henb⟩
    simp only [List.mem_flatMap] at h
    obtain ⟨g, -, m, -, hj⟩ := h
    split at hj
    · exact List.mem_singleton.mp hj
    · cases hj

theorem initChannelCache_listsEnabled : (s.initChannelCache parse).ListsEnabled := by
  rintro id ⟨group, model, hid⟩
  obtain ⟨r, hr, hid⟩ := List.mem_flatMap.mp (List.mem_insertionSort _ |>.mp hid)
  obtain ⟨rfl, henb⟩ := mem_entries hid
  have hlk : s.db.lookup r.1 = some r.2 := AList.mem_lookup_iff.mpr hr
  refine ⟨cached parse (s.channelsIDM r.1) r.2, ?_, ?_⟩
  · change (s.db.lookup r.1).map _ = _
    rw [hlk]
    rfl
  · rw [cached_status]
    exact henb

theorem put_listsEnabled_iff (h : s.ListsEnabled) (id : ℤ) (c : Channel) :
    (s.cacheUpdateChannel id c).ListsEnabled ↔ (s.Lists id → c.status = .enabled) := by
  constructor
  · intro h' hid
    obtain ⟨d, hd, henb⟩ := h' id hid
    cases (Table.put_self s.channelsIDM id c).symm.trans hd
    exact henb
  · intro hc j hj
    by_cases hji : j = id
    · subst hji
      exact ⟨c, Table.put_self _ _ _, hc hj⟩
    · obtain ⟨d, hd, henb⟩ := h j hj
      exact ⟨d, (Table.put_of_ne _ _ hji).trans hd, henb⟩

theorem saveStatus_listsEnabled_iff (s : ChannelCache) (id : ℤ) (usingKey : String)
    (status : ChannelStatus) :
    (saveStatus parse s id usingKey status).ListsEnabled ↔ s.ListsEnabled := by
  unfold saveStatus
  split
  · rfl
  · split
    · rfl
    · split <;> rfl

theorem handlerMultiKeyUpdate_enabled_iff (c : Channel) (usingKey : String)
    (status : ChannelStatus) : (handlerMultiKeyUpdate parse c usingKey status).status = .enabled ↔
      c.StaysEnabled parse usingKey status := by
  rw [handlerMultiKeyUpdate_status, Channel.StaysEnabled]
  split_ifs with hkeys hall
  · rfl
  · exact iff_of_false nofun fun h => absurd hall (not_le.mpr h.2)
  · exact (and_iff_left (not_le.mp hall)).symm

section
variable (h : s.ListsEnabled)
include h

/-- Removing the first entry is enough iff there is at most one. -/
theorem disabled_listsEnabled_iff {c : Channel}
    (hid : s.channelsIDM id = some c) {status : ChannelStatus} (hst : status ≠ .enabled) :
    (s.cacheUpdateChannelStatus id status).ListsEnabled ↔
      ∀ group model, (s.index group model).count id ≤ 1 := by
  have hidx : (s.cacheUpdateChannelStatus id status).index =
      fun group model => (s.index group model).erase id := if_pos hst
  have hself : (s.cacheUpdateChannelStatus id status).channelsIDM id =
      some { c with status := status } := by
    simp [cacheUpdateChannelStatus, hid]
  constructor
  · intro h' group model
    by_contra hct
    have hmem : id ∈ (s.index group model).erase id := by
      rw [← List.count_pos_iff, List.count_erase_self]
      omega
    obtain ⟨d, hd, henb⟩ := h' id ⟨group, model, hidx ▸ hmem⟩
    cases hself.symm.trans hd
    exact hst henb
  · rintro hct j ⟨group, model, hj⟩
    rw [hidx] at hj
    have hji : j ≠ id := by
      rintro rfl
      have hpos := List.count_pos_iff.mpr hj
      rw [List.count_erase_self] at hpos
      have := hct group model
      omega
    obtain ⟨d, hd, henb⟩ := h j ⟨group, model, List.mem_of_mem_erase hj⟩
    exact ⟨d, (Table.modify_of_ne _ _ hji).trans hd, henb⟩

theorem enabled_listsEnabled (id : ℤ) :
    (s.cacheUpdateChannelStatus id .enabled).ListsEnabled := by
  rintro j ⟨group, model, hj⟩
  obtain ⟨d, hd, henb⟩ := h j ⟨group, model, hj⟩
  by_cases hji : j = id
  · subst hji
    refine ⟨{ d with status := .enabled }, ?_, rfl⟩
    simp [cacheUpdateChannelStatus, hd]
  · exact ⟨d, (Table.modify_of_ne _ _ hji).trans hd, henb⟩

/-- A disabled channel with several keys stays in the index. -/
theorem updateChannelStatus_listsEnabled_iff (id : ℤ) (usingKey : String)
    (status : ChannelStatus) : (s.updateChannelStatus parse id usingKey status).ListsEnabled ↔
      (CacheCall.updateChannelStatus id usingKey status).KeepsEnabled parse s := by
  cases hid : s.channelsIDM id with
  | none =>
    have hsame : s.updateChannelStatus parse id usingKey status = s := by
      simp only [updateChannelStatus, hid]
    rw [hsame]
    exact iff_of_true h fun c hc => nomatch hid.symm.trans hc
  | some c =>
    have hcond : (CacheCall.updateChannelStatus id usingKey status).KeepsEnabled parse s ↔
        if c.channelInfo.isMultiKey then s.Lists id → c.StaysEnabled parse usingKey status
        else c.status = status ∨ status = .enabled ∨
          ∀ group model, (s.index group model).count id ≤ 1 := by
      refine ⟨fun hk => hk c hid, fun hk d hd => ?_⟩
      cases hid.symm.trans hd
      exact hk
    rw [hcond]
    by_cases hmulti : c.channelInfo.isMultiKey = true
    · have heq : s.updateChannelStatus parse id usingKey status = saveStatus parse
          (s.cacheUpdateChannel id (handlerMultiKeyUpdate parse c usingKey status)) id usingKey
          status := by
        simp only [updateChannelStatus, hid, if_pos hmulti]
        rfl
      rw [heq, saveStatus_listsEnabled_iff, put_listsEnabled_iff h, if_pos hmulti,
        handlerMultiKeyUpdate_enabled_iff]
    rw [if_neg hmulti]
    by_cases hsame : c.status = status
    · have heq : s.updateChannelStatus parse id usingKey status = s := by
        simp only [updateChannelStatus, hid, if_neg hmulti, if_pos hsame]
      rw [heq]
      exact iff_of_true h (.inl hsame)
    have heq : s.updateChannelStatus parse id usingKey status = saveStatus parse
        (s.cacheUpdateChannelStatus id status) id usingKey status := by
      simp only [updateChannelStatus, hid, if_neg hmulti, if_neg hsame]
    rw [heq, saveStatus_listsEnabled_iff]
    by_cases henb : status = .enabled
    · subst henb
      exact iff_of_true (enabled_listsEnabled h id) (.inr (.inl rfl))
    · rw [disabled_listsEnabled_iff h hid henb]
      simp [hsame, henb]

/-- The exact condition for one operation to keep the index enabled. -/
theorem step_listsEnabled_iff (call : CacheCall) :
    (call.step parse s).ListsEnabled ↔ call.KeepsEnabled parse s := by
  cases call with
  | initChannelCache => exact iff_of_true initChannelCache_listsEnabled trivial
  | updateChannelStatus id usingKey status =>
    exact updateChannelStatus_listsEnabled_iff h id usingKey status
  | cacheUpdateChannel id c => exact put_listsEnabled_iff h id c
  | edit db => exact iff_of_true h trivial

end

end

/-- At any time every listed id is that of an enabled channel and no request gets another one,
exactly if every call meets its condition. -/
theorem enabled_channels_listed_iff (parse : String → Option (List String)) (db : ChannelRows)
    (calls : List CacheCall) :
    (∀ js, js <+: calls → (run (CacheCall.step parse) js (.start db)).ListsEnabled ∧
        (run (CacheCall.step parse) js (.start db)).SelectsEnabled) ↔
      Along (CacheCall.step parse) (CacheCall.KeepsEnabled parse) calls (.start db) := by
  have hst : (start db).ListsEnabled := by
    rintro id ⟨group, model, hid⟩
    cases hid
  rw [← invariant_iff_along (I := ChannelCache.ListsEnabled)
    (fun call _ h => step_listsEnabled_iff h call) calls hst]
  exact forall₂_congr fun js _ => ⟨fun h => h.1, fun h => ⟨h, h.selects⟩⟩

def twiceNamed : Channel where
  key := "k1"
  status := .enabled
  weight := some 5
  models := "m,m"
  group := "default"
  priority := some 0
  tag := none
  channelInfo := .zero
  keys := []

def twoKeys : Channel :=
  { twiceNamed with key := "k1\nk2", models := "m", channelInfo := ⟨true, 2, [], 0, .random⟩ }

/-- The status of the channel that a request for the model gets after the calls. -/
def servedAfter (c : Channel) (calls : List CacheCall) :
    Except ChannelCache.SelectError (Option ChannelStatus) :=
  let s := run (CacheCall.step fun _ => none) calls (.start (AList.singleton 1 c))
  (s.getRandomSatisfiedChannelWithFilter id "default" "m" 0 (fun _ => true) 0).map fun p =>
    p.map fun p => p.2.status

/-- A disabled channel is served: one that names its model twice, one of which all keys are
disabled, and one that is put into the cache. -/
theorem disabled_channel_served :
    servedAfter twiceNamed [.initChannelCache, .updateChannelStatus 1 "" .manuallyDisabled] =
        .ok (some .manuallyDisabled) ∧
      servedAfter twoKeys [.initChannelCache, .updateChannelStatus 1 "k1" .autoDisabled,
          .updateChannelStatus 1 "k2" .autoDisabled] =
        .ok (some .autoDisabled) ∧
      servedAfter { twiceNamed with models := "m" } [.initChannelCache,
          .cacheUpdateChannel 1 { twiceNamed with status := .manuallyDisabled }] =
        .ok (some .manuallyDisabled) := by
  decide +kernel

end NewApi.Channels
