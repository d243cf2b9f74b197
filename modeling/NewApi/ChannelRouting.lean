import NewApi.AbilityMirror
import NewApi.ChannelCache

/-!
# Two ways to route a request

A channel for a request is found in the memory cache or, if that is off, by queries on the
tables `channels` and `abilities`. Each way ranks the priorities, bounds the retry and tries a
normalised model name by code of its own. The pool is what the weighted pick is made from.
-/
namespace NewApi.Channels

/-- The rows of `abilities` under their primary key. -/
abbrev AbilityRows := AList fun _ : AbilityKey => Ability

def handleThinkingBudgetModel (name start wildcard : String) : String :=
  if startsWith name start && containsText name "-thinking-" then wildcard else name

/-- Some families of models have one general name. -/
def formatMatchingModelName (name : String) : String :=
  let name :=
    if startsWith name "gemini-2.5-flash-lite" then
      handleThinkingBudgetModel name "gemini-2.5-flash-lite" "gemini-2.5-flash-lite-thinking-*"
    else if startsWith name "gemini-2.5-flash" then
      handleThinkingBudgetModel name "gemini-2.5-flash" "gemini-2.5-flash-thinking-*"
    else if startsWith name "gemini-2.5-pro" then
      handleThinkingBudgetModel name "gemini-2.5-pro" "gemini-2.5-pro-thinking-*"
    else name
  let name := if startsWith name "gpt-4-gizmo" then "gpt-4-gizmo-*" else name
  if startsWith name "gpt-4o-gizmo" then "gpt-4o-gizmo-*" else name

/-- The rows that a selection without the cache reads. -/
structure Routes where
  channels : ChannelRows
  abilities : AbilityRows

inductive RouteError where
  | inconsistent
  | outOfRange
  | notFound (id : ℤ)
  deriving DecidableEq

abbrev AbilityRow := Σ _ : AbilityKey, Ability

/-- The first row at which the weights so far reach the random number. -/
def pickAbility {α : Type} (weight : α → ℕ) : List α → ℤ → Option α
  | [], _ => none
  | a :: as, r =>
    let rest := r - (weight a + 10 : ℕ)
    if rest ≤ 0 then some a else pickAbility weight as rest

def weightSum {α : Type} (weight : α → ℕ) (as : List α) : ℕ := (as.map fun a => weight a + 10).sum

namespace Routes
variable (r : Routes)

/-- The rows where the group and the model match and `enabled` is set. -/
def enabledAbilities (group model : String) : List AbilityRow :=
  r.abilities.entries.filter fun e =>
    decide (e.1.group = group) && decide (e.1.model = model) && e.2.enabled

/-- Retries beyond the last priority stay there. -/
def getPriority (group model : String) (retry : ℤ) : Except RouteError ℤ :=
  match descending ((r.enabledAbilities group model).map fun e => e.2.priority) with
  | [] => .error .inconsistent
  | p :: ps =>
    if ((p :: ps).length : ℤ) ≤ retry then .ok ((p :: ps).getLast (by simp))
    else if retry < 0 then .error .outOfRange
    else .ok ((p :: ps).getD retry.toNat 0)

/-- The priority of the query: the highest, or the one for the retry. -/
def queryPriority (group model : String) (retry : ℤ) : Except RouteError (Option ℤ) :=
  if retry ≠ 0 then (r.getPriority group model retry).map some
  else .ok ((r.enabledAbilities group model).map fun e => e.2.priority).max?

/-- The rows that `getChannelQuery` selects, in the order of their weights. -/
def channelQuery (group model : String) (retry : ℤ) : Except RouteError (List AbilityRow) :=
  (r.queryPriority group model retry).map fun priority =>
    ((r.enabledAbilities group model).filter fun e => decide (some e.2.priority = priority)).insertionSort
      fun a b => b.2.weight ≤ a.2.weight

/-- A random choice among the rows, and the channel of the chosen one; `draw` is the random
number, before it is brought into range. -/
def getChannel (group model : String) (retry : ℤ) (draw : ℕ) :
    Except RouteError (Option (ℤ × Channel)) := do
  let rows ← r.channelQuery group model retry
  if rows = [] then .ok none
  else
    let weight (e : AbilityRow) := e.2.weight
    let chosen := pickAbility weight rows (draw % weightSum weight rows : ℕ)
    let id := (chosen.map fun e => e.1.channelId).getD 0
    match r.channels.lookup id with
    | some c => .ok (some (id, c))
    | none => .error (.notFound id)

/-- The rows for the model, or for its normalised name if there are none. -/
def abilitiesOrNormalized (group model : String) : List AbilityRow :=
  let rows := r.enabledAbilities group model
  if rows = [] ∧ formatMatchingModelName model ≠ model then
    r.enabledAbilities group (formatMatchingModelName model)
  else rows

/-- The rows whose channel is enabled and passes the filter, with that channel. -/
def filteredAbilities (filter : ℤ × Channel → Bool) :
    List AbilityRow → Except RouteError (List (AbilityRow × Channel))
  | [] => .ok []
  | e :: es =>
    match r.channels.lookup e.1.channelId with
    | none => .error (.notFound e.1.channelId)
    | some c => (filteredAbilities filter es).map fun found =>
      if c.status ≠ .enabled ∨ filter (e.1.channelId, c) = false then found
      else (e, c) :: found

def filteredTargets (candidates : List (AbilityRow × Channel)) (retry : ℤ) :
    Except RouteError (List (AbilityRow × Channel)) :=
  match ChannelCache.targetPriority (descending (candidates.map fun p => p.1.2.priority)) retry with
  | none => .error .outOfRange
  | some priority => .ok (candidates.filter fun p => decide (p.1.2.priority = priority))

/-- The candidates of `GetChannelWithFilter` at the priority for the retry; none are found, or
the pick is made from these. -/
def filterQuery (filter : ℤ × Channel → Bool) (group model : String) (retry : ℤ) :
    Except RouteError (List (AbilityRow × Channel)) := do
  let candidates ← r.filteredAbilities filter (r.abilitiesOrNormalized group model)
  if candidates = [] then .ok [] else filteredTargets candidates retry

/-- A channel for a request, without the cache. -/
def getChannelWithFilter (group model : String) (retry : ℤ) (filter : Option (ℤ × Channel → Bool))
    (draw : ℕ) : Except RouteError (Option (ℤ × Channel)) :=
  match filter with
  | none => r.getChannel group model retry draw
  | some f => do
    let targets ← r.filterQuery f group model retry
    let weight (p : AbilityRow × Channel) := p.1.2.weight
    if targets = [] ∨ weightSum weight targets = 0 then .ok none
    else
      let chosen := pickAbility weight targets (draw % weightSum weight targets : ℕ)
      .ok ((chosen.or targets.getLast?).map fun p => (p.1.1.channelId, p.2))

/-- The ids from which the database picks. -/
def pool (group model : String) (retry : ℤ) :
    Option (ℤ × Channel → Bool) → Except RouteError (List ℤ)
  | none => (r.channelQuery group model retry).map fun rows => rows.map fun e => e.1.channelId
  | some f => (r.filterQuery f group model retry).map fun ps => ps.map fun p => p.1.1.channelId

/-- The cache after it was built from the tables; `old` is what it held before. -/
def cache (parse : String → Option (List String)) (old : Table ℤ Channel) : ChannelCache :=
  ChannelCache.initChannelCache parse ⟨r.channels, old, fun _ _ => []⟩

/-- The abilities are those that the channels should have. -/
def Consistent : Prop := ∀ k, r.abilities.lookup k = mirror (fun id => r.channels.lookup id) k

end Routes

/-- The channels that the cache draws from. -/
def ChannelCache.pool (s : ChannelCache) (group model : String) (retry : ℤ)
    (filter : ℤ × Channel → Bool) : Except SelectError (List (ℤ × Channel)) :=
  match resolve s.channelsIDM (s.candidates formatMatchingModelName group model) with
  | .error id => .error (.inconsistent id)
  | .ok found =>
    match found.filter filter with
    | [] => .ok []
    | [p] => .ok [p]
    | p :: q :: ps => targets (p :: q :: ps) retry

open ChannelCache

/-- The ids of a pool; an error leaves none. -/
def poolIds {ε : Type} : Except ε (List ℤ) → Finset ℤ
  | .ok ids => ids.toFinset
  | .error _ => ∅

/-- The selection finds a channel. -/
def Finds {ε α : Type} (result : Except ε (Option α)) : Prop := ∃ a, result = .ok (some a)

variable {ε α : Type} {r : Routes}

theorem finds_some (a : α) : Finds (.ok (some a) : Except ε (Option α)) := ⟨a, rfl⟩

theorem not_finds_none : ¬Finds (.ok none : Except ε (Option α)) := by
  rintro ⟨a, h⟩
  cases h

theorem not_finds_error (e : ε) : ¬Finds (.error e : Except ε (Option α)) := by
  rintro ⟨a, h⟩
  cases h

/-- The filter judges the cached copy of a channel as it judges the row. -/
def ReadsRow (parse : String → Option (List String)) (f : ℤ × Channel → Bool) : Prop :=
  ∀ id old c, f (id, cached parse old c) = f (id, c)

/-- An enabled channel of the group that has the model. -/
def Serves (channels : ChannelRows) (group model : String) (id : ℤ) (c : Channel) : Prop :=
  channels.lookup id = some c ∧ c.status = .enabled ∧ group ∈ c.getGroups ∧ model ∈ c.splitModels

/-- Some channel serves the model. -/
def Listed (channels : ChannelRows) (group model : String) : Prop :=
  ∃ id c, Serves channels group model id c

/-- The keys of the elements whose priority is the one for the retry. -/
def level {α : Type} (key priority : α → ℤ) (as : List α) (retry : ℕ) : Finset ℤ :=
  match targetPriority (descending (as.map priority)) retry with
  | none => ∅
  | some p => ((as.filter fun a => decide (priority a = p)).map key).toFinset

theorem targetPriority_natCast (ps : List ℤ) (retry : ℕ) :
    targetPriority ps retry = ps[min retry (ps.length - 1)]? := by
  unfold targetPriority
  by_cases hlen : (ps.length : ℤ) ≤ retry
  · rw [if_pos hlen]
    cases ps with
    | nil => rfl
    | cons p ps =>
      have hmin : min retry ((p :: ps).length - 1) = (p :: ps).length - 1 := by
        omega
      rw [hmin, if_neg (by rw [List.length_cons]; omega)]
      congr 1
      omega
  · have hmin : min retry (ps.length - 1) = retry := by omega
    rw [if_neg hlen, if_neg (by omega), hmin, Int.toNat_natCast]

theorem targetPriority_mem {ps : List ℤ} (hps : ps ≠ []) (retry : ℕ) :
    ∃ p ∈ ps, targetPriority ps retry = some p := by
  have hpos : 0 < ps.length := List.length_pos_of_ne_nil hps
  have hlt : min retry (ps.length - 1) < ps.length := by omega
  exact ⟨_, List.getElem_mem hlt, (targetPriority_natCast ps retry).trans
    (List.getElem?_eq_getElem hlt)⟩

section
variable {α β : Type} {key priority : α → ℤ} {key' priority' : β → ℤ} {as : List α} {bs : List β}

/-- The level depends only on which keys have which priorities. -/
theorem level_congr
    (h : ∀ i p, (∃ a ∈ as, key a = i ∧ priority a = p) ↔ ∃ b ∈ bs, key' b = i ∧ priority' b = p)
    (retry : ℕ) : level key priority as retry = level key' priority' bs retry := by
  have hprio : descending (as.map priority) = descending (bs.map priority') := by
    apply descending_congr
    intro p
    simp only [List.mem_map]
    constructor
    · rintro ⟨a, ha, rfl⟩
      obtain ⟨b, hb, -, hp⟩ := (h (key a) (priority a)).mp ⟨a, ha, rfl, rfl⟩
      exact ⟨b, hb, hp⟩
    · rintro ⟨b, hb, rfl⟩
      obtain ⟨a, ha, -, hp⟩ := (h (key' b) (priority' b)).mpr ⟨b, hb, rfl, rfl⟩
      exact ⟨a, ha, hp⟩
  unfold level
  rw [hprio]
  split
  · rfl
  next p hp =>
    ext i
    simp only [List.mem_toFinset, List.mem_map, List.mem_filter, decide_eq_true_eq]
    constructor
    · rintro ⟨a, ⟨ha, hpa⟩, hi⟩
      obtain ⟨b, hb, hib, hpb⟩ := (h i p).mp ⟨a, ha, hi, hpa⟩
      exact ⟨b, ⟨hb, hpb⟩, hib⟩
    · rintro ⟨b, ⟨hb, hpb⟩, hi⟩
      obtain ⟨a, ha, hia, hpa⟩ := (h i p).mpr ⟨b, hb, hi, hpb⟩
      exact ⟨a, ⟨ha, hpa⟩, hia⟩

theorem level_eq_empty_iff {retry : ℕ} : level key priority as retry = ∅ ↔ as = [] := by
  constructor
  · intro hemp
    by_contra has
    have hne : descending (as.map priority) ≠ [] := by
      rw [Ne, descending_eq_nil, List.map_eq_nil_iff]
      exact has
    obtain ⟨p, hp, htgt⟩ := targetPriority_mem hne retry
    obtain ⟨a, ha, rfl⟩ := List.mem_map.mp (mem_descending.mp hp)
    rw [level, htgt] at hemp
    have hmem : key a ∈ ((as.filter fun b => decide (priority b = priority a)).map key).toFinset := by
      simp only [List.mem_toFinset, List.mem_map, List.mem_filter, decide_eq_true_eq]
      exact ⟨a, ⟨ha, rfl⟩, rfl⟩
    exact Finset.eq_empty_iff_forall_notMem.mp hemp (key a) hmem
  · rintro rfl
    rfl

variable {parse : String → Option (List String)} {old : Table ℤ Channel} {group model : String}

@[simp] theorem cached_getPriority (o : Option Channel) (c : Channel) :
    (cached parse o c).getPriority = c.getPriority := by
  unfold cached
  split <;> rfl

theorem mem_entries_iff {id j : ℤ} {c : Channel} : j ∈ entries group model id c ↔
      j = id ∧ c.status = .enabled ∧ group ∈ c.getGroups ∧ model ∈ c.splitModels := by
  unfold entries
  by_cases henb : c.status = .enabled
  · rw [if_neg (not_not.mpr henb)]
    simp only [List.mem_flatMap]
    constructor
    · rintro ⟨g, hg, m, hm, hj⟩
      split at hj
      next h =>
        obtain ⟨rfl, rfl⟩ := h
        exact ⟨List.mem_singleton.mp hj, henb, hg, hm⟩
      · cases hj
    · rintro ⟨rfl, -, hg, hm⟩
      exact ⟨group, hg, model, hm, by simp⟩
  · rw [if_pos henb]
    exact iff_of_false List.not_mem_nil fun h => henb h.2.1

/-- The index lists the channels that serve the model. -/
theorem mem_index_iff {id : ℤ} :
    id ∈ (r.cache parse old).index group model ↔ ∃ c, Serves r.channels group model id c := by
  refine (List.mem_insertionSort _).trans ?_
  rw [List.mem_flatMap]
  constructor
  · rintro ⟨e, he, hid⟩
    obtain ⟨rfl, hrest⟩ := mem_entries_iff.mp hid
    exact ⟨e.2, AList.mem_lookup_iff.mpr he, hrest⟩
  · rintro ⟨c, hlk, hrest⟩
    exact ⟨⟨id, c⟩, AList.mem_lookup_iff.mp hlk, mem_entries_iff.mpr ⟨rfl, hrest⟩⟩

theorem index_eq_nil_iff :
    (r.cache parse old).index group model = [] ↔ ¬Listed r.channels group model := by
  simp [List.eq_nil_iff_forall_not_mem, mem_index_iff, Listed]

/-- If every id has a channel, all of them are found. -/
theorem resolve_eq_ok {channelsIDM : Table ℤ Channel} {ids : List ℤ}
    (h : ∀ id ∈ ids, ∃ c, channelsIDM id = some c) : ∃ found, resolve channelsIDM ids = .ok found ∧
      ∀ p, p ∈ found ↔ p.1 ∈ ids ∧ channelsIDM p.1 = some p.2 := by
  refine ⟨ids.filterMap fun id => (channelsIDM id).map (id, ·), ?_, fun p => ?_⟩
  · induction ids with
    | nil => rfl
    | cons id ids ih =>
      obtain ⟨c, hc⟩ := h id List.mem_cons_self
      rw [resolve, hc, ih fun j hj => h j (List.mem_cons_of_mem _ hj)]
      simp [hc, Except.map]
  · simp only [List.mem_filterMap, Option.map_eq_some_iff]
    constructor
    · rintro ⟨id, hid, c, hc, rfl⟩
      exact ⟨hid, hc⟩
    · rintro ⟨hid, hc⟩
      exact ⟨p.1, hid, p.2, hc, rfl⟩

/-- The model name by which the cache finds its candidates. -/
theorem candidates_eq (h : Listed r.channels group model) :
    (r.cache parse old).candidates formatMatchingModelName group model =
      (r.cache parse old).index group model :=
  if_neg fun hnil => index_eq_nil_iff.mp hnil h

theorem candidates_eq_normalized (h : ¬Listed r.channels group model) :
    (r.cache parse old).candidates formatMatchingModelName group model =
      (r.cache parse old).index group (formatMatchingModelName model) :=
  if_pos (index_eq_nil_iff.mpr h)

theorem poolIds_targets (found : List (ℤ × Channel)) (retry : ℕ) :
    poolIds ((targets found retry).map fun ps => ps.map Prod.fst) =
      level Prod.fst (fun p => p.2.getPriority) found retry := by
  have hsame : sortedUniquePriorities found = descending (found.map fun p => p.2.getPriority) := rfl
  rw [targets, level, hsame]
  cases targetPriority (descending (found.map fun p => p.2.getPriority)) retry <;> rfl

theorem targets_singleton (p : ℤ × Channel) (retry : ℕ) : targets [p] retry = .ok [p] := by
  have hsame : sortedUniquePriorities [p] = [p.2.getPriority] := rfl
  rw [targets, hsame, targetPriority_natCast]
  simp

variable {f : ℤ × Channel → Bool}

/-- The pool of the cache is a level of the channels that serve the name and pass the filter. -/
theorem cache_pool {name : String} (hf : ReadsRow parse f)
    (hname : (r.cache parse old).candidates formatMatchingModelName group model =
      (r.cache parse old).index group name) (retry : ℕ) : ∃ found : List (ℤ × Channel),
      poolIds (((r.cache parse old).pool group model retry f).map fun ps => ps.map Prod.fst) =
        level Prod.fst (fun p => p.2.getPriority) found retry ∧
      ∀ i p, (∃ a ∈ found, a.1 = i ∧ a.2.getPriority = p) ↔
        ∃ c, Serves r.channels group name i c ∧ f (i, c) = true ∧ c.getPriority = p := by
  have hcac : ∀ id, (r.cache parse old).channelsIDM id =
      (r.channels.lookup id).map (cached parse (old id)) := fun id => rfl
  have hall : ∀ id ∈ (r.cache parse old).index group name,
      ∃ c, (r.cache parse old).channelsIDM id = some c := by
    intro id hid
    obtain ⟨c, hc, -⟩ := mem_index_iff.mp hid
    exact ⟨_, by rw [hcac, hc]; rfl⟩
  obtain ⟨found, hfnd, hmem⟩ := resolve_eq_ok hall
  refine ⟨found.filter f, ?_, fun i p => ?_⟩
  · rw [pool, hname, hfnd, ← poolIds_targets]
    dsimp only
    split
    next hnil => rw [hnil]; rfl
    next p hp => rw [hp, targets_singleton]
    next p q ps hps => rw [hps]
  · simp only [List.mem_filter, hmem, mem_index_iff, hcac, Option.map_eq_some_iff]
    constructor
    · rintro ⟨⟨j, d⟩, ⟨⟨⟨c, hc⟩, c', hc', hd⟩, hpass⟩, hj, hp⟩
      dsimp only at hc hc' hd hj hp
      subst hj hp hd
      cases hc.1.symm.trans hc'
      exact ⟨c, hc, (hf _ _ _).symm.trans hpass, (cached_getPriority _ _).symm⟩
    · rintro ⟨c, hc, hpass, rfl⟩
      exact ⟨(i, cached parse (old i) c),
        ⟨⟨⟨c, hc⟩, c, hc.1, rfl⟩, (hf _ _ _).trans hpass⟩, rfl, cached_getPriority _ _⟩

theorem poolIds_ok_ne_empty {ε : Type} (ids : List ℤ) :
    poolIds (.ok ids : Except ε (List ℤ)) ≠ ∅ ↔ ids ≠ [] :=
  not_congr (List.toFinset_eq_empty_iff ids)

/-- A choice finds something if and only if there is something to choose from. -/
theorem finds_bind {β : Type} {x : Except ε (List β)} {k : List β → Except ε (Option α)}
    {key : β → ℤ} (hnil : ¬Finds (k [])) (hk : ∀ bs, x = .ok bs → bs ≠ [] → Finds (k bs)) :
    Finds (x >>= k) ↔ poolIds (x.map fun bs => bs.map key) ≠ ∅ := by
  cases x with
  | error e => exact iff_of_false (not_finds_error e) fun h => h rfl
  | ok bs =>
    refine Iff.trans ?_ (poolIds_ok_ne_empty _).symm
    rw [Ne, List.map_eq_nil_iff]
    by_cases hbs : bs = []
    · exact iff_of_false (hbs ▸ hnil) fun h => h hbs
    · exact iff_of_true (hk bs rfl hbs) hbs

theorem cache_finds (s : ChannelCache) (f : ℤ × Channel → Bool) (retry : ℤ) (draw : ℕ) :
    Finds (s.getRandomSatisfiedChannelWithFilter formatMatchingModelName group model retry f
        draw) ↔
      poolIds ((s.pool group model retry f).map fun ps => ps.map Prod.fst) ≠ ∅ := by
  unfold getRandomSatisfiedChannelWithFilter pool
  cases resolve s.channelsIDM (s.candidates formatMatchingModelName group model) with
  | error id => exact iff_of_false (not_finds_error _) fun h => h rfl
  | ok found =>
    dsimp only
    rcases found.filter f with _ | ⟨p, _ | ⟨q, ps⟩⟩
    · exact iff_of_false not_finds_none fun h => h rfl
    · exact iff_of_true (finds_some p) ((poolIds_ok_ne_empty _).mpr (List.cons_ne_nil _ _))
    · dsimp only
      cases targets (p :: q :: ps) retry with
      | error e => exact iff_of_false (not_finds_error _) fun h => h rfl
      | ok ts =>
        dsimp only
        refine Iff.trans ?_ (poolIds_ok_ne_empty _).symm
        rw [Ne, List.map_eq_nil_iff]
        by_cases hnil : ts = []
        · have hnone : choose ts draw = none := by
            rw [hnil]
            rfl
          rw [hnone]
          exact iff_of_false (not_finds_error _) fun h => h hnil
        · obtain ⟨a, -, ha⟩ := exists_choose hnil draw
          rw [ha]
          exact iff_of_true (finds_some a) hnil

theorem mem_enabledAbilities (h : r.Consistent) (e : AbilityRow) :
    e ∈ r.enabledAbilities group model ↔ e.1.group = group ∧ e.1.model = model ∧
      ∃ c, Serves r.channels group model e.1.channelId c ∧ e.2 = c.ability := by
  have hent : e ∈ r.abilities.entries ↔
      mirror (fun id => r.channels.lookup id) e.1 = some e.2 := by
    rw [← h e.1]
    exact AList.mem_lookup_iff.symm
  rw [Routes.enabledAbilities, List.mem_filter, hent]
  simp only [Bool.and_eq_true, decide_eq_true_eq, mirror, Option.bind_eq_some_iff, Channel.rows]
  constructor
  · rintro ⟨⟨c, hc, hrow⟩, ⟨hgrp, hmod⟩, henb⟩
    split at hrow
    next hsrv =>
      have hab : c.ability = e.2 := Option.some.inj hrow
      rw [← hab] at henb
      rw [hgrp, hmod] at hsrv
      exact ⟨hgrp, hmod, c, ⟨hc, of_decide_eq_true henb, hsrv⟩, hab.symm⟩
    · cases hrow
  · rintro ⟨rfl, rfl, c, ⟨hc, henb, hsrv⟩, hab⟩
    refine ⟨⟨c, hc, ?_⟩, ⟨rfl, rfl⟩, ?_⟩
    · rw [if_pos hsrv, hab]
    · rw [hab]
      exact decide_eq_true henb

/-- The keys and priorities of the rows are those of the channels that serve the model. -/
theorem enabledAbilities_spec (h : r.Consistent) (i p : ℤ) :
    (∃ e ∈ r.enabledAbilities group model, e.1.channelId = i ∧ e.2.priority = p) ↔
      ∃ c, Serves r.channels group model i c ∧ c.getPriority = p := by
  constructor
  · rintro ⟨e, he, rfl, rfl⟩
    obtain ⟨-, -, c, hc, hab⟩ := (mem_enabledAbilities h e).mp he
    exact ⟨c, hc, by rw [hab]; rfl⟩
  · rintro ⟨c, hc, rfl⟩
    exact ⟨⟨⟨group, model, i⟩, c.ability⟩, (mem_enabledAbilities h _).mpr ⟨rfl, rfl, c, hc, rfl⟩,
      rfl, rfl⟩

theorem enabledAbilities_eq_nil (h : r.Consistent) :
    r.enabledAbilities group model = [] ↔ ¬Listed r.channels group model := by
  rw [List.eq_nil_iff_forall_not_mem]
  constructor
  · rintro hnone ⟨i, c, hc⟩
    obtain ⟨e, he, -⟩ := (enabledAbilities_spec h i c.getPriority).mpr ⟨c, hc, rfl⟩
    exact hnone e he
  · intro hlist e he
    obtain ⟨-, -, c, hc, -⟩ := (mem_enabledAbilities h e).mp he
    exact hlist ⟨_, c, hc⟩

variable {α : Type} {as : List α} (retry : ℕ)

theorem getPriority_natCast : r.getPriority group model retry =
      match targetPriority
        (descending ((r.enabledAbilities group model).map fun e => e.2.priority)) retry with
      | none => .error .inconsistent
      | some p => .ok p := by
  rw [Routes.getPriority, targetPriority_natCast]
  cases descending ((r.enabledAbilities group model).map fun e => e.2.priority) with
  | nil => rfl
  | cons p ps =>
    have hlast : (p :: ps).getLast (by simp) = (p :: ps)[(p :: ps).length - 1] :=
      List.getLast_eq_getElem _
    dsimp only
    by_cases hlen : (((p :: ps).length : ℕ) : ℤ) ≤ retry
    · have hmin : min retry ((p :: ps).length - 1) = (p :: ps).length - 1 := by omega
      rw [if_pos hlen, hlast, hmin, List.getElem?_eq_getElem (by simp)]
    have hlt : retry < (p :: ps).length := by omega
    have hmin : min retry ((p :: ps).length - 1) = retry := by omega
    rw [if_neg hlen, if_neg (by omega), hmin, Int.toNat_natCast,
      List.getD_eq_getElem?_getD, List.getElem?_eq_getElem hlt, Option.getD_some]

theorem queryPriority_natCast {priorities : List ℤ}
    (h : priorities = descending ((r.enabledAbilities group model).map fun e => e.2.priority)) :
    r.queryPriority group model retry =
      match targetPriority priorities retry with
      | none => if retry = 0 then .ok none else .error .inconsistent
      | some p => .ok (some p) := by
  unfold Routes.queryPriority
  by_cases hzero : retry = 0
  · subst hzero
    have hhead : targetPriority priorities (0 : ℕ) = priorities.head? := by
      rw [targetPriority_natCast, Nat.zero_min, List.head?_eq_getElem?]
    rw [if_neg (by simp), ← head?_descending, ← h, hhead]
    cases priorities.head? <;> rfl
  · rw [if_pos (by exact_mod_cast hzero), getPriority_natCast, ← h]
    cases targetPriority priorities retry with
    | none => rw [if_neg hzero]; rfl
    | some p => rfl

/-- Without a filter the pool of the database is a level of the rows for the model. -/
theorem channelQuery_pool :
    poolIds (r.pool group model retry none) = level (fun e : AbilityRow => e.1.channelId)
      (fun e => e.2.priority) (r.enabledAbilities group model) retry := by
  rw [Routes.pool, Routes.channelQuery, level, queryPriority_natCast retry rfl]
  cases targetPriority
      (descending ((r.enabledAbilities group model).map fun e => e.2.priority)) retry with
  | none =>
    dsimp only
    split
    · simp [poolIds, Except.map]
    · rfl
  | some p =>
    ext i
    simp [poolIds, Except.map]

variable (weight : α → ℕ)

theorem pickAbility_eq_drawn (as : List α) (draw : ℕ) :
    pickAbility weight as draw = drawn (fun a => weight a + 10) as (draw - 1) := by
  induction as generalizing draw with
  | nil => rfl
  | cons a as ih =>
    rw [pickAbility, drawn]
    by_cases hlt : draw - 1 < weight a + 10
    · rw [if_pos (by omega), if_pos hlt]
    · rw [if_neg (by omega), if_neg hlt, ← Nat.cast_sub (by omega), ih]
      congr 1
      omega

theorem weightSum_pos (has : as ≠ []) : 0 < weightSum weight as := by
  obtain ⟨a, as, rfl⟩ := List.exists_cons_of_ne_nil has
  rw [weightSum, List.map_cons, List.sum_cons]
  omega

theorem pickAbility_mod (has : as ≠ []) (draw : ℕ) :
    ∃ a ∈ as, pickAbility weight as (draw % weightSum weight as : ℕ) = some a := by
  rw [pickAbility_eq_drawn]
  have hlt := Nat.mod_lt draw (weightSum_pos weight has)
  exact exists_drawn _ (lt_of_le_of_lt (Nat.sub_le _ 1) hlt)

variable {rows : List AbilityRow}

theorem channelQuery_mem (h : r.Consistent) {retry : ℤ}
    (hrows : r.channelQuery group model retry = .ok rows) {e : AbilityRow} (he : e ∈ rows) :
    ∃ c, r.channels.lookup e.1.channelId = some c := by
  rw [Routes.channelQuery] at hrows
  cases hprio : r.queryPriority group model retry with
  | error e => rw [hprio] at hrows; cases hrows
  | ok priority =>
    rw [hprio] at hrows
    cases hrows
    obtain ⟨he, -⟩ := List.mem_filter.mp ((List.mem_insertionSort _).mp he)
    obtain ⟨-, -, c, hc, -⟩ := (mem_enabledAbilities h e).mp he
    exact ⟨c, hc.1⟩

theorem getChannel_finds (h : r.Consistent) (retry : ℤ) (draw : ℕ) :
    Finds (r.getChannel group model retry draw) ↔ poolIds (r.pool group model retry none) ≠ ∅ := by
  refine finds_bind not_finds_none fun rows hrows hnil => ?_
  obtain ⟨e, he, hpick⟩ := pickAbility_mod (fun e : AbilityRow => e.2.weight) hnil draw
  obtain ⟨c, hc⟩ := channelQuery_mem h hrows he
  rw [if_neg hnil]
  dsimp only
  rw [hpick, Option.map_some, Option.getD_some, hc]
  exact finds_some _

/-- Every ability finds its channel. -/
theorem filteredAbilities_eq_ok (h : ∀ e ∈ rows, ∃ c, r.channels.lookup e.1.channelId = some c) :
    ∃ found, r.filteredAbilities f rows = .ok found ∧
      ∀ p, p ∈ found ↔ p.1 ∈ rows ∧ r.channels.lookup p.1.1.channelId = some p.2 ∧
        p.2.status = .enabled ∧ f (p.1.1.channelId, p.2) = true := by
  refine ⟨rows.filterMap fun e => ((r.channels.lookup e.1.channelId).filter fun c =>
    decide (c.status = .enabled) && f (e.1.channelId, c)).map (e, ·), ?_, fun p => ?_⟩
  · induction rows with
    | nil => rfl
    | cons e rows ih =>
      obtain ⟨c, hc⟩ := h e List.mem_cons_self
      rw [Routes.filteredAbilities, hc, ih fun e' he' => h e' (List.mem_cons_of_mem _ he')]
      by_cases hkeep : c.status = .enabled ∧ f (e.1.channelId, c) = true
      · simp [hc, Except.map, hkeep]
      · rw [List.filterMap_cons_none (by simpa [hc] using hkeep)]
        rw [not_and_or, Bool.not_eq_true] at hkeep
        simp [Except.map, hkeep]
  · simp only [List.mem_filterMap, Option.map_eq_some_iff, Option.filter_eq_some_iff,
      Bool.and_eq_true, decide_eq_true_eq]
    constructor
    · rintro ⟨e, he, c, ⟨hc, hpass⟩, rfl⟩
      exact ⟨he, hc, hpass⟩
    · exact fun ⟨he, hc, hpass⟩ => ⟨p.1, he, p.2, ⟨hc, hpass⟩, rfl⟩

theorem abilitiesOrNormalized_eq (h : r.Consistent) (hlist : Listed r.channels group model) :
    r.abilitiesOrNormalized group model = r.enabledAbilities group model :=
  if_neg fun hnil => (enabledAbilities_eq_nil h).mp hnil.1 hlist

theorem abilitiesOrNormalized_eq_normalized (h : r.Consistent)
    (hlist : ¬Listed r.channels group model) : r.abilitiesOrNormalized group model =
      r.enabledAbilities group (formatMatchingModelName model) := by
  have hnil := (enabledAbilities_eq_nil h).mpr hlist
  unfold Routes.abilitiesOrNormalized
  by_cases hname : formatMatchingModelName model = model
  · rw [if_neg fun h => h.2 hname, hname]
  · rw [if_pos ⟨hnil, hname⟩]

theorem poolIds_filteredTargets (candidates : List (AbilityRow × Channel)) (retry : ℕ) :
    poolIds ((Routes.filteredTargets candidates retry).map
        fun ps => ps.map fun p => p.1.1.channelId) =
      level (fun p => p.1.1.channelId) (fun p => p.1.2.priority) candidates retry := by
  rw [Routes.filteredTargets, level]
  cases targetPriority (descending (candidates.map fun p => p.1.2.priority)) retry <;>
    rfl

/-- With a filter the pool of the database is a level of the channels that serve the name and
pass. -/
theorem filterQuery_pool (h : r.Consistent) {name : String} (f : ℤ × Channel → Bool)
    (hname : r.abilitiesOrNormalized group model = r.enabledAbilities group name) (retry : ℕ) :
    ∃ found : List (AbilityRow × Channel), poolIds (r.pool group model retry (some f)) =
        level (fun p => p.1.1.channelId) (fun p => p.1.2.priority) found retry ∧
      ∀ i p, (∃ a ∈ found, a.1.1.channelId = i ∧ a.1.2.priority = p) ↔
        ∃ c, Serves r.channels group name i c ∧ f (i, c) = true ∧ c.getPriority = p := by
  have hall : ∀ e ∈ r.enabledAbilities group name,
      ∃ c, r.channels.lookup e.1.channelId = some c := by
    intro e he
    obtain ⟨-, -, c, hc, -⟩ := (mem_enabledAbilities h e).mp he
    exact ⟨c, hc.1⟩
  obtain ⟨found, hfnd, hmem⟩ := filteredAbilities_eq_ok (f := f) hall
  refine ⟨found, ?_, fun i p => ?_⟩
  · rw [Routes.pool, Routes.filterQuery, hname, hfnd, ← poolIds_filteredTargets]
    simp only [bind, Except.bind]
    split
    next hnil => rw [hnil]; rfl
    · rfl
  · simp only [hmem, mem_enabledAbilities h]
    constructor
    · rintro ⟨⟨e, c'⟩, ⟨⟨-, -, c, hc, hab⟩, hc', -, hpass⟩, hi, hp⟩
      subst hi
      cases hc.1.symm.trans hc'
      exact ⟨_, hc, hpass, by rw [← hp, hab]; rfl⟩
    · rintro ⟨c, hc, hpass, rfl⟩
      exact ⟨(⟨⟨group, name, i⟩, c.ability⟩, c),
        ⟨⟨rfl, rfl, c, hc, rfl⟩, hc.1, hc.2.1, hpass⟩, rfl, rfl⟩

theorem getChannelWithFilter_finds (f : ℤ × Channel → Bool) (retry : ℤ) (draw : ℕ) :
    Finds (r.getChannelWithFilter group model retry (some f) draw) ↔
      poolIds (r.pool group model retry (some f)) ≠ ∅ := by
  refine finds_bind (by rw [if_pos (.inl rfl)]; exact not_finds_none) fun targets _ hnil => ?_
  have hpos := weightSum_pos (fun p : AbilityRow × Channel => p.1.2.weight) hnil
  obtain ⟨p, -, hpick⟩ := pickAbility_mod (fun p : AbilityRow × Channel => p.1.2.weight) hnil draw
  rw [if_neg (not_or.mpr ⟨hnil, hpos.ne'⟩), hpick]
  exact finds_some _

end

/-- The two ways pick from the same channels, and one finds a channel if the other does, whatever
the random numbers are. -/
def Routes.Agree (r : Routes) (parse : String → Option (List String)) (old : Table ℤ Channel)
    (group model : String) (retry : ℕ) (filter : Option (ℤ × Channel → Bool)) : Prop :=
  let pass := filter.getD fun _ => true
  poolIds (((r.cache parse old).pool group model retry pass).map fun ps => ps.map Prod.fst) =
      poolIds (r.pool group model retry filter) ∧
    ∀ draw draw', Finds ((r.cache parse old).getRandomSatisfiedChannelWithFilter
        formatMatchingModelName group model retry pass draw) ↔
      Finds (r.getChannelWithFilter group model retry filter draw')

section
variable (h : r.Consistent)
include h

/-- A channel is found iff there is one to draw from. -/
theorem getChannelWithFilter_finds_iff (group model : String) (retry : ℤ)
    (filter : Option (ℤ × Channel → Bool)) (draw : ℕ) :
    Finds (r.getChannelWithFilter group model retry filter draw) ↔
      poolIds (r.pool group model retry filter) ≠ ∅ := by
  cases filter with
  | none => exact getChannel_finds h retry draw
  | some f => exact getChannelWithFilter_finds f retry draw

theorem agree_iff {parse : String → Option (List String)} {old : Table ℤ Channel}
    {group model : String} {retry : ℕ} {filter : Option (ℤ × Channel → Bool)} :
    r.Agree parse old group model retry filter ↔
      poolIds (((r.cache parse old).pool group model retry
          (filter.getD fun _ => true)).map fun ps => ps.map Prod.fst) =
        poolIds (r.pool group model retry filter) := by
  refine ⟨fun hagree => hagree.1, fun hpools => ⟨hpools, fun draw draw' => ?_⟩⟩
  rw [cache_finds, getChannelWithFilter_finds_iff h, hpools]

/-- With a filter the two ways always agree. -/
theorem agree_filter {parse : String → Option (List String)}
    (old : Table ℤ Channel) (group model : String) (retry : ℕ) {f : ℤ × Channel → Bool}
    (hf : ReadsRow parse f) : r.Agree parse old group model retry (some f) := by
  have hname : ∃ name, (r.cache parse old).candidates formatMatchingModelName group model =
      (r.cache parse old).index group name ∧
      r.abilitiesOrNormalized group model = r.enabledAbilities group name := by
    by_cases hlist : Listed r.channels group model
    · exact ⟨model, candidates_eq hlist, abilitiesOrNormalized_eq h hlist⟩
    · exact ⟨formatMatchingModelName model, candidates_eq_normalized hlist,
        abilitiesOrNormalized_eq_normalized h hlist⟩
  obtain ⟨name, hcache, hrows⟩ := hname
  obtain ⟨found, hpool, hfnd⟩ := cache_pool hf hcache retry
  obtain ⟨found', hpool', hfound'⟩ := filterQuery_pool h f hrows retry
  rw [agree_iff h, Option.getD_some, hpool, hpool']
  exact level_congr (fun i p => (hfnd i p).trans (hfound' i p).symm) retry

/-- Without a filter they agree iff the model is listed, or its normalised name is not. -/
theorem agree_no_filter_iff (parse : String → Option (List String))
    (old : Table ℤ Channel) (group model : String) (retry : ℕ) :
    r.Agree parse old group model retry none ↔ Listed r.channels group model ∨
      ¬Listed r.channels group (formatMatchingModelName model) := by
  have hall : ReadsRow parse fun _ => true := fun _ _ _ => rfl
  rw [agree_iff h, Option.getD_none, channelQuery_pool]
  by_cases hlist : Listed r.channels group model
  · have hcache : (r.cache parse old).candidates formatMatchingModelName group model =
        (r.cache parse old).index group model := candidates_eq hlist
    obtain ⟨found, hpool, hfnd⟩ := cache_pool hall hcache retry
    refine iff_of_true ?_ (.inl hlist)
    rw [hpool]
    refine level_congr (fun i p => (hfnd i p).trans ?_) retry
    simp only [true_and]
    exact (enabledAbilities_spec h i p).symm
  have hcache : (r.cache parse old).candidates formatMatchingModelName group model =
      (r.cache parse old).index group (formatMatchingModelName model) :=
    candidates_eq_normalized hlist
  obtain ⟨found, hpool, hfnd⟩ := cache_pool hall hcache retry
  rw [hpool, (enabledAbilities_eq_nil h).mpr hlist, level_eq_empty_iff.mpr rfl,
    level_eq_empty_iff, or_iff_right hlist, List.eq_nil_iff_forall_not_mem]
  constructor
  · rintro hnone ⟨i, c, hc⟩
    obtain ⟨a, ha, -⟩ := (hfnd i c.getPriority).mpr ⟨c, hc, rfl, rfl⟩
    exact hnone a ha
  · intro hnot a ha
    obtain ⟨c, hc, -⟩ := (hfnd _ _).mp ⟨a, ha, rfl, rfl⟩
    exact hnot ⟨_, c, hc⟩

end

/-- For consistent tables the memory cache and the database route alike exactly if there is a
filter, or the model itself is listed, or its normalised name is not. -/
theorem routing_agrees_iff (r : Routes) (h : r.Consistent) (parse : String → Option (List String))
    (old : Table ℤ Channel) (group model : String) (retry : ℕ)
    (filter : Option (ℤ × Channel → Bool)) (hfilter : ∀ f ∈ filter, ReadsRow parse f) :
    r.Agree parse old group model retry filter ↔ filter.isSome ∨ Listed r.channels group model ∨
        ¬Listed r.channels group (formatMatchingModelName model) := by
  cases filter with
  | none =>
    rw [agree_no_filter_iff h]
    simp
  | some f => exact iff_of_true (agree_filter h old group model retry (hfilter f rfl)) (.inl rfl)

def gizmoChannel : Channel :=
  { twiceNamed with models := "gpt-4-gizmo-*" }

def gizmoRoutes : Routes where
  channels := AList.singleton 1 gizmoChannel
  abilities := AList.singleton ⟨"default", "gpt-4-gizmo-*", 1⟩ gizmoChannel.ability

theorem lookup_singleton {β : Type} [DecidableEq α] (a a' : α) (b : β) :
    (AList.singleton a b : AList fun _ : α => β).lookup a' = if a' = a then some b else none := by
  rw [← AList.insert_empty]
  split
  next h => rw [h, AList.lookup_insert]
  next h => rw [AList.lookup_insert_ne h, AList.lookup_empty]

theorem gizmoRoutes_consistent : gizmoRoutes.Consistent := by
  have hgs : gizmoChannel.getGroups = ["default"] := by decide +kernel
  have hms : gizmoChannel.splitModels = ["gpt-4-gizmo-*"] := by decide +kernel
  rintro ⟨group, model, id⟩
  simp only [gizmoRoutes, mirror, lookup_singleton, AbilityKey.mk.injEq, Channel.rows]
  by_cases hid : id = 1
  · simp [hid, hgs, hms]
  · simp [hid]

theorem routing_agrees_iff_gizmo :
    gizmoRoutes.Agree (fun _ => none) Table.empty "default" "gpt-4-gizmo-*" 1 none := by
  refine (routing_agrees_iff gizmoRoutes gizmoRoutes_consistent (fun _ => none) Table.empty
    "default" "gpt-4-gizmo-*" 1 none nofun).mpr (.inr (.inl ?_))
  exact ⟨1, gizmoChannel, rfl, rfl, by decide +kernel, by decide +kernel⟩

/-- The cache finds the channel by the normalised name, and the database does not. -/
theorem routing_differs : gizmoRoutes.Consistent ∧
      (gizmoRoutes.cache (fun _ => none) Table.empty).getRandomSatisfiedChannelWithFilter
          formatMatchingModelName "default" "gpt-4-gizmo-x" 0 (fun _ => true) 0 =
        .ok (some (1, gizmoChannel)) ∧
      gizmoRoutes.getChannelWithFilter "default" "gpt-4-gizmo-x" 0 none 0 = .ok none ∧
      gizmoRoutes.getChannelWithFilter "default" "gpt-4-gizmo-x" 0 (some fun _ => true) 0 =
        .ok (some (1, gizmoChannel)) := by
  refine ⟨gizmoRoutes_consistent, ?_⟩
  decide +kernel

end NewApi.Channels
