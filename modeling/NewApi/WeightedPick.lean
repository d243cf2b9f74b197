import NewApi.ChannelRouting

/-!
# The shares of the channels in the weighted picks

A pick takes a random number below the sum of the weights. The share of a channel is the number of
draws below that sum by which it is picked, in the memory cache (`model/channel_cache.go`) and in
the database (`model/ability.go`).
-/
namespace NewApi.Channels
open ChannelCache

theorem exists_targets {sat : List (ℤ × Channel)} (hsat : sat ≠ []) (retry : ℕ) :
    let priorities := descending (sat.map fun p => p.2.getPriority)
    ∃ target, priorities[min retry (priorities.length - 1)]? = some target ∧
      sat.filter (fun p => decide (p.2.getPriority = target)) ≠ [] ∧
      targets sat retry = .ok (sat.filter fun p => decide (p.2.getPriority = target)) := by
  have hne : descending (sat.map fun p => p.2.getPriority) ≠ [] := by simpa [descending_eq_nil]
  obtain ⟨target, hmem, htgt⟩ := targetPriority_mem hne retry
  refine ⟨target, (targetPriority_natCast _ _).symm.trans htgt, ?_, ?_⟩
  · obtain ⟨p, hp, rfl⟩ := List.mem_map.mp (mem_descending.mp hmem)
    exact List.ne_nil_of_mem (List.mem_filter.mpr ⟨hp, by simp⟩)
  · change targetPriority (sortedUniquePriorities sat) retry = some target at htgt
    rw [targets, htgt]

/-- The choice is made from the channels of the level, also if only one satisfies the filter. -/
theorem selected_eq {s : ChannelCache} {normalize : String → String} {group model : String}
    {filter : ℤ × Channel → Bool} {found : List (ℤ × Channel)} {retry : ℕ}
    (hfnd : resolve s.channelsIDM (s.candidates normalize group model) = .ok found)
    {ts : List (ℤ × Channel)} (hts : targets (found.filter filter) retry = .ok ts) (hne : ts ≠ [])
    (draw : ℕ) : ∃ p ∈ ts, choose ts draw = some p ∧
      s.getRandomSatisfiedChannelWithFilter normalize group model retry filter draw =
        .ok (some p) := by
  obtain ⟨p, hmem, hp⟩ := exists_choose hne draw
  refine ⟨p, hmem, hp, ?_⟩
  unfold getRandomSatisfiedChannelWithFilter
  rw [hfnd]
  dsimp only
  rcases hsat : found.filter filter with _ | ⟨q, _ | ⟨q', qs⟩⟩
  · rw [hsat] at hts
    cases hts
  · rw [hsat, targets_singleton] at hts
    cases hts
    rw [List.mem_singleton.mp hmem]
  · rw [hsat] at hts
    simp only [hts, hp]

/-- If a candidate satisfies the filter, the cache picks one at the level of the retry, and each
by as many draws as it has weight, for each time that it is listed. -/
theorem cached_pick_weight (s : ChannelCache) (normalize : String → String) (group model : String)
    (filter : ℤ × Channel → Bool) (retry : ℕ) (found : List (ℤ × Channel))
    (hfound : resolve s.channelsIDM (s.candidates normalize group model) = .ok found)
    (hsat : found.filter filter ≠ []) :
    let pick := s.getRandomSatisfiedChannelWithFilter normalize group model retry filter
    let priorities := descending ((found.filter filter).map fun p => p.2.getPriority)
    ∃ target, priorities[min retry (priorities.length - 1)]? = some target ∧
      let ts := (found.filter filter).filter fun p => decide (p.2.getPriority = target)
      (∀ draw, ∃ p ∈ ts, pick draw = .ok (some p)) ∧
        ∀ p, Nat.count (fun draw => pick draw = .ok (some p)) (ts.map (effectiveWeight ts)).sum =
          ts.count p * effectiveWeight ts p := by
  obtain ⟨target, hlevel, hne, hts⟩ := exists_targets hsat retry
  have hsel := selected_eq hfound hts hne
  refine ⟨target, hlevel, fun draw => ?_, fun p => ?_⟩
  · obtain ⟨p, hp, -, hpick⟩ := hsel draw
    exact ⟨p, hp, hpick⟩
  · rw [← count_drawn]
    apply count_congr
    intro draw hdraw
    obtain ⟨q, -, hchoose, hpick⟩ := hsel draw
    rw [choose_eq_drawn, Nat.mod_eq_of_lt hdraw] at hchoose
    rw [hpick, hchoose, Except.ok.injEq]

/-- The rows of a channel that names its model twice, and of one that names it once. -/
def unevenCache : ChannelCache :=
  initChannelCache (fun _ => none)
    (.start ((AList.singleton 1 twiceNamed).insert 2 { twiceNamed with models := "m" }))

theorem cached_pick_weight_once :
    ∃ p, unevenCache.getRandomSatisfiedChannelWithFilter id "default" "m" 0
      (fun p => p.1 = 2) 7 = .ok (some p) := by
  obtain ⟨target, -, hpick, -⟩ := cached_pick_weight unevenCache id "default" "m" (fun p => p.1 = 2) 0
    [(2, { twiceNamed with models := "m" }), (1, twiceNamed), (1, twiceNamed)]
    (by decide +kernel) (by decide +kernel)
  obtain ⟨p, -, hp⟩ := hpick 7
  exact ⟨p, hp⟩

/-- Of two channels of one weight, the one that names its model twice gets two of three draws. -/
theorem cached_pick_uneven :
    let draws (i : ℤ) := Nat.count (fun draw => (unevenCache.getRandomSatisfiedChannelWithFilter id
      "default" "m" 0 (fun _ => true) draw).map (Option.map Prod.fst) = .ok (some i)) 1500
    draws 1 = 1000 ∧ draws 2 = 500 := by
  decide +kernel

def picked {α : Type} (weight : α → ℕ) (as : List α) (draw : ℕ) : Option α :=
  pickAbility weight as (draw % weightSum weight as : ℕ)

section
variable {α : Type} [BEq α] [LawfulBEq α] [DecidableEq α]

/-- The first row is picked by one draw too many, and the last by one too few. -/
theorem count_picked (weight : α → ℕ) {as : List α} (has : as ≠ []) (a : α) :
    Nat.count (fun draw => picked weight as draw = some a) (weightSum weight as) +
        (if as.getLast? = some a then 1 else 0) =
      as.count a * (weight a + 10) + if as.head? = some a then 1 else 0 := by
  obtain ⟨n, hn⟩ := Nat.exists_eq_succ_of_ne_zero (weightSum_pos weight has).ne'
  have hfst : drawn (fun a => weight a + 10) as 0 = as.head? := by
    obtain ⟨b, bs, rfl⟩ := List.exists_cons_of_ne_nil has
    simp [drawn]
  have hct := count_drawn (fun a => weight a + 10) as a
  change Nat.count _ (weightSum weight as) = _ at hct
  rw [hn, Nat.count_succ, drawn_last _ (fun _ => by omega) hn] at hct
  have hpicked : ∀ draw < weightSum weight as, picked weight as draw = some a ↔
      drawn (fun a => weight a + 10) as (draw - 1) = some a := by
    intro draw hdraw
    rw [picked, Nat.mod_eq_of_lt hdraw, pickAbility_eq_drawn]
  rw [count_congr hpicked, hn, Nat.count_succ', ← hct]
  simp only [Nat.add_sub_cancel, Nat.zero_sub, hfst]
  omega

theorem count_picked_iff (weight : α → ℕ) {as : List α} (has : as ≠ []) (a : α) :
    Nat.count (fun draw => picked weight as draw = some a) (weightSum weight as) =
        as.count a * (weight a + 10) ↔ (as.head? = some a ↔ as.getLast? = some a) := by
  have hct := count_picked weight has a
  split_ifs at hct with hlast hhead hhead
  all_goals
    simp only [hlast, hhead]
    simp
    omega

end

/-- A row gets the draws of its weight and ten more iff it is neither the first nor the last of
the rows, or both. -/
theorem database_pick_weight_iff (r : Routes) (group model : String) (retry : ℤ) :
    (∀ rows, r.channelQuery group model retry = .ok rows → rows ≠ [] →
      let row := picked (fun e : AbilityRow => e.2.weight) rows
      (∀ draw, ∃ e ∈ rows, row draw = some e ∧ ∀ c ∈ r.channels.lookup e.1.channelId,
        r.getChannel group model retry draw = .ok (some (e.1.channelId, c))) ∧
      ∀ e, Nat.count (fun draw => row draw = some e) (weightSum (fun e => e.2.weight) rows) =
          rows.count e * (e.2.weight + 10) ↔ (rows.head? = some e ↔ rows.getLast? = some e)) ∧
    ∀ filter ts, r.filterQuery filter group model retry = .ok ts → ts ≠ [] →
      let row := picked (fun p : AbilityRow × Channel => p.1.2.weight) ts
      (∀ draw, ∃ p ∈ ts, row draw = some p ∧
        r.getChannelWithFilter group model retry (some filter) draw =
          .ok (some (p.1.1.channelId, p.2))) ∧
      ∀ p, Nat.count (fun draw => row draw = some p) (weightSum (fun p => p.1.2.weight) ts) =
          ts.count p * (p.1.2.weight + 10) ↔ (ts.head? = some p ↔ ts.getLast? = some p) := by
  constructor
  · intro rows hrows hne
    refine ⟨fun draw => ?_, count_picked_iff _ hne⟩
    obtain ⟨e, he, hpick⟩ := pickAbility_mod (fun e : AbilityRow => e.2.weight) hne draw
    refine ⟨e, he, hpick, fun c hc => ?_⟩
    rw [Routes.getChannel, hrows]
    simp only [bind, Except.bind]
    rw [if_neg hne, hpick, Option.map_some, Option.getD_some, hc]
  · intro filter ts hts hne
    refine ⟨fun draw => ?_, count_picked_iff _ hne⟩
    have hpos := weightSum_pos (fun p : AbilityRow × Channel => p.1.2.weight) hne
    obtain ⟨p, hp, hpick⟩ := pickAbility_mod (fun p : AbilityRow × Channel => p.1.2.weight) hne draw
    refine ⟨p, hp, hpick, ?_⟩
    simp only [Routes.getChannelWithFilter, hts, bind, Except.bind, hne, hpos.ne', or_self, if_false,
      hpick, Option.some_or, Option.map_some]

def twinRoutes : Routes where
  channels := (AList.singleton 1 twoKeys).insert 2 twoKeys
  abilities := (AList.singleton ⟨"default", "m", 1⟩ twoKeys.ability).insert ⟨"default", "m", 2⟩
    twoKeys.ability

theorem database_pick_weight_twin :
    let rows : List AbilityRow := [⟨⟨"default", "m", 2⟩, twoKeys.ability⟩]
    Nat.count (fun draw => picked (fun p : AbilityRow × Channel => p.1.2.weight)
      (rows.map fun e => (e, twoKeys)) draw = some (⟨⟨"default", "m", 2⟩, twoKeys.ability⟩, twoKeys)) 15 =
        15 :=
  (((database_pick_weight_iff twinRoutes "default" "m" 0).2 (fun p => p.1 = 2)
    [(⟨⟨"default", "m", 2⟩, twoKeys.ability⟩, twoKeys)] (by decide +kernel) (by simp)).2 _).mpr
    (by simp)

/-- The number of draws of thirty by which the database picks the channel. -/
def drawsOf (id : ℤ) (filter : Option (ℤ × Channel → Bool)) : ℕ :=
  Nat.count (fun draw => (twinRoutes.getChannelWithFilter "default" "m" 0 filter draw).map
    (Option.map Prod.fst) = .ok (some id)) 30

/-- Two channels of weight 5 do not get fifteen draws each. -/
theorem database_pick_uneven :
    drawsOf 1 none = 14 ∧ drawsOf 2 none = 16 ∧ drawsOf 1 (some fun _ => true) = 14 ∧
      drawsOf 2 (some fun _ => true) = 16 := by
  decide +kernel

end NewApi.Channels
