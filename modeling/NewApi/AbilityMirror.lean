import NewApi.Abilities
import NewApi.Runs

/-!
# The abilities of the channels

`mirror` is the table of abilities as it should be: a row for each channel, each of its groups
and each of its models, with the channel's status, priority, weight and tag. For each call there
is a condition under which it keeps the table so, and no other. The rows are compared one
channel at a time, since no call mixes the rows of different channels.
-/
namespace NewApi.Channels

/-- The rows that a channel should have. -/
def Channel.rows (c : Channel) (group model : String) : Option Ability :=
  if group ∈ c.getGroups ∧ model ∈ c.splitModels then some c.ability else none

open Channel

def mirror (channels : Table ℤ Channel) : Table AbilityKey Ability :=
  fun k => (channels k.channelId).bind fun c => c.rows k.group k.model

def DB.Mirrors (s : DB) : Prop := s.abilities = mirror s.channels

/-- No two pairs of a group and a model of the channel have the same text. -/
def Channel.TextsDiffer (c : Channel) : Prop :=
  ∀ p ∈ c.pairs, ∀ q ∈ c.pairs, abilityText p = abilityText q → p = q

/-- What an edit by tag asks of a channel that has the tag before or after. -/
def TagEdit.KeepsMirror (e : TagEdit) (tag group : String) (c : Channel) : Prop :=
  if e.recreates then
    (c.tag = some tag → (e.row group c).TextsDiffer) ∧
      (c.tag ≠ some tag → c.tag = some (e.newTag.getD tag) → c.TextsDiffer)
  else c.tag = some tag → e.weight = some 0 → c.getWeight = 0 ∨ c.getGroups = []

/-- A key is enabled in a channel that an administrator has disabled, and there are still as
many disabled keys as keys. -/
def Channel.StaysDisabled (parse : String → Option (List String)) (c : Channel)
    (usingKey : String) (status : ChannelStatus) : Prop :=
  c.channelInfo.isMultiKey = true ∧ c.getKeys parse ≠ [] ∧ status = .enabled ∧
    c.status ≠ .enabled ∧ c.status ≠ .autoDisabled ∧
    c.channelInfo.multiKeySize ≤ (c.disabledAfter parse usingKey status).length

def Call.KeepsMirror (parse : String → Option (List String)) : Call → DB → Prop
  | .insert id c, s => s.channels id = none → ∀ c' ∈ c.normalizeGroups, c'.created.TextsDiffer
  | .update id c, s => ∀ old ∈ s.channels id, ∀ c' ∈ c.normalizeGroups,
      (old.merged (recounted parse old c')).TextsDiffer
  | .updateChannelStatus id usingKey status cached, s => cached = false →
      ∀ c ∈ s.channels id, c.StaysDisabled parse usingKey status → c.getGroups = []
  | .editChannelByTag tag e, s => ∀ group ∈ e.normalizedGroup, ∀ id, ∀ c ∈ s.channels id,
      e.KeepsMirror tag group c
  | .batchSetChannelTag ids tag, s => ∀ id ∈ ids, ∀ c ∈ s.channels id,
      c.tag = tag ∧ c.TextsDiffer ∨ c.getGroups = []
  | .deleteChannelByStatus status, s => ∀ id, ∀ c ∈ s.channels id, c.status = status →
      c.getGroups = []
  | .deleteDisabledChannel, s => ∀ id, ∀ c ∈ s.channels id,
      c.status = .autoDisabled ∨ c.status = .manuallyDisabled → c.getGroups = []
  | .fixAbility, s => ∀ id, ∀ c ∈ s.channels id, c.TextsDiffer
  | .enableChannelByTag _, _ | .disableChannelByTag _, _ | .delete _, _ |
      .batchDeleteChannels _, _ => True

section
variable {parse : String → Option (List String)} {s : DB} {c c' : Channel}

variable {group : String} {id : ℤ} {s' : DB} {e : TagEdit}

theorem mem_pairs {model : String} :
    (group, model) ∈ c.pairs ↔ group ∈ c.getGroups ∧ model ∈ c.splitModels := by
  simp only [pairs, List.mem_flatMap, List.mem_map, Prod.mk.injEq]
  constructor
  · rintro ⟨m, hm, g, hg, rfl, rfl⟩
    exact ⟨hg, hm⟩
  · rintro ⟨hg, hm⟩
    exact ⟨model, hm, group, hg, rfl, rfl⟩

theorem splitChars_ne_nil (sep : Char) (cs : List Char) : splitChars sep cs ≠ [] := by
  cases cs with
  | nil => simp [splitChars]
  | cons c cs =>
    rw [splitChars]
    split
    · simp
    · split <;> simp

/-- A channel without rows is one without groups, since there is always a model. -/
theorem pairs_eq_nil : c.pairs = [] ↔ c.getGroups = [] := by
  have hmod : c.splitModels ≠ [] := by
    simp [splitModels, splitText, splitChars_ne_nil]
  obtain ⟨m, ms, hms⟩ := List.exists_cons_of_ne_nil hmod
  simp only [pairs, hms, List.flatMap_cons, List.append_eq_nil_iff, List.map_eq_nil_iff,
    List.flatMap_eq_nil_iff]
  exact ⟨fun h => h.1, fun h => ⟨h, fun _ _ => h⟩⟩

def Channel.newRows (c : Channel) (group model : String) : Option Ability :=
  if (group, model) ∈ c.abilityPairs then some c.ability else none

theorem foldl_putNew (id : ℤ) (a : Ability) (ps : List (String × String))
    (t : Table AbilityKey Ability) (k : AbilityKey) :
    ps.foldl (fun t p => putNew t ⟨p.1, p.2, id⟩ a) t k =
      (t k).or (if k.channelId = id ∧ (k.group, k.model) ∈ ps then some a else none) := by
  induction ps generalizing t with
  | nil => simp
  | cons p ps ih =>
    rw [List.foldl_cons, ih, putNew]
    by_cases hk : k = ⟨p.1, p.2, id⟩
    · subst hk
      cases h : t ⟨p.1, p.2, id⟩ with
      | none => simp
      | some b => simp [h]
    have hp : ¬(k.channelId = id ∧ (k.group, k.model) = p) := by
      rintro ⟨rfl, rfl⟩
      exact hk rfl
    have hmem : (k.channelId = id ∧ (k.group, k.model) ∈ p :: ps) ↔
        (k.channelId = id ∧ (k.group, k.model) ∈ ps) := by
      rw [List.mem_cons]
      tauto
    simp only [hmem]
    split
    · rfl
    · rw [Table.put_of_ne t a hk]

theorem updateAbilities_apply (id : ℤ) (t : Table AbilityKey Ability) (k : AbilityKey) :
    updateAbilities id c t k =
      if k.channelId = id then c.newRows k.group k.model else t k := by
  rw [updateAbilities, addAbilities, foldl_putNew, deleteAbilities, newRows]
  by_cases hk : k.channelId = id
  · simp [hk]
  · simp [hk]

/-- Built from a channel and compared with another that has the same groups and models. -/
theorem newRows_eq_rows_iff (c c' : Channel) (hgs : c'.getGroups = c.getGroups)
    (hms : c'.splitModels = c.splitModels) :
    c.newRows = c'.rows ↔ c.ability = c'.ability ∧ c.TextsDiffer ∨ c.getGroups = [] := by
  have hrows : ∀ group model, c'.rows group model =
      if (group, model) ∈ c.pairs then some c'.ability else none := by
    intro group model
    rw [rows, hgs, hms]
    exact if_congr mem_pairs.symm rfl rfl
  have hsub : ∀ p ∈ c.abilityPairs, p ∈ c.pairs := fun p hp => (distinctBy_sublist _ _).subset hp
  have htx : c.TextsDiffer ↔ ∀ p ∈ c.pairs, p ∈ c.abilityPairs := distinctBy_complete_iff.symm
  rw [htx, ← pairs_eq_nil]
  constructor
  · intro h
    have hpoint : ∀ p ∈ c.pairs, p ∈ c.abilityPairs ∧ c.ability = c'.ability := by
      rintro ⟨group, model⟩ hp
      have hp' := congrFun (congrFun h group) model
      rw [hrows, if_pos hp, newRows] at hp'
      split at hp'
      next hmem => exact ⟨hmem, Option.some.inj hp'⟩
      · cases hp'
    cases hprs : c.pairs with
    | nil => exact .inr rfl
    | cons p ps =>
      have hp := hpoint p (hprs ▸ List.mem_cons_self)
      exact .inl ⟨hp.2, hprs ▸ fun q hq => (hpoint q hq).1⟩
  · intro h
    funext group model
    rw [hrows, newRows]
    obtain ⟨hab, hall⟩ | hnil := h
    · rw [hab]
      exact if_congr ⟨hsub _, hall _⟩ rfl rfl
    · have hnone : (group, model) ∉ c.pairs := by simp [hnil]
      rw [if_neg hnone, if_neg fun hmem => hnone (hsub _ hmem)]

/-- Rows made anew are all rows unless two pairs have one text. -/
theorem newRows_eq_self_iff : c.newRows = c.rows ↔ c.TextsDiffer := by
  rw [newRows_eq_rows_iff c c rfl rfl]
  constructor
  · rintro (⟨-, h⟩ | h)
    · exact h
    · intro p hp
      rw [pairs_eq_nil.mpr h] at hp
      cases hp
  · exact fun h => .inl ⟨rfl, h⟩

theorem map_rows_eq_iff {f : Ability → Ability} (hgs : c'.getGroups = c.getGroups)
    (hms : c'.splitModels = c.splitModels) :
    (fun group model => (c.rows group model).map f) = c'.rows ↔
      f c.ability = c'.ability ∨ c.getGroups = [] := by
  constructor
  · intro h
    cases hprs : c.pairs with
    | nil => exact .inr (pairs_eq_nil.mp hprs)
    | cons p ps =>
      obtain ⟨hg, hm⟩ := mem_pairs.mp (hprs ▸ List.mem_cons_self : (p.1, p.2) ∈ c.pairs)
      have hp := congrFun (congrFun h p.1) p.2
      rw [rows, if_pos ⟨hg, hm⟩, rows, hgs, hms, if_pos ⟨hg, hm⟩] at hp
      exact .inl (Option.some.inj hp)
  · intro h
    funext group model
    rw [rows, rows, hgs, hms]
    split
    next hmem =>
      obtain h | h := h
      · exact congrArg some h
      · rw [h] at hmem
        cases hmem.1
    · rfl

theorem rows_eq_none_iff : c.rows = (fun _ _ => none) ↔ c.getGroups = [] := by
  constructor
  · intro h
    cases hprs : c.pairs with
    | nil => exact pairs_eq_nil.mp hprs
    | cons p ps =>
      have hmem := mem_pairs.mp (hprs ▸ List.mem_cons_self : (p.1, p.2) ∈ c.pairs)
      have hp := congrFun (congrFun h p.1) p.2
      rw [rows, if_pos hmem] at hp
      cases hp
  · intro h
    funext group model
    rw [rows, h, if_neg (fun hmem => nomatch hmem.1)]

def DB.rowsOf (s : DB) (id : ℤ) (group model : String) : Option Ability :=
  s.abilities ⟨group, model, id⟩

/-- The rows under the id are those of the channel, if there is one. -/
def DB.MirrorsAt (s : DB) (id : ℤ) : Prop :=
  match s.channels id with
  | some c => s.rowsOf id = c.rows
  | none => s.rowsOf id = fun _ _ => none

theorem mirrors_iff : s.Mirrors ↔ ∀ id, s.MirrorsAt id := by
  constructor
  · intro h id
    unfold DB.MirrorsAt
    split
    next hc =>
      funext group model
      rw [DB.rowsOf, h, mirror, hc]
      rfl
    next hc =>
      funext group model
      rw [DB.rowsOf, h, mirror, hc]
      rfl
  · intro h
    funext k
    have hk := h k.channelId
    unfold DB.MirrorsAt at hk
    rw [mirror]
    split at hk
    next hc => rw [hc]; exact congrFun (congrFun hk k.group) k.model
    next hc => rw [hc]; exact congrFun (congrFun hk k.group) k.model

theorem deleteAbilities_eq_self (h : s.rowsOf id = fun _ _ => none) :
    deleteAbilities id s.abilities = s.abilities := by
  funext k
  unfold deleteAbilities
  split
  next hk =>
    subst hk
    exact (congrFun (congrFun h k.group) k.model).symm
  · rfl

variable {status : ChannelStatus}

/-- The state of the keys is no part of the copy. -/
theorem handlerMultiKeyUpdate_copy (parse : String → Option (List String)) (c : Channel)
    (usingKey : String) (status : ChannelStatus) :
    (handlerMultiKeyUpdate parse c usingKey status).getGroups = c.getGroups ∧
      (handlerMultiKeyUpdate parse c usingKey status).splitModels = c.splitModels ∧
      (handlerMultiKeyUpdate parse c usingKey status).ability = { c.ability with
        enabled := decide ((handlerMultiKeyUpdate parse c usingKey status).status = .enabled) } := by
  unfold handlerMultiKeyUpdate
  split
  · exact ⟨rfl, rfl, rfl⟩
  · exact ⟨rfl, rfl, rfl⟩

theorem rows_congr (hgs : c'.getGroups = c.getGroups) (hms : c'.splitModels = c.splitModels)
    (hab : c'.ability = c.ability) : c'.rows = c.rows := by
  funext group model
  rw [rows, rows, hgs, hms, hab]

section
variable (h : s.Mirrors)
include h

theorem DB.Mirrors.rowsOf_some (hc : s.channels id = some c) :
    s.rowsOf id = c.rows := by
  have hid := mirrors_iff.mp h id
  rwa [DB.MirrorsAt, hc] at hid

theorem DB.Mirrors.rowsOf_none (hc : s.channels id = none) :
    s.rowsOf id = fun _ _ => none := by
  have hid := mirrors_iff.mp h id
  rwa [DB.MirrorsAt, hc] at hid

/-- A call that touches one channel keeps the copy iff it does so for that channel. -/
theorem mirrors_iff_at (hc' : s'.channels = s.channels.put id c)
    (hrows : ∀ j ≠ id, s'.rowsOf j = s.rowsOf j) : s'.Mirrors ↔ s'.rowsOf id = c.rows := by
  have hself : s'.MirrorsAt id ↔ s'.rowsOf id = c.rows := by
    rw [DB.MirrorsAt, hc', Table.put_self]
  rw [mirrors_iff]
  refine ⟨fun hall => hself.mp (hall id), fun hid j => ?_⟩
  by_cases hj : j = id
  · subst hj
    exact hself.mpr hid
  · have hold := mirrors_iff.mp h j
    rwa [DB.MirrorsAt, hc', Table.put_of_ne _ _ hj, hrows j hj]

/-- A channel whose abilities are made anew. -/
theorem rebuilt_mirrors_iff (id : ℤ) (row : Channel) :
    (⟨s.channels.put id row, updateAbilities id row s.abilities⟩ : DB).Mirrors ↔
      row.TextsDiffer := by
  rw [mirrors_iff_at h rfl, ← newRows_eq_self_iff]
  · refine Eq.congr_left ?_
    funext group model
    exact (updateAbilities_apply ..).trans (if_pos rfl)
  · intro j hj
    funext group model
    exact (updateAbilities_apply ..).trans (if_neg hj)

theorem insert_mirrors_iff (id : ℤ) (c : Channel) :
    (s.insert id c).Mirrors ↔ (Call.insert id c).KeepsMirror parse s := by
  cases hid : s.channels id with
  | some old =>
    have hsame : s.insert id c = s := by simp only [DB.insert, hid]
    rw [hsame]
    exact iff_of_true h fun hnone => nomatch hid.symm.trans hnone
  | none =>
    cases hc : c.normalizeGroups with
    | none =>
      have hsame : s.insert id c = s := by simp only [DB.insert, hid, hc]
      rw [hsame]
      exact iff_of_true h fun _ d hd => nomatch hc.symm.trans hd
    | some c' =>
      -- there are no rows under the id, so adding the rows is building them anew
      have heq : s.insert id c =
          ⟨s.channels.put id c'.created, updateAbilities id c'.created s.abilities⟩ := by
        rw [updateAbilities, deleteAbilities_eq_self (h.rowsOf_none hid)]
        simp only [DB.insert, hid, hc]
      rw [heq, rebuilt_mirrors_iff h]
      refine ⟨fun ht _ d hd => ?_, fun hk => hk hid c' hc⟩
      cases hc.symm.trans hd
      exact ht

theorem update_mirrors_iff (id : ℤ) (c : Channel) :
    (s.update parse id c).Mirrors ↔ (Call.update id c).KeepsMirror parse s := by
  cases hid : s.channels id with
  | none =>
    have hsame : s.update parse id c = s := by simp only [DB.update, hid]
    rw [hsame]
    exact iff_of_true h fun old hold => nomatch hid.symm.trans hold
  | some old =>
    cases hc : c.normalizeGroups with
    | none =>
      have hsame : s.update parse id c = s := by simp only [DB.update, hid, hc]
      rw [hsame]
      exact iff_of_true h fun _ _ d hd => nomatch hc.symm.trans hd
    | some c' =>
      generalize hrow : old.merged (recounted parse old c') = row
      have heq : s.update parse id c =
          ⟨s.channels.put id row, updateAbilities id row s.abilities⟩ := by
        simp only [DB.update, hid, hc, hrow]
      rw [heq, rebuilt_mirrors_iff h]
      refine ⟨fun ht d hd e he => ?_, fun hk => hrow ▸ hk old hid c' hc⟩
      cases hid.symm.trans hd
      cases hc.symm.trans he
      exact hrow ▸ ht

theorem restated_mirrors_iff (hid : s.channels id = some c) (row : Channel)
    (enabled : Bool) (hgs : row.getGroups = c.getGroups)
    (hms : row.splitModels = c.splitModels)
    (hab : row.ability = { c.ability with enabled := decide (row.status = .enabled) }) :
    (⟨s.channels.put id row, updateAbilityStatus id enabled s.abilities⟩ : DB).Mirrors ↔
      enabled = decide (row.status = .enabled) ∨ c.getGroups = [] := by
  rw [mirrors_iff_at h rfl]
  · have hself : DB.rowsOf ⟨s.channels.put id row, updateAbilityStatus id enabled s.abilities⟩ id =
        fun group model => (c.rows group model).map fun a => { a with enabled := enabled } := by
      funext group model
      rw [← h.rowsOf_some hid]
      exact if_pos rfl
    rw [hself, map_rows_eq_iff hgs hms, hab]
    simp
  · intro j hj
    funext group model
    exact if_neg hj

theorem multiKey_mirrors_iff (hid : s.channels id = some c)
    (hmulti : c.channelInfo.isMultiKey = true) {usingKey : String}
    (hst : c.status ≠ status) : (s.updateChannelStatus parse id usingKey status false).Mirrors ↔
      (c.StaysDisabled parse usingKey status → c.getGroups = []) := by
  obtain ⟨hgs, hms, hab⟩ := handlerMultiKeyUpdate_copy parse c usingKey status
  have hrow := handlerMultiKeyUpdate_status parse c usingKey status
  have heq : s.updateChannelStatus parse id usingKey status false =
      ⟨s.channels.put id (handlerMultiKeyUpdate parse c usingKey status),
        if (handlerMultiKeyUpdate parse c usingKey status).status ≠ c.status then
          updateAbilityStatus id (decide (status = .enabled)) s.abilities
        else s.abilities⟩ := by
    simp [DB.updateChannelStatus, hid, hst, hmulti]
  rw [heq]
  generalize handlerMultiKeyUpdate parse c usingKey status = row at *
  by_cases hsame : row.status = c.status
  · rw [if_neg (not_not.mpr hsame)]
    refine iff_of_true ?_ ?_
    · have hcopy : row.ability = c.ability := by rw [hab, hsame]; rfl
      have hput : (⟨s.channels.put id row, s.abilities⟩ : DB).channels = s.channels.put id row := rfl
      refine (mirrors_iff_at h hput fun _ _ => rfl).mpr ?_
      exact (h.rowsOf_some hid).trans (rows_congr hgs hms hcopy).symm
    · rintro ⟨-, hkeys, -, -, hauto, hall⟩
      rw [if_neg hkeys, if_pos hall] at hrow
      exact absurd (hsame.symm.trans hrow) hauto
  rw [if_pos hsame, restated_mirrors_iff h hid row _ hgs hms hab]
  split_ifs at hrow with hkeys hall
  · exact iff_of_true (.inl (by rw [hrow])) fun hstays => absurd hkeys hstays.2.1
  · rw [hrow]
    rw [hrow] at hsame
    have hstays : c.StaysDisabled parse usingKey status ↔ status = .enabled :=
      ⟨fun hs => hs.2.2.1, fun hs => ⟨hmulti, hkeys, hs, hs ▸ hst, Ne.symm hsame, hall⟩⟩
    rw [hstays]
    by_cases henb : status = .enabled
    · simp [henb]
    · simp [henb]
  · exact absurd hrow hsame

/-- The status of a channel is written before its abilities. -/
theorem updateChannelStatus_mirrors_iff (id : ℤ) (usingKey : String)
    (status : ChannelStatus) (cached : Bool) :
    (s.updateChannelStatus parse id usingKey status cached).Mirrors ↔
      (Call.updateChannelStatus id usingKey status cached).KeepsMirror parse s := by
  cases hid : s.channels id with
  | none =>
    have hsame : s.updateChannelStatus parse id usingKey status cached = s := by
      simp only [DB.updateChannelStatus, hid]
    rw [hsame]
    exact iff_of_true h fun _ c hc => nomatch hid.symm.trans hc
  | some c =>
    by_cases hskip : cached = true ∨ c.status = status
    · have hsame : s.updateChannelStatus parse id usingKey status cached = s := by
        simp only [DB.updateChannelStatus, hid, if_pos hskip]
      rw [hsame]
      refine iff_of_true h fun hcac d hd => ?_
      rintro ⟨-, -, rfl, henb, -⟩
      cases hid.symm.trans hd
      obtain hskip | hskip := hskip
      · cases hcac.symm.trans hskip
      · exact absurd hskip henb
    obtain ⟨hcac, hst⟩ := not_or.mp hskip
    obtain rfl : cached = false := by simpa using hcac
    have hcond : (Call.updateChannelStatus id usingKey status false).KeepsMirror parse s ↔
        (c.StaysDisabled parse usingKey status → c.getGroups = []) := by
      refine ⟨fun hk => hk rfl c hid, fun hk _ d hd => ?_⟩
      cases hid.symm.trans hd
      exact hk
    rw [hcond]
    by_cases hmulti : c.channelInfo.isMultiKey = true
    · exact multiKey_mirrors_iff h hid hmulti hst
    have heq : s.updateChannelStatus parse id usingKey status false =
        ⟨s.channels.put id { c with status := status },
          updateAbilityStatus id (decide (status = .enabled)) s.abilities⟩ := by
      simp [DB.updateChannelStatus, hid, hst, hmulti]
    rw [heq, restated_mirrors_iff h hid { c with status := status } _ rfl rfl rfl]
    exact iff_of_true (.inl rfl) fun hstays => absurd hstays.1 hmulti

end

theorem mirrors_iff_forall {ok : Channel → Prop}
    (hnone : ∀ id, s.channels id = none → s'.MirrorsAt id)
    (hsome : ∀ id c, s.channels id = some c → (s'.MirrorsAt id ↔ ok c)) :
    s'.Mirrors ↔ ∀ id, ∀ c ∈ s.channels id, ok c := by
  rw [mirrors_iff]
  constructor
  · intro hall id c hc
    exact (hsome id c hc).mp (hall id)
  · intro hall id
    cases hc : s.channels id with
    | none => exact hnone id hc
    | some c => exact (hsome id c hc).mpr (hall id c hc)

theorem mirrorsAt_some_iff (hc : s'.channels id = some c) :
    s'.MirrorsAt id ↔ s'.rowsOf id = c.rows := by
  rw [DB.MirrorsAt, hc]

theorem mirrorsAt_none_iff (hc : s'.channels id = none) :
    s'.MirrorsAt id ↔ s'.rowsOf id = fun _ _ => none := by
  rw [DB.MirrorsAt, hc]

theorem updateTaggedChannels_none {t : Table ℤ Channel} (hid : t id = none) (tag : String)
    (g : Channel → Channel) : updateTaggedChannels tag g t id = none := by
  rw [updateTaggedChannels, hid]
  rfl

theorem updateTaggedChannels_some {t : Table ℤ Channel} (hid : t id = some c) (tag : String)
    (g : Channel → Channel) :
    updateTaggedChannels tag g t id = some (if c.tag = some tag then g c else c) := by
  rw [updateTaggedChannels, hid]
  rfl

/-- What an update of the rows with a tag makes of the rows of a channel. -/
def taggedAbility (tag : String) (f : Ability → Ability) (a : Ability) : Ability :=
  if a.tag = some tag then f a else a

theorem tagged_mirrors_iff (h : s.Mirrors) (tag : String) (f : Ability → Ability)
    (g : Channel → Channel) (hchs : s'.channels = updateTaggedChannels tag g s.channels)
    (habs : s'.abilities = updateTagged tag f s.abilities)
    (hgs : ∀ c, (g c).getGroups = c.getGroups)
    (hms : ∀ c, (g c).splitModels = c.splitModels) :
    s'.Mirrors ↔ ∀ id, ∀ c ∈ s.channels id, c.tag = some tag →
      f c.ability = (g c).ability ∨ c.getGroups = [] := by
  have hrows : ∀ id, s'.rowsOf id = fun group model =>
      (s.rowsOf id group model).map (taggedAbility tag f) := by
    intro id
    funext group model
    rw [DB.rowsOf, habs]
    rfl
  refine mirrors_iff_forall (fun id hid => ?_) fun id c hid => ?_
  · have hid' : s'.channels id = none := by
      rw [hchs, updateTaggedChannels_none hid]
    rw [mirrorsAt_none_iff hid', hrows, h.rowsOf_none hid]
    rfl
  · have hid' : s'.channels id = some (if c.tag = some tag then g c else c) := by
      rw [hchs, updateTaggedChannels_some hid]
    rw [mirrorsAt_some_iff hid', hrows, h.rowsOf_some hid]
    by_cases htag : c.tag = some tag
    · rw [if_pos htag, map_rows_eq_iff (hgs c) (hms c)]
      have hmap : taggedAbility tag f c.ability = f c.ability := if_pos htag
      rw [hmap]
      exact ⟨fun hk _ => hk, fun hk => hk htag⟩
    · rw [if_neg htag, map_rows_eq_iff rfl rfl]
      exact iff_of_true (.inl (if_neg htag)) fun htag' => absurd htag' htag

theorem setStatusByTag_mirrors (h : s.Mirrors) (tag : String)
    {enabled : Bool} (henb : enabled = decide (status = .enabled)) :
    (s.setStatusByTag tag status enabled).Mirrors := by
  rw [tagged_mirrors_iff h tag (fun a => { a with enabled := enabled })
    (fun c => { c with status := status }) rfl rfl (fun _ => rfl) (fun _ => rfl)]
  intro id c _ _
  rw [henb]
  exact .inl rfl

theorem recreates_eq_false (h : e.recreates = false) :
    e.models.getD "" = "" ∧ e.normalizedGroup = some "" := by
  obtain ⟨hms, hgrp⟩ := Bool.or_eq_false_iff.mp h
  have hemp : ∀ o : Option String, o.any (· ≠ "") = false → o.getD "" = "" := by
    intro o ho
    cases o with
    | none => rfl
    | some text => simpa using ho
  refine ⟨hemp _ hms, ?_⟩
  rw [TagEdit.normalizedGroup, hemp _ hgrp]
  rfl

/-- The updates of a row and of its abilities agree unless a weight of 0 is skipped. -/
theorem edited_ability_iff (e : TagEdit) (c : Channel) : ({ c.ability with
        tag := e.newTag.or c.ability.tag
        priority := e.priority.getD c.ability.priority
        weight := if e.weight.getD 0 = 0 then c.ability.weight else e.weight.getD 0 } : Ability) =
        (e.row "" c).ability ↔ (e.weight = some 0 → c.getWeight = 0) := by
  have hweight : (if e.weight.getD 0 = 0 then c.getWeight else e.weight.getD 0) =
      (e.row "" c).getWeight ↔ (e.weight = some 0 → c.getWeight = 0) := by
    simp only [TagEdit.row, getWeight]
    cases e.weight with
    | none => simp
    | some w =>
      by_cases hzero : w = 0
      · simp [hzero]
      · simp [hzero]
  rw [← hweight]
  constructor
  · exact congrArg Ability.weight
  · intro h
    refine Ability.ext rfl ?_ h rfl
    change e.priority.getD (c.priority.getD 0) = (e.priority.or c.priority).getD 0
    cases e.priority <;> rfl

theorem editChannelByTag_keepsMirror_iff {tag : String} (hgrp : e.normalizedGroup = some group) :
    (Call.editChannelByTag tag e).KeepsMirror parse s ↔
      ∀ id, ∀ c ∈ s.channels id, e.KeepsMirror tag group c := by
  refine ⟨fun hk => hk group hgrp, fun hk group' hgroup' => ?_⟩
  cases hgrp.symm.trans hgroup'
  exact hk

theorem editInPlace_mirrors_iff (h : s.Mirrors) (tag : String) (he : e.recreates = false) :
    (s.editChannelByTag tag e).Mirrors ↔ (Call.editChannelByTag tag e).KeepsMirror parse s := by
  obtain ⟨hms, hgrp⟩ := recreates_eq_false he
  have heq : s.editChannelByTag tag e = ⟨updateTaggedChannels tag (e.row "") s.channels,
      updateAbilityByTag tag e.newTag e.priority e.weight s.abilities⟩ := by
    simp [DB.editChannelByTag, hgrp, he]
  rw [heq, tagged_mirrors_iff h tag _ (e.row "") rfl rfl, editChannelByTag_keepsMirror_iff hgrp]
  · refine forall₃_congr fun id c _ => ?_
    rw [edited_ability_iff, TagEdit.KeepsMirror, he]
    refine forall_congr' fun _ => ?_
    by_cases hweight : e.weight = some 0
    · simp [hweight]
    · simp [hweight]
  · intro c
    simp [TagEdit.row, getGroups]
  · intro c
    simp [TagEdit.row, splitModels, hms]

variable {channels : Table ℤ Channel} {selected : ℤ → Channel → Bool} {t : Table AbilityKey Ability}

section
variable (hs' : s'.abilities = updateAbilitiesOf channels selected t)
include hs'

theorem rowsOf_rebuilt_some (hid : channels id = some c) : s'.rowsOf id =
      if selected id c = true then c.newRows else fun group model => t ⟨group, model, id⟩ := by
  funext group model
  rw [DB.rowsOf, hs', updateAbilitiesOf, hid]
  dsimp only
  split
  · exact (updateAbilities_apply ..).trans (if_pos rfl)
  · rfl

theorem rowsOf_rebuilt_none
    (hid : channels id = none) : s'.rowsOf id = fun group model => t ⟨group, model, id⟩ := by
  funext group model
  rw [DB.rowsOf, hs', updateAbilitiesOf, hid]

end

theorem row_tag {tag : String} (htag : c.tag = some tag) :
    (e.row group c).tag = some (e.newTag.getD tag) := by
  change e.newTag.or c.tag = _
  rw [htag]
  cases e.newTag <;> rfl

/-- An edit that makes the abilities anew. -/
theorem editRecreating_mirrors_iff (h : s.Mirrors) (tag : String) (he : e.recreates = true) :
    (s.editChannelByTag tag e).Mirrors ↔ (Call.editChannelByTag tag e).KeepsMirror parse s := by
  cases hgrp : e.normalizedGroup with
  | none =>
    have hsame : s.editChannelByTag tag e = s := by simp only [DB.editChannelByTag, hgrp]
    rw [hsame]
    exact iff_of_true h fun group hgroup' => nomatch hgrp.symm.trans hgroup'
  | some group =>
    have hchs : (s.editChannelByTag tag e).channels =
        updateTaggedChannels tag (e.row group) s.channels := by
      simp only [DB.editChannelByTag, hgrp]
    have habs : (s.editChannelByTag tag e).abilities =
        updateAbilitiesOf (updateTaggedChannels tag (e.row group) s.channels)
          (fun _ c => decide (c.tag = some (e.newTag.getD tag))) s.abilities := by
      simp [DB.editChannelByTag, hgrp, he]
    rw [editChannelByTag_keepsMirror_iff hgrp]
    refine mirrors_iff_forall (fun id hid => ?_) fun id c hid => ?_
    · have hid' := updateTaggedChannels_none hid tag (e.row group)
      rw [mirrorsAt_none_iff (hchs ▸ hid'), rowsOf_rebuilt_none habs hid']
      exact h.rowsOf_none hid
    · have hid' := updateTaggedChannels_some hid tag (e.row group)
      rw [mirrorsAt_some_iff (hchs ▸ hid'), rowsOf_rebuilt_some habs hid',
        TagEdit.KeepsMirror, if_pos he]
      by_cases htag : c.tag = some tag
      · rw [if_pos htag, if_pos (decide_eq_true (row_tag htag)), newRows_eq_self_iff]
        exact ⟨fun hk => ⟨fun _ => hk, fun htag' => absurd htag htag'⟩, fun hk => hk.1 htag⟩
      rw [if_neg htag]
      by_cases hnew : c.tag = some (e.newTag.getD tag)
      · rw [if_pos (decide_eq_true hnew), newRows_eq_self_iff]
        exact ⟨fun hk => ⟨fun htag' => absurd htag' htag, fun _ _ => hk⟩,
          fun hk => hk.2 htag hnew⟩
      · rw [if_neg (by simpa using hnew)]
        exact iff_of_true (h.rowsOf_some hid)
          ⟨fun htag' => absurd htag' htag, fun _ hnew' => absurd hnew' hnew⟩

theorem batchSetChannelTag_mirrors_iff (h : s.Mirrors) (ids : List ℤ) (tag : Option String) :
    (s.batchSetChannelTag ids tag).Mirrors ↔
      (Call.batchSetChannelTag ids tag).KeepsMirror parse s := by
  have hat : ∀ id, (s.batchSetChannelTag ids tag).MirrorsAt id ↔
      (id ∈ ids → ∀ c ∈ s.channels id, c.tag = tag ∧ c.TextsDiffer ∨ c.getGroups = []) := by
    intro id
    have habs : (s.batchSetChannelTag ids tag).abilities =
        updateAbilitiesOf s.channels (fun id _ => decide (id ∈ ids)) s.abilities := rfl
    cases hid : s.channels id with
    | none =>
      have hid' : (s.batchSetChannelTag ids tag).channels id = none := by
        simp [DB.batchSetChannelTag, hid]
      rw [mirrorsAt_none_iff hid', rowsOf_rebuilt_none habs hid]
      exact iff_of_true (h.rowsOf_none hid) fun _ c hc => nomatch hc
    | some c =>
      have hid' : (s.batchSetChannelTag ids tag).channels id =
          some (if id ∈ ids then { c with tag := tag } else c) := by
        simp [DB.batchSetChannelTag, hid]
      rw [mirrorsAt_some_iff hid', rowsOf_rebuilt_some habs hid]
      by_cases hmem : id ∈ ids
      · have htag : c.ability = ability { c with tag := tag } ↔ c.tag = tag :=
          ⟨congrArg Ability.tag, fun ht => Ability.ext rfl rfl rfl ht⟩
        have hrows := newRows_eq_rows_iff c { c with tag := tag } rfl rfl
        rw [if_pos hmem, if_pos (decide_eq_true hmem), hrows, htag]
        exact ⟨fun hk _ d hd => Option.some.inj hd ▸ hk, fun hk => hk hmem c rfl⟩
      · rw [if_neg hmem, if_neg (by simpa using hmem)]
        exact iff_of_true (h.rowsOf_some hid) fun hmem' => absurd hmem' hmem
  rw [mirrors_iff]
  exact forall_congr' hat

theorem batchDeleteChannels_mirrors (h : s.Mirrors) (ids : List ℤ) :
    (s.batchDeleteChannels ids).Mirrors := by
  rw [mirrors_iff]
  intro id
  by_cases hmem : id ∈ ids
  · rw [mirrorsAt_none_iff (if_pos hmem)]
    funext group model
    exact if_pos hmem
  have hrows : (s.batchDeleteChannels ids).rowsOf id = s.rowsOf id := by
    funext group model
    exact if_neg hmem
  have hchs : (s.batchDeleteChannels ids).channels id = s.channels id := if_neg hmem
  have hold := mirrors_iff.mp h id
  rwa [DB.MirrorsAt, hchs, hrows]

/-- Channels are deleted and their abilities stay. -/
theorem deleteWhere_mirrors_iff (h : s.Mirrors) (p : ChannelStatus → Bool) :
    (s.deleteWhere p).Mirrors ↔
      ∀ id, ∀ c ∈ s.channels id, p c.status = true → c.getGroups = [] := by
  refine mirrors_iff_forall (fun id hid => ?_) fun id c hid => ?_
  · have hid' : (s.deleteWhere p).channels id = none := by
      simp [DB.deleteWhere, hid]
    rw [mirrorsAt_none_iff hid']
    exact h.rowsOf_none hid
  · by_cases hp : p c.status = true
    · have hid' : (s.deleteWhere p).channels id = none := by
        simp [DB.deleteWhere, hid, hp]
      rw [mirrorsAt_none_iff hid', ← rows_eq_none_iff, ← h.rowsOf_some hid]
      exact ⟨fun hk _ => hk, fun hk => hk hp⟩
    have hid' : (s.deleteWhere p).channels id = some c := by
      simp [DB.deleteWhere, hid, hp]
    rw [mirrorsAt_some_iff hid']
    exact iff_of_true (h.rowsOf_some hid) fun hp' => absurd hp' hp

/-- All abilities are made anew. -/
theorem fixAbility_mirrors_iff :
    s.fixAbility.Mirrors ↔ ∀ id, ∀ c ∈ s.channels id, c.TextsDiffer := by
  have habs : s.fixAbility.abilities =
      updateAbilitiesOf s.channels (fun _ _ => true) Table.empty := rfl
  refine mirrors_iff_forall (fun id hid => ?_) fun id c hid => ?_
  · have hid' : s.fixAbility.channels id = none := hid
    rw [mirrorsAt_none_iff hid', rowsOf_rebuilt_none habs hid]
    rfl
  · have hid' : s.fixAbility.channels id = some c := hid
    rw [mirrorsAt_some_iff hid', rowsOf_rebuilt_some habs hid, if_pos rfl,
      newRows_eq_self_iff]

/-- The exact condition for one operation to keep the mirror. -/
theorem step_mirrors_iff (h : s.Mirrors) (call : Call) :
    (call.step parse s).Mirrors ↔ call.KeepsMirror parse s := by
  cases call with
  | insert id c => exact insert_mirrors_iff h id c
  | update id c => exact update_mirrors_iff h id c
  | updateChannelStatus id usingKey status cached =>
    exact updateChannelStatus_mirrors_iff h id usingKey status cached
  | enableChannelByTag tag | disableChannelByTag tag =>
    exact iff_of_true (setStatusByTag_mirrors h tag rfl) trivial
  | editChannelByTag tag e =>
    cases he : e.recreates with
    | true => exact editRecreating_mirrors_iff h tag he
    | false => exact editInPlace_mirrors_iff h tag he
  | batchSetChannelTag ids tag => exact batchSetChannelTag_mirrors_iff h ids tag
  | delete id => exact iff_of_true (batchDeleteChannels_mirrors h [id]) trivial
  | batchDeleteChannels ids => exact iff_of_true (batchDeleteChannels_mirrors h ids) trivial
  | deleteChannelByStatus status =>
    refine (deleteWhere_mirrors_iff h _).trans ?_
    simp only [decide_eq_true_eq]
    rfl
  | deleteDisabledChannel =>
    refine (deleteWhere_mirrors_iff h _).trans ?_
    simp only [Bool.or_eq_true, decide_eq_true_eq]
    rfl
  | fixAbility => exact fixAbility_mirrors_iff

end

/-- From channels with the abilities they should have, the abilities are at any time those of the
channels exactly if every call meets its condition. -/
theorem abilities_mirror_iff (parse : String → Option (List String)) (channels : Table ℤ Channel)
    (calls : List Call) :
    (∀ js, js <+: calls → (run (Call.step parse) js ⟨channels, mirror channels⟩).Mirrors) ↔
      Along (Call.step parse) (Call.KeepsMirror parse) calls ⟨channels, mirror channels⟩ :=
  invariant_iff_along (I := DB.Mirrors) (fun call _ h => step_mirrors_iff h call) calls rfl

def sampleChannel : Channel where
  key := "k1"
  status := .enabled
  weight := some 5
  models := "m"
  group := "default"
  priority := some 0
  tag := some "old"
  channelInfo := .zero
  keys := []

def sampleChannels : Table ℤ Channel := Table.empty.put 1 sampleChannel

/-- The copy under the key after the calls, and what it should be. -/
def copyAfter (calls : List Call) (k : AbilityKey) : Option Ability × Option Ability :=
  let s := run (Call.step fun _ => none) calls ⟨sampleChannels, mirror sampleChannels⟩
  (s.abilities k, mirror s.channels k)

def zeroWeight : TagEdit := ⟨none, none, none, none, some 0⟩

/-- Groups and models of which two pairs have the text `a|b|c`. -/
def barChannel : Channel := { sampleChannel with group := "a|b,a", models := "c,b|c" }

/-- An administrator has disabled a channel of which both keys are disabled and one is counted. -/
def disabledKeys : Channel :=
  { sampleChannel with
    key := "k1\nk2"
    status := .manuallyDisabled
    channelInfo := ⟨true, 1, [(0, .autoDisabled), (1, .autoDisabled)], 0, .random⟩ }

/-- A weight of 0, a new tag and a deletion by status do not reach the copy; a later call by tag
goes by the old tag; a pair whose text was seen is missing; a channel that stays disabled is
listed as enabled. -/
theorem abilities_out_of_step : copyAfter [.editChannelByTag "old" zeroWeight] ⟨"default", "m", 1⟩ =
        (some ⟨true, 0, 5, some "old"⟩, some ⟨true, 0, 0, some "old"⟩) ∧
      copyAfter [.batchSetChannelTag [1] (some "new"), .disableChannelByTag "new"]
          ⟨"default", "m", 1⟩ =
        (some ⟨true, 0, 5, some "old"⟩, some ⟨false, 0, 5, some "new"⟩) ∧
      copyAfter [.deleteChannelByStatus .enabled] ⟨"default", "m", 1⟩ =
        (some ⟨true, 0, 5, some "old"⟩, none) ∧
      copyAfter [.insert 2 barChannel] ⟨"a", "b|c", 2⟩ = (none, some ⟨true, 0, 5, some "old"⟩) ∧
      copyAfter [.insert 2 disabledKeys, .updateChannelStatus 2 "k1" .enabled false]
          ⟨"default", "m", 2⟩ =
        (some ⟨true, 0, 5, some "old"⟩, some ⟨false, 0, 5, some "old"⟩) := by
  decide +kernel

end NewApi.Channels
