import NewApi.Channels

/-!
# Abilities

The table `abilities` lists for every channel the groups and models that it serves, with a copy
of its status, priority, weight and tag. The functions that change channels maintain it, some by
building the rows of a channel anew and some by updating the rows with a tag. Each call is one
that succeeds; where the code reports an error before it changes anything, the call does nothing.
-/
namespace NewApi.Channels

/-- The primary key of an ability. -/
structure AbilityKey where
  (group model : String)
  channelId : ℤ
  deriving DecidableEq

/-- The other columns, of which `priority` has the default 0. -/
@[ext]
structure Ability where
  enabled : Bool
  priority : ℤ
  weight : ℕ
  tag : Option String
  deriving DecidableEq

/-- The channels and their abilities. -/
structure DB where
  channels : Table ℤ Channel
  abilities : Table AbilityKey Ability

def abilityText (p : String × String) : String := p.1 ++ "|" ++ p.2

/-- The pairs of a group and a model over which `AddAbilities` loops. -/
def Channel.pairs (c : Channel) : List (String × String) :=
  c.splitModels.flatMap fun model => c.getGroups.map fun group => (group, model)

/-- The pairs that are kept; one is skipped if its text was seen before. -/
def Channel.abilityPairs (c : Channel) : List (String × String) := distinctBy abilityText [] c.pairs

/-- The ability that a channel gives each of its pairs. -/
def Channel.ability (c : Channel) : Ability where
  enabled := decide (c.status = .enabled)
  priority := c.getPriority
  weight := c.getWeight
  tag := c.tag

/-- An insert that does nothing if the key exists. -/
def putNew (t : Table AbilityKey Ability) (k : AbilityKey) (a : Ability) :
    Table AbilityKey Ability :=
  if (t k).isSome then t else t.put k a

/-- Rows that are there stay as they are. -/
def addAbilities (id : ℤ) (c : Channel) (t : Table AbilityKey Ability) : Table AbilityKey Ability :=
  c.abilityPairs.foldl (fun t p => putNew t ⟨p.1, p.2, id⟩ c.ability) t

def deleteAbilities (id : ℤ) (t : Table AbilityKey Ability) : Table AbilityKey Ability :=
  fun k => if k.channelId = id then none else t k

/-- The abilities of a channel are deleted and made anew. -/
def updateAbilities (id : ℤ) (c : Channel) (t : Table AbilityKey Ability) :
    Table AbilityKey Ability :=
  addAbilities id c (deleteAbilities id t)

/-- `UpdateAbilities` for every channel that is selected. It touches only the rows of its own
channel, so the order does not matter. -/
def updateAbilitiesOf (channels : Table ℤ Channel) (selected : ℤ → Channel → Bool)
    (t : Table AbilityKey Ability) : Table AbilityKey Ability :=
  fun k => match channels k.channelId with
    | some c => if selected k.channelId c then updateAbilities k.channelId c t k else t k
    | none => t k

def updateAbilityStatus (id : ℤ) (enabled : Bool) (t : Table AbilityKey Ability) :
    Table AbilityKey Ability :=
  fun k => if k.channelId = id then (t k).map fun a => { a with enabled := enabled } else t k

def updateTagged (tag : String) (f : Ability → Ability) (t : Table AbilityKey Ability) :
    Table AbilityKey Ability :=
  fun k => (t k).map fun a => if a.tag = some tag then f a else a

/-- The update from a struct skips its zero values: a weight of 0 is one, a pointer is not. -/
def updateAbilityByTag (tag : String) (newTag : Option String) (priority : Option ℤ)
    (weight : Option ℕ) : Table AbilityKey Ability → Table AbilityKey Ability :=
  updateTagged tag fun a => { a with
    tag := newTag.or a.tag
    priority := priority.getD a.priority
    weight := if weight.getD 0 = 0 then a.weight else weight.getD 0 }

/-- A row as it is created, with the defaults of the table. -/
def Channel.created (c : Channel) : Channel :=
  { c with
    status := if c.status = .unknown then .enabled else c.status
    weight := some (c.weight.getD 0)
    group := if c.group = "" then "default" else c.group
    priority := some (c.priority.getD 0)
    keys := [] }

/-- The keys that `Update` counts for a channel with several. -/
def updatedKeys (parse : String → Option (List String)) (key : String) : List String :=
  if key = "" then []
  else
    let trimmed := trimSpace key
    match (if startsWith trimmed "[" then parse trimmed else none) with
    | some (k :: keys) => k :: keys
    | _ => splitText '\n' (trimChar '\n' key)

/-- The number of keys is counted again, and the state of keys that are gone is dropped. -/
def Channel.recounted (parse : String → Option (List String)) (old c : Channel) : Channel :=
  if c.channelInfo.isMultiKey then
    let size := (updatedKeys parse (if c.key ≠ "" then c.key else old.key)).length
    { c with channelInfo := { c.channelInfo with
      multiKeySize := size
      multiKeyStatusList := c.channelInfo.multiKeyStatusList.filter fun k => decide (k.1 < size) } }
  else c

/-- The row after `Updates`, which skips zero values. -/
def Channel.merged (old c : Channel) : Channel where
  key := if c.key ≠ "" then c.key else old.key
  status := if c.status ≠ .unknown then c.status else old.status
  weight := c.weight.or old.weight
  models := if c.models ≠ "" then c.models else old.models
  group := if c.group ≠ "" then c.group else old.group
  priority := c.priority.or old.priority
  tag := c.tag.or old.tag
  channelInfo := if c.channelInfo ≠ .zero then c.channelInfo else old.channelInfo
  keys := []

/-- The arguments of `EditChannelByTag` that abilities depend on. -/
structure TagEdit where
  (newTag models group : Option String)
  priority : Option ℤ
  weight : Option ℕ

namespace TagEdit

def recreates (e : TagEdit) : Bool := e.models.any (· ≠ "") || e.group.any (· ≠ "")

/-- The listed groups without blanks and repetitions; the empty text stands for no change. -/
def normalizedGroup (e : TagEdit) : Option String :=
  ({ key := "", status := .unknown, weight := none, models := "", group := e.group.getD "",
     priority := none, tag := none, channelInfo := .zero, keys := [] } : Channel).normalizeGroups.map
    Channel.group

/-- A row with the tag, after `Updates` with the normalized groups. -/
def row (e : TagEdit) (group : String) (c : Channel) : Channel :=
  { c with
    tag := e.newTag.or c.tag
    models := if e.models.getD "" ≠ "" then e.models.getD "" else c.models
    group := if group ≠ "" then group else c.group
    priority := e.priority.or c.priority
    weight := e.weight.or c.weight }

end TagEdit

def updateTaggedChannels (tag : String) (f : Channel → Channel) (t : Table ℤ Channel) :
    Table ℤ Channel :=
  fun id => (t id).map fun c => if c.tag = some tag then f c else c

/-- The operations that write channels or abilities. -/
inductive Call where
  | insert (id : ℤ) (c : Channel)
  | update (id : ℤ) (c : Channel)
  | updateChannelStatus (id : ℤ) (usingKey : String) (status : ChannelStatus) (cached : Bool)
  | enableChannelByTag (tag : String)
  | disableChannelByTag (tag : String)
  | editChannelByTag (tag : String) (e : TagEdit)
  | batchSetChannelTag (ids : List ℤ) (tag : Option String)
  | delete (id : ℤ)
  | batchDeleteChannels (ids : List ℤ)
  | deleteChannelByStatus (status : ChannelStatus)
  | deleteDisabledChannel
  | fixAbility

namespace DB
variable (s : DB)

/-- An id that is taken is refused. -/
def insert (id : ℤ) (c : Channel) : DB :=
  match s.channels id, c.normalizeGroups with
  | none, some c =>
    { channels := s.channels.put id c.created
      abilities := addAbilities id c.created s.abilities }
  | _, _ => s

/-- An edit leaves out zero values. -/
def update (parse : String → Option (List String)) (id : ℤ) (c : Channel) : DB :=
  match s.channels id, c.normalizeGroups with
  | some old, some c =>
    let row := old.merged (Channel.recounted parse old c)
    { channels := s.channels.put id row
      abilities := updateAbilities id row s.abilities }
  | _, _ => s

/-- `cached` says that the memory cache already has the status, or not the channel. -/
def updateChannelStatus (parse : String → Option (List String)) (id : ℤ) (usingKey : String)
    (status : ChannelStatus) (cached : Bool) : DB :=
  match s.channels id with
  | none => s
  | some c =>
    if cached ∨ c.status = status then s
    else if c.channelInfo.isMultiKey then
      let row := handlerMultiKeyUpdate parse c usingKey status
      { channels := s.channels.put id row
        abilities := if row.status ≠ c.status then
            updateAbilityStatus id (decide (status = .enabled)) s.abilities
          else s.abilities }
    else
      { channels := s.channels.put id { c with status := status }
        abilities := updateAbilityStatus id (decide (status = .enabled)) s.abilities }

def setStatusByTag (tag : String) (status : ChannelStatus) (enabled : Bool) : DB where
  channels := updateTaggedChannels tag (fun c => { c with status := status }) s.channels
  abilities := updateTagged tag (fun a => { a with enabled := enabled }) s.abilities

/-- All channels of a tag are edited. -/
def editChannelByTag (tag : String) (e : TagEdit) : DB :=
  match e.normalizedGroup with
  | none => s
  | some group =>
    let channels := updateTaggedChannels tag (e.row group) s.channels
    { channels
      abilities :=
        if e.recreates then
          updateAbilitiesOf channels (fun _ c => decide (c.tag = some (e.newTag.getD tag)))
            s.abilities
        else updateAbilityByTag tag e.newTag e.priority e.weight s.abilities }

/-- The channels are read outside the transaction that has set the tag, so that the rows are
built from the channels as they were. -/
def batchSetChannelTag (ids : List ℤ) (tag : Option String) : DB where
  channels := fun id => (s.channels id).map fun c => if id ∈ ids then { c with tag := tag } else c
  abilities := updateAbilitiesOf s.channels (fun id _ => decide (id ∈ ids)) s.abilities

def batchDeleteChannels (ids : List ℤ) : DB where
  channels := fun id => if id ∈ ids then none else s.channels id
  abilities := fun k => if k.channelId ∈ ids then none else s.abilities k

/-- The channels with the status are deleted, and nothing else. -/
def deleteWhere (p : ChannelStatus → Bool) : DB :=
  { s with channels := fun id => (s.channels id).filter fun c => !p c.status }

/-- The table is emptied and built anew. -/
def fixAbility : DB :=
  { s with abilities := updateAbilitiesOf s.channels (fun _ _ => true) Table.empty }

end DB

def Call.step (parse : String → Option (List String)) : Call → DB → DB
  | .insert id c, s => s.insert id c
  | .update id c, s => s.update parse id c
  | .updateChannelStatus id usingKey status cached, s =>
    s.updateChannelStatus parse id usingKey status cached
  | .enableChannelByTag tag, s => s.setStatusByTag tag .enabled true
  | .disableChannelByTag tag, s => s.setStatusByTag tag .manuallyDisabled false
  | .editChannelByTag tag e, s => s.editChannelByTag tag e
  | .batchSetChannelTag ids tag, s => s.batchSetChannelTag ids tag
  | .delete id, s => s.batchDeleteChannels [id]
  | .batchDeleteChannels ids, s => s.batchDeleteChannels ids
  | .deleteChannelByStatus status, s => s.deleteWhere fun st => decide (st = status)
  | .deleteDisabledChannel, s =>
    s.deleteWhere fun st => decide (st = .autoDisabled) || decide (st = .manuallyDisabled)
  | .fixAbility, s => s.fixAbility

end NewApi.Channels
