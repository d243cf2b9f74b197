import NewApi.GoStrings
import NewApi.KeyedTable

/-!
# Channels

The columns of a channel that decide which requests it serves: its groups and models, its
status, priority, weight and tag, and the state of its keys if it has several. Channels are kept
under their id. A JSON array of keys is parsed by `parse`, a parameter.
-/
namespace NewApi.Channels

/-- The states of a channel and of its keys. -/
inductive ChannelStatus where
  | unknown | enabled | manuallyDisabled | autoDisabled
  deriving DecidableEq

inductive MultiKeyMode where
  | unset | random | polling
  deriving DecidableEq

/-- The state of a channel with several keys. -/
structure ChannelInfo where
  isMultiKey : Bool
  multiKeySize : ℤ
  multiKeyStatusList : List (ℕ × ChannelStatus)
  multiKeyPollingIndex : ℤ
  multiKeyMode : MultiKeyMode
  deriving DecidableEq

def ChannelInfo.zero : ChannelInfo := ⟨false, 0, [], 0, .unset⟩

/-- A row of `channels`, without its id. `keys` is not a column: the memory cache keeps the
parsed keys there. -/
structure Channel where
  key : String
  status : ChannelStatus
  weight : Option ℕ
  (models group : String)
  priority : Option ℤ
  tag : Option String
  channelInfo : ChannelInfo
  keys : List String
  deriving DecidableEq

namespace Channel
variable (c : Channel)

def getPriority : ℤ := c.priority.getD 0

def getWeight : ℕ := c.weight.getD 0

def splitModels : List String := splitText ',' c.models

def getGroups : List String :=
  if c.group = "" then []
  else distinctBy id [] (((splitText ',' c.group).map trimSpace).filter (· ≠ ""))

/-- The channel with its groups listed without blanks and repetitions; a list of blanks is
refused. -/
def normalizeGroups : Option Channel :=
  if c.group = "" then some c
  else if c.getGroups = [] then none
  else some { c with group := String.intercalate "," c.getGroups }

/-- A list of keys is written as JSON or line by line. -/
def getKeys (parse : String → Option (List String)) : List String :=
  if c.key = "" then []
  else if c.keys ≠ [] then c.keys
  else
    let trimmed := trimSpace c.key
    match (if startsWith trimmed "[" then parse trimmed else none) with
    | some keys => keys
    | none => splitText '\n' (trimChar '\n' c.key)

end Channel

/-- The place of the key, or the first if it is not there. -/
def keyIndex (keys : List String) (usingKey : String) : ℕ := (keys.findIdx? (· == usingKey)).getD 0

/-- The disabled keys, after the status of one has changed. -/
def setKeyStatus (disabled : List (ℕ × ChannelStatus)) (i : ℕ) (status : ChannelStatus) :
    List (ℕ × ChannelStatus) :=
  let others := disabled.filter (·.1 ≠ i)
  if status = .enabled then others else others ++ [(i, status)]

def Channel.disabledAfter (parse : String → Option (List String)) (c : Channel)
    (usingKey : String) (status : ChannelStatus) : List (ℕ × ChannelStatus) :=
  setKeyStatus c.channelInfo.multiKeyStatusList (keyIndex (c.getKeys parse) usingKey) status

/-- The channel is disabled with the last of its keys. -/
def handlerMultiKeyUpdate (parse : String → Option (List String)) (c : Channel)
    (usingKey : String) (status : ChannelStatus) : Channel :=
  if c.getKeys parse = [] then { c with status := status }
  else
    let disabled := c.disabledAfter parse usingKey status
    { c with
      channelInfo := { c.channelInfo with multiKeyStatusList := disabled }
      status := if c.channelInfo.multiKeySize ≤ disabled.length then .autoDisabled else c.status }

/-- The status follows the call if there are no keys, and else changes only when all keys are
disabled. -/
theorem handlerMultiKeyUpdate_status (parse : String → Option (List String)) (c : Channel)
    (usingKey : String) (status : ChannelStatus) :
    (handlerMultiKeyUpdate parse c usingKey status).status =
      if c.getKeys parse = [] then status
      else if c.channelInfo.multiKeySize ≤ (c.disabledAfter parse usingKey status).length then
        .autoDisabled
      else c.status := by
  unfold handlerMultiKeyUpdate
  split <;> rfl

end NewApi.Channels
