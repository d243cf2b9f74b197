import NewApi.Runs

/-!
# Records cached as hashes

A cached user or token is a hash with a field for each field of the record. An update of one field
first reads the remaining lifetime of the key, and writes the field and the lifetime in a second
step if there was one. Between the two the key can be gone, and then the field is all of the new
hash.
-/
namespace NewApi.RecordCache

variable {F : Type} [DecidableEq F]

inductive Value where
  | text (s : String)
  | number (n : ℤ)
  deriving DecidableEq

/-- A field is increased by `RedisHIncrBy` or set by `RedisHSetField`. -/
inductive Update (F : Type) where
  | incr (field : F) (delta : ℤ)
  | set (field : F) (value : Value)

/-- A missing number is increased from zero; a text is left, as the command fails. -/
def increased (delta : ℤ) : Option Value → Value
  | none => .number delta
  | some (.number n) => .number (n + delta)
  | some (.text s) => .text s

/-- What the update does to the hash. -/
def Update.write (h : F → Option Value) : Update F → F → Option Value
  | .incr field delta => Function.update h field (some (increased delta (h field)))
  | .set field value => Function.update h field (some value)

/-- What the update does to the record. -/
def Update.change (r : F → Value) : Update F → F → Value
  | .incr field delta => Function.update r field (increased delta (some (r field)))
  | .set field value => Function.update r field value

/-- The key, the updates that have found it with a lifetime and not written yet, and, which the
code does not know, the last fill with the later updates of its fields. -/
structure State (F : Type) where
  hash : Option (F → Option Value)
  expires : Bool
  pending : List (Update F)
  record : Option (F → Value)

def State.start : State F := ⟨none, false, [], none⟩

/-- The commands and pipelines. A fill sets a lifetime unless it is configured away. -/
inductive Call (F : Type) where
  | fill (r : F → Value) (expiration : Bool)
  | invalidate
  | expire
  | lookTTL (u : Update F)
  | write (n : ℕ)

def Call.step : Call F → State F → State F
  | .fill r expiration, s =>
    { s with hash := some (some ∘ r), expires := expiration || s.expires, record := some r }
  | .invalidate, s => { s with hash := none, expires := false, record := none }
  | .expire, s =>
    if s.expires then { s with hash := none, expires := false, record := none } else s
  | .lookTTL u, s => if s.expires then { s with pending := s.pending ++ [u] } else s
  | .write n, s =>
    match s.pending[n]? with
    | none => s
    | some u =>
      { hash := some (u.write (s.hash.getD fun _ => none))
        expires := true
        pending := s.pending.eraseIdx n
        record := s.record.map u.change }

/-- `RedisHGetObj`: every hash with a field is a record, and fields without a value are zero. -/
def State.redisHGetObj (zero : F → Value) (s : State F) : Option (F → Value) :=
  s.hash.map fun h f => (h f).getD (zero f)

/-- A write meets a hash that is there. -/
def Call.FindsKey : Call F → State F → Prop
  | .write n, s => s.pending[n]? = none ∨ s.hash.isSome
  | _, _ => True

/-- The hash has all fields of the record. -/
def State.Whole (s : State F) : Prop := s.hash = s.record.map (some ∘ ·)

theorem Update.write_some (u : Update F) (r : F → Value) :
    u.write (some ∘ r) = some ∘ u.change r := by
  cases u <;> exact (Function.comp_update some r _ _).symm

/-- The exact condition for one call to keep the hash whole. -/
theorem State.Whole.step_iff {s : State F} (h : s.Whole) (c : Call F) :
    (c.step s).Whole ↔ c.FindsKey s := by
  cases c with
  | fill | invalidate => exact ⟨fun _ => trivial, fun _ => rfl⟩
  | expire =>
    refine ⟨fun _ => trivial, fun _ => ?_⟩
    rw [Call.step]
    split
    · rfl
    · exact h
  | lookTTL u =>
    refine ⟨fun _ => trivial, fun _ => ?_⟩
    rw [Call.step]
    split <;> exact h
  | write n =>
    rw [Call.step, Call.FindsKey]
    cases s.pending[n]? with
    | none => exact ⟨fun _ => .inl rfl, fun _ => h⟩
    | some u =>
      obtain ⟨hash, expires, pending, record⟩ := s
      cases record with
      | none => cases h; simp [State.Whole]
      | some r => cases h; simp [State.Whole, Update.write_some]

/-- At every moment the hash has all fields of the last fill with their later updates, or there is
neither, iff every update writes while there is a key: its own or one that was filled since. Then
every hit is that record. -/
theorem cached_records_whole_iff (zero : F → Value) (calls : List (Call F)) :
    ((∀ past, past <+: calls → (run Call.step past .start).Whole) ↔
        Along Call.step Call.FindsKey calls .start) ∧
      ∀ s : State F, s.Whole → s.redisHGetObj zero = s.record := by
  refine ⟨invariant_iff_along (I := State.Whole) (fun c _ hs => hs.step_iff c) calls rfl,
    fun s hs => ?_⟩
  rw [State.redisHGetObj, hs, Option.map_map]
  exact Option.map_id'

inductive UserField where
  | id | group | email | quota | status | username | setting
  deriving DecidableEq

def UserField.zero : UserField → Value
  | .id | .quota | .status => .number 0
  | _ => .text ""

def sampleUser : UserField → Value
  | .id => .number 7
  | .quota => .number 500
  | .status => .number 1
  | .group => .text "vip"
  | _ => .text ""

/-- The key expires between the two steps of an increment: the next hit is an account with the
amount for its quota, in no group and without a status. -/
theorem cached_record_partial :
    ((run Call.step [.fill sampleUser true, .lookTTL (.incr .quota 20), .expire, .write 0]
        .start).redisHGetObj UserField.zero).map
        (fun r => [r .id, r .quota, r .status, r .group]) =
      some [.number 0, .number 20, .number 0, .text ""] := by
  decide +kernel

end NewApi.RecordCache
