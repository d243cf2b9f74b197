import NewApi.HeaderOverride

/-!
# Pruning the objects of a type

`prune_objects` with a text removes the objects of this `type` from a document, however deep
they lie. The context of the condition is empty. A document is given by its value, in which numbers
that are equal have the same text and the fields of an object have different names. Decoding makes a
`float64` of every number, and encoding writes the shortest text for it: `recode` is the text then,
or `none` for a number out of range.
-/
namespace NewApi.PruneObjects

open Headers NewApi

/-- `compareEqual` of a value with a text, as `checkSingleCondition` reports it. -/
def compareEqual (value : Json) (target : String) : Except String Bool :=
  let different (kind : String) : Except String Bool := .error ("comparison failed for path " ++
    "type: compare for different types, got " ++ kind ++ " and String")
  match value with
  | .null => .ok false
  | .str s => .ok (decide (s = target))
  | .num _ => different "Number"
  | .bool b => different (if b then "True" else "False")
  | .arr _ | .obj _ => different "JSON"

/-- The condition a text stands for: the path `type` in the mode `full`. -/
def shouldPruneObject (type : String) (node : List (String × Json)) : Except String Bool :=
  match Json.field node "type" with
  | none => .ok false
  | some value => compareEqual value type

mutual
/-- The texts of the numbers in a document, in their order. -/
def numbers : Json → List String
  | .num text => [text]
  | .arr items => itemNumbers items
  | .obj fields => fieldNumbers fields
  | _ => []

def itemNumbers : List Json → List String
  | [] => []
  | v :: vs => numbers v ++ itemNumbers vs

def fieldNumbers : List (String × Json) → List String
  | [] => []
  | (_, v) :: fs => numbers v ++ fieldNumbers fs
end

mutual
/-- The document with `f` applied to its numbers. -/
def mapNumbers (f : String → String) : Json → Json
  | .num text => .num (f text)
  | .arr items => .arr (mapItems f items)
  | .obj fields => .obj (mapFields f fields)
  | v => v

def mapItems (f : String → String) : List Json → List Json
  | [] => []
  | v :: vs => mapNumbers f v :: mapItems f vs

def mapFields (f : String → String) : List (String × Json) → List (String × Json)
  | [] => []
  | (k, v) :: fs => (k, mapNumbers f v) :: mapFields f fs
end

/-- The document as `Unmarshal` reads it and `Marshal` writes it again. -/
def decode (recode : String → Option String) (root : Json) : Except String Json :=
  match (numbers root).find? fun text => recode text = none with
  | some text =>
    .error ("json: cannot unmarshal number " ++ text ++ " into Go value of type float64")
  | none => .ok (mapNumbers (fun text => (recode text).getD text) root)

mutual
/-- The node without what is dropped in it, `none` where it is dropped itself. -/
def pruneObjectsNode (type : String) : Json → Bool → Except String (Option Json)
  | .arr items, _ => do return some (.arr (← pruneItems type items))
  | .obj fields, isRoot => do
    let shouldDrop ← shouldPruneObject type fields
    if shouldDrop && !isRoot then return none
    return some (.obj (← pruneFields type fields))
  | node, _ => return some node

def pruneItems (type : String) : List Json → Except String (List Json)
  | [] => return []
  | item :: items => do
    let next ← pruneObjectsNode type item false
    return next.toList ++ (← pruneItems type items)

def pruneFields (type : String) : List (String × Json) → Except String (List (String × Json))
  | [] => return []
  | (key, child) :: fields => do
    let next ← pruneObjectsNode type child false
    return next.toList.map (key, ·) ++ (← pruneFields type fields)
end

def pruneObjects (recode : String → Option String) (value : String) (root : Json) :
    Except String Json := do
  if trimSpace value = "" then throw "prune_objects value is required"
  let root ← decode recode root
  return (← pruneObjectsNode (trimSpace value) root true).getD .null

def hasType (type : String) : Json → Bool
  | .obj fields => match Json.field fields "type" with
    | some (.str s) => decide (s = type)
    | _ => false
  | _ => false

/-- The `type` of an object is missing, `null` or a text. -/
def textType : Json → Bool
  | .obj fields => match Json.field fields "type" with
    | none | some .null | some (.str _) => true
    | _ => false
  | _ => true

mutual
/-- The value without the objects of the type below it. -/
def without (type : String) : Json → Json
  | .arr items => .arr (withoutItems type items)
  | .obj fields => .obj (withoutFields type fields)
  | v => v

def withoutItems (type : String) : List Json → List Json
  | [] => []
  | v :: vs =>
    if hasType type v then withoutItems type vs else without type v :: withoutItems type vs

def withoutFields (type : String) : List (String × Json) → List (String × Json)
  | [] => []
  | (k, v) :: fs =>
    if hasType type v then withoutFields type fs else (k, without type v) :: withoutFields type fs
end

mutual
/-- Every value below satisfies `p`, where objects of the type are not entered. -/
def below (type : String) (p : Json → Bool) : Json → Bool
  | .arr items => belowItems type p items
  | .obj fields => belowFields type p fields
  | _ => true

def belowItems (type : String) (p : Json → Bool) : List Json → Bool
  | [] => true
  | v :: vs => p v && (hasType type v || below type p v) && belowItems type p vs

def belowFields (type : String) (p : Json → Bool) : List (String × Json) → Bool
  | [] => true
  | (_, v) :: fs => p v && (hasType type v || below type p v) && belowFields type p fs
end

variable {type : String}

theorem bind_eq_ok {α β : Type} {x : Except String α} {f : α → Except String β} {b : β} :
    (x >>= f) = .ok b ↔ ∃ a, x = .ok a ∧ f a = .ok b := by
  cases x with
  | error e => simp [bind, Except.bind]
  | ok a => simp [bind, Except.bind]

theorem shouldPruneObject_eq_ok {fields : List (String × Json)} {b : Bool} :
    shouldPruneObject type fields = .ok b ↔
      textType (.obj fields) ∧ hasType type (.obj fields) = b := by
  simp only [shouldPruneObject, textType, hasType]
  cases Json.field fields "type" with
  | none => simp
  | some v => cases v <;> simp [compareEqual]

mutual
theorem pruneObjectsNode_eq_ok : ∀ (v : Json) (isRoot : Bool) (r : Option Json),
    pruneObjectsNode type v isRoot = .ok r ↔
      (textType v ∧ (hasType type v && !isRoot ∨ below type textType v)) ∧
      (if hasType type v && !isRoot then none else some (without type v)) = r
  | .arr items, isRoot, r => by
    simp [pruneObjectsNode, bind_eq_ok, pruneItems_eq_ok items, textType, hasType, below, without,
      pure, Except.pure]
  | .obj fields, isRoot, r => by
    simp only [pruneObjectsNode, bind_eq_ok, shouldPruneObject_eq_ok, below, without]
    cases hasType type (.obj fields) <;> cases isRoot <;>
      simp [bind_eq_ok, pruneFields_eq_ok fields, pure, Except.pure, and_assoc]
  | .null, _, r | .bool _, _, r | .num _, _, r | .str _, _, r => by
    simp [pruneObjectsNode, textType, hasType, below, without, pure, Except.pure]

theorem pruneItems_eq_ok : ∀ (items r : List Json), pruneItems type items = .ok r ↔
    belowItems type textType items ∧ withoutItems type items = r
  | [], r => by simp [pruneItems, belowItems, withoutItems, pure, Except.pure]
  | v :: vs, r => by
    simp only [pruneItems, bind_eq_ok, pruneObjectsNode_eq_ok v, pruneItems_eq_ok vs, belowItems,
      withoutItems]
    cases hasType type v <;> simp [pure, Except.pure, and_assoc]

theorem pruneFields_eq_ok : ∀ fields r : List (String × Json), pruneFields type fields = .ok r ↔
    belowFields type textType fields ∧ withoutFields type fields = r
  | [], r => by simp [pruneFields, belowFields, withoutFields, pure, Except.pure]
  | (k, v) :: fs, r => by
    simp only [pruneFields, bind_eq_ok, pruneObjectsNode_eq_ok v, pruneFields_eq_ok fs, belowFields,
      withoutFields]
    cases hasType type v <;> simp [pure, Except.pure, and_assoc]
end

/-- What is dropped from an object is never its `type`, which is a text. -/
theorem field_without : ∀ {fields : List (String × Json)}, textType (.obj fields) →
    Json.field (withoutFields type fields) "type" = Json.field fields "type"
  | [], _ => rfl
  | (k, v) :: fs, h => by
    by_cases hk : "type" = k
    · cases v <;> simp_all [textType, Json.field, withoutFields, hasType, without]
    · have hf : ∀ w, Json.field ((k, w) :: fs) "type" = Json.field fs "type" := fun w => by
        simp [Json.field, List.lookup_cons, beq_false_of_ne hk]
      have ih := @field_without fs (by simpa only [textType, hf] using h)
      rw [hf, ← ih, withoutFields]
      split
      · rfl
      · simp [Json.field, List.lookup_cons, beq_false_of_ne hk]

theorem types_without {v : Json} (h : textType v) :
    textType (without type v) ∧ hasType type (without type v) = hasType type v := by
  cases v with
  | obj fields => simpa [without, textType, hasType, field_without h] using h
  | _ => simp [without, textType, hasType]

mutual
/-- Nothing of the type is left, and pruning meets no error and finds nothing to do there. -/
theorem without_clean : ∀ v : Json, below type textType v →
    below type textType (without type v) ∧ below type (!hasType type ·) (without type v) ∧
      without type (without type v) = without type v
  | .arr items, h => by simpa [without, below] using withoutItems_clean items h
  | .obj fields, h => by simpa [without, below] using withoutFields_clean fields h
  | .null, _ | .bool _, _ | .num _, _ | .str _, _ => by simp [without, below]

theorem withoutItems_clean : ∀ items : List Json, belowItems type textType items →
    belowItems type textType (withoutItems type items) ∧
      belowItems type (!hasType type ·) (withoutItems type items) ∧
      withoutItems type (withoutItems type items) = withoutItems type items
  | [], _ => by simp [withoutItems, belowItems]
  | v :: vs, h => by
    simp only [belowItems, Bool.and_eq_true] at h
    have hvs := withoutItems_clean vs h.2
    cases hv : hasType type v with
    | true => simpa [withoutItems, hv] using hvs
    | false =>
      have hw := without_clean v (by simpa [hv] using h.1.2)
      simp [withoutItems, belowItems, hv, types_without h.1.1, hw, hvs]

theorem withoutFields_clean : ∀ fields : List (String × Json), belowFields type textType fields →
    belowFields type textType (withoutFields type fields) ∧
      belowFields type (!hasType type ·) (withoutFields type fields) ∧
      withoutFields type (withoutFields type fields) = withoutFields type fields
  | [], _ => by simp [withoutFields, belowFields]
  | (k, v) :: fs, h => by
    simp only [belowFields, Bool.and_eq_true] at h
    have hfs := withoutFields_clean fs h.2
    cases hv : hasType type v with
    | true => simpa [withoutFields, hv] using hfs
    | false =>
      have hw := without_clean v (by simpa [hv] using h.1.2)
      simp [withoutFields, belowFields, hv, types_without h.1.1, hw, hfs]
end

/-! ## Decoding -/

section
variable {f : String → String}

theorem field_mapFields (key : String) (fields : List (String × Json)) :
    Json.field (mapFields f fields) key = (Json.field fields key).map (mapNumbers f) := by
  induction fields with
  | nil => rfl
  | cons e fields ih =>
    obtain ⟨k, v⟩ := e
    by_cases hk : key = k
    · simp [Json.field, mapFields, hk]
    · simpa [Json.field, mapFields, List.lookup_cons, beq_false_of_ne hk] using ih

/-- A number never makes the `type` of an object another one. -/
theorem types_mapNumbers (type : String) (v : Json) :
    textType (mapNumbers f v) = textType v ∧ hasType type (mapNumbers f v) = hasType type v := by
  cases v with
  | obj fields =>
    simp only [mapNumbers, textType, hasType, field_mapFields]
    cases Json.field fields "type" with
    | none => exact ⟨rfl, rfl⟩
    | some w => cases w <;> exact ⟨rfl, rfl⟩
  | _ => exact ⟨rfl, rfl⟩

mutual
/-- Pruning treats a document alike, whatever its numbers are, and adds none. -/
theorem without_mapNumbers : ∀ v : Json,
    below type textType (mapNumbers f v) = below type textType v ∧
      without type (mapNumbers f v) = mapNumbers f (without type v) ∧
      numbers (without type v) ⊆ numbers v
  | .arr items => by
    simpa [mapNumbers, below, without, numbers] using withoutItems_mapItems items
  | .obj fields => by
    simpa [mapNumbers, below, without, numbers] using withoutFields_mapFields fields
  | .null | .bool _ | .num _ | .str _ => by simp [mapNumbers, below, without]

theorem withoutItems_mapItems : ∀ items : List Json,
    belowItems type textType (mapItems f items) = belowItems type textType items ∧
      withoutItems type (mapItems f items) = mapItems f (withoutItems type items) ∧
      itemNumbers (withoutItems type items) ⊆ itemNumbers items
  | [] => by simp [mapItems, belowItems, withoutItems]
  | v :: vs => by
    obtain ⟨htext, htype⟩ := @types_mapNumbers f type v
    obtain ⟨hbel, hwith, hsub⟩ := without_mapNumbers v
    obtain ⟨hbels, hwiths, hsubs⟩ := withoutItems_mapItems vs
    simp only [mapItems, belowItems, withoutItems, htext, htype, hbel, hbels, true_and]
    split_ifs
    · exact ⟨hwiths, List.subset_append_of_subset_right _ hsubs⟩
    · exact ⟨by rw [hwith, hwiths, mapItems], List.append_subset.mpr
        ⟨List.subset_append_of_subset_left _ hsub, List.subset_append_of_subset_right _ hsubs⟩⟩

theorem withoutFields_mapFields : ∀ fields : List (String × Json),
    belowFields type textType (mapFields f fields) = belowFields type textType fields ∧
      withoutFields type (mapFields f fields) = mapFields f (withoutFields type fields) ∧
      fieldNumbers (withoutFields type fields) ⊆ fieldNumbers fields
  | [] => by simp [mapFields, belowFields, withoutFields]
  | (k, v) :: fs => by
    obtain ⟨htext, htype⟩ := @types_mapNumbers f type v
    obtain ⟨hbel, hwith, hsub⟩ := without_mapNumbers v
    obtain ⟨hbels, hwiths, hsubs⟩ := withoutFields_mapFields fs
    simp only [mapFields, belowFields, withoutFields, htext, htype, hbel, hbels, true_and]
    split_ifs
    · exact ⟨hwiths, List.subset_append_of_subset_right _ hsubs⟩
    · exact ⟨by rw [hwith, hwiths, mapFields], List.append_subset.mpr
        ⟨List.subset_append_of_subset_left _ hsub, List.subset_append_of_subset_right _ hsubs⟩⟩
end

mutual
theorem mapNumbers_eq_self : ∀ v : Json, mapNumbers f v = v ↔ ∀ t ∈ numbers v, f t = t
  | .arr items => by simpa [mapNumbers, numbers] using mapItems_eq_self items
  | .obj fields => by simpa [mapNumbers, numbers] using mapFields_eq_self fields
  | .null | .bool _ | .num _ | .str _ => by simp [mapNumbers, numbers]

theorem mapItems_eq_self : ∀ items : List Json,
    mapItems f items = items ↔ ∀ t ∈ itemNumbers items, f t = t
  | [] => by simp [mapItems, itemNumbers]
  | v :: vs => by
    simp [mapItems, itemNumbers, mapNumbers_eq_self v, mapItems_eq_self vs, or_imp, forall_and]

theorem mapFields_eq_self : ∀ fields : List (String × Json),
    mapFields f fields = fields ↔ ∀ t ∈ fieldNumbers fields, f t = t
  | [] => by simp [mapFields, fieldNumbers]
  | (k, v) :: fs => by
    simp [mapFields, fieldNumbers, mapNumbers_eq_self v, mapFields_eq_self fs, or_imp, forall_and]
end

end

theorem decode_eq_ok {recode : String → Option String} {v w : Json} :
    decode recode v = .ok w ↔ (∀ t ∈ numbers v, recode t ≠ none) ∧
      mapNumbers (fun text => (recode text).getD text) v = w := by
  unfold decode
  split
  · rename_i text h
    refine iff_of_false (by simp) fun hall => hall.1 text (List.mem_of_find?_eq_some h) ?_
    simpa using List.find?_some h
  · rename_i h
    rw [List.find?_eq_none] at h
    simpa using fun _ => h

/-- The pass removes what it should from the decoded document, unless it meets a `type` that is no
text. -/
theorem pruneObjects_eq_ok (recode : String → Option String) (ht : trimSpace type = type)
    (hne : type ≠ "") (root v : Json) :
    pruneObjects recode type root = .ok v ↔
      (textType root ∧ below type textType root) ∧ (∀ t ∈ numbers root, recode t ≠ none) ∧
        mapNumbers (fun text => (recode text).getD text) (without type root) = v := by
  have htypes := fun f => (@types_mapNumbers f type root).1
  have hbelow := fun f => @without_mapNumbers type f root
  simp only [pruneObjects, ht, hne, if_false, pure, Except.pure, bind_eq_ok, decode_eq_ok,
    pruneObjectsNode_eq_ok, Bool.not_true, Bool.and_false, Bool.false_eq_true, false_or,
    Except.ok.injEq, ↓existsAndEq, and_true, Option.getD_some, htypes, hbelow]
  exact and_left_comm

/-- What becomes of two numbers that are no `float64`, and of all others. -/
def recodeSample (text : String) : Option String :=
  if text = "9007199254740993" then some "9007199254740992"
  else if text = "1e400" then none
  else some text

end NewApi.PruneObjects
