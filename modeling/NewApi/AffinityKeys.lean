import NewApi.GoStrings

/-!
# Keys of the channel affinity

The channel a request should stay with is remembered under a key of the parts that its rule
includes. The cache, here the one in memory, adds its namespace.
-/
namespace NewApi.AffinityKeys

/-- A rule says which parts of a request its keys are made of. -/
structure ChannelAffinityRule where
  name : String
  includeRuleName : Bool
  includeModelName : Bool
  includeUsingGroup : Bool
  deriving DecidableEq

/-- What a part of a key stands for. -/
inductive Kind where
  | ruleName | modelName | usingGroup | value
  deriving DecidableEq

/-- A request that a rule has matched, with the value it has read from it. -/
structure Request where
  rule : ChannelAffinityRule
  modelName : String
  usingGroup : String
  affinityValue : String

/-- An empty text is left out of the key, as one that the rule does not include. -/
def part (included : Bool) (kind : Kind) (text : String) : List (Kind × String) :=
  if included && text ≠ "" then [(kind, text)] else []

namespace Request
variable (r : Request)

/-- The parts of the key in their order; the value comes last and is always there. -/
def parts : List (Kind × String) :=
  part r.rule.includeRuleName .ruleName r.rule.name ++
    (part r.rule.includeModelName .modelName r.modelName ++
      (part r.rule.includeUsingGroup .usingGroup r.usingGroup ++ [(.value, r.affinityValue)]))

/-- The texts of the key, without what they stand for. -/
def texts : List String := r.parts.map Prod.snd

/-- The texts are joined without any escaping. -/
def buildChannelAffinityCacheKeySuffix : String := ":".intercalate r.texts

end Request

/-- What every key of this cache starts with. -/
def cacheNamespace : String := "new-api:channel_affinity:v1:"

/-- A key that starts with the namespace is taken as a full key. -/
def fullKey (key : String) : String :=
  let key := trimSpace key
  if key = "" then ""
  else if startsWith key cacheNamespace then key
  else cacheNamespace ++ String.ofList (key.toList.dropWhile (· == ':'))

/-- The key under which the channel of the request is kept. -/
def Request.cacheKey (r : Request) : String := fullKey r.buildChannelAffinityCacheKeySuffix

/-- The keys that stay: an empty start deletes none. -/
def deleteByPrefix (start : String) (keys : List String) : List String :=
  let full := fullKey start
  let full := if hasSuffix full ":" then full else full ++ ":"
  if fullKey start = "" then keys else keys.filter fun key => !startsWith key full

/-- The keys that are left and the number of those removed. -/
def clearChannelAffinityCacheByRuleName (rules : List ChannelAffinityRule) (ruleName : String)
    (keys : List String) : Except String (List String × ℕ) :=
  let ruleName := trimSpace ruleName
  if ruleName = "" then .error "rule_name 不能为空"
  else match rules.find? fun r => decide (trimSpace r.name = ruleName) with
    | none => .error "未知规则名称"
    | some rule =>
      if rule.includeRuleName then
        let kept := deleteByPrefix ruleName keys
        .ok (kept, keys.length - kept.length)
      else .error "该规则未启用 include_rule_name，无法按规则清空缓存"

/-- The parts are neither empty nor hold a colon, and the cache takes the key as it is. -/
structure Plain (ts : List String) : Prop where
  texts : ∀ t ∈ ts, t ≠ "" ∧ ':' ∉ t.toList
  trimmed : trimSpace (":".intercalate ts) = ":".intercalate ts
  outside : startsWith (":".intercalate ts) cacheNamespace = false

variable {a b : Request} {rules : List ChannelAffinityRule} {name t : String} {ts : List String}

/-- Plain texts make a key that is only put behind the namespace. -/
theorem fullKey_eq (h : Plain (t :: ts)) :
    fullKey (":".intercalate (t :: ts)) = cacheNamespace ++ ":".intercalate (t :: ts) := by
  obtain ⟨hne, hcolon⟩ := h.texts t (by simp)
  obtain ⟨c, cs, ht⟩ := List.exists_cons_of_ne_nil (mt String.toList_eq_nil_iff.1 hne)
  obtain ⟨rest, hr⟩ : ∃ rest, (":".intercalate (t :: ts)).toList = c :: rest := by
    cases ts <;> simp [String.toList_intercalate, ht]
  have hc : c ≠ ':' := fun h => hcolon (by simp [ht, h])
  have hj : ":".intercalate (t :: ts) ≠ "" := fun hj => by simp [hj] at hr
  have hd : (c :: rest).dropWhile (· == ':') = c :: rest := by simp [hc]
  simp only [fullKey, h.trimmed, if_neg hj, h.outside, hr, hd, Bool.false_eq_true, if_false]
  rw [← hr, String.ofList_toList]

/-- Plain texts can be read back from the key. -/
theorem splitOn_join (h : Plain ts) (hne : ts ≠ []) :
    (":".intercalate ts).toList.splitOn ':' = ts.map String.toList := by
  rw [String.toList_intercalate]
  have hc : ∀ l ∈ ts.map String.toList, ':' ∉ l := by simpa using fun t ht => (h.texts t ht).2
  exact List.splitOn_intercalate _ hc (by simpa using hne)

/-- A joined key starts with a name iff the name is its first text and another one follows. -/
theorem join_startsWith (h : Plain ts) (hne : ts ≠ []) (hn : ':' ∉ name.toList) :
    startsWith (":".intercalate ts) (name ++ ":") ↔ ∃ u us, ts = name :: u :: us := by
  rw [startsWith_iff]
  constructor
  · rintro ⟨rest, hr⟩
    have hs := splitOn_join h hne
    have hchars : (name ++ ":" ++ rest).toList = name.toList ++ ':' :: rest.toList := by simp
    rw [hr, hchars, List.splitOn, List.splitOnP_append_cons_of_forall_mem
      (fun c hc => beq_false_of_ne (ne_of_mem_of_not_mem hc hn)) _ (by simp)] at hs
    match ts, hs with
    | [t], hs => simp [List.splitOnP_ne_nil] at hs
    | t :: u :: us, hs =>
      rw [List.map_cons, List.cons.injEq, String.toList_inj] at hs
      exact ⟨u, us, by rw [hs.1]⟩
  · rintro ⟨u, us, rfl⟩
    exact ⟨":".intercalate (u :: us), String.toList_inj.1 (by simp [String.toList_intercalate])⟩

theorem texts_ne_nil : a.texts ≠ [] := by simp [Request.texts, Request.parts]

theorem cacheKey_eq (h : Plain a.texts) :
    a.cacheKey = cacheNamespace ++ ":".intercalate a.texts := by
  obtain ⟨t, ts, ht⟩ := List.exists_cons_of_ne_nil (@texts_ne_nil a)
  rw [Request.cacheKey, Request.buildChannelAffinityCacheKeySuffix, ht, fullKey_eq (ht ▸ h)]

/-- Two requests share a key iff they have the same texts. -/
theorem cacheKey_eq_iff (ha : Plain a.texts) (hb : Plain b.texts) :
    a.cacheKey = b.cacheKey ↔ a.texts = b.texts := by
  constructor
  · intro h
    rw [cacheKey_eq ha, cacheKey_eq hb, String.append_right_inj] at h
    have hs := splitOn_join ha texts_ne_nil
    rw [h, splitOn_join hb texts_ne_nil] at hs
    exact (List.map_injective_iff.2 (fun _ _ => String.toList_inj.1) hs).symm
  · intro h
    simp only [Request.cacheKey, Request.buildChannelAffinityCacheKeySuffix, h]

/-- A rule's name deletes the keys that have it as their first text. -/
theorem removed_iff (ha : Plain a.texts) (hn : Plain [name]) {keys : List String}
    (hk : a.cacheKey ∈ keys) :
    a.cacheKey ∉ deleteByPrefix name keys ↔ ∃ u us, a.texts = name :: u :: us := by
  have hfull : fullKey name = cacheNamespace ++ name := by simpa using fullKey_eq hn
  obtain ⟨hne, hc⟩ := hn.texts name (by simp)
  have hs : hasSuffix (cacheNamespace ++ name) ":" = false := by
    obtain hnil | ⟨l, c, hl⟩ := List.eq_nil_or_concat name.toList
    · exact absurd (String.toList_eq_nil_iff.1 hnil) hne
    · refine Bool.eq_false_iff.2 fun h => hc ?_
      obtain ⟨front, hf⟩ := List.isSuffixOf_iff_suffix.1 h
      rw [String.toList_append, hl, List.concat_eq_append, ← List.append_assoc] at hf
      have := (List.append_inj' hf rfl).2
      simp_all
  rw [cacheKey_eq ha] at hk
  rw [← join_startsWith ha texts_ne_nil hc, cacheKey_eq ha, deleteByPrefix, hfull, hs,
    if_neg (by simp [hne]), List.mem_filter]
  simp [hk, startsWith, List.append_assoc]

/-- A request of a rule that puts its name and the model in front of the value. -/
def codexRequest : Request := ⟨⟨"codex", true, true, false⟩, "gpt", "", "s1"⟩

end NewApi.AffinityKeys
