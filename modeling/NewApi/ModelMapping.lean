import Mathlib.Logic.Relation
import NewApi.ChannelIsolation

/-!
# Following a model mapping

A request goes by the end of the chain that the mapping of its channel leads to from the name of
the model. `followMapping` has fuel for every name that the mapping has, so that it always comes
to the end of the chain or back to a name.
-/
namespace NewApi.Headers
open Relation

abbrev Mapping := List (String × String)

def Leads (mapping : Mapping) (name next : String) : Prop :=
  trimSpace ((mapping.lookup name).getD "") = next ∧ next ≠ "" ∧ next ≠ name

abbrev Reaches (mapping : Mapping) : String → String → Prop := ReflTransGen (Leads mapping)

/-- The name is on a cycle, of at least two names. -/
abbrev OnCycle (mapping : Mapping) (name : String) : Prop := TransGen (Leads mapping) name name

/-- The end of the chain from a name, or that there is a cycle. Nothing else can come of a loop
that ends by itself. -/
def Follows (mapping : Mapping) (current : String) : Except MappingError String → Prop
  | .ok name => Reaches mapping current name ∧ ∀ next, ¬Leads mapping name next
  | .error .containsCycle => ∃ name, Reaches mapping current name ∧ OnCycle mapping name
  | .error _ => False

section
variable {mapping : Mapping} {modelName current name next : String} {visited : List String}

theorem Leads.mem (h : Leads mapping name next) : next ∈ mapping.map fun e => trimSpace e.2 := by
  obtain ⟨rfl, hbl, -⟩ := h
  cases hname : mapping.lookup name with
  | none => simp [hname, trimSpace] at hbl
  | some value =>
    obtain ⟨front, rest, rfl, -⟩ := List.lookup_eq_some_iff.mp hname
    simp

theorem Follows.head (hstep : Leads mapping current next)
    {r : Except MappingError String} (h : Follows mapping next r) : Follows mapping current r := by
  cases r with
  | ok name => exact ⟨.head hstep h.1, h.2⟩
  | error e =>
    cases e with
    | containsCycle =>
      obtain ⟨name, hre, hcyc⟩ := h
      exact ⟨name, .head hstep hre, hcyc⟩
    | unmarshalFailed => exact h
    | unfinished => exact h

/-- The names visited are different, so that the fuel is enough for them. -/
theorem followMapping_follows {fuel : ℕ} (hfuel : mapping.length + 1 < fuel + visited.length)
    (hnd : visited.Nodup) (hnm : visited ⊆ modelName :: mapping.map fun e => trimSpace e.2)
    (h : ∀ name ∈ visited, Reaches mapping name current) :
    Follows mapping current (followMapping mapping fuel visited current) := by
  induction fuel generalizing visited current with
  | zero =>
    have hlen := (hnd.subperm hnm).length_le
    rw [List.length_cons, List.length_map] at hlen
    omega
  | succ fuel ih =>
    unfold followMapping
    dsimp only
    split_ifs with hend hseen
    · refine ⟨.refl, ?_⟩
      rintro next ⟨rfl, hbl, hself⟩
      exact hend.elim hbl hself
    all_goals
      have hstep : Leads mapping current _ := ⟨rfl, not_or.mp hend⟩
    · exact ⟨current, .refl, .head' hstep (h _ hseen)⟩
    · refine .head hstep (ih (by rw [List.length_cons]; omega) (hnd.cons hseen) ?_ ?_)
      · exact List.cons_subset.mpr ⟨List.mem_cons_of_mem _ hstep.mem, hnm⟩
      · exact List.forall_mem_cons.mpr ⟨.refl, fun name hname => (h name hname).tail hstep⟩

/-- Whatever a name on a cycle leads to is on a cycle. -/
theorem cycle_of_reach (hre : Reaches mapping name next) (hcyc : OnCycle mapping name) :
    OnCycle mapping next := by
  induction hre with
  | refl => exact hcyc
  | tail _ hstep ih =>
    obtain ⟨other, hoth, hback⟩ := TransGen.head'_iff.mp ih
    cases hoth.1.symm.trans hstep.1
    exact .tail' hback hstep

theorem not_cycle_of_end (hre : Reaches mapping current name)
    (hend : ∀ next, ¬Leads mapping name next) (hcur : Reaches mapping current next) :
    ¬OnCycle mapping next := by
  intro hcyc
  have hunique : Relator.RightUnique (Leads mapping) := fun _ _ _ h h' => h.1.symm.trans h'.1
  have hname : OnCycle mapping name := by
    rcases ReflTransGen.total_of_right_unique hunique hre hcur with hfrom | hto
    · rcases hfrom.cases_head with rfl | ⟨other, hoth, -⟩
      · exact hcyc
      · exact absurd hoth (hend other)
    · exact cycle_of_reach hto hcyc
  obtain ⟨other, hoth, -⟩ := TransGen.head'_iff.mp hname
  exact hend other hoth

theorem resolveModelMapping_of_end (hend : ∀ next, ¬Leads mapping name next) :
    resolveModelMapping name (some mapping) = .ok (name, false) := by
  rw [resolveModelMapping, followMapping, if_pos]
  · simp [Except.map]
  · by_contra hgoes
    exact hend _ ⟨rfl, not_or.mp hgoes⟩

def mappingModelName (info : RelayInfo) : String :=
  if info.relayMode = .responsesCompact then trimSuffix info.originModelName compactModelSuffix
  else info.originModelName

theorem followMapping_start (mapping : Mapping) (name : String) :
    Follows mapping name (followMapping mapping (mapping.length + 1) [name] name) :=
  followMapping_follows (by simp) (List.nodup_singleton name)
    (List.cons_subset.mpr ⟨List.mem_cons_self, List.nil_subset _⟩) (by simp [ReflTransGen.refl])

/-- The names of the helper are those of the resolution: a mapped name is not blank. -/
theorem modelMappedHelper_resolves (mapping : Mapping) (c : GinContext) (info : RelayInfo) :
    (modelMappedHelper { c with modelMapping := some mapping } info).map
        (fun info => (info.channel.upstreamModelName, info.channel.isModelMapped)) =
      resolveModelMapping (mappingModelName info) (some mapping) := by
  have h := followMapping_start mapping (mappingModelName info)
  unfold mappingModelName at h ⊢
  simp only [modelMappedHelper, mappedNames, resolveModelMapping]
  split_ifs at h ⊢ with hmode
  · generalize followMapping _ _ _ _ = r at h ⊢
    cases r with
    | error e => rfl
    | ok name =>
      obtain hsame | ⟨other, -, -, hbl, -⟩ := h.1.cases_tail
      · simp [Except.map, hsame]
      · simpa [Except.map, hbl] using Eq.symm
  · generalize followMapping _ _ _ _ = r
    cases r <;> rfl

end

/-- The model of a request is always resolved or refused. It is refused exactly if the mapping
leads to a cycle of several names; otherwise it is the end of the chain, which resolves to itself,
and mapped if this is another name. -/
theorem mapping_resolved (mapping : Mapping) (c : GinContext) (info : RelayInfo) :
    let resolved := modelMappedHelper { c with modelMapping := some mapping } info
    let cyclic := ∃ name, Reaches mapping (mappingModelName info) name ∧ OnCycle mapping name
    (cyclic ∧ resolved = .error .containsCycle) ∨ ¬cyclic ∧ ∃ info', resolved = .ok info' ∧
      let name := info'.channel.upstreamModelName
      Reaches mapping (mappingModelName info) name ∧ (∀ next, ¬Leads mapping name next) ∧
        resolveModelMapping name (some mapping) = .ok (name, false) ∧
        (info'.channel.isModelMapped = true ↔ name ≠ mappingModelName info) := by
  intro resolved cyclic
  have h := followMapping_start mapping (mappingModelName info)
  have hres : resolved.map _ = _ := modelMappedHelper_resolves mapping c info
  rw [resolveModelMapping] at hres
  generalize followMapping _ _ _ _ = r at h hres
  cases r with
  | error e =>
    cases e with
    | containsCycle =>
      refine .inl ⟨h, ?_⟩
      cases hr : resolved with
      | error e => rw [hr] at hres; exact congrArg _ (Except.error.inj hres)
      | ok info' => rw [hr] at hres; cases hres
    | unmarshalFailed => exact h.elim
    | unfinished => exact h.elim
  | ok name =>
    cases hr : resolved with
    | error e => rw [hr] at hres; cases hres
    | ok info' =>
      rw [hr] at hres
      obtain ⟨rfl, hmapped⟩ := Prod.mk.inj (Except.ok.inj hres)
      refine .inr ⟨?_, info', rfl, h.1, h.2, resolveModelMapping_of_end h.2, ?_⟩
      · rintro ⟨name, hname, hcyc⟩
        exact not_cycle_of_end h.1 h.2 hname hcyc
      · rw [hmapped]
        exact decide_eq_true_iff

end NewApi.Headers
