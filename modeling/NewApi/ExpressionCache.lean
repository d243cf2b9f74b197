import Mathlib.Data.List.AList
import NewApi.GoStrings
import NewApi.Runs

/-!
# The cache of billing expressions

Compiled expressions are kept under the hash of their text (`pkg/billingexpr/compile.go`). Every
access holds the lock for one look-up or one write, and other goroutines may write between two
accesses of one call: they store an expression that they have compiled, or clear the cache. What
they write in such a gap is a parameter, as are the expression library and the hash. Running a
program is a function of the program and the inputs of the request.
-/
namespace NewApi.ExpressionCache

/-- The expression library. `Input` is all that a program is run on. -/
structure Lib (Program Input Output : Type) where
  compile : ℕ → String → Except String Program
  identifiers : Program → List String
  run : Program → Input → Except String Output
  hash : String → String

structure CachedEntry (Program : Type) where
  prog : Program
  usedVars : List String
  version : ℕ

abbrev Cache (Program : Type) := AList fun _ : String => CachedEntry Program

def maxCacheSize : ℕ := 256

def parseExprVersion (exprStr : String) : ℕ × String :=
  if startsWith exprStr "v1:" then (1, (exprStr.drop 3).toString) else (1, exprStr)

section
variable {Program Input Output : Type} (lib : Lib Program Input Output)

/-- The entry of an expression, without the cache. -/
def compiled (exprStr : String) : Except String (CachedEntry Program) :=
  let (version, body) := parseExprVersion exprStr
  match lib.compile version body with
  | .error e => .error ("expr compile error: " ++ e)
  | .ok prog => .ok ⟨prog, lib.identifiers prog, version⟩

/-- The last section of a compilation: a full cache is replaced by an empty one. -/
def store (hash : String) (entry : CachedEntry Program) (cache : Cache Program) : Cache Program :=
  (if maxCacheSize ≤ cache.entries.length then ∅ else cache).insert hash entry

/-- What other goroutines do to the cache. -/
inductive Write where
  | compile (exprStr : String)
  | invalidateCache

def Write.step : Write → Cache Program → Cache Program
  | .compile exprStr, cache =>
    match compiled lib exprStr with
    | .error _ => cache
    | .ok entry => store (lib.hash exprStr) entry cache
  | .invalidateCache, _ => ∅

/-- Other writes may fall between the look and the store. -/
def compileFromCache (exprStr : String) (gap : List Write) (cache : Cache Program) :
    Except String Program × Cache Program :=
  match cache.lookup (lib.hash exprStr) with
  | some entry => (.ok entry.prog, cache)
  | none =>
    match compiled lib exprStr with
    | .error e => (.error e, cache)
    | .ok entry => (.ok entry.prog, store (lib.hash exprStr) entry (run (Write.step lib) gap cache))

def runExpr (exprStr : String) (input : Input) (gap : List Write) (cache : Cache Program) :
    Except String Output :=
  (compileFromCache lib exprStr gap cache).1.bind fun prog => lib.run prog input

/-- The cache at the last look-up of `UsedVars`, if the first one has missed. -/
def compiledCache (exprStr : String) (gap₁ gap₂ gap₃ : List Write) (cache : Cache Program) :
    Cache Program :=
  let (_, cache) := compileFromCache lib exprStr gap₂ (run (Write.step lib) gap₁ cache)
  run (Write.step lib) gap₃ cache

/-- The names of the map; the nil map has none. -/
def usedVars (exprStr : String) (gap₁ gap₂ gap₃ : List Write) (cache : Cache Program) :
    List String :=
  if exprStr = "" then []
  else
    match cache.lookup (lib.hash exprStr) with
    | some entry => entry.usedVars
    | none =>
      match (compileFromCache lib exprStr gap₂ (run (Write.step lib) gap₁ cache)).1 with
      | .error _ => []
      | .ok _ =>
        match (compiledCache lib exprStr gap₁ gap₂ gap₃ cache).lookup (lib.hash exprStr) with
        | some entry => entry.usedVars
        | none => []

/-- What an expression means. -/
def runUncached (exprStr : String) (input : Input) : Except String Output :=
  (compiled lib exprStr).bind fun entry => lib.run entry.prog input

def usedVarsUncached (exprStr : String) : List String :=
  if exprStr = "" then []
  else
    match compiled lib exprStr with
    | .error _ => []
    | .ok entry => entry.usedVars

/-- No other expression that is written has the hash of this one. -/
def Write.Apart (exprStr : String) : Write → Prop
  | .compile other => lib.hash other = lib.hash exprStr → other = exprStr
  | .invalidateCache => True

/-- What the cache has under the hash of an expression is that expression, compiled. -/
def Holds (exprStr : String) (cache : Cache Program) : Prop :=
  ∀ entry ∈ cache.lookup (lib.hash exprStr), compiled lib exprStr = .ok entry

variable {Program Input Output : Type} {lib : Lib Program Input Output} {exprStr : String}
  {cache : Cache Program}

section
variable (h : Holds lib exprStr cache)
include h

theorem Holds.store {other : String} {entry : CachedEntry Program}
    (hent : compiled lib other = .ok entry) (hap : (Write.compile other).Apart lib exprStr) :
    Holds lib exprStr (store (lib.hash other) entry cache) := by
  have hbase : Holds lib exprStr (if maxCacheSize ≤ cache.entries.length then ∅ else cache) := by
    split_ifs
    · exact fun entry hent => by simp at hent
    · exact h
  intro e he
  by_cases hhash : lib.hash exprStr = lib.hash other
  · rw [ExpressionCache.store, hhash, AList.lookup_insert] at he
    cases he
    rw [← hap hhash.symm, hent]
  · rw [ExpressionCache.store, AList.lookup_insert_ne hhash] at he
    exact hbase e he

theorem Holds.step {w : Write} (hap : w.Apart lib exprStr) :
    Holds lib exprStr (w.step lib cache) := by
  cases w with
  | invalidateCache => exact fun entry hent => by simp [Write.step] at hent
  | compile other =>
    unfold Write.step
    dsimp only
    split
    · exact h
    next hent => exact h.store hent hap

theorem Holds.run {writes : List Write} (hap : ∀ w ∈ writes, w.Apart lib exprStr) :
    Holds lib exprStr (NewApi.run (Write.step lib) writes cache) :=
  run_invariant_of_forall (fun _ _ hw hc => hc.step hw) hap h

theorem Holds.compileFromCache {gap : List Write} (hgap : ∀ w ∈ gap, w.Apart lib exprStr) :
    (compileFromCache lib exprStr gap cache).1 = (compiled lib exprStr).map CachedEntry.prog ∧
      Holds lib exprStr (compileFromCache lib exprStr gap cache).2 := by
  unfold ExpressionCache.compileFromCache
  split
  next entry hent =>
    rw [h entry hent]
    exact ⟨rfl, h⟩
  · split
    next hent => exact ⟨by rw [hent]; rfl, h⟩
    next entry hent => exact ⟨by rw [hent]; rfl, (h.run hgap).store hent fun _ => rfl⟩

theorem Holds.runExpr {gap : List Write} (hgap : ∀ w ∈ gap, w.Apart lib exprStr) (input : Input) :
    runExpr lib exprStr input gap cache = runUncached lib exprStr input := by
  rw [ExpressionCache.runExpr, (h.compileFromCache hgap).1, runUncached]
  cases compiled lib exprStr <;> rfl

theorem Holds.usedVars_eq_iff {gap₁ gap₂ gap₃ : List Write}
    (h₁ : ∀ w ∈ gap₁, w.Apart lib exprStr) (h₂ : ∀ w ∈ gap₂, w.Apart lib exprStr)
    (h₃ : ∀ w ∈ gap₃, w.Apart lib exprStr) :
    usedVars lib exprStr gap₁ gap₂ gap₃ cache = usedVarsUncached lib exprStr ↔
      usedVarsUncached lib exprStr = [] ∨ (cache.lookup (lib.hash exprStr)).isSome ∨
        ((compiledCache lib exprStr gap₁ gap₂ gap₃ cache).lookup (lib.hash exprStr)).isSome := by
  obtain ⟨hprog, hsto⟩ := (h.run h₁).compileFromCache h₂
  have hlast : Holds lib exprStr (compiledCache lib exprStr gap₁ gap₂ gap₃ cache) := hsto.run h₃
  unfold usedVars usedVarsUncached
  by_cases hne : exprStr = ""
  · simp [hne]
  rw [if_neg hne, if_neg hne, hprog]
  cases hfst : cache.lookup (lib.hash exprStr) with
  | some entry => simp [h entry hfst]
  | none =>
    cases hcomp : compiled lib exprStr with
    | error e => simp [Except.map]
    | ok entry =>
      cases hthird : (compiledCache lib exprStr gap₁ gap₂ gap₃ cache).lookup (lib.hash exprStr) with
      | none => simp [Except.map, eq_comm]
      | some found =>
        have hfnd := hlast found hthird
        rw [hcomp] at hfnd
        cases hfnd
        simp [Except.map]

end

end

/-- Compiling and running do not show the cache. The variables of an expression are the real ones
iff it has none, the first look-up finds them, or they are still there at the last look-up. -/
theorem cache_transparent_iff {Program Input Output : Type} (lib : Lib Program Input Output)
    (exprStr : String) (input : Input) (earlier gap₁ gap₂ gap₃ : List Write)
    (hapart : ∀ w ∈ earlier ++ gap₁ ++ gap₂ ++ gap₃, w.Apart lib exprStr) :
    let cache := run (Write.step lib) earlier ∅
    (compileFromCache lib exprStr gap₁ cache).1 = (compiled lib exprStr).map CachedEntry.prog ∧
      runExpr lib exprStr input gap₁ cache = runUncached lib exprStr input ∧
      (usedVars lib exprStr gap₁ gap₂ gap₃ cache = usedVarsUncached lib exprStr ↔
        usedVarsUncached lib exprStr = [] ∨ (cache.lookup (lib.hash exprStr)).isSome ∨
          ((compiledCache lib exprStr gap₁ gap₂ gap₃ cache).lookup (lib.hash exprStr)).isSome) := by
  simp only [List.mem_append, or_imp, forall_and] at hapart
  obtain ⟨⟨⟨hearl, h₁⟩, h₂⟩, h₃⟩ := hapart
  have hemp : Holds lib exprStr ∅ := fun entry hent => by simp at hent
  have h := hemp.run hearl
  exact ⟨(h.compileFromCache h₁).1, h.runExpr h₁ input, h.usedVars_eq_iff h₁ h₂ h₃⟩

/-- A library in which every text compiles to itself and names one variable. -/
def plainLib : Lib String Unit String := ⟨fun _ body => .ok body, fun body => [body], fun p _ => .ok p, id⟩

theorem cache_transparent_plain :
    usedVars plainLib "p" [.compile "c"] [] [.compile "len"] ∅ = ["p"] :=
  (cache_transparent_iff plainLib "p" () [] [.compile "c"] [] [.compile "len"]
    (by simp [Write.Apart, plainLib])).2.2.mpr (.inr (.inr (by decide)))

/-- Another goroutine clears the cache before the last look-up. -/
theorem usedVars_lost :
    usedVars plainLib "p" [] [] [.invalidateCache] ∅ = [] ∧ usedVarsUncached plainLib "p" = ["p"] := by
  decide

end NewApi.ExpressionCache
