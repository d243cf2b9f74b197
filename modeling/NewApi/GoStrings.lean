import Mathlib.Algebra.Group.Int.Defs
import NewApi.Lists

/-!
# Strings

The functions of the package `strings` that the modelled code calls, on lists of characters.
Case is that of ASCII letters, which is all that header names, methods and hosts have.
-/
namespace NewApi

/-- A string whose characters are not looked at. -/
abbrev Bytes := List UInt8

/-- The characters that `strings.TrimSpace` removes. -/
def isSpace (c : Char) : Bool :=
  let n := c.toNat
  (decide (9 ≤ n) && decide (n ≤ 13)) || n == 32 || n == 0x85 || n == 0xA0 || n == 0x1680 ||
    (decide (0x2000 ≤ n) && decide (n ≤ 0x200A)) || n == 0x2028 || n == 0x2029 || n == 0x202F ||
    n == 0x205F || n == 0x3000

def trimSpace (s : String) : String :=
  String.ofList ((s.toList.dropWhile isSpace).reverse.dropWhile isSpace).reverse

/-- `strings.Trim` with a single character. -/
def trimChar (c : Char) (s : String) : String :=
  String.ofList ((s.toList.dropWhile (· == c)).reverse.dropWhile (· == c)).reverse

def toLower (s : String) : String := String.ofList (s.toList.map Char.toLower)

def toUpper (s : String) : String := String.ofList (s.toList.map Char.toUpper)

def equalFold (s t : String) : Bool := decide (toLower s = toLower t)

def startsWith (s start : String) : Bool := start.toList.isPrefixOf s.toList

def containsText (s part : String) : Bool := decide (part.toList <:+: s.toList)

/-- The parts between the separators; there is always one. -/
def splitChars (sep : Char) : List Char → List (List Char)
  | [] => [[]]
  | c :: cs =>
    if c = sep then [] :: splitChars sep cs
    else
      match splitChars sep cs with
      | [] => [[c]]
      | part :: parts => (c :: part) :: parts

def splitText (sep : Char) (s : String) : List String := (splitChars sep s.toList).map String.ofList

/-- The text with every occurrence of `old` replaced; the counter skips what was replaced. -/
def replaceChars (old new : List Char) : ℕ → List Char → List Char
  | _, [] => []
  | skip + 1, _ :: cs => replaceChars old new skip cs
  | 0, c :: cs =>
    if old.isPrefixOf (c :: cs) then new ++ replaceChars old new (old.length - 1) cs
    else c :: replaceChars old new 0 cs

def replaceAll (s old new : String) : String :=
  String.ofList (replaceChars old.toList new.toList 0 s.toList)

/-- The number that the digits denote, if there is at least one and nothing else. -/
def digits (cs : List Char) : Option ℤ :=
  if cs ≠ [] ∧ cs.all Char.isDigit then
    some (cs.foldl (fun n c => 10 * n + (c.toNat - '0'.toNat : ℤ)) 0)
  else none

/-- A decimal number with a sign or without, in the range of an `int`. -/
def atoi (s : String) : Option ℤ :=
  let n := match s.toList with
    | '-' :: cs => (digits cs).map fun n => -n
    | '+' :: cs => digits cs
    | cs => digits cs
  n.filter fun n => decide (-2 ^ 63 ≤ n) && decide (n < 2 ^ 63)

def hasSuffix (s tail : String) : Bool := tail.toList.isSuffixOf s.toList

def trimSuffix (s tail : String) : String :=
  if hasSuffix s tail then String.ofList (s.toList.take (s.toList.length - tail.toList.length))
  else s

theorem startsWith_iff {s start : String} : startsWith s start = true ↔ ∃ rest, s = start ++ rest := by
  rw [startsWith, List.isPrefixOf_iff_prefix]
  constructor
  · rintro ⟨rest, hrest⟩
    refine ⟨String.ofList rest, String.toList_injective ?_⟩
    rw [String.toList_append, String.toList_ofList, hrest]
  · rintro ⟨rest, rfl⟩
    exact ⟨rest.toList, (String.toList_append ..).symm⟩

theorem trimSpace_cons {c : Char} (hc : isSpace c = false) (cs : List Char) :
    ∃ rest, (trimSpace (String.ofList (c :: cs))).toList = c :: rest := by
  have hend : ∃ front, (cs.reverse ++ [c]).dropWhile isSpace = front ++ [c] := by
    rw [List.dropWhile_append]
    split_ifs
    · exact ⟨[], by simp [hc]⟩
    · exact ⟨_, rfl⟩
  obtain ⟨front, hfro⟩ := hend
  refine ⟨front.reverse, ?_⟩
  rw [trimSpace, String.toList_ofList, String.toList_ofList,
    List.dropWhile_cons_of_neg (by simp [hc]), List.reverse_cons, hfro, List.reverse_append]
  rfl

/-! ### Joined texts -/

variable {α : Type} {l : List α} {f g : α → String}

theorem join_eq_empty_iff {texts : List String} : String.join texts = "" ↔ ∀ t ∈ texts, t = "" := by
  induction texts with
  | nil => simp
  | cons t texts ih => rw [String.join_cons, String.append_eq_empty_iff, ih, List.forall_mem_cons]

theorem join_flatMap (l : List α) (parts : α → List String) :
    String.join (l.flatMap parts) = String.join (l.map fun a => String.join (parts a)) := by
  induction l with
  | nil => rfl
  | cons a l ih =>
    rw [List.flatMap_cons, List.map_cons, String.join_append, String.join_cons, ih]

/-- If some texts are left out, the rest is the same iff those were empty. -/
theorem join_map_eq_iff (h : ∀ a ∈ l, f a = g a ∨ f a = "") :
    String.join (l.map f) = String.join (l.map g) ↔ ∀ a ∈ l, f a = g a := by
  have hpart : ∀ a ∈ l, (f a).toList.Sublist (g a).toList := by
    intro a ha
    obtain hsame | hemp := h a ha
    · rw [hsame]
    · rw [hemp]
      exact List.nil_sublist _
  rw [← String.toList_inj, String.toList_join, String.toList_join, List.flatMap_map,
    List.flatMap_map, flatMap_eq_iff_of_sublist hpart]
  simp only [String.toList_inj]

end NewApi
