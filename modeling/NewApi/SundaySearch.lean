import NewApi.KeyedTable

/-!
# Sunday's substring search

A text is its bytes. The table of offsets is indexed by the runes of the pattern, and the loop
looks up a byte of the text in it.
-/
namespace NewApi.Sunday

/-- The runes of a text with their positions. A byte below 128 is a rune of its own; at another
byte `decode` gives the rune and the number of its bytes. -/
def runes (decode : List UInt8 → ℕ × ℕ) (i skip : ℕ) : List UInt8 → List (ℕ × ℕ)
  | [] => []
  | b :: bs =>
    if 0 < skip then runes decode (i + 1) (skip - 1) bs
    else
      let (c, width) := if b < 128 then (b.toNat, 1) else decode (b :: bs)
      (i, c) :: runes decode (i + 1) (width - 1) bs

def offsets (m : ℕ) (rs : List (ℕ × ℕ)) : Table ℕ ℕ :=
  rs.foldl (fun offset (i, c) => offset.put c (m - i)) Table.empty

/-- The number of equal bytes at the start. -/
def matched : List UInt8 → List UInt8 → ℕ
  | t :: ts, p :: ps => if t = p then matched ts ps + 1 else 0
  | _, _ => 0

/-- The main loop from the position `i`, `none` if it takes more than the given rounds. -/
def searchFrom (text pattern : List UInt8) (offset : Table ℕ ℕ) : ℕ → ℕ → Option Bool
  | 0, _ => none
  | rounds + 1, i =>
    if text.length < i + pattern.length then some false
    else if matched (text.drop i) pattern = pattern.length then some true
    else match text[i + pattern.length]? with
      | none => some false
      | some next => searchFrom text pattern offset rounds
          (i + (offset next.toNat).getD (pattern.length + 1))

def sundaySearch (decode : List UInt8 → ℕ × ℕ) (text pattern : List UInt8) : Option Bool :=
  searchFrom text pattern (offsets pattern.length (runes decode 0 0 pattern)) (text.length + 1) 0

section
variable {decode : List UInt8 → ℕ × ℕ} {text pattern : List UInt8} {offset : Table ℕ ℕ} {i : ℕ}

theorem matched_eq_iff : ∀ {ts ps : List UInt8}, matched ts ps = ps.length ↔ ps <+: ts
  | ts, [] => by simp [matched]
  | [], p :: ps => by simp [matched]
  | t :: ts, p :: ps => by
    rw [matched, List.cons_prefix_cons, ← matched_eq_iff]
    split <;> simp_all [eq_comm]

/-- A shift is positive and leads no further than to the byte in the pattern. -/
structure Shifts (pattern : List UInt8) (m : ℕ) (offset : Table ℕ ℕ) : Prop where
  pos : ∀ c, 0 < (offset c).getD (m + 1)
  le : ∀ c, (offset c).getD (m + 1) ≤ m + 1
  within : ∀ k b, pattern[k]? = some b → (offset b.toNat).getD (m + 1) ≤ m - k

theorem runes_ascii (h : ∀ b ∈ pattern, b < 128) :
    runes decode i 0 pattern = (pattern.zipIdx i).map fun p => (p.2, p.1.toNat) := by
  induction pattern generalizing i with
  | nil => rfl
  | cons b bs ih =>
    simp only [List.mem_cons, forall_eq_or_imp] at h
    simp [runes, h.1, ih h.2]

theorem shifts_offsets {m : ℕ} (h : ∀ b ∈ pattern, b < 128) (hm : pattern.length ≤ m) :
    Shifts pattern m (offsets m (runes decode 0 0 pattern)) := by
  rw [runes_ascii h]
  clear h
  induction pattern using List.reverseRecOn with
  | nil => exact ⟨fun _ => Nat.succ_pos m, fun _ => le_rfl, by simp⟩
  | append_singleton bs b ih =>
    simp only [List.length_append, List.length_singleton] at hm
    obtain ⟨hpos, hle, hwithin⟩ := ih (by omega)
    have hput : offsets m (((bs ++ [b]).zipIdx).map fun p => (p.2, p.1.toNat)) =
        (offsets m (bs.zipIdx.map fun p => (p.2, p.1.toNat))).put b.toNat (m - bs.length) := by
      simp [offsets, List.zipIdx_append]
    rw [hput]
    constructor <;> grind [Table.put_apply]

theorem infix_iff_occurs : pattern <:+: text ↔
    ∃ j, j + pattern.length ≤ text.length ∧ pattern <+: text.drop j := by
  constructor
  · rintro ⟨s, t, rfl⟩
    exact ⟨s.length, by simp, by simp [List.append_assoc]⟩
  · rintro ⟨j, -, hj⟩
    exact hj.isInfix.trans (List.drop_suffix j text).isInfix

/-- An occurrence further on has the byte behind the present place in it, so it does not begin
before the place to which the table leads. -/
theorem shift_le (hs : Shifts pattern pattern.length offset) {next : UInt8} {j : ℕ}
    (hnext : text[i + pattern.length]? = some next) (hij : i < j) (hj : pattern <+: text.drop j) :
    i + (offset next.toNat).getD (pattern.length + 1) ≤ j := by
  by_cases hend : i + pattern.length < j
  · have := hs.le next.toNat
    omega
  · have hk : pattern[i + pattern.length - j]? = some next := by
      obtain ⟨rest, hr⟩ := hj
      have hlt : i + pattern.length - j < pattern.length := by omega
      rw [← @List.getElem?_append_left _ _ rest _ hlt, hr, List.getElem?_drop, ← hnext]
      congr 1
      omega
    have := hs.within _ next hk
    omega

/-- By induction on the rounds, where no occurrence begins before `i`. -/
theorem searchFrom_eq (hs : Shifts pattern pattern.length offset) :
    ∀ rounds i, 0 < rounds → text.length < rounds + i → (∀ j < i, ¬pattern <+: text.drop j) →
      searchFrom text pattern offset rounds i = some (decide (pattern <:+: text)) := by
  intro rounds
  induction rounds with
  | zero => exact fun i hpos => absurd hpos (lt_irrefl 0)
  | succ rounds ih =>
    intro i _ hn hbefore
    rw [searchFrom]
    split
    · next hlen =>
      have hnot : ¬pattern <:+: text := fun hin => by
        obtain ⟨j, hj, hocc⟩ := infix_iff_occurs.1 hin
        exact hbefore j (by omega) hocc
      simp [hnot]
    · split
      · next hlen hmat =>
        simp [infix_iff_occurs.2 ⟨i, by omega, matched_eq_iff.1 hmat⟩]
      · next hlen hmat =>
        -- every occurrence begins behind `i`
        have hbehind : ∀ j, pattern <+: text.drop j → i < j := fun j hocc => by
          rcases lt_trichotomy j i with hlt | rfl | hgt
          · exact absurd hocc (hbefore j hlt)
          · exact absurd (matched_eq_iff.2 hocc) hmat
          · exact hgt
        split
        · next hnone =>
          have hnot : ¬pattern <:+: text := fun hin => by
            obtain ⟨j, hj, hocc⟩ := infix_iff_occurs.1 hin
            have := hbehind j hocc
            have := List.getElem?_eq_none_iff.1 hnone
            omega
          simp [hnot]
        · next next hnext =>
          have hlt := (List.getElem?_eq_some_iff.1 hnext).1
          have hpos := hs.pos next.toNat
          refine ih _ (by omega) (by omega) fun j hj hocc => ?_
          have := shift_le hs hnext (hbehind j hocc) hocc
          omega

/-- The search ends and finds an ASCII pattern exactly where it occurs in the bytes. -/
theorem sundaySearch_eq_decide (h : ∀ b ∈ pattern, b < 128) :
    sundaySearch decode text pattern = some (decide (pattern <:+: text)) :=
  searchFrom_eq (shifts_offsets h le_rfl) _ _ (by omega) (by omega) (by simp)

theorem sundaySearch_eq_decide_sample :
    sundaySearch (fun _ => (0, 1)) [97, 98, 200, 98, 97] [98, 97] = some true :=
  (sundaySearch_eq_decide (by simp)).trans (by rfl)

end

end NewApi.Sunday
