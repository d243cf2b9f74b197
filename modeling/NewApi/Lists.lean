import Mathlib.Algebra.GroupWithZero.Nat
import Mathlib.Data.Nat.Count

/-!
# Lists

Rules for lists whose elements are replaced one at a time, for the loop that keeps an element
only if its key was not seen before, for lists without some of their elements, for the different
values of a list in descending order, for draws by weight, and for the runs of related neighbours
in a list.
-/
namespace NewApi

/-- What holds after an element was replaced held before of all but that element. -/
theorem forall_mem_of_set {α : Type} {l : List α} {n : ℕ} {a a' : α} {p : α → Prop}
    (ha : l[n]? = some a) (hpa : p a) (h : ∀ b ∈ l.set n a', p b) : ∀ b ∈ l, p b := by
  intro b hb
  obtain ⟨i, hi⟩ := List.mem_iff_getElem?.mp hb
  by_cases hin : n = i
  · subst hin
    cases ha.symm.trans hi
    exact hpa
  · exact h b (List.mem_of_getElem? ((List.getElem?_set_ne hin).trans hi))

/-- Replacing an element changes the number of those with a property by the two elements. -/
theorem countP_set_add {α : Type} {l : List α} {n : ℕ} {a a' : α} (p : α → Bool)
    (ha : l[n]? = some a) :
    (l.set n a').countP p + (if p a then 1 else 0) = l.countP p + (if p a' then 1 else 0) := by
  obtain ⟨hlt, rfl⟩ := List.getElem?_eq_some_iff.mp ha
  rw [List.countP_set hlt]
  by_cases hp : p l[n] = true
  · have hpos : 0 < l.countP p := List.countP_pos_iff.mpr ⟨_, List.getElem_mem hlt, hp⟩
    rw [if_pos hp]
    omega
  · rw [if_neg hp]
    omega

/-- The elements of which the image under `f` was not seen before, neither in `seen` nor
earlier in the list. -/
def distinctBy {α κ : Type} [DecidableEq κ] (f : α → κ) : List κ → List α → List α
  | _, [] => []
  | seen, a :: as =>
    if f a ∈ seen then distinctBy f seen as else a :: distinctBy f (f a :: seen) as

section
variable {α κ : Type} [DecidableEq κ] {f : α → κ} {as : List α} {seen : List κ} {a : α}

theorem distinctBy_sublist (as : List α) (seen : List κ) : (distinctBy f seen as).Sublist as := by
  induction as generalizing seen with
  | nil => exact .slnil
  | cons a as ih =>
    rw [distinctBy]
    split
    · exact (ih seen).cons a
    · exact (ih _).cons_cons a

theorem not_mem_of_mem_distinctBy (h : a ∈ distinctBy f seen as) : f a ∉ seen := by
  induction as generalizing seen with
  | nil => cases h
  | cons b as ih =>
    rw [distinctBy] at h
    split at h
    · exact ih h
    next hb =>
      obtain rfl | h := List.mem_cons.mp h
      · exact hb
      · exact fun hseen => ih h (List.mem_cons_of_mem _ hseen)

theorem nodup_map_distinctBy (as : List α) (seen : List κ) :
    ((distinctBy f seen as).map f).Nodup := by
  induction as generalizing seen with
  | nil => exact List.nodup_nil
  | cons a as ih =>
    rw [distinctBy]
    split
    · exact ih seen
    · refine List.nodup_cons.mpr ⟨fun hmem => ?_, ih _⟩
      obtain ⟨b, hb, hba⟩ := List.mem_map.mp hmem
      exact not_mem_of_mem_distinctBy hb (hba ▸ List.mem_cons_self)

theorem exists_mem_distinctBy (h : a ∈ as) (hseen : f a ∉ seen) :
    ∃ b ∈ distinctBy f seen as, f b = f a := by
  induction as generalizing seen with
  | nil => cases h
  | cons b as ih =>
    rw [distinctBy]
    split
    next hb =>
      obtain rfl | h := List.mem_cons.mp h
      · exact absurd hb hseen
      · exact ih h hseen
    by_cases hab : f b = f a
    · exact ⟨b, List.mem_cons_self, hab⟩
    obtain rfl | h := List.mem_cons.mp h
    · exact absurd rfl hab
    have hseen' : f a ∉ f b :: seen := by
      simp [hseen, Ne.symm hab]
    obtain ⟨d, hd, hda⟩ := ih h hseen'
    exact ⟨d, List.mem_cons_of_mem _ hd, hda⟩

/-- Nothing is dropped exactly if no two different elements have the same image. -/
theorem distinctBy_complete_iff :
    (∀ a ∈ as, a ∈ distinctBy f [] as) ↔ ∀ a ∈ as, ∀ b ∈ as, f a = f b → a = b := by
  constructor
  · intro h a ha b hb
    exact List.inj_on_of_nodup_map (nodup_map_distinctBy as []) (h a ha) (h b hb)
  · intro h a ha
    have hnone : f a ∉ ([] : List κ) := List.not_mem_nil
    obtain ⟨b, hb, hba⟩ := exists_mem_distinctBy ha hnone
    rwa [h a ha b ((distinctBy_sublist as []).subset hb) hba.symm]

theorem distinctBy_eq_self (h : (as.map f).Nodup) (hseen : ∀ a ∈ as, f a ∉ seen) :
    distinctBy f seen as = as := by
  induction as generalizing seen with
  | nil => rfl
  | cons a as ih =>
    obtain ⟨ha, hnd⟩ := List.nodup_cons.mp h
    rw [distinctBy, if_neg (hseen a List.mem_cons_self), ih hnd]
    intro b hb hmem
    obtain hba | hmem := List.mem_cons.mp hmem
    · exact ha (List.mem_map.mpr ⟨b, hb, hba⟩)
    · exact hseen b (List.mem_cons_of_mem _ hb) hmem

/-- If no image occurs twice, an element is the only one with its image. -/
theorem filter_eq_singleton (h : (as.map f).Nodup) (ha : a ∈ as) :
    (as.filter fun b => decide (f b = f a)) = [a] := by
  induction as with
  | nil => cases ha
  | cons b as ih =>
    obtain ⟨hb, hnd⟩ := List.nodup_cons.mp h
    obtain rfl | ha := List.mem_cons.mp ha
    · rw [List.filter_cons_of_pos (by simp), List.filter_eq_nil_iff.mpr]
      intro d hd hda
      exact hb (List.mem_map.mpr ⟨d, hd, of_decide_eq_true hda⟩)
    · have hne : ¬f b = f a := fun heq => hb (List.mem_map.mpr ⟨a, ha, heq.symm⟩)
      rw [List.filter_cons_of_neg (by simpa using hne), ih hnd ha]

end

/-! ### Dropping elements -/

/-- The second list is the first without some elements, each of which may be dropped. -/
inductive DropsOnly {α : Type} (may : α → Prop) : List α → List α → Prop where
  | nil : DropsOnly may [] []
  | keep (a : α) {as bs : List α} : DropsOnly may as bs → DropsOnly may (a :: as) (a :: bs)
  | drop {a : α} {as bs : List α} : may a → DropsOnly may as bs → DropsOnly may (a :: as) bs

section
variable {α : Type} {may : α → Prop} {as bs : List α}

theorem DropsOnly.refl (as : List α) : DropsOnly may as as := by
  induction as with
  | nil => exact .nil
  | cons a as ih => exact .keep a ih

theorem DropsOnly.dropLast (as : List α) {a : α} (ha : may a) : DropsOnly may (as ++ [a]) as := by
  induction as with
  | nil => exact .drop ha .nil
  | cons b as ih => exact .keep b ih

theorem DropsOnly.countP_eq (h : DropsOnly may as bs) {p : α → Bool}
    (hp : ∀ a, may a → p a = false) : bs.countP p = as.countP p := by
  induction h with
  | nil => rfl
  | keep a _ ih => rw [List.countP_cons, List.countP_cons, ih]
  | drop ha _ ih => rw [List.countP_cons, ih, hp _ ha]; rfl

end

/-! ### Descending lists of values -/

section
variable {α : Type} [LinearOrder α] {l l' : List α}

/-- The different values of a list, the largest first. -/
def descending (l : List α) : List α := l.dedup.insertionSort fun a b => b ≤ a

@[simp] theorem mem_descending {a : α} : a ∈ descending l ↔ a ∈ l := by
  simp [descending]

theorem descending_congr (h : ∀ a, a ∈ l ↔ a ∈ l') : descending l = descending l' := by
  have hperm : l.dedup.Perm l'.dedup :=
    (List.perm_ext_iff_of_nodup l.nodup_dedup l'.nodup_dedup).mpr (by simpa using h)
  have hsrt := (List.perm_insertionSort (· ≥ ·) l.dedup).trans
    (hperm.trans (List.perm_insertionSort (· ≥ ·) l'.dedup).symm)
  exact hsrt.eq_of_sortedGE List.sortedGE_insertionSort List.sortedGE_insertionSort

theorem descending_eq_nil : descending l = [] ↔ l = [] := by
  simp [List.eq_nil_iff_forall_not_mem]

theorem head?_descending : (descending l).head? = l.max? := by
  cases h : descending l with
  | nil => simp [descending_eq_nil.mp h]
  | cons a as =>
    have hsrt : (a :: as).SortedGE := h ▸ List.sortedGE_insertionSort
    have hmem : ∀ b, b ∈ l ↔ b ∈ a :: as := fun b => by rw [← h, mem_descending]
    symm
    rw [List.head?_cons, List.max?_eq_some_iff]
    refine ⟨(hmem a).mpr List.mem_cons_self, fun b hb => ?_⟩
    obtain rfl | hb := List.mem_cons.mp ((hmem b).mp hb)
    · exact le_rfl
    · exact List.rel_of_pairwise_cons hsrt.pairwise hb

end

/-! ### Draws by weight -/

section
variable {α : Type} (w : α → ℕ)

/-- The element at which the weights so far exceed a number. -/
def drawn : List α → ℕ → Option α
  | [], _ => none
  | a :: as, r => if r < w a then some a else drawn as (r - w a)

theorem exists_drawn {as : List α} {r : ℕ} (h : r < (as.map w).sum) :
    ∃ a ∈ as, drawn w as r = some a := by
  induction as generalizing r with
  | nil => cases h
  | cons a as ih =>
    by_cases hlt : r < w a
    · exact ⟨a, List.mem_cons_self, if_pos hlt⟩
    · rw [List.map_cons, List.sum_cons] at h
      obtain ⟨b, hb, hdrawn⟩ := ih (r := r - w a) (by omega)
      exact ⟨b, List.mem_cons_of_mem _ hb, (if_neg hlt).trans hdrawn⟩

/-- An element is drawn by as many numbers as it has weight, each time that it is listed. -/
theorem count_drawn [BEq α] [LawfulBEq α] [DecidableEq α] (as : List α) (a : α) :
    Nat.count (fun r => drawn w as r = some a) (as.map w).sum = as.count a * w a := by
  induction as with
  | nil => simp
  | cons b as ih =>
    have htail : ∀ k, drawn w (b :: as) (w b + k) = drawn w as k := fun k => by
      rw [drawn, if_neg (by omega), Nat.add_sub_cancel_left]
    simp only [List.map_cons, List.sum_cons, Nat.count_add, htail, ih]
    by_cases hb : b = a
    · subst hb
      rw [Nat.count_of_forall fun _ hr => by simp [drawn, hr], List.count_cons_self, Nat.add_mul,
        Nat.one_mul, Nat.add_comm]
    · rw [Nat.count_of_forall_not fun _ hr => by simp [drawn, hr, hb], List.count_cons_of_ne hb,
        Nat.zero_add]

theorem drawn_last (hw : ∀ a, 0 < w a) {as : List α} {n : ℕ} (hn : (as.map w).sum = n + 1) :
    drawn w as n = as.getLast? := by
  induction as generalizing n with
  | nil => cases hn
  | cons a as ih =>
    rw [List.map_cons, List.sum_cons] at hn
    cases as with
    | nil =>
      have hlt : n < w a := by simp at hn; omega
      simp [drawn, hlt]
    | cons b as =>
      have hpos := hw b
      rw [List.map_cons, List.sum_cons] at hn
      rw [drawn, if_neg (by omega), ih (by simp; omega), List.getLast?_cons_cons]

theorem count_congr {p q : ℕ → Prop} [DecidablePred p] [DecidablePred q] {n : ℕ}
    (h : ∀ k < n, p k ↔ q k) : Nat.count p n = Nat.count q n := by
  exact List.countP_congr (by simpa using h)

end

/-! ### Parts of elements -/

variable {α β : Type} {l : List α} {f : α → List β}

theorem flatMap_sublist {g : α → List β} (h : ∀ a ∈ l, (f a).Sublist (g a)) :
    (l.flatMap f).Sublist (l.flatMap g) := by
  induction l with
  | nil => exact List.Sublist.refl _
  | cons a l ih =>
    exact (h a List.mem_cons_self).append (ih fun b hb => h b (List.mem_cons_of_mem _ hb))

/-- Elements without a part may be left out. -/
theorem flatMap_filter_eq {p : α → Bool} (l : List α) (h : ∀ a, p a = false → f a = []) :
    (l.filter p).flatMap f = l.flatMap f := by
  induction l with
  | nil => rfl
  | cons a l ih =>
    cases ha : p a with
    | true => rw [List.filter_cons_of_pos ha, List.flatMap_cons, List.flatMap_cons, ih]
    | false =>
      rw [List.filter_cons_of_neg (by simp [ha]), List.flatMap_cons, h a ha, List.nil_append, ih]

/-- If some elements are left out of the parts, the whole is the same iff every part is. -/
theorem flatMap_eq_iff_of_sublist {g : α → List β} (h : ∀ a ∈ l, (f a).Sublist (g a)) :
    l.flatMap f = l.flatMap g ↔ ∀ a ∈ l, f a = g a := by
  refine ⟨fun heq => ?_, fun heq => List.flatMap_congr heq⟩
  induction l with
  | nil => simp
  | cons a l ih =>
    have hrest : ∀ b ∈ l, (f b).Sublist (g b) := fun b hb => h b (List.mem_cons_of_mem _ hb)
    have hhead : f a = g a := by
      have hlen := congrArg List.length heq
      have hle := (flatMap_sublist hrest).length_le
      have hle' := (h a List.mem_cons_self).length_le
      rw [List.flatMap_cons, List.flatMap_cons, List.length_append, List.length_append] at hlen
      exact (h a List.mem_cons_self).eq_of_length (by omega)
    rw [List.flatMap_cons, List.flatMap_cons, hhead] at heq
    have htail := ih hrest (List.append_cancel_left heq)
    intro b hb
    rcases List.mem_cons.mp hb with rfl | hb
    · exact hhead
    · exact htail b hb

end NewApi
