import NewApi.HeifBoxes

/-!
# The walk over the boxes

Every box that a loop accepts moves it forward, so the loops end, and they stay inside of the data
unless the end of a box of the file overflows. What they find are the fields of a box `ispe`.
-/
namespace NewApi.Heif

section
variable {data : Bytes}

theorem boxOf_some {off header size : ℕ} {b : Box} (h : boxOf data off header size = some b) :
    header ≤ b.size ∧ off + b.size ≤ data.length ∧ b.content.length = b.size - header := by
  unfold boxOf at h
  split_ifs at h with hbox
  rw [← Option.some.inj h]
  exact ⟨hbox.1, hbox.2, length_take_drop (by omega)⟩

theorem childBox_some {off : ℕ} {b : Box} (h : childBox data off = some b) :
    8 ≤ b.size ∧ off + b.size ≤ data.length ∧ b.content.length = b.size - 8 := by
  unfold childBox at h
  split_ifs at h
  exact boxOf_some h

theorem topBox_some {off : ℕ} {b : Box} (h : topBox data off = some b) :
    8 ≤ b.size ∧ off + b.size ≤ data.length ∧ b.content.length + 8 ≤ b.size := by
  unfold topBox at h
  split_ifs at h with hhd
  obtain ⟨⟨header, size⟩, hsize, hbox⟩ := Option.bind_eq_some_iff.mp h
  obtain ⟨hle, hend, hcont⟩ := boxOf_some hbox
  have h8 : 8 ≤ header := by
    unfold topSize at hsize
    split_ifs at hsize <;> simp at hsize <;> omega
  omega

/-- The dimensions are those of a box `ispe` in the container. -/
def FromISPE (data : Bytes) (d : ℤ × ℤ) : Prop :=
  ∃ content, HasISPE data content ∧ 12 ≤ content.length ∧ fieldsOf content = d

/-- The dimensions are those of a box `ispe` in the box `meta` of the file. -/
def FromMetaISPE (data : Bytes) (d : ℤ × ℤ) : Prop :=
  ∃ content, HasMetaISPE data content ∧ 12 ≤ content.length ∧ fieldsOf content = d

theorem ispeDimensions_ok (content : Bytes) : ∃ r, ispeDimensions content = .ok r ∧
    ∀ d, r = some d → 12 ≤ content.length ∧ fieldsOf content = d := by
  unfold ispeDimensions
  by_cases hlen : 12 ≤ content.length
  · have hw := length_take_drop (show 4 + 4 ≤ content.length by omega)
    have hh := length_take_drop (show 8 + 4 ≤ content.length by omega)
    have hslice4 : slice content 4 8 = .ok ((content.drop 4).take 4) :=
      slice_natCast (show (4 : ℕ) ≤ 8 by omega) (show 8 ≤ content.length by omega)
    have hslice8 : slice content 8 12 = .ok ((content.drop 8).take 4) :=
      slice_natCast (show (8 : ℕ) ≤ 12 by omega) hlen
    rw [if_pos hlen, hslice4, hslice8]
    simp only [ok_bind, uint32, hw, hh, le_refl, if_true, List.take_take, min_self]
    split_ifs with hpos
    · refine ⟨_, rfl, fun d hd => ⟨hlen, ?_⟩⟩
      rw [← Option.some.inj hd]
      rfl
    · exact ⟨none, rfl, by simp⟩
  · rw [if_neg hlen]
    exact ⟨none, rfl, by simp⟩

/-- The search of a container ends inside of it. The measure is what is left of it, which shrinks
both for the next box and for the content of this one. -/
theorem findISPEFrom_ok (n : ℕ) {data : Bytes} {off : ℕ} (hn : data.length - off ≤ n)
    (hlen : data.length ≤ 2 ^ 48) (hoff : off ≤ data.length) (hchild : Child data off) :
    ∃ r, (∀ fuel, n < fuel → findISPEFrom fuel data off = .ok r) ∧
      ∀ d, r = some d → FromISPE data d := by
  induction n using Nat.strong_induction_on generalizing data off with
  | _ n ih =>
    cases hbox : childBox data off with
    | none =>
      refine ⟨none, fun fuel hfuel => ?_, nofun⟩
      obtain ⟨k, rfl⟩ := Nat.exists_eq_add_of_lt hfuel
      rw [findISPEFrom_succ _ hlen hoff, hbox]
    | some b =>
      obtain ⟨hsize, hend, hcont⟩ := childBox_some hbox
      have hsearch : ∃ r, (∀ fuel, n ≤ fuel →
          searchBox (findISPE fuel) b.boxType b.content = .ok r) ∧
          ∀ d, r = some d → FromISPE data d := by
        unfold searchBox
        split_ifs with hinside hispe
        · obtain ⟨r, hrun, hfrom⟩ := @ih (n - 8) (by omega) b.content 0 (by omega)
            (by omega) (Nat.zero_le _) .first
          refine ⟨r, fun fuel hfuel => hrun fuel (by omega), fun d hd => ?_⟩
          obtain ⟨content, hhas, hfs⟩ := hfrom d hd
          exact ⟨content, .inside hchild hbox hinside hhas, hfs⟩
        · obtain ⟨r, hrun, hfrom⟩ := ispeDimensions_ok b.content
          exact ⟨r, fun _ _ => hrun, fun d hd => ⟨b.content, .here hchild hbox hispe, hfrom d hd⟩⟩
        · exact ⟨none, fun _ _ => rfl, by simp⟩
      obtain ⟨found, hfnd, hfrom⟩ := hsearch
      cases found with
      | some d =>
        refine ⟨some d, fun fuel hfuel => ?_, hfrom⟩
        obtain ⟨k, rfl⟩ := Nat.exists_eq_add_of_lt hfuel
        rw [findISPEFrom_succ _ hlen hoff, hbox]
        simp only [hfnd (n + k) (by omega), ok_bind]
      | none =>
        obtain ⟨r, hrun, hrest⟩ := @ih (n - 8) (by omega) data (off + b.size) (by omega)
          hlen hend (.next hchild hbox)
        refine ⟨r, fun fuel hfuel => ?_, hrest⟩
        obtain ⟨k, rfl⟩ := Nat.exists_eq_add_of_lt hfuel
        rw [findISPEFrom_succ _ hlen hoff, hbox]
        simp only [hfnd (n + k) (by omega), ok_bind]
        exact hrun _ (by omega)

/-- The search ends without a panic for files of a real size. -/
theorem findISPE_ok (hlen : data.length ≤ 2 ^ 48) :
    ∃ r, (∀ fuel, data.length < fuel → findISPE fuel data = .ok r) ∧
      ∀ d, r = some d → FromISPE data d :=
  findISPEFrom_ok data.length (Nat.sub_le _ _) hlen (Nat.zero_le _) .first

theorem walkOverflows_iff (off : ℕ) : WalkOverflows data off ↔ SumOverflows data off ∨
    ∃ b, topBox data off = some b ∧ b.boxType ≠ ascii "meta" ∧
      WalkOverflows data (off + b.size) := by
  constructor
  · rintro ⟨off', hwalk, hsum⟩
    cases hwalk with
    | here => exact .inl hsum
    | next hbox hmeta hrest => exact .inr ⟨_, hbox, hmeta, off', hrest, hsum⟩
  · rintro (hsum | ⟨b, hbox, hmeta, off', hrest, hsum⟩)
    · exact ⟨off, .here off, hsum⟩
    · exact ⟨off', .next hbox hmeta hrest, hsum⟩

theorem Walk.snoc {off off' : ℕ} {b : Box} (h : Walk data off off')
    (hbox : topBox data off' = some b) (hmeta : b.boxType ≠ ascii "meta") :
    Walk data off (off' + b.size) := by
  induction h with
  | here off => exact .next hbox hmeta (.here _)
  | next hfst hoth _ ih => exact .next hfst hoth (ih hbox)

theorem parseBox_meta {off n : ℕ} {b : Box} (hlen : data.length ≤ 2 ^ 48)
    (hwalk : Walk data 0 off) (hbox : topBox data off = some b)
    (hmeta : b.boxType = ascii "meta") (hn : data.length - off ≤ n) :
    ∃ r, (∀ fuel, n ≤ fuel → parseBox fuel data off (some b) = .ok r) ∧
      ∀ d, r = some d → FromMetaISPE data d := by
  obtain ⟨hsize, hend, hcont⟩ := topBox_some hbox
  simp only [parseBox, if_pos hmeta]
  split_ifs with hsh
  · exact ⟨none, fun _ _ => rfl, by simp⟩
  have hdrop : (b.content.drop 4).length = b.content.length - 4 := List.length_drop
  obtain ⟨r, hrun, hfrom⟩ := findISPE_ok (show (b.content.drop 4).length ≤ 2 ^ 48 by omega)
  refine ⟨r, fun fuel hfuel => hrun fuel (by omega), fun d hd => ?_⟩
  obtain ⟨content, hhas, hfs⟩ := hfrom d hd
  exact ⟨content, ⟨off, b, hwalk, hbox, hmeta, hhas⟩, hfs⟩

/-- The walk either ends inside of the data, or comes to a box whose end overflows, where it panics.
The measure is what is left of the data. -/
theorem parseFrom_ok_or_panic (n : ℕ) {off : ℕ} (hn : data.length - off ≤ n)
    (hlen : data.length ≤ 2 ^ 48) (hoff : off ≤ data.length) (hwalk : Walk data 0 off) :
    (¬WalkOverflows data off ∧ ∃ r, (∀ fuel, n < fuel → parseFrom fuel data off = .ok r) ∧
      ∀ d, r = some d → FromMetaISPE data d) ∨
    (WalkOverflows data off ∧ ∀ fuel, n < fuel → parseFrom fuel data off = .error .panic) := by
  induction n using Nat.strong_induction_on generalizing off with
  | _ n ih =>
    by_cases hsum : SumOverflows data off
    · refine .inr ⟨⟨off, .here off, hsum⟩, fun fuel hfuel => ?_⟩
      have hlong := hsum.1
      obtain ⟨k, rfl⟩ := Nat.exists_eq_add_of_le' (show 2 ≤ fuel by omega)
      exact parseFrom_overflow k hlen hsum
    have hstep : ∀ fuel, n < fuel → ∃ k, n ≤ k ∧ parseFrom fuel data off =
        parseBox k data off (topBox data off) := by
      intro fuel hfuel
      obtain ⟨k, rfl⟩ := Nat.exists_eq_add_of_lt hfuel
      exact ⟨n + k, by omega, parseFrom_succ (n + k) hlen hoff hsum⟩
    rw [walkOverflows_iff]
    cases hbox : topBox data off with
    | none =>
      refine .inl ⟨by simp [hsum], none, fun fuel hfuel => ?_, nofun⟩
      obtain ⟨k, -, hrun⟩ := hstep fuel hfuel
      rw [hrun, hbox]
      rfl
    | some b =>
      obtain ⟨hsize, hend, hcont⟩ := topBox_some hbox
      by_cases hmeta : b.boxType = ascii "meta"
      · obtain ⟨r, hr, hfrom⟩ := parseBox_meta hlen hwalk hbox hmeta hn
        refine .inl ⟨by simp [hsum, hmeta], r, fun fuel hfuel => ?_, hfrom⟩
        obtain ⟨k, hk, hrun⟩ := hstep fuel hfuel
        rw [hrun, hbox, hr k hk]
      have hnext : ∀ fuel, n < fuel → ∃ k, n ≤ k ∧ parseFrom fuel data off =
          parseFrom k data (off + b.size : ℕ) := by
        intro fuel hfuel
        obtain ⟨k, hk, hrun⟩ := hstep fuel hfuel
        refine ⟨k, hk, ?_⟩
        rw [hrun, hbox, parseBox, if_neg hmeta]
      have hrest := @ih (n - 8) (by omega) (off + b.size) (by omega) hend
        (hwalk.snoc hbox hmeta)
      rcases hrest with ⟨hnot, r, hr, hfrom⟩ | ⟨hover, hpanic⟩
      · refine .inl ⟨by simp [hsum, hmeta, hnot], r, fun fuel hfuel => ?_, hfrom⟩
        obtain ⟨k, hk, hrun⟩ := hnext fuel hfuel
        rw [hrun, hr k (by omega)]
      · refine .inr ⟨.inr ⟨b, rfl, hmeta, hover⟩, fun fuel hfuel => ?_⟩
        obtain ⟨k, hk, hrun⟩ := hnext fuel hfuel
        rw [hrun, hpanic k (by omega)]

end

/-- The walks over a file end without a panic exactly if no box of the file has a 64-bit size whose
sum with the offset overflows. The dimensions they give are the fields of a box `ispe` in `meta`. -/
theorem heif_walk_safe_iff (data : ByteSlice) :
    ((∃ r, ∀ fuel, data.bytes.length < fuel → parseHEIFDimensions fuel data.bytes = .ok r) ↔
      ¬WalkOverflows data.bytes 0) ∧
    (WalkOverflows data.bytes 0 → ∀ fuel, data.bytes.length < fuel →
      parseHEIFDimensions fuel data.bytes = .error .panic) ∧
    (∃ r, ∀ fuel, data.bytes.length < fuel → findISPE fuel data.bytes = .ok r) ∧
    (∀ fuel, data.bytes.length < fuel → ∀ d,
      (parseHEIFDimensions fuel data.bytes = .ok (some d) → FromMetaISPE data.bytes d) ∧
      (findISPE fuel data.bytes = .ok (some d) → FromISPE data.bytes d)) := by
  obtain ⟨found, hfind, hfrom⟩ := findISPE_ok data.length_le
  have hinner : ∀ fuel, data.bytes.length < fuel → ∀ d,
      findISPE fuel data.bytes = .ok (some d) → FromISPE data.bytes d := by
    intro fuel hfuel d hd
    rw [hfind fuel hfuel] at hd
    exact hfrom d (Except.ok.inj hd)
  suffices hwalk : (¬WalkOverflows data.bytes 0 ∧ ∃ r,
        (∀ fuel, data.bytes.length < fuel → parseHEIFDimensions fuel data.bytes = .ok r) ∧
        ∀ d, r = some d → FromMetaISPE data.bytes d) ∨
      (WalkOverflows data.bytes 0 ∧ ∀ fuel, data.bytes.length < fuel →
        parseHEIFDimensions fuel data.bytes = .error .panic) by
    rcases hwalk with ⟨hnot, r, hrun, hmeta⟩ | ⟨hover, hpanic⟩
    · refine ⟨⟨fun _ => hnot, fun _ => ⟨r, hrun⟩⟩, fun hover => absurd hover hnot, ⟨found, hfind⟩,
        fun fuel hfuel d => ⟨fun hd => ?_, hinner fuel hfuel d⟩⟩
      rw [hrun fuel hfuel] at hd
      exact hmeta d (Except.ok.inj hd)
    refine ⟨⟨?_, fun hnot => absurd hover hnot⟩, fun _ => hpanic, ⟨found, hfind⟩,
      fun fuel hfuel d => ⟨fun hd => ?_, hinner fuel hfuel d⟩⟩
    · rintro ⟨r, hrun⟩
      have hrun' := hrun _ (Nat.lt_succ_self _)
      rw [hpanic _ (Nat.lt_succ_self _)] at hrun'
      contradiction
    · rw [hpanic fuel hfuel] at hd
      contradiction
  unfold parseHEIFDimensions
  split_ifs with hsh
  · refine .inl ⟨?_, none, fun _ _ => rfl, nofun⟩
    rintro ⟨off, -, hlong, -⟩
    omega
  · exact parseFrom_ok_or_panic _ (Nat.sub_le _ _) data.length_le (Nat.zero_le _) (.here 0)

/-- A file of a box `ftyp` and a box with the largest 64-bit size. -/
def overflowingFile : ByteSlice where
  bytes := [0, 0, 0, 12] ++ ascii "ftypheic" ++ [0, 0, 0, 1] ++ ascii "free" ++
    [0x7f, 0xff, 0xff, 0xff, 0xff, 0xff, 0xff, 0xff]
  length_le := by decide +kernel

/-- The file is taken for a HEIC image, and the walk over it panics, so the decoder does. -/
theorem heif_walk_panics : detectHEIF overflowingFile.bytes = .ok (some .heic) ∧
    parseHEIFDimensions 29 overflowingFile.bytes = .error .panic ∧
    decodeImageConfig (fun _ => none) (fun _ => none) 29 overflowingFile.bytes = .error .panic := by
  decide +kernel

end NewApi.Heif
