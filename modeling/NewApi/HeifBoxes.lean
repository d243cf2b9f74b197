import NewApi.GoStrings
import NewApi.Int64

/-!
# The boxes of a HEIF file

A HEIF file is a sequence of boxes, of which each starts with its size and its type. The box
`meta` has the box `ispe` with the dimensions of the image, inside of boxes `iprp` and `ipco`.
`parseHEIFDimensions` and `findISPE` (`service/file_service.go`) walk over the boxes to find it.

Offsets and sizes are 64-bit integers, whose sums wrap around. An index or a slice outside of the
data is a panic; the bounds are those of the length, although a slice may extend to the capacity.
A loop has fuel, and one that has used it up is unfinished.
-/
namespace NewApi.Heif

/-- The parser panics, or the fuel is used up. -/
inductive Stop where
  | panic
  | unfinished
  deriving DecidableEq

@[simp] theorem ok_bind {α β : Type} (a : α) (f : α → Except Stop β) :
    (Except.ok a >>= f) = f a := rfl

def ascii (s : String) : Bytes := s.toList.map fun c => c.toNat.toUInt8

/-- Go's slice, which panics out of range. -/
def slice (data : Bytes) (lo hi : ℤ) : Except Stop Bytes :=
  if 0 ≤ lo ∧ lo ≤ hi ∧ hi ≤ data.length then
    .ok ((data.drop lo.toNat).take (hi - lo).toNat)
  else .error .panic

/-- Bytes as a number. -/
def bigEndian (b : Bytes) : ℕ := b.foldl (fun n x => 256 * n + x.toNat) 0

/-- The first four bytes; fewer panic. -/
def uint32 (b : Bytes) : Except Stop ℕ :=
  if 4 ≤ b.length then .ok (bigEndian (b.take 4)) else .error .panic

/-- The first eight bytes; fewer panic. -/
def uint64 (b : Bytes) : Except Stop ℕ :=
  if 8 ≤ b.length then .ok (bigEndian (b.take 8)) else .error .panic

/-- Addition of `int`, which wraps around. -/
def addInt (a b : ℤ) : ℤ := wrapInt64 (a + b)

inductive HeifMime where
  | heic | heif
  deriving DecidableEq

/-- The format by its brands. -/
def detectHEIF (data : Bytes) : Except Stop (Option HeifMime) :=
  if data.length < 12 then .ok none
  else do
    let magic ← slice data 4 8
    if magic ≠ ascii "ftyp" then .ok none
    else
      let brand ← slice data 8 12
      if brand ∈ ["heic", "heix", "hevc", "hevx", "heim", "heis"].map ascii then .ok (some .heic)
      else if brand ∈ ["mif1", "msf1"].map ascii then .ok (some .heif)
      else .ok none

/-- The dimensions in the content of a box `ispe`, if it has any that are positive. -/
def ispeDimensions (content : Bytes) : Except Stop (Option (ℤ × ℤ)) :=
  if 12 ≤ content.length then do
    let w ← uint32 (← slice content 4 8)
    let h ← uint32 (← slice content 8 12)
    if 0 < w ∧ 0 < h then .ok (some (w, h)) else .ok none
  else .ok none

/-- What is found in a box of a container: the dimensions, or what is inside. -/
def searchBox (inside : Bytes → Except Stop (Option (ℤ × ℤ))) (boxType content : Bytes) :
    Except Stop (Option (ℤ × ℤ)) :=
  if boxType = ascii "iprp" ∨ boxType = ascii "ipco" then inside content
  else if boxType = ascii "ispe" then ispeDimensions content
  else .ok none

/-- Looks for the dimensions among the boxes from an offset on. -/
def findISPEFrom : ℕ → Bytes → ℤ → Except Stop (Option (ℤ × ℤ))
  | 0, _, _ => .error .unfinished
  | fuel + 1, data, offset =>
    if addInt offset 8 ≤ data.length then do
      let boxSize ← uint32 (← slice data offset (addInt offset 4))
      let boxType ← slice data (addInt offset 4) (addInt offset 8)
      if boxSize < 8 ∨ (data.length : ℤ) < addInt offset boxSize then .ok none
      else
        let content ← slice data (addInt offset 8) (addInt offset boxSize)
        match ← searchBox (fun content => findISPEFrom fuel content 0) boxType content with
        | some d => .ok (some d)
        | none => findISPEFrom fuel data (addInt offset boxSize)
    else .ok none

/-- Looks for the dimensions among all boxes. -/
def findISPE (fuel : ℕ) (data : Bytes) : Except Stop (Option (ℤ × ℤ)) := findISPEFrom fuel data 0

/-- The size of a top-level box and of its header. A size of 1 is followed by one of 64 bits, and a
size of 0 is that of the rest of the data. -/
def boxLength (data : Bytes) (offset : ℤ) (size32 : ℕ) : Except Stop (Option (ℤ × ℤ)) :=
  if size32 = 1 then
    if (data.length : ℤ) < addInt offset 16 then .ok none
    else do
      let size ← uint64 (← slice data (addInt offset 8) (addInt offset 16))
      .ok (some (wrapInt64 size, 16))
  else if size32 = 0 then .ok (some (wrapInt64 (data.length - offset), 8))
  else .ok (some (size32, 8))

/-- The loop of `parseHEIFDimensions`, from an offset. -/
def parseFrom : ℕ → Bytes → ℤ → Except Stop (Option (ℤ × ℤ))
  | 0, _, _ => .error .unfinished
  | fuel + 1, data, offset =>
    if addInt offset 8 ≤ data.length then do
      let size32 ← uint32 (← slice data offset (addInt offset 4))
      let boxType ← slice data (addInt offset 4) (addInt offset 8)
      match ← boxLength data offset size32 with
      | none => .ok none
      | some (boxSize, headerLen) =>
        if boxSize < headerLen ∨ (data.length : ℤ) < addInt offset boxSize then .ok none
        else if boxType = ascii "meta" then do
          let metaData ← slice data (addInt offset headerLen) (addInt offset boxSize)
          if metaData.length < 4 then .ok none
          else findISPE fuel (← slice metaData 4 metaData.length)
        else parseFrom fuel data (addInt offset boxSize)
    else .ok none

def parseHEIFDimensions (fuel : ℕ) (data : Bytes) : Except Stop (Option (ℤ × ℤ)) :=
  if data.length < 12 then .ok none else parseFrom fuel data 0

structure ImageConfig where
  (width height : ℤ)
  deriving DecidableEq

/-- The decoders of the other formats are parameters. -/
def decodeImageConfig (decodeConfig : Bytes → Option (ImageConfig × String))
    (decodeWebp : Bytes → Option ImageConfig) (fuel : ℕ) (data : Bytes) :
    Except Stop (Except String (ImageConfig × String)) :=
  match decodeConfig data, decodeWebp data with
  | some config, _ => .ok (.ok config)
  | none, some config => .ok (.ok (config, "webp"))
  | none, none => do
    match ← detectHEIF data with
    | none => .ok (.error "failed to decode image config: unsupported format")
    | some mime =>
      match ← parseHEIFDimensions fuel data with
      | some (w, h) => .ok (.ok (⟨w, h⟩, if mime = .heic then "heic" else "heif"))
      | none => .ok (.error "failed to decode HEIF/HEIC image dimensions")

structure Box where
  boxType : Bytes
  size : ℕ
  content : Bytes

/-- The box at an offset of the given size and header, if it lies within the data. -/
def boxOf (data : Bytes) (off header size : ℕ) : Option Box :=
  if header ≤ size ∧ off + size ≤ data.length then
    some ⟨(data.drop (off + 4)).take 4, size, (data.drop (off + header)).take (size - header)⟩
  else none

def size32At (data : Bytes) (off : ℕ) : ℕ := bigEndian ((data.drop off).take 4)

/-- The next eight bytes after the header of a box. -/
def size64At (data : Bytes) (off : ℕ) : ℕ := bigEndian ((data.drop (off + 8)).take 8)

/-- A box within another one, with a short size. -/
def childBox (data : Bytes) (off : ℕ) : Option Box :=
  if off + 8 ≤ data.length then boxOf data off 8 (size32At data off) else none

/-- The header and the size of the box of the file at an offset. -/
def topSize (data : Bytes) (off : ℕ) : Option (ℕ × ℕ) :=
  if size32At data off = 1 then
    if off + 16 ≤ data.length then some (16, size64At data off) else none
  else if size32At data off = 0 then some (8, data.length - off)
  else some (8, size32At data off)

/-- A box of the file, with a short or a long size. -/
def topBox (data : Bytes) (off : ℕ) : Option Box :=
  if off + 8 ≤ data.length then (topSize data off).bind fun s => boxOf data off s.1 s.2 else none

/-- The 64-bit size of the box at an offset fits, but its sum with the offset does not. -/
def SumOverflows (data : Bytes) (off : ℕ) : Prop :=
  off + 16 ≤ data.length ∧ size32At data off = 1 ∧ 16 ≤ size64At data off ∧
    size64At data off < 2 ^ 63 ∧ 2 ^ 63 ≤ off + size64At data off

/-- The offsets that a walk over the boxes of the file gets to. It ends at the box `meta`. -/
inductive Walk (data : Bytes) : ℕ → ℕ → Prop
  | here (off : ℕ) : Walk data off off
  | next {off off' : ℕ} {b : Box} : topBox data off = some b → b.boxType ≠ ascii "meta" →
      Walk data (off + b.size) off' → Walk data off off'

/-- The walk gets to a box whose end is not a 64-bit integer. -/
def WalkOverflows (data : Bytes) (off : ℕ) : Prop :=
  ∃ off', Walk data off off' ∧ SumOverflows data off'

/-- The offsets of the boxes of a container. -/
inductive Child (data : Bytes) : ℕ → Prop
  | first : Child data 0
  | next {off : ℕ} {b : Box} : Child data off → childBox data off = some b →
      Child data (off + b.size)

/-- A box `ispe` with this content is in the container, or in a container in it. -/
inductive HasISPE : Bytes → Bytes → Prop
  | here {data : Bytes} {off : ℕ} {b : Box} : Child data off → childBox data off = some b →
      b.boxType = ascii "ispe" → HasISPE data b.content
  | inside {data content : Bytes} {off : ℕ} {b : Box} : Child data off →
      childBox data off = some b → b.boxType = ascii "iprp" ∨ b.boxType = ascii "ipco" →
      HasISPE b.content content → HasISPE data content

/-- The file has a box `meta` with such a box `ispe`. Four bytes of `meta` come first. -/
def HasMetaISPE (data content : Bytes) : Prop :=
  ∃ off b, Walk data 0 off ∧ topBox data off = some b ∧ b.boxType = ascii "meta" ∧
    HasISPE (b.content.drop 4) content

/-- The two 32-bit fields of a box `ispe`, after four bytes. -/
def fieldsOf (content : Bytes) : ℤ × ℤ :=
  (bigEndian ((content.drop 4).take 4), bigEndian ((content.drop 8).take 4))

/-- A slice of bytes. No allocation is larger than 2 ^ 48 bytes on a 64-bit platform. -/
structure ByteSlice where
  bytes : Bytes
  length_le : bytes.length ≤ 2 ^ 48

variable {data : Bytes}

theorem addInt_natCast {a b : ℕ} (h : a + b < 2 ^ 63) : addInt a b = ((a + b : ℕ) : ℤ) := by
  unfold addInt
  rw [wrapInt64_eq_self] <;> push_cast <;> omega

theorem addInt_eight (a : ℕ) (h : a + 8 < 2 ^ 63) : addInt a 8 = ((a + 8 : ℕ) : ℤ) :=
  addInt_natCast h

theorem slice_natCast {lo hi : ℕ} (hlo : lo ≤ hi) (hhi : hi ≤ data.length) :
    slice data lo hi = .ok ((data.drop lo).take (hi - lo)) := by
  unfold slice
  rw [if_pos (by omega)]
  congr
  omega

theorem slice_rest (h : 4 ≤ data.length) : slice data 4 data.length = .ok (data.drop 4) := by
  have hslice := slice_natCast h (le_refl data.length)
  rw [List.take_of_length_le (by rw [List.length_drop])] at hslice
  exact hslice

theorem length_take_drop {lo n : ℕ} (h : lo + n ≤ data.length) :
    ((data.drop lo).take n).length = n := by
  rw [List.length_take, List.length_drop]
  omega

theorem bigEndian_lt (b : Bytes) : bigEndian b < 256 ^ b.length := by
  induction b using List.reverseRecOn with
  | nil => simp [bigEndian]
  | append_singleton b x ih =>
    have hx : x.toNat < 256 := x.toNat_lt
    have hstep : bigEndian (b ++ [x]) = 256 * bigEndian b + x.toNat := by simp [bigEndian]
    rw [hstep, List.length_append, List.length_singleton, pow_succ]
    omega

variable {off header size : ℕ} (fuel : ℕ)

theorem size32At_lt (h : off + 4 ≤ data.length) : size32At data off < 2 ^ 32 := by
  have hlt := bigEndian_lt ((data.drop off).take 4)
  rw [length_take_drop h] at hlt
  exact hlt

theorem size64At_lt (h : off + 16 ≤ data.length) : size64At data off < 2 ^ 64 := by
  have hlt := bigEndian_lt ((data.drop (off + 8)).take 8)
  rw [length_take_drop (by omega)] at hlt
  exact hlt

section
variable (hlen : data.length ≤ 2 ^ 48)
include hlen

section
variable (h : off + 8 ≤ data.length)
include h

theorem read_header :
    (slice data off (addInt off 4) >>= uint32) = .ok (size32At data off) ∧
      slice data (addInt off 4) (addInt off 8) = .ok ((data.drop (off + 4)).take 4) := by
  have h4 : addInt (off : ℤ) 4 = ((off + 4 : ℕ) : ℤ) := addInt_natCast (b := 4) (by omega)
  have h8 := addInt_eight off (by omega)
  rw [h4, h8]
  constructor
  · have hfour := length_take_drop (show off + 4 ≤ data.length by omega)
    rw [slice_natCast (by omega) (by omega), Nat.add_sub_cancel_left]
    simp [bind, Except.bind, uint32, hfour, size32At, List.take_take]
  · rw [slice_natCast (by omega) (by omega), show off + 8 - (off + 4) = 4 by omega]

theorem topSize_cases
    (hsize : topSize data off = some (header, size)) : (header = 8 ∧ size ≤ 2 ^ 48) ∨
      (header = 16 ∧ off + 16 ≤ data.length ∧ size32At data off = 1 ∧
        size = size64At data off ∧ size < 2 ^ 64) := by
  have h32 := size32At_lt (show off + 4 ≤ data.length by omega)
  unfold topSize at hsize
  split_ifs at hsize with hone hlong hzero <;>
    simp at hsize <;> obtain ⟨rfl, rfl⟩ := hsize
  · exact .inr ⟨rfl, hlong, hone, rfl, size64At_lt hlong⟩
  · exact .inl ⟨rfl, by omega⟩
  · exact .inl ⟨rfl, by omega⟩

theorem boxLength_eq :
    boxLength data off (size32At data off) =
      .ok ((topSize data off).map fun s => (wrapInt64 s.2, (s.1 : ℤ))) := by
  have h32 := size32At_lt (show off + 4 ≤ data.length by omega)
  have h8 := addInt_eight off (by omega)
  have h16 : addInt (off : ℤ) 16 = ((off + 16 : ℕ) : ℤ) := addInt_natCast (b := 16) (by omega)
  unfold boxLength topSize
  rw [h8, h16]
  split_ifs with hone hsh hlong hlong hzero
  · omega
  · rfl
  · have height := length_take_drop (show off + 8 + 8 ≤ data.length by omega)
    rw [slice_natCast (by omega) hlong, show off + 16 - (off + 8) = 8 by omega]
    simp [uint64, height, size64At, List.take_take]
  · omega
  · rw [Option.map_some, Nat.cast_sub (by omega)]
    rfl
  · rw [Option.map_some, wrapInt64_eq_self (by omega) (by omega)]
    rfl

theorem parseFrom_header
    (hsize : topSize data off = some (header, size)) : parseFrom (fuel + 1) data off =
      if wrapInt64 size < header ∨ (data.length : ℤ) < addInt off (wrapInt64 size) then .ok none
      else if (data.drop (off + 4)).take 4 = ascii "meta" then do
        let metaData ← slice data (addInt off header) (addInt off (wrapInt64 size))
        if metaData.length < 4 then .ok none
        else findISPE fuel (← slice metaData 4 metaData.length)
      else parseFrom fuel data (addInt off (wrapInt64 size)) := by
  have h8 := addInt_eight off (by omega)
  obtain ⟨h32, htype⟩ := read_header hlen h
  rw [parseFrom, h8, if_pos (by exact_mod_cast h), ← h8, ← bind_assoc, h32]
  rw [ok_bind, htype, ok_bind, boxLength_eq hlen h, hsize, ok_bind, Option.map_some]

end

/-- An offset within the data and a 32-bit size add up without overflow. -/
theorem findISPEFrom_succ (hoff : off ≤ data.length) :
    findISPEFrom (fuel + 1) data off =
      match childBox data off with
      | none => .ok none
      | some b => searchBox (findISPE fuel) b.boxType b.content >>= fun found =>
        match found with
        | some d => .ok (some d)
        | none => findISPEFrom fuel data (off + b.size : ℕ) := by
  have h8 := addInt_eight off (by omega)
  rw [findISPEFrom, childBox, h8]
  by_cases hhd : off + 8 ≤ data.length
  · obtain ⟨hsize, htype⟩ := read_header hlen hhd
    have hlt := size32At_lt (show off + 4 ≤ data.length by omega)
    have hsum : addInt (off : ℤ) (size32At data off : ℤ) = ((off + size32At data off : ℕ) : ℤ) :=
      addInt_natCast (by omega)
    rw [if_pos (by exact_mod_cast hhd), if_pos hhd, ← h8, ← bind_assoc, hsize]
    simp only [ok_bind, htype, hsum, boxOf]
    by_cases hbox : 8 ≤ size32At data off ∧ off + size32At data off ≤ data.length
    · have hcont : slice data ((off + 8 : ℕ) : ℤ) ((off + size32At data off : ℕ) : ℤ) =
          .ok ((data.drop (off + 8)).take (size32At data off - 8)) := by
        rw [slice_natCast (by omega) hbox.2,
          show off + size32At data off - (off + 8) = size32At data off - 8 by omega]
      rw [if_neg (by omega), if_pos hbox, h8, hcont]
      rfl
    · rw [if_pos (by omega), if_neg hbox]
  · rw [if_neg (by exact_mod_cast hhd), if_neg hhd]

end

/-- What the loop does with a box of the file. -/
def parseBox (fuel : ℕ) (data : Bytes) (off : ℕ) : Option Box → Except Stop (Option (ℤ × ℤ))
  | none => .ok none
  | some b =>
    if b.boxType = ascii "meta" then
      if b.content.length < 4 then .ok none else findISPE fuel (b.content.drop 4)
    else parseFrom fuel data (off + b.size : ℕ)

theorem parseFrom_fits (hlen : data.length ≤ 2 ^ 48) (h : off + 8 ≤ data.length)
    (hsize : topSize data off = some (header, size)) (hfits : off + size < 2 ^ 63) :
    parseFrom (fuel + 1) data off = parseBox fuel data off (boxOf data off header size) := by
  have hwrap : wrapInt64 (size : ℤ) = (size : ℤ) := wrapInt64_eq_self (by omega) (by omega)
  rw [parseFrom_header fuel hlen h hsize, hwrap, addInt_natCast hfits, boxOf]
  by_cases hbox : header ≤ size ∧ off + size ≤ data.length
  · have hhead : addInt (off : ℤ) (header : ℤ) = ((off + header : ℕ) : ℤ) :=
      addInt_natCast (by omega)
    rw [if_neg (by omega), if_pos hbox, hhead, slice_natCast (by omega) hbox.2,
      show off + size - (off + header) = size - header by omega, ok_bind]
    simp only [parseBox]
    split_ifs with hmeta hsh
    · rfl
    · rw [slice_rest (not_lt.mp hsh), ok_bind]
    · rfl
  · rw [if_pos (by omega), if_neg hbox]
    rfl

/-- A box of the file, unless the sum of its offset and size overflows. -/
theorem parseFrom_succ (hlen : data.length ≤ 2 ^ 48) (hoff : off ≤ data.length)
    (hsafe : ¬SumOverflows data off) :
    parseFrom (fuel + 1) data off = parseBox fuel data off (topBox data off) := by
  have h8 := addInt_eight off (by omega)
  by_cases hhd : off + 8 ≤ data.length
  · rw [topBox, if_pos hhd]
    cases hsize : topSize data off with
    | none =>
      obtain ⟨h32, htype⟩ := read_header hlen hhd
      rw [parseFrom, h8, if_pos (by exact_mod_cast hhd), ← h8, ← bind_assoc, h32, ok_bind,
        htype, ok_bind, boxLength_eq hlen hhd, hsize, ok_bind]
      rfl
    | some s =>
      obtain ⟨header, size⟩ := s
      rw [Option.bind_some]
      by_cases hfits : off + size < 2 ^ 63
      · exact parseFrom_fits fuel hlen hhd hsize hfits
      -- otherwise the size is one of 64 bits, and negative as an integer
      rcases topSize_cases hlen hhd hsize with ⟨-, hsm⟩ | ⟨rfl, hlong, hone, hat, hlt⟩
      · omega
      have hlg : 2 ^ 63 ≤ size := by
        by_contra hsm
        exact hsafe ⟨hlong, hone, by omega, by omega, by omega⟩
      have hwrap : wrapInt64 (size : ℤ) = (size : ℤ) - 2 ^ 64 := by
        unfold wrapInt64
        omega
      rw [parseFrom_header fuel hlen hhd hsize, boxOf, if_pos (by omega), if_neg (by omega)]
      rfl
  · rw [parseFrom, topBox, h8, if_neg (by exact_mod_cast hhd), if_neg hhd]
    rfl

/-- At a negative offset the loop slices outside of the data. -/
theorem parseFrom_negative {offset : ℤ} (hlow : -2 ^ 63 ≤ offset) (hneg : offset < -8) :
    parseFrom (fuel + 1) data offset = .error .panic := by
  have h8 : addInt offset 8 = offset + 8 := wrapInt64_eq_self (by omega) (by omega)
  have hslice : slice data offset (addInt offset 4) = .error .panic := if_neg (by omega)
  rw [parseFrom, if_pos (by omega), hslice]
  rfl

/-- After an overflow the loop is at a negative offset. -/
theorem parseFrom_overflow (hlen : data.length ≤ 2 ^ 48) (h : SumOverflows data off) :
    parseFrom (fuel + 2) data off = .error .panic := by
  obtain ⟨hlong, hone, hhd, hfits, hsum⟩ := h
  have hsize : topSize data off = some (16, size64At data off) := by
    rw [topSize, if_pos hone, if_pos hlong]
  have hwrap : wrapInt64 (size64At data off : ℤ) = (size64At data off : ℤ) :=
    wrapInt64_eq_self (by omega) (by omega)
  have hadd : addInt (off : ℤ) (size64At data off : ℤ) = off + size64At data off - 2 ^ 64 := by
    unfold addInt wrapInt64
    omega
  have h16 : addInt (off : ℤ) ((16 : ℕ) : ℤ) = ((off + 16 : ℕ) : ℤ) := addInt_natCast (by omega)
  rw [parseFrom_header (fuel + 1) hlen (by omega) hsize, hwrap, hadd, if_neg (by omega), h16]
  split_ifs with hmeta
  · have hslice : slice data ((off + 16 : ℕ) : ℤ) (off + size64At data off - 2 ^ 64) =
        .error .panic := if_neg (by omega)
    rw [hslice]
    rfl
  · exact parseFrom_negative fuel (by omega) (by omega)

end NewApi.Heif
