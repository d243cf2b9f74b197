import NewApi.GoStrings
import NewApi.MemoTable

/-!
# Inline files of a request

A file given as base64 text is loaded through `LoadFileSource` (`service/file_service.go`). The
loaded data are kept in the source itself and, for the length of the request, in the gin context
under a digest of the text's length, its MIME type and its first 128 bytes. `GetBase64Data` then
returns what the source has been given.

The digest is assumed to have no collisions.
-/
namespace NewApi.InlineFiles

def ascii (s : String) : Bytes := s.toList.map fun c => UInt8.ofNat c.toNat

def newline : UInt8 := 10
def carriageReturn : UInt8 := 13
def comma : UInt8 := 44
def colon : UInt8 := 58
def semicolon : UInt8 := 59
def padding : UInt8 := 61

/-- The value of a character of the standard alphabet. -/
def sextet (c : UInt8) : Option ℕ :=
  if 65 ≤ c ∧ c ≤ 90 then some (c.toNat - 65)
  else if 97 ≤ c ∧ c ≤ 122 then some (c.toNat - 71)
  else if 48 ≤ c ∧ c ≤ 57 then some (c.toNat + 4)
  else if c = 43 then some 62
  else if c = 47 then some 63
  else none

/-- Four characters are three bytes. Only the last four may end in padding. -/
def decodeQuanta : Bytes → Option Bytes
  | [] => some []
  | a :: b :: c :: d :: rest => do
    let a ← sextet a
    let b ← sextet b
    let first := UInt8.ofNat (a * 4 + b / 16)
    if c = padding ∧ d = padding ∧ rest = [] then
      return [first]
    let c ← sextet c
    let second := UInt8.ofNat (b * 16 + c / 4)
    if d = padding ∧ rest = [] then
      return [first, second]
    let d ← sextet d
    return first :: second :: UInt8.ofNat (c * 64 + d) :: (← decodeQuanta rest)
  | _ => none

/-- `base64.StdEncoding.DecodeString` skips line ends. -/
def decodeString (s : Bytes) : Option Bytes :=
  decodeQuanta (s.filter fun c => c ≠ newline ∧ c ≠ carriageReturn)

/-- A number as `%d` prints it. -/
def decimal (n : ℕ) : Bytes :=
  if n = 0 then [48] else (Nat.digits 10 n).reverse.map fun d => UInt8.ofNat (48 + d)

/-- The length, the type and the first 128 characters. -/
def keyMaterial (data mimeType : Bytes) : Bytes :=
  decimal data.length ++ colon :: (mimeType ++ colon ::
    if 128 < data.length then data.take 128 else data)

theorem toNat_digit {d : ℕ} (h : d < 10) : (UInt8.ofNat (48 + d)).toNat = 48 + d := by
  rw [UInt8.toNat_ofNat']
  omega

theorem mem_decimal {n : ℕ} {c : UInt8} (h : c ∈ decimal n) : c.toNat < 58 := by
  unfold decimal at h
  split_ifs at h with hn
  · rw [List.mem_singleton.mp h]
    decide
  obtain ⟨d, hd, rfl⟩ := List.mem_map.mp h
  have hlt : d < 10 := Nat.digits_lt_base (by omega) (List.mem_reverse.mp hd)
  rw [toNat_digit hlt]
  omega

theorem colon_notMem_decimal (n : ℕ) : colon ∉ decimal n := by
  intro h
  have hlt := mem_decimal h
  exact absurd hlt (by decide)

theorem takeWhile_decimal (n : ℕ) (rest : Bytes) :
    (decimal n ++ colon :: rest).takeWhile (· ≠ colon) = decimal n := by
  rw [List.takeWhile_append_of_pos]
  · simp
  · intro c hc
    have hne : c ≠ colon := fun h => colon_notMem_decimal n (h ▸ hc)
    simpa using hne

theorem ofDigits_decimal (n : ℕ) :
    Nat.ofDigits 10 ((decimal n).reverse.map fun c => c.toNat - 48) = n := by
  unfold decimal
  split_ifs with hn
  · simp [hn]
  rw [← List.map_reverse, List.reverse_reverse, List.map_map]
  have hdigits : (Nat.digits 10 n).map ((fun c => UInt8.toNat c - 48) ∘ fun d =>
      UInt8.ofNat (48 + d)) = Nat.digits 10 n := by
    refine (List.map_congr_left fun d hd => ?_).trans (List.map_id _)
    have hlt : d < 10 := Nat.digits_lt_base (by omega) hd
    rw [Function.comp_apply, toNat_digit hlt, id]
    omega
  rw [hdigits, Nat.ofDigits_digits]

theorem decimal_injective : Function.Injective decimal := by
  intro m n h
  rw [← ofDigits_decimal m, h, ofDigits_decimal]

theorem keyMaterial_eq (data mimeType : Bytes) : keyMaterial data mimeType =
    decimal data.length ++ colon :: (mimeType ++ colon :: data.take 128) := by
  unfold keyMaterial
  split_ifs with h
  · rfl
  · rw [List.take_of_length_le (by omega)]

/-- The key material fixes the length, the type and the first 128 bytes, and nothing else. -/
theorem keyMaterial_eq_iff {data data' mimeType mimeType' : Bytes} :
    keyMaterial data mimeType = keyMaterial data' mimeType' ↔
      mimeType = mimeType' ∧ data.length = data'.length ∧ data.take 128 = data'.take 128 := by
  rw [keyMaterial_eq, keyMaterial_eq]
  constructor
  · intro h
    have hlen := congrArg (List.takeWhile (· ≠ colon)) h
    rw [takeWhile_decimal, takeWhile_decimal] at hlen
    rw [hlen] at h
    have hrest := (List.cons.inj (List.append_cancel_left h)).2
    have hdata : data.length = data'.length := decimal_injective hlen
    -- a type may have colons in it: the two halves are told apart by the length of the second
    have htake : (colon :: data.take 128).length = (colon :: data'.take 128).length := by
      simp [hdata]
    obtain ⟨hmime, hpre⟩ := List.append_inj' hrest htake
    exact ⟨hmime, hdata, (List.cons.inj hpre).2⟩
  · rintro ⟨hmime, hdata, htake⟩
    rw [hmime, hdata, htake]

/-- A file in the request. -/
structure Base64Source where
  (base64Data mimeType : Bytes)

/-- The data are in memory or in a file of the disk cache. -/
structure CachedFileData where
  (base64Data mimeType : Bytes)
  size : ℕ
  imageFormat : Option Bytes
  isDisk : Bool

inductive FileError where
  | failedToDecode
  | failedToGet
deriving DecidableEq

/-- The type that a `data:` header names between its first colon and its first semicolon. -/
def headerMime (header : Bytes) : Bytes :=
  let mimeStart := header.idxOf colon + 1
  let mimeEnd := header.idxOf semicolon
  if colon ∈ header ∧ semicolon ∈ header ∧ mimeStart < mimeEnd then
    (header.take mimeEnd).drop mimeStart
  else []

/-- The type in the header and the text after it. -/
def splitHeader (base64String : Bytes) : Bytes × Bytes :=
  if (ascii "data:").isPrefixOf base64String ∧ comma ∈ base64String then
    let idx := base64String.idxOf comma
    (headerMime (base64String.take idx), base64String.drop (idx + 1))
  else ([], base64String)

/-- The text behind the header. -/
def Base64Source.payload (s : Base64Source) : Bytes := (splitHeader s.base64Data).2

/-- What the loading of inline files uses of the rest of the program. The image decoder gives the
format of an image. The disk cache takes a text if it is large enough and the file is written. -/
structure FileService where
  generateHMAC : Bytes → Bytes
  collisionFree : Function.Injective generateHMAC
  decodeImageConfig : Bytes → Option Bytes
  usesDiskCache : Bytes → Bool

/-- The type that is given counts before that of the header. -/
def FileService.loadFromBase64 (service : FileService) (base64String providedMimeType : Bytes) :
    Except FileError CachedFileData :=
  let (headerType, cleanBase64) := splitHeader base64String
  let mimeType := if providedMimeType ≠ [] then providedMimeType else headerType
  match decodeString cleanBase64 with
  | none => .error .failedToDecode
  | some decodedData =>
    let imageFormat :=
      if mimeType = [] ∨ (ascii "image/").isPrefixOf mimeType then
        service.decodeImageConfig decodedData
      else none
    .ok {
      base64Data := cleanBase64
      mimeType :=
        match imageFormat with
        | some format => if mimeType = [] then ascii "image/" ++ format else mimeType
        | none => mimeType
      size := decodedData.length
      imageFormat := imageFormat
      isDisk := service.usesDiskCache cleanBase64 }

def FileService.getBase64ContextCacheKey (service : FileService) (data mimeType : Bytes) : Bytes :=
  ascii "b64_cache_" ++ service.generateHMAC (keyMaterial data mimeType)

/-- A file of the disk cache may be gone or unreadable. -/
def CachedFileData.getBase64Data (cached : CachedFileData) (readable : Bool) :
    Except FileError Bytes :=
  if cached.isDisk ∧ !readable then .error .failedToGet else .ok cached.base64Data

section
variable (service : FileService) {n : ℕ} (files : Fin n → Base64Source)

/-- What the request has decoded so far. -/
abbrev FileCaches (n : ℕ) := Memo (Fin n) Bytes CachedFileData

/-- The key of the file at a position. -/
def FileService.keyOf (i : Fin n) : Bytes :=
  service.getBase64ContextCacheKey (files i).base64Data (files i).mimeType

/-- What the file at a position holds. -/
def FileService.dataOf (i : Fin n) : Except FileError CachedFileData :=
  service.loadFromBase64 (files i).base64Data (files i).mimeType

/-- A file is decoded unless its key is cached. -/
def FileService.loadFileSource (i : Fin n) (caches : FileCaches n) :
    Except FileError CachedFileData × FileCaches n :=
  Memo.load (service.keyOf files) (service.dataOf files) i caches

/-- The caches after files have been loaded, in any order and any number of times. -/
def FileService.loaded (loads : List (Fin n)) : FileCaches n :=
  Memo.loaded (service.keyOf files) (service.dataOf files) loads

/-- What the upstream is sent for a file. -/
def FileService.getBase64Data (i : Fin n) (readable : Bool) (caches : FileCaches n) :
    Except FileError (Bytes × Bytes) := do
  let cachedData ← (service.loadFileSource files i caches).1
  let base64Str ← cachedData.getBase64Data readable
  return (base64Str, cachedData.mimeType)

end

variable {service : FileService} {n : ℕ} {files : Fin n → Base64Source}

variable {cached : CachedFileData} {s : Base64Source}

theorem loadFromBase64_eq_ok (h : service.loadFromBase64 s.base64Data s.mimeType = .ok cached) :
    cached.base64Data = s.payload ∧ (decodeString s.payload).isSome := by
  unfold FileService.loadFromBase64 at h
  unfold Base64Source.payload
  cases hdecode : decodeString (splitHeader s.base64Data).2 with
  | none => simp [hdecode] at h
  | some decoded =>
    simp only [hdecode] at h
    cases h
    exact ⟨rfl, rfl⟩

theorem exists_loadFromBase64 (service : FileService) (h : (decodeString s.payload).isSome) :
    ∃ cached, service.loadFromBase64 s.base64Data s.mimeType = .ok cached := by
  obtain ⟨decoded, hdecode⟩ := Option.isSome_iff_exists.mp h
  unfold Base64Source.payload at hdecode
  unfold FileService.loadFromBase64
  simp only [hdecode]
  exact ⟨_, rfl⟩

/-- Two files share a key iff type, length and start are the same. -/
theorem keyOf_eq_iff {i j : Fin n} : service.keyOf files i = service.keyOf files j ↔
    (files i).mimeType = (files j).mimeType ∧
      (files i).base64Data.length = (files j).base64Data.length ∧
      (files i).base64Data.take 128 = (files j).base64Data.take 128 := by
  unfold FileService.keyOf FileService.getBase64ContextCacheKey
  rw [List.append_cancel_left_eq, service.collisionFree.eq_iff, keyMaterial_eq_iff]

variable {caches : FileCaches n}

theorem getBase64Data_eq_ok {i : Fin n} {readable : Bool} {data mimeType : Bytes}
    (h : service.getBase64Data files i readable caches = .ok (data, mimeType)) :
    ∃ cached, (service.loadFileSource files i caches).1 = .ok cached ∧
      cached.base64Data = data := by
  unfold FileService.getBase64Data at h
  cases hload : (service.loadFileSource files i caches).1 with
  | error e => simp [hload, bind, Except.bind] at h
  | ok cached =>
    rw [hload] at h
    refine ⟨cached, rfl, ?_⟩
    by_cases hdisk : cached.isDisk ∧ !readable
    · simp [bind, Except.bind, CachedFileData.getBase64Data, hdisk] at h
    · simp only [bind, Except.bind, CachedFileData.getBase64Data, if_neg hdisk, pure,
        Except.pure, Except.ok.injEq, Prod.mk.injEq] at h
      exact h.1

theorem getBase64Data_of_ok {i : Fin n}
    (h : (service.loadFileSource files i caches).1 = .ok cached) :
    service.getBase64Data files i true caches = .ok (cached.base64Data, cached.mimeType) := by
  unfold FileService.getBase64Data CachedFileData.getBase64Data
  rw [h]
  simp [bind, Except.bind, pure, Except.pure]

/-- Whatever files of the request have been loaded before, `GetBase64Data` returns a file's own
payload, iff any two files with the same type, the same length and the same first 128 bytes have
the same payload, unless it cannot be decoded. -/
theorem own_payload_iff (service : FileService) {n : ℕ} (files : Fin n → Base64Source) :
    (∀ loads i readable data mimeType,
        service.getBase64Data files i readable (service.loaded files loads) =
          .ok (data, mimeType) → data = (files i).payload) ↔
      ∀ i j, (files i).mimeType = (files j).mimeType →
        (files i).base64Data.length = (files j).base64Data.length →
        (files i).base64Data.take 128 = (files j).base64Data.take 128 →
        (decodeString (files j).payload).isSome →
        (files j).payload = (files i).payload := by
  have hfait := Memo.faithful_iff (service.keyOf files) (service.dataOf files)
    fun i cached => cached.base64Data = (files i).payload
  constructor
  · intro h i j hmime hlen htake hdecode
    obtain ⟨cached, hcac⟩ := exists_loadFromBase64 service hdecode
    rw [← (loadFromBase64_eq_ok hcac).1]
    refine hfait.mp ?_ i j cached (keyOf_eq_iff.mpr ⟨hmime, hlen, htake⟩) hcac
    intro loads i' cached' hload
    exact h loads i' true _ _ (getBase64Data_of_ok hload)
  · intro h loads i readable data mimeType hget
    obtain ⟨cached, hload, rfl⟩ := getBase64Data_eq_ok hget
    refine hfait.mpr ?_ loads i cached hload
    intro i' j cached' hkey hcac
    obtain ⟨hmime, hlen, htake⟩ := keyOf_eq_iff.mp hkey
    obtain ⟨hpayl, hdecode⟩ := loadFromBase64_eq_ok hcac
    rw [hpayl]
    exact h i' j hmime hlen htake hdecode

def plainService : FileService where
  generateHMAC := id
  collisionFree := Function.injective_id
  decodeImageConfig _ := none
  usesDiskCache _ := false

def twoImages : Fin 2 → Base64Source
  | 0 => ⟨List.replicate 132 65, ascii "image/png"⟩
  | 1 => ⟨List.replicate 128 65 ++ ascii "BBBB", ascii "image/png"⟩

/-- Once the first image is loaded, the second one is given its data. -/
theorem second_image_lost :
    plainService.getBase64Data twoImages 1 true (plainService.loaded twoImages [0]) =
        .ok ((twoImages 0).payload, ascii "image/png") ∧
      (twoImages 0).payload ≠ (twoImages 1).payload ∧
      plainService.getBase64Data twoImages 1 true (plainService.loaded twoImages []) =
        .ok ((twoImages 1).payload, ascii "image/png") := by
  decide +kernel

end NewApi.InlineFiles
