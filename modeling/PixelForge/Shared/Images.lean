import Mathlib.Data.List.Dedup
import Mathlib.Data.List.DropRight
import Mathlib.Data.List.Sort
import PixelForge.Shared.Aws

/-! # Images (`shared/images.py`)

The upload gate `probeImage`, EXIF extraction, and `renderThumbnails`. Pillow itself is
`Externals`; here is what the repository does with its answers and its exceptions.
-/
set_option autoImplicit false

namespace PixelForge
open Effects

/-- `s.upper()` of a Pillow format name, which is ASCII. -/
def upperAscii (s : String) : String := String.ofList (s.toList.map Char.toUpper)

/-- `ALLOWED_CONTENT_TYPES`, sorted. -/
def allowedContentTypes : List String :=
  ["image/bmp", "image/gif", "image/jpeg", "image/jpg", "image/png", "image/tiff", "image/webp"]

def formatExtensions : List (String × String) :=
  [("JPEG", ".jpg"), ("PNG", ".png"), ("WEBP", ".webp"), ("GIF", ".gif"), ("BMP", ".bmp"),
    ("TIFF", ".tiff"), ("MPO", ".jpg")]

def extensionForFormat (imageFormat : String) : String :=
  if imageFormat = "" then ".bin"
  else (formatExtensions.lookup (upperAscii imageFormat)).getD ".bin"

/-! ## The upload gate -/

structure ImageProbe where
  format : String
  width : Int
  height : Int
  extension : String
deriving DecidableEq, Repr

/-- The `except` clauses of `probe_image`. -/
def probeError : Exc → Exc
  | .python .unidentifiedImageError _ => .imageProcessing "file is not a recognised image format"
  | .python .decompressionBombError _ =>
    .imageProcessing "image exceeds the maximum allowed pixel count"
  | .python .osError text => .imageProcessing s!"image could not be decoded: {text}"
  | .python .valueError text => .imageProcessing s!"image could not be decoded: {text}"
  | .python .syntaxError text => .imageProcessing s!"image could not be decoded: {text}"
  | e => e

def probeImage (data : Bytes) : Py ImageProbe :=
  if data = [] then Fallible.raise (.imageProcessing "uploaded file is empty")
  else
    Fallible.tryElse (ask (.verifyImage data)) (fun e => Fallible.raise (probeError e))
      fun (header : Header) =>
        let imageFormat := header.format.getD ""
        let extension := extensionForFormat imageFormat
        if extension = ".bin" then
          let shown := if imageFormat = "" then "unknown" else imageFormat
          Fallible.raise (.imageProcessing s!"unsupported image format: {shown}")
        else if header.width ≤ 0 ∨ header.height ≤ 0 then
          Fallible.raise (.imageProcessing "image has zero width or height")
        else pure ⟨upperAscii imageFormat, header.width, header.height, extension⟩

/-! ## EXIF -/

/-- The characters `str.strip` strips. -/
def isPySpace (c : Char) : Bool :=
  let n := c.toNat
  (9 ≤ n && n ≤ 13) || (28 ≤ n && n ≤ 32) || n == 0x85 || n == 0xA0 || n == 0x1680 ||
    (0x2000 ≤ n && n ≤ 0x200A) || n == 0x2028 || n == 0x2029 || n == 0x202F || n == 0x205F ||
    n == 0x3000

def strip (cs : List Char) : List Char := (cs.dropWhile isPySpace).rdropWhile isPySpace

theorem strip_eq_nil_iff {cs : List Char} : strip cs = [] ↔ ∀ c ∈ cs, isPySpace c = true := by
  rw [strip, List.rdropWhile_eq_nil_iff]
  constructor
  · intro h
    refine List.dropWhile_eq_nil_iff.mp (Decidable.by_contra fun hne => ?_)
    obtain ⟨c, rest, hc⟩ := List.exists_cons_of_ne_nil hne
    have hnot := List.head?_dropWhile_not isPySpace cs
    rw [hc] at hnot
    have hnot : isPySpace c = false := hnot
    have hspace := h c (hc ▸ List.mem_cons_self)
    rw [hnot] at hspace
    cases hspace
  · intro h
    rw [List.dropWhile_eq_nil_iff.mpr h]
    exact fun c hc => absurd hc List.not_mem_nil

theorem mem_strip {c : Char} {cs : List Char} (h : c ∈ strip cs) : c ∈ cs :=
  (List.dropWhile_sublist _).subset ((List.rdropWhile_prefix _ _).subset h)

mutual
/-- `_normalise_exif_value`; `none` stands for `None`. -/
def normaliseExifValue (ext : Externals) : ExifValue → Except Exc (Option PyVal)
  | .bytes => .ok none
  | .str s =>
    let cleaned := strip (s.toList.filter (· != '\x00'))
    .ok (if cleaned = [] then none else some (.str (String.ofList (cleaned.take 256))))
  | .bool b => .ok (some (.bool b))
  | .int n => .ok (some (.int n))
  | .float x => .ok (some (.float (ext.round6 x)))
  | .rational n d =>
    if d = 0 then .ok none
    else if fitsFloat n && fitsFloat d then .ok (some (.float (ext.ratio6 n d)))
    else .error floatOverflow
  | .seq vs =>
    (normaliseExifList ext 16 vs).map fun
      | [] => none
      | kept => some (.list kept)
  | .other => .ok none

/-- `[item for item in map(_normalise_exif_value, value[:left]) if item is not None]`. -/
def normaliseExifList (ext : Externals) : Nat → List ExifValue → Except Exc (List PyVal)
  | 0, _ => .ok []
  | _ + 1, [] => .ok []
  | left + 1, v :: vs => do
    let item ← normaliseExifValue ext v
    let kept ← normaliseExifList ext left vs
    pure (item.toList ++ kept)
end

def exifBlocklist : List String :=
  ["MakerNote", "UserComment", "PrintImageMatching", "ImageResources", "XMLPacket"]

/-- `ExifTags.TAGS.get(tag_id) or ExifTags.GPSTAGS.get(tag_id) or f"Tag{tag_id}"`. -/
def exifTagName (ext : Externals) (tagId : Nat) : String :=
  (ext.tagName tagId).getD ((ext.gpsTagName tagId).getD s!"Tag{tagId}")

/-- `name in _EXIF_BLOCKLIST or name.lower().startswith("gps")`. -/
def exifNameDropped (ext : Externals) (name : String) : Bool :=
  exifBlocklist.contains name || "gps".toList.isPrefixOf (ext.lower name).toList

/-- `d[name] = value`: in its old place, else at the end. -/
def setKey {α : Type} (d : List (String × α)) (name : String) (value : α) : List (String × α) :=
  if d.any fun kv => kv.1 == name then
    d.map fun kv => if kv.1 == name then (name, value) else kv
  else d ++ [(name, value)]

theorem lookup_replace {α : Type} (name : String) (value : α) (k : String) (d : List (String × α)) :
    (d.map fun kv => if kv.1 == name then (name, value) else kv).lookup k =
      if k = name then (d.lookup name).map fun _ => value else d.lookup k := by
  induction d with
  | nil => simp
  | cons kv d ih =>
    obtain ⟨key, old⟩ := kv
    by_cases hkey : key = name
    · rw [List.map_cons, if_pos (beq_iff_eq.mpr hkey), lookup_cons_if, ih, lookup_cons_if,
        lookup_cons_if, hkey, if_pos rfl]
      split <;> rfl
    · rw [List.map_cons, if_neg (by simpa using hkey), lookup_cons_if, ih, lookup_cons_if,
        lookup_cons_if, if_neg (Ne.symm hkey)]
      by_cases hk : k = name
      · rw [if_pos hk, if_pos hk, if_neg fun h => hkey (h.symm.trans hk)]
      · rw [if_neg hk, if_neg hk]

theorem any_key_iff {α : Type} (name : String) (d : List (String × α)) :
    (d.any fun kv => kv.1 == name) = (d.lookup name).isSome := by
  induction d with
  | nil => rfl
  | cons kv d ih =>
    obtain ⟨key, old⟩ := kv
    rw [List.any_cons, ih, lookup_cons_if]
    by_cases hkey : name = key
    · simp [hkey]
    · have hb : (key == name) = false := by simpa using Ne.symm hkey
      simp [hkey, hb]

theorem lookup_setKey {α : Type} (d : List (String × α)) (name : String) (value : α) (k : String) :
    (setKey d name value).lookup k = if k = name then some value else d.lookup k := by
  unfold setKey
  rw [any_key_iff]
  split
  · rename_i hsome
    obtain ⟨old, hold⟩ := Option.isSome_iff_exists.mp hsome
    rw [lookup_replace, hold]
    rfl
  · rename_i hnone
    rw [List.lookup_append, lookup_cons_if]
    by_cases hk : k = name
    · rw [if_pos hk, if_pos hk, hk, Option.not_isSome_iff_eq_none.mp hnone]
      rfl
    · simp [hk]

/-- `absorb`. -/
def absorbExif (ext : Externals) (result : PyDict) : List (Nat × ExifValue) → Except Exc PyDict
  | [] => .ok result
  | (tagId, value) :: rest =>
    let name := exifTagName ext tagId
    if tagId = 0x8825 ∨ tagId = 0x8769 ∨ exifNameDropped ext name then absorbExif ext result rest
    else do
      let normalised ← normaliseExifValue ext value
      absorbExif ext (normalised.elim result (setKey result name)) rest

def extractExif (ext : Externals) : Option RawExif → Except Exc PyDict
  | none => .ok []
  | some raw =>
    if raw.main = [] then .ok []
    else do
      let result ← absorbExif ext [] raw.main
      absorbExif ext result (raw.exifIfd.getD [])

section Overflow

variable {ext : Externals} {e : Exc}

theorem normaliseExifList_error {vs : List ExifValue}
    (hitems : ∀ v ∈ vs, normaliseExifValue ext v = .error e → e = floatOverflow) {left : Nat}
    (h : normaliseExifList ext left vs = .error e) : e = floatOverflow := by
  induction left generalizing vs with
  | zero =>
    rw [normaliseExifList] at h
    cases h
  | succ left ih =>
    cases vs with
    | nil =>
      rw [normaliseExifList] at h
      cases h
    | cons v vs =>
      rw [normaliseExifList] at h
      obtain herr | ⟨item, -, h⟩ := error_of_bind_error h
      · exact hitems v List.mem_cons_self herr
      obtain herr | ⟨kept, -, h⟩ := error_of_bind_error h
      · exact ih (fun v' hv' => hitems v' (List.mem_cons_of_mem _ hv')) herr
      · cases h

/-- The conversion of a rational is all that raises. -/
theorem normaliseExifValue_error :
    ∀ v : ExifValue, normaliseExifValue ext v = .error e → e = floatOverflow
  | .bytes, h | .str _, h | .bool _, h | .int _, h | .float _, h | .other, h => by
    rw [normaliseExifValue] at h
    cases h
  | .rational n d, h => by
    rw [normaliseExifValue] at h
    split_ifs at h
    cases h
    rfl
  | .seq vs, h => by
    rw [normaliseExifValue] at h
    exact normaliseExifList_error (fun v _ => normaliseExifValue_error v) (error_of_map_error h)

theorem absorbExif_error {result : PyDict} {entries : List (Nat × ExifValue)}
    (h : absorbExif ext result entries = .error e) : e = floatOverflow := by
  induction entries generalizing result with
  | nil => cases h
  | cons entry entries ih =>
    rw [absorbExif] at h
    split at h
    · exact ih h
    · obtain herr | ⟨normalised, -, h⟩ := error_of_bind_error h
      · exact normaliseExifValue_error _ herr
      · exact ih h

theorem extractExif_error {exif : Option RawExif} (h : extractExif ext exif = .error e) :
    e = floatOverflow := by
  unfold extractExif at h
  split at h
  · cases h
  · split at h
    · cases h
    · obtain herr | ⟨result, -, h⟩ := error_of_bind_error h
      · exact absorbExif_error herr
      · exact absorbExif_error h

end Overflow

/-! ## Rendering -/

structure RenderedThumbnail where
  size : Nat
  data : Bytes
  width : Int
  height : Int
deriving DecidableEq, Repr

namespace RenderedThumbnail

def bytesLen (t : RenderedThumbnail) : Nat := t.data.length

def ofEncoded (size : Nat) (t : Encoded) : RenderedThumbnail := ⟨size, t.data, t.width, t.height⟩

end RenderedThumbnail

/-- What `render_thumbnails` returns. -/
structure Rendering where
  thumbnails : List RenderedThumbnail
  exif : PyDict
  width : Int
  height : Int
  sourceFormat : String
deriving Repr

/-- The `except` clauses of `render_thumbnails`. -/
def renderError : Exc → Exc
  | .python .unidentifiedImageError _ => .imageProcessing "file is not a recognised image format"
  | .python .decompressionBombError _ =>
    .imageProcessing "image exceeds the maximum allowed pixel count"
  | .python .osError text => .imageProcessing s!"image could not be processed: {text}"
  | .python .valueError text => .imageProcessing s!"image could not be processed: {text}"
  | .python .syntaxError text => .imageProcessing s!"image could not be processed: {text}"
  | .python .memoryError text => .imageProcessing s!"image could not be processed: {text}"
  | e => e

/-- `sorted(set(sizes))`. -/
def sortedSizes (sizes : List Nat) : List Nat := sizes.dedup.insertionSort (· ≤ ·)

/-- `(opened.format or "UNKNOWN").upper()`. -/
def Picture.sourceFormat (p : Picture) : String :=
  match p.format with
  | none => "UNKNOWN"
  | some f => if f = "" then "UNKNOWN" else upperAscii f

def renderOne (p : Picture) (size : Nat) : Py RenderedThumbnail := do
  let t : Encoded ← ask (.renderOne p size)
  pure (.ofEncoded size t)

/-- `render_thumbnails` of a file. Reading the file is outside the `try`. -/
def renderThumbnails (ext : Externals) (source : LocalFile) (sizes : List Nat) : Py Rendering := do
  let payload : Bytes ← ask (.readBytes source.contents)
  Fallible.tryElse
    (do
      let p : Picture ← ask (.openImage payload)
      let exif ← Fallible.ofExcept (extractExif ext p.exif)
      let thumbnails ← Fallible.forEach (renderOne p) (sortedSizes sizes)
      pure ⟨thumbnails, exif, p.width, p.height, p.sourceFormat⟩)
    (fun e => Fallible.raise (renderError e))
    pure

theorem mem_sortedSizes {sizes : List Nat} {n : Nat} : n ∈ sortedSizes sizes ↔ n ∈ sizes := by
  rw [sortedSizes, (List.perm_insertionSort _ _).mem_iff, List.mem_dedup]

theorem nodup_sortedSizes (sizes : List Nat) : (sortedSizes sizes).Nodup :=
  (List.perm_insertionSort _ _).nodup_iff.mpr (List.nodup_dedup sizes)

end PixelForge
