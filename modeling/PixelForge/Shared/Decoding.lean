import PixelForge.Shared.Wrappers

/-! # Pillow call by call

`Stepwise.probeImage` and `Stepwise.renderThumbnails` are the two entry points with one request for each
call of Pillow's, where `probeImage` and `renderThumbnails` have one for the whole of opening a file.
`Pillow` is what the library does; `Image.open` has two thresholds, and raises only above the second.
-/
set_option autoImplicit false

namespace PixelForge
open Effects

/-! ## The library -/

/-- `MAX_PIXELS`, which is also Pillow's `MAX_IMAGE_PIXELS`. -/
def maxPixels : Nat := 80000000

/-- What the header of a file declares. -/
structure Declared where
  format : Option String
  width : Nat
  height : Nat
deriving DecidableEq, Repr

namespace Declared

def pixels (d : Declared) : Nat := d.width * d.height

/-- The format and the size of an opened image. -/
def shown (d : Declared) : Header := ⟨d.format, d.width, d.height⟩

end Declared

/-- What Pillow makes of a file, by stage and attempt. -/
structure Pillow where
  header : Bytes → Except Exc Declared
  verify : Nat → Bytes → Except Exc Unit
  load : Nat → Bytes → Except Exc Unit
  /-- `getexif`, `exif_transpose` and the conversion to RGB. -/
  prepare : Nat → Bytes → Except Exc Picture
  renderOne : Nat → Picture → Nat → Except Exc Encoded

inductive PillowCall
  | imageOpen (data : Bytes)
  | verify (data : Bytes)
  | load (data : Bytes)
  | prepare (data : Bytes)
  | renderOne (p : Picture) (size : Nat)

namespace PillowCall

def Val : PillowCall → Type
  | imageOpen _ => Declared
  | prepare _ => Picture
  | renderOne _ _ => Encoded
  | _ => Unit

abbrev Resp (c : PillowCall) : Type := Except Exc c.Val

def isLoad : PillowCall → Bool
  | load _ => true
  | _ => false

end PillowCall

namespace Pillow

variable (P : Pillow)

def bombError (d : Declared) : Exc :=
  .python .decompressionBombError (s!"Image size ({d.pixels} pixels) exceeds limit of " ++
    s!"{2 * maxPixels} pixels, could be decompression bomb DOS attack.")

/-- `Image.open`. Between `MAX_IMAGE_PIXELS` and twice that it only warns. -/
def imageOpen (data : Bytes) : Except Exc Declared :=
  match P.header data with
  | .error e => .error e
  | .ok d => if 2 * maxPixels < d.pixels then .error (bombError d) else .ok d

def answer (seed : Nat) : (c : PillowCall) → c.Resp
  | .imageOpen data => P.imageOpen data
  | .verify data => P.verify seed data
  | .load data => P.load seed data
  | .prepare data => P.prepare seed data
  | .renderOne p size => P.renderOne seed p size

/-- The calls with their answers, latest first. -/
abbrev Calls : Type := List (Event PillowCall PillowCall.Resp)

def running : Interface PillowCall PillowCall.Resp Calls :=
  recorder (fun _ _ => True) fun c r => ∃ seed, r = P.answer seed c

end Pillow

/-! ## The two entry points -/

namespace Stepwise

/-- A program of Pillow's calls. -/
abbrev Body (α : Type) : Type := Fallible PillowCall PillowCall.Resp Exc α

def issue (c : PillowCall) : Body c.Val := Prog.call c Prog.ret

def probeImage (data : Bytes) : Body ImageProbe :=
  if data = [] then Fallible.raise (.imageProcessing "uploaded file is empty")
  else
    Fallible.tryElse
      (do
        let image : Declared ← issue (.imageOpen data)
        issue (.verify data)
        pure image.shown)
      (fun e => Fallible.raise (probeError e))
      fun (header : Header) =>
        let imageFormat := header.format.getD ""
        let extension := extensionForFormat imageFormat
        if extension = ".bin" then
          let shown := if imageFormat = "" then "unknown" else imageFormat
          Fallible.raise (.imageProcessing s!"unsupported image format: {shown}")
        else if header.width ≤ 0 ∨ header.height ≤ 0 then
          Fallible.raise (.imageProcessing "image has zero width or height")
        else pure ⟨upperAscii imageFormat, header.width, header.height, extension⟩

/-- The decoding inside `render_thumbnails`. -/
def decode (payload : Bytes) : Body Picture := do
  let opened : Declared ← issue (.imageOpen payload)
  issue (.load payload)
  let picture : Picture ← issue (.prepare payload)
  pure { picture with format := opened.format }

def renderOne (p : Picture) (size : Nat) : Body RenderedThumbnail := do
  let t : Encoded ← issue (.renderOne p size)
  pure (.ofEncoded size t)

/-- `render_thumbnails`, when the file has been read. -/
def renderThumbnails (ext : Externals) (payload : Bytes) (sizes : List Nat) : Body Rendering :=
  Fallible.tryElse
    (do
      let p ← decode payload
      let exif ← Fallible.ofExcept (extractExif ext p.exif)
      let thumbnails ← Fallible.forEach (renderOne p) (sortedSizes sizes)
      pure ⟨thumbnails, exif, p.width, p.height, p.sourceFormat⟩)
    (fun e => Fallible.raise (renderError e))
    pure

end Stepwise

/-! ## The ceiling -/

section Ceiling

variable {P : Pillow} {ext : Externals} {data : Bytes} {d : Declared}

/-- The program ends, and always by raising `ImageProcessingError`. -/
def Refuses {α : Type} (P : Pillow) (m : Stepwise.Body α) : Prop :=
  (∃ r h, Steps P.running m [] (.ret r) h) ∧
    ∀ r h, Steps P.running m [] (.ret r) h → ∃ text, r = .error (.imageProcessing text)

/-- **The ceiling is enforced** on a file whose header declares `d`: one of more than `MAX_PIXELS` is
refused by both entry points, and is never loaded; and a probe that is returned is within the bounds. -/
structure CeilingEnforced (P : Pillow) (ext : Externals) (data : Bytes) (d : Declared) : Prop where
  probe : maxPixels < d.pixels → Refuses P (Stepwise.probeImage data)
  render : maxPixels < d.pixels → ∀ sizes, Refuses P (Stepwise.renderThumbnails ext data sizes)
  unloaded : maxPixels < d.pixels → ∀ sizes p h,
    Steps P.running (Stepwise.renderThumbnails ext data sizes) [] p h → ∀ v ∈ h, v.1.isLoad = false
  bounds : ∀ probe h, Steps P.running (Stepwise.probeImage data) [] (.ret (.ok probe)) h →
    1 ≤ probe.width * probe.height ∧ probe.width * probe.height ≤ maxPixels

/-- A program that never loads and ends in an `ImageProcessingError`. -/
def RefusesUnloaded {α : Type} (P : Pillow) (m : Stepwise.Body α) : Prop :=
  Fallible.wp (recorder (fun _ c => c.isLoad = false) fun c r => ∃ seed, r = P.answer seed c) m
    (fun _ _ => False) (fun e _ => ∃ text, e = .imageProcessing text) []

theorem RefusesUnloaded.refuses {α : Type} {m : Stepwise.Body α} (h : RefusesUnloaded P m) :
    Refuses P m := by
  have hans : ∀ s c, ∃ r s', P.running.exec s c r s' := fun s c =>
    ⟨P.answer 0 c, _, ⟨0, rfl⟩, rfl⟩
  refine ⟨Steps.exists_returned hans m [], fun r h' hrun => ?_⟩
  have hend := (hrun.restrict fun _ _ ha => ha).returned h
  cases r with
  | ok a => exact hend.elim
  | error e =>
    obtain ⟨text, rfl⟩ := hend
    exact ⟨text, rfl⟩

theorem RefusesUnloaded.unloaded {α : Type} {m : Stepwise.Body α} (h : RefusesUnloaded P m)
    {p : Stepwise.Body α} {h' : Pillow.Calls} (hrun : Steps P.running m [] p h') :
    ∀ v ∈ h', v.1.isLoad = false := by
  intro v hv
  obtain ⟨later, earlier, rfl⟩ := List.append_of_mem hv
  exact (hrun.restrict fun _ _ ha => ha).permitted h rfl

theorem imageOpen_bomb (hd : P.header data = .ok d) (hbomb : 2 * maxPixels < d.pixels) :
    P.imageOpen data = .error (Pillow.bombError d) := by
  simp only [Pillow.imageOpen, hd, if_pos hbomb]

theorem imageOpen_ok (hd : P.header data = .ok d) (hfits : d.pixels ≤ 2 * maxPixels) :
    P.imageOpen data = .ok d := by
  simp only [Pillow.imageOpen, hd, if_neg (Nat.not_lt.mpr hfits)]

theorem probeImage_bomb (hd : P.header data = .ok d) (hbomb : 2 * maxPixels < d.pixels) :
    RefusesUnloaded P (Stepwise.probeImage data) := by
  unfold Stepwise.probeImage
  split
  · exact ⟨_, rfl⟩
  · refine ⟨rfl, ?_⟩
    rintro r _ ⟨⟨seed, hr⟩, rfl⟩
    obtain rfl := hr.trans (imageOpen_bomb hd hbomb)
    exact ⟨_, rfl⟩

theorem renderThumbnails_bomb (hd : P.header data = .ok d) (hbomb : 2 * maxPixels < d.pixels)
    (sizes : List Nat) : RefusesUnloaded P (Stepwise.renderThumbnails ext data sizes) := by
  refine ⟨rfl, ?_⟩
  rintro r _ ⟨⟨seed, hr⟩, rfl⟩
  obtain rfl := hr.trans (imageOpen_bomb hd hbomb)
  exact ⟨_, rfl⟩

/-- A probe is what the header declares, and not empty. -/
theorem wp_probeImage (hd : P.header data = .ok d) :
    Fallible.wp P.running (Stepwise.probeImage data)
      (fun probe _ => probe.width = d.width ∧ probe.height = d.height ∧ 1 ≤ d.width ∧ 1 ≤ d.height ∧
        d.pixels ≤ 2 * maxPixels)
      (fun _ _ => True) [] := by
  unfold Stepwise.probeImage
  split
  · trivial
  · refine ⟨trivial, ?_⟩
    rintro r _ ⟨⟨seed, hr⟩, rfl⟩
    by_cases hbomb : 2 * maxPixels < d.pixels
    · obtain rfl := hr.trans (imageOpen_bomb hd hbomb)
      trivial
    · obtain rfl := hr.trans (imageOpen_ok hd (Nat.not_lt.mp hbomb))
      refine ⟨trivial, ?_⟩
      rintro (e | u) _ ⟨-, rfl⟩
      · trivial
      · show Fallible.wp _ (ite _ _ _) _ _ _
        split
        · trivial
        · split
          · trivial
          · rename_i hsize
            obtain ⟨hwidth, hheight⟩ := not_or.mp hsize
            have hwidth : ¬ (d.width : Int) ≤ 0 := hwidth
            have hheight : ¬ (d.height : Int) ≤ 0 := hheight
            exact ⟨rfl, rfl, by omega, by omega, Nat.not_lt.mp hbomb⟩

/-- **The ceiling is enforced except between the two thresholds.** -/
theorem ceiling_enforced_iff (hd : P.header data = .ok d) :
    CeilingEnforced P ext data d ↔ d.pixels ≤ maxPixels ∨ 2 * maxPixels < d.pixels := by
  have hbounds : (d.pixels ≤ maxPixels ∨ 2 * maxPixels < d.pixels) → ∀ probe h,
      Steps P.running (Stepwise.probeImage data) [] (.ret (.ok probe)) h →
        1 ≤ probe.width * probe.height ∧ probe.width * probe.height ≤ maxPixels := by
    intro hzone probe h hrun
    obtain ⟨hwidth, hheight, hwidth₁, hheight₁, hfits⟩ := hrun.returned (wp_probeImage hd)
    have hpixels : probe.width * probe.height = (d.pixels : Int) := by
      rw [hwidth, hheight, Declared.pixels, Int.natCast_mul]
    have hpos : 1 ≤ d.pixels := Nat.mul_pos hwidth₁ hheight₁
    rw [hpixels]
    omega
  constructor
  · intro h
    by_contra hzone
    obtain ⟨habove, hbelow⟩ := not_or.mp hzone
    have hopen := imageOpen_ok hd (Nat.not_lt.mp hbelow)
    have hloads : Steps P.running (Stepwise.renderThumbnails ext data []) [] _
        [⟨.load data, P.load 0 data⟩, ⟨.imageOpen data, .ok d⟩] :=
      .step ⟨⟨0, hopen.symm⟩, rfl⟩ (.step ⟨⟨0, rfl⟩, rfl⟩ (.refl _ _))
    have hload := h.unloaded (Nat.not_le.mp habove) [] _ _ hloads _ List.mem_cons_self
    cases hload
  · intro hzone
    have hbomb : maxPixels < d.pixels → 2 * maxPixels < d.pixels := fun habove =>
      hzone.resolve_left (Nat.not_le.mpr habove)
    exact ⟨fun habove => (probeImage_bomb hd (hbomb habove)).refuses,
      fun habove sizes => (renderThumbnails_bomb hd (hbomb habove) sizes).refuses,
      fun habove sizes _ _ => (renderThumbnails_bomb hd (hbomb habove) sizes).unloaded,
      hbounds hzone⟩

/-! ## The requests of the other modules -/

/-- The requests `verifyImage`, `openImage` and `renderOne` are the calls of `P` together. -/
structure Externals.Over (ext : Externals) (P : Pillow) : Prop where
  verifyImage : ∀ seed data, ext.verifyImage seed data =
    (P.imageOpen data).bind fun d => (P.verify seed data).map fun _ => d.shown
  openImage : ∀ seed data, ext.openImage seed data =
    (P.imageOpen data).bind fun d => (P.load seed data).bind fun _ =>
      (P.prepare seed data).map fun p => { p with format := d.format }
  renderOne : ∀ seed p size, ext.renderOne seed p size = P.renderOne seed p size

theorem pillow_answers {q : Request} {r : q.Resp} (hq : q.isPillow = true)
    (h : Cloud.Answers ext q r) : ∃ c ch, Cloud.serve ext c q ch = some (r, c) := by
  obtain ⟨c, ch, c', hanswer⟩ := h
  obtain hserve | ⟨e, -, hfail, -⟩ := Cloud.perform_cases hanswer
  · cases q <;> first | exact ⟨c, ch, congrArg (fun x => some (x, c))
      (Prod.mk.inj (Option.some.inj hserve)).1⟩ | cases hq
  · cases q <;> first | cases hfail | cases hq

open Fallible in
theorem simulated_verifyImage (hover : ext.Over P) (data : Bytes) :
    Simulated (recorded ext) P.running (ask (.verifyImage data))
      (do
        let image : Declared ← Stepwise.issue (.imageOpen data)
        Stepwise.issue (.verify data)
        pure image.shown) := by
  intro s r s' h t
  obtain ⟨c, ch, hserve⟩ := pillow_answers rfl (ends_ask.mp h).1
  obtain rfl := (Prod.mk.inj (Option.some.inj hserve)).1
  rw [hover.verifyImage]
  cases hopen : P.imageOpen data with
  | error e => exact ⟨_, .step ⟨⟨0, hopen.symm⟩, rfl⟩ (.refl _ _)⟩
  | ok d =>
    cases hverify : P.verify ch.seed data <;>
      exact ⟨_, .step ⟨⟨0, hopen.symm⟩, rfl⟩ (.step ⟨⟨ch.seed, hverify.symm⟩, rfl⟩ (.refl _ _))⟩

open Fallible in
theorem simulated_openImage (hover : ext.Over P) (data : Bytes) :
    Simulated (recorded ext) P.running (ask (.openImage data)) (Stepwise.decode data) := by
  intro s r s' h t
  obtain ⟨c, ch, hserve⟩ := pillow_answers rfl (ends_ask.mp h).1
  obtain rfl := (Prod.mk.inj (Option.some.inj hserve)).1
  rw [hover.openImage]
  cases hopen : P.imageOpen data with
  | error e => exact ⟨_, .step ⟨⟨0, hopen.symm⟩, rfl⟩ (.refl _ _)⟩
  | ok d =>
    cases hload : P.load ch.seed data with
    | error e =>
      exact ⟨_, .step ⟨⟨0, hopen.symm⟩, rfl⟩ (.step ⟨⟨ch.seed, hload.symm⟩, rfl⟩ (.refl _ _))⟩
    | ok u =>
      cases hprepare : P.prepare ch.seed data <;>
        exact ⟨_, .step ⟨⟨0, hopen.symm⟩, rfl⟩ (.step ⟨⟨ch.seed, hload.symm⟩, rfl⟩
          (.step ⟨⟨ch.seed, hprepare.symm⟩, rfl⟩ (.refl _ _)))⟩

open Fallible in
theorem simulated_renderOne (hover : ext.Over P) (pic : Picture) (size : Nat) :
    Simulated (recorded ext) P.running (renderOne pic size) (Stepwise.renderOne pic size) := by
  have hissue : Simulated (recorded ext) P.running (ask (.renderOne pic size))
      (Stepwise.issue (.renderOne pic size)) := by
    intro s r s' h t
    obtain ⟨c, ch, hserve⟩ := pillow_answers rfl (ends_ask.mp h).1
    obtain rfl := (Prod.mk.inj (Option.some.inj hserve)).1
    rw [hover.renderOne]
    exact ⟨_, .step ⟨⟨ch.seed, rfl⟩, rfl⟩ (.refl _ _)⟩
  exact hissue.bind fun t => .pure _

/-- **`probe_image` does nothing that it does not do call by call.** -/
theorem simulated_probeImage (hover : ext.Over P) (data : Bytes) :
    Fallible.Simulated (recorded ext) P.running (probeImage data) (Stepwise.probeImage data) := by
  unfold probeImage Stepwise.probeImage
  split
  · exact .raise _
  · refine .tryElse (simulated_verifyImage hover data) (fun e => .raise _) fun header => ?_
    dsimp only
    split
    · exact .raise _
    · split
      · exact .raise _
      · exact .pure _

theorem simulated_rendering (hover : ext.Over P) (data : Bytes) (sizes : List Nat) :
    Fallible.Simulated (recorded ext) P.running
      (Fallible.tryElse
        (do
          let p : Picture ← ask (.openImage data)
          let exif ← Fallible.ofExcept (extractExif ext p.exif)
          let thumbnails ← Fallible.forEach (renderOne p) (sortedSizes sizes)
          pure ⟨thumbnails, exif, p.width, p.height, p.sourceFormat⟩)
        (fun e => Fallible.raise (renderError e))
        pure)
      (Stepwise.renderThumbnails ext data sizes) := by
  have hbody := (simulated_openImage hover data).bind fun p =>
    (Fallible.Simulated.ofExcept (extractExif ext p.exif)).bind fun exif =>
      (Fallible.Simulated.forEach (simulated_renderOne hover p) (sortedSizes sizes)).bind fun thumbnails =>
        .pure (⟨thumbnails, exif, p.width, p.height, p.sourceFormat⟩ : Rendering)
  exact hbody.tryElse (fun e => .raise _) fun a => .pure a

/-- A file with more than twice the pixels is refused by `probe_image`, and by `render_thumbnails` once
it has read it. -/
theorem bomb_refused (hover : ext.Over P) (hd : P.header data = .ok d)
    (hbomb : 2 * maxPixels < d.pixels) (sizes : List Nat) :
    Fallible.wp (recorded ext) (probeImage data) (fun _ _ => False)
      (fun e _ => ∃ text, e = .imageProcessing text) [] ∧
    Fallible.wp (recorded ext) (renderThumbnails ext ⟨data⟩ sizes) (fun _ _ => False)
      (fun e h => (∃ text, e = .imageProcessing text) ∨ ⟨.readBytes data, .error e⟩ ∈ h) [] := by
  have hrefused : ∀ {α : Type} {m : Py α} {m' : Stepwise.Body α} {r s s'},
      Fallible.Simulated (recorded ext) P.running m m' → Refuses P m' →
      Fallible.Ends (recorded ext) m s r s' → ∃ text, r = .error (.imageProcessing text) := by
    intro α m m' r s s' hsim hrefuses hend
    obtain ⟨t', hend'⟩ := hsim s r s' hend []
    exact hrefuses.2 r t' hend'
  refine ⟨?_, (Fallible.wp_bind _ _ _).mpr ((wp_ask _ _ _ _).mpr ⟨trivial, ?_⟩)⟩
  · have hprobe := (probeImage_bomb hd hbomb).refuses
    refine Fallible.wp_of_ends (fun _ _ => trivial) (fun a s' hend => ?_) fun e s' hend => ?_
    · obtain ⟨text, he⟩ := hrefused (simulated_probeImage hover data) hprobe hend
      cases he
    · obtain ⟨text, he⟩ := hrefused (simulated_probeImage hover data) hprobe hend
      exact ⟨text, Except.error.inj he⟩
  · rintro (e | payload) _ ⟨ha, rfl⟩
    · exact .inr List.mem_cons_self
    · obtain ⟨c, ch, c', hanswer⟩ := ha
      obtain rfl := Except.ok.inj (Prod.mk.inj (Option.some.inj (Cloud.perform_ok hanswer))).1
      have hbombed : RefusesUnloaded P (Stepwise.renderThumbnails ext data sizes) :=
        renderThumbnails_bomb hd hbomb sizes
      have hrender := hbombed.refuses
      have hsim := simulated_rendering hover data sizes
      refine Fallible.wp_of_ends (fun _ _ => trivial) (fun a s' hend => ?_) fun e s' hend => ?_
      · obtain ⟨text, he⟩ := hrefused hsim hrender hend
        cases he
      · obtain ⟨text, he⟩ := hrefused hsim hrender hend
        exact .inl ⟨text, Except.error.inj he⟩

end Ceiling

namespace Surroundings

/-- A PNG header of 10000 by 10000 pixels. -/
def squarePng : Bytes :=
  [0x89, 0x50, 0x4E, 0x47, 0x0D, 0x0A, 0x1A, 0x0A, 0x00, 0x00, 0x00, 0x0D, 0x49, 0x48, 0x44, 0x52,
    0x00, 0x00, 0x27, 0x10, 0x00, 0x00, 0x27, 0x10, 0x08, 0x02, 0x00, 0x00, 0x00]

/-- Four bytes as a number, the most significant first. -/
def bigEndian (a b c d : UInt8) : Nat := ((a.toNat * 256 + b.toNat) * 256 + c.toNat) * 256 + d.toNat

/-- The header of a PNG file. -/
def pngHeader : Bytes → Except Exc Declared
  | 0x89 :: 0x50 :: 0x4E :: 0x47 :: 0x0D :: 0x0A :: 0x1A :: 0x0A :: _ :: _ :: _ :: _ ::
      0x49 :: 0x48 :: 0x44 :: 0x52 :: w₀ :: w₁ :: w₂ :: w₃ :: h₀ :: h₁ :: h₂ :: h₃ :: _ =>
    .ok ⟨some "PNG", bigEndian w₀ w₁ w₂ w₃, bigEndian h₀ h₁ h₂ h₃⟩
  | _ => .error unidentified

/-- A Pillow that reads PNG files, and finds their data intact. -/
def pngPillow : Pillow where
  header := pngHeader
  verify := fun _ _ => .ok ()
  load := fun _ _ => .ok ()
  prepare := fun _ _ => .ok dot
  renderOne := small.renderOne

def square : Declared := ⟨some "PNG", 10000, 10000⟩

theorem ceiling_enforced_iff_square : pngHeader squarePng = .ok square ∧
    (CeilingEnforced pngPillow small squarePng square ↔
      square.pixels ≤ maxPixels ∨ 2 * maxPixels < square.pixels) :=
  ⟨by decide, ceiling_enforced_iff (by decide)⟩

set_option maxRecDepth 4000 in
/-- A hundred megapixels pass the gate, and are loaded. -/
theorem hundred_megapixels_pass : pngHeader squarePng = .ok square ∧ maxPixels < square.pixels ∧
    (∃ h, Steps pngPillow.running (Stepwise.probeImage squarePng) []
      (.ret (.ok ⟨"PNG", 10000, 10000, ".png"⟩)) h) ∧
    ∃ p h, Steps pngPillow.running (Stepwise.renderThumbnails small squarePng [150]) [] p h ∧
      ∃ v ∈ h, v.1.isLoad = true := by
  have hprobe : Steps pngPillow.running (Stepwise.probeImage squarePng) []
      (.ret (.ok ⟨"PNG", 10000, 10000, ".png"⟩)) _ :=
    .step ⟨⟨0, rfl⟩, rfl⟩ (.step ⟨⟨0, rfl⟩, rfl⟩ (.refl _ _))
  have hload : Steps pngPillow.running (Stepwise.renderThumbnails small squarePng [150]) [] _
      [⟨.load squarePng, .ok ()⟩, ⟨.imageOpen squarePng, .ok square⟩] :=
    .step ⟨⟨0, rfl⟩, rfl⟩ (.step ⟨⟨0, rfl⟩, rfl⟩ (.refl _ _))
  exact ⟨by decide, by decide, ⟨_, hprobe⟩, _, _, hload, _, List.mem_cons_self, rfl⟩

end Surroundings

end PixelForge
