import Mathlib.Data.List.Forall2
import PixelForge.Api.Routes
import PixelForge.Shared.Cells
import PixelForge.Shared.LoggingSetup
import PixelForge.Shared.Surroundings
import PixelForge.Worker.Consumer

/-! # Location data influences nothing that is stored

Two directories are `SameButLocation` when they differ only in the GPSInfo pointer and in entries
named `gps…`. `extractExif` cannot tell them apart, and a worker on stores whose pictures cannot be
told apart goes the same way as on the others: `Paired` says which of its requests correspond, and
`alike_handleMessage` goes through the code once.
-/
set_option autoImplicit false

namespace PixelForge
open Effects

/-! ## `extract_exif` -/

section Extraction

variable (ext : Externals)

/-- The GPSInfo pointer, and the entries whose tag is named `gps…` in any case. -/
def isLocationEntry (entry : Nat × ExifValue) : Bool :=
  entry.1 == 0x8825 || "gps".toList.isPrefixOf (ext.lower (exifTagName ext entry.1)).toList

/-- A directory without its location entries. -/
def withoutLocation (entries : List (Nat × ExifValue)) : List (Nat × ExifValue) :=
  entries.filter fun entry => !isLocationEntry ext entry

/-- The directories agree, in order, on everything but location entries. -/
structure RawExif.SameButLocation (a b : RawExif) : Prop where
  main : withoutLocation ext a.main = withoutLocation ext b.main
  exifIfd : withoutLocation ext (a.exifIfd.getD []) = withoutLocation ext (b.exifIfd.getD [])

/-- Pillow finds the sub-directory through its pointer in the main directory. -/
def RawExif.Rooted (raw : RawExif) : Prop := raw.main = [] → raw.exifIfd.getD [] = []

variable {ext}

theorem absorbExif_withoutLocation (entries : List (Nat × ExifValue)) (result : PyDict) :
    absorbExif ext result (withoutLocation ext entries) = absorbExif ext result entries := by
  induction entries generalizing result with
  | nil => rfl
  | cons entry entries ih =>
    obtain ⟨tagId, value⟩ := entry
    by_cases hloc : isLocationEntry ext (tagId, value) = true
    · have hskip : tagId = 0x8825 ∨ tagId = 0x8769 ∨
          exifNameDropped ext (exifTagName ext tagId) = true := by
        rcases Bool.or_eq_true_iff.mp hloc with h | h
        · exact .inl (by simpa using h)
        · exact .inr (.inr (Bool.or_eq_true_iff.mpr (.inr h)))
      rw [absorbExif, if_pos hskip, ← ih, withoutLocation, List.filter_cons_of_neg (by simpa using hloc)]
      rfl
    · have hkeep : withoutLocation ext ((tagId, value) :: entries) =
          (tagId, value) :: withoutLocation ext entries :=
        List.filter_cons_of_pos (by simpa using hloc)
      rw [hkeep, absorbExif, absorbExif]
      split
      · exact ih result
      · exact congrArg (normaliseExifValue ext value >>= ·) (funext fun normalised => ih _)

/-- What is extracted is a function of the directories without their location entries. -/
theorem extractExif_withoutLocation {raw : RawExif} (hroot : raw.Rooted) :
    extractExif ext (some raw) = (do
      let result ← absorbExif ext [] (withoutLocation ext raw.main)
      absorbExif ext result (withoutLocation ext (raw.exifIfd.getD []))) := by
  simp only [absorbExif_withoutLocation, extractExif]
  split
  · rename_i hmain
    rw [hmain, hroot hmain]
    rfl
  · rfl

theorem RawExif.SameButLocation.extracted {a b : RawExif} (h : a.SameButLocation ext b)
    (ha : a.Rooted) (hb : b.Rooted) : extractExif ext (some a) = extractExif ext (some b) := by
  rw [extractExif_withoutLocation ha, extractExif_withoutLocation hb, h.main, h.exifIfd]

theorem mem_setKey {α : Type} {d : List (String × α)} {name : String} {value : α}
    {kv : String × α} (h : kv ∈ setKey d name value) : kv ∈ d ∨ kv = (name, value) := by
  unfold setKey at h
  split at h
  · obtain ⟨old, hold, rfl⟩ := List.mem_map.mp h
    split
    · exact .inr rfl
    · exact .inl hold
  · simpa using h

theorem absorbExif_kept {entries : List (Nat × ExifValue)} {result d : PyDict}
    (hd : absorbExif ext result entries = .ok d)
    (h : ∀ kv ∈ result, exifNameDropped ext kv.1 = false) :
    ∀ kv ∈ d, exifNameDropped ext kv.1 = false := by
  induction entries generalizing result with
  | nil =>
    obtain rfl := Except.ok.inj hd
    exact h
  | cons entry entries ih =>
    obtain ⟨tagId, value⟩ := entry
    rw [absorbExif] at hd
    split at hd
    · exact ih hd h
    · rename_i hkeep
      obtain ⟨normalised, -, hrest⟩ := ok_of_bind_ok hd
      refine ih hrest fun kv hkv => ?_
      cases normalised with
      | none => exact h kv hkv
      | some v =>
        obtain hkv | rfl := mem_setKey hkv
        · exact h kv hkv
        · simpa using fun hdropped => hkeep (.inr (.inr hdropped))

/-- No name that is extracted is one that is dropped. -/
theorem extractExif_kept {exif : Option RawExif} {d : PyDict} (hd : extractExif ext exif = .ok d) :
    ∀ kv ∈ d, exifNameDropped ext kv.1 = false := by
  have hnone : ∀ kv ∈ ([] : PyDict), exifNameDropped ext kv.1 = false := fun _ h =>
    absurd h List.not_mem_nil
  unfold extractExif at hd
  split at hd
  · obtain rfl := Except.ok.inj hd
    exact hnone
  · split at hd
    · obtain rfl := Except.ok.inj hd
      exact hnone
    · obtain ⟨result, hmain, hrest⟩ := ok_of_bind_ok hd
      exact absorbExif_kept hrest (absorbExif_kept hmain hnone)

end Extraction

/-! ## Pictures, files and stores -/

section Stores

variable (ext : Externals)

/-- The pictures agree on everything but the location entries of their EXIF. -/
structure Picture.SameButLocation (p q : Picture) : Prop where
  format : p.format = q.format
  width : p.width = q.width
  height : p.height = q.height
  exif : Option.Rel (RawExif.SameButLocation ext) p.exif q.exif
  renders : ∀ seed size, ext.renderOne seed p size = ext.renderOne seed q size

/-- The files open alike, up to location data. -/
def SameFile (data data' : Bytes) : Prop :=
  ∀ seed, Fallible.Results Exc (Picture.SameButLocation ext) (ext.openImage seed data)
    (ext.openImage seed data')

/-- Pillow finds the sub-directory of every picture through its main directory. -/
def Externals.Rooted : Prop :=
  ∀ {seed data p raw}, ext.openImage seed data = .ok p → p.exif = some raw → raw.Rooted

/-- The stores differ only in the location data of the pictures in the bucket. -/
structure Cloud.SameButLocation (s t : Cloud) : Prop where
  table : s.table = t.table
  queue : s.queue = t.queue
  drawn : s.drawn = t.drawn
  objects : ∀ b k, Option.Rel (fun o o' => SameFile ext o.body o'.body) (s.objects b k)
    (t.objects b k)

variable {ext}

theorem RawExif.SameButLocation.refl (raw : RawExif) : raw.SameButLocation ext raw := ⟨rfl, rfl⟩

theorem Picture.SameButLocation.refl (p : Picture) : p.SameButLocation ext p := by
  refine ⟨rfl, rfl, rfl, ?_, fun _ _ => rfl⟩
  cases p.exif with
  | none => exact .none
  | some raw => exact .some (.refl raw)

theorem SameFile.refl (data : Bytes) : SameFile ext data data := by
  intro seed
  cases ext.openImage seed data with
  | ok p => exact Picture.SameButLocation.refl p
  | error e => rfl

theorem Picture.SameButLocation.extracted {p q : Picture} (h : p.SameButLocation ext q)
    (hp : ∀ raw, p.exif = some raw → raw.Rooted) (hq : ∀ raw, q.exif = some raw → raw.Rooted) :
    extractExif ext p.exif = extractExif ext q.exif := by
  have hexif := h.exif
  revert hp hq
  generalize p.exif = a, q.exif = b at hexif
  intro hp hq
  cases hexif with
  | none => rfl
  | some hraw => exact hraw.extracted (hp _ rfl) (hq _ rfl)

theorem Picture.sourceFormat_congr {p q : Picture} (h : p.format = q.format) :
    p.sourceFormat = q.sourceFormat := by rw [sourceFormat, sourceFormat, h]

end Stores

/-! ## Requests that correspond -/

section Pairing

variable (ext : Externals)

/-- Whether the answer is read out of the bucket. -/
def Request.isFetch : Request → Bool
  | .getObject _ _ => true
  | _ => false

/-- The requests of two workers on stores that differ only in location data. -/
inductive Paired : Pairing Request Request.Resp
  | same {q : Request} (h : q.isFetch = false) : Paired q q (Fallible.Results Exc Eq)
  | fetch (b k : String) :
      Paired (.getObject b k) (.getObject b k) (Fallible.Results Exc (SameFile ext))
  | body {data data' : Bytes} (h : SameFile ext data data') :
      Paired (.readBody data) (.readBody data') (Fallible.Results Exc (SameFile ext))
  | write (data data' : Bytes) :
      Paired (.writeBytes data) (.writeBytes data') (Fallible.Results Exc fun _ _ => True)
  | read {data data' : Bytes} (h : SameFile ext data data') :
      Paired (.readBytes data) (.readBytes data') (Fallible.Results Exc (SameFile ext))
  | opened {data data' : Bytes} (h : SameFile ext data data') :
      Paired (.openImage data) (.openImage data') (Fallible.Results Exc fun p q =>
        p.SameButLocation ext q ∧ extractExif ext p.exif = extractExif ext q.exif)
  | rendered {p q : Picture} (size : Nat) (h : p.SameButLocation ext q) :
      Paired (.renderOne p size) (.renderOne q size)
        (Fallible.Results Exc fun t t' : Encoded => t = t')

variable {ext} {s t s' : Cloud} {ch : Choice}

theorem Cloud.SameButLocation.look (h : s.SameButLocation ext t) {i : Cell}
    (hi : ∀ b k, i ≠ .object b k) : Cell.look s i = Cell.look t i := by
  cases i with
  | item j => exact congrFun h.table j
  | object b k => exact absurd rfl (hi b k)
  | message mid => exact congrFun h.queue mid
  | drawn => exact h.drawn

theorem Cell.reads_of_not_fetch {q : Request} (h : q.isFetch = false) {i : Cell}
    (hi : i ∈ Cell.reads q) (b k : String) : i ≠ .object b k := by
  rintro rfl
  cases q <;> simp [Cell.reads, Request.isFetch] at h hi

theorem perform_paired {q q' : Request} {A : q.Resp → q'.Resp → Prop} {r : q.Resp}
    (hfail : ∀ e, q.canFail e = q'.canFail e) (herr : ∀ e, A (.error e) (.error e))
    (hserve : ∀ r s', s.serve ext q ch = some (r, s') →
      ∃ r' t', t.serve ext q' ch = some (r', t') ∧ A r r' ∧ s'.SameButLocation ext t')
    (hst : s.SameButLocation ext t) (h : s.perform ext q ch = some (r, s')) :
    ∃ r' t', t.perform ext q' ch = some (r', t') ∧ A r r' ∧ s'.SameButLocation ext t' := by
  unfold Cloud.perform at h ⊢
  split at h
  · exact hserve r s' h
  · split at h
    · rename_i e hf hc
      obtain ⟨rfl, rfl⟩ := Prod.mk.inj (Option.some.inj h)
      exact ⟨.error e, t, if_pos (hfail e ▸ hc), herr e, hst⟩
    · cases h
  · split at h
    · rename_i e hf hc
      obtain ⟨⟨r₁, u⟩, hs, hu⟩ := Option.map_eq_some_iff.mp h
      obtain ⟨rfl, rfl⟩ := Prod.mk.inj hu
      obtain ⟨r', t', ht, -, hsame⟩ := hserve r₁ u hs
      refine ⟨.error e, t', ?_, herr e, hsame⟩
      rw [if_pos (hfail e ▸ hc), ht]
      rfl
    · cases h

/-- A request that fetches nothing and stores no object is answered the same. -/
theorem perform_same {q : Request} {r : q.Resp} (hfetch : q.isFetch = false)
    (hput : ∀ i ∈ Cell.writes q, ∀ b k, i ≠ .object b k) (hst : s.SameButLocation ext t)
    (h : s.perform ext q ch = some (r, s')) :
    ∃ t', t.perform ext q ch = some (r, t') ∧ s'.SameButLocation ext t' := by
  obtain ⟨t', ht, hcells⟩ :=
    Cell.depends (fun i hi => hst.look (Cell.reads_of_not_fetch hfetch hi)) h
  have hlook : ∀ i, (∀ b k, i ≠ .object b k) → Cell.look s' i = Cell.look t' i := by
    intro i hi
    by_cases hw : i ∈ Cell.writes q
    · exact hcells i hw (hst.look hi)
    · rw [Cell.frame h i hw, Cell.frame ht i hw]
      exact hst.look hi
  refine ⟨t', ht, funext fun j => hlook (.item j) nofun, funext fun mid => hlook (.message mid) nofun,
    hlook .drawn nofun, fun b k => ?_⟩
  have hobj : Cell.object b k ∉ Cell.writes q := fun hw => hput _ hw b k rfl
  have hs : s'.objects b k = s.objects b k := Cell.frame h _ hobj
  have ht' : t'.objects b k = t.objects b k := Cell.frame ht _ hobj
  rw [hs, ht']
  exact hst.objects b k

/-- **One step of two workers.** -/
theorem Paired.step (hroot : ext.Rooted) {q q' : Request} {A : q.Resp → q'.Resp → Prop}
    {r : q.Resp} (hq : Paired ext q q' A) (hst : s.SameButLocation ext t)
    (h : s.perform ext q ch = some (r, s')) :
    ∃ r' t', t.perform ext q' ch = some (r', t') ∧ A r r' ∧ s'.SameButLocation ext t' := by
  cases hq with
  | same hfetch =>
    have hrefl : ∀ r : q.Resp, Fallible.Results Exc Eq r r := fun r => by cases r <;> rfl
    by_cases hput : ∀ i ∈ Cell.writes q, ∀ b k, i ≠ .object b k
    · obtain ⟨t', ht, hsame⟩ := perform_same hfetch hput hst h
      exact ⟨r, t', ht, hrefl r, hsame⟩
    · cases q with
      | putObject b k body ct =>
        refine perform_paired (fun _ => rfl) (fun _ => rfl) (fun r s' hs => ?_) hst h
        obtain ⟨rfl, rfl⟩ := Prod.mk.inj (Option.some.inj hs)
        refine ⟨.ok (), _, rfl, rfl, hst.table, hst.queue, hst.drawn, fun b' k' => ?_⟩
        rw [Cloud.setObject_objects, Cloud.setObject_objects]
        split
        · exact .some (.refl body)
        · exact hst.objects b' k'
      | _ => exact absurd (by rintro i hi b k rfl; simp [Cell.writes] at hi) hput
  | fetch b k =>
    refine perform_paired (fun _ => rfl) (fun _ => rfl) (fun r s' hs => ?_) hst h
    have hobj := hst.objects b k
    simp only [Cloud.serve] at hs ⊢
    revert hs
    generalize s.objects b k = o, t.objects b k = o' at hobj
    intro hs
    cases hobj with
    | none =>
      obtain ⟨rfl, rfl⟩ := Prod.mk.inj (Option.some.inj hs)
      exact ⟨_, t, rfl, rfl, hst⟩
    | some hbody =>
      obtain ⟨rfl, rfl⟩ := Prod.mk.inj (Option.some.inj hs)
      exact ⟨_, t, rfl, hbody, hst⟩
  | body hdata =>
    refine perform_paired (fun _ => rfl) (fun _ => rfl) (fun r s' hs => ?_) hst h
    obtain ⟨rfl, rfl⟩ := Prod.mk.inj (Option.some.inj hs)
    exact ⟨_, t, rfl, hdata, hst⟩
  | write =>
    refine perform_paired (fun e => by cases e <;> rfl) (fun _ => rfl) (fun r s' hs => ?_) hst h
    obtain ⟨rfl, rfl⟩ := Prod.mk.inj (Option.some.inj hs)
    exact ⟨_, t, rfl, trivial, hst⟩
  | read hdata =>
    refine perform_paired (fun e => by cases e <;> rfl) (fun _ => rfl) (fun r s' hs => ?_) hst h
    obtain ⟨rfl, rfl⟩ := Prod.mk.inj (Option.some.inj hs)
    exact ⟨_, t, rfl, hdata, hst⟩
  | @opened data data' hdata =>
    refine perform_paired (fun _ => rfl) (fun _ => rfl) (fun r s' hs => ?_) hst h
    obtain ⟨rfl, rfl⟩ := Prod.mk.inj (Option.some.inj hs)
    refine ⟨_, t, rfl, ?_, hst⟩
    have hopen := hdata ch.seed
    have hp : ∀ p, ext.openImage ch.seed data = .ok p → ∀ raw, p.exif = some raw → raw.Rooted :=
      fun p hp raw hraw => hroot hp hraw
    have hq : ∀ p, ext.openImage ch.seed data' = .ok p → ∀ raw, p.exif = some raw → raw.Rooted :=
      fun p hp raw hraw => hroot hp hraw
    revert hopen hp hq
    cases ext.openImage ch.seed data <;> cases ext.openImage ch.seed data' <;> intro hopen hp hq
    · exact hopen
    · exact hopen.elim
    · exact hopen.elim
    · exact ⟨hopen, Picture.SameButLocation.extracted hopen (hp _ rfl) (hq _ rfl)⟩
  | rendered size hpic =>
    refine perform_paired (fun _ => rfl) (fun _ => rfl) (fun r s' hs => ?_) hst h
    obtain ⟨rfl, rfl⟩ := Prod.mk.inj (Option.some.inj hs)
    refine ⟨_, t, rfl, ?_, hst⟩
    rw [← hpic.renders]
    cases ext.renderOne ch.seed _ size <;> rfl

end Pairing

/-! ## The worker on two stores -/

section Worker

variable {ext : Externals} {w : Worker}

theorem alike_ask {q q' : Request} {V : q.Val → q'.Val → Prop}
    (h : Paired ext q q' (Fallible.Results Exc V)) :
    Fallible.Alike (Paired ext) V (ask q) (ask q') :=
  .call h fun _ _ hr => .ret hr

theorem alike_same (q : Request) (h : q.isFetch = false) :
    Fallible.Alike (Paired ext) Eq (ask q) (ask q) := alike_ask (.same h)

theorem alike_callWithRetry {α β : Type} {V : α → β → Prop} {m : Py α} {m' : Py β}
    (h : Fallible.Alike (Paired ext) V m m') (policy : RetryPolicy) (operation : String) :
    Fallible.Alike (Paired ext) V (callWithRetry policy operation noSwallow m)
      (callWithRetry policy operation noSwallow m') := by
  have hnone : ∀ {γ : Type} (e : Exc), swallowed (noSwallow : String → Option γ) e = none := by
    intro γ e
    cases e <;> rfl
  suffices hloop : ∀ left attempt last, Fallible.Alike (Paired ext) V
      (retryLoop policy operation noSwallow m left attempt last)
      (retryLoop policy operation noSwallow m' left attempt last) from hloop _ _ _
  intro left
  induction left with
  | zero => exact fun _ _ => .raise _
  | succ left ih =>
    intro attempt last
    rw [retryLoop, retryLoop]
    refine h.tryElse (fun e => ?_) fun _ _ hab => .pure hab
    simp only [hnone]
    split
    · split
      · refine (alike_same (.uniform _) rfl).bind ?_
        rintro delay _ rfl
        exact (alike_same (.sleep delay) rfl).bind fun _ _ _ => ih _ _
      · exact ih _ _
    · exact .raise e

theorem alike_stage {α β : Type} {V : α → β → Prop} {m : Py α} {m' : Py β} (name : String)
    (h : Fallible.Alike (Paired ext) V m m') :
    Fallible.Alike (Paired ext) V (stage name m) (stage name m') :=
  h.tryFinally (alike_same (.metric (.stageDuration name)) rfl)

theorem alike_download (store : S3Store) (key : String) :
    Fallible.Alike (Paired ext) (fun x y => SameFile ext x.1.contents y.1.contents)
      (store.downloadTo key) (store.downloadTo key) := by
  have hget : Fallible.Alike (Paired ext) (SameFile ext) (store.getBytes key)
      (store.getBytes key) :=
    (alike_callWithRetry (alike_ask (.fetch store.bucket key)) _ _).bind fun _ _ hbody =>
      alike_ask (.body hbody)
  exact hget.bind fun data data' hdata =>
    (alike_ask (.write data data')).bind fun _ _ _ => .pure hdata

theorem alike_renderThumbnails {file file' : LocalFile} (h : SameFile ext file.contents file'.contents)
    (sizes : List Nat) :
    Fallible.Alike (Paired ext) Eq (renderThumbnails ext file sizes)
      (renderThumbnails ext file' sizes) := by
  refine (alike_ask (.read h)).bind fun payload payload' hpayload => ?_
  refine Fallible.Alike.tryElse (V := Eq) ?_ (fun e => .raise _) fun _ _ => .pure
  refine (alike_ask (.opened hpayload)).bind fun p q hpq => ?_
  obtain ⟨hpic, hexif⟩ := hpq
  have hone : ∀ size size' : Nat, size = size' →
      Fallible.Alike (Paired ext) Eq (renderOne p size) (renderOne q size') := by
    rintro size _ rfl
    have hask : Fallible.Alike (Paired ext) (fun t t' : Encoded => t = t')
        (ask (.renderOne p size)) (ask (.renderOne q size)) := alike_ask (.rendered size hpic)
    refine hask.bind ?_
    rintro t _ rfl
    exact .pure rfl
  have hsizes : List.Forall₂ Eq (sortedSizes sizes) (sortedSizes sizes) :=
    List.forall₂_same.mpr fun _ _ => rfl
  rw [hexif]
  refine (Fallible.Alike.ofExcept _).bind ?_
  rintro exif _ rfl
  refine (Fallible.Alike.forEach hone hsizes).bind fun thumbs thumbs' hthumbs => .pure ?_
  rw [List.forall₂_eq_eq_eq] at hthumbs
  rw [hthumbs, hpic.width, hpic.height, Picture.sourceFormat_congr hpic.format]

/-- **The two renderings are one.** -/
theorem alike_render (w : Worker) (job : JobMessage) :
    Fallible.Alike (Paired ext) Eq (w.render ext job) (w.render ext job) := by
  have hupload : ∀ t t' : RenderedThumbnail, t = t' →
      Fallible.Alike (Paired ext) Eq (w.upload job.jobId t) (w.upload job.jobId t') := by
    rintro t _ rfl
    exact (alike_callWithRetry (alike_same (.putObject ..) rfl) _ _).bind fun _ _ _ => .pure rfl
  refine (alike_same .mkdtemp rfl).bind fun _ _ _ => Fallible.Alike.tryFinally ?_
    (alike_same .rmtree rfl)
  refine (alike_stage _ (alike_download ..)).bind fun file file' hfile => ?_
  refine (alike_stage _ (alike_renderThumbnails hfile _)).bind ?_
  rintro r _ rfl
  have hthumbs : List.Forall₂ Eq r.thumbnails r.thumbnails := List.forall₂_same.mpr fun _ _ => rfl
  refine (alike_stage _ (Fallible.Alike.forEach hupload hthumbs)).bind fun outputs outputs' ho => ?_
  rw [List.forall₂_eq_eq_eq] at ho
  exact .pure (by rw [ho])

theorem alike_updateItem (table : JobTable) (j : String) (u : Update) :
    Fallible.Alike (Paired ext) Eq (table.updateItem j u) (table.updateItem j u) :=
  alike_callWithRetry (alike_same (.updateItem j u) rfl) _ _

theorem alike_delete (queue : JobQueue) (receipt : String) :
    Fallible.Alike (Paired ext) Eq (queue.delete receipt) (queue.delete receipt) :=
  (alike_callWithRetry (alike_same (.deleteMessage receipt) rfl) _ _).tryExcept fun e =>
    (alike_same (.metric _) rfl).bind fun _ _ _ => .raise e

theorem alike_deleteQuietly (receipt : String) :
    Fallible.Alike (Paired ext) Eq (w.deleteQuietly receipt) (w.deleteQuietly receipt) := by
  unfold Worker.deleteQuietly
  split
  · exact .pure rfl
  · exact (alike_delete _ receipt).tryExcept fun _ => .pure rfl

theorem alike_failJob (j receipt reason : String) :
    Fallible.Alike (Paired ext) Eq (w.failJob j receipt reason) (w.failJob j receipt reason) := by
  have hfailed : Fallible.Alike (Paired ext) Eq (w.clients.table.markFailed j reason)
      (w.clients.table.markFailed j reason) := by
    refine (alike_same .utcNow rfl).bind ?_
    rintro now _ rfl
    exact alike_updateItem ..
  refine hfailed.tryElse (fun e => ?_) fun _ _ _ => ?_
  · split
    · exact .pure rfl
    · exact .raise e
  · exact (alike_same (.metric _) rfl).bind fun _ _ _ => (alike_deleteQuietly receipt).bind
      fun _ _ _ => .pure rfl

theorem alike_complete (job : JobMessage) (receipt : String) :
    Fallible.Alike (Paired ext) Eq (w.complete ext job receipt) (w.complete ext job receipt) := by
  have hrender : Fallible.Alike (Paired ext) Eq
      (Worker.withHeartbeat receipt job.jobId (w.render ext job))
      (Worker.withHeartbeat receipt job.jobId (w.render ext job)) :=
    (alike_same (.startHeartbeat ..) rfl).bind fun _ _ _ =>
      (alike_render w job).tryFinally (alike_same .stopHeartbeat rfl)
  refine hrender.bind ?_
  rintro processed _ rfl
  refine (alike_same .elapsedMs rfl).bind ?_
  rintro ms _ rfl
  refine Fallible.Alike.bind (V := Eq) ?_ fun _ _ _ => (alike_delete _ receipt).bind fun _ _ _ =>
    (alike_same (.metric _) rfl).bind fun _ _ _ => (alike_same (.metric _) rfl).bind fun _ _ _ =>
      .pure rfl
  refine (alike_same .utcNow rfl).bind ?_
  rintro now _ rfl
  exact alike_updateItem ..

theorem alike_attempt (job : JobMessage) (receipt : String) :
    Fallible.Alike (Paired ext) Eq (w.attempt ext job receipt) (w.attempt ext job receipt) := by
  refine (alike_same (.metric _) rfl).bind fun _ _ _ => Fallible.Alike.tryFinally
    ((alike_complete job receipt).tryExcept fun e => ?_) (alike_same (.metric _) rfl)
  unfold Worker.giveUp
  split
  · exact (alike_same (.metric _) rfl).bind fun _ _ _ => alike_failJob ..
  · exact .pure rfl

theorem alike_getJob (table : JobTable) (j : String) :
    Fallible.Alike (Paired ext) Eq (table.getJob ext.intOfStr j) (table.getJob ext.intOfStr j) := by
  refine (alike_callWithRetry (alike_same (.getItem j) rfl) _ _).bind ?_
  rintro item _ rfl
  split
  · exact .pure rfl
  · exact .raise _

theorem alike_process (job : JobMessage) (receipt : String) :
    Fallible.Alike (Paired ext) Eq (w.process ext job receipt) (w.process ext job receipt) := by
  have hdrop : ∀ outcome : Outcome, Fallible.Alike (Paired ext) Eq
      (do w.deleteQuietly receipt; pure outcome : Py Outcome)
      (do w.deleteQuietly receipt; pure outcome) := fun _ =>
    (alike_deleteQuietly receipt).bind fun _ _ _ => .pure rfl
  have hcatch : ∀ e : Exc, Fallible.Alike (Paired ext) Eq
      (if e.isDependency then pure .retry else Fallible.raise e : Py Outcome)
      (if e.isDependency then pure .retry else Fallible.raise e) := by
    intro e
    split
    · exact .pure rfl
    · exact .raise e
  have hmark : Fallible.Alike (Paired ext) Eq (w.clients.table.markProcessing job.jobId)
      (w.clients.table.markProcessing job.jobId) := by
    refine Fallible.Alike.tryElse (V := Eq) ?_ (fun e => ?_) fun _ _ _ => .pure rfl
    · refine (alike_same .utcNow rfl).bind ?_
      rintro now _ rfl
      exact alike_updateItem ..
    · split
      · exact .pure rfl
      · exact .raise e
  refine (alike_getJob _ _).tryElse hcatch ?_
  rintro record _ rfl
  cases record with
  | none => exact (alike_same (.metric _) rfl).bind fun _ _ _ => hdrop .failed
  | some record =>
    dsimp only
    split
    · exact hdrop .skippedDuplicate
    · split
      · exact alike_failJob ..
      · refine hmark.tryElse hcatch ?_
        rintro won _ rfl
        cases won with
        | false => exact hdrop .skippedDuplicate
        | true => exact alike_attempt job receipt

/-- **A worker on two stores does the same.** -/
theorem alike_handleMessage (w : Worker) (msg : RawMessage) :
    Fallible.Alike (Paired ext) Eq (w.handleMessage ext msg) (w.handleMessage ext msg) := by
  unfold Worker.handleMessage
  split
  · exact (alike_same (.metric _) rfl).bind fun _ _ _ => (alike_deleteQuietly _).bind
      fun _ _ _ => .pure rfl
  · split
    · exact .pure rfl
    · exact (alike_same (.bindJobContext _) rfl).bind fun _ _ _ =>
        (alike_process _ _).tryFinally (alike_same .clearJobContext rfl)

theorem alike_getResponse (svc : JobService) (j : String) :
    Fallible.Alike (Paired ext) Eq (Routes.getJob svc ext j) (Routes.getJob svc ext j) := by
  have hget : Fallible.Alike (Paired ext) Eq (svc.getJob ext j) (svc.getJob ext j) := by
    unfold JobService.getJob
    split
    · exact alike_getJob ..
    · exact .pure rfl
  refine Fallible.Alike.tryExcept (hget.bind ?_) fun e => ?_
  · rintro record _ rfl
    cases record with
    | none => exact .pure rfl
    | some r => exact .pure rfl
  · unfold Routes.handleException
    split
    · exact (alike_same (.metric _) rfl).bind fun _ _ _ => .pure rfl
    · exact .pure rfl
    · exact .pure rfl
    · exact .raise _

end Worker

/-! ## Location data cannot be seen -/

/-- What the `job_completed` entry shows of the rendering. -/
structure CompletedEntry where
  thumbnails : List String
  sourceWidth : Int
  sourceHeight : Int
  exifTags : Nat
deriving DecidableEq, Repr

/-- `thumbnails=sorted(processed.outputs)`, `exif_tags=len(redact_exif(processed.exif))`. -/
def completedEntry (ext : Externals) (processed : ProcessedOutputs) : CompletedEntry where
  thumbnails := (processed.outputs.map Prod.fst).insertionSort (· ≤ ·)
  sourceWidth := processed.width
  sourceHeight := processed.height
  exifTags := (redactExif ext.lower processed.exif).length

/-- From `s` and from `t` the program comes to the same result under the same choices, with the
same table. -/
def Indistinct {α : Type} (ext : Externals) (m : Py α) (s t : Cloud) : Prop :=
  ∀ chs p s' h, Prog.play (Cloud.perform ext) m s chs = some (p, s', h) →
    ∃ p' t' h', Prog.play (Cloud.perform ext) m t chs = some (p', t', h') ∧
      s'.SameButLocation ext t' ∧ s'.table = t'.table ∧ ∀ r, p = .ret r → p' = .ret r

theorem Fallible.Results.eq {α : Type} {r r' : Except Exc α}
    (h : Fallible.Results Exc Eq r r') : r = r' := by
  cases r <;> cases r'
  · exact congrArg Except.error h
  · exact h.elim
  · exact h.elim
  · exact congrArg Except.ok h

theorem indistinct_of_alike {α : Type} {ext : Externals} (hroot : ext.Rooted) {m : Py α}
    (hm : Fallible.Alike (Paired ext) Eq m m) {s t : Cloud} (hst : s.SameButLocation ext t) :
    Indistinct ext m s t := by
  intro chs p s' h hp
  obtain ⟨p', t', h', hp', halike, hst'⟩ :=
    Prog.Alike.play (fun hq hst hr => hq.step hroot hst hr) hm hst hp
  refine ⟨p', t', h', hp', hst', hst'.table, ?_⟩
  rintro r rfl
  cases halike with
  | ret hr => rw [Fallible.Results.eq hr]

/-- **Location data cannot influence what is stored.** No extracted name is a location's or
blocklisted. Directories that differ only in location entries are extracted alike. On stores that
differ only in the location data of the pictures, renderings return the same, so that the log entry
is the same; every moment of a handling leaves the same table; and the endpoint answers the same. -/
theorem location_never_stored (ext : Externals)
    (hlower : ∀ s : String, "gps".toList <+: s.toList → "gps".toList <+: (ext.lower s).toList)
    (hroot : ext.Rooted) :
    (∀ exif d, extractExif ext exif = .ok d → ∀ kv ∈ d, kv.1 ∉ exifBlocklist ∧
      ¬"gps".toList <+: kv.1.toList ∧ ¬"gps".toList <+: (ext.lower kv.1).toList) ∧
    (∀ a b : RawExif, a.Rooted → b.Rooted → a.SameButLocation ext b →
      extractExif ext (some a) = extractExif ext (some b)) ∧
    ∀ s t : Cloud, s.SameButLocation ext t →
      (∀ (w : Worker) (job : JobMessage),
        Indistinct ext (completedEntry ext <$> w.render ext job : Py CompletedEntry) s t) ∧
      (∀ (w : Worker) (msg : RawMessage), Indistinct ext (w.handleMessage ext msg) s t) ∧
      ∀ (svc : JobService) (j : String), Indistinct ext (Routes.getJob svc ext j) s t := by
  refine ⟨fun exif d hd kv hkv => ?_, fun a b ha hb h => h.extracted ha hb, fun s t hst =>
    ⟨fun w job => ?_, fun w msg => indistinct_of_alike hroot (alike_handleMessage w msg) hst,
      fun svc j => indistinct_of_alike hroot (alike_getResponse svc j) hst⟩⟩
  · obtain ⟨hblock, hgps⟩ := Bool.or_eq_false_iff.mp (extractExif_kept hd kv hkv)
    have hpre : ¬"gps".toList <+: (ext.lower kv.1).toList := fun h =>
      Bool.eq_false_iff.mp hgps (List.isPrefixOf_iff_prefix.mpr h)
    exact ⟨by simpa using hblock, fun h => hpre (hlower _ h), hpre⟩
  · refine indistinct_of_alike hroot ?_ hst
    refine (alike_render w job).bind ?_
    rintro processed _ rfl
    exact .pure rfl

/-! ## A photograph with and without its position -/

namespace Surroundings

/-- The EXIF of a photograph; `position` are its location entries. -/
def photoExif (position : List (Nat × ExifValue)) : RawExif :=
  ⟨(0x010F, .str "Pixelcam") :: position, some [(0x9003, .str "2026:01:05 10:30:00")]⟩

def located : RawExif := photoExif [(0x8825, .int 26)]
def unlocated : RawExif := photoExif []

/-- Two files that open as the photograph: `dotGif` with its position, any other without. -/
def camera : Externals :=
  { small with
    openImage := fun _ data =>
      .ok { dot with exif := some (if data = dotGif then located else unlocated) } }

theorem located_sameButLocation : located.SameButLocation camera unlocated := by
  have hgps : isLocationEntry camera (0x8825, .int 26) = true := by rfl
  have hmake : isLocationEntry camera (0x010F, .str "Pixelcam") = false := by rfl
  refine ⟨?_, rfl⟩
  simp only [located, unlocated, photoExif, withoutLocation, List.filter_cons, List.filter_nil, hgps,
    hmake, Bool.not_true, Bool.not_false, if_true, Bool.false_eq_true, if_false]

theorem camera_rooted : camera.Rooted := by
  intro seed data p raw hp hraw hmain
  cases hp
  cases hraw
  split at hmain <;> exact absurd hmain (List.cons_ne_nil _ _)

theorem camera_lower (s : String) (h : "gps".toList <+: s.toList) :
    "gps".toList <+: (camera.lower s).toList := by
  obtain ⟨rest, hrest⟩ := h
  have hlow : (camera.lower s).toList = s.toList.map Char.toLower := String.toList_ofList
  have hgps : "gps".toList.map Char.toLower = "gps".toList := by rfl
  exact ⟨rest.map Char.toLower, by rw [hlow, ← hrest, List.map_append, hgps]⟩

theorem camera_sameFile (data data' : Bytes) : SameFile camera data data' := by
  have hexif : ∀ d d' : Bytes, RawExif.SameButLocation camera
      (if d = dotGif then located else unlocated) (if d' = dotGif then located else unlocated) := by
    intro d d'
    have h := located_sameButLocation
    split <;> split
    · exact .refl _
    · exact h
    · exact ⟨h.main.symm, h.exifIfd.symm⟩
    · exact .refl _
  exact fun _ => ⟨rfl, rfl, rfl, .some (hexif data data'), fun _ _ => rfl⟩

/-- The bucket with one file under the key of the message. -/
def bucketWith (data : Bytes) : Cloud :=
  Cloud.empty.setObject config.s3Bucket message.inputKey ⟨data, "image/jpeg"⟩

theorem location_never_stored_photo :
    extractExif camera (some located) = extractExif camera (some unlocated) ∧
    Indistinct camera ((Worker.build config).handleMessage camera delivery) (bucketWith dotGif)
      (bucketWith cutGif) := by
  obtain ⟨-, hextract, hstores⟩ := location_never_stored camera camera_lower camera_rooted
  have hsame : (bucketWith dotGif).SameButLocation camera (bucketWith cutGif) := by
    refine ⟨rfl, rfl, rfl, fun b k => ?_⟩
    rw [bucketWith, bucketWith, Cloud.setObject_objects, Cloud.setObject_objects]
    split
    · exact .some (camera_sameFile _ _)
    · exact .none
  refine ⟨hextract _ _ ?_ ?_ located_sameButLocation, (hstores _ _ hsame).2.1 _ _⟩
  · exact fun h => absurd h (List.cons_ne_nil _ _)
  · exact fun h => absurd h (List.cons_ne_nil _ _)

end Surroundings

end PixelForge
