import PixelForge.Effects.BigStep
import PixelForge.Shared.Codec
import PixelForge.Worker.Consumer

/-! # Runs in which nothing is down

`Cloud.undisturbed` never answers with a fault, but DynamoDB refuses numbers it cannot store and items
over its size limit. Here is how the calls of the worker end in such surroundings.
-/
set_option autoImplicit false

namespace PixelForge
open Effects Fallible

/-! ## Surroundings in which nothing is down -/

/-- DynamoDB's answer to an item over its size limit. -/
def itemTooLarge : Exc :=
  .clientError "ValidationException" 400 "Item size to update has exceeded the maximum allowed size"

namespace Cloud

variable (ext : Externals) (exceeds : Item → Bool)

/-- An `UpdateItem` call, where `exceeds` are the items over the size limit. -/
def updateWithin (s : Cloud) (j : String) (u : Update) : Except Exc Unit × Cloud :=
  match u.apply j (s.table j) with
  | .error e => (.error e, s)
  | .ok it => if exceeds it then (.error itemTooLarge, s) else (.ok (), s.setItem j it)

/-- The answers while nothing is down. `utc_now_iso` gives 24 characters, and the milliseconds of a
handling are a number that DynamoDB stores. -/
def undisturbed (s : Cloud) : (q : Request) → Choice → Option (q.Resp × Cloud)
  | .updateItem j u, _ => some (s.updateWithin exceeds j u)
  | .utcNow, ch => if ch.text.length = 24 then some (.ok ch.text, s) else none
  | .elapsedMs, ch => if ch.number.natAbs < 10 ^ 38 then some (.ok ch.number, s) else none
  | q, ch => s.serve ext q ch

end Cloud

/-- Programs on the stores while nothing is down. -/
def undisturbed (ext : Externals) (exceeds : Item → Bool) :
    Interface Request Request.Resp Cloud where
  may _ _ := True
  exec s q r s' := ∃ ch, s.undisturbed ext exceeds q ch = some (r, s')

/-- Decoding raises only what `render_thumbnails` catches. -/
structure Externals.Caught (ext : Externals) : Prop where
  openImage : ∀ {seed data e}, ext.openImage seed data = .error e → (renderError e).isImage = true
  renderOne : ∀ {seed p size e}, ext.renderOne seed p size = .error e →
    (renderError e).isImage = true

/-- `data` may be opened as `pic` and rendered as `thumbs`. -/
def RendersTo (ext : Externals) (sizes : List Nat) (data : Bytes) (pic : Picture)
    (thumbs : List RenderedThumbnail) : Prop :=
  ext.Opens data pic ∧ List.Forall₂ (fun size th => ∃ seed t,
    ext.renderOne seed pic size = .ok t ∧ th = .ofEncoded size t) (sortedSizes sizes) thumbs

/-! ## One request -/

section Requests

variable {ext : Externals} {exceeds : Item → Bool} {s s' : Cloud}

theorem ends_ask_iff {q : Request} {r : q.Resp} : Ends (undisturbed ext exceeds) (ask q) s r s' ↔
    ∃ ch, s.undisturbed ext exceeds q ch = some (r, s') := ends_ask

theorem ends_answered {q : Request} {v : q.Val} {s₁ : Cloud}
    (hq : ∀ ch, s.undisturbed ext exceeds q ch = some (.ok v, s₁)) (r : q.Resp) (t : Cloud) :
    Ends (undisturbed ext exceeds) (ask q) s r t ↔ r = .ok v ∧ t = s₁ := by
  rw [ends_ask_iff]
  constructor
  · rintro ⟨ch, h⟩
    rw [hq ch] at h
    obtain ⟨hr, ht⟩ := Prod.mk.inj (Option.some.inj h)
    exact ⟨hr.symm, ht.symm⟩
  · rintro ⟨rfl, rfl⟩
    exact ⟨{}, hq {}⟩

theorem ends_plain (q : Request) (v : q.Val) (s : Cloud)
    (hq : ∀ ch, s.undisturbed ext exceeds q ch = some (.ok v, s) := by exact fun _ => rfl)
    (r : q.Resp) (t : Cloud) :
    Ends (undisturbed ext exceeds) (ask q) s r t ↔ r = .ok v ∧ t = s := ends_answered hq r t

/-- Nothing that raises here is worth another attempt. -/
theorem ends_retry {q : Request} {policy : RetryPolicy} {operation : String} {r : q.Resp}
    (hpos : policy.attempts ≠ 0)
    (hfinal : ∀ e t, Ends (undisturbed ext exceeds) (ask q) s (.error e) t → isTransient e = false) :
    Ends (undisturbed ext exceeds) (callWithRetry policy operation noSwallow (ask q)) s r s' ↔
      Ends (undisturbed ext exceeds) (ask q) s r s' := by
  obtain ⟨n, hn⟩ := Nat.exists_eq_succ_of_ne_zero hpos
  rw [callWithRetry, hn, retryLoop, ends_tryElse_iff]
  have hraise : ∀ e t, Ends (undisturbed ext exceeds) (ask q) s (.error e) t →
      swallowed (noSwallow : String → Option q.Val) e = none ∧ ¬ isTransient e = true := by
    intro e t h
    refine ⟨swallowed_noSwallow e, ?_⟩
    rw [hfinal e t h]
    exact Bool.false_ne_true
  constructor
  · rintro (⟨a, t, ha, hr⟩ | ⟨e, t, he, hr⟩)
    · obtain ⟨rfl, rfl⟩ := ends_pure_iff.mp hr
      exact ha
    · obtain ⟨hs, ht⟩ := hraise e t he
      simp only [hs, if_neg ht] at hr
      obtain ⟨rfl, rfl⟩ := ends_raise_iff.mp hr
      exact he
  · intro h
    cases r with
    | ok a => exact .inl ⟨a, s', h, ends_pure_iff.mpr ⟨rfl, rfl⟩⟩
    | error e =>
      obtain ⟨hs, ht⟩ := hraise e s' h
      refine .inr ⟨e, s', h, ?_⟩
      simp only [hs, if_neg ht]
      exact ends_raise_iff.mpr ⟨rfl, rfl⟩

/-- The ladder around a request with one answer. -/
theorem ends_retry_answered {q : Request} {v : q.Val} {s₁ : Cloud} {policy : RetryPolicy}
    {operation : String} (hpos : policy.attempts ≠ 0)
    (hq : ∀ ch, s.undisturbed ext exceeds q ch = some (.ok v, s₁)) (r : q.Resp) (t : Cloud) :
    Ends (undisturbed ext exceeds) (callWithRetry policy operation noSwallow (ask q)) s r t ↔
      r = .ok v ∧ t = s₁ := by
  refine (ends_retry hpos fun e t h => ?_).trans (ends_answered hq r t)
  cases ((ends_answered hq _ _).mp h).1

/-- What a refused update raises is neither worth another attempt nor about the image. -/
theorem updateWithin_error {j : String} {u : Update} {e : Exc}
    (h : s.updateWithin exceeds j u = (.error e, s')) :
    s' = s ∧ isTransient e = false ∧ e.isImage = false := by
  have hrefused : ∀ e', (Except.error e', s) = ((.error e, s') : Except Exc Unit × Cloud) →
      isTransient e' = false → e'.isImage = false →
      s' = s ∧ isTransient e = false ∧ e.isImage = false := by
    intro e' he ht hi
    obtain ⟨hexc, rfl⟩ := Prod.mk.inj he
    obtain rfl := Except.error.inj hexc
    exact ⟨rfl, ht, hi⟩
  unfold Cloud.updateWithin at h
  split at h
  · rename_i e' he
    unfold Update.apply at he
    split at he
    · rename_i e'' hser
      obtain rfl := Except.error.inj he
      obtain ⟨cls, text, rfl⟩ := serializeDict_error _ hser
      exact hrefused _ h rfl rfl
    · split at he
      · cases he
      · obtain rfl := Except.error.inj he
        exact hrefused _ h (by decide) rfl
  · split at h
    · exact hrefused _ h (by decide) rfl
    · cases (Prod.mk.inj h).1

end Requests

/-! ## The functions -/

section Functions

variable {ext : Externals} {exceeds : Item → Bool} {config : Config} {s s' : Cloud}

theorem ends_stamped {table : JobTable} (hpos : table.policy.attempts ≠ 0) (j : String)
    (u : String → Update) {r : Except Exc Unit} : Ends (undisturbed ext exceeds) (do
      let now : String ← ask .utcNow
      table.updateItem j (u now)) s r s' ↔
    ∃ now, now.length = 24 ∧ s.updateWithin exceeds j (u now) = (r, s') := by
  have hupdate : ∀ now, Ends (undisturbed ext exceeds) (table.updateItem j (u now)) s r s' ↔
      s.updateWithin exceeds j (u now) = (r, s') := by
    intro now
    refine (ends_retry (q := .updateItem j (u now)) hpos fun e t h => ?_).trans
      (ends_ask_iff.trans ?_)
    · obtain ⟨ch, h⟩ := ends_ask_iff.mp h
      exact (updateWithin_error (Option.some.inj h)).2.1
    · exact ⟨fun ⟨_, h⟩ => Option.some.inj h, fun h => ⟨{}, congrArg some h⟩⟩
  refine ends_bind_iff.trans ⟨?_, ?_⟩
  · rintro (⟨now, t, hnow, hu⟩ | ⟨e, he, -⟩)
    · obtain ⟨ch, h⟩ := ends_ask_iff.mp hnow
      simp only [Cloud.undisturbed] at h
      split at h
      · rename_i hlength
        obtain ⟨hv, rfl⟩ := Prod.mk.inj (Option.some.inj h)
        obtain rfl := Except.ok.inj hv
        exact ⟨ch.text, hlength, (hupdate _).mp hu⟩
      · cases h
    · obtain ⟨ch, h⟩ := ends_ask_iff.mp he
      simp only [Cloud.undisturbed] at h
      split at h <;> cases h
  · rintro ⟨now, hlength, hu⟩
    refine .inl ⟨now, s, ends_ask_iff.mpr ⟨{ text := now }, ?_⟩, (hupdate now).mpr hu⟩
    exact if_pos hlength

theorem ends_delete {queue : JobQueue} (hpos : queue.policy.attempts ≠ 0) {receipt : String}
    {m : QueuedMessage} (hm : s.queue receipt = some m) (r : Except Exc Unit) (t : Cloud) :
    Ends (undisturbed ext exceeds) (queue.delete receipt) s r t ↔
      r = .ok () ∧ t = s.setMessage receipt { m with place := .deleted } := by
  have hanswer : ∀ ch, s.undisturbed ext exceeds (.deleteMessage receipt) ch =
      some (.ok (), s.setMessage receipt { m with place := .deleted }) := by
    intro ch
    simp only [Cloud.undisturbed, Cloud.serve, hm]
  have hretry : ∀ r t, Ends (undisturbed ext exceeds) (callWithRetry queue.policy "sqs.delete_message"
      noSwallow (ask (.deleteMessage receipt))) s r t ↔
      r = .ok () ∧ t = s.setMessage receipt { m with place := .deleted } :=
    ends_retry_answered hpos hanswer
  refine ends_tryElse_iff.trans ⟨?_, ?_⟩
  · rintro (⟨a, t, ha, hr⟩ | ⟨e, t, he, -⟩)
    · obtain ⟨rfl, rfl⟩ := ends_pure_iff.mp hr
      exact ⟨rfl, ((hretry _ _).mp ha).2⟩
    · cases ((hretry _ _).mp he).1
  · rintro ⟨rfl, rfl⟩
    exact .inl ⟨(), _, (hretry _ _).mpr ⟨rfl, rfl⟩, ends_pure_iff.mpr ⟨rfl, rfl⟩⟩

theorem ends_deleteQuietly {receipt : String} (hreceipt : receipt ≠ "") {m : QueuedMessage}
    (hm : s.queue receipt = some m) (r : Except Exc Unit) (t : Cloud) :
    Ends (undisturbed ext exceeds) ((Worker.build config).deleteQuietly receipt) s r t ↔
      r = .ok () ∧ t = s.setMessage receipt { m with place := .deleted } := by
  have hdelete : ∀ r t, Ends (undisturbed ext exceeds)
      ((Worker.build config).clients.queue.delete receipt) s r t ↔
      r = .ok () ∧ t = s.setMessage receipt { m with place := .deleted } := ends_delete attempts_pos hm
  unfold Worker.deleteQuietly
  rw [if_neg hreceipt]
  refine ends_tryElse_iff.trans ⟨?_, ?_⟩
  · rintro (⟨a, t, ha, hr⟩ | ⟨e, t, he, -⟩)
    · obtain ⟨rfl, rfl⟩ := ends_pure_iff.mp hr
      exact ⟨rfl, ((hdelete _ _).mp ha).2⟩
    · cases ((hdelete _ _).mp he).1
  · rintro ⟨rfl, rfl⟩
    exact .inl ⟨(), _, (hdelete _ _).mpr ⟨rfl, rfl⟩, ends_pure_iff.mpr ⟨rfl, rfl⟩⟩

theorem ends_stage {α : Type} {name : String} {m : Py α} {r : Except Exc α} :
    Ends (undisturbed ext exceeds) (stage name m) s r s' ↔ Ends (undisturbed ext exceeds) m s r s' :=
  ends_tryFinally_of fun t => ends_plain (.metric (.stageDuration name)) () t

theorem ends_download {store : S3Store} (hpos : store.policy.attempts ≠ 0) {key : String} {o : Object}
    (ho : s.objects store.bucket key = some o) (r : Except Exc (LocalFile × Nat)) (t : Cloud) :
    Ends (undisturbed ext exceeds) (store.downloadTo key) s r t ↔
      r = .ok (⟨o.body⟩, o.body.length) ∧ t = s := by
  have hget : ∀ ch, s.undisturbed ext exceeds (.getObject store.bucket key) ch =
      some (.ok o.body, s) := by
    intro ch
    simp only [Cloud.undisturbed, Cloud.serve, ho]
  have hbytes : ∀ r t, Ends (undisturbed ext exceeds) (store.getBytes key) s r t ↔
      r = .ok o.body ∧ t = s := fun r t =>
    (ends_bind_of (ends_retry_answered hpos hget)).trans
      (ends_plain (.readBody o.body) o.body s (fun _ => rfl) r t)
  refine (ends_bind_of hbytes).trans
    ((ends_bind_of (ends_plain (.writeBytes o.body) () s)).trans ?_)
  exact ends_pure_iff

/-! ## Rendering -/

theorem ends_renderOne {pic : Picture} {size : Nat} {th : RenderedThumbnail} :
    Ends (undisturbed ext exceeds) (renderOne pic size) s (.ok th) s' ↔
      (∃ seed t, ext.renderOne seed pic size = .ok t ∧ th = .ofEncoded size t) ∧ s' = s := by
  refine ends_bind_iff.trans ⟨?_, ?_⟩
  · rintro (⟨t, s₁, hask, hpure⟩ | ⟨e, -, he⟩)
    · obtain ⟨ch, hanswer⟩ := ends_ask_iff.mp hask
      obtain ⟨ht, rfl⟩ := Prod.mk.inj (Option.some.inj hanswer)
      obtain ⟨hth, rfl⟩ := ends_pure_iff.mp hpure
      exact ⟨⟨ch.seed, t, ht, Except.ok.inj hth⟩, rfl⟩
    · cases he
  · rintro ⟨⟨seed, t, ht, rfl⟩, rfl⟩
    refine .inl ⟨t, s', ends_ask_iff.mpr ⟨{ seed := seed }, ?_⟩, ends_pure_iff.mpr ⟨rfl, rfl⟩⟩
    exact congrArg some (Prod.ext ht rfl)

/-- The part of `render_thumbnails` inside its `try`. -/
def rendering (ext : Externals) (data : Bytes) (sizes : List Nat) : Py Rendering := do
  let p : Picture ← ask (.openImage data)
  let exif ← Fallible.ofExcept (extractExif ext p.exif)
  let thumbnails ← Fallible.forEach (renderOne p) (sortedSizes sizes)
  pure ⟨thumbnails, exif, p.width, p.height, p.sourceFormat⟩

theorem ends_openImage {data : Bytes} {r : Except Exc Picture} :
    Ends (undisturbed ext exceeds) (ask (.openImage data)) s r s' ↔
      (∃ seed, ext.openImage seed data = r) ∧ s' = s := by
  refine ends_ask_iff.trans ⟨?_, ?_⟩
  · rintro ⟨ch, hanswer⟩
    obtain ⟨hopen, rfl⟩ := Prod.mk.inj (Option.some.inj hanswer)
    exact ⟨⟨ch.seed, hopen⟩, rfl⟩
  · rintro ⟨⟨seed, hopen⟩, rfl⟩
    exact ⟨{ seed := seed }, congrArg some (Prod.ext hopen rfl)⟩

theorem ends_rendering_ok {data : Bytes} {sizes : List Nat} {out : Rendering} :
    Ends (undisturbed ext exceeds) (rendering ext data sizes) s (.ok out) s' ↔
      (∃ pic exif thumbs, RendersTo ext sizes data pic thumbs ∧ extractExif ext pic.exif = .ok exif ∧
        out = ⟨thumbs, exif, pic.width, pic.height, pic.sourceFormat⟩) ∧ s' = s := by
  have hloop : ∀ pic s thumbs s', Ends (undisturbed ext exceeds)
      (Fallible.forEach (renderOne pic) (sortedSizes sizes)) s (.ok thumbs) s' ↔
      List.Forall₂ (fun size th => ∃ seed t, ext.renderOne seed pic size = .ok t ∧
        th = .ofEncoded size t) (sortedSizes sizes) thumbs ∧ s' = s := by
    intro pic s thumbs s'
    have hone : ∀ size s th s', Ends (undisturbed ext exceeds) (renderOne pic size) s (.ok th) s' ↔
        (∃ seed t, ext.renderOne seed pic size = .ok t ∧ th = .ofEncoded size t) ∧
          s' = (fun s _ => s : Cloud → Nat → Cloud) s size := fun _ _ _ _ => ends_renderOne
    rw [ends_forEach_ok hone, List.foldl_fixed]
  refine ends_bind_iff.trans ⟨?_, ?_⟩
  · rintro (⟨pic, s₁, hask, hopened⟩ | ⟨e, -, he⟩)
    · obtain ⟨hopen, rfl⟩ := ends_openImage.mp hask
      obtain ⟨exif, s₂, hextract, hrest⟩ | ⟨e, -, he⟩ := ends_bind_iff.mp hopened
      · obtain ⟨hexif, rfl⟩ := ends_ofExcept_iff.mp hextract
        obtain ⟨thumbs, s₃, hthumbs, hpure⟩ | ⟨e, -, he⟩ := ends_bind_iff.mp hrest
        · obtain ⟨hout, rfl⟩ := ends_pure_iff.mp hpure
          obtain ⟨hrendered, rfl⟩ := (hloop _ _ _ _).mp hthumbs
          exact ⟨⟨pic, exif, thumbs, ⟨hopen, hrendered⟩, hexif.symm, Except.ok.inj hout⟩, rfl⟩
        · cases he
      · cases he
    · cases he
  · rintro ⟨⟨pic, exif, thumbs, ⟨hopen, hrendered⟩, hexif, rfl⟩, rfl⟩
    refine .inl ⟨pic, s', ends_openImage.mpr ⟨hopen, rfl⟩, ends_bind_iff.mpr (.inl ⟨exif, s',
      ends_ofExcept_iff.mpr ⟨hexif.symm, rfl⟩, ?_⟩)⟩
    exact ends_bind_iff.mpr (.inl ⟨thumbs, s', (hloop _ _ _ _).mpr ⟨hrendered, rfl⟩,
      ends_pure_iff.mpr ⟨rfl, rfl⟩⟩)

/-- A picture of these bytes has an EXIF rational that is too large for a float. -/
inductive Overflows (ext : Externals) (data : Bytes) : Prop
  | intro {pic : Picture} (hopens : ext.Opens data pic)
      (hexif : extractExif ext pic.exif = .error floatOverflow)

theorem ends_rendering_error (hpillow : ext.Caught) {data : Bytes} {sizes : List Nat} {e : Exc}
    (h : Ends (undisturbed ext exceeds) (rendering ext data sizes) s (.error e) s') :
    ((renderError e).isImage = true ∨ e = floatOverflow ∧ Overflows ext data) ∧ s' = s := by
  obtain ⟨pic, s₁, hask, hopened⟩ | ⟨e', hask, he⟩ := ends_bind_iff.mp h
  · obtain ⟨hopen, rfl⟩ := ends_openImage.mp hask
    obtain ⟨exif, s₂, hextract, hrest⟩ | ⟨e', hextract, he⟩ := ends_bind_iff.mp hopened
    · obtain ⟨-, rfl⟩ := ends_ofExcept_iff.mp hextract
      obtain ⟨thumbs, s₃, -, hpure⟩ | ⟨e', hloop, he⟩ := ends_bind_iff.mp hrest
      · cases (ends_pure_iff.mp hpure).1
      · obtain rfl := Except.error.inj he
        obtain ⟨size, -, t, rfl, hone⟩ := ends_forEach_error (J := (· = s₂))
          (fun _ _ _ _ ht hok => (ends_renderOne.mp hok).2.trans ht) rfl hloop
        obtain ⟨enc, s₃, -, hpure⟩ | ⟨e', hask, he⟩ := ends_bind_iff.mp hone
        · cases (ends_pure_iff.mp hpure).1
        · obtain rfl := Except.error.inj he
          obtain ⟨ch, hanswer⟩ := ends_ask_iff.mp hask
          obtain ⟨herr, rfl⟩ := Prod.mk.inj (Option.some.inj hanswer)
          exact ⟨.inl (hpillow.renderOne herr), rfl⟩
    · obtain rfl := Except.error.inj he
      obtain ⟨hexif, rfl⟩ := ends_ofExcept_iff.mp hextract
      obtain rfl := extractExif_error hexif.symm
      exact ⟨.inr ⟨rfl, hopen, hexif.symm⟩, rfl⟩
  · obtain rfl := Except.error.inj he
    obtain ⟨⟨seed, herr⟩, rfl⟩ := ends_openImage.mp hask
    exact ⟨.inl (hpillow.openImage herr), rfl⟩

theorem ends_rendering_overflow {data : Bytes} (sizes : List Nat) (h : Overflows ext data) :
    Ends (undisturbed ext exceeds) (rendering ext data sizes) s (.error floatOverflow) s := by
  obtain @⟨pic, hopen, hexif⟩ := h
  exact ends_bind_iff.mpr (.inl ⟨pic, s, ends_openImage.mpr ⟨hopen, rfl⟩, ends_bind_iff.mpr
    (.inr ⟨floatOverflow, ends_ofExcept_iff.mpr ⟨hexif.symm, rfl⟩, rfl⟩)⟩)

theorem ends_renderThumbnails_ok {data : Bytes} {sizes : List Nat} {out : Rendering} :
    Ends (undisturbed ext exceeds) (renderThumbnails ext ⟨data⟩ sizes) s (.ok out) s' ↔
      Ends (undisturbed ext exceeds) (rendering ext data sizes) s (.ok out) s' := by
  refine (ends_bind_of (ends_plain (.readBytes data) data s)).trans (ends_tryElse_iff.trans ⟨?_, ?_⟩)
  · rintro (⟨a, t, ha, hr⟩ | ⟨e, t, -, hr⟩)
    · obtain ⟨hout, rfl⟩ := ends_pure_iff.mp hr
      obtain rfl := Except.ok.inj hout
      exact ha
    · cases (ends_raise_iff.mp hr).1
  · exact fun h => .inl ⟨out, s', h, ends_pure_iff.mpr ⟨rfl, rfl⟩⟩

theorem ends_renderThumbnails_error (hpillow : ext.Caught) {data : Bytes} {sizes : List Nat}
    {e : Exc}
    (h : Ends (undisturbed ext exceeds) (renderThumbnails ext ⟨data⟩ sizes) s (.error e) s') :
    (e.isImage = true ∨ Overflows ext data) ∧ s' = s := by
  have htry := (ends_bind_of (ends_plain (.readBytes data) data s)).mp h
  obtain ⟨a, t, -, hr⟩ | ⟨e', t, he, hr⟩ := ends_tryElse_iff.mp htry
  · cases (ends_pure_iff.mp hr).1
  · obtain ⟨hcause, rfl⟩ := ends_rendering_error hpillow he
    obtain ⟨hexc, rfl⟩ := ends_raise_iff.mp hr
    obtain rfl := Except.error.inj hexc
    exact ⟨hcause.imp_right And.right, rfl⟩

theorem ends_renderThumbnails_overflow {data : Bytes} (sizes : List Nat) (h : Overflows ext data) :
    Ends (undisturbed ext exceeds) (renderThumbnails ext ⟨data⟩ sizes) s (.error floatOverflow) s :=
  (ends_bind_of (ends_plain (.readBytes data) data s)).mpr (ends_tryElse_iff.mpr
    (.inr ⟨floatOverflow, s, ends_rendering_overflow sizes h, ends_raise_iff.mpr ⟨rfl, rfl⟩⟩))

/-! ## `_render` -/

/-- The stores with a thumbnail uploaded. -/
def storeThumbnail (config : Config) (j : String) (s : Cloud) (th : RenderedThumbnail) : Cloud :=
  s.setObject config.s3Bucket (outputKey j th.size) ⟨th.data, thumbnailContentType⟩

theorem storeThumbnails_keep (config : Config) (j : String) (thumbs : List RenderedThumbnail)
    (s : Cloud) : (thumbs.foldl (storeThumbnail config j) s).table = s.table ∧
      (thumbs.foldl (storeThumbnail config j) s).queue = s.queue := by
  induction thumbs generalizing s with
  | nil => exact ⟨rfl, rfl⟩
  | cons th thumbs ih => exact ih (storeThumbnail config j s th)

variable {job : JobMessage} {o : Object}

theorem ends_upload (th : RenderedThumbnail) (r : Except Exc (String × ThumbnailOutput))
    (t : Cloud) : Ends (undisturbed ext exceeds) ((Worker.build config).upload job.jobId th) s r t ↔
      r = .ok (Worker.thumbnailOutput job.jobId th) ∧ t = storeThumbnail config job.jobId s th :=
  (ends_bind_of (ends_retry_answered attempts_pos fun _ => rfl)).trans ends_pure_iff

theorem ends_uploads {thumbs : List RenderedThumbnail} {outputs : Outputs} :
    Ends (undisturbed ext exceeds) (Fallible.forEach ((Worker.build config).upload job.jobId) thumbs)
      s (.ok outputs) s' ↔ outputs = thumbs.map (Worker.thumbnailOutput job.jobId) ∧
        s' = thumbs.foldl (storeThumbnail config job.jobId) s := by
  have hone : ∀ th s a s', Ends (undisturbed ext exceeds)
      ((Worker.build config).upload job.jobId th) s (.ok a) s' ↔
      Worker.thumbnailOutput job.jobId th = a ∧ s' = storeThumbnail config job.jobId s th := by
    intro th s a s'
    rw [ends_upload, Except.ok.injEq, eq_comm]
  have houtputs : List.Forall₂ (fun th a => Worker.thumbnailOutput job.jobId th = a) thumbs outputs ↔
      outputs = thumbs.map (Worker.thumbnailOutput job.jobId) := by
    rw [← List.forall₂_map_left_iff (R := (· = ·)), List.forall₂_eq_eq_eq, eq_comm]
  exact (ends_forEach_ok hone).trans (and_congr_left fun _ => houtputs)

theorem uploads_return {thumbs : List RenderedThumbnail} {e : Exc} :
    ¬ Ends (undisturbed ext exceeds) (Fallible.forEach ((Worker.build config).upload job.jobId) thumbs)
      s (.error e) s' := by
  intro h
  obtain ⟨th, -, t, -, hone⟩ := ends_forEach_error (J := fun _ => True) (fun _ _ _ _ _ _ => trivial)
    trivial h
  cases ((ends_upload _ _ _).mp hone).1

/-- The render after the download. -/
def renderRest (config : Config) (ext : Externals) (job : JobMessage) (data : Bytes) :
    Py ProcessedOutputs := do
  let r ← stage "process" (renderThumbnails ext ⟨data⟩ config.thumbnailSizes)
  let outputs ← stage "upload" (Fallible.forEach ((Worker.build config).upload job.jobId) r.thumbnails)
  pure ⟨outputs, r.exif, r.width, r.height, r.sourceFormat⟩

theorem ends_render (ho : s.objects config.s3Bucket job.inputKey = some o)
    {r : Except Exc ProcessedOutputs} :
    Ends (undisturbed ext exceeds) ((Worker.build config).render ext job) s r s' ↔
      Ends (undisturbed ext exceeds) (renderRest config ext job o.body) s r s' :=
  (ends_bind_of (ends_plain .mkdtemp () s)).trans
    ((ends_tryFinally_of fun t => ends_plain .rmtree () t).trans
      (ends_bind_of fun r t => ends_stage.trans (ends_download attempts_pos ho r t)))

theorem ends_render_ok (ho : s.objects config.s3Bucket job.inputKey = some o)
    {p : ProcessedOutputs} : Ends (undisturbed ext exceeds) ((Worker.build config).render ext job) s
      (.ok p) s' ↔
    ∃ pic exif thumbs, RendersTo ext config.thumbnailSizes o.body pic thumbs ∧
      extractExif ext pic.exif = .ok exif ∧ p = ⟨thumbs.map (Worker.thumbnailOutput job.jobId), exif,
        pic.width, pic.height, pic.sourceFormat⟩ ∧
      s' = thumbs.foldl (storeThumbnail config job.jobId) s := by
  refine (ends_render ho).trans (ends_bind_iff.trans ⟨?_, ?_⟩)
  · rintro (⟨out, s₁, hout, hrest⟩ | ⟨e, -, he⟩)
    · obtain ⟨⟨pic, exif, thumbs, hto, hexif, rfl⟩, rfl⟩ :=
        ends_rendering_ok.mp (ends_renderThumbnails_ok.mp (ends_stage.mp hout))
      obtain ⟨outputs, s₂, hup, hpure⟩ | ⟨e, -, he⟩ := ends_bind_iff.mp hrest
      · obtain ⟨hp, rfl⟩ := ends_pure_iff.mp hpure
        obtain ⟨rfl, rfl⟩ := ends_uploads.mp (ends_stage.mp hup)
        exact ⟨pic, exif, thumbs, hto, hexif, Except.ok.inj hp, rfl⟩
      · cases he
    · cases he
  · rintro ⟨pic, exif, thumbs, hto, hexif, rfl, rfl⟩
    refine .inl ⟨_, s, ends_stage.mpr (ends_renderThumbnails_ok.mpr (ends_rendering_ok.mpr
      ⟨⟨pic, exif, thumbs, hto, hexif, rfl⟩, rfl⟩)), ?_⟩
    exact ends_bind_iff.mpr (.inl ⟨_, _, ends_stage.mpr (ends_uploads.mpr ⟨rfl, rfl⟩),
      ends_pure_iff.mpr ⟨rfl, rfl⟩⟩)

/-- A render raises an image error, or overflows. -/
theorem ends_render_error (hpillow : ext.Caught)
    (ho : s.objects config.s3Bucket job.inputKey = some o) {e : Exc}
    (h : Ends (undisturbed ext exceeds) ((Worker.build config).render ext job) s (.error e) s') :
    (e.isImage = true ∨ Overflows ext o.body) ∧ s' = s := by
  obtain ⟨out, s₁, -, hrest⟩ | ⟨e', hout, he⟩ := ends_bind_iff.mp ((ends_render ho).mp h)
  · obtain ⟨outputs, s₂, -, hpure⟩ | ⟨e', hup, -⟩ := ends_bind_iff.mp hrest
    · cases (ends_pure_iff.mp hpure).1
    · exact absurd (ends_stage.mp hup) uploads_return
  · obtain rfl := Except.error.inj he
    exact ends_renderThumbnails_error hpillow (ends_stage.mp hout)

theorem ends_render_overflow (ho : s.objects config.s3Bucket job.inputKey = some o)
    (h : Overflows ext o.body) : Ends (undisturbed ext exceeds)
      ((Worker.build config).render ext job) s (.error floatOverflow) s :=
  (ends_render ho).mpr (ends_bind_iff.mpr (.inr ⟨floatOverflow,
    ends_stage.mpr (ends_renderThumbnails_overflow _ h), rfl⟩))

end Functions

end PixelForge
