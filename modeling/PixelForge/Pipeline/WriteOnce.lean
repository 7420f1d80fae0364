import PixelForge.Pipeline.Clients

/-! # The bucket is written once

What a key of the bucket may hold is settled by the uploads: the bytes of one upload, or their
rendering at the size that the key names (`Genuine`, `Genuine.agree`). Puts are repeated, by the
retries of a call and by the deliveries of a message, and each repetition stores the same object.
-/
set_option autoImplicit false

namespace PixelForge
open Effects

/-- Where an object comes from. -/
inductive Genuine (ext : Externals) (config : Config) (log : Log) : String → Object → Prop
  | original {n : Nat} {u : Upload} {r : JobRecord} (hnew : IsNew ext u r)
      (hdrawn : drawOk r.jobId ∈ journalOf (.caller n u) log) :
      Genuine ext config log r.inputKey ⟨u.data, r.contentType⟩
  | thumbnail {n : Nat} {u : Upload} {r : JobRecord} {size : Nat} {enc : Encoded}
      (hs : SentBy ext config log n u r) (hsize : size ∈ config.thumbnailSizes)
      (hrenders : ext.Renders u.data size enc) :
      Genuine ext config log (outputKey r.jobId size) ⟨enc.data, thumbnailContentType⟩

section Pipeline

variable {ext : Externals} {config : Config} {staff : Proc → Bool} {G : PipeGuard} {c c' : Pipe}
  {b k : String} {o o' : Object}

theorem Genuine.mono {log : Log} (h : Genuine ext config log k o) (e : LogEntry) :
    Genuine ext config (e :: log) k o := by
  cases h with
  | original hnew hdrawn => exact .original hnew (journal_mono e hdrawn)
  | thumbnail hs hsize hrenders => exact .thumbnail (hs.mono e) hsize hrenders

theorem Genuine.later {log log' : Log} (h : Genuine ext config log k o) (hlog : log <:+ log') :
    Genuine ext config log' k o := by
  obtain ⟨t, rfl⟩ := hlog
  induction t with
  | nil => exact h
  | cons e t ih => exact ih.mono e

theorem IsNew.contentType {u : Upload} {r : JobRecord} (h : IsNew ext u r) :
    r.contentType = normaliseContentType ext u.contentType := by
  obtain ⟨probe, jobId, traceId, createdAt, updatedAt, rfl⟩ := h
  rfl

/-- **A key has one object.** -/
theorem Genuine.agree (hfix : ext.Fixed)
    (h : (pipeline ext config staff).Reach G (Machine.initial Cloud.empty) c)
    (ho : Genuine ext config c.log k o) (ho' : Genuine ext config c.log k o') : o' = o := by
  cases ho with
  | @original n u r hnew hdrawn =>
    obtain ⟨x, hx⟩ := hnew.inputKey
    generalize hkey : r.inputKey = k at ho'
    cases ho' with
    | @original n' u' r' hnew' hdrawn' =>
      obtain ⟨x', hx'⟩ := hnew'.inputKey
      have hjob : r'.jobId = r.jobId := inputKey_inj (uuid_of_drawn h hdrawn') (uuid_of_drawn h hdrawn)
        (by rw [← hx', ← hx, hkey])
      obtain ⟨rfl, rfl⟩ := Proc.caller.inj (same_drawer h hdrawn (hjob ▸ hdrawn'))
      rw [hnew'.contentType, hnew.contentType]
    | thumbnail => exact absurd (hx.symm.trans hkey) (inputKey_ne_outputKey _ _ _ _)
  | @thumbnail n u r size enc hs hsize hrenders =>
    generalize hkey : outputKey r.jobId size = k at ho'
    cases ho' with
    | @original n' u' r' hnew' hdrawn' =>
      obtain ⟨x', hx'⟩ := hnew'.inputKey
      exact absurd (hx'.symm.trans hkey.symm) (inputKey_ne_outputKey _ _ _ _)
    | @thumbnail n' u' r' size' enc' hs' hsize' hrenders' =>
      obtain ⟨hj, rfl⟩ := outputKey_inj hkey
      obtain ⟨rfl, -⟩ := hs.unique h hs' hj.symm
      rw [hfix.renders_eq hrenders hrenders']

/-- Everything in the stores is in the bucket and comes from an upload. -/
theorem genuine_of_stored (hown : ∀ n own msg, staff (.worker n own msg) = true → own = config)
    (h : (pipeline ext config staff).Reach G (Machine.initial Cloud.empty) c)
    (ho : c.state.objects b k = some o) : b = config.s3Bucket ∧ Genuine ext config c.log k o := by
  revert ho
  refine pipeline_invariant (P := fun s log => s.objects b k = some o →
    b = config.s3Bucket ∧ Genuine ext config log k o) ?_ ?_ ?_ h
  · intro ho
    cases ho
  · exact fun _ _ _ _ hP _ _ => hP
  · intro c e s' hr hP hbefore hrun hmay hp _ ho
    rw [← hbefore] at hP
    by_cases hsame : s'.objects b k = e.before.objects b k
    · obtain ⟨hb, hgenuine⟩ := hP (hsame.symm.trans ho)
      exact ⟨hb, hgenuine.mono e⟩
    · obtain ⟨who, s, q, ch, ans⟩ := e
      obtain rfl | he := Cloud.perform_effect hp
      · exact absurd rfl hsame
      · cases he with
        | @object b' k' body ct =>
          rw [Cloud.setObject_objects] at ho
          split at ho
          · rename_i heq
            obtain ⟨rfl, rfl⟩ := heq
            obtain rfl := Option.some.inj ho
            cases who with
            | caller n u =>
              obtain ⟨r, hstory, -, rfl, rfl, rfl, rfl⟩ := hmay
              exact ⟨rfl, .original hstory.new (journal_mono _ hstory.drawn)⟩
            | worker n own msg =>
              obtain ⟨m, u, r, size, enc, hs, -, rfl, rfl, hsize, hrenders, rfl, rfl⟩ :=
                processMay_upload hown hr hrun hmay
              exact ⟨rfl, .thumbnail (hs.mono _) hsize hrenders⟩
          · exact absurd (by rw [Cloud.setObject_objects, if_neg (by assumption)]) hsame
        | _ => exact absurd rfl hsame

/-- Nothing removes an object. -/
theorem stored_stays (h : (pipeline ext config staff).Reach G c c')
    (ho : (c.state.objects b k).isSome = true) : (c'.state.objects b k).isSome = true := by
  induction h with
  | refl => exact ho
  | next _ hs _ ih =>
    obtain ⟨j, -, -, -, rfl⟩ | ⟨j, ch, q, p, r, s', -, -, hp, rfl⟩ | ⟨j, q, p, -, -, rfl⟩ |
      ⟨m, s', -, hm, rfl⟩ := Machine.step_cases hs
    · exact ih
    · obtain rfl | he := Cloud.perform_effect hp
      · exact ih
      · cases he with
        | object =>
          rw [Cloud.setObject_objects]
          split
          · rfl
          · exact ih
        | _ => exact ih
    · exact ih
    · obtain ⟨m, -, -, rfl⟩ := Cloud.redrive_cases hm
      exact ih

/-- **What is stored stays as it is.** -/
theorem object_stays (hown : ∀ n own msg, staff (.worker n own msg) = true → own = config)
    (hfix : ext.Fixed) (h : (pipeline ext config staff).Reach G (Machine.initial Cloud.empty) c)
    (ho : c.state.objects b k = some o) (h' : (pipeline ext config staff).Reach G c c') :
    c'.state.objects b k = some o := by
  obtain ⟨-, hgenuine⟩ := genuine_of_stored hown h ho
  obtain ⟨o', ho'⟩ := Option.isSome_iff_exists.mp (stored_stays h' (Option.isSome_iff_exists.mpr ⟨o, ho⟩))
  obtain ⟨-, hgenuine'⟩ := genuine_of_stored hown (h.trans h') ho'
  rw [ho', (hgenuine.later h'.log_suffix).agree hfix (h.trans h') hgenuine']

end Pipeline

/-! ## The deployment -/

/-- What an object is: an original, or the rendering of the original that is stored with it. -/
inductive Holds (ext : Externals) (config : Config) (s : Cloud) (o : Object) : String → Prop
  | original {j x : String} (hj : isUuid j = true) : Holds ext config s o (JobService.inputKey j x)
  | thumbnail {j x : String} {size : Nat} {source : Object} {enc : Encoded} (hj : isUuid j = true)
      (hsize : size ∈ config.thumbnailSizes)
      (hsource : s.objects config.s3Bucket (JobService.inputKey j x) = some source)
      (hrenders : ext.Renders source.body size enc) (ho : o = ⟨enc.data, thumbnailContentType⟩) :
      Holds ext config s o (outputKey j size)

section Deployed

variable {ext : Externals} {config : Config} {fleet : Nat → Task}
  {G : Machine.Guard Nat Request Choice Cloud Request.Resp} {d₁ d₂ : Site} {b k : String} {o : Object}

/-- **The bucket is written once**: an object that is stored at one point of a run is stored unchanged
at every later one, in the configured bucket, and a thumbnail is the rendering, at the configured size
that its key names, of the original of its job. -/
theorem bucket_written_once (hfix : ext.Fixed)
    (hfleet : ∀ m own rounds, fleet m = .work own rounds → own = config)
    (h₁ : (deployment ext config fleet).Reach G (Machine.initial Cloud.empty) d₁)
    (ho : d₁.state.objects b k = some o) (h₂ : (deployment ext config fleet).Reach G d₁ d₂) :
    d₂.state.objects b k = some o ∧ b = config.s3Bucket ∧ Holds ext config d₂.state o k := by
  have hown := own_of_crew hfleet
  obtain ⟨c₁, hc₁, hs₁⟩ := within_of_reach h₁
  obtain ⟨c₂, hc₂, hs₂⟩ := (hosting ext config fleet).runs hs₁ h₂
  have hc := hc₁.trans hc₂
  have hstays := object_stays hown hfix hc₁ (hs₁.state ▸ ho) hc₂
  obtain ⟨hb, hgenuine⟩ := genuine_of_stored hown hc hstays
  rw [← hs₂.state]
  refine ⟨hstays, hb, ?_⟩
  cases hgenuine with
  | original hnew hdrawn =>
    obtain ⟨x, hx⟩ := hnew.inputKey
    rw [hx]
    exact .original (uuid_of_drawn hc hdrawn)
  | thumbnail hs hsize hrenders =>
    obtain ⟨x, hx⟩ := hs.new.inputKey
    exact .thumbnail (hs.uuid hc) hsize (hx ▸ (hs.backed hc).2) hrenders rfl

end Deployed

namespace Surroundings

/-- The thumbnail of the white pixel. -/
def thumbnail : Object := ⟨[0xFF, 0xD8, 0xFF, 0xD9], thumbnailContentType⟩

/-- A worker has uploaded the thumbnails and crashes. -/
def abandoned : Site :=
  smallDeployment.played posted (Machine.script 1 [plain, plain, plain, { text := messageId }] ++
    List.replicate 18 (.act 1 plain) ++ [.crash 1])

/-- Another one is given the same message and renders the job again. -/
def renderedAgain : Site :=
  smallDeployment.played abandoned (Machine.script 3 [plain, plain, plain, { text := messageId }] ++
    List.replicate 29 (.act 3 plain))

theorem reach_abandoned : smallDeployment.Reach Machine.always (Machine.initial Cloud.empty) abandoned :=
  reach_posted.played _

theorem reach_renderedAgain : smallDeployment.Reach Machine.always abandoned renderedAgain :=
  Machine.Reach.refl.played _

def putsUnder (key : String) (log : List SiteEntry) : Nat :=
  log.countP fun e => match e.req with
    | .putObject _ k _ _ => k == key
    | _ => false

theorem abandoned_stored :
    abandoned.state.objects config.s3Bucket (outputKey jobId 400) = some thumbnail ∧
      putsUnder (outputKey jobId 400) renderedAgain.log = 2 := by
  decide +kernel

/-- The second put leaves the thumbnail as it was. -/
theorem bucket_written_once_again : putsUnder (outputKey jobId 400) renderedAgain.log = 2 ∧
    renderedAgain.state.objects config.s3Bucket (outputKey jobId 400) = some thumbnail ∧
      Holds small config renderedAgain.state thumbnail (outputKey jobId 400) := by
  obtain ⟨hstored, htwice⟩ := abandoned_stored
  obtain ⟨hstays, -, hholds⟩ := bucket_written_once small_fixed own_of_smallFleet reach_abandoned hstored
    reach_renderedAgain
  exact ⟨htwice, hstays, hholds⟩

end Surroundings

end PixelForge
