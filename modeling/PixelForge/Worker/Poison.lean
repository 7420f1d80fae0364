import PixelForge.Api.Protocol
import PixelForge.Effects.Replay
import PixelForge.Shared.Records
import PixelForge.Shared.Surroundings
import PixelForge.Worker.Undisturbed

/-! # Poison uploads

What one handling makes of the bytes under a job's input key while nothing is down.
`handling_concludes` says for which bytes every handling ends `COMPLETE` or `FAILED` with the message
deleted; the others are retried.
-/
set_option autoImplicit false

namespace PixelForge
open Effects Fallible

/-! ## What is concluded, and when -/

/-- The record `r` as `create_job` leaves it, stored as `it`, with `data` under its input key, and a
delivery of its message. -/
structure Awaiting (ext : Externals) (config : Config) (msg : RawMessage) (r : JobRecord) (it : Item)
    (data : Bytes) (s : Cloud) : Prop where
  new : ∃ u, IsNew ext u r
  stored : serializeDict (JobTable.recordItem r) = .ok it
  item : s.table r.jobId = some it
  object : ∃ contentType, s.objects config.s3Bucket r.inputKey = some ⟨data, contentType⟩
  body : msg.body = some (((JobService.build config).newMessage r).toJson ext)
  receipt : msg.receipt ≠ ""
  queued : ∃ m, s.queue msg.receipt = some m

/-- The item has room for timestamps and for the reason of a failure. -/
structure Roomy (exceeds : Item → Bool) (j : String) (it : Item) : Prop where
  processing : ∀ {now it'}, now.length = 24 → (processingUpdate now).apply j (some it) = .ok it' →
    exceeds it' = false
  failed : ∀ {now now' reason it' it''}, now.length = 24 → now'.length = 24 →
    (processingUpdate now).apply j (some it) = .ok it' →
    (failedUpdate reason now').apply j (some it') = .ok it'' → exceeds it'' = false

/-- What a render of `data` may produce. -/
def Rendition (ext : Externals) (sizes : List Nat) (j : String) (data : Bytes)
    (p : ProcessedOutputs) : Prop :=
  ∃ pic exif thumbs, RendersTo ext sizes data pic thumbs ∧ extractExif ext pic.exif = .ok exif ∧
    p = ⟨thumbs.map (Worker.thumbnailOutput j), exif, pic.width, pic.height, pic.sourceFormat⟩

/-- Every number in what a render produced is one that DynamoDB stores. -/
structure ProcessedOutputs.Storable (p : ProcessedOutputs) : Prop where
  exif : StorableDict p.exif
  outputs : StorableDict (Outputs.dump p.outputs)
  width : p.width.natAbs < 10 ^ 38
  height : p.height.natAbs < 10 ^ 38

/-- No rational that is read of the EXIF directory overflows a float; and whatever a render of `data`
produces, its numbers can be stored, and the record with it stays within the size of an item. -/
structure Digestible (ext : Externals) (exceeds : Item → Bool) (sizes : List Nat) (j : String)
    (it : Item) (data : Bytes) : Prop where
  extracts : ¬ Overflows ext data
  numbers : ∀ {p}, Rendition ext sizes j data p → p.Storable
  size : ∀ {p}, Rendition ext sizes j data p → ∀ {now now' : String} {ms : Int} {it' it''},
    now.length = 24 → now'.length = 24 → ms.natAbs < 10 ^ 38 →
    (processingUpdate now).apply j (some it) = .ok it' →
    (completeUpdate p ms now').apply j (some it') = .ok it'' → exceeds it'' = false

/-- `COMPLETED` or `FAILED`, with the record in the matching status and the message deleted. -/
def Concluded (j receipt : String) (r : Except Exc Outcome) (s : Cloud) : Prop :=
  (r = .ok .completed ∧ s.status j = some .complete ∨ r = .ok .failed ∧ s.status j = some .failed) ∧
    ∃ m, s.queue receipt = some m ∧ m.place = .deleted

/-! ## `_process` -/

section Handling

variable {ext : Externals} {exceeds : Item → Bool} {config : Config} {s s' : Cloud}
  {job : JobMessage} {o : Object}

/-- `mark_complete` is only refused for its numbers. -/
theorem complete_applies_iff {p : ProcessedOutputs} {ms : Int} {now j : String} {it : Option Item} :
    (∃ it', (completeUpdate p ms now).apply j it = .ok it') ↔ p.Storable ∧ ms.natAbs < 10 ^ 38 := by
  have hset : (∃ it', (completeUpdate p ms now).apply j it = .ok it') ↔
      ∃ sets, serializeDict (completeUpdate p ms now).set = .ok sets := by
    unfold Update.apply
    cases serializeDict (completeUpdate p ms now).set with
    | error e => exact iff_of_false (fun ⟨_, h⟩ => nomatch h) fun ⟨_, h⟩ => nomatch h
    | ok sets => exact iff_of_true ⟨_, rfl⟩ ⟨sets, rfl⟩
  refine (hset.trans (storableDict_serialize_iff _).symm).trans ?_
  simp only [StorableDict, PyVal.Storable, true_and, and_true]
  constructor
  · rintro ⟨houtputs, hexif, hwidth, hheight, hms⟩
    exact ⟨⟨hexif, houtputs, hwidth, hheight⟩, hms⟩
  · rintro ⟨⟨hexif, houtputs, hwidth, hheight⟩, hms⟩
    exact ⟨houtputs, hexif, hwidth, hheight, hms⟩

variable {msg : RawMessage} {r : JobRecord} {it : Item} {data : Bytes}

/-- The part of `_process` between the heartbeat and the delete. -/
def recordResult (config : Config) (job : JobMessage) (receipt : String)
    (p : ProcessedOutputs) : Py Outcome := do
  let ms : Int ← ask .elapsedMs
  (Worker.build config).clients.table.markComplete job.jobId p ms
  (Worker.build config).clients.queue.delete receipt
  ask (.metric (.jobsProcessed "complete"))
  ask (.metric .jobDuration)
  pure .completed

theorem ends_complete {receipt : String} {res : Except Exc Outcome} :
    Ends (undisturbed ext exceeds) ((Worker.build config).complete ext job receipt) s res s' ↔
      (∃ p s₁, Ends (undisturbed ext exceeds) ((Worker.build config).render ext job) s (.ok p) s₁ ∧
        Ends (undisturbed ext exceeds) (recordResult config job receipt p) s₁ res s') ∨
      ∃ e, Ends (undisturbed ext exceeds) ((Worker.build config).render ext job) s (.error e) s' ∧
        res = .error e := by
  have hbeat : ∀ r t, Ends (undisturbed ext exceeds)
      (Worker.withHeartbeat receipt job.jobId ((Worker.build config).render ext job)) s r t ↔
      Ends (undisturbed ext exceeds) ((Worker.build config).render ext job) s r t := fun r t =>
    (ends_bind_of (ends_plain (.startHeartbeat receipt job.jobId) () s)).trans
      (ends_tryFinally_of fun t => ends_plain .stopHeartbeat () t)
  refine ends_bind_iff.trans (or_congr (exists_congr fun p => exists_congr fun s₁ => ?_)
    (exists_congr fun e => and_congr_left fun _ => hbeat _ _))
  exact and_congr_left fun _ => hbeat _ _

theorem ends_elapsedMs {res : Except Exc Int} :
    Ends (undisturbed ext exceeds) (ask .elapsedMs) s res s' ↔
      ∃ ms : Int, ms.natAbs < 10 ^ 38 ∧ res = .ok ms ∧ s' = s := by
  refine ends_ask_iff.trans ⟨?_, ?_⟩
  · rintro ⟨ch, h⟩
    simp only [Cloud.undisturbed] at h
    split at h
    · rename_i hms
      obtain ⟨rfl, rfl⟩ := Prod.mk.inj (Option.some.inj h)
      exact ⟨ch.number, hms, rfl, rfl⟩
    · cases h
  · rintro ⟨ms, hms, rfl, rfl⟩
    exact ⟨{ number := ms }, if_pos hms⟩

theorem updateWithin_queue (exceeds : Item → Bool) (s : Cloud) (j : String) (u : Update) :
    (s.updateWithin exceeds j u).2.queue = s.queue := by
  unfold Cloud.updateWithin
  split
  · rfl
  · split <;> rfl

theorem ends_finish {receipt : String} {m : QueuedMessage} (hm : s.queue receipt = some m)
    {res : Except Exc Outcome} : Ends (undisturbed ext exceeds) (do
      (Worker.build config).clients.queue.delete receipt
      ask (.metric (.jobsProcessed "complete"))
      ask (.metric .jobDuration)
      pure .completed : Py Outcome) s res s' ↔
    res = .ok .completed ∧ s' = s.setMessage receipt { m with place := .deleted } :=
  (ends_bind_of (ends_delete attempts_pos hm)).trans
    ((ends_bind_of (ends_plain (.metric (.jobsProcessed "complete")) () _)).trans
      ((ends_bind_of (ends_plain (.metric .jobDuration) () _)).trans ends_pure_iff))

theorem ends_recordResult {receipt : String} {m : QueuedMessage} (hm : s.queue receipt = some m)
    {p : ProcessedOutputs} {res : Except Exc Outcome} :
    Ends (undisturbed ext exceeds) (recordResult config job receipt p) s res s' ↔
      ∃ (ms : Int) (now : String), ms.natAbs < 10 ^ 38 ∧ now.length = 24 ∧
        ((∃ s₁, s.updateWithin exceeds job.jobId (completeUpdate p ms now) = (.ok (), s₁) ∧
            res = .ok .completed ∧ s' = s₁.setMessage receipt { m with place := .deleted }) ∨
          ∃ e, s.updateWithin exceeds job.jobId (completeUpdate p ms now) = (.error e, s') ∧
            res = .error e) := by
  have hmark : ∀ ms {r t}, Ends (undisturbed ext exceeds)
      ((Worker.build config).clients.table.markComplete job.jobId p ms) s r t ↔
      ∃ now, now.length = 24 ∧
        s.updateWithin exceeds job.jobId (completeUpdate p ms now) = (r, t) := fun ms =>
    ends_stamped attempts_pos job.jobId (completeUpdate p ms)
  have hqueue : ∀ {u r t}, s.updateWithin exceeds job.jobId u = (r, t) →
      t.queue receipt = some m := by
    intro u r t h
    have hkeep := updateWithin_queue exceeds s job.jobId u
    rw [h] at hkeep
    exact (congrFun hkeep receipt).trans hm
  refine ends_bind_iff.trans ⟨?_, ?_⟩
  · rintro (⟨ms, t, helapsed, hrest⟩ | ⟨e, he, -⟩)
    · obtain ⟨ms', hms, hres, rfl⟩ := ends_elapsedMs.mp helapsed
      obtain rfl := Except.ok.inj hres
      obtain ⟨a, s₁, hok, hfinish⟩ | ⟨e, herr, rfl⟩ := ends_bind_iff.mp hrest
      · obtain ⟨now, hnow, hu⟩ := (hmark _).mp hok
        obtain ⟨rfl, rfl⟩ := (ends_finish (hqueue hu)).mp hfinish
        exact ⟨ms, now, hms, hnow, .inl ⟨s₁, hu, rfl, rfl⟩⟩
      · obtain ⟨now, hnow, hu⟩ := (hmark _).mp herr
        exact ⟨ms, now, hms, hnow, .inr ⟨e, hu, rfl⟩⟩
    · obtain ⟨_, -, hres, -⟩ := ends_elapsedMs.mp he
      cases hres
  · rintro ⟨ms, now, hms, hnow, hend⟩
    refine .inl ⟨ms, s, ends_elapsedMs.mpr ⟨ms, hms, rfl, rfl⟩, ends_bind_iff.mpr ?_⟩
    obtain ⟨s₁, hu, rfl, rfl⟩ | ⟨e, hu, rfl⟩ := hend
    · exact .inl ⟨(), s₁, (hmark ms).mpr ⟨now, hnow, hu⟩,
        (ends_finish (hqueue hu)).mpr ⟨rfl, rfl⟩⟩
    · exact .inr ⟨e, (hmark ms).mpr ⟨now, hnow, hu⟩, rfl⟩

theorem updateWithin_accepted {j : String} {u : Update} (h : u.apply j (s.table j) = .ok it)
    (hfits : exceeds it = false) : s.updateWithin exceeds j u = (.ok (), s.setItem j it) := by
  simp only [Cloud.updateWithin, h, hfits]
  rfl

theorem updateWithin_refused {j : String} {u : Update}
    (h : ¬ ∃ it, u.apply j (s.table j) = .ok it ∧ exceeds it = false) :
    ∃ e, s.updateWithin exceeds j u = (.error e, s) := by
  cases happly : u.apply j (s.table j) with
  | error e =>
    refine ⟨e, ?_⟩
    simp only [Cloud.updateWithin, happly]
  | ok it =>
    refine ⟨itemTooLarge, ?_⟩
    cases hfits : exceeds it with
    | false => exact absurd ⟨it, happly, hfits⟩ h
    | true => simp only [Cloud.updateWithin, happly, hfits, if_true]

/-- A known update that is accepted, followed by the delete of the message. -/
theorem concluded_of_update {u : Update} (hu : u.Known) {j receipt : String} {it' : Item}
    (h : u.apply j (some it) = .ok it') (m : QueuedMessage) {outcome : Outcome} {st : JobStatus}
    (hst : u.target = some st)
    (hends : outcome = .completed ∧ st = .complete ∨ outcome = .failed ∧ st = .failed) :
    Concluded j receipt (.ok outcome)
      ((s.setItem j it').setMessage receipt { m with place := .deleted }) := by
  have hstatus : ((s.setItem j it').setMessage receipt { m with place := .deleted }).status j =
      some st := by
    rw [Cloud.status, Cloud.setMessage_table, Cloud.setItem_table, if_pos rfl, Option.bind_some,
      hu.status h, hst]
  refine ⟨?_, { m with place := .deleted }, ?_, rfl⟩
  · obtain ⟨rfl, rfl⟩ | ⟨rfl, rfl⟩ := hends
    · exact .inl ⟨rfl, hstatus⟩
    · exact .inr ⟨rfl, hstatus⟩
  · rw [Cloud.setMessage_queue, if_pos rfl]

theorem failJob_concludes {j receipt reason : String} (hreceipt : receipt ≠ "") {m : QueuedMessage}
    (hm : s.queue receipt = some m) (hit : s.table j = some it)
    (hroom : ∀ {now it'}, now.length = 24 → (failedUpdate reason now).apply j (some it) = .ok it' →
      exceeds it' = false) {res : Except Exc Outcome}
    (h : Ends (undisturbed ext exceeds) ((Worker.build config).failJob j receipt reason) s res s') :
    Concluded j receipt res s' := by
  have hmark : ∀ {r t}, Ends (undisturbed ext exceeds)
      ((Worker.build config).clients.table.markFailed j reason) s r t →
      ∃ now it', (failedUpdate reason now).apply j (some it) = .ok it' ∧ r = .ok () ∧
        t = s.setItem j it' := by
    intro r t h
    obtain ⟨now, hnow, hu⟩ := (ends_stamped attempts_pos j (failedUpdate reason)).mp h
    obtain ⟨it', happly⟩ : ∃ it', (failedUpdate reason now).apply j (some it) = .ok it' := ⟨_, rfl⟩
    rw [updateWithin_accepted (hit ▸ happly) (hroom hnow happly)] at hu
    obtain ⟨rfl, rfl⟩ := Prod.mk.inj hu
    exact ⟨now, it', happly, rfl, rfl⟩
  obtain ⟨a, t, hok, hrest⟩ | ⟨e, t, herr, -⟩ := ends_tryElse_iff.mp h
  · obtain ⟨now, it', happly, -, rfl⟩ := hmark hok
    have hdrop := (ends_bind_of (ends_plain (.metric (.jobsProcessed "failed")) () _)).mp hrest
    have hm' : (s.setItem j it').queue receipt = some m := hm
    have hlast := (ends_bind_of (f := fun _ => pure Outcome.failed)
      (ends_deleteQuietly hreceipt hm')).mp hdrop
    obtain ⟨rfl, rfl⟩ := ends_pure_iff.mp hlast
    exact concluded_of_update (.failed reason now) happly m rfl (.inr ⟨rfl, rfl⟩)
  · obtain ⟨_, _, -, hr, -⟩ := hmark herr
    cases hr

theorem ends_attempt {receipt : String} {res : Except Exc Outcome} :
    Ends (undisturbed ext exceeds) ((Worker.build config).attempt ext job receipt) s res s' ↔
      Ends (undisturbed ext exceeds) (Fallible.tryExcept ((Worker.build config).complete ext job receipt)
        ((Worker.build config).giveUp job receipt)) s res s' :=
  (ends_bind_of (ends_plain (.metric .jobsInflightInc) () s)).trans
    (ends_tryFinally_of fun t => ends_plain (.metric .jobsInflightDec) () t)

theorem recordResult_concludes {receipt : String} {m : QueuedMessage}
    (hm : s.queue receipt = some m) (hit : s.table job.jobId = some it) {p : ProcessedOutputs}
    (hdigest : ∀ (ms : Int) (now : String), ms.natAbs < 10 ^ 38 → now.length = 24 →
      ∃ it', (completeUpdate p ms now).apply job.jobId (some it) = .ok it' ∧ exceeds it' = false)
    {res : Except Exc Outcome}
    (h : Ends (undisturbed ext exceeds) (recordResult config job receipt p) s res s') :
    res = .ok .completed ∧ Concluded job.jobId receipt res s' := by
  obtain ⟨ms, now, hms, hnow, hend⟩ := (ends_recordResult hm).mp h
  obtain ⟨it', happly, hfits⟩ := hdigest ms now hms hnow
  rw [updateWithin_accepted (hit ▸ happly) hfits] at hend
  obtain ⟨s₁, hu, rfl, rfl⟩ | ⟨e, hu, -⟩ := hend
  · obtain ⟨-, rfl⟩ := Prod.mk.inj hu
    exact ⟨rfl, concluded_of_update (.complete p ms now) happly m rfl (.inl ⟨rfl, rfl⟩)⟩
  · cases (Prod.mk.inj hu).1

theorem giveUp_of_not_image (w : Worker) (job : JobMessage) (receipt : String) {e : Exc}
    (he : e.isImage = false) : w.giveUp job receipt e = pure .retry := by
  cases e with
  | imageProcessing text => cases he
  | _ => rfl

/-- A handling whose transition was won, of bytes that can be recorded. -/
theorem attempt_concludes (hpillow : ext.Caught) {receipt : String} (hreceipt : receipt ≠ "")
    {m : QueuedMessage} (hm : s.queue receipt = some m) (hit : s.table job.jobId = some it)
    (ho : s.objects config.s3Bucket job.inputKey = some o) (hextracts : ¬ Overflows ext o.body)
    (hdigest : ∀ p, Rendition ext config.thumbnailSizes job.jobId o.body p →
      ∀ (ms : Int) (now : String), ms.natAbs < 10 ^ 38 → now.length = 24 →
        ∃ it', (completeUpdate p ms now).apply job.jobId (some it) = .ok it' ∧ exceeds it' = false)
    (hroom : ∀ {reason now it'}, now.length = 24 →
      (failedUpdate reason now).apply job.jobId (some it) = .ok it' → exceeds it' = false)
    {res : Except Exc Outcome}
    (h : Ends (undisturbed ext exceeds) ((Worker.build config).attempt ext job receipt) s res s') :
    Concluded job.jobId receipt res s' := by
  have hrecord : ∀ {p s₁ res t},
      Ends (undisturbed ext exceeds) ((Worker.build config).render ext job) s (.ok p) s₁ →
      Ends (undisturbed ext exceeds) (recordResult config job receipt p) s₁ res t →
      res = .ok .completed ∧ Concluded job.jobId receipt res t := by
    intro p s₁ res t hrender hrecord
    obtain ⟨pic, exif, thumbs, hto, hexif, hp, rfl⟩ := (ends_render_ok ho).mp hrender
    obtain ⟨htable, hqueue⟩ := storeThumbnails_keep config job.jobId thumbs s
    exact recordResult_concludes ((congrFun hqueue receipt).trans hm)
      ((congrFun htable job.jobId).trans hit) (hdigest p ⟨pic, exif, thumbs, hto, hexif, hp⟩) hrecord
  obtain ⟨outcome, t, hok, hpure⟩ | ⟨e, t, herr, hgive⟩ := ends_tryElse_iff.mp (ends_attempt.mp h)
  · obtain ⟨rfl, rfl⟩ := ends_pure_iff.mp hpure
    obtain ⟨p, s₁, hrender, hrest⟩ | ⟨e, -, he⟩ := ends_complete.mp hok
    · exact (hrecord hrender hrest).2
    · cases he
  · obtain ⟨p, s₁, hrender, hrest⟩ | ⟨e', hrender, he⟩ := ends_complete.mp herr
    · cases (hrecord hrender hrest).1
    · obtain rfl := Except.error.inj he
      obtain ⟨hcause, rfl⟩ := ends_render_error hpillow ho hrender
      have himage := hcause.resolve_right hextracts
      cases e with
      | imageProcessing reason =>
        have hfail := (ends_bind_of (ends_plain (.metric .jobDuration) () t)).mp hgive
        exact failJob_concludes hreceipt hm hit hroom hfail
      | _ => cases himage

/-- A handling whose transition was won, of bytes that cannot. -/
theorem attempt_retries {receipt : String}
    {m : QueuedMessage} (hm : s.queue receipt = some m) (hit : s.table job.jobId = some it)
    (ho : s.objects config.s3Bucket job.inputKey = some o) {p : ProcessedOutputs}
    (hp : Rendition ext config.thumbnailSizes job.jobId o.body p) {ms : Int} {now : String}
    (hms : ms.natAbs < 10 ^ 38) (hnow : now.length = 24)
    (hrefused : ¬ ∃ it', (completeUpdate p ms now).apply job.jobId (some it) = .ok it' ∧
      exceeds it' = false) :
    ∃ t, Ends (undisturbed ext exceeds) ((Worker.build config).attempt ext job receipt) s
      (.ok .retry) t := by
  obtain ⟨pic, exif, thumbs, hto, hexif, hpeq⟩ := hp
  obtain ⟨htable, hqueue⟩ := storeThumbnails_keep config job.jobId thumbs s
  have hrender : Ends (undisturbed ext exceeds) ((Worker.build config).render ext job) s (.ok p)
      (thumbs.foldl (storeThumbnail config job.jobId) s) :=
    (ends_render_ok ho).mpr ⟨pic, exif, thumbs, hto, hexif, hpeq, rfl⟩
  generalize thumbs.foldl (storeThumbnail config job.jobId) s = s₁ at htable hqueue hrender
  have hm₁ : s₁.queue receipt = some m := hqueue ▸ hm
  have hit₁ : s₁.table job.jobId = some it := htable ▸ hit
  obtain ⟨e, hu⟩ := updateWithin_refused (hit₁ ▸ hrefused)
  have hrecord : Ends (undisturbed ext exceeds) (recordResult config job receipt p) s₁ (.error e) s₁ :=
    (ends_recordResult hm₁).mpr ⟨ms, now, hms, hnow, .inr ⟨e, hu, rfl⟩⟩
  have hcomplete := ends_complete.mpr (.inl ⟨p, s₁, hrender, hrecord⟩)
  refine ⟨s₁, ends_attempt.mpr (ends_tryElse_iff.mpr (.inr ⟨e, s₁, hcomplete, ?_⟩))⟩
  rw [giveUp_of_not_image _ _ _ (updateWithin_error hu).2.2]
  exact ends_pure_iff.mpr ⟨rfl, rfl⟩

theorem attempt_overflows {receipt : String}
    (ho : s.objects config.s3Bucket job.inputKey = some o) (h : Overflows ext o.body) :
    Ends (undisturbed ext exceeds) ((Worker.build config).attempt ext job receipt) s
      (.ok .retry) s := by
  have hcomplete : Ends (undisturbed ext exceeds)
      ((Worker.build config).complete ext job receipt) s (.error floatOverflow) s :=
    ends_complete.mpr (.inr ⟨floatOverflow, ends_render_overflow ho h, rfl⟩)
  refine ends_attempt.mpr (ends_tryElse_iff.mpr (.inr ⟨floatOverflow, s, hcomplete, ?_⟩))
  rw [giveUp_of_not_image _ _ _ rfl]
  exact ends_pure_iff.mpr ⟨rfl, rfl⟩

theorem ends_getJob {j : String} {record : Option JobRecord}
    (hdecode : JobTable.decodeItem ext.intOfStr (s.table j) = .ok record)
    (r : Except Exc (Option JobRecord)) (t : Cloud) : Ends (undisturbed ext exceeds)
      ((Worker.build config).clients.table.getJob ext.intOfStr j) s r t ↔ r = .ok record ∧ t = s := by
  have hget : ∀ ch, s.undisturbed ext exceeds (.getItem j) ch = some (.ok (s.table j), s) :=
    fun _ => rfl
  refine (ends_bind_of (ends_retry_answered attempts_pos hget)).trans ?_
  simp only [hdecode]
  exact ends_pure_iff

theorem ends_markProcessing {j : String} (hit : s.table j = some it)
    (happlies : ∀ now, ∃ it', (processingUpdate now).apply j (some it) = .ok it')
    (hroom : ∀ {now it'}, now.length = 24 → (processingUpdate now).apply j (some it) = .ok it' →
      exceeds it' = false) {r : Except Exc Bool} :
    Ends (undisturbed ext exceeds) ((Worker.build config).clients.table.markProcessing j) s r s' ↔
      ∃ now it', now.length = 24 ∧ (processingUpdate now).apply j (some it) = .ok it' ∧
        r = .ok true ∧ s' = s.setItem j it' := by
  have hupdate : ∀ {now}, now.length = 24 → ∃ it', (processingUpdate now).apply j (some it) = .ok it' ∧
      s.updateWithin exceeds j (processingUpdate now) = (.ok (), s.setItem j it') := by
    intro now hnow
    obtain ⟨it', happly⟩ := happlies now
    exact ⟨it', happly, updateWithin_accepted (hit ▸ happly) (hroom hnow happly)⟩
  have hstamped : ∀ {r t}, Ends (undisturbed ext exceeds) (do
      let now : String ← ask .utcNow
      (Worker.build config).clients.table.updateItem j (processingUpdate now)) s r t ↔
      ∃ now, now.length = 24 ∧ s.updateWithin exceeds j (processingUpdate now) = (r, t) :=
    ends_stamped attempts_pos j processingUpdate
  refine ends_tryElse_iff.trans ⟨?_, ?_⟩
  · rintro (⟨a, t, hok, hpure⟩ | ⟨e, t, herr, -⟩)
    · obtain ⟨now, hnow, hu⟩ := hstamped.mp hok
      obtain ⟨it', happly, hu'⟩ := hupdate hnow
      obtain ⟨-, rfl⟩ := Prod.mk.inj (hu'.symm.trans hu)
      obtain ⟨rfl, rfl⟩ := ends_pure_iff.mp hpure
      exact ⟨now, it', hnow, happly, rfl, rfl⟩
    · obtain ⟨now, hnow, hu⟩ := hstamped.mp herr
      obtain ⟨it', -, hu'⟩ := hupdate hnow
      cases (Prod.mk.inj (hu'.symm.trans hu)).1
  · rintro ⟨now, it', hnow, happly, rfl, rfl⟩
    refine .inl ⟨(), _, hstamped.mpr ⟨now, hnow, ?_⟩, ends_pure_iff.mpr ⟨rfl, rfl⟩⟩
    exact updateWithin_accepted (hit ▸ happly) (hroom hnow happly)

theorem ends_process {record : JobRecord} {receipt : String} {res : Except Exc Outcome}
    (hit : s.table job.jobId = some it)
    (hdecode : JobTable.decodeItem ext.intOfStr (s.table job.jobId) = .ok (some record))
    (hstatus : record.status ≠ .complete) (hbucket : job.bucket = config.s3Bucket)
    (happlies : ∀ now, ∃ it', (processingUpdate now).apply job.jobId (some it) = .ok it')
    (hroom : ∀ {now it'}, now.length = 24 →
      (processingUpdate now).apply job.jobId (some it) = .ok it' → exceeds it' = false) :
    Ends (undisturbed ext exceeds) ((Worker.build config).process ext job receipt) s res s' ↔
      ∃ now it', now.length = 24 ∧ (processingUpdate now).apply job.jobId (some it) = .ok it' ∧
        Ends (undisturbed ext exceeds) ((Worker.build config).attempt ext job receipt)
          (s.setItem job.jobId it') res s' := by
  have hmark : ∀ {r t}, Ends (undisturbed ext exceeds)
      ((Worker.build config).clients.table.markProcessing job.jobId) s r t ↔
      ∃ now it', now.length = 24 ∧ (processingUpdate now).apply job.jobId (some it) = .ok it' ∧
        r = .ok true ∧ t = s.setItem job.jobId it' := ends_markProcessing hit happlies hroom
  refine (ends_tryElse_of (ends_getJob hdecode)).trans ?_
  simp only [hstatus, if_false]
  refine (iff_of_eq (congrArg (fun m => Ends (undisturbed ext exceeds) m s res s')
    (if_neg (not_not.mpr hbucket)))).trans (ends_tryElse_iff.trans ⟨?_, ?_⟩)
  · rintro (⟨won, t, hok, hrest⟩ | ⟨e, t, herr, -⟩)
    · obtain ⟨now, it', hnow, happly, hwon, rfl⟩ := hmark.mp hok
      obtain rfl := Except.ok.inj hwon
      exact ⟨now, it', hnow, happly, hrest⟩
    · obtain ⟨_, _, -, -, hr, -⟩ := hmark.mp herr
      cases hr
  · rintro ⟨now, it', hnow, happly, hattempt⟩
    exact .inl ⟨true, _, hmark.mpr ⟨now, it', hnow, happly, rfl, rfl⟩, hattempt⟩

/-! ## The handling -/

/-- The delivered job, and what the worker finds of it. -/
theorem Awaiting.found (h : Awaiting ext config msg r it data s) :
    msg.job? ext = some ((JobService.build config).newMessage r) ∧
      (∃ record, JobTable.decodeItem ext.intOfStr (s.table r.jobId) = .ok (some record) ∧
        record.status ≠ .complete) ∧
      ∀ now, ∃ it', (processingUpdate now).apply r.jobId (some it) = .ok it' := by
  obtain ⟨u, probe, j, traceId, createdAt, updatedAt, hr⟩ := h.new
  have hpending : r.status = .pending := by rw [hr]; rfl
  have hplain : r.Plain := hr ▸ newRecord_plain ext u probe j traceId createdAt updatedAt
  have hstored : r.StoredAs ext.intOfStr it := hplain.storedAs h.stored
  obtain ⟨record, hdecode, hrecord⟩ := hstored.typed.decodeItem
  have hstatus : it.status = some .pending := hpending ▸ hstored.status
  refine ⟨?_, ⟨record, h.item ▸ hdecode, ?_⟩, fun now => ?_⟩
  · rw [RawMessage.job?, h.body]
    exact JobMessage.ofJson?_toJson ext rfl
  · rw [Option.some.inj (hrecord.itemStatus.symm.trans hstatus)]
    decide
  · refine processing_applies now r.jobId ?_ hstatus (by decide)
    rw [hstored.jobId]
    rfl

theorem ends_handleMessage (h : Awaiting ext config msg r it data s)
    (hroom : Roomy exceeds r.jobId it) {res : Except Exc Outcome} :
    Ends (undisturbed ext exceeds) ((Worker.build config).handleMessage ext msg) s res s' ↔
      ∃ now it', now.length = 24 ∧ (processingUpdate now).apply r.jobId (some it) = .ok it' ∧
        Ends (undisturbed ext exceeds) ((Worker.build config).attempt ext
          ((JobService.build config).newMessage r) msg.receipt) (s.setItem r.jobId it') res s' := by
  obtain ⟨hjob, ⟨record, hdecode, hstatus⟩, happlies⟩ := h.found
  rw [Worker.handleMessage_of_job hjob (le_refl _)]
  refine (ends_bind_of (ends_plain (.bindJobContext _) () s)).trans
    ((ends_tryFinally_of fun t => ends_plain .clearJobContext () t).trans ?_)
  exact ends_process h.item hdecode hstatus rfl happlies hroom.processing

/-- **A handling ends `COMPLETE` or `FAILED` exactly for the bytes whose rendering DynamoDB takes into
the record**, whatever they are. -/
theorem handling_concludes (hpillow : ext.Caught) (h : Awaiting ext config msg r it data s)
    (hroom : Roomy exceeds r.jobId it) :
    (∀ res s', Steps (undisturbed ext exceeds) ((Worker.build config).handleMessage ext msg) s
        (.ret res) s' → Concluded r.jobId msg.receipt res s') ↔
      Digestible ext exceeds config.thumbnailSizes r.jobId it data := by
  obtain ⟨contentType, hobject⟩ := h.object
  obtain ⟨m, hqueued⟩ := h.queued
  constructor
  · intro hconcludes
    have hnoretry : ∀ {now it' t}, now.length = 24 →
        (processingUpdate now).apply r.jobId (some it) = .ok it' →
        ¬ Ends (undisturbed ext exceeds) ((Worker.build config).attempt ext
          ((JobService.build config).newMessage r) msg.receipt) (s.setItem r.jobId it')
          (.ok .retry) t := by
      intro now it' t hnow happly hretry
      have hend := hconcludes _ _ ((ends_handleMessage h hroom).mpr ⟨now, it', hnow, happly, hretry⟩)
      obtain ⟨hres, -⟩ | ⟨hres, -⟩ := hend.1 <;> cases Except.ok.inj hres
    have haccepted : ∀ {p}, Rendition ext config.thumbnailSizes r.jobId data p →
        ∀ {now now' : String} {ms : Int} {it'}, now.length = 24 → now'.length = 24 →
        ms.natAbs < 10 ^ 38 → (processingUpdate now).apply r.jobId (some it) = .ok it' →
        ∃ it'', (completeUpdate p ms now').apply r.jobId (some it') = .ok it'' ∧
          exceeds it'' = false := by
      intro p hp now now' ms it' hnow hnow' hms happly
      by_contra hrefused
      have hitem : (s.setItem r.jobId it').table r.jobId = some it' := by
        rw [Cloud.setItem_table, if_pos rfl]
      let job := (JobService.build config).newMessage r
      obtain ⟨t, hretry⟩ : ∃ t, Ends (undisturbed ext exceeds)
          ((Worker.build config).attempt ext job msg.receipt) (s.setItem r.jobId it') (.ok .retry) t :=
        attempt_retries hqueued hitem hobject hp hms hnow' hrefused
      exact hnoretry hnow happly hretry
    refine ⟨fun hover => ?_, fun hp => ?_,
      fun hp _ _ _ it' it'' hnow hnow' hms happly hcomplete => ?_⟩
    · have hnow : Surroundings.clock.length = 24 := by decide
      obtain ⟨it', happly⟩ := h.found.2.2 Surroundings.clock
      exact hnoretry hnow happly (attempt_overflows hobject hover)
    · have hnow : Surroundings.clock.length = 24 := by decide
      have hms : (0 : Int).natAbs < 10 ^ 38 := by decide
      obtain ⟨it', happly⟩ := h.found.2.2 Surroundings.clock
      obtain ⟨it'', hcomplete, -⟩ := haccepted hp hnow hnow hms happly
      exact (complete_applies_iff.mp ⟨it'', hcomplete⟩).1
    · obtain ⟨it₃, hcomplete', hfits⟩ := haccepted hp hnow hnow' hms happly
      rw [Except.ok.inj (hcomplete.symm.trans hcomplete')]
      exact hfits
  · intro hdigest res s' hend
    obtain ⟨now, it', hnow, happly, hattempt⟩ := (ends_handleMessage h hroom).mp hend
    have hitem : (s.setItem r.jobId it').table r.jobId = some it' := by
      rw [Cloud.setItem_table, if_pos rfl]
    have hobject' : (s.setItem r.jobId it').objects config.s3Bucket
        ((JobService.build config).newMessage r).inputKey = some ⟨data, contentType⟩ := hobject
    refine attempt_concludes (s := s.setItem r.jobId it') hpillow h.receipt hqueued hitem hobject'
      hdigest.extracts (fun p hp ms now' hms hnow' => ?_)
      (fun hnow' hfailed => hroom.failed hnow hnow' happly hfailed) hattempt
    obtain ⟨it'', hcomplete⟩ := complete_applies_iff.mpr ⟨hdigest.numbers hp, hms⟩
    exact ⟨it'', hcomplete, hdigest.size hp hnow hnow' hms happly hcomplete⟩

end Handling

namespace Surroundings

/-- The record of `goodUpload`, as `create_job` makes it. -/
def fresh : JobRecord :=
  JobService.newRecord small goodUpload ⟨"GIF", 1, 1, ".gif"⟩ jobId none clock clock

theorem serialize_itemOf {r : JobRecord}
    (hok : (serializeDict (JobTable.recordItem r)).toOption.isSome = true) :
    serializeDict (JobTable.recordItem r) = .ok (itemOf r) := by
  unfold itemOf
  cases h : serializeDict (JobTable.recordItem r) with
  | ok it => rfl
  | error e =>
    rw [h] at hok
    cases hok

/-- Pillow, except for what opening a file shows of it. -/
def opening (openImage : Nat → Bytes → Except Exc Picture) : Externals :=
  { small with openImage := openImage }

theorem toJson_opening (openImage : Nat → Bytes → Except Exc Picture) :
    message.toJson (opening openImage) = messageBody := toJson_message

theorem job_opening (openImage : Nat → Bytes → Except Exc Picture) :
    delivery.job? (opening openImage) = some message := by
  change JobMessage.ofJson? (opening openImage) messageBody = some message
  rw [← toJson_opening openImage, JobMessage.ofJson?_toJson _ rfl]

theorem awaiting_fresh (openImage : Nat → Bytes → Except Exc Picture) :
    Awaiting (opening openImage) config delivery fresh (itemOf fresh) dotGif
      (holding (itemOf fresh)) where
  new := ⟨goodUpload, _, jobId, none, clock, clock, rfl⟩
  stored := serialize_itemOf rfl
  item := by
    change ((holding (itemOf fresh)).table jobId) = some (itemOf fresh)
    simp only [holding, Cloud.setMessage_table, Cloud.setItem_table, if_true]
  object := by
    have hkey : fresh.inputKey = message.inputKey := rfl
    refine ⟨"image/gif", ?_⟩
    rw [hkey]
    simp only [holding, Cloud.setMessage_objects, Cloud.setItem_objects, Cloud.setObject_objects,
      and_self, if_true]
  body := by
    have hmessage : (JobService.build config).newMessage fresh = message := rfl
    rw [hmessage, toJson_opening]
    rfl
  receipt := by decide
  queued := ⟨⟨messageBody, [("job_id", jobId)], .onQueue⟩, by
    change (holding (itemOf fresh)).queue messageId = _
    simp only [holding, Cloud.setMessage_queue, if_true]⟩

theorem small_caught : small.Caught where
  openImage := by
    intro seed data e h
    change openImage seed data = .error e at h
    unfold openImage at h
    split_ifs at h <;> cases h <;> rfl
  renderOne := by
    intro seed p size e h
    cases h

theorem roomy (j : String) (it : Item) : Roomy (fun _ => false) j it :=
  ⟨fun _ _ => rfl, fun _ _ _ _ => rfl⟩

theorem storable_thumbnail (j : String) {size : Nat} (hsize : size < 10 ^ 38)
    {th : RenderedThumbnail} (hth : ∃ seed t, small.renderOne seed dot size = .ok t ∧
      th = .ofEncoded size t) : (Worker.thumbnailOutput j th).2.Storable := by
  obtain ⟨seed, t, ht, rfl⟩ := hth
  obtain rfl := Except.ok.inj ht
  have hint : ∀ n : Nat, n < 10 ^ 38 → (PyVal.int n).Storable := fun n hn => by
    simpa only [PyVal.Storable, Int.natAbs_natCast] using hn
  have hmin : (PyVal.int (min dot.width size)).Storable := by
    have hle : min 1 size < 10 ^ 38 := lt_of_le_of_lt (min_le_right 1 size) hsize
    have hcast : min (1 : Int) size = (min 1 size : Nat) := by omega
    exact hcast ▸ hint _ hle
  exact ⟨hint size hsize, hmin, hmin, hint 4 (by decide), trivial⟩

theorem digestible_dotGif (j : String) (it : Item) :
    Digestible small (fun _ => false) config.thumbnailSizes j it dotGif where
  extracts := by
    rintro ⟨hopens, hover⟩
    obtain rfl := opens_small hopens
    cases hover
  numbers := by
    rintro _ ⟨pic, exif, thumbs, ⟨hopens, hthumbs⟩, hexif, rfl⟩
    obtain rfl := opens_small hopens
    obtain rfl : [] = exif := Except.ok.inj hexif
    have hsizes : sortedSizes config.thumbnailSizes = [150, 400] := by decide
    rw [hsizes] at hthumbs
    obtain ⟨first, _, hfirst, hrest, rfl⟩ := List.forall₂_cons_left_iff.mp hthumbs
    obtain ⟨second, _, hsecond, hnone, rfl⟩ := List.forall₂_cons_left_iff.mp hrest
    obtain rfl := List.forall₂_nil_left_iff.mp hnone
    have hone : (1 : Int).natAbs < 10 ^ 38 := by decide
    have houtputs : (PyVal.dict (Outputs.dump
        ([first, second].map (Worker.thumbnailOutput j)))).Storable := Outputs.storable ?_
    · rw [PyVal.Storable] at houtputs
      exact ⟨trivial, houtputs, hone, hone⟩
    intro kv hkv
    simp only [List.map_cons, List.map_nil, List.mem_cons, List.not_mem_nil, or_false] at hkv
    obtain rfl | rfl := hkv
    · exact storable_thumbnail j (by decide) hfirst
    · exact storable_thumbnail j (by decide) hsecond
  size _ := fun _ _ _ _ _ => rfl

/-- Every handling of the white pixel concludes. -/
theorem handling_concludes_dotGif :
    Digestible small (fun _ => false) config.thumbnailSizes jobId (itemOf fresh) dotGif ∧
      ∀ res s', Steps (undisturbed small fun _ => false)
        ((Worker.build config).handleMessage small delivery) (holding (itemOf fresh)) (.ret res) s' →
        Concluded jobId messageId res s' :=
  ⟨digestible_dotGif _ _,
    (handling_concludes small_caught (awaiting_fresh openImage) (roomy _ _)).mpr
      (digestible_dotGif _ _)⟩

/-- The white pixel, with a sensor reading that is no number in its EXIF directory. -/
def glitched : Picture := { dot with exif := some ⟨[(0x829A, .float .nan)], some []⟩ }

def openGlitched (_ : Nat) (_ : Bytes) : Except Exc Picture := .ok glitched

theorem caught_glitched : (opening openGlitched).Caught where
  openImage := by
    intro seed data e h
    cases h
  renderOne := by
    intro seed p size e h
    cases h

/-- The handling of it in which nothing fails. -/
def handleGlitched : Py Outcome := do
  ask (.bindJobContext jobId)
  Fallible.tryFinally ((Worker.build config).process (opening openGlitched) message messageId)
    (ask .clearJobContext)

/-- The surroundings' part in it: the time of `mark_processing` and of `mark_complete`. -/
def glitchedChoices : List Choice :=
  let quiet : Choice := {}
  let stamped : Choice := { text := clock }
  [quiet, quiet, stamped] ++ List.replicate 19 quiet ++ [stamped, quiet, quiet, quiet]

/-- Whether a program has returned `RETRY`. -/
def returnedRetry : Prog Request Request.Resp (Except Exc Outcome) → Bool
  | .ret (.ok .retry) => true
  | _ => false

/-- Nothing fails, and DynamoDB refuses the reading: the delivery is kept for another try. -/
theorem glitched_is_retried : (opening openGlitched).Caught ∧
    ∃ s', Steps (undisturbed (opening openGlitched) fun _ => false)
      ((Worker.build config).handleMessage (opening openGlitched) delivery) (holding (itemOf fresh))
      (.ret (.ok .retry)) s' ∧ ¬ Concluded jobId messageId (.ok .retry) s' := by
  have hbody : (Worker.build config).handleMessage (opening openGlitched) delivery =
      handleGlitched := Worker.handleMessage_of_job (job_opening openGlitched) (le_refl _)
  have hplay : ((Prog.play (Cloud.undisturbed (opening openGlitched) fun _ => false) handleGlitched
      (holding (itemOf fresh)) glitchedChoices).any fun x => returnedRetry x.1) = true := by
    rfl
  obtain ⟨⟨p, s', h⟩, hrun, hretry⟩ := (Option.any_eq_true _ _).mp hplay
  have hp : p = .ret (.ok .retry) := by
    unfold returnedRetry at hretry
    split at hretry
    · rename_i hp
      exact hp
    · cases hretry
  refine ⟨caught_glitched, s', ?_, ?_⟩
  · rw [hbody, ← hp]
    exact Prog.play_answered (fun _ _ ch _ _ hs => ⟨ch, hs⟩) hrun
  · rintro ⟨⟨hr, -⟩ | ⟨hr, -⟩, -⟩ <;> cases Except.ok.inj hr

end Surroundings

end PixelForge
