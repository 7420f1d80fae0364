import PixelForge.Shared.Journal
import PixelForge.Worker.Consumer

/-! # What a worker may ask, and when

`WorkerMay w ext msg t q`: with the journal `t`, the handling of `msg` may ask `q`. The message is
deleted only when it is `Settled`; the record is moved only in the order of the pipeline; what is
uploaded and recorded was rendered from what was downloaded.

`handleMessage_keeps` shows that `Worker.handleMessage` keeps to this whatever it is answered.
-/
set_option autoImplicit false

namespace PixelForge
open Effects

/-! ## Events -/

abbrev readOk (j : String) (it : Option Item) : Ev := ⟨.getItem j, .ok it⟩
abbrev fetchOk (b k : String) (data : Bytes) : Ev := ⟨.getObject b k, .ok data⟩
abbrev putOk (b k : String) (data : Bytes) (ct : String) : Ev := ⟨.putObject b k data ct, .ok ()⟩
abbrev updateOk (j : String) (u : Update) : Ev := ⟨.updateItem j u, .ok ()⟩
abbrev updateErr (j : String) (u : Update) (e : Exc) : Ev := ⟨.updateItem j u, .error e⟩
abbrev deleteOk (r : String) : Ev := ⟨.deleteMessage r, .ok ()⟩
abbrev countOk (status : String) : Ev := ⟨.metric (.jobsProcessed status), .ok ()⟩

/-- Whether a request is a `mark_complete` or `mark_failed` write. -/
def Request.isTerminalWrite : Request → Bool
  | .updateItem _ u => u.target.any JobStatus.isTerminal
  | _ => false

/-! ## What the journal shows -/

section Facts

variable (w : Worker) (ext : Externals) (msg : RawMessage) (job : JobMessage) (t : List Ev)

/-- `mark_processing` was applied. -/
def Won : Prop := ∃ now, updateOk job.jobId (processingUpdate now) ∈ t

/-- `get_job` returned a record that is not `COMPLETE`. -/
def Looked : Prop :=
  ∃ it r, readOk job.jobId it ∈ t ∧ JobTable.decodeItem ext.intOfStr it = .ok (some r) ∧
    r.status ≠ .complete

/-- **The reasons for deleting a message.** -/
inductive Settled : Prop
  | missing {it : Option Item} (h : readOk job.jobId it ∈ t)
      (hd : JobTable.decodeItem ext.intOfStr it = .ok none)
  | alreadyComplete {it : Option Item} {r : JobRecord} (h : readOk job.jobId it ∈ t)
      (hd : JobTable.decodeItem ext.intOfStr it = .ok (some r)) (hr : r.status = .complete)
  | lostRace {now : String} {e : Exc} (h : updateErr job.jobId (processingUpdate now) e ∈ t)
      (he : e.isConditionFailed = true)
  | complete {p : ProcessedOutputs} {ms : Int} {now : String}
      (h : updateOk job.jobId (completeUpdate p ms now) ∈ t)
  | failed {reason now : String} (h : updateOk job.jobId (failedUpdate reason now) ∈ t)

/-- `th` was rendered from `data`, one of the configured sizes. -/
structure Rendered (data : Bytes) (th : RenderedThumbnail) : Prop where
  size : th.size ∈ w.config.thumbnailSizes
  renders : ext.Renders data th.size ⟨th.data, th.width, th.height⟩

/-- The upload of `th` under the key of its size. -/
def uploaded (th : RenderedThumbnail) : Ev :=
  putOk w.clients.store.bucket (outputKey job.jobId th.size) th.data thumbnailContentType

/-- Every output was rendered from the downloaded original and uploaded. -/
structure Produced (p : ProcessedOutputs) (data : Bytes) (pic : Picture)
    (thumbs : List RenderedThumbnail) : Prop where
  fetched : fetchOk w.clients.store.bucket job.inputKey data ∈ t
  opens : ext.Opens data pic
  sizes : thumbs.map (·.size) = sortedSizes w.config.thumbnailSizes
  rendered : ∀ th ∈ thumbs, Rendered w ext data th
  uploads : ∀ th ∈ thumbs, uploaded w job th ∈ t
  extracts : extractExif ext pic.exif = .ok p.exif
  eq : p = ⟨thumbs.map (Worker.thumbnailOutput job.jobId), p.exif, pic.width, pic.height,
    pic.sourceFormat⟩

/-- The three updates of a worker, and when each is due. -/
inductive UpdateDue (t : List Ev) : Update → Prop
  | processing (now : String) (hnew : ∀ v ∈ t, v.1.isTerminalWrite = false)
      (hb : job.bucket = w.config.s3Bucket) : UpdateDue t (processingUpdate now)
  | complete {p : ProcessedOutputs} {data : Bytes} {pic : Picture}
      {thumbs : List RenderedThumbnail} (ms : Int) (now : String) (hwon : Won job t)
      (hp : Produced w ext job t p data pic thumbs)
      (hnew : ∀ v ∈ t, v.1.isTerminalWrite = true →
        v.1 = .updateItem job.jobId (completeUpdate p ms now)) :
      UpdateDue t (completeUpdate p ms now)
  | failed (reason now : String) (hwon : Won job t ∨ job.bucket ≠ w.config.s3Bucket)
      (hnew : ∀ v ∈ t, v.1.isTerminalWrite = true →
        v.1 = .updateItem job.jobId (failedUpdate reason now)) :
      UpdateDue t (failedUpdate reason now)

/-- When an increment of `jobs_processed` is due. -/
inductive CountDue : String → Prop
  | malformed (h : msg.job? ext = none) : CountDue "failed"
  | missing {job : JobMessage} {it : Option Item} (hj : msg.job? ext = some job)
      (h : readOk job.jobId it ∈ t) (hd : JobTable.decodeItem ext.intOfStr it = .ok none) :
      CountDue "failed"
  | failed {job : JobMessage} {reason now : String} (hj : msg.job? ext = some job)
      (h : updateOk job.jobId (failedUpdate reason now) ∈ t) : CountDue "failed"
  | complete {job : JobMessage} {p : ProcessedOutputs} {ms : Int} {now : String}
      (hj : msg.job? ext = some job) (h : updateOk job.jobId (completeUpdate p ms now) ∈ t)
      (hd : deleteOk msg.receipt ∈ t) : CountDue "complete"

end Facts

/-- **The discipline of a worker.** -/
def WorkerMay (w : Worker) (ext : Externals) (msg : RawMessage) (t : List Ev) : Request → Prop
  | .getItem j => t = [] ∧ ∃ job, msg.job? ext = some job ∧ j = job.jobId
  | .updateItem j u => ∃ job, msg.job? ext = some job ∧ j = job.jobId ∧ Looked ext job t ∧
      UpdateDue w ext job t u
  | .getObject b k => ∃ job, msg.job? ext = some job ∧ Won job t ∧
      b = w.clients.store.bucket ∧ k = job.inputKey
  | .putObject b k body ct => ∃ job data th, msg.job? ext = some job ∧ Won job t ∧
      fetchOk w.clients.store.bucket job.inputKey data ∈ t ∧ Rendered w ext data th ∧
      b = w.clients.store.bucket ∧ k = outputKey job.jobId th.size ∧ body = th.data ∧
      ct = thumbnailContentType
  | .deleteMessage r => r = msg.receipt ∧ ∀ job, msg.job? ext = some job → Settled ext job t
  | .metric (.jobsProcessed status) =>
      CountDue ext msg t status ∧ ∀ status', countOk status' ∉ t
  | .putItem _ => False
  | .sendMessage _ _ => False
  | .receiveMessage _ _ => False
  | .changeMessageVisibility _ _ => False
  | .headBucket _ => False
  | .getQueueAttributes => False
  | .uuid4 => False
  | _ => True

/-- What holds when the handling returns. -/
def WorkerDone (ext : Externals) (msg : RawMessage) : Outcome → List Ev → Prop
  | .completed, t => ∃ job p ms now t₁ t₂, msg.job? ext = some job ∧
      t = t₁ ++ deleteOk msg.receipt :: t₂ ∧ updateOk job.jobId (completeUpdate p ms now) ∈ t₂
  | .malformed, _ => msg.job? ext = none
  | _, _ => True

theorem workerMay_silent (w : Worker) (ext : Externals) (msg : RawMessage) (t : List Ev)
    (q : Request) (hq : q.isSilent = true) : WorkerMay w ext msg t q := by
  cases q with
  | metric m => cases m <;> trivial
  | _ => trivial

end PixelForge
