import PixelForge.Shared.Images

/-! # The worker (`worker/consumer.py`)

`Worker.handleMessage` is one delivery: decode, look the job up, win the transition to
`PROCESSING`, render, upload, mark the record and delete the message.

Logging and spans are left out. The heartbeat runs in a thread of its own and only moves the
visibility deadline; here it is started and stopped.
-/
set_option autoImplicit false

namespace PixelForge
open Effects

inductive Outcome
  | completed
  | failed
  | skippedDuplicate
  | retry
  | malformed
deriving DecidableEq, Repr

structure Worker where
  config : Config
  clients : AwsClients
deriving DecidableEq, Repr

/-- `Worker(config, AwsClients.build(config))`, as `build_worker` makes it. -/
def Worker.build (config : Config) : Worker := ⟨config, .build config⟩

/-- `str(message.get("ReceiptHandle", ""))`. -/
def RawMessage.receipt (msg : RawMessage) : String := msg.receiptHandle.getD ""

/-- The validated body, `none` when validation raises. -/
def RawMessage.job? (ext : Externals) (msg : RawMessage) : Option JobMessage :=
  JobMessage.ofJson? ext (msg.body.getD "")

/-- The key of one thumbnail. -/
def outputKey (jobId : String) (size : Nat) : String :=
  "outputs/" ++ jobId ++ "/thumb_" ++ toString size ++ ".jpg"

def thumbnailContentType : String := "image/jpeg"

def stage {α : Type} (name : String) (body : Py α) : Py α :=
  Fallible.tryFinally body (ask (.metric (.stageDuration name)))

/-- `temp_workspace`: a directory that is removed on every exit. -/
def tempWorkspace {α : Type} (body : Py α) : Py α := do
  ask .mkdtemp
  Fallible.tryFinally body (ask .rmtree)

namespace Worker

variable (w : Worker) (ext : Externals)

/-! ## `_render` -/

/-- What is recorded about one uploaded thumbnail. -/
def thumbnailOutput (jobId : String) (t : RenderedThumbnail) : String × ThumbnailOutput :=
  (toString t.size,
    { size := t.size, key := outputKey jobId t.size, width := t.width, height := t.height,
      bytes := t.bytesLen })

/-- One turn of the upload loop. -/
def upload (jobId : String) (t : RenderedThumbnail) : Py (String × ThumbnailOutput) := do
  w.clients.store.putBytes (outputKey jobId t.size) t.data thumbnailContentType
  pure (thumbnailOutput jobId t)

/-- Every thumbnail has another size, so the assignments to `outputs` are all new entries. -/
def render (job : JobMessage) : Py ProcessedOutputs :=
  tempWorkspace do
    let original ← stage "download" (w.clients.store.downloadTo job.inputKey)
    let r ← stage "process" (renderThumbnails ext original.1 w.config.thumbnailSizes)
    let outputs ← stage "upload" (Fallible.forEach (w.upload job.jobId) r.thumbnails)
    pure ⟨outputs, r.exif, r.width, r.height, r.sourceFormat⟩

/-! ## Failure paths -/

def deleteQuietly (receiptHandle : String) : Py Unit :=
  if receiptHandle = "" then pure ()
  else Fallible.tryExcept (w.clients.queue.delete receiptHandle) fun _ => pure ()

def failJob (jobId receiptHandle reason : String) : Py Outcome :=
  Fallible.tryElse (w.clients.table.markFailed jobId reason)
    (fun e => if e.isDependency then pure .retry else Fallible.raise e)
    fun _ => do
      ask (.metric (.jobsProcessed "failed"))
      w.deleteQuietly receiptHandle
      pure .failed

/-! ## `_process` -/

/-- `with VisibilityHeartbeat(...)`. -/
def withHeartbeat {α : Type} (receiptHandle jobId : String) (body : Py α) : Py α := do
  ask (.startHeartbeat receiptHandle jobId)
  Fallible.tryFinally body (ask .stopHeartbeat)

/-- The body of the `try` after a won transition. -/
def complete (job : JobMessage) (receiptHandle : String) : Py Outcome := do
  let processed ← withHeartbeat receiptHandle job.jobId (w.render ext job)
  let processingMs : Int ← ask .elapsedMs
  w.clients.table.markComplete job.jobId processed processingMs
  w.clients.queue.delete receiptHandle
  ask (.metric (.jobsProcessed "complete"))
  ask (.metric .jobDuration)
  pure .completed

/-- The `except` clauses of that `try`: a poison upload, and everything else. -/
def giveUp (job : JobMessage) (receiptHandle : String) : Exc → Py Outcome
  | .imageProcessing reason => do
    ask (.metric .jobDuration)
    w.failJob job.jobId receiptHandle reason
  | _ => pure .retry

/-- Everything after a won transition. -/
def attempt (job : JobMessage) (receiptHandle : String) : Py Outcome := do
  ask (.metric .jobsInflightInc)
  Fallible.tryFinally
    (Fallible.tryExcept (w.complete ext job receiptHandle) (w.giveUp job receiptHandle))
    (ask (.metric .jobsInflightDec))

/-- `f"message references unexpected bucket {job.bucket!r}"`. -/
def unexpectedBucket (bucket : String) : String :=
  s!"message references unexpected bucket {ext.reprStr bucket}"

def process (job : JobMessage) (receiptHandle : String) : Py Outcome :=
  Fallible.tryElse (w.clients.table.getJob ext.intOfStr job.jobId)
    (fun e => if e.isDependency then pure .retry else Fallible.raise e)
    fun
    | none => do
      ask (.metric (.jobsProcessed "failed"))
      w.deleteQuietly receiptHandle
      pure .failed
    | some record =>
      if record.status = .complete then do
        w.deleteQuietly receiptHandle
        pure .skippedDuplicate
      else if job.bucket ≠ w.config.s3Bucket then
        w.failJob job.jobId receiptHandle (unexpectedBucket ext job.bucket)
      else
        Fallible.tryElse (w.clients.table.markProcessing job.jobId)
          (fun e => if e.isDependency then pure .retry else Fallible.raise e)
          fun won =>
            if won then w.attempt ext job receiptHandle
            else do
              w.deleteQuietly receiptHandle
              pure .skippedDuplicate

def handleMessage (msg : RawMessage) : Py Outcome :=
  match msg.job? ext with
  | none => do
    ask (.metric (.jobsProcessed "failed"))
    w.deleteQuietly msg.receipt
    pure .malformed
  | some job =>
    if job.schemaVersion > messageSchemaVersion then pure .retry
    else do
      ask (.bindJobContext job.jobId)
      Fallible.tryFinally (w.process ext job msg.receipt) (ask .clearJobContext)

variable {w : Worker} {ext : Externals} {msg : RawMessage}

theorem handleMessage_of_job {job : JobMessage} (hjob : msg.job? ext = some job)
    (hversion : job.schemaVersion ≤ messageSchemaVersion) :
    w.handleMessage ext msg = (do
      ask (.bindJobContext job.jobId)
      Fallible.tryFinally (w.process ext job msg.receipt) (ask .clearJobContext) : Py Outcome) := by
  unfold handleMessage
  rw [hjob]
  exact if_neg (not_lt.mpr hversion)

end Worker

/-! ## What rendering asks -/

/-- The requests of `_render` and of the heartbeat around it. -/
def Request.isRendering : Request → Bool
  | .getObject _ _ => true
  | .readBody _ => true
  | .putObject _ _ _ _ => true
  | .openImage _ => true
  | .renderOne _ _ => true
  | .mkdtemp => true
  | .writeBytes _ => true
  | .readBytes _ => true
  | .rmtree => true
  | .startHeartbeat _ _ => true
  | .stopHeartbeat => true
  | .uniform _ => true
  | .sleep _ => true
  | .metric (.stageDuration _) => true
  | _ => false

theorem keeps_render {σ : Type} {I : Interface Request Request.Resp σ} {J : σ → Prop} {w : Worker}
    {ext : Externals} (hkeep : ∀ q : Request, q.isRendering = true → Fallible.Keeps I J (ask q))
    (job : JobMessage) (receipt : String) :
    Fallible.Keeps I J (Worker.withHeartbeat receipt job.jobId (w.render ext job)) := by
  have hretry : ∀ (q : Request) (policy : RetryPolicy) (operation : String), q.isRendering = true →
      Fallible.Keeps I J (callWithRetry policy operation noSwallow (ask q)) := by
    intro q policy operation hq
    refine keeps_callWithRetry (hkeep q hq) (fun q' hwait => hkeep q' ?_) policy operation noSwallow
    cases q' <;> first | rfl | cases hwait
  have hstage : ∀ {α : Type} {m : Py α} (name : String), Fallible.Keeps I J m →
      Fallible.Keeps I J (stage name m) := fun name hm =>
    hm.tryFinally (hkeep (.metric (.stageDuration name)) rfl)
  have hdownload : Fallible.Keeps I J (w.clients.store.downloadTo job.inputKey) :=
    .bind (.bind (hretry (.getObject ..) _ _ rfl) fun body => hkeep (.readBody body) rfl)
      fun payload => .bind (hkeep (.writeBytes payload) rfl) fun _ => .pure _
  have hrender : ∀ file, Fallible.Keeps I J (renderThumbnails ext file w.config.thumbnailSizes) :=
    fun file => .bind (hkeep (.readBytes file.contents) rfl) fun payload => .tryElse
      (.bind (hkeep (.openImage payload) rfl) fun p => .bind (.ofExcept _) fun exif =>
        .bind (.forEach (fun size => .bind (hkeep (.renderOne p size) rfl) fun _ => .pure _) _)
          fun _ => .pure _)
      (fun _ => .raise _) fun _ => .pure _
  have hupload : ∀ th, Fallible.Keeps I J (w.upload job.jobId th) := fun th =>
    .bind (hretry (.putObject ..) _ _ rfl) fun _ => .pure _
  refine .bind (hkeep (.startHeartbeat ..) rfl) fun _ => .tryFinally ?_ (hkeep .stopHeartbeat rfl)
  refine .bind (hkeep .mkdtemp rfl) fun _ => .tryFinally ?_ (hkeep .rmtree rfl)
  exact .bind (hstage _ hdownload) fun original => .bind (hstage _ (hrender _)) fun _ =>
    .bind (hstage _ (.forEach hupload _)) fun _ => .pure _

end PixelForge
