import PixelForge.Shared.Images

/-! # The upload service (`api/service.py`)

`createJob`: validate, store the object, write the record, enqueue the message, and when the
enqueue raises, overwrite the record with `FAILED`.
-/
set_option autoImplicit false

namespace PixelForge
open Effects

/-- What a client sends. -/
structure Upload where
  data : Bytes
  filename : Option String
  contentType : Option String
deriving DecidableEq, Repr

/-! ## Validation -/

/-- `[\x00-\x1f\x7f/\\]`. -/
def isUnsafeFilenameChar (c : Char) : Bool :=
  c.toNat < 32 || c.toNat == 127 || c == '/' || c == '\\'

/-- `s.replace("..", "")`. -/
def removeDoubleDots : List Char → List Char
  | '.' :: '.' :: rest => removeDoubleDots rest
  | c :: rest => c :: removeDoubleDots rest
  | [] => []

def sanitiseFilename : Option String → String
  | none => "upload"
  | some filename =>
    if filename = "" then "upload"
    else
      let cleaned := strip (filename.toList.filter fun c => !isUnsafeFilenameChar c)
      let kept := (removeDoubleDots cleaned).take 255
      if kept = [] then "upload" else String.ofList kept

/-- `(content_type or "").split(";")[0].strip().lower()`. -/
def normaliseContentType (ext : Externals) (contentType : Option String) : String :=
  ext.lower (String.ofList (strip ((contentType.getD "").toList.takeWhile (· != ';'))))

/-- `sorted(ALLOWED_CONTENT_TYPES)`, printed. -/
def allowedContentTypesText : String :=
  "['image/bmp', 'image/gif', 'image/jpeg', 'image/jpg', 'image/png', 'image/tiff', 'image/webp']"

structure JobService where
  config : Config
  clients : AwsClients
deriving DecidableEq, Repr

/-- `JobService(config, AwsClients.build(config))`. -/
def JobService.build (config : Config) : JobService := ⟨config, .build config⟩

namespace JobService

variable (svc : JobService) (ext : Externals)

def validateUpload (contentType : Option String) (sizeBytes : Nat) : Py Unit :=
  if (sizeBytes : Int) > svc.config.maxUploadBytes then
    Fallible.raise (.uploadRejected
      s!"file exceeds the {svc.config.maxUploadBytes} byte limit ({sizeBytes} bytes received)"
      413 "payload_too_large" "rejected_too_large")
  else
    let normalised := normaliseContentType ext contentType
    if allowedContentTypes.contains normalised then pure ()
    else
      let shown := ext.reprStr (if normalised = "" then "unknown" else normalised)
      Fallible.raise (.uploadRejected
        s!"unsupported content type {shown}; expected one of {allowedContentTypesText}"
        415 "unsupported_media_type" "rejected_content_type")

/-- `probe_image`, with a rejected upload in place of an image error. -/
def probeUpload (data : Bytes) : Py ImageProbe :=
  Fallible.tryExcept (probeImage data) fun
    | .imageProcessing text =>
      Fallible.raise (.uploadRejected text 400 "invalid_image" "rejected_invalid_image")
    | e => Fallible.raise e

/-! ## `create_job` -/

/-- The key of an original. -/
def inputKey (jobId extension : String) : String :=
  "uploads/" ++ jobId ++ "/original" ++ extension

/-- The record of a new job. -/
def newRecord (u : Upload) (probe : ImageProbe) (jobId : String) (traceId : Option String)
    (createdAt updatedAt : String) : JobRecord where
  jobId := jobId
  status := .pending
  createdAt := createdAt
  updatedAt := some updatedAt
  filename := sanitiseFilename u.filename
  sizeBytes := u.data.length
  contentType := normaliseContentType ext u.contentType
  inputKey := inputKey jobId probe.extension
  sourceWidth := some probe.width
  sourceHeight := some probe.height
  sourceFormat := some probe.format
  traceId := traceId

/-- The message for a new record. -/
def newMessage (record : JobRecord) : JobMessage where
  jobId := record.jobId
  bucket := svc.config.s3Bucket
  inputKey := record.inputKey
  contentType := record.contentType
  filename := record.filename
  submittedAt := record.createdAt

/-- The record `_mark_unqueueable` overwrites with. -/
def unqueueable (record : JobRecord) (e : Exc) (updatedAt completedAt : String) : JobRecord :=
  { record with
    status := .failed
    error := some s!"could not enqueue job: {e.typeName}"
    updatedAt := some updatedAt
    completedAt := some completedAt }

def markUnqueueable (record : JobRecord) (e : Exc) : Py Unit :=
  Fallible.tryExcept
    (do
      let updatedAt : String ← ask .utcNow
      let completedAt : String ← ask .utcNow
      svc.clients.table.putJob (unqueueable record e updatedAt completedAt))
    fun _ => pure ()

/-- The enqueue, and the compensation when it raises. -/
def enqueue (u : Upload) (record : JobRecord) : Py JobRecord := do
  let context : List (String × String) ← ask .injectTraceContext
  let attributes := setKey context "job_id" record.jobId
  Fallible.tryElse
    (svc.clients.queue.sendJob ((svc.newMessage record).toJson ext) attributes)
    (fun e => do
      svc.markUnqueueable record e
      Fallible.raise (.enqueueFailed e.str))
    fun _messageId => do
      ask (.metric (.uploads "accepted"))
      ask (.metric (.uploadSize u.data.length))
      pure record

/-- The three writes: the object, the record, the message. -/
def submit (u : Upload) (record : JobRecord) : Py JobRecord := do
  svc.clients.store.putBytes record.inputKey u.data record.contentType
  svc.clients.table.putJob record
  svc.enqueue ext u record

def createJob (u : Upload) : Py JobRecord := do
  svc.validateUpload ext u.contentType u.data.length
  let probe ← probeUpload u.data
  let jobId : String ← ask .uuid4
  let traceId : Option String ← ask .currentTraceId
  let createdAt : String ← ask .utcNow
  let updatedAt : String ← ask .utcNow
  svc.submit ext u (newRecord ext u probe jobId traceId createdAt updatedAt)

/-! ## `get_job` -/

/-- `is_valid_job_id`: hexadecimal digits of either case, and `$` also matches before a final
newline. -/
def isValidJobId (jobId : String) : Bool :=
  let chars := jobId.toList
  let body := if chars.length = 37 ∧ chars.getLast? = some '\n' then chars.dropLast else chars
  body.length == 36 && body.zipIdx.all fun (c, i) =>
    if i == 8 || i == 13 || i == 18 || i == 23 then c == '-'
    else ('0' ≤ c && c ≤ '9') || ('a' ≤ c && c ≤ 'f') || ('A' ≤ c && c ≤ 'F')

def getJob (jobId : String) : Py (Option JobRecord) :=
  if isValidJobId jobId then svc.clients.table.getJob ext.intOfStr jobId else pure none

end JobService

end PixelForge
