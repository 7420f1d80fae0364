import PixelForge.Api.Service

/-! # The job endpoints (`api/routes/jobs.py`) and the exception handlers (`api/main.py`)

`Routes.postJobs` is the handler of an upload with the handlers that FastAPI calls for what it
raises. An exception for which no handler is registered goes on to the server, which answers 500.

Spans and logging are left out, and so is the fault injection that runs before the handlers.
-/
set_option autoImplicit false

namespace PixelForge
open Effects

structure Response where
  status : Nat
  content : PyDict
deriving Repr

/-- The multipart file part: what one `read(_CHUNK_BYTES)` after another gives. The reading is
Starlette's, and raises none of the repository's exceptions. -/
structure UploadFile where
  reads : List (Except Exc Bytes)
  filename : Option String
  contentType : Option String
  foreign : ∀ e, .error e ∈ reads → e.isOwn = false

namespace Routes

/-! ## The declared length -/

/-- `str.isdigit` of a header value, which is Latin-1: the ASCII digits and `¹²³`. -/
def isdigit (s : String) : Bool :=
  s ≠ "" && s.toList.all fun c => c.isDigit || c == '¹' || c == '²' || c == '³'

/-- `int(s)` where `s.isdigit()`: superscripts are no digits to it, and 4300 digits are its limit. -/
def intOfDigits (s : String) : Except Exc Int :=
  if s.toList.all Char.isDigit ∧ s.length ≤ 4300 then
    .ok (s.toList.foldl (fun n c => 10 * n + (c.toNat - 48)) (0 : Nat))
  else .error (.python .valueError s!"invalid literal for int() with base 10: {s}")

theorem intOfDigits_of_digits {s : String} (hdigits : s.toList.all Char.isDigit = true)
    (hshort : s.length ≤ 4300) : intOfDigits s =
      .ok (s.toList.foldl (fun n c => 10 * n + (c.toNat - 48)) (0 : Nat)) := if_pos ⟨hdigits, hshort⟩

def multipartOverheadBytes : Int := 8192

/-- The rejection of an upload that is too large, before and while it is read. -/
def tooLarge (maxBytes : Int) : Exc :=
  .uploadRejected s!"file exceeds the {maxBytes} byte limit" 413 "payload_too_large"
    "rejected_too_large"

/-- The check of the `Content-Length` header. -/
def checkDeclaredLength (maxBytes : Int) : Option String → Py Unit
  | none => pure ()
  | some declared =>
    if isdigit declared then
      match intOfDigits declared with
      | .error e => Fallible.raise e
      | .ok n =>
        if n > maxBytes + multipartOverheadBytes then Fallible.raise (tooLarge maxBytes) else pure ()
    else pure ()

/-! ## `POST /api/v1/jobs` -/

/-- The loop of `_read_limited`. -/
def readLoop (maxBytes : Int) (chunks : List Bytes) (total : Nat) :
    List (Except Exc Bytes) → Py Bytes
  | [] => pure chunks.flatten
  | .error e :: _ => Fallible.raise e
  | .ok chunk :: reads =>
    if chunk = [] then pure chunks.flatten
    else if ((total + chunk.length : Nat) : Int) > maxBytes then
      Fallible.raise (tooLarge maxBytes)
    else readLoop maxBytes (chunks ++ [chunk]) (total + chunk.length) reads

def readLimited (file : UploadFile) (maxBytes : Int) : Py Bytes := readLoop maxBytes [] 0 file.reads

variable (svc : JobService) (ext : Externals)

/-- The `try` of `create_job`, whose errors are counted, rejections apart. -/
def accept (file : UploadFile) : Py JobRecord :=
  Fallible.tryExcept
    (do
      let data ← readLimited file svc.config.maxUploadBytes
      svc.createJob ext ⟨data, file.filename, file.contentType⟩)
    fun
    | .uploadRejected detail status code metricResult =>
      Fallible.raise (.uploadRejected detail status code metricResult)
    | e => do
      ask (.metric (.uploads "error"))
      Fallible.raise e

def createJob (contentLength : Option String) (file : UploadFile) : Py Response := do
  checkDeclaredLength svc.config.maxUploadBytes contentLength
  let record ← accept svc ext file
  pure ⟨202, [("job_id", .str record.jobId), ("status", .str record.status.value)]⟩

/-- The body of an error response. -/
def errorBody (detail code : String) : PyDict := [("detail", .str detail), ("code", .str code)]

/-- The exception handlers. -/
def handleException : Exc → Py Response
  | .uploadRejected detail status code metricResult => do
    ask (.metric (.uploads metricResult))
    pure ⟨status, errorBody detail code⟩
  | .enqueueFailed _ =>
    pure ⟨503, errorBody "job could not be queued for processing; retry" "enqueue_failed"⟩
  | .transientDependency _ _ =>
    pure ⟨503, errorBody "a required dependency is unavailable; retry" "dependency_unavailable"⟩
  | e => Fallible.raise e

def postJobs (contentLength : Option String) (file : UploadFile) : Py Response :=
  Fallible.tryExcept (createJob svc ext contentLength file) handleException

/-! ## `GET /api/v1/jobs/{job_id}` -/

def getJob (jobId : String) : Py Response :=
  Fallible.tryExcept
    (do
      let record ← svc.getJob ext jobId
      match record with
      | none => pure ⟨404, errorBody s!"no job with id {jobId}" "job_not_found"⟩
      | some r => pure ⟨200, r.publicView⟩)
    handleException

end Routes

end PixelForge
