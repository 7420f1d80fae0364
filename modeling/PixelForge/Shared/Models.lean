import PixelForge.Shared.Values

/-! # Data contracts (`shared/models.py`)

The DynamoDB item (`JobRecord`) and the SQS message body (`JobMessage`), as pydantic validates and
dumps them. `intOfStr` is pydantic's reading of a numeric string where an `int` is expected.
-/
set_option autoImplicit false

namespace PixelForge

def messageSchemaVersion : Int := 1

inductive JobStatus
  | pending
  | processing
  | complete
  | failed
deriving DecidableEq, Repr

namespace JobStatus

def value : JobStatus → String
  | pending => "PENDING"
  | processing => "PROCESSING"
  | complete => "COMPLETE"
  | failed => "FAILED"

def isTerminal : JobStatus → Bool
  | complete => true
  | failed => true
  | _ => false

/-- `JobStatus(value)`, `none` when pydantic refuses the value. -/
def ofValue? (s : String) : Option JobStatus :=
  if s = "PENDING" then some pending
  else if s = "PROCESSING" then some processing
  else if s = "COMPLETE" then some complete
  else if s = "FAILED" then some failed
  else none

theorem ofValue?_value (st : JobStatus) : ofValue? st.value = some st := by
  cases st <;> rfl

theorem eq_value_of_ofValue? {s : String} {st : JobStatus} (h : ofValue? s = some st) :
    s = st.value := by
  unfold ofValue? at h
  split_ifs at h with h₁ h₂ h₃ h₄ <;> cases h <;> assumption

end JobStatus

/-! ## Reading a field -/

section Fields

variable (intOfStr : String → Option Int)

/-- pydantic's `int`, in its lax mode. Of the whole floats it takes those that fit 64 bits. -/
def asInt : PyVal → Option Int
  | .int n => some n
  | .bool b => some (if b then 1 else 0)
  | .float (.finite q) =>
    if q.den = 1 ∧ -2 ^ 63 < q.num ∧ q.num < 2 ^ 63 then some q.num else none
  | .str s => intOfStr s
  | _ => none

/-- A required `str` field. -/
def readStr (d : PyDict) (name : String) : Option String :=
  match d.lookup name with
  | some (.str s) => some s
  | _ => none

/-- A required `int` field. -/
def readInt (d : PyDict) (name : String) : Option Int := (d.lookup name).bind (asInt intOfStr)

/-- A field of type `str | None` with default `None`. -/
def readOptStr (d : PyDict) (name : String) : Option (Option String) :=
  match d.lookup name with
  | none => some none
  | some .none => some none
  | some (.str s) => some (some s)
  | some _ => none

/-- A field of type `int | None` with default `None`. -/
def readOptInt (d : PyDict) (name : String) : Option (Option Int) :=
  match d.lookup name with
  | none => some none
  | some .none => some none
  | some v => (asInt intOfStr v).map some

/-- A field of type `dict[str, Any] | None` with default `None`. -/
def readOptDict (d : PyDict) (name : String) : Option (Option PyDict) :=
  match d.lookup name with
  | none => some none
  | some .none => some none
  | some (.dict kvs) => some (some kvs)
  | some _ => none

end Fields

/-- The entries of a dict under none of `names`: what `extra="allow"` keeps. -/
def extras (names : List String) (d : PyDict) : PyDict := d.filter fun kv => !names.contains kv.1

/-- `exclude_none` for one field. -/
def dumpOpt {α : Type} (name : String) (f : α → PyVal) : Option α → PyDict
  | none => []
  | some a => [(name, f a)]

/-- `exclude_none` for the values of a model. -/
def excludeNone : PyDict → PyDict
  | [] => []
  | (_, .none) :: kvs => excludeNone kvs
  | kv :: kvs => kv :: excludeNone kvs

/-! ## `mode="json"` -/

/-- The places after the point of a decimal fraction. -/
def decimalPlaces (q : Rat) : Nat :=
  ((List.range (q.den.log2 + 1)).find? fun k => 10 ^ k % q.den = 0).getD 0

/-- `str` of a `Decimal` written without an exponent or trailing zeros: it is known by its value. -/
def PyFloat.decimalText : PyFloat → String
  | .nan => "NaN"
  | .inf negative => if negative then "-Infinity" else "Infinity"
  | .finite q =>
    let places := decimalPlaces q
    let scaled := q.num.natAbs * 10 ^ places / q.den
    let sign := if q < 0 then "-" else ""
    let whole := sign ++ toString (scaled / 10 ^ places)
    if places = 0 then whole
    else whole ++ "." ++ String.ofList
      ((Nat.toDigits 10 (scaled % 10 ^ places)).leftpad places '0')

mutual
/-- A value of type `Any` under `model_dump(mode="json")`. -/
def PyVal.jsonMode : PyVal → PyVal
  | .float .nan => .none
  | .float (.inf _) => .none
  | .decimal x => .str x.decimalText
  | .list vs => .list (jsonModeList vs)
  | .tuple vs => .list (jsonModeList vs)
  | .dict kvs => .dict (jsonModeDict kvs)
  | v => v

def jsonModeList : List PyVal → List PyVal
  | [] => []
  | v :: vs => v.jsonMode :: jsonModeList vs

def jsonModeDict : PyDict → PyDict
  | [] => []
  | (k, v) :: kvs => (k, v.jsonMode) :: jsonModeDict kvs
end

/-! ## `ThumbnailOutput` -/

structure ThumbnailOutput where
  size : Int
  key : String
  width : Int
  height : Int
  bytes : Int
  extra : PyDict := []
deriving Repr

namespace ThumbnailOutput

def fieldNames : List String := ["size", "key", "width", "height", "bytes"]

/-- The declared fields, which are never `None`. -/
def fields (t : ThumbnailOutput) : PyDict :=
  [("size", .int t.size), ("key", .str t.key), ("width", .int t.width), ("height", .int t.height),
    ("bytes", .int t.bytes)]

/-- `model_dump(mode="json")`. -/
def dump (t : ThumbnailOutput) : PyDict := t.fields ++ jsonModeDict t.extra

/-- `model_dump(mode="json", exclude_none=True)`: what is `None` is left out before it is dumped. -/
def view (t : ThumbnailOutput) : PyDict := t.fields ++ jsonModeDict (excludeNone t.extra)

/-- Validation of one entry of `outputs`. -/
def ofVal? (intOfStr : String → Option Int) : PyVal → Option ThumbnailOutput
  | .dict d => do
    let size ← readInt intOfStr d "size"
    let key ← readStr d "key"
    let width ← readInt intOfStr d "width"
    let height ← readInt intOfStr d "height"
    let bytes ← readInt intOfStr d "bytes"
    pure ⟨size, key, width, height, bytes, extras fieldNames d⟩
  | _ => none

end ThumbnailOutput

/-- The `outputs` attribute: thumbnails by the decimal string of their size. -/
abbrev Outputs : Type := List (String × ThumbnailOutput)

/-- `{key: value.model_dump(mode="json") for key, value in outputs.items()}`. -/
def Outputs.dump : Outputs → PyDict
  | [] => []
  | (k, t) :: kvs => (k, .dict t.dump) :: Outputs.dump kvs

/-- `{key: value.model_dump(mode="json", exclude_none=True) for key, value in outputs.items()}`. -/
def Outputs.view : Outputs → PyDict
  | [] => []
  | (k, t) :: kvs => (k, .dict t.view) :: Outputs.view kvs

/-- Validation of a `dict[str, ThumbnailOutput]`. -/
def Outputs.ofDict? (intOfStr : String → Option Int) : PyDict → Option Outputs
  | [] => some []
  | (k, v) :: kvs => do
    let t ← ThumbnailOutput.ofVal? intOfStr v
    let rest ← Outputs.ofDict? intOfStr kvs
    pure ((k, t) :: rest)

/-- The `outputs` field, of type `dict[str, ThumbnailOutput] | None` with default `None`. -/
def readOutputs (intOfStr : String → Option Int) (d : PyDict) : Option (Option Outputs) :=
  (readOptDict d "outputs").bind fun
    | none => some none
    | some o => (Outputs.ofDict? intOfStr o).map some

/-! ## `JobRecord` -/

structure JobRecord where
  jobId : String
  status : JobStatus
  createdAt : String
  filename : String
  sizeBytes : Int
  contentType : String
  inputKey : String
  updatedAt : Option String := none
  startedAt : Option String := none
  completedAt : Option String := none
  outputs : Option Outputs := none
  exif : Option PyDict := none
  sourceWidth : Option Int := none
  sourceHeight : Option Int := none
  sourceFormat : Option String := none
  processingMs : Option Int := none
  error : Option String := none
  traceId : Option String := none
  extra : PyDict := []
deriving Repr

namespace JobRecord

def fieldNames : List String :=
  ["job_id", "status", "created_at", "filename", "size_bytes", "content_type", "input_key",
    "updated_at", "started_at", "completed_at", "outputs", "exif", "source_width",
    "source_height", "source_format", "processing_ms", "error", "trace_id"]

/-- `model_dump(mode="json", exclude_none=True)`. -/
def modelDump (r : JobRecord) : PyDict :=
  [("job_id", .str r.jobId), ("status", .str r.status.value), ("created_at", .str r.createdAt),
    ("filename", .str r.filename), ("size_bytes", .int r.sizeBytes),
    ("content_type", .str r.contentType), ("input_key", .str r.inputKey)] ++
  dumpOpt "updated_at" .str r.updatedAt ++ dumpOpt "started_at" .str r.startedAt ++
  dumpOpt "completed_at" .str r.completedAt ++
  dumpOpt "outputs" (fun o => .dict (Outputs.view o)) r.outputs ++
  dumpOpt "exif" (fun d => .dict (jsonModeDict d)) r.exif ++
  dumpOpt "source_width" .int r.sourceWidth ++ dumpOpt "source_height" .int r.sourceHeight ++
  dumpOpt "source_format" .str r.sourceFormat ++ dumpOpt "processing_ms" .int r.processingMs ++
  dumpOpt "error" .str r.error ++ dumpOpt "trace_id" .str r.traceId ++
  jsonModeDict (excludeNone r.extra)

/-- `to_item`: the status is set again, to the value it has in the dump. -/
def toItem (r : JobRecord) : PyDict := r.modelDump

/-- `public_view`. -/
def publicView (r : JobRecord) : PyDict := r.modelDump

/-- The validated record, `none` when pydantic refuses the item. -/
def ofDict? (intOfStr : String → Option Int) (d : PyDict) : Option JobRecord := do
  let jobId ← readStr d "job_id"
  let status ← (readStr d "status").bind JobStatus.ofValue?
  let createdAt ← readStr d "created_at"
  let filename ← readStr d "filename"
  let sizeBytes ← readInt intOfStr d "size_bytes"
  let contentType ← readStr d "content_type"
  let inputKey ← readStr d "input_key"
  let updatedAt ← readOptStr d "updated_at"
  let startedAt ← readOptStr d "started_at"
  let completedAt ← readOptStr d "completed_at"
  let outputs ← readOutputs intOfStr d
  let exif ← readOptDict d "exif"
  let sourceWidth ← readOptInt intOfStr d "source_width"
  let sourceHeight ← readOptInt intOfStr d "source_height"
  let sourceFormat ← readOptStr d "source_format"
  let processingMs ← readOptInt intOfStr d "processing_ms"
  let error ← readOptStr d "error"
  let traceId ← readOptStr d "trace_id"
  pure { jobId, status, createdAt, filename, sizeBytes, contentType, inputKey, updatedAt, startedAt,
         completedAt, outputs, exif, sourceWidth, sourceHeight, sourceFormat, processingMs, error,
         traceId, extra := extras fieldNames d }

def fromItem (intOfStr : String → Option Int) (d : PyDict) : Except Exc JobRecord :=
  match ofDict? intOfStr d with
  | some r => .ok r
  | none => .error (.validation "JobRecord")

end JobRecord

/-! ## `JobMessage` -/

/-- Fields of a newer schema are accepted (`extra="allow"`) and never read. -/
structure JobMessage where
  schemaVersion : Int := messageSchemaVersion
  jobId : String
  bucket : String
  inputKey : String
  contentType : String
  filename : String
  submittedAt : String
deriving DecidableEq, Repr

namespace JobMessage

/-- The object that `model_dump_json` writes. -/
def dump (m : JobMessage) : PyDict :=
  [("schema_version", .int m.schemaVersion), ("job_id", .str m.jobId), ("bucket", .str m.bucket),
    ("input_key", .str m.inputKey), ("content_type", .str m.contentType),
    ("filename", .str m.filename), ("submitted_at", .str m.submittedAt)]

/-- `schema_version` defaults to `MESSAGE_SCHEMA_VERSION`. -/
def readVersion (intOfStr : String → Option Int) (d : PyDict) : Option Int :=
  match d.lookup "schema_version" with
  | none => some messageSchemaVersion
  | some v => asInt intOfStr v

/-- The validated message, `none` when pydantic refuses the object. -/
def ofDict? (intOfStr : String → Option Int) (d : PyDict) : Option JobMessage := do
  let schemaVersion ← readVersion intOfStr d
  let jobId ← readStr d "job_id"
  let bucket ← readStr d "bucket"
  let inputKey ← readStr d "input_key"
  let contentType ← readStr d "content_type"
  let filename ← readStr d "filename"
  let submittedAt ← readStr d "submitted_at"
  pure { schemaVersion, jobId, bucket, inputKey, contentType, filename, submittedAt }

theorem ofDict?_dump (intOfStr : String → Option Int) (m : JobMessage) :
    ofDict? intOfStr m.dump = some m := rfl

end JobMessage

end PixelForge
