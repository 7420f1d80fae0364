import PixelForge.Shared.Config
import PixelForge.Shared.Retry

/-! # The AWS wrappers (`shared/aws.py`)

`S3Store`, `JobQueue` and `JobTable`: every operation is a boto3 call inside the retry ladder. The
bucket, the queue and the table are each the only one, so a queue URL and a table name are not part
of a request; a bucket name is.
-/
set_option autoImplicit false

namespace PixelForge
open Effects

def reachableDeniedCodes : List String :=
  ["AccessDenied", "AccessDeniedException", "Forbidden", "403", "AuthorizationError",
    "UnauthorizedOperation", "MissingAuthenticationToken", "InvalidClientTokenId"]

/-- The policy of the three readiness probes. -/
def probePolicy : RetryPolicy := { attempts := 2, baseDelay := 1 / 10, maxDelay := 1 / 2 }

/-- A readiness probe swallows the codes that prove the dependency answered. -/
def swallowDenied {α : Type} (value : α) (code : String) : Option α :=
  if reachableDeniedCodes.contains code then some value else none

/-! ## S3 -/

structure S3Store where
  bucket : String
  policy : RetryPolicy := defaultPolicy
deriving DecidableEq, Repr

/-- A file of the temporary workspace, with what was written to it. -/
structure LocalFile where
  contents : Bytes
deriving DecidableEq, Repr

namespace S3Store

variable (s : S3Store)

def putBytes (key : String) (data : Bytes) (contentType : String) : Py Unit :=
  callWithRetry s.policy "s3.put_object" noSwallow (ask (.putObject s.bucket key data contentType))

/-- The body is read after the ladder has returned. -/
def getBytes (key : String) : Py Bytes := do
  let body : Bytes ← callWithRetry s.policy "s3.get_object" noSwallow (ask (.getObject s.bucket key))
  ask (.readBody body)

/-- The written file and the number of bytes. -/
def downloadTo (key : String) : Py (LocalFile × Nat) := do
  let payload ← s.getBytes key
  ask (.writeBytes payload)
  pure (⟨payload⟩, payload.length)

def check : Py Unit :=
  callWithRetry probePolicy "s3.head_bucket" (swallowDenied ()) (ask (.headBucket s.bucket))

end S3Store

/-! ## SQS -/

structure JobQueue where
  policy : RetryPolicy := defaultPolicy
deriving DecidableEq, Repr

/-- `operation.split(".", 1)[-1]`. -/
def operationLabel (operation : String) : String :=
  match operation.toList.dropWhile (· != '.') with
  | [] => operation
  | _ :: rest => String.ofList rest

namespace JobQueue

variable (q : JobQueue)

/-- `_call`: the ladder, with a failure counted under the operation. -/
def call {α : Type} (operation : String) (func : Py α) : Py α :=
  Fallible.tryExcept (callWithRetry q.policy operation noSwallow func) fun e => do
    ask (.metric (.sqsErrors (operationLabel operation)))
    Fallible.raise e

/-- The message id. Attributes with an empty value are left out. -/
def sendJob (body : String) (attributes : List (String × String)) : Py String :=
  q.call "sqs.send_message"
    (ask (.sendMessage body (attributes.filter fun kv => kv.2 != "")))

def receive (maxMessages waitSeconds : Nat) : Py (List RawMessage) :=
  q.call "sqs.receive_message" (ask (.receiveMessage maxMessages waitSeconds))

def delete (receiptHandle : String) : Py Unit :=
  q.call "sqs.delete_message" (ask (.deleteMessage receiptHandle))

def changeVisibility (receiptHandle : String) (timeoutSeconds : Int) : Py Unit :=
  q.call "sqs.change_message_visibility"
    (ask (.changeMessageVisibility receiptHandle timeoutSeconds))

/-- The probe does not go through `_call`. -/
def check : Py Unit :=
  callWithRetry probePolicy "sqs.get_queue_attributes" (swallowDenied ()) (ask .getQueueAttributes)

end JobQueue

/-! ## DynamoDB -/

def readinessSentinelJobId : String := "__readiness_probe__"

/-- The update of `mark_processing`. -/
def processingUpdate (now : String) : Update where
  set := [("status", .str JobStatus.processing.value), ("started_at", .str now),
    ("updated_at", .str now)]
  remove := []
  condition := some (.and (.attributeExists "job_id") (.notEquals "status" JobStatus.complete.value))

/-- What a render produced, as `mark_complete` takes it. -/
structure ProcessedOutputs where
  outputs : Outputs
  exif : PyDict
  width : Int
  height : Int
  imageFormat : String
deriving Repr

/-- The update of `mark_complete`. -/
def completeUpdate (processed : ProcessedOutputs) (processingMs : Int) (now : String) : Update where
  set := toDynamoDict
    [("status", .str JobStatus.complete.value), ("outputs", .dict processed.outputs.dump),
      ("exif", .dict processed.exif), ("source_width", .int processed.width),
      ("source_height", .int processed.height), ("source_format", .str processed.imageFormat),
      ("processing_ms", .int processingMs), ("completed_at", .str now), ("updated_at", .str now)]
  remove := ["error"]
  condition := none

/-- `reason[:512]`. -/
def truncateReason (reason : String) : String := String.ofList (reason.toList.take 512)

/-- The update of `mark_failed`. -/
def failedUpdate (reason now : String) : Update where
  set := [("status", .str JobStatus.failed.value), ("error", .str (truncateReason reason)),
    ("completed_at", .str now), ("updated_at", .str now)]
  remove := []
  condition := none

/-- The status an update sets. -/
def Update.target (u : Update) : Option JobStatus :=
  match u.set.lookup "status" with
  | some (.str s) => JobStatus.ofValue? s
  | _ => none

@[simp] theorem target_processingUpdate (now : String) :
    (processingUpdate now).target = some .processing := rfl
@[simp] theorem target_completeUpdate (p : ProcessedOutputs) (ms : Int) (now : String) :
    (completeUpdate p ms now).target = some .complete := rfl
@[simp] theorem target_failedUpdate (reason now : String) :
    (failedUpdate reason now).target = some .failed := rfl

/-- Whether an exception is the `ClientError` for a false condition expression. -/
def Exc.isConditionFailed : Exc → Bool
  | .clientError code _ _ => code == conditionalCheckFailed
  | _ => false

structure JobTable where
  policy : RetryPolicy := defaultPolicy
deriving DecidableEq, Repr

namespace JobTable

variable (t : JobTable)

/-- `Item=_to_dynamo(record.to_item())`. -/
def recordItem (record : JobRecord) : PyDict := toDynamoDict record.toItem

theorem recordItem_status (record : JobRecord) :
    (recordItem record).lookup "status" = some (.str record.status.value) := rfl

def putJob (record : JobRecord) : Py Unit :=
  callWithRetry t.policy "dynamodb.put_item" noSwallow (ask (.putItem (recordItem record)))

/-- What `get_job` makes of the answer. -/
def decodeItem (intOfStr : String → Option Int) : Option Item → Except Exc (Option JobRecord)
  | none => .ok none
  | some [] => .ok none
  | some it => (JobRecord.fromItem intOfStr (fromDynamoDict it)).map some

theorem decodeItem_error {intOfStr : String → Option Int} {item : Option Item} {e : Exc}
    (h : decodeItem intOfStr item = .error e) : e = .validation "JobRecord" := by
  cases item with
  | none => cases h
  | some it =>
    cases it with
    | nil => cases h
    | cons kv it =>
      have hfrom := error_of_map_error h
      unfold JobRecord.fromItem at hfrom
      split at hfrom
      · cases hfrom
      · exact (Except.error.inj hfrom).symm

def getJob (intOfStr : String → Option Int) (jobId : String) : Py (Option JobRecord) := do
  let item : Option Item ←
    callWithRetry t.policy "dynamodb.get_item" noSwallow (ask (.getItem jobId))
  match decodeItem intOfStr item with
  | .ok record => pure record
  | .error e => Fallible.raise e

def updateItem (jobId : String) (u : Update) : Py Unit :=
  callWithRetry t.policy "dynamodb.update_item" noSwallow (ask (.updateItem jobId u))

/-- `True` when this caller won the transition. -/
def markProcessing (jobId : String) : Py Bool :=
  Fallible.tryElse
    (do
      let now : String ← ask .utcNow
      t.updateItem jobId (processingUpdate now))
    (fun e => if e.isConditionFailed then pure false else Fallible.raise e)
    fun _ => pure true

def markComplete (jobId : String) (processed : ProcessedOutputs) (processingMs : Int) : Py Unit := do
  let now : String ← ask .utcNow
  t.updateItem jobId (completeUpdate processed processingMs now)

def markFailed (jobId reason : String) : Py Unit := do
  let now : String ← ask .utcNow
  t.updateItem jobId (failedUpdate reason now)

def check : Py Unit := do
  let _ : Option Item ← callWithRetry probePolicy "dynamodb.get_item" (swallowDenied none)
    (ask (.getItem readinessSentinelJobId))
  pure ()

end JobTable

/-! ## Composition -/

structure AwsClients where
  store : S3Store
  queue : JobQueue
  table : JobTable
deriving DecidableEq, Repr

def AwsClients.build (config : Config) : AwsClients where
  store := { bucket := config.s3Bucket }
  queue := {}
  table := {}

end PixelForge
