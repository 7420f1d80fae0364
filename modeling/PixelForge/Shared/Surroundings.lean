import PixelForge.Api.Service
import PixelForge.Formats.FlatJson
import PixelForge.Worker.Consumer

/-! # Surroundings to run the model in

`Surroundings.small` is an `Externals` that executes: message bodies are compact JSON, and Pillow
knows two files, a GIF of one white pixel and the same file cut off before its pixel data. Loading
the first may run out of memory (any seed but 0); loading the second always fails. With them come a
configuration, two uploads and the messages that the service sends for them.
-/
set_option autoImplicit false

namespace PixelForge.Surroundings
open Effects
open FlatJson (Scalar)

/-! ## Message bodies -/

def toScalar? : PyVal → Option Scalar
  | .int n => some (.int n)
  | .str s => some (.str s)
  | _ => none

def ofScalar : Scalar → PyVal
  | .int n => .int n
  | .str s => .str s

def dumpFlat (d : PyDict) : String :=
  FlatJson.write (d.filterMap fun kv => (toScalar? kv.2).map fun v => (kv.1, v))

def parseFlat (text : String) : Option PyVal :=
  (FlatJson.read text).map fun kvs => .dict (kvs.map fun kv => (kv.1, ofScalar kv.2))

theorem parseFlat_dumpFlat (m : JobMessage) : parseFlat (dumpFlat m.dump) = some (.dict m.dump) := by
  unfold parseFlat dumpFlat
  rw [FlatJson.read_write]
  rfl

/-! ## Pictures -/

/-- A GIF up to the pixel data of its only frame. -/
def cutGif : Bytes :=
  [0x47, 0x49, 0x46, 0x38, 0x39, 0x61, 0x01, 0x00, 0x01, 0x00, 0x80, 0x00, 0x00, 0xFF, 0xFF, 0xFF,
    0x00, 0x00, 0x00, 0x2C, 0x00, 0x00, 0x00, 0x00, 0x01, 0x00, 0x01, 0x00, 0x00, 0x02]

def dotGif : Bytes := cutGif ++ [0x02, 0x44, 0x01, 0x00, 0x3B]

/-- The white pixel of `dotGif`. -/
def dot : Picture := ⟨some "GIF", some ⟨[], some []⟩, 1, 1, [0xFF, 0xFF, 0xFF]⟩

def unidentified : Exc := .python .unidentifiedImageError "cannot identify image file"

def verifyImage (data : Bytes) : Except Exc Header :=
  if data = dotGif ∨ data = cutGif then .ok ⟨some "GIF", 1, 1⟩ else .error unidentified

def openImage (seed : Nat) (data : Bytes) : Except Exc Picture :=
  if data = dotGif then if seed = 0 then .ok dot else .error (.python .memoryError "")
  else if data = cutGif then
    .error (.python .osError "image file is truncated (0 bytes not processed)")
  else .error unidentified

/-- Pillow never enlarges. The two markers stand for the encoder's bytes. -/
def renderOne (p : Picture) (size : Nat) : Except Exc Encoded :=
  .ok ⟨[0xFF, 0xD8, 0xFF, 0xD9], min p.width size, min p.height size⟩

/-! ## All together -/

def small : Externals where
  intOfStr := String.toInt?
  parseJson := parseFlat
  dumpJson := dumpFlat
  parse_dump m _ := parseFlat_dumpFlat m
  verifyImage _ data := verifyImage data
  openImage := openImage
  renderOne _ p size := renderOne p size
  tagName _ := none
  gpsTagName _ := none
  round6 x := x
  ratio6 n d := .finite (mkRat n d.natAbs)
  lower s := String.ofList (s.toList.map Char.toLower)
  reprStr s := "'" ++ s ++ "'"

theorem opens_small {data : Bytes} {p : Picture} (h : small.Opens data p) : p = dot := by
  obtain ⟨seed, h⟩ := h
  change openImage seed data = .ok p at h
  unfold openImage at h
  split_ifs at h
  exact (Except.ok.inj h).symm

theorem small_fixed : small.Fixed where
  opens hp hq := (opens_small hp).trans (opens_small hq).symm
  renders ht hu := Except.ok.inj (ht.symm.trans hu)

/-! ## Two uploads -/

def config : Config where
  awsRegion := "us-east-1"
  s3Bucket := "pixelforge-images"
  sqsQueueUrl := "https://sqs.us-east-1.amazonaws.com/000000000000/pixelforge-jobs"
  dynamodbTable := "pixelforge-jobs"
  thumbnailSizes := [400, 150]

def goodUpload : Upload := ⟨dotGif, some "dot.gif", some "image/gif"⟩
def poisonUpload : Upload := ⟨cutGif, some "dot.gif", some "image/gif"⟩

def jobId : String := "6f9619ff-8b86-4011-b42d-00cf4fc964ff"
def clock : String := "2026-01-05T10:30:00.000Z"

/-- The message of either upload under the job id `jobId`. -/
def message : JobMessage where
  jobId := jobId
  bucket := config.s3Bucket
  inputKey := JobService.inputKey jobId ".gif"
  contentType := "image/gif"
  filename := "dot.gif"
  submittedAt := clock

def messageBody : String :=
  "\x7b\"schema_version\":1,\"job_id\":\"6f9619ff-8b86-4011-b42d-00cf4fc964ff\"," ++
  "\"bucket\":\"pixelforge-images\"," ++
  "\"input_key\":\"uploads/6f9619ff-8b86-4011-b42d-00cf4fc964ff/original.gif\"," ++
  "\"content_type\":\"image/gif\",\"filename\":\"dot.gif\"," ++
  "\"submitted_at\":\"2026-01-05T10:30:00.000Z\"\x7d"

theorem toJson_message : message.toJson small = messageBody := by
  decide +kernel

/-- The delivery of the message under the receipt `messageId`. -/
def messageId : String := "m-1"
def delivery : RawMessage := ⟨some messageId, some messageBody⟩

theorem job_delivery : delivery.job? small = some message := by
  change JobMessage.ofJson? small messageBody = some message
  rw [← toJson_message, JobMessage.ofJson?_toJson small rfl]

/-- What a worker does with the delivery. -/
def handleMessageBody : Py Outcome := do
  ask (.bindJobContext jobId)
  Fallible.tryFinally ((Worker.build config).process small message messageId) (ask .clearJobContext)

theorem handleMessage_delivery :
    (Worker.build config).handleMessage small delivery = handleMessageBody :=
  Worker.handleMessage_of_job job_delivery (le_refl _)

/-! ## Stores that hold the job -/

/-- The record of `goodUpload` with the status `st`. -/
def record (st : JobStatus) : JobRecord where
  jobId := jobId
  status := st
  createdAt := clock
  filename := "dot.gif"
  sizeBytes := 35
  contentType := "image/gif"
  inputKey := message.inputKey

/-- The stores with an item for the job, the original and the message. -/
def holding (it : Item) : Cloud :=
  ((Cloud.empty.setObject config.s3Bucket message.inputKey ⟨dotGif, "image/gif"⟩).setItem jobId
    it).setMessage messageId ⟨messageBody, [("job_id", jobId)], .onQueue⟩

/-- The item of a record, as far as it can be stored. -/
def itemOf (r : JobRecord) : Item :=
  match serializeDict (JobTable.recordItem r) with
  | .ok it => it
  | .error _ => []

/-! ## Another job -/

def otherId : String := "7c9e6679-7425-40de-944b-e07fc1f90ae7"
def otherMessageId : String := "m-2"

/-- The record of a second upload of `dotGif`. -/
def other : JobRecord :=
  JobService.newRecord small goodUpload ⟨"GIF", 1, 1, ".gif"⟩ otherId none clock clock

def otherMessage : JobMessage := (JobService.build config).newMessage other
def otherDelivery : RawMessage := ⟨some otherMessageId, some (otherMessage.toJson small)⟩

/-- What a worker does with its delivery. -/
def handleOther : Py Outcome := do
  ask (.bindJobContext otherId)
  Fallible.tryFinally ((Worker.build config).process small otherMessage otherMessageId)
    (ask .clearJobContext)

theorem job_otherDelivery : otherDelivery.job? small = some otherMessage := by
  change JobMessage.ofJson? small (otherMessage.toJson small) = some otherMessage
  exact JobMessage.ofJson?_toJson small rfl

theorem handleMessage_otherDelivery :
    (Worker.build config).handleMessage small otherDelivery = handleOther :=
  Worker.handleMessage_of_job job_otherDelivery (le_refl _)

/-- The stores `s`, and in them the other job. -/
def withOther (s : Cloud) : Cloud :=
  ((s.setObject config.s3Bucket other.inputKey ⟨dotGif, "image/gif"⟩).setItem otherId
    (itemOf other)).setMessage otherMessageId
      ⟨otherMessage.toJson small, [("job_id", otherId)], .onQueue⟩

def returnedCompleted : Py Outcome → Bool
  | .ret (.ok .completed) => true
  | _ => false

theorem eq_of_returnedCompleted {p : Py Outcome} (h : returnedCompleted p = true) :
    p = .ret (.ok .completed) := by
  unfold returnedCompleted at h
  split at h
  · rfl
  · cases h

end PixelForge.Surroundings
