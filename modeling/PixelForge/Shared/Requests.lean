import PixelForge.Effects.Exceptions
import PixelForge.Shared.Models

/-! # What the code asks of its surroundings

`Externals` is the third-party code the modelled functions call and that is not in the repository
(pydantic's JSON, Pillow), with what the code relies on. `Request` is every effect of the modelled
functions: the boto3 calls, Pillow, the local file system, the clock and the metrics. `Py α` is a
Python function body: a program of requests that returns an `α` or raises.
-/
set_option autoImplicit false

namespace PixelForge
open Effects

abbrev Bytes : Type := List UInt8

/-! ## Pillow -/

/-- The values Pillow reads out of an EXIF directory. -/
inductive ExifValue
  | bytes
  | str (s : String)
  | bool (b : Bool)
  | int (n : Int)
  | float (x : PyFloat)
  | rational (numerator denominator : Int)
  | seq (vs : List ExifValue)
  | other
deriving Repr

/-- `image.getexif()` and its `get_ifd(0x8769)`; the sub-directory is `none` when Pillow raises. -/
structure RawExif where
  main : List (Nat × ExifValue)
  exifIfd : Option (List (Nat × ExifValue))
deriving Repr

/-- What opening and verifying an upload shows of it. -/
structure Header where
  format : Option String
  width : Int
  height : Int
deriving DecidableEq, Repr

/-- A loaded picture: its format and EXIF (`none` when `getexif` raises), and the oriented RGB
raster with its size. -/
structure Picture where
  format : Option String
  exif : Option RawExif
  width : Int
  height : Int
  pixels : Bytes
deriving Repr

/-- A thumbnail as Pillow encoded it. -/
structure Encoded where
  data : Bytes
  width : Int
  height : Int
deriving DecidableEq, Repr

/-- The third-party code. An image operation takes a seed, since it may fail on one attempt and
not on another (memory). -/
structure Externals where
  /-- pydantic's reading of a numeric string as an `int`. -/
  intOfStr : String → Option Int
  /-- pydantic's JSON parser. -/
  parseJson : String → Option PyVal
  /-- `model_dump_json` of an object. -/
  dumpJson : PyDict → String
  /-- Encoding a message of this schema and parsing it again is faithful. -/
  parse_dump : ∀ m : JobMessage, m.schemaVersion = messageSchemaVersion →
    parseJson (dumpJson m.dump) = some (.dict m.dump)
  /-- `Image.open` and `verify`. -/
  verifyImage : Nat → Bytes → Except Exc Header
  /-- `Image.open`, `load`, `exif_transpose` and the conversion to RGB. -/
  openImage : Nat → Bytes → Except Exc Picture
  /-- `_render_one`. -/
  renderOne : Nat → Picture → Nat → Except Exc Encoded
  /-- `ExifTags.TAGS`. -/
  tagName : Nat → Option String
  /-- `ExifTags.GPSTAGS`. -/
  gpsTagName : Nat → Option String
  /-- `round(x, 6)`. What it prints takes binary floating point and the shortest decimal that reads
  back; no result rests on more of it than that it stays finite. -/
  round6 : PyFloat → PyFloat
  /-- `round(n / d, 6)` of the floats of two integers that fit. -/
  ratio6 : Int → Int → PyFloat
  /-- `str.lower` and the `repr` of a `str`, which the Unicode tables of the interpreter decide; the
  results hold whatever these say. -/
  lower : String → String
  reprStr : String → String

/-- `to_json`. No field of a message is ever `None`. -/
def JobMessage.toJson (ext : Externals) (m : JobMessage) : String := ext.dumpJson m.dump

/-- `model_validate_json`, `none` when it raises. -/
def JobMessage.ofJson? (ext : Externals) (body : String) : Option JobMessage :=
  match ext.parseJson body with
  | some (.dict d) => JobMessage.ofDict? ext.intOfStr d
  | _ => none

theorem JobMessage.ofJson?_toJson (ext : Externals) {m : JobMessage}
    (hm : m.schemaVersion = messageSchemaVersion) : JobMessage.ofJson? ext (m.toJson ext) = some m := by
  unfold JobMessage.ofJson? JobMessage.toJson
  rw [ext.parse_dump m hm]
  exact JobMessage.ofDict?_dump ext.intOfStr m

namespace Externals

variable (ext : Externals)

/-- Some attempt to open `data` gives `p`. -/
def Opens (data : Bytes) (p : Picture) : Prop := ∃ seed, ext.openImage seed data = .ok p

/-- Some attempt to render `data` at `size` gives `t`. -/
def Renders (data : Bytes) (size : Nat) (t : Encoded) : Prop :=
  ∃ p seed, ext.Opens data p ∧ ext.renderOne seed p size = .ok t

/-- Rendering is a fixed function of the bytes and the size: attempts that succeed agree. -/
structure Fixed : Prop where
  opens : ∀ {data p q}, ext.Opens data p → ext.Opens data q → p = q
  renders : ∀ {p seed seed' size t u}, ext.renderOne seed p size = .ok t →
    ext.renderOne seed' p size = .ok u → t = u

variable {ext}

theorem Fixed.renders_eq (h : ext.Fixed) {data : Bytes} {size : Nat} {t u : Encoded}
    (ht : ext.Renders data size t) (hu : ext.Renders data size u) : t = u := by
  obtain ⟨p, seed, hp, ht⟩ := ht
  obtain ⟨q, seed', hq, hu⟩ := hu
  obtain rfl := h.opens hp hq
  exact h.renders ht hu

end Externals

/-! ## Requests -/

/-- The increments and observations of `shared/metrics.py`. -/
inductive Metric
  | jobsProcessed (status : String)
  | jobDuration
  | jobsInflightInc
  | jobsInflightDec
  | stageDuration (stage : String)
  | sqsErrors (operation : String)
  | uploads (result : String)
  | uploadSize (bytes : Nat)
deriving DecidableEq, Repr

/-- A raw SQS message, as far as the worker reads it. -/
structure RawMessage where
  receiptHandle : Option String
  body : Option String
deriving DecidableEq, Repr

inductive Request
  -- S3
  | putObject (bucket key : String) (body : Bytes) (contentType : String)
  | getObject (bucket key : String)
  | readBody (body : Bytes)
  | headBucket (bucket : String)
  -- DynamoDB
  | putItem (item : PyDict)
  | getItem (jobId : String)
  | updateItem (jobId : String) (u : Update)
  -- SQS
  | sendMessage (body : String) (attributes : List (String × String))
  | receiveMessage (maxMessages waitSeconds : Nat)
  | deleteMessage (receiptHandle : String)
  | changeMessageVisibility (receiptHandle : String) (timeoutSeconds : Int)
  | getQueueAttributes
  -- Pillow
  | verifyImage (data : Bytes)
  | openImage (data : Bytes)
  | renderOne (p : Picture) (size : Nat)
  -- the temporary workspace and the heartbeat thread
  | mkdtemp
  | writeBytes (data : Bytes)
  | readBytes (data : Bytes)
  | rmtree
  | startHeartbeat (receiptHandle jobId : String)
  | stopHeartbeat
  -- clock, randomness, tracing, log context, metrics
  | utcNow
  | elapsedMs
  | uuid4
  | uniform (high : Rat)
  | sleep (seconds : Rat)
  | currentTraceId
  | injectTraceContext
  | bindJobContext (jobId : String)
  | clearJobContext
  | metric (m : Metric)

namespace Request

/-- What a request returns when it does not raise. -/
def Val : Request → Type
  | getObject _ _ => Bytes
  | readBody _ => Bytes
  | getItem _ => Option Item
  | sendMessage _ _ => String
  | receiveMessage _ _ => List RawMessage
  | verifyImage _ => Header
  | openImage _ => Picture
  | renderOne _ _ => Encoded
  | readBytes _ => Bytes
  | utcNow => String
  | elapsedMs => Int
  | uuid4 => String
  | uniform _ => Rat
  | currentTraceId => Option String
  | injectTraceContext => List (String × String)
  | _ => Unit

abbrev Resp (q : Request) : Type := Except Exc q.Val

/-- Which exceptions the surroundings may raise in place of an answer. -/
def canFail : Request → Exc → Bool
  | putObject _ _ _ _, e => e.isServiceFault
  | getObject _ _, e => e.isServiceFault
  | readBody _, e => e.isServiceFault
  | headBucket _, e => e.isServiceFault
  | putItem _, e => e.isServiceFault
  | getItem _, e => e.isServiceFault
  | updateItem _ _, e => e.isServiceFault
  | sendMessage _ _, e => e.isServiceFault
  | receiveMessage _ _, e => e.isServiceFault
  | deleteMessage _, e => e.isServiceFault
  | changeMessageVisibility _ _, e => e.isServiceFault
  | getQueueAttributes, e => e.isServiceFault
  | mkdtemp, .python _ _ => true
  | writeBytes _, .python _ _ => true
  | readBytes _, .python _ _ => true
  | startHeartbeat _ _, .python _ _ => true
  | _, _ => false

end Request

/-- A Python function body. -/
abbrev Py (α : Type) : Type := Fallible Request Request.Resp Exc α

/-- Issue one request; a failure of it is raised. -/
def ask (q : Request) : Py q.Val := Prog.call q Prog.ret

/-- The record of one request and its answer. -/
abbrev Ev : Type := Event Request Request.Resp

/-- The requests of a run with their answers, latest first. -/
abbrev History : Type := List Ev

/-- Whether the request was answered without a raise. -/
def returned (v : Ev) : Bool :=
  match v.2 with
  | .ok _ => true
  | .error _ => false

end PixelForge
