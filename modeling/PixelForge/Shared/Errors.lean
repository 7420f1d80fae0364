/-! # Exceptions

The exceptions that cross the modelled code, as far as an `except` clause or a message of the code
can tell them apart (`shared/errors.py`, the boto3 exceptions, and the Python classes named in
`render_thumbnails`).
-/
set_option autoImplicit false

namespace PixelForge

/-- The Python and Pillow exception classes that some `except` clause names; `other` is any class
that none names. -/
inductive PyClass
  | osError
  | valueError
  | syntaxError
  | memoryError
  | unidentifiedImageError
  | decompressionBombError
  | other (name : String)
deriving DecidableEq, Repr

/-- A raised exception. `text` is what `str(exc)` gives. -/
inductive Exc
  | clientError (code : String) (status : Nat) (text : String)
  | botoCoreError (cls text : String)
  | transientDependency (text operation : String)
  | imageProcessing (text : String)
  | validation (model : String)
  | uploadRejected (detail : String) (statusCode : Nat) (code metricResult : String)
  | enqueueFailed (text : String)
  | python (cls : PyClass) (text : String)
deriving DecidableEq, Repr

namespace Exc

/-- `str(exc)`. -/
def str : Exc → String
  | clientError _ _ text => text
  | botoCoreError _ text => text
  | transientDependency text _ => text
  | imageProcessing text => text
  | validation model => s!"validation errors for {model}"
  | uploadRejected detail _ _ _ => detail
  | enqueueFailed text => text
  | python _ text => text

/-- `type(exc).__name__`. -/
def typeName : Exc → String
  | clientError _ _ _ => "ClientError"
  | botoCoreError cls _ => cls
  | transientDependency _ _ => "TransientDependencyError"
  | imageProcessing _ => "ImageProcessingError"
  | validation _ => "ValidationError"
  | uploadRejected _ _ _ _ => "UploadRejectedError"
  | enqueueFailed _ => "EnqueueFailedError"
  | python .osError _ => "OSError"
  | python .valueError _ => "ValueError"
  | python .syntaxError _ => "SyntaxError"
  | python .memoryError _ => "MemoryError"
  | python .unidentifiedImageError _ => "UnidentifiedImageError"
  | python .decompressionBombError _ => "DecompressionBombError"
  | python (.other name) _ => name

/-- `except (TransientDependencyError, ClientError, BotoCoreError)`. -/
def isDependency : Exc → Bool
  | clientError _ _ _ => true
  | botoCoreError _ _ => true
  | transientDependency _ _ => true
  | _ => false

/-- `except ImageProcessingError`. -/
def isImage : Exc → Bool
  | imageProcessing _ => true
  | _ => false

/-- The exception classes of `shared/errors.py` and `api/service.py`. -/
def isOwn : Exc → Bool
  | transientDependency _ _ => true
  | imageProcessing _ => true
  | uploadRejected _ _ _ _ => true
  | enqueueFailed _ => true
  | _ => false

/-- The code DynamoDB answers with when a condition expression is false. -/
def conditionalCheckFailed : String := "ConditionalCheckFailedException"

/-- What a call to AWS may fail with: boto3's own exceptions, or a plain Python one (a value
boto3 refuses to serialise). The answer to a false condition is not a failure of the call, and the
exceptions of this repository are never raised inside boto3. -/
def isServiceFault : Exc → Bool
  | clientError code _ _ => code != conditionalCheckFailed
  | botoCoreError _ _ => true
  | python _ _ => true
  | _ => false

end Exc

end PixelForge
