/-! # Configuration (`shared/config.py`)

`Config` is the snapshot of the environment that every process is built from. `load_config` puts
only sizes between 1 and 8192 into `thumbnail_sizes`.
-/
set_option autoImplicit false

namespace PixelForge

structure Config where
  awsRegion : String
  s3Bucket : String
  sqsQueueUrl : String
  dynamodbTable : String
  logLevel : String := "INFO"
  shutdownGraceSeconds : Int := 30
  maxUploadBytes : Int := 10485760
  thumbnailSizes : List Nat := [150, 400, 800]
  enableChaosEndpoint : Bool := false
  otelExporterOtlpEndpoint : Option String := none
  awsEndpointUrl : Option String := none
deriving DecidableEq, Repr

end PixelForge
