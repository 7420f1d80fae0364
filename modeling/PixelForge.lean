import PixelForge.Api.Accounting
import PixelForge.Api.Application
import PixelForge.Api.Bodies
import PixelForge.Api.Chaos
import PixelForge.Api.CleanFailure
import PixelForge.Api.ErrorBodies
import PixelForge.Api.Filenames
import PixelForge.Api.JobIds
import PixelForge.Api.Middleware
import PixelForge.Api.Protocol
import PixelForge.Api.Routes
import PixelForge.Api.Service
import PixelForge.Api.SizeChecks
import PixelForge.Effects.BigStep
import PixelForge.Effects.Brackets
import PixelForge.Effects.Exceptions
import PixelForge.Effects.Hosting
import PixelForge.Effects.Interleaving
import PixelForge.Effects.Leases
import PixelForge.Effects.Mutex
import PixelForge.Effects.Program
import PixelForge.Effects.Replay
import PixelForge.Effects.Traces
import PixelForge.Formats.Calendar
import PixelForge.Formats.Counts
import PixelForge.Formats.FlatJson
import PixelForge.Formats.Padded
import PixelForge.Formats.Patterns
import PixelForge.Formats.Policies
import PixelForge.Loadgen.Accounting
import PixelForge.Loadgen.Percentiles
import PixelForge.Pipeline.Accepted
import PixelForge.Pipeline.Backing
import PixelForge.Pipeline.Clients
import PixelForge.Pipeline.Compensation
import PixelForge.Pipeline.Completion
import PixelForge.Pipeline.Convergence
import PixelForge.Pipeline.Counters
import PixelForge.Pipeline.Deployment
import PixelForge.Pipeline.Draining
import PixelForge.Pipeline.Entries
import PixelForge.Pipeline.Isolation
import PixelForge.Pipeline.NoLoss
import PixelForge.Pipeline.Outputs
import PixelForge.Pipeline.Permissions
import PixelForge.Pipeline.Provenance
import PixelForge.Pipeline.Serving
import PixelForge.Pipeline.Shape
import PixelForge.Pipeline.System
import PixelForge.Pipeline.WriteOnce
import PixelForge.Shared.Aws
import PixelForge.Shared.Cells
import PixelForge.Shared.Cloud
import PixelForge.Shared.Codec
import PixelForge.Shared.Config
import PixelForge.Shared.Decoding
import PixelForge.Shared.Errors
import PixelForge.Shared.ExifValues
import PixelForge.Shared.Images
import PixelForge.Shared.Journal
import PixelForge.Shared.Ladder
import PixelForge.Shared.LoadConfig
import PixelForge.Shared.LoggingSetup
import PixelForge.Shared.Models
import PixelForge.Shared.Readiness
import PixelForge.Shared.Records
import PixelForge.Shared.Requests
import PixelForge.Shared.Retry
import PixelForge.Shared.Scrubbing
import PixelForge.Shared.Surroundings
import PixelForge.Shared.TableCalls
import PixelForge.Shared.Timestamps
import PixelForge.Shared.Transitions
import PixelForge.Shared.Values
import PixelForge.Shared.Wrappers
import PixelForge.Worker.Consumer
import PixelForge.Worker.Deliveries
import PixelForge.Worker.Discipline
import PixelForge.Worker.Escapes
import PixelForge.Worker.FaultFree
import PixelForge.Worker.Heartbeat
import PixelForge.Worker.Location
import PixelForge.Worker.Loop
import PixelForge.Worker.Poison
import PixelForge.Worker.Process
import PixelForge.Worker.Protocol
import PixelForge.Worker.Resources
import PixelForge.Worker.Shutdown
import PixelForge.Worker.Tally
import PixelForge.Worker.Undisturbed
