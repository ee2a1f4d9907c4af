import Gitwork.Main
import Gitwork.Operation.Trace
import Gitwork.Payload.Run
import Gitwork.Console.Prompt
import Gitwork.Workbench.Describe
import Gitwork.Proofs.Stream.Conservation
import Gitwork.Proofs.Stream.Closing
import Gitwork.Proofs.Payload.FirstFailure
import Gitwork.Proofs.Payload.FiniteMap
import Gitwork.Proofs.Payload.Generations
import Gitwork.Proofs.Ref.Exclusion
import Gitwork.Proofs.Ref.AllOrNothing
import Gitwork.Proofs.Ref.LostUpdates
import Gitwork.Proofs.Ref.LifeCycle
import Gitwork.Proofs.Ref.Scope
import Gitwork.Proofs.Payload.Isolation
import Gitwork.Proofs.Payload.Passthrough
import Gitwork.Proofs.Cli.UpdateRefs
import Gitwork.Proofs.Stream.Supply
import Gitwork.Proofs.Stream.Views
import Gitwork.Proofs.Stream.Portions
import Gitwork.Proofs.Stream.Schedules
import Gitwork.Proofs.Filter.EndOfLine
import Gitwork.Proofs.Stream.Delivery
import Gitwork.Proofs.Filter.BlobStream
import Gitwork.Proofs.Filter.OnePass
import Gitwork.Proofs.Filter.RoundTrip
import Gitwork.Proofs.Stream.Backpressure
import Gitwork.Proofs.Stream.Settling
import Gitwork.Proofs.Stream.Failure
import Gitwork.Proofs.Stream.Stages
import Gitwork.Proofs.Checkout.DryRun
import Gitwork.Proofs.Checkout.Head
import Gitwork.Proofs.Cli.Requests
import Gitwork.Proofs.Ref.Readers
import Gitwork.Proofs.Checkout.Unmoved
import Gitwork.Proofs.Config.Entries
import Gitwork.Proofs.Console.Credentials
import Gitwork.Proofs.Payload.HighWater
import Gitwork.Proofs.Config.Precedence
