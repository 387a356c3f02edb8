import Barbarossa.Base.Pairing
import Barbarossa.Base.Refinement
import Barbarossa.Message.JsonText
import Barbarossa.Protocol.Protocol
import Barbarossa.Protocol.Decoder
import Barbarossa.Protocol.Details
import Barbarossa.Protocol.RoundTrip
import Barbarossa.Protocol.Recoding
import Barbarossa.Transport.Worker
import Barbarossa.Transport.Flags
import Barbarossa.Transport.Wire
import Barbarossa.Transport.Retry
import Barbarossa.Transport.Lifetime
import Barbarossa.Session.Rejected
import Barbarossa.Client.Client
import Barbarossa.Client.Steps
import Barbarossa.Client.Outcomes
import Barbarossa.Client.Consistency
import Barbarossa.Client.Handshake
import Barbarossa.Client.FailedJoin
import Barbarossa.Client.Identity
import Barbarossa.Client.Integers
import Barbarossa.Client.Delivery
import Barbarossa.Client.Attachment
import Barbarossa.Client.Binding
import Barbarossa.Client.Gating
import Barbarossa.Client.Calls
import Barbarossa.Client.Heartbeat
import Barbarossa.Client.PongPromise
import Barbarossa.Client.Termination
import Barbarossa.Client.Loop
import Barbarossa.Client.Stopping
import Barbarossa.Client.Rejoin
import Barbarossa.Client.Abort
import Barbarossa.Client.Leaving
import Barbarossa.Client.FailureClass
import Barbarossa.Client.Traffic
import Barbarossa.Client.Frames
import Barbarossa.Client.Transports
import Barbarossa.Client.Offers
import Barbarossa.Client.Conversation
import Barbarossa.Client.Balance
import Barbarossa.Statemachine.WebsocketEndpoint
import Barbarossa.Statemachine.Steps
import Barbarossa.Statemachine.Disconnection
import Barbarossa.Statemachine.Answers
import Barbarossa.Statemachine.Cadence
import Barbarossa.Statemachine.Leaving
import Barbarossa.Program.SayHello
import Barbarossa.Program.Program
import Barbarossa.Program.Steps
import Barbarossa.Program.Refinement
import Barbarossa.Program.Objects
import Barbarossa.Program.Settled
import Barbarossa.Program.Stopping
import Barbarossa.Program.Handlers
import Barbarossa.Program.Exit
import Barbarossa.Program.Teardown
import Barbarossa.Program.Reasons
import Barbarossa.Program.Wire
