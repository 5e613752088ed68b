import LiveMetrics.Main
import LiveMetrics.Session.Run
import LiveMetrics.Proofs.Connection.Progress
import LiveMetrics.Proofs.Connection.Resources
import LiveMetrics.Proofs.Connection.Serving
import LiveMetrics.Proofs.Connection.History
import LiveMetrics.Proofs.Connection.Parting
import LiveMetrics.Proofs.Connection.Attempts
import LiveMetrics.Proofs.Connection.Retrying
import LiveMetrics.Proofs.Connection.Failing
import LiveMetrics.Proofs.Connection.Publishing
import LiveMetrics.Proofs.Connection.Liveness
import LiveMetrics.Proofs.Connection.Clones
import LiveMetrics.Proofs.Connection.Suspending
import LiveMetrics.Proofs.Loopback.Stalling
import LiveMetrics.Proofs.Connection.Registering
import LiveMetrics.Proofs.Connection.Silence
import LiveMetrics.Proofs.Connection.Counting
import LiveMetrics.Proofs.Connection.RoundTrips
import LiveMetrics.Proofs.Connection.Feeding
import LiveMetrics.Proofs.ErrorLog
import LiveMetrics.Proofs.Reconnect.Backoff
import LiveMetrics.Proofs.Reconnect.Growing
import LiveMetrics.Proofs.Reconnect.Jittered
import LiveMetrics.Proofs.Wire.Relaying
import LiveMetrics.Proofs.Bodies
import LiveMetrics.Proofs.Payload
import LiveMetrics.Proofs.Members
import LiveMetrics.Proofs.RoundTrip
import LiveMetrics.Proofs.Subscription.Chronicle
import LiveMetrics.Proofs.Timestamp
import LiveMetrics.Proofs.Window.Conservation
import LiveMetrics.Proofs.WindowSet.Separation
import LiveMetrics.Proofs.WindowSet.Charting
import LiveMetrics.Proofs.Subscription.Dispatching
