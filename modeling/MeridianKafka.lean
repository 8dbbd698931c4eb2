import MeridianKafka.Consumer.CompareAndSet
import MeridianKafka.Consumer.DeadLetterRecords
import MeridianKafka.Consumer.FailedAcknowledge
import MeridianKafka.Consumer.FailedPoll
import MeridianKafka.Consumer.FailedRedelivery
import MeridianKafka.Consumer.Fencing
import MeridianKafka.Consumer.Handshake
import MeridianKafka.Consumer.Ordering
import MeridianKafka.Consumer.Progress
import MeridianKafka.Consumer.Published
import MeridianKafka.Consumer.Rebalance
import MeridianKafka.Consumer.Redelivery
import MeridianKafka.Consumer.Rejection
import MeridianKafka.Consumer.Retries
import MeridianKafka.Cursor.Decoder
import MeridianKafka.Cursor.Size
import MeridianKafka.Producer.Concurrent
import MeridianKafka.Producer.Replays
import MeridianKafka.Producer.Callbacks
import MeridianKafka.Range.Paging
import MeridianKafka.Runtime.FailedRotation
import MeridianKafka.Transactions.Apart
import MeridianKafka.Transactions.BridgeRuns
import MeridianKafka.Transactions.Execute
import MeridianKafka.Transactions.Outputs
import MeridianKafka.Transactions.Recovery
import MeridianKafka.Transactions.Rotation
import MeridianKafka.Transactions.Transition
import MeridianKafka.Config.Production
import MeridianKafka.Compiler.Escapes
import MeridianKafka.Config.Integrity
import MeridianKafka.Probe.Physical
import MeridianKafka.Probe.ApiVersions
import MeridianKafka.Probe.Framing
import MeridianKafka.Probe.Scram
import MeridianKafka.Probe.Disclosure
import MeridianKafka.Probe.Requests
import MeridianKafka.Probe.Negotiation
import MeridianKafka.Fingerprints
import MeridianKafka.Telemetry
