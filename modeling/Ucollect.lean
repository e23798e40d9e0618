import Ucollect.Proof.Activation.Agreement
import Ucollect.Proof.Bandwidth.Statistics
import Ucollect.Proof.Buckets.Hashing
import Ucollect.Proof.Buckets.Isolation
import Ucollect.Proof.Buckets.KeyLimit
import Ucollect.Proof.Buckets.Levels
import Ucollect.Proof.Buckets.Validation
import Ucollect.Proof.Count.Properties
import Ucollect.Proof.Diffstore.Agreement
import Ucollect.Proof.Diffstore.Cache
import Ucollect.Proof.Fake.Closings
import Ucollect.Proof.Fake.Rejection
import Ucollect.Proof.Fake.Storage
import Ucollect.Proof.Fake.Throttling
import Ucollect.Proof.Flow.Differential
import Ucollect.Proof.Flow.Limits
import Ucollect.Proof.Flow.Storage
import Ucollect.Proof.Flow.Wire
import Ucollect.Proof.Fwup.Freshness
import Ucollect.Proof.Fwup.Mirror
import Ucollect.Proof.Fwup.Queue
import Ucollect.Proof.Lists.Sequence
import Ucollect.Proof.Loading.Resolving
import Ucollect.Proof.Login.Replay
import Ucollect.Proof.Login.Safety
import Ucollect.Proof.Loop.Capture
import Ucollect.Proof.Loop.Firing
import Ucollect.Proof.Loop.Watchdogs
import Ucollect.Proof.Majordomo.Limit
import Ucollect.Proof.Majordomo.Merging
import Ucollect.Proof.Majordomo.Subnets
import Ucollect.Proof.Pools.Hex
import Ucollect.Proof.Pools.Soundness
import Ucollect.Proof.Refused.Attempts
import Ucollect.Proof.Refused.Icmp
import Ucollect.Proof.Sizes.Grammar
import Ucollect.Proof.Sniff.Batches
import Ucollect.Proof.Sniff.Distribution
import Ucollect.Proof.Sniff.Execution
import Ucollect.Proof.Soxy.Stored
import Ucollect.Proof.Spoof.Credits
import Ucollect.Proof.Uplink.ErrorReports
import Ucollect.Proof.Uplink.Isolation
import Ucollect.Proof.Uplink.Ping
import Ucollect.Proof.Uplink.ReconnectMachine
import Ucollect.Proof.Uplink.Wakeup
