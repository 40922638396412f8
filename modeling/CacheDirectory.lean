import CacheDirectory.Library.Parser
import CacheDirectory.Library.LittleEndian
import CacheDirectory.Library.KeyedMap
import CacheDirectory.Library.Guarded
import CacheDirectory.Library.Images
import CacheDirectory.Library.Reading
import CacheDirectory.Library.Runs
import CacheDirectory.Library.Traces
import CacheDirectory.Library.Transfers
import CacheDirectory.Library.Files
import CacheDirectory.Library.CyclicRedundancy
import CacheDirectory.Library.BitStrings
import CacheDirectory.Library.SecureHash
import CacheDirectory.Model.Identity
import CacheDirectory.Model.Enums
import CacheDirectory.Model.Digest
import CacheDirectory.Model.Records
import CacheDirectory.Model.Serde
import CacheDirectory.Model.ReaderMethods
import CacheDirectory.Model.Directory
import CacheDirectory.Model.Registration
import CacheDirectory.Model.Updates
import CacheDirectory.Model.Invalidation
import CacheDirectory.Model.Query
import CacheDirectory.Model.Persistence
import CacheDirectory.Model.Protocol
import CacheDirectory.Library.Pointwise
import CacheDirectory.Library.Newest
import CacheDirectory.Library.Sorting
import CacheDirectory.Library.Doubles
import CacheDirectory.Model.Messages
import CacheDirectory.Model.Operation
import CacheDirectory.Model.Server
import CacheDirectory.Model.Transport
import CacheDirectory.Model.Client
import CacheDirectory.Model.Process
import CacheDirectory.Invariants.Outcomes
import CacheDirectory.Invariants.Effects
import CacheDirectory.Recovery.Validation
import CacheDirectory.Invariants.Failures
import CacheDirectory.Invariants.Admission
import CacheDirectory.Invariants.Sessions
import CacheDirectory.Invariants.Authority
import CacheDirectory.Invariants.Edits
import CacheDirectory.Invariants.Evidence
import CacheDirectory.Invariants.History
import CacheDirectory.Invariants.Generations
import CacheDirectory.Recovery.RoundTrip
import CacheDirectory.Recovery.Fidelity
import CacheDirectory.Recovery.Restart
import CacheDirectory.Recovery.Epochs
import CacheDirectory.Recovery.Fencing
import CacheDirectory.Invariants.Lifecycles
import CacheDirectory.Invariants.TerminalCopies
import CacheDirectory.Invariants.Convergence
import CacheDirectory.Invariants.Tombstones
import CacheDirectory.Invariants.TombstoneKinds
import CacheDirectory.Invariants.Revocation
import CacheDirectory.Invariants.Renewals
import CacheDirectory.Invariants.RecordIds
import CacheDirectory.Invariants.Commutation
import CacheDirectory.Invariants.Indexes
import CacheDirectory.Invariants.IndexUpkeep
import CacheDirectory.Invariants.IndexChecks
import CacheDirectory.Invariants.Gauges
import CacheDirectory.Invariants.Tallies
import CacheDirectory.Invariants.Leases
import CacheDirectory.Invariants.Descriptors
import CacheDirectory.Invariants.Replicas
import CacheDirectory.Invariants.Ownership
import CacheDirectory.Invariants.Agreement
import CacheDirectory.Invariants.Closure
import CacheDirectory.Invariants.Incarnations
import CacheDirectory.Invariants.Fences
import CacheDirectory.Invariants.Realms
import CacheDirectory.Invariants.Content
import CacheDirectory.Invariants.Schedules
import CacheDirectory.Invariants.WorkerLoss
import CacheDirectory.Recovery.Eligibility
import CacheDirectory.Recovery.Serving
import CacheDirectory.Recovery.Availability
import CacheDirectory.Recovery.Lapses
import CacheDirectory.Recovery.Stability
import CacheDirectory.Recovery.Canonical
import CacheDirectory.Encoding.SemanticImages
import CacheDirectory.Encoding.Sequences
import CacheDirectory.Encoding.Hashing
import CacheDirectory.Invariants.Digests
import CacheDirectory.Recovery.Truncation
import CacheDirectory.Queries.Scores
import CacheDirectory.Queries.Specification
import CacheDirectory.Queries.Counters
import CacheDirectory.Queries.Requirements
import CacheDirectory.Queries.Reported
import CacheDirectory.Queries.Permutation
import CacheDirectory.Queries.Monotone
import CacheDirectory.Queries.Transparency
import CacheDirectory.Invariants.Isolation
import CacheDirectory.Queries.Strangers
import CacheDirectory.Queries.Plans
import CacheDirectory.Queries.Published
import CacheDirectory.Invariants.Retries
import CacheDirectory.Wire.Frames
import CacheDirectory.Wire.Bursts
import CacheDirectory.Wire.Streams
import CacheDirectory.Wire.Records
import CacheDirectory.Wire.Messages
import CacheDirectory.Wire.Reuse
import CacheDirectory.Wire.Exchanges
import CacheDirectory.Wire.Answers
import CacheDirectory.Wire.Connections
import CacheDirectory.Wire.Sockets
import CacheDirectory.Wire.InStep
import CacheDirectory.Wire.RemoteCalls
import CacheDirectory.Wire.Schedules
import CacheDirectory.Recovery.Durability
