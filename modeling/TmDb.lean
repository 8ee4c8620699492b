import TmDb.Proofs.BatchAutomaton
import TmDb.Proofs.IteratorDeadlock
import TmDb.Proofs.LevelCursor
import TmDb.Proofs.PrefixNamespaces
import TmDb.Proofs.RemoteIteration
import TmDb.Proofs.RemoteRetry
import TmDb.BoltDB
import TmDb.Proofs.BoltCursor
import TmDb.Proofs.Iteration
import TmDb.Proofs.PrefixRange
import TmDb.Proofs.PrefixCursor
import TmDb.Proofs.PrefixScans
import TmDb.Browsing
import TmDb.Proofs.PrefixNesting
import TmDb.BoltBatch
import TmDb.Proofs.BoltCoalescing
import TmDb.Backends
import TmDb.Proofs.Domains
import TmDb.Proofs.RemoteErrors
import TmDb.Proofs.Increment
import TmDb.Proofs.PrefixSources
import TmDb.Proofs.BadgerCursor
import TmDb.Proofs.EmptyPrefix
import TmDb.Proofs.IteratorClose
import TmDb.Proofs.ResponseStream
import TmDb.Lib.Guarded
import TmDb.MemShared
import TmDb.Proofs.MemLinear
import TmDb.Proofs.ServerLinear
import TmDb.Unreliable
import TmDb.Proofs.Refusals
import TmDb.Proofs.BackendFaults
import TmDb.Proofs.RemoteBrowsing
import TmDb.BadgerShared
import TmDb.Lib.OneShot
import TmDb.Proofs.BadgerFlush
import TmDb.Proofs.BadgerAlike
import TmDb.Proofs.BadgerFaults
import TmDb.Proofs.StatsEqual
