import DomBft.Lib.Run
import DomBft.Lib.Quorum
import DomBft.Lib.HashChain
import DomBft.Lib.Fallible
import DomBft.Lib.Tally
import DomBft.Lib.OrderedMap
import DomBft.Lib.Network
import DomBft.Lib.Blocks
import DomBft.Lib.RingBuffer
import DomBft.Basic
import DomBft.Config
import DomBft.ConfigUtil
import DomBft.ClientRecord
import DomBft.ClientRecord.Digest
import DomBft.ClientRecord.Missing
import DomBft.ClientRecord.Sequence
import DomBft.Messages
import DomBft.Application
import DomBft.KVStore
import DomBft.Rollback
import DomBft.Rollback.Counter
import DomBft.Rollback.KVStore
import DomBft.Application.Snapshots
import DomBft.LogEntry
import DomBft.Log
import DomBft.Log.WellFormed
import DomBft.Log.Operations
import DomBft.Log.Committed
import DomBft.Log.Failure
import DomBft.Log.Bounds
import DomBft.Log.Digests
import DomBft.Log.History
import DomBft.Log.Cluster
import DomBft.Log.Speculation
import DomBft.Rollback.Transfer
import DomBft.Log.Transfer
import DomBft.Log.StateTransfer
import DomBft.Log.Alignment
import DomBft.Verify
import DomBft.Verify.Soundness
import DomBft.CertCollector
import DomBft.Client
import DomBft.Client.Certificates
import DomBft.Client.Soundness
import DomBft.Client.MatchSize
import DomBft.Client.Collected
import DomBft.RepairUtils
import DomBft.Repair.Logs
import DomBft.Repair.Selection
import DomBft.Repair.Durability
import DomBft.Repair.Integrity
import DomBft.Repair.Apply
import DomBft.Repair.Convergence
import DomBft.Repair.Robust
import DomBft.KVStore.Unordered
import DomBft.KVStore.SnapshotThread
import DomBft.Receiver
import DomBft.CheckpointCollector
import DomBft.CheckpointCollector.Commits
import DomBft.CheckpointCollector.Replies
import DomBft.Replica
import DomBft.Replica.Checkpoint
import DomBft.Receiver.Delivery
import DomBft.Receiver.Order
import DomBft.Receiver.Stuck
import DomBft.Receiver.Queued
import DomBft.Replica.Repair
import DomBft.Replica.Step
import DomBft.Replica.Frame
import DomBft.Replica.Votes
import DomBft.Replica.RepairProofs
import DomBft.Replica.Finish
import DomBft.Replica.Phases
import DomBft.Replica.Core
import DomBft.Replica.LogSteps
import DomBft.Log.Certificate
import DomBft.Replica.Progress
import DomBft.Replica.OneCommit
import DomBft.Replica.Views
import DomBft.Replica.Cluster
import DomBft.Replica.Prepared
import DomBft.Replica.ViewChange
import DomBft.Replica.Proposals
import DomBft.Replica.History
import DomBft.Replica.Starts
import DomBft.Replica.CheckpointPath
import DomBft.Replica.Stable
import DomBft.Replica.Kinds
import DomBft.Replica.Replies
import DomBft.Replica.Certified
import DomBft.Replica.CheckpointAgreement
import DomBft.Flutter
import DomBft.Flutter.Cluster
import DomBft.Flutter.Step
import DomBft.Flutter.LockTime
import DomBft.Flutter.Candidates
import DomBft.Flutter.Evidence
import DomBft.Flutter.Order
import DomBft.Flutter.TotalOrder
import DomBft.Flutter.Tracker
import DomBft.Flutter.Agreement
import DomBft.Flutter.Client
import DomBft.Flutter.Retries
import DomBft.Flutter.Service
import DomBft.OwdCalc
import DomBft.Proxy
import DomBft.Proxy.Forwarding
import DomBft.Proxy.Multicast
import DomBft.Transport
import DomBft.Transport.Framing
import DomBft.MessageType
import DomBft.Transport.Bounds
import DomBft.Workers
