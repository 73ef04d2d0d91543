import DomBft.ClientRecord

/-!
The messages of `dombft_proto.proto`, with the fields the replica, the client and the log
read or set.  Log positions, rounds, views and replica numbers are natural numbers; client
numbers and client sequence numbers keep their machine type, since they are hashed and
compared inside client records.

`Msg` puts the messages a replica handles into one type.  A signature covers the serialized
body of a message and not its type, so what is signed is a `Signable`: `PBFTPrepare` and
`PBFTCommit` have the same fields under the same numbers and are one and the same
`Signable`.
-/

namespace DomBft

/-- `proto::ClientRequest` -/
structure ClientRequestProto where
  clientId : UInt32 := 0
  clientSeq : UInt32 := 0
  deadline : ℕ := 0
  reqData : Bytes := []
deriving DecidableEq, Repr, Inhabited

/-- `proto::Reply` -/
structure Reply where
  clientId : UInt32 := 0
  clientSeq : UInt32 := 0
  round : ℕ := 0
  seq : ℕ := 0
  replicaId : ℕ := 0
  result : Bytes := []
  digest : Bytes := []
  queued : Bool := false
deriving DecidableEq, Repr, Inhabited

/-- `proto::Cert` -/
structure Cert where
  seq : ℕ := 0
  round : ℕ := 0
  replies : List Reply := []
  signatures : List Bytes := []
deriving DecidableEq, Repr, Inhabited

/-- `proto::CertReply` -/
structure CertReply where
  replicaId : ℕ := 0
  clientId : UInt32 := 0
  clientSeq : UInt32 := 0
  round : ℕ := 0
  seq : ℕ := 0
deriving DecidableEq, Repr, Inhabited

/-- `proto::Commit` -/
structure Commit where
  replicaId : ℕ := 0
  round : ℕ := 0
  seq : ℕ := 0
  logDigest : Bytes := []
  appDigest : Option Bytes := none
  clientRecord : ClientRecordProto := {}
deriving DecidableEq, Repr, Inhabited

/-- `proto::RepairTimeout` -/
structure RepairTimeout where
  replicaId : ℕ := 0
  round : ℕ := 0
  view : ℕ := 0
  seq : ℕ := 0
deriving DecidableEq, Repr, Inhabited

/-- `proto::RepairTimeoutProof` -/
structure RepairTimeoutProof where
  replicaId : ℕ := 0
  round : ℕ := 0
  view : ℕ := 0
  timeouts : List RepairTimeout := []
  signatures : List Bytes := []
deriving DecidableEq, Repr, Inhabited

/-- `proto::RepairReplyProof` -/
structure RepairReplyProof where
  replicaId : ℕ := 0
  round : ℕ := 0
  view : ℕ := 0
  replies : List Reply := []
  signatures : List Bytes := []
deriving DecidableEq, Repr, Inhabited

/-- `proto::LogEntry` -/
structure LogEntryProto where
  seq : ℕ := 0
  clientId : UInt32 := 0
  clientSeq : UInt32 := 0
  digest : Bytes := []
  request : Option Bytes := none
  requestDigest : Bytes := []
deriving DecidableEq, Repr, Inhabited

/-- `proto::PBFTPrepare` -/
structure PBFTPrepare where
  round : ℕ := 0
  replicaId : ℕ := 0
  pbftView : ℕ := 0
  proposalDigest : Bytes := []
  logDigest : Bytes := []
deriving DecidableEq, Repr, Inhabited

/-- `proto::PBFTCommit` -/
structure PBFTCommit where
  round : ℕ := 0
  replicaId : ℕ := 0
  pbftView : ℕ := 0
  proposalDigest : Bytes := []
  logDigest : Bytes := []
deriving DecidableEq, Repr, Inhabited

/-- `proto::LogCheckpoint` -/
structure LogCheckpointProto where
  seq : ℕ := 0
  logDigest : Bytes := []
  appDigest : Bytes := []
  commits : List Commit := []
  commitSigs : List Bytes := []
  repairCommits : List PBFTCommit := []
  repairCommitSigs : List Bytes := []
  clientRecord : ClientRecordProto := {}
deriving DecidableEq, Repr, Inhabited

/-- `proto::RepairLog` -/
structure RepairLog where
  entries : List LogEntryProto := []
  checkpoint : LogCheckpointProto := {}
  cert : Option Cert := none
deriving DecidableEq, Repr, Inhabited

/-- `proto::PreparedHistory` -/
structure PreparedHistory where
  prepares : List PBFTPrepare := []
  prepareSigs : List Bytes := []
deriving DecidableEq, Repr, Inhabited

/-- `proto::RepairStart` -/
structure RepairStart where
  pbftView : ℕ := 0
  round : ℕ := 0
  replicaId : ℕ := 0
  log? : Option RepairLog := none
  preparedHistory : Option PreparedHistory := none
deriving DecidableEq, Repr, Inhabited

/-- The accessor `log()` of an optional field: the default where it is not set. -/
def RepairStart.log (m : RepairStart) : RepairLog := m.log?.getD {}

/-- `proto::RepairProposal` -/
structure RepairProposal where
  round : ℕ := 0
  replicaId : ℕ := 0
  startMsgs : List RepairStart := []
  signatures : List Bytes := []
deriving DecidableEq, Repr, Inhabited

/-- `proto::CommittedReply` -/
structure CommittedReply where
  replicaId : ℕ := 0
  clientId : UInt32 := 0
  clientSeq : UInt32 := 0
  seq : ℕ := 0
  result : Bytes := []
  isRepair : Bool := false
deriving DecidableEq, Repr, Inhabited

/-- `proto::RepairSummary` -/
structure RepairSummary where
  round : ℕ := 0
  replicaId : ℕ := 0
  replies : List CommittedReply := []
  pbftView : ℕ := 0
  committedSeqs : ClientSequenceProto := {}
deriving DecidableEq, Repr, Inhabited

/-- `proto::PBFTPrePrepare` -/
structure PBFTPrePrepare where
  round : ℕ := 0
  primaryId : ℕ := 0
  pbftView : ℕ := 0
  proposal : RepairProposal := {}
  proposalDigest : Bytes := []
deriving DecidableEq, Repr, Inhabited

/-- `proto::ViewUpdate` -/
structure ViewUpdate where
  round : ℕ := 0
  replicaId : ℕ := 0
  view : ℕ := 0
deriving DecidableEq, Repr, Inhabited

/-- `proto::SnapshotRequest` -/
structure SnapshotRequest where
  round : ℕ := 0
  seq : ℕ := 0
  replicaId : ℕ := 0
  lastCheckpointSeq : ℕ := 0
deriving DecidableEq, Repr, Inhabited

/-- `proto::SnapshotReply` -/
structure SnapshotReply where
  round : ℕ := 0
  seq : ℕ := 0
  replicaId : ℕ := 0
  checkpoint : LogCheckpointProto := {}
  logEntries : List LogEntryProto := []
  snapshotCheckpoint : Option LogCheckpointProto := none
  snapshot : Option Bytes := none
deriving DecidableEq, Repr, Inhabited

/-- `proto::MissingRequestFetch` -/
structure MissingRequestFetch where
  round : ℕ := 0
  replicaId : ℕ := 0
  requestIds : List (UInt32 × UInt32) := []
deriving DecidableEq, Repr, Inhabited

/-- `proto::MissingRequestReply::RequestData` -/
structure RequestData where
  clientId : UInt32 := 0
  clientSeq : UInt32 := 0
  request : Bytes := []
deriving DecidableEq, Repr, Inhabited

/-- `proto::MissingRequestReply` -/
structure MissingRequestReply where
  round : ℕ := 0
  replicaId : ℕ := 0
  requests : List RequestData := []
deriving DecidableEq, Repr, Inhabited

/-- The messages that arrive at a replica or leave it. -/
inductive Msg where
  | domRequest (deadline : ℕ) (m : ClientRequestProto)
  | clientRequest (m : ClientRequestProto)
  | reply (m : Reply)
  | cert (m : Cert)
  | certReply (m : CertReply)
  | commit (m : Commit)
  | committedReply (m : CommittedReply)
  | repairSummary (m : RepairSummary)
  | snapshotRequest (m : SnapshotRequest)
  | snapshotReply (m : SnapshotReply)
  | missingRequestFetch (m : MissingRequestFetch)
  | missingRequestReply (m : MissingRequestReply)
  | repairTimeout (m : RepairTimeout)
  | repairReplyProof (m : RepairReplyProof)
  | repairTimeoutProof (m : RepairTimeoutProof)
  | repairStart (m : RepairStart)
  | prePrepare (m : PBFTPrePrepare)
  | prepare (m : PBFTPrepare)
  | pbftCommit (m : PBFTCommit)
  | viewUpdate (m : ViewUpdate)
deriving DecidableEq, Repr, Inhabited

/-- What a signature covers: the body of a message, where a commit of the repair protocol
reads the same as a prepare. -/
def Signable : Type := Msg

/-- The body of a message, as it is signed. -/
def Msg.body : Msg → Signable
  | .pbftCommit m =>
    show Msg from .prepare ⟨m.round, m.replicaId, m.pbftView, m.proposalDigest, m.logDigest⟩
  | m => m

/-- The signature scheme: `sign` makes the signature of a replica, `verify` checks one. -/
class SignatureProvider where
  sign : ℕ → Signable → Bytes
  verify : ℕ → Signable → Bytes → Bool
  verifyClient : UInt32 → ClientRequestProto → Bytes → Bool

end DomBft
