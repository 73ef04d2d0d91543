import DomBft.CheckpointCollector
import DomBft.Receiver
import DomBft.RepairUtils

/-!
`replica.h`: the state of a replica, and how it sends.

* `Replica`: the fields that the handlers of messages read, over an arbitrary application.
* `Dest`, `send`: what a replica sends is appended to `sent`, with its destination; a message
  is signed when it leaves, so that only its body is recorded.

The handlers follow in the modules below, each under its name in the source.  A handler takes
the time where it reads the clock.  The switches for tests and the preserialization
experiment are left out, and so are the fields that nothing reads.
-/

namespace DomBft

open Std (ExtTreeMap)

/-- `struct PreparedState` -/
structure PreparedState where
  round : ℕ := 0
  pbftView : ℕ := 0
  proposal : RepairProposal := {}
  proposalDigest : Bytes := []
  prepares : ExtTreeMap ℕ PBFTPrepare compare := ∅
  prepareSigs : ExtTreeMap ℕ Bytes compare := ∅

/-- Where a message is sent. -/
inductive Dest where
  | replicas
  | replica (i : ℕ)
  | client (c : UInt32)
deriving DecidableEq, Repr

/-- `class Replica` -/
structure Replica (A : Type) where
  replicaId : ℕ
  round : ℕ := 1
  log : Log A
  /-- the snapshots that wait for the thread that processes messages, with their round -/
  snapshotQueue : List (ℕ × AppSnapshot) := []
  checkpointCollectors : CheckpointCollectorStore := {}
  checkpointSnapshotRequested : Bool := false
  checkpointTimeoutStart : ℕ := 0
  /-- round and position of the last checkpoint of each replica outside the interval -/
  checkpointTimeoutSeqs : ExtTreeMap ℕ (ℕ × ℕ) compare := ∅
  repair : Bool := false
  repairSnapshotRequested : Bool := false
  repairViewStart : ℕ := 0
  pendingRepair : Bool := false
  curRoundStartSeq : ℕ := 0
  repairQueuedReqs : ExtTreeMap DeadlineKey ClientRequestProto DeadlineKey.cmp := ∅
  repairStart : Option RepairStart := none
  repairProposal : Option RepairProposal := none
  proposalDigest : Bytes := []
  repairStartMsgs : ExtTreeMap ℕ RepairStart compare := ∅
  repairHistorySigs : ExtTreeMap ℕ Bytes compare := ∅
  repairProposalLogSuffix : Option LogSuffix := none
  missingRequestFetchSent : Bool := false
  pendingMissingRequests : List RequestId := []
  pbftView : ℕ := 0
  preparedRound : ℕ := 0
  viewPrepared : Bool := true
  numConsecutiveViewChanges : ℕ := 0
  lastPreparedState : PreparedState := {}
  /-- view and round of each replica -/
  replicaViews : ExtTreeMap ℕ (ℕ × ℕ) compare := ∅
  repairPrepares : ExtTreeMap ℕ PBFTPrepare compare := ∅
  repairPrepareSigs : ExtTreeMap ℕ Bytes compare := ∅
  repairPBFTCommits : ExtTreeMap ℕ PBFTCommit compare := ∅
  repairCommitSigs : ExtTreeMap ℕ Bytes compare := ∅
  /-- all messages sent so far, oldest first -/
  sent : List (Dest × Msg) := []

namespace Replica

variable {A : Type}

/-- `Replica::Replica` -/
def fresh (replicaId : ℕ) (app : A) : Replica A := { replicaId, log := .fresh app }

/-- `getPrimary` -/
def getPrimary (cfg : Config) (r : Replica A) : ℕ := r.pbftView % cfg.numReplicas

/-- `isPrimary` -/
def isPrimary (cfg : Config) (r : Replica A) : Bool := r.getPrimary cfg == r.replicaId

/-! ### Sending -/

/-- A message is sent. -/
def send (r : Replica A) (dst : Dest) (msg : Msg) : Replica A :=
  { r with sent := r.sent ++ [(dst, msg)] }

/-- `broadcastToReplicas` -/
def broadcastToReplicas (r : Replica A) (msg : Msg) : Replica A := r.send .replicas msg

/-- `sendMsgToDst` with a destination in `replicaAddrs_`. -/
def sendToReplica (cfg : Config) (r : Replica A) (i : ℕ) (msg : Msg) : Except Fault (Replica A) :=
  if i < cfg.numReplicas then .ok (r.send (.replica i) msg) else .error .undefined

/-- `sendMsgToDst` with a destination in `clientAddrs_`. -/
def sendToClient (cfg : Config) (r : Replica A) (c : UInt32) (msg : Msg) :
    Except Fault (Replica A) :=
  if c.toNat < cfg.numClients then .ok (r.send (.client c) msg) else .error .undefined

/-- `sendSnapshotRequest` -/
def sendSnapshotRequest (cfg : Config) (r : Replica A) (replicaId targetSeq : ℕ) :
    Except Fault (Replica A) :=
  r.sendToReplica cfg replicaId <| .snapshotRequest {
    replicaId := r.replicaId
    seq := targetSeq
    round := r.round
    lastCheckpointSeq := r.log.committedCheckpoint.seq }

/-! ### Starting a repair -/

/-- `startRepair` -/
def startRepair [Sha256] (cfg : Config) (r : Replica A) : Except Fault (Replica A) :=
  if r.repair then .error .assertion
  else
    let repairStart : RepairStart := {
      round := r.round
      replicaId := r.replicaId
      pbftView := r.pbftView
      log? := some (r.log.toProto cfg.replicaIncludeFullRequests) }
    { r with repair := true, repairStart := some repairStart }.sendToReplica cfg
      (r.getPrimary cfg) (.repairStart repairStart)

end Replica

end DomBft
