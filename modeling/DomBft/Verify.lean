import DomBft.Config
import DomBft.Messages

/-!
The verify helpers of the replica, and `verifyMessagesThd`, which decides which of the
messages that arrive are handed to the thread that processes them.

Every check is here under its name in the source.  `verifyCheckpoint` returns `true` before
it looks at anything.  `verifyMessage` is the dispatch on the type of a message; requests
with a deadline come from the receiver thread and do not pass it.
-/

namespace DomBft

/-- `ReplyKey`: the fields of a reply that have to match. -/
structure ReplyKey where
  seq : ℕ
  round : ℕ
  clientId : UInt32
  clientSeq : UInt32
  digest : Bytes
  result : Bytes
deriving DecidableEq, Repr

/-- The key of a reply. -/
def Reply.key (r : Reply) : ReplyKey :=
  ⟨r.seq, r.round, r.clientId, r.clientSeq, r.digest, r.result⟩

section

variable [Sha256]

/-- `getProposalDigest`: the digest covers the signatures of the start messages. -/
def getProposalDigest (p : RepairProposal) : Bytes := sha256 p.signatures.flatten

end

variable [SignatureProvider]

/-- The loop that verifies the signature of each of the messages in a list. -/
def verifyAll {α : Type} (signer : α → ℕ) (body : α → Msg) (ms : List α) (sigs : List Bytes) :
    Bool :=
  (ms.zip sigs).all fun (m, sig) => SignatureProvider.verify (signer m) (body m).body sig

/-- `verifyCert` -/
def verifyCert (cfg : Config) (cert : Cert) : Bool :=
  min cfg.superQuorumSize cfg.quorumSize ≤ cert.replies.length &&
  cert.replies.length == cert.signatures.length &&
  verifyAll (·.replicaId) .reply cert.replies cert.signatures &&
  (cert.replies.map Reply.key).dedup.length ≤ 1 &&
  cert.replies.length ≤ (cert.replies.map (·.replicaId)).dedup.length

/-- `verifyRepairReplyProof` -/
def verifyRepairReplyProof (cfg : Config) (proof : RepairReplyProof) : Bool :=
  cfg.f + 1 ≤ proof.replies.length &&
  proof.replies.length == proof.signatures.length &&
  proof.replies.all (·.round == proof.round) &&
  verifyAll (·.replicaId) .reply proof.replies proof.signatures &&
  (proof.replies.map Reply.key).dedup.length != 1 &&
  proof.replies.length ≤ (proof.replies.map fun r => (r.key, r.replicaId)).dedup.length

/-- `verifyRepairTimeoutProof` -/
def verifyRepairTimeoutProof (cfg : Config) (proof : RepairTimeoutProof) : Bool :=
  cfg.f + 1 ≤ proof.timeouts.length &&
  proof.timeouts.length == proof.signatures.length &&
  decide (proof.timeouts.map (·.replicaId)).Nodup &&
  proof.timeouts.all (·.round == proof.round) &&
  verifyAll (·.replicaId) .repairTimeout proof.timeouts proof.signatures

/-- `verifyCheckpoint` -/
def verifyCheckpoint (_ : LogCheckpointProto) : Bool := true

/-- The checks of `verifyRepairStart` on a prepared history. -/
def verifyPreparedHistory (cfg : Config) (h : PreparedHistory) : Bool :=
  cfg.quorumSize ≤ h.prepares.length &&
  h.prepares.length == h.prepareSigs.length &&
  verifyAll (·.replicaId) .prepare h.prepares h.prepareSigs

/-- `verifyRepairStart`.  A certificate that does not verify stops the process where the
normal path is switched off. -/
def verifyRepairStart (cfg : Config) (m : RepairStart) : Except Fault Bool :=
  if m.log.cert.any fun cert => !verifyCert cfg cert then
    if cfg.clientNormalPathEnabled then .ok false else .error .assertion
  else .ok (verifyCheckpoint m.log.checkpoint &&
    m.preparedHistory.all (verifyPreparedHistory cfg))

/-- The loop of `verifyRepairProposal`.  Reading a signature that is not there is
undefined. -/
def verifyStartMsgs (cfg : Config) : List RepairStart → List Bytes → Except Fault Bool
  | [], _ => .ok true
  | _ :: _, [] => .error .undefined
  | m :: ms, sig :: sigs =>
    if !SignatureProvider.verify m.replicaId (Msg.repairStart m).body sig then .ok false
    else do
      if ← verifyRepairStart cfg m then verifyStartMsgs cfg ms sigs
      else return false

/-- `verifyRepairProposal` -/
def verifyRepairProposal (cfg : Config) (p : RepairProposal) : Except Fault Bool :=
  verifyStartMsgs cfg p.startMsgs p.signatures

variable [Sha256]

/-- `verifyMessagesThd`: whether a message with a signature is handed on.  A proposal that
does not verify fails an assertion. -/
def verifyMessage (cfg : Config) (msg : Msg) (sig : Bytes) : Except Fault Bool :=
  let signedBy (replicaId : ℕ) : Bool := SignatureProvider.verify replicaId msg.body sig
  match msg with
  | .cert m => .ok (verifyCert cfg m)
  | .reply m => .ok (signedBy m.replicaId)
  | .commit m => .ok (signedBy m.replicaId)
  | .snapshotRequest m => .ok (signedBy m.replicaId)
  | .snapshotReply m =>
    .ok (signedBy m.replicaId && verifyCheckpoint m.checkpoint &&
      m.snapshotCheckpoint.all verifyCheckpoint)
  | .missingRequestFetch m => .ok (signedBy m.replicaId)
  | .missingRequestReply m => .ok (signedBy m.replicaId)
  | .clientRequest m => .ok (SignatureProvider.verifyClient m.clientId m sig)
  | .repairTimeout m => .ok (signedBy m.replicaId)
  | .repairReplyProof m => .ok (verifyRepairReplyProof cfg m)
  | .repairTimeoutProof m => .ok (verifyRepairTimeoutProof cfg m)
  | .repairStart m => .ok (signedBy m.replicaId)
  | .prePrepare m =>
    if !signedBy m.primaryId then .ok false
    else if getProposalDigest m.proposal ≠ m.proposalDigest then .ok false
    else do
      if ← verifyRepairProposal cfg m.proposal then return true
      else .error .assertion
  | .prepare m => .ok (signedBy m.replicaId)
  | .pbftCommit m => .ok (signedBy m.replicaId)
  | .viewUpdate m => .ok (signedBy m.replicaId)
  | _ => .ok false

/-- A scheme to evaluate the model with: a signature is the number of its replica. -/
abbrev numberSignatures : SignatureProvider where
  sign i _ := [UInt8.ofNat i]
  verify i _ sig := sig = [UInt8.ofNat i]
  verifyClient _ _ _ := true

/-- The same scheme with the keys of the first `n` replicas only. -/
abbrev numberSignaturesBelow (n : ℕ) : SignatureProvider where
  sign i _ := [UInt8.ofNat i]
  verify i _ sig := i < n && sig == [UInt8.ofNat i]
  verifyClient _ _ _ := true

/-- Four replicas with a key each. -/
abbrev fourKeys : SignatureProvider := numberSignaturesBelow 4

end DomBft
