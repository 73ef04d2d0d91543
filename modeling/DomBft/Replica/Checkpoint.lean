import DomBft.Replica

/-!
`replica.cc`: client requests, certificates, and the protocol that commits checkpoints.

* `processClientRequest`, `processCert`: requests and certificates of clients.
* `startCheckpoint`, `processReply`, `processSnapshot`, `processCommit`: replies are collected
  to a certificate, commits to a checkpoint.
* `processSnapshotRequest`: the committed part of the log for a replica that lacks it.
-/

namespace DomBft.Replica

open Std (ExtTreeMap)

variable {A : Type} [Application A] [Sha256]

/-! ### Requests -/

/-- The callback of `startCheckpoint`: the snapshot waits in the queue. -/
def takeSnapshot (r : Replica A) : Replica A :=
  { r with snapshotQueue := r.snapshotQueue ++ [(r.round, Application.takeSnapshot r.log.app)] }

omit [Application A] [Sha256] in
/-- The collector of a position is there or is created; the result is `false` where the
position has been passed. -/
def initCollector (r : Replica A) (round seq : ℕ) (needsSnapshot : Bool) :
    Except Fault (Replica A × Bool) :=
  if r.checkpointCollectors.hasCollector round seq then .ok (r, true)
  else do
    let (checkpointCollectors, created) ←
      r.checkpointCollectors.initCollector r.replicaId round seq needsSnapshot
    return ({ r with checkpointCollectors }, created)

omit [Application A] [Sha256] in
/-- The collector of a position is changed in place. -/
def setCollector (r : Replica A) (round seq : ℕ) (coll : CheckpointCollector) : Replica A :=
  { r with checkpointCollectors := r.checkpointCollectors.set round seq coll }

/-- `startCheckpoint` -/
def startCheckpoint (r : Replica A) (createSnapshot : Bool) : Except Fault (Replica A) := do
  let seq := r.log.nextSeq - 1
  let r := if createSnapshot then r.takeSnapshot else r
  match ← r.initCollector r.round seq createSnapshot with
  | (r, false) => return r
  | (r, true) =>
    let coll ← r.checkpointCollectors.get r.round seq
    let digest ← r.log.getDigestAt seq
    let r := r.setCollector r.round seq (coll.addOwnState digest r.log.clientRecord)
    let entry ← r.log.getEntry seq
    return r.broadcastToReplicas <| .reply {
      clientId := entry.clientId
      clientSeq := entry.clientSeq
      replicaId := r.replicaId
      round := r.round
      seq := entry.seq
      digest := entry.digest }

variable [PaddedRequestData]

omit [Application A] [Sha256] [PaddedRequestData] in
/-- The timer for the next checkpoint starts again. -/
def restartTimer (now : ℕ) (r : Replica A) : Replica A := { r with checkpointTimeoutStart := now }

/-- The end of `processClientRequest`: a checkpoint at every interval. -/
def checkpointAt (cfg : Config) (now : ℕ) (r : Replica A) (seq : ℕ) : Except Fault (Replica A) := do
  let r ←
    if seq % cfg.replicaCheckpointInterval = 0 then
      restartTimer now <$> r.startCheckpoint (seq % cfg.replicaSnapshotInterval == 0)
    else .ok r
  return if seq = 1 then r.restartTimer now else r

/-- `processClientRequest` -/
def processClientRequest (cfg : Config) (now : ℕ) (r : Replica A) (request : ClientRequestProto)
    (queued : Bool := false) : Except Fault (Replica A) :=
  if cfg.numClients < request.clientId.toNat then .ok r
  else if r.log.committedCheckpoint.clientRecord.contains request.clientId request.clientSeq then
    r.sendToClient cfg request.clientId <| .committedReply {
      replicaId := r.replicaId
      clientId := request.clientId
      clientSeq := request.clientSeq }
  else do
    match ← r.log.addEntry request.clientId request.clientSeq request.reqData with
    | (log, none) => return { r with log }
    | (log, some result) =>
      let seq := log.nextSeq - 1
      let log ← log.setDeadline seq request.deadline
      let r := { r with log }
      let r ← r.sendToClient cfg request.clientId <| .reply {
        clientId := request.clientId
        clientSeq := request.clientSeq
        replicaId := r.replicaId
        result
        seq
        round := r.round
        digest := log.getDigest
        queued }
      r.checkpointAt cfg now seq

omit [Application A] [Sha256] [PaddedRequestData] in
/-- `processCert` -/
def processCert (cfg : Config) (r : Replica A) (cert : Cert) : Except Fault (Replica A) :=
  match cert.replies.head? with
  | none => .error .undefined
  | some reply =>
    if cert.round < r.round then .ok r
    else if r.repair then .ok r
    else do
      match ← r.log.addCert cert.seq cert with
      | (log, false) => return { r with log }
      | (log, true) =>
        let r := { r with log }
        r.sendToClient cfg reply.clientId <| .certReply {
          replicaId := r.replicaId
          round := r.round
          clientId := reply.clientId
          clientSeq := reply.clientSeq
          seq := reply.seq }

/-! ### Checkpoints -/

omit [Application A] [PaddedRequestData] in
/-- Where the collector is ready, the own commit is sent. -/
def sendOwnCommit (r : Replica A) (coll : CheckpointCollector) : Except Fault (Replica A) :=
  if coll.commitReady then do
    let commit ← coll.getOwnCommit
    return r.broadcastToReplicas (.commit commit)
  else .ok r

omit [PaddedRequestData] in
/-- The part of `processReply` for a position outside the interval: the replica that sends it
has waited too long for the next one. -/
def checkpointTimedOut (cfg : Config) (r : Replica A) (reply : Reply) : Except Fault (Replica A) :=
  let started := r.checkpointCollectors.hasCollector r.round reply.seq
  let committed := decide (reply.seq ≤ r.log.committedCheckpoint.seq)
  let (round, seq) := (r.checkpointTimeoutSeqs[reply.replicaId]?).getD (0, 0)
  let tried := decide (seq ≠ 0 ∧ round = r.round ∧
    reply.seq / cfg.replicaCheckpointInterval = seq / cfg.replicaCheckpointInterval)
  if reply.seq % cfg.replicaCheckpointInterval ≠ 0 ∧ !started ∧ !committed ∧ !tried then
    { r with checkpointTimeoutSeqs :=
        r.checkpointTimeoutSeqs.insert reply.replicaId (r.round, reply.seq) }.startCheckpoint false
  else .ok r

omit [Application A] [PaddedRequestData] in
/-- The part of `processReply` with a certificate. -/
def useCert (cfg : Config) (r : Replica A) (coll : CheckpointCollector) (reply : Reply) :
    Except Fault (Replica A) :=
  if reply.round ≠ r.round then .error .assertion
  else if cfg.clientNormalPathEnabled then
    match coll.replyCollector.cert with
    | none => .error .undefined
    | some cert => do
      match ← r.log.addCert reply.seq cert with
      | (log, false) => return { r with log }
      | (log, true) =>
        let r := { r with log }
        r.sendOwnCommit coll
  else r.sendOwnCommit coll

omit [Application A] [PaddedRequestData] in
/-- The part of `processReply` with a proof that the replies do not match. -/
def useConflictProof (cfg : Config) (r : Replica A) (coll : CheckpointCollector) :
    Except Fault (Replica A) :=
  match coll.replyCollector.repairReplyProof with
  | none => .ok r
  | some proof =>
    (r.broadcastToReplicas <| .repairReplyProof { proof with
      replicaId := r.replicaId
      round := r.round
      view := r.pbftView }).startRepair cfg

omit [PaddedRequestData] in
/-- `processReply` -/
def processReply (cfg : Config) (now : ℕ) (r : Replica A) (reply : Reply) (sig : Bytes) :
    Except Fault (Replica A) :=
  if r.repair then .ok r
  else if reply.round < r.round then .ok r
  else do
    let r ← r.checkpointTimedOut cfg reply
    if reply.seq ≤ r.log.committedCheckpoint.seq then return r
    else
      match ← r.initCollector r.round reply.seq (reply.seq % cfg.replicaSnapshotInterval == 0) with
      | (r, false) => return r
      | (r, true) =>
        let coll ← r.checkpointCollectors.get r.round reply.seq
        if coll.commitReady then return r
        else
          let (coll, ready) := coll.addAndCheckReply cfg now reply sig
          let r := r.setCollector r.round reply.seq coll
          if ready then r.useCert cfg coll reply else r.useConflictProof cfg coll

omit [Application A] [PaddedRequestData] in
/-- `processSnapshot` -/
def processSnapshot (r : Replica A) (snapshot : AppSnapshot) (round : ℕ) :
    Except Fault (Replica A) :=
  match r.checkpointCollectors.collectors[(round, snapshot.seq)]? with
  | none => .ok r
  | some coll =>
    let coll := coll.addOwnSnapshot snapshot
    (r.setCollector round snapshot.seq coll).sendOwnCommit coll

omit [Application A] [Sha256] [PaddedRequestData] in
/-- `cleanStaleCollectors` with the positions of the log. -/
def cleanStaleCollectors (r : Replica A) : Except Fault (Replica A) := do
  let checkpointCollectors ← r.checkpointCollectors.cleanStaleCollectors
    r.log.stableCheckpoint.seq r.log.committedCheckpoint.seq
  return { r with checkpointCollectors }

omit [Sha256] [PaddedRequestData] in
/-- `setCheckpoint` on the log, and what follows it. -/
def commitCheckpoint (r : Replica A) (checkpoint : LogCheckpoint) : Except Fault (Replica A) := do
  let log ← r.log.setCheckpoint checkpoint
  { r with log }.cleanStaleCollectors

omit [Application A] [Sha256] [PaddedRequestData] in
/-- The part of `processCommit` for a checkpoint that the log does not have. -/
def requestCheckpoint (cfg : Config) (now : ℕ) (r : Replica A) (checkpoint : LogCheckpoint) :
    Except Fault (Replica A) :=
  match checkpoint.commits.toList[now % checkpoint.commits.size]? with
  | none => .error .assertion
  | some (_, commit) =>
    if cfg.replicaSkipAlignment then .ok r
    else do
      let r ←
        if !r.checkpointSnapshotRequested ∨
            r.log.nextSeq + 5 * cfg.replicaCheckpointInterval ≤ checkpoint.seq then
          r.sendSnapshotRequest cfg commit.replicaId checkpoint.seq
        else .ok r
      return { r with checkpointSnapshotRequested := true }

omit [PaddedRequestData] in
/-- The part of `processCommit` with a checkpoint. -/
def useCheckpoint (cfg : Config) (now : ℕ) (r : Replica A) (coll : CheckpointCollector) :
    Except Fault (Replica A) := do
  let checkpoint ← coll.getCheckpoint
  if r.log.nextSeq ≤ checkpoint.seq then r.requestCheckpoint cfg now checkpoint
  else
    let digest ← r.log.getDigestAt checkpoint.seq
    if digest ≠ checkpoint.logDigest then r.requestCheckpoint cfg now checkpoint
    else if !coll.needsSnapshot ∨ checkpoint.snapshot.isSome then r.commitCheckpoint checkpoint
    else return r

omit [PaddedRequestData] in
/-- `processCommit` -/
def processCommit (cfg : Config) (now : ℕ) (r : Replica A) (commit : Commit) (sig : Bytes) :
    Except Fault (Replica A) := do
  match ← r.initCollector commit.round commit.seq
    (commit.seq % cfg.replicaSnapshotInterval == 0 || commit.appDigest.isSome) with
  | (r, false) => return r
  | (r, true) =>
    let coll ← r.checkpointCollectors.get commit.round commit.seq
    let (coll, ready) := coll.addAndCheckCommit cfg commit sig
    let r := r.setCollector commit.round commit.seq coll
    if ready then r.useCheckpoint cfg now coll else return r

omit [Application A] [PaddedRequestData] in
/-- `processSnapshotRequest` -/
def processSnapshotRequest (cfg : Config) (r : Replica A) (request : SnapshotRequest) :
    Except Fault (Replica A) :=
  if r.log.committedCheckpoint.seq < request.seq then .ok r
  else do
    let reply ← r.log.snapshotReply r.round r.replicaId request.lastCheckpointSeq
    r.sendToReplica cfg request.replicaId (.snapshotReply reply)

end DomBft.Replica
