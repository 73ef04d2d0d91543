import DomBft.Replica.Checkpoint

/-!
`replica.cc`: the end of a repair.

* `tryFinishRepair` and `processSnapshotReply` apply the suffix of the proposal and go on with
  `finishRepair`.  Each is split there: `tryApply` and `applySnapshot` are what happens before,
  with the aborted requests where the repair is finished.
* `finishRepair`: the next round, the summary for the clients, the checkpoint, and the requests
  that have been queued.  The round is a `uint32_t`.
* `sendMissingRequestFetch`, `processMissingRequestFetch`, `processMissingRequestReply`: requests
  that the suffix names and nobody has sent along.
* `processDOMRequest`: a request with a deadline, which waits while a repair is going on.
-/

namespace DomBft.Replica

open Std (ExtTreeMap)

variable {A : Type} [Application A] [Sha256] [PaddedRequestData]

/-! ### The suffix of the proposal -/

omit [Application A] [PaddedRequestData] in
/-- `getRepairLogSuffix`: the suffix is computed once for each round. -/
def getRepairLogSuffix (cfg : Config) (r : Replica A) : Except Fault (Replica A × LogSuffix) :=
  let compute : Except Fault (Replica A × LogSuffix) :=
    match r.repairProposal with
    | none => .error .undefined
    | some proposal => do
      let suffix ← getLogSuffixFromProposal cfg proposal
      let suffix := { suffix with replicaId := r.replicaId, round := r.round }
      return ({ r with repairProposalLogSuffix := some suffix }, suffix)
  match r.repairProposalLogSuffix with
  | none => compute
  | some suffix => if suffix.round = r.round then .ok (r, suffix) else compute

omit [Application A] [Sha256] [PaddedRequestData] in
/-- The requests that wait, by their key. -/
def queuedRequests (r : Replica A) : RequestMap Bytes :=
  r.repairQueuedReqs.toList.foldl (fun m e => m.insert (e.2.clientId, e.2.clientSeq) e.2.reqData) ∅

omit [Application A] [Sha256] [PaddedRequestData] in
/-- `sendMissingRequestFetch` -/
def sendMissingRequestFetch (r : Replica A) (missing : List RequestId) : Replica A :=
  if missing = [] then r
  else
    { r with pendingMissingRequests := missing, missingRequestFetchSent := true
      }.broadcastToReplicas <| .missingRequestFetch {
        round := r.round, replicaId := r.replicaId, requestIds := missing }

/-! ### Finishing a repair -/

omit [Application A] [Sha256] [PaddedRequestData] in
/-- The replies to one client in `sendRepairSummaryToClients`. -/
def repairSummary (r : Replica A) (entries : List LogEntry) (clientId : UInt32) :
    RepairSummary where
  round := r.round
  replicaId := r.replicaId
  pbftView := r.pbftView
  committedSeqs := r.log.committedCheckpoint.clientRecord.toProtoSingleClient clientId
  replies := (entries.filter (·.clientId = clientId)).map fun e =>
    { replicaId := r.replicaId, clientId := e.clientId, clientSeq := e.clientSeq, seq := e.seq,
      result := e.result, isRepair := true }

omit [Application A] [Sha256] [PaddedRequestData] in
/-- `sendRepairSummaryToClients` -/
def sendRepairSummaryToClients (cfg : Config) (r : Replica A) : Except Fault (Replica A) := do
  let start := r.log.committedCheckpoint.seq + 1
  let entries ← (List.range' start (r.log.nextSeq - start)).mapM r.log.getEntry
  let clients := entries.foldl (fun m e => m.insert e.clientId ()) (∅ : ExtTreeMap UInt32 Unit)
  clients.keys.foldlM
    (fun r' c => r'.sendToClient cfg c (.repairSummary (r.repairSummary entries c))) r

omit [PaddedRequestData] in
/-- The part of `finishRepair` that starts a commit with a snapshot: the snapshot waits in the
queue, and the commit goes out with its digest. -/
def commitWithSnapshot (r : Replica A) (seq : ℕ) : Except Fault (Replica A) := do
  let logDigest ← r.log.getDigestAt seq
  let (r, _) ← r.initCollector r.round seq true
  let r := r.takeSnapshot
  return r.broadcastToReplicas <| .commit {
    replicaId := r.replicaId
    round := r.round
    seq
    logDigest
    appDigest := some (Application.takeSnapshot r.log.app).digest
    clientRecord := r.log.clientRecord.toProto }

omit [Sha256] [PaddedRequestData] in
/-- The part of `finishRepair` that commits the log with the commits of the repair. -/
def commitRepair (r : Replica A) (seq : ℕ) : Except Fault (Replica A) := do
  let logDigest ← r.log.getDigestAt seq
  match r.repairPBFTCommits.toList with
  | [] => .error .undefined
  | (_, first) :: _ =>
    if logDigest ≠ first.logDigest then .ok r
    else
      let log ← r.log.setCheckpoint {
        seq
        logDigest
        repairCommits := r.repairPBFTCommits
        repairCommitSigs := r.repairPBFTCommits.map fun i _ => (r.repairCommitSigs[i]?).getD []
        clientRecord := r.log.clientRecord }
      return { r with log }

omit [PaddedRequestData] in
/-- The part of `finishRepair` that makes a checkpoint at the end of the log. -/
def checkpointRepair (cfg : Config) (r : Replica A) : Except Fault (Replica A) := do
  let (r, suffix) ← r.getRepairLogSuffix cfg
  let seq := r.log.nextSeq - 1
  if seq ≤ r.log.committedCheckpoint.seq then return r
  else if suffix.checkpoint.seq / cfg.replicaSnapshotInterval <
      seq / cfg.replicaSnapshotInterval then
    r.commitWithSnapshot seq
  else r.commitRepair seq

omit [Application A] [Sha256] [PaddedRequestData] in
/-- The part of `finishRepair` that leaves the repair: the aborted requests join those that
wait, without their deadline. -/
def endRepair (r : Replica A) (aborted : List ClientRequestProto) : Replica A :=
  { r with
    repair := false
    repairProposal := none
    repairPrepares := ∅
    repairPBFTCommits := ∅
    repairProposalLogSuffix := none
    missingRequestFetchSent := false
    repairQueuedReqs := aborted.foldl (fun m req =>
      m.insertIfNew (req.deadline, req.clientId) { req with deadline := 0 }) r.repairQueuedReqs
    curRoundStartSeq := r.log.nextSeq }

/-- The part of `finishRepair` that processes the requests that have been waiting. -/
def processQueued (cfg : Config) (now : ℕ) (r : Replica A) : Except Fault (Replica A) := do
  let r ← r.repairQueuedReqs.toList.foldlM
    (fun r e => r.processClientRequest cfg now e.2 true) r
  return { r with repairQueuedReqs := ∅, checkpointTimeoutStart := now }

/-- `finishRepair` -/
def finishRepair (cfg : Config) (now : ℕ) (r : Replica A) (aborted : List ClientRequestProto) :
    Except Fault (Replica A) := do
  let r := { r with round := (r.round + 1) % 2 ^ 32, numConsecutiveViewChanges := 0 }
  let r ← r.sendRepairSummaryToClients cfg
  let r ← r.checkpointRepair cfg
  let r ← (r.endRepair aborted).processQueued cfg now
  if r.pendingRepair then
    let r := { r with pendingRepair := false }
    r.startRepair cfg
  else return r

/-! ### Applying the suffix -/

/-- Applies the suffix; where requests are missing, they are fetched, else the repair is
finished with the aborted requests. -/
def applyProposal (r : Replica A) (suffix : LogSuffix) (available : RequestMap Bytes)
    (aborted : List ClientRequestProto) :
    Except Fault (Replica A × Option (List ClientRequestProto)) := do
  match ← applySuffix suffix available r.log with
  | (log, none) => return ({ r with log }, some aborted)
  | (log, some missing) =>
    let r := { r with log }
    return (r.sendMissingRequestFetch missing, none)

/-- `tryFinishRepair` up to `finishRepair`, with the aborted requests if it gets there. -/
def tryApply (cfg : Config) (r : Replica A) :
    Except Fault (Replica A × Option (List ClientRequestProto)) := do
  let (r, suffix) ← r.getRepairLogSuffix cfg
  match r.repairProposal with
  | none => .error .assertion
  | some proposal =>
    if proposal.round = (r.round + 2 ^ 32 - 1) % 2 ^ 32 then
      let aborted ← getAbortedEntries suffix r.log r.curRoundStartSeq
      return (r, some aborted)
    else
      let r := { r with round := proposal.round, repairViewStart := 0 }
      if r.log.committedCheckpoint.seq < suffix.checkpoint.seq then
        let consistent ←
          if suffix.checkpoint.seq < r.log.nextSeq then
            (fun digest => decide (suffix.checkpoint.logDigest = digest)) <$>
              r.log.getDigestAt suffix.checkpoint.seq
          else .ok false
        if consistent then
          let aborted ← getAbortedEntries suffix r.log r.curRoundStartSeq
          r.applyProposal suffix r.queuedRequests aborted
        else
          let r ←
            if r.repairSnapshotRequested then .ok r
            else r.sendSnapshotRequest cfg suffix.checkpointReplica suffix.checkpoint.seq
          return ({ r with repairSnapshotRequested := true }, none)
      else
        let aborted ← getAbortedEntries suffix r.log r.curRoundStartSeq
        r.applyProposal suffix r.queuedRequests aborted

/-- `tryFinishRepair` -/
def tryFinishRepair (cfg : Config) (now : ℕ) (r : Replica A) : Except Fault (Replica A) := do
  match ← r.tryApply cfg with
  | (r, none) => return r
  | (r, some aborted) => r.finishRepair cfg now aborted

/-! ### Snapshots -/

omit [Application A] [Sha256] [PaddedRequestData] in
/-- Both requests for snapshots are settled. -/
def clearSnapshotRequested (r : Replica A) : Replica A :=
  { r with repairSnapshotRequested := false, checkpointSnapshotRequested := false }

/-- The repair branch of `processSnapshotReply` up to `finishRepair`, with the aborted requests
if it gets there. -/
def applySnapshot (cfg : Config) (r : Replica A) (reply : SnapshotReply) :
    Except Fault (Replica A × Option (List ClientRequestProto)) :=
  if !r.repairSnapshotRequested ∧ reply.round ≤ r.round then .ok (r, none)
  else if r.repairProposal.isNone then .ok (r, none)
  else do
    let (r, suffix) ← r.getRepairLogSuffix cfg
    if reply.seq < suffix.checkpoint.seq then return (r, none)
    else
      let aborted ← getAbortedEntries suffix r.log r.curRoundStartSeq
      let available ← addLocalRequests r.log (r.log.committedCheckpoint.seq + 1) ∅
      let available := r.repairQueuedReqs.toList.foldl
        (fun m e => m.insert (e.2.clientId, e.2.clientSeq) e.2.reqData) available
      match ← r.log.resetToSnapshot reply with
      | (_, false) => .error .runtimeError
      | (log, true) =>
        let r := { r with log }
        let r ← r.cleanStaleCollectors
        r.applyProposal suffix available aborted

/-- The reply to the client of an entry, sent again after the log has changed. -/
def resendReply (cfg : Config) (r : Replica A) (seq : ℕ) : Except Fault (Replica A) := do
  let entry ← r.log.getEntry seq
  r.sendToClient cfg entry.clientId <| .reply {
    clientId := entry.clientId
    clientSeq := entry.clientSeq
    replicaId := r.replicaId
    result := entry.result
    seq
    round := r.round
    digest := entry.digest }

/-- The branch of `processSnapshotReply` outside a repair: the log is aligned with the
snapshot, and the replies above it are sent again. -/
def alignLog (cfg : Config) (r : Replica A) (reply : SnapshotReply) : Except Fault (Replica A) := do
  match ← r.log.applySnapshotModifyLog reply with
  | (_, false) => .error .runtimeError
  | (log, true) =>
    let r := { r with log, round := max r.round reply.round }
    let r ← r.cleanStaleCollectors
    let start := r.log.committedCheckpoint.seq + 1
    (List.range' start (r.log.nextSeq - start)).foldlM (resendReply cfg) r

/-- `processSnapshotReply` -/
def processSnapshotReply (cfg : Config) (now : ℕ) (r : Replica A) (reply : SnapshotReply) :
    Except Fault (Replica A) :=
  if reply.round < r.round then .ok r.clearSnapshotRequested
  else if reply.seq ≤ r.log.committedCheckpoint.seq then .ok r.clearSnapshotRequested
  else if r.repair then do
    match ← r.applySnapshot cfg reply with
    | (r, none) => return r
    | (r, some aborted) =>
      let r ← r.finishRepair cfg now aborted
      let r := { r with round := max r.round reply.round }
      return r.clearSnapshotRequested
  else if cfg.replicaSkipAlignment then .ok r.clearSnapshotRequested
  else do
    let r ← r.alignLog cfg reply
    return r.clearSnapshotRequested

/-! ### Missing requests -/

omit [Application A] [Sha256] [PaddedRequestData] in
/-- `processMissingRequestFetch` -/
def processMissingRequestFetch (cfg : Config) (r : Replica A) (fetch : MissingRequestFetch) :
    Except Fault (Replica A) := do
  let start := r.log.committedCheckpoint.seq + 1
  let entries ← (List.range' start (r.log.nextSeq - start)).mapM r.log.getEntry
  let requests := fetch.requestIds.filterMap fun (clientId, clientSeq) =>
    (entries.find? fun e => e.clientId = clientId ∧ e.clientSeq = clientSeq).map fun e =>
      { clientId, clientSeq, request := e.request }
  if requests = [] then return r
  else r.sendToReplica cfg fetch.replicaId <| .missingRequestReply {
    round := fetch.round, replicaId := r.replicaId, requests }

omit [Application A] [Sha256] [PaddedRequestData] in
/-- A request of a `MissingRequestReply`: one that is pending joins those that wait, under
client and number in the place of deadline and client. -/
def addMissingRequest (r : Replica A) (req : RequestData) : Replica A :=
  if (req.clientId, req.clientSeq) ∈ r.pendingMissingRequests then
    { r with
      repairQueuedReqs := r.repairQueuedReqs.insert (req.clientId.toNat, req.clientSeq)
        { clientId := req.clientId, clientSeq := req.clientSeq, reqData := req.request }
      pendingMissingRequests := r.pendingMissingRequests.erase (req.clientId, req.clientSeq) }
  else r

/-- `processMissingRequestReply` -/
def processMissingRequestReply (cfg : Config) (now : ℕ) (r : Replica A)
    (reply : MissingRequestReply) : Except Fault (Replica A) :=
  if reply.round < r.round then .ok r
  else
    let r := reply.requests.foldl addMissingRequest r
    if r.pendingMissingRequests = [] ∧ r.missingRequestFetchSent then
      { r with missingRequestFetchSent := false }.tryFinishRepair cfg now
    else .ok r

/-! ### Requests with a deadline -/

omit [Application A] [Sha256] [PaddedRequestData] in
/-- A request waits for the end of the repair. -/
def queueRequest (r : Replica A) (request : ClientRequestProto) : Replica A :=
  { r with repairQueuedReqs :=
      r.repairQueuedReqs.insertIfNew (request.deadline, request.clientId) request }

/-- The branch of `processMessagesThd` for a request with a deadline. -/
def processDOMRequest (cfg : Config) (now : ℕ) (r : Replica A) (deadline : ℕ)
    (request : ClientRequestProto) : Except Fault (Replica A) :=
  let request := { request with deadline }
  if !r.repair then r.processClientRequest cfg now request
  else
    let r := r.queueRequest request
    if r.missingRequestFetchSent ∧
        (request.clientId, request.clientSeq) ∈ r.pendingMissingRequests then
      let pending := r.pendingMissingRequests.erase (request.clientId, request.clientSeq)
      let r := { r with pendingMissingRequests := pending }
      if pending = [] then
        let r := { r with missingRequestFetchSent := false }
        r.tryFinishRepair cfg now
      else .ok r
    else .ok r

end DomBft.Replica
