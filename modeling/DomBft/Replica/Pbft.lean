import DomBft.Replica.Repair

/-!
`replica.cc`: how the replicas agree on a proposal for a repair.

* `doPrePreparePhase`, `doPreparePhase`, `doCommitPhase`: what is sent in the three phases.
* `processPrePrepare`, `processPrepare`, `processPBFTCommit`: what is done with it.
* `startViewChange`, `updateReplicaView`: the views and their primaries.
* `processRepairTimeout`, `processRepairReplyProof`, `processRepairTimeoutProof`,
  `processRepairStart`: what starts a repair, and its first message.
* `checkTimeouts`: the timers.  The view is a `uint32_t`.
-/

namespace DomBft.Replica

open Std (ExtTreeMap)

variable {A : Type} [Sha256]

/-! ### The phases -/

/-- The start messages that the proposal of a round is made of. -/
def proposalStartMsgs (r : Replica A) (round : ℕ) : List (ℕ × RepairStart) :=
  r.repairStartMsgs.toList.filter fun (_, m) => m.round = round ∨ m.pbftView = r.pbftView

/-- `doPrePreparePhase` -/
def doPrePreparePhase (cfg : Config) (r : Replica A) (round : ℕ) : Replica A :=
  if !r.isPrimary cfg then r
  else
    let startMsgs := r.proposalStartMsgs round
    if startMsgs.any fun (_, m) => m.preparedHistory.isSome then
      r.broadcastToReplicas <| .prePrepare {
        round
        primaryId := r.replicaId
        pbftView := r.pbftView
        proposal := r.lastPreparedState.proposal
        proposalDigest := r.lastPreparedState.proposalDigest }
    else
      let proposal : RepairProposal := {
        round
        replicaId := r.replicaId
        startMsgs := startMsgs.map (·.2)
        signatures := startMsgs.map fun (id, _) => (r.repairHistorySigs[id]?).getD [] }
      { r with proposalDigest := getProposalDigest proposal
        }.broadcastToReplicas <| .prePrepare {
          round
          primaryId := r.replicaId
          pbftView := r.pbftView
          proposal
          proposalDigest := getProposalDigest proposal }

/-- `doPreparePhase` -/
def doPreparePhase (cfg : Config) (r : Replica A) : Except Fault (Replica A) :=
  match r.repairProposal with
  | none => .error .undefined
  | some proposal => do
    let (r, suffix) ← r.getRepairLogSuffix cfg
    return r.broadcastToReplicas <| .prepare {
      replicaId := r.replicaId
      round := proposal.round
      pbftView := r.pbftView
      proposalDigest := r.proposalDigest
      logDigest := suffix.logDigest }

/-- `doCommitPhase` -/
def doCommitPhase (cfg : Config) (r : Replica A) : Except Fault (Replica A) :=
  match r.repairProposal with
  | none => .error .undefined
  | some proposal => do
    let (r, suffix) ← r.getRepairLogSuffix cfg
    return r.broadcastToReplicas <| .pbftCommit {
      replicaId := r.replicaId
      round := proposal.round
      pbftView := r.pbftView
      proposalDigest := r.proposalDigest
      logDigest := suffix.logDigest }

/-- `processPrePrepare` -/
def processPrePrepare (cfg : Config) (r : Replica A) (msg : PBFTPrePrepare) :
    Except Fault (Replica A) :=
  if msg.round < r.round then .ok r
  else if r.round < msg.round then .ok r
  else if msg.pbftView ≠ r.pbftView then .ok r
  else if r.getPrimary cfg ≠ msg.primaryId then .ok r
  else
    { r with
      repairProposal := some msg.proposal
      repairProposalLogSuffix := none
      proposalDigest := msg.proposalDigest }.doPreparePhase cfg

/-- The number of messages of a round and the current view that name the current digest. -/
def countMatching {M : Type} (r : Replica A) (msgs : ExtTreeMap ℕ M compare)
    (field : M → ℕ × Bytes × ℕ) (round : ℕ) : ℕ :=
  (msgs.toList.filter fun (_, m) => field m = (round, r.proposalDigest, r.pbftView)).length

/-- The part of `processPrepare` that stores a prepare. -/
def addPrepare (r : Replica A) (msg : PBFTPrepare) (sig : Bytes) : Replica A :=
  { r with
    repairPrepares := r.repairPrepares.insert msg.replicaId msg
    repairPrepareSigs := r.repairPrepareSigs.insert msg.replicaId sig }

/-- The part of `processPrepare` that stores the state for a potential view change. -/
def setPrepared (r : Replica A) (proposal : RepairProposal) : Replica A :=
  let prepares := r.repairPrepares.filter fun _ prepare => prepare.round = proposal.round
  { r with
    preparedRound := proposal.round
    viewPrepared := true
    lastPreparedState := {
      round := proposal.round
      pbftView := r.pbftView
      proposal
      proposalDigest := r.proposalDigest
      prepares
      prepareSigs := prepares.toList.foldl
        (fun m (id, _) => m.insert id ((r.repairPrepareSigs[id]?).getD []))
        r.lastPreparedState.prepareSigs } }

/-- `processPrepare` -/
def processPrepare (cfg : Config) (r : Replica A) (msg : PBFTPrepare) (sig : Bytes) :
    Except Fault (Replica A) :=
  if msg.pbftView ≠ r.pbftView then .ok r
  else if msg.round < r.round ∧ r.viewPrepared then .ok r
  else if r.round < msg.round then .ok r
  else if (r.repairPrepares[msg.replicaId]?).any
      fun m => msg.round < m.round && m.pbftView == msg.pbftView then .ok r
  else
    let r := r.addPrepare msg sig
    if r.viewPrepared ∧ r.preparedRound = msg.round then .ok r
    else match r.repairProposal with
      | none => .ok r
      | some proposal =>
        if proposal.round < msg.round then .ok r
        else if r.countMatching r.repairPrepares
            (fun m => (m.round, m.proposalDigest, m.pbftView)) proposal.round < cfg.quorumSize then
          .ok r
        else (r.setPrepared proposal).doCommitPhase cfg

/-- The part of `processPBFTCommit` that stores a commit. -/
def addPBFTCommit (r : Replica A) (msg : PBFTCommit) (sig : Bytes) : Replica A :=
  { r with
    repairPBFTCommits := r.repairPBFTCommits.insert msg.replicaId msg
    repairCommitSigs := r.repairCommitSigs.insert msg.replicaId sig }

/-- `processPBFTCommit` -/
def processPBFTCommit [Application A] [PaddedRequestData] (cfg : Config) (now : ℕ) (r : Replica A)
    (msg : PBFTCommit) (sig : Bytes) : Except Fault (Replica A) :=
  if msg.pbftView ≠ r.pbftView then .ok r
  else if msg.round < r.round then .ok r
  else if r.round < msg.round then .ok r
  else if (r.repairPBFTCommits[msg.replicaId]?).any
      fun m => msg.round < m.round && m.pbftView == msg.pbftView then .ok r
  else
    let r := r.addPBFTCommit msg sig
    match r.repairProposal with
    | none => .ok r
    | some proposal =>
      if proposal.round < msg.round then .ok r
      else if r.preparedRound = 2 ^ 32 - 1 ∨ r.preparedRound ≠ msg.round ∨ !r.viewPrepared then
        .ok r
      else if r.countMatching r.repairPBFTCommits
          (fun m => (m.round, m.proposalDigest, m.pbftView)) r.preparedRound < cfg.quorumSize then
        .ok r
      else r.tryFinishRepair cfg now

/-! ### Views -/

/-- The part of `startViewChange` that sends the start message, with the prepares where the
replica is prepared in this round. -/
def sendViewChange (cfg : Config) (r : Replica A) : Except Fault (Replica A) :=
  if r.lastPreparedState.round = r.round then
    let prepares := r.lastPreparedState.prepares.toList
    let repairStart : RepairStart := {
      replicaId := r.replicaId
      pbftView := r.pbftView
      round := r.round
      preparedHistory := some {
        prepares := prepares.map (·.2)
        prepareSigs := prepares.map fun (id, _) =>
          (r.lastPreparedState.prepareSigs[id]?).getD [] } }
    { r with repairStart := some repairStart }.sendToReplica cfg (r.getPrimary cfg)
      (.repairStart repairStart)
  else match r.repairStart with
    | none => .error .undefined
    | some repairStart =>
      if repairStart.round ≠ r.round then .error .assertion
      else
        let repairStart := { repairStart with preparedHistory := none, pbftView := r.pbftView }
        { r with repairStart := some repairStart }.sendToReplica cfg (r.getPrimary cfg)
          (.repairStart repairStart)

/-- `startViewChange` -/
def startViewChange (cfg : Config) (r : Replica A) (newView : ℕ) : Except Fault (Replica A) := do
  let r := { r with
    pbftView := newView, repair := true, viewPrepared := false, repairViewStart := 0 }
  let r ← r.sendViewChange cfg
  let numStartMsgs := (r.repairStartMsgs.toList.filter fun (_, m) =>
    m.round = r.round ∧ m.pbftView = r.pbftView).length
  let r :=
    if r.isPrimary cfg && decide (cfg.quorumSize ≤ numStartMsgs) then
      r.doPrePreparePhase cfg r.round
    else r
  return r.broadcastToReplicas <| .viewUpdate {
    replicaId := r.replicaId
    view := r.pbftView
    round := r.round }

/-- `updateReplicaView` -/
def updateReplicaView (cfg : Config) (now : ℕ) (r : Replica A) (replicaId view round : ℕ) :
    Except Fault (Replica A) :=
  if r.replicaViews[replicaId]? = some (view, round) then .ok r
  else
    let replicaViews := r.replicaViews.insert replicaId (view, round)
    let numSameView :=
      (replicaViews.toList.filter fun (_, v) => v = (r.pbftView, r.round)).length
    let r := { r with
      replicaViews
      repairViewStart := if cfg.quorumSize ≤ numSameView then now else r.repairViewStart }
    let higher := (replicaViews.toList.map (·.2.1)).filter (r.pbftView < ·)
    let minHigherView := higher.foldl min (2 ^ 32 - 1)
    if higher ≠ [] ∧ minHigherView = 2 ^ 32 - 1 then .error .assertion
    else if cfg.numReplicas - cfg.quorumSize + 1 ≤ higher.length then
      r.startViewChange cfg minHigherView
    else .ok r

/-! ### Starting a repair -/

/-- `processRepairTimeout` -/
def processRepairTimeout (cfg : Config) (r : Replica A) (msg : RepairTimeout) (sig : Bytes) :
    Except Fault (Replica A) :=
  if r.repair then .ok r
  else if msg.round < r.round then .ok r
  else if msg.view < r.pbftView then .ok r
  else match r.checkpointCollectors.collectors[(r.round, msg.seq)]? with
    | none => .ok r
    | some coll =>
      let (coll, ready) := coll.addAndCheckTimeout cfg msg sig
      let r := r.setCollector r.round msg.seq coll
      if ready then
        match coll.repairTimeoutProof with
        | none => .error .undefined
        | some proof =>
          (r.broadcastToReplicas <| .repairTimeoutProof { proof with
            replicaId := r.replicaId
            view := r.pbftView
            round := r.round }).startRepair cfg
      else .ok r

/-- `processRepairReplyProof` -/
def processRepairReplyProof (cfg : Config) (now : ℕ) (r : Replica A) (msg : RepairReplyProof) :
    Except Fault (Replica A) := do
  let r ← r.updateReplicaView cfg now msg.replicaId msg.view msg.round
  if r.round < msg.round then return { r with pendingRepair := true }
  else if r.repair then return r
  else if msg.round < r.round then return r
  else if msg.view < r.pbftView then return r
  else
    (r.broadcastToReplicas <| .repairReplyProof { msg with
      replicaId := r.replicaId
      view := r.pbftView }).startRepair cfg

/-- `processRepairTimeoutProof` -/
def processRepairTimeoutProof (cfg : Config) (now : ℕ) (r : Replica A) (msg : RepairTimeoutProof) :
    Except Fault (Replica A) := do
  let r ← r.updateReplicaView cfg now msg.replicaId msg.view msg.round
  if r.round < msg.round then return { r with pendingRepair := true }
  else if r.repair then return r
  else if msg.round < r.round then return r
  else (r.broadcastToReplicas (.repairTimeoutProof msg)).startRepair cfg

/-- `processRepairStart` -/
def processRepairStart (cfg : Config) (r : Replica A) (msg : RepairStart) (sig : Bytes) :
    Replica A :=
  if msg.pbftView % cfg.numReplicas ≠ r.replicaId then r
  else if msg.round < r.round then r
  else if (r.repairStartMsgs[msg.replicaId]?).any fun m => decide (msg.round ≤ m.round) then r
  else
    let r := { r with
      repairStartMsgs := r.repairStartMsgs.insert msg.replicaId msg
      repairHistorySigs := r.repairHistorySigs.insert msg.replicaId sig }
    let numStartMsgs :=
      (r.repairStartMsgs.toList.filter fun (_, m) => m.round = msg.round).length
    if r.isPrimary cfg && numStartMsgs == cfg.quorumSize then
      r.doPrePreparePhase cfg msg.round
    else r

/-! ### Timers -/

/-- The part of `checkTimeouts` for a collector: its timeout is broadcast once. -/
def checkCollector (cfg : Config) (now : ℕ) (r : Replica A) (key : ℕ × ℕ)
    (coll : CheckpointCollector) : Replica A :=
  let (coll, timedOut) := coll.checkSelfTimeout now cfg.replicaCheckpointTimeout
  let r := r.setCollector key.1 key.2 coll
  if timedOut then
    r.broadcastToReplicas <| .repairTimeout {
      replicaId := r.replicaId
      round := r.round
      view := r.pbftView
      seq := key.2 }
  else r

/-- The part of `checkTimeouts` for the checkpoint at the end of the log. -/
def checkCheckpointTimeout [Application A] (cfg : Config) (now : ℕ) (r : Replica A) :
    Except Fault (Replica A) :=
  if r.checkpointTimeoutStart ≠ 0 ∧
      cfg.replicaCheckpointTimeout < now - r.checkpointTimeoutStart ∧
      !r.checkpointCollectors.hasCollector r.round (r.log.nextSeq - 1) then do
    let r ← r.startCheckpoint false
    return { r with checkpointTimeoutStart := 0 }
  else .ok r

/-- The part of `checkTimeouts` for the view. -/
def checkViewTimeout (cfg : Config) (now : ℕ) (r : Replica A) : Except Fault (Replica A) :=
  if r.repairViewStart ≠ 0 ∧
      cfg.replicaRepairViewTimeout * 2 ^ r.numConsecutiveViewChanges < now - r.repairViewStart then
    { r with
      repairViewStart := now
      numConsecutiveViewChanges := r.numConsecutiveViewChanges + 1
      }.startViewChange cfg ((r.pbftView + 1) % 2 ^ 32)
  else .ok r

/-- `checkTimeouts` -/
def checkTimeouts [Application A] (cfg : Config) (now : ℕ) (r : Replica A) :
    Except Fault (Replica A) := do
  let r := r.checkpointCollectors.collectors.toList.foldl
    (fun r (key, coll) => r.checkCollector cfg now key coll) r
  let r ← r.checkCheckpointTimeout cfg now
  r.checkViewTimeout cfg now

end DomBft.Replica
