import DomBft.Log
import DomBft.Verify

/-!
`checkpoint_collector.h`, `checkpoint_collector.cc`: the messages a replica collects for the
checkpoint at a position of a round.

* `ReplyCollector`: the replies of the replicas, the certificate they make, and the proof
  that they cannot make one.
* `CommitCollector`: the commits, and the checkpoint that `f + 1` equal ones make.
* `CheckpointCollector`: both of them, with the own state and the timeouts.
* `CheckpointCollectorStore`: the collectors by round and position.
-/

namespace DomBft

open Std (ExtTreeMap)

/-! ### Replies -/

/-- `ReplyKeyTuple`: the fields of a reply that have to match in a checkpoint. -/
structure ReplyKeyTuple where
  digest : Bytes
  round : ℕ
  seq : ℕ
deriving DecidableEq, Repr

/-- The key of a reply in a checkpoint. -/
def Reply.keyTuple (r : Reply) : ReplyKeyTuple := ⟨r.digest, r.round, r.seq⟩

/-- `struct ReplyCollector` -/
structure ReplyCollector where
  replicaId : ℕ
  round : ℕ
  seq : ℕ
  hasOwnReply : Bool := false
  replies : ExtTreeMap ℕ Reply compare := ∅
  replySigs : ExtTreeMap ℕ Bytes compare := ∅
  cert : Option Cert := none
  repairReplyProof : Option RepairReplyProof := none

namespace ReplyCollector

/-- The certificate made of matching replies; its round is not set. -/
def makeCert (replySigs : ExtTreeMap ℕ Bytes compare) (key : ReplyKeyTuple)
    (matching : List (ℕ × Reply)) : Cert where
  seq := key.seq
  replies := matching.map (·.2)
  signatures := matching.map fun (id, _) => (replySigs[id]?).getD []

/-- The loop that looks for matching replies, with the replies looked at so far: the largest
number of matching replies, the certificate, and whether one has been made. -/
def matchReplies (quorumSize replicaId : ℕ) (replySigs : ExtTreeMap ℕ Bytes compare) :
    List (ℕ × Reply) → List (ℕ × Reply) → ℕ × Option Cert × Bool → ℕ × Option Cert × Bool
  | [], _, s => s
  | (id, r) :: rs, seen, (maxMatch, cert, ret) =>
    let seen := seen ++ [(id, r)]
    let matching := seen.filter (·.2.keyTuple = r.keyTuple)
    matchReplies quorumSize replicaId replySigs rs seen
      (max maxMatch matching.length,
        if quorumSize ≤ matching.length ∧ replicaId ∈ matching.map (·.1) then
          (some (makeCert replySigs r.keyTuple matching), true)
        else (cert, ret))

/-- All replies as a proof that they do not match; its round is that of the last one. -/
def makeProof (replies : ExtTreeMap ℕ Reply compare) (replySigs : ExtTreeMap ℕ Bytes compare) :
    RepairReplyProof where
  round := ((replies.toList.getLast?).map (·.2.round)).getD 0
  replies := replies.toList.map (·.2)
  signatures := replies.toList.map fun (id, _) => (replySigs[id]?).getD []

/-- `ReplyCollector::addAndCheckReply` -/
def addAndCheckReply (cfg : Config) (c : ReplyCollector) (reply : Reply) (sig : Bytes) :
    ReplyCollector × Bool :=
  let old := c.replies.size
  let c := { c with
    replies := c.replies.insert reply.replicaId reply
    replySigs := c.replySigs.insert reply.replicaId sig
    hasOwnReply := c.hasOwnReply || reply.replicaId == c.replicaId }
  if c.replies.size = old then (c, false)
  else if !c.hasOwnReply then (c, false)
  else if c.cert.isSome then (c, false)
  else
    let (maxMatch, cert, ret) := matchReplies cfg.superQuorumSize c.replicaId c.replySigs
      c.replies.toList [] (0, none, false)
    let proof :=
      if (cfg.numReplicas : ℤ) - c.replies.size < (cfg.superQuorumSize : ℤ) - maxMatch then
        some (makeProof c.replies c.replySigs)
      else c.repairReplyProof
    ({ c with cert, repairReplyProof := proof }, ret)

end ReplyCollector

/-! ### Commits -/

/-- `CommitKeyTuple`: the fields of a commit that have to match. -/
structure CommitKeyTuple where
  round : ℕ
  seq : ℕ
  logDigest : Bytes
  appDigest : Bytes
  recordDigest : Bytes
deriving DecidableEq, Repr

/-- The key of a commit. -/
def Commit.keyTuple (c : Commit) : CommitKeyTuple :=
  ⟨c.round, c.seq, c.logDigest, c.appDigest.getD [], c.clientRecord.digest⟩

/-- `struct CommitCollector` -/
structure CommitCollector where
  round : ℕ
  seq : ℕ
  commitToUse : Option Commit := none
  commits : ExtTreeMap ℕ Commit compare := ∅
  sigs : ExtTreeMap ℕ Bytes compare := ∅
  matchedReplicas : List ℕ := []

namespace CommitCollector

/-- The loop that looks for matching commits, with the commits looked at so far: the first
commit that `f` others before it match, and the replicas of all of them. -/
def matchCommits (f : ℕ) :
    List (ℕ × Commit) → List (ℕ × Commit) → Option (Commit × List ℕ)
  | [], _ => none
  | (id, c) :: cs, seen =>
    let seen := seen ++ [(id, c)]
    let matching := seen.filter (·.2.keyTuple = c.keyTuple)
    if f + 1 ≤ matching.length then some (c, matching.map (·.1))
    else matchCommits f cs seen

/-- `CommitCollector::addAndCheckCommit`.  A commit whose client record does not have the
digest it names is not recorded. -/
def addAndCheckCommit [Sha256] (cfg : Config) (c : CommitCollector) (commit : Commit)
    (sig : Bytes) : CommitCollector × Bool :=
  if (ClientRecord.ofProto commit.clientRecord).digest ≠ commit.clientRecord.digest then (c, false)
  else
    let c := { c with
      commits := c.commits.insert commit.replicaId commit
      sigs := c.sigs.insert commit.replicaId sig }
    match matchCommits cfg.f c.commits.toList [] with
    | none => (c, false)
    | some (commit, replicas) =>
      ({ c with commitToUse := some commit, matchedReplicas := replicas }, true)

/-- `CommitCollector::getCheckpoint` -/
def getCheckpoint (c : CommitCollector) : Except Fault LogCheckpoint :=
  match c.commitToUse with
  | none => .error .assertion
  | some commit =>
    let matched := c.commits.toList.filter (·.1 ∈ c.matchedReplicas)
    if matched.any fun (_, m) => m.logDigest ≠ commit.logDigest then .error .assertion
    else .ok {
      seq := c.seq
      logDigest := commit.logDigest
      appDigest := commit.appDigest.getD []
      clientRecord := .ofProto commit.clientRecord
      commits := matched.foldl (fun m c => m.insert c.1 c.2) ∅
      commitSigs := matched.foldl (fun m x => m.insert x.1 ((c.sigs[x.1]?).getD [])) ∅ }

end CommitCollector

/-! ### The collector -/

/-- `class CheckpointCollector` -/
structure CheckpointCollector where
  replicaId : ℕ
  round : ℕ
  seq : ℕ
  timeout : Bool := false
  timeoutStart : ℕ := 0
  needsSnapshot : Bool
  snapshot : Option AppSnapshot := none
  clientRecord : Option ClientRecord := none
  logDigest : Option Bytes := none
  repairTimeoutProof : Option RepairTimeoutProof := none
  replyCollector : ReplyCollector
  commitCollector : CommitCollector
  repairTimeouts : ExtTreeMap ℕ RepairTimeout compare := ∅
  repairTimeoutSigs : ExtTreeMap ℕ Bytes compare := ∅

namespace CheckpointCollector

/-- `CheckpointCollector(replicaId, round, seq, needsSnapshot)` -/
def create (replicaId round seq : ℕ) (needsSnapshot : Bool) : CheckpointCollector where
  replicaId
  round
  seq
  needsSnapshot
  replyCollector := { replicaId, round, seq }
  commitCollector := { round, seq }

/-- `CheckpointCollector::addAndCheckReply` -/
def addAndCheckReply (cfg : Config) (now : ℕ) (c : CheckpointCollector) (reply : Reply)
    (sig : Bytes) : CheckpointCollector × Bool :=
  let (replyCollector, ret) := c.replyCollector.addAndCheckReply cfg reply sig
  let timeoutStart :=
    if cfg.numReplicas - cfg.f ≤ replyCollector.replies.size ∧ c.timeoutStart = 0 then now
    else c.timeoutStart
  ({ c with replyCollector, timeoutStart }, ret)

/-- `CheckpointCollector::addOwnSnapshot` -/
def addOwnSnapshot (c : CheckpointCollector) (snapshot : AppSnapshot) : CheckpointCollector :=
  { c with snapshot := some snapshot }

/-- `CheckpointCollector::addOwnState` -/
def addOwnState (c : CheckpointCollector) (logDigest : Bytes) (clientRecord : ClientRecord) :
    CheckpointCollector :=
  { c with clientRecord := some clientRecord, logDigest := some logDigest }

/-- `CheckpointCollector::commitReady` -/
def commitReady (c : CheckpointCollector) : Bool :=
  c.replyCollector.cert.isSome && (!c.needsSnapshot || c.snapshot.isSome) &&
    c.clientRecord.isSome && c.logDigest.isSome

/-- `CheckpointCollector::getOwnCommit` -/
def getOwnCommit [Sha256] (c : CheckpointCollector) : Except Fault Commit :=
  match c.logDigest, c.clientRecord with
  | some logDigest, some clientRecord =>
    let commit : Commit := {
      replicaId := c.replicaId
      round := c.round
      seq := c.seq
      logDigest
      clientRecord := clientRecord.toProto }
    if c.needsSnapshot then
      match c.snapshot with
      | none => .error .undefined
      | some snapshot => .ok { commit with appDigest := some snapshot.digest }
    else .ok commit
  | _, _ => .error .undefined

/-- `CheckpointCollector::addAndCheckCommit` -/
def addAndCheckCommit [Sha256] (cfg : Config) (c : CheckpointCollector) (commit : Commit)
    (sig : Bytes) : CheckpointCollector × Bool :=
  let (commitCollector, ret) := c.commitCollector.addAndCheckCommit cfg commit sig
  ({ c with commitCollector }, ret)

/-- `CheckpointCollector::getCheckpoint` -/
def getCheckpoint (c : CheckpointCollector) : Except Fault LogCheckpoint := do
  let checkpoint ← c.commitCollector.getCheckpoint
  return if c.needsSnapshot then { checkpoint with snapshot := c.snapshot.map (·.snapshot) }
    else checkpoint

/-- `CheckpointCollector::addAndCheckTimeout`: with the timeout of the `f + 1`-st replica, those
of the own round make a proof. -/
def addAndCheckTimeout (cfg : Config) (c : CheckpointCollector) (msg : RepairTimeout)
    (sig : Bytes) : CheckpointCollector × Bool :=
  let c := { c with
    repairTimeouts := c.repairTimeouts.insert msg.replicaId msg
    repairTimeoutSigs := c.repairTimeoutSigs.insert msg.replicaId sig }
  if c.repairTimeouts.size = cfg.f + 1 then
    let timeouts := c.repairTimeouts.toList.filter (·.2.round = c.round)
    ({ c with repairTimeoutProof := some {
        timeouts := timeouts.map (·.2)
        signatures := timeouts.map fun (id, _) => (c.repairTimeoutSigs[id]?).getD [] } }, true)
  else (c, false)

/-- `CheckpointCollector::checkSelfTimeout` -/
def checkSelfTimeout (now timeoutMs : ℕ) (c : CheckpointCollector) : CheckpointCollector × Bool :=
  if c.timeout ∨ c.timeoutStart = 0 then (c, false)
  else if timeoutMs ≤ now - c.timeoutStart then ({ c with timeout := true }, true)
  else (c, false)

end CheckpointCollector

/-! ### The store -/

/-- The order of `std::pair<uint32_t, uint32_t>` on rounds and positions. -/
abbrev roundSeqCmp : ℕ × ℕ → ℕ × ℕ → Ordering := (lexOrd : Ord (ℕ × ℕ)).compare

/-- `class CheckpointCollectorStore` -/
structure CheckpointCollectorStore where
  stableSeq : ℕ := 0
  committedSeq : ℕ := 0
  collectors : ExtTreeMap (ℕ × ℕ) CheckpointCollector roundSeqCmp := ∅

namespace CheckpointCollectorStore

/-- `CheckpointCollectorStore::hasCollector` -/
def hasCollector (s : CheckpointCollectorStore) (round seq : ℕ) : Bool :=
  s.collectors.contains (round, seq)

/-- `CheckpointCollectorStore::at` -/
def get (s : CheckpointCollectorStore) (round seq : ℕ) : Except Fault CheckpointCollector :=
  match s.collectors[(round, seq)]? with
  | none => .error .undefined
  | some c => .ok c

/-- A collector after it has been changed in place. -/
def set (s : CheckpointCollectorStore) (round seq : ℕ) (c : CheckpointCollector) :
    CheckpointCollectorStore :=
  { s with collectors := s.collectors.insert (round, seq) c }

/-- `CheckpointCollectorStore::initCollector`, with its result. -/
def initCollector (replicaId : ℕ) (s : CheckpointCollectorStore) (round seq : ℕ)
    (needsSnapshot : Bool) : Except Fault (CheckpointCollectorStore × Bool) :=
  if seq ≤ (if needsSnapshot then s.stableSeq else s.committedSeq) then .ok (s, false)
  else if s.hasCollector round seq then .error .assertion
  else .ok (s.set round seq (.create replicaId round seq needsSnapshot), true)

/-- `CheckpointCollectorStore::cleanStaleCollectors` -/
def cleanStaleCollectors (s : CheckpointCollectorStore) (stableSeq committedSeq : ℕ) :
    Except Fault CheckpointCollectorStore :=
  if committedSeq < stableSeq then .error .assertion
  else .ok {
    stableSeq := max s.stableSeq stableSeq
    committedSeq := max s.committedSeq committedSeq
    collectors := s.collectors.filter fun key coll =>
      (if coll.needsSnapshot then stableSeq else committedSeq) < key.2 }

end CheckpointCollectorStore

end DomBft
