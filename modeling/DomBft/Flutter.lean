import DomBft.Basic
import DomBft.Lib.Fallible

/-!
A replica of Flutter: clients bet on the time at which a request commits, and the replicas vote
on whether they have seen the request by then.

* `FlutterConfig`, `ClientSequenceTracker`, `Candidate`, `FlutterReplica`: the data of a replica.
  The tracker carries that what is committed out of order lies ahead of the contiguous range.
* `initializeCandidate`, `processRBCProposal`, `processRBCSlowProposal`, `processRBCSlowValue`,
  `processFlutterTime`, `broadcastClock`: the handlers, under the names they have in the source.
* `checkCandidatesForCommit`: the walk over the pool in the order of its keys.
* `handle`: one event at a replica.

The key of a candidate stands for the fields `bet`, `client_id` and `client_seq` of a message.
The digest of a candidate is never read and is left out.  A message whose sender, as it says, is
not the one that signed it is dropped by the threads that verify, so that a message comes with
its sender.
-/

namespace DomBft

open Std (ExtTreeMap)
open Fallible

/-! ### Configuration and messages -/

/-- What a replica reads of the configuration. -/
structure FlutterConfig where
  numReplicas : ℕ
  numClients : ℕ
  clockBroadcastInterval : ℕ
deriving DecidableEq, Repr

namespace FlutterConfig

/-- `f_`, for 5f + 1 replicas -/
def f (cfg : FlutterConfig) : ℕ := (cfg.numReplicas - 1) / 5

/-- `superQuorumSize_` -/
def superQuorumSize (cfg : FlutterConfig) : ℕ := 4 * cfg.f + 1

end FlutterConfig

/-- `leaderId_` -/
def leaderId : ℕ := 0

/-- The bet, then client and sequence number. -/
abbrev CandidateKey : Type := ℕ × ℕ × ℕ

/-- The order of `std::pair<uint32_t, uint32_t>` on clients and sequence numbers. -/
abbrev clientSeqCmp : ℕ × ℕ → ℕ × ℕ → Ordering := (lexOrd : Ord (ℕ × ℕ)).compare

/-- The order of the keys of `candidatePool_`. -/
abbrev candidateCmp : CandidateKey → CandidateKey → Ordering :=
  (@lexOrd ℕ (ℕ × ℕ) _ lexOrd).compare

instance transCmp_candidateCmp : Std.TransCmp candidateCmp := inferInstance

/-- `proto::FlutterClientRequest` -/
structure FlutterClientRequest where
  clientId : ℕ
  clientSeq : ℕ
  bet : ℕ
  numRetries : ℕ := 0
  reqData : Bytes := []
deriving DecidableEq, Repr

/-- The key of the candidate for a request. -/
def FlutterClientRequest.key (request : FlutterClientRequest) : CandidateKey :=
  (request.bet, request.clientId, request.clientSeq)

/-- `proto::FlutterReply` -/
structure FlutterReply where
  replicaId : ℕ
  clientId : ℕ
  clientSeq : ℕ
  bet : ℕ
  accepted : Bool
  result : String := ""
deriving DecidableEq, Repr

/-- The key of the candidate a reply is about. -/
def FlutterReply.key (reply : FlutterReply) : CandidateKey :=
  (reply.bet, reply.clientId, reply.clientSeq)

/-- What replicas send: the payloads of a `FlutterMessage`, and replies. -/
inductive FlutterMsg where
  | time (localTime : ℕ)
  | observe (request : FlutterClientRequest)
  | rbcProposal (key : CandidateKey) (accept : Bool)
  | rbcSlowProposal (key : CandidateKey) (accept : Bool)
  | rbcSlowValue (key : CandidateKey) (accept : Bool)
  | reply (reply : FlutterReply)
deriving DecidableEq, Repr

/-- To whom a message goes: all replicas, the sender among them, one replica, or a client. -/
inductive FlutterDest where
  | replicas
  | replica (id : ℕ)
  | client (id : ℕ)
deriving DecidableEq, Repr

/-! ### Committed sequence numbers -/

/-- `struct ClientSequenceTracker` -/
@[ext] structure ClientSequenceTracker where
  lastCommitted : ℕ := 0
  outOfOrderCommits : Finset ℕ := ∅
  ahead : ∀ s ∈ outOfOrderCommits, lastCommitted < s := by simp

namespace ClientSequenceTracker

/-- `ClientSequenceTracker::isCommitted` -/
def isCommitted (t : ClientSequenceTracker) (seq : ℕ) : Bool :=
  seq ≤ t.lastCommitted ∨ seq ∈ t.outOfOrderCommits

/-- The sequence number behind the contiguous range, a `uint32_t`. -/
def next (t : ClientSequenceTracker) : ℕ := (t.lastCommitted + 1) % 2 ^ 32

/-- One turn of the loop in `commit`. -/
def extend (t : ClientSequenceTracker) : ClientSequenceTracker where
  lastCommitted := t.next
  outOfOrderCommits := t.outOfOrderCommits.erase t.next
  ahead s hs := by
    obtain ⟨hne, hs⟩ := Finset.mem_erase.mp hs
    have hlt := t.ahead s hs
    have hle : t.next ≤ t.lastCommitted + 1 := Nat.mod_le _ _
    omega

/-- The loop in `commit`: every turn takes a number out of the set, so that there are no more
turns than numbers. -/
def advance : ℕ → ClientSequenceTracker → ClientSequenceTracker
  | 0, t => t
  | turns + 1, t => if t.next ∈ t.outOfOrderCommits then advance turns t.extend else t

/-- `ClientSequenceTracker::commit` -/
def commit (t : ClientSequenceTracker) (seq : ℕ) : ClientSequenceTracker :=
  if hle : seq ≤ t.lastCommitted then t
  else if seq = t.next then advance t.outOfOrderCommits.card t.extend
  else
    { lastCommitted := t.lastCommitted
      outOfOrderCommits := insert seq t.outOfOrderCommits
      ahead := fun s hs => (Finset.mem_insert.mp hs).elim (fun h => h ▸ Nat.lt_of_not_le hle)
        (t.ahead s) }

/-- A turn adds the number behind the contiguous range. -/
lemma isCommitted_extend {t : ClientSequenceTracker} {seq : ℕ} (hnext : t.lastCommitted < t.next) :
    t.extend.isCommitted seq = true ↔ t.isCommitted seq = true ∨ seq = t.next := by
  have hle : t.next ≤ t.lastCommitted + 1 := Nat.mod_le _ _
  simp only [isCommitted, extend, decide_eq_true_eq, Finset.mem_erase]
  by_cases hs : seq = t.next
  · simp [hs]
  · have hsame : seq ≤ t.next ↔ seq ≤ t.lastCommitted := by omega
    simp [hs, hsame]

/-- The loop adds nothing. -/
lemma isCommitted_advance {turns : ℕ} {t : ClientSequenceTracker} {seq : ℕ} :
    (advance turns t).isCommitted seq = true ↔ t.isCommitted seq = true := by
  induction turns generalizing t with
  | zero => rfl
  | succ turns ih =>
      rw [advance]
      split_ifs with hmem
      · rw [ih, isCommitted_extend (t.ahead _ hmem), or_iff_left_iff_imp]
        rintro rfl
        simp [isCommitted, hmem]
      · rfl

/-- **The law of `commit`**: it adds its argument and nothing else. -/
lemma isCommitted_commit {t : ClientSequenceTracker} {seq s : ℕ} :
    (t.commit seq).isCommitted s = true ↔ t.isCommitted s = true ∨ s = seq := by
  rw [commit]
  split_ifs with hle hnext
  · refine (or_iff_left_of_imp ?_).symm
    rintro rfl
    simp [isCommitted, hle]
  · rw [isCommitted_advance, isCommitted_extend (by omega), ← hnext]
  · simp only [isCommitted, decide_eq_true_eq, Finset.mem_insert]
    tauto

end ClientSequenceTracker

/-! ### Candidates -/

/-- `struct Candidate` -/
structure Candidate where
  bet : ℕ
  clientId : ℕ
  clientSeq : ℕ
  request : Option FlutterClientRequest := none
  acceptVotes : ℕ := 0
  rejectVotes : ℕ := 0
  votedReplicas : Finset ℕ := ∅
  slowPathInitiated : Bool := false
  slowValueReceived : Bool := false
  slowAccepted : Bool := false
  slowValueSent : Bool := false
  slowProposals : ExtTreeMap ℕ Bool compare := ∅

namespace Candidate

/-- A placeholder for a candidate whose request is not known. -/
def placeholder (key : CandidateKey) : Candidate :=
  { bet := key.1, clientId := key.2.1, clientSeq := key.2.2 }

/-- The key under which the candidate is stored. -/
def key (c : Candidate) : CandidateKey := (c.bet, c.clientId, c.clientSeq)

/-- A vote is recorded. -/
def recordVote (c : Candidate) (senderId : ℕ) (accept : Bool) : Candidate :=
  { c with
    votedReplicas := insert senderId c.votedReplicas
    acceptVotes := if accept then c.acceptVotes + 1 else c.acceptVotes
    rejectVotes := if accept then c.rejectVotes else c.rejectVotes + 1 }

/-- The number of slow proposals for an outcome. -/
def slowCount (c : Candidate) (accept : Bool) : ℕ :=
  (c.slowProposals.toList.filter fun e => e.2 = accept).length

variable (cfg : FlutterConfig) (c : Candidate)

/-- `hasFastConsensus` -/
def hasFastConsensus : Bool :=
  cfg.superQuorumSize ≤ c.acceptVotes ∨ cfg.superQuorumSize ≤ c.rejectVotes

/-- `accepted`, in the walk over the pool -/
def accepted : Bool :=
  if c.hasFastConsensus cfg then cfg.superQuorumSize ≤ c.acceptVotes else c.slowAccepted

/-- What the leader decides by the slow proposals it has, if they are enough. -/
def slowDecision : Option Bool :=
  if cfg.f + 1 ≤ c.slowCount true then some true
  else if cfg.f + 1 ≤ c.slowCount false then some false
  else none

end Candidate

/-! ### The replica -/

/-- `class FlutterReplica` -/
structure FlutterReplica where
  replicaId : ℕ
  clientCurrentBets : ExtTreeMap (ℕ × ℕ) ℕ clientSeqCmp := ∅
  clientSeqTrackers : ExtTreeMap ℕ ClientSequenceTracker compare := ∅
  candidatePool : ExtTreeMap CandidateKey Candidate candidateCmp := ∅
  replicaClocks : ExtTreeMap ℕ ℕ compare
  lockTime : ℕ := 0
  lastClockBroadcast : ℕ
  /-- what has been sent, oldest first -/
  sent : List (FlutterDest × FlutterMsg) := []

namespace FlutterReplica

/-- The constructor, which reads the clock twice. -/
def fresh (replicaId t₀ t₁ : ℕ) : FlutterReplica :=
  { replicaId, lastClockBroadcast := t₀
    replicaClocks := (∅ : ExtTreeMap ℕ ℕ compare).insert replicaId t₁ }

/-- `sendMsgToDst`, `broadcastToReplicas` -/
def send (r : FlutterReplica) (dst : FlutterDest) (msg : FlutterMsg) : FlutterReplica :=
  { r with sent := r.sent ++ [(dst, msg)] }

/-- The reply to a client about a candidate. -/
def replyTo (r : FlutterReplica) (clientId : ℕ) (candidate : Candidate) (accepted : Bool)
    (result : String) : FlutterReply :=
  { replicaId := r.replicaId
    clientId, clientSeq := candidate.clientSeq, bet := candidate.bet, accepted, result }

/-- A reply is sent to `clientAddrs_[clientId]`. -/
def reply (cfg : FlutterConfig) (r : FlutterReplica) (clientId : ℕ) (candidate : Candidate)
    (accepted : Bool) (result : String) : Except Fault FlutterReplica :=
  if clientId < cfg.numClients then
    .ok (r.send (.client clientId) (.reply (r.replyTo clientId candidate accepted result)))
  else .error .undefined

/-- `clientSeqTrackers_[clientId].isCommitted(clientSeq)` -/
def isCommitted (r : FlutterReplica) (x : ℕ × ℕ) : Bool :=
  (r.clientSeqTrackers.getD x.1 {}).isCommitted x.2

/-- `clientSeqTrackers_[clientId].commit(clientSeq)` -/
def commitSeq (r : FlutterReplica) (x : ℕ × ℕ) : FlutterReplica :=
  { r with
    clientSeqTrackers := r.clientSeqTrackers.insert x.1
      ((r.clientSeqTrackers.getD x.1 {}).commit x.2) }

/-- There is a current bet, and it is above the one of the key. -/
def isStale (r : FlutterReplica) (key : CandidateKey) : Bool :=
  r.clientCurrentBets[key.2]?.any fun currentBet => key.1 < currentBet

/-- `clientCurrentBets_[{clientId, clientSeq}]++`, on a `uint64_t` that is zero at first. -/
def incrementBet (r : FlutterReplica) (x : ℕ × ℕ) : FlutterReplica :=
  { r with
    clientCurrentBets := r.clientCurrentBets.insert x
      ((r.clientCurrentBets.getD x 0 + 1) % 2 ^ 64) }

/-- `candidatePool_[key] = candidate` -/
def setCandidate (r : FlutterReplica) (key : CandidateKey) (candidate : Candidate) :
    FlutterReplica :=
  { r with candidatePool := r.candidatePool.insert key candidate }

/-- `candidatePool_.erase(key)` -/
def eraseCandidate (r : FlutterReplica) (key : CandidateKey) : FlutterReplica :=
  { r with candidatePool := r.candidatePool.erase key }

/-- `it == candidatePool_.begin()` -/
def isFirst (r : FlutterReplica) (key : CandidateKey) : Bool :=
  (r.candidatePool.toList.head?.map (·.1)) = some key

/-! ### The candidate pool -/

/-- The part of `initializeCandidate` behind the checks: the request takes the place of the one
with the current bet, and the replica votes on whether it is in time. -/
def addCandidate (r : FlutterReplica) (now : ℕ) (request : FlutterClientRequest) :
    FlutterReplica :=
  let key := request.key
  let r := match r.clientCurrentBets[key.2]? with
    | some currentBet => r.eraseCandidate (currentBet, key.2)
    | none => r
  let r := { r with clientCurrentBets := r.clientCurrentBets.insert key.2 request.bet }
  let candidate := r.candidatePool.getD key (.placeholder key)
  let r := r.setCandidate key { candidate with request := some request }
  let r := r.send .replicas (.observe request)
  r.send .replicas (.rbcProposal key (now ≤ request.bet))

/-- `initializeCandidate` -/
def initializeCandidate (r : FlutterReplica) (now : ℕ) (request : FlutterClientRequest) :
    FlutterReplica :=
  if r.isCommitted request.key.2 then r
  else if r.clientCurrentBets[request.key.2]?.any (request.bet ≤ ·) then r
  else r.addCandidate now request

/-- The loop of `checkCandidatesForCommit`, with the keys to remove. -/
def commitLoop (cfg : FlutterConfig) : List (CandidateKey × Candidate) → List CandidateKey →
    FlutterReplica → Except Fault (List CandidateKey × FlutterReplica)
  | [], remove, r => .ok (remove, r)
  | (key, candidate) :: rest, remove, r =>
    if r.lockTime ≤ candidate.bet then .ok (remove, r)
    else if candidate.request.isNone then .ok (remove, r)
    else if candidate.hasFastConsensus cfg || candidate.slowValueReceived then
      if candidate.hasFastConsensus cfg && candidate.slowValueReceived
          && candidate.accepted cfg != candidate.slowAccepted then .error .assertion
      else if candidate.accepted cfg = false then .error .assertion
      else do
        let r := r.commitSeq (candidate.clientId, candidate.clientSeq)
        let r ← r.reply cfg candidate.clientId candidate (candidate.accepted cfg)
          "Request executed successfully"
        commitLoop cfg rest (remove ++ [key]) r
    else .ok (remove, r)

/-- A committed candidate is removed, and the bet of its client with it. -/
def removeCandidate (r : FlutterReplica) (key : CandidateKey) : FlutterReplica :=
  { r with
    candidatePool := r.candidatePool.erase key
    clientCurrentBets := r.clientCurrentBets.erase key.2 }

/-- `checkCandidatesForCommit` -/
def checkCandidatesForCommit (cfg : FlutterConfig) (r : FlutterReplica) :
    Except Fault FlutterReplica := do
  let (candidatesToRemove, r) ← commitLoop cfg r.candidatePool.toList [] r
  pure (candidatesToRemove.foldl removeCandidate r)

/-- The candidate is rejected: the client is told, and messages about it that are still to come
are marked as stale. -/
def rejectCandidate (cfg : FlutterConfig) (r : FlutterReplica) (key : CandidateKey)
    (candidate : Candidate) : Except Fault FlutterReplica := do
  let r ← r.reply cfg key.2.1 candidate false ""
  pure ((r.eraseCandidate key).incrementBet key.2)

/-! ### Votes -/

/-- `processRBCProposal` -/
def processRBCProposal (cfg : FlutterConfig) (r : FlutterReplica) (senderId : ℕ)
    (key : CandidateKey) (accept : Bool) : Except Fault FlutterReplica :=
  if r.isCommitted key.2 then .ok r
  else if r.isStale key then .ok r
  else
    let candidate := r.candidatePool.getD key (.placeholder key)
    if senderId ∈ candidate.votedReplicas then .ok (r.setCandidate key candidate)
    else
      let candidate := candidate.recordVote senderId accept
      let r := r.setCandidate key candidate
      if cfg.superQuorumSize ≤ candidate.acceptVotes then
        if r.isFirst key then r.checkCandidatesForCommit cfg else .ok r
      else if cfg.superQuorumSize ≤ candidate.rejectVotes then r.rejectCandidate cfg key candidate
      else if candidate.acceptVotes + candidate.rejectVotes = cfg.superQuorumSize
          ∧ candidate.slowPathInitiated = false
          ∧ candidate.acceptVotes < cfg.superQuorumSize
          ∧ candidate.rejectVotes < cfg.superQuorumSize then
        .ok ((r.setCandidate key { candidate with slowPathInitiated := true }).send
          (.replica leaderId)
          (.rbcSlowProposal key (candidate.rejectVotes < candidate.acceptVotes)))
      else .ok r

/-- `processRBCSlowProposal` -/
def processRBCSlowProposal (cfg : FlutterConfig) (r : FlutterReplica) (senderId : ℕ)
    (key : CandidateKey) (accept : Bool) : FlutterReplica :=
  if r.replicaId ≠ leaderId then r
  else if r.isCommitted key.2 then r
  else if r.isStale key then r
  else
    let candidate := r.candidatePool.getD key (.placeholder key)
    if candidate.slowValueSent then r.setCandidate key candidate
    else
      let candidate :=
        { candidate with slowProposals := candidate.slowProposals.insert senderId accept }
      match candidate.slowDecision cfg with
      | none => r.setCandidate key candidate
      | some decision =>
        (r.setCandidate key { candidate with slowValueSent := true }).send .replicas
          (.rbcSlowValue key decision)

/-- `processRBCSlowValue` -/
def processRBCSlowValue (cfg : FlutterConfig) (r : FlutterReplica) (senderId : ℕ)
    (key : CandidateKey) (accept : Bool) : Except Fault FlutterReplica :=
  if senderId ≠ leaderId then .ok r
  else match r.candidatePool[key]? with
    | none => .ok r
    | some candidate =>
      let candidate := { candidate with slowAccepted := accept, slowValueReceived := true }
      let r := r.setCandidate key candidate
      if accept then
        if r.isFirst key then r.checkCandidatesForCommit cfg else .ok r
      else r.rejectCandidate cfg key candidate

/-! ### Clocks -/

/-- `broadcastClock`; the subtraction is on `uint64_t`. -/
def broadcastClock (cfg : FlutterConfig) (r : FlutterReplica) (now : ℕ) : FlutterReplica :=
  if (now + 2 ^ 64 - r.lastClockBroadcast) % 2 ^ 64 < cfg.clockBroadcastInterval then r
  else { r.send .replicas (.time now) with lastClockBroadcast := now }

/-- `clockTimes`, sorted -/
def clockTimes (r : FlutterReplica) : List ℕ :=
  (r.replicaClocks.toList.map (·.2)).insertionSort (· ≤ ·)

/-- `updateLockTime` -/
def updateLockTime (cfg : FlutterConfig) (r : FlutterReplica) : Except Fault FlutterReplica :=
  if r.replicaClocks.size < cfg.superQuorumSize then .ok r
  else match r.clockTimes[cfg.numReplicas - cfg.superQuorumSize]? with
    | none => .error .undefined
    | some lockTime =>
      if r.lockTime < lockTime then checkCandidatesForCommit cfg { r with lockTime }
      else .ok { r with lockTime }

/-- `processFlutterTime` -/
def processFlutterTime (cfg : FlutterConfig) (r : FlutterReplica) (senderId clockTime : ℕ) :
    Except Fault FlutterReplica :=
  updateLockTime cfg { r with replicaClocks := r.replicaClocks.insert senderId clockTime }

/-! ### Events -/

/-- `processFlutterMessage`, and what is not one is ignored. -/
def processFlutterMessage (cfg : FlutterConfig) (r : FlutterReplica) (now senderId : ℕ) :
    FlutterMsg → Except Fault FlutterReplica
  | .time localTime => r.processFlutterTime cfg senderId localTime
  | .observe request => .ok (r.initializeCandidate now request)
  | .rbcProposal key accept => r.processRBCProposal cfg senderId key accept
  | .rbcSlowProposal key accept => .ok (r.processRBCSlowProposal cfg senderId key accept)
  | .rbcSlowValue key accept => r.processRBCSlowValue cfg senderId key accept
  | .reply _ => .ok r

end FlutterReplica

/-- What happens at a replica, with the time on its clock. -/
inductive FlutterInput where
  /-- a request comes from a client -/
  | request (request : FlutterClientRequest)
  /-- a message comes from a replica -/
  | message (senderId : ℕ) (msg : FlutterMsg)
  /-- the clock may have to be sent -/
  | clock
deriving DecidableEq, Repr

/-- One event at a replica. -/
def FlutterReplica.handle (cfg : FlutterConfig) (r : FlutterReplica) (now : ℕ) :
    FlutterInput → Except Fault FlutterReplica
  | .request request => .ok (r.initializeCandidate now request)
  | .message senderId msg => r.processFlutterMessage cfg now senderId msg
  | .clock => .ok (r.broadcastClock cfg now)

end DomBft
