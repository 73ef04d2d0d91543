import DomBft.CheckpointCollector.Commits
import DomBft.Lib.OrderedMap
import DomBft.Log.Bounds
import DomBft.Replica.Finish
import DomBft.Replica.RepairProofs

/-!
The checks on the path of a checkpoint.

* `Check`, `Reaches`: the places where the process can stop on that path, and when an event gets
  there.
* `LateCertificate`, `BareCheckpoint`, `Misfit`: the messages that make a check fail.
* `Tidy`, the invariant: the positions of the log and of the collectors are in order, and every
  collector holds the own reply of its round.
* `checkpoint_path_safe`: where no such message arrives, no check fails in any run.
-/

namespace DomBft

open Std (ExtTreeMap)
open Fallible Transition

/-! ### The checks -/

/-- The places on the path of a checkpoint where the process can stop, with what they look at. -/
inductive Check (A : Type)
  /-- the round of the reply that completes a certificate -/
  | replyRound (r : Replica A) (reply : Reply)
  /-- a collector that is created -/
  | created (store : CheckpointCollectorStore) (replicaId round seq : ℕ) (needsSnapshot : Bool)
  /-- the order of the stable and the committed position -/
  | stale (r : Replica A)
  /-- the snapshot and the place of a stable checkpoint -/
  | setCheckpoint (log : Log A) (cp : LogCheckpoint)
  /-- the range of a position whose digest is read -/
  | getDigest (log : Log A) (seq : ℕ)
  /-- the range of a position whose entry is read -/
  | getEntry (log : Log A) (seq : ℕ)

/-- A check stops the process. -/
def Check.Fails {A : Type} [Application A] : Check A → Prop
  | .replyRound r reply => reply.round ≠ r.round
  | .created store replicaId round seq needsSnapshot =>
    store.initCollector replicaId round seq needsSnapshot = .error .assertion
  | .stale r => r.cleanStaleCollectors = .error .assertion
  | .setCheckpoint log cp =>
    ∃ log₁, log.commitCheckpoint cp = .ok log₁ ∧ log₁.stabilizeCheckpoint cp = .error .assertion
  | .getDigest log seq => log.getDigestAt seq = .error .runtimeError
  | .getEntry log seq => log.getEntry seq = .error .runtimeError

namespace Replica

variable {A : Type} [Application A] [Sha256] [PaddedRequestData]

/-- `initCollector` gets to the collector that it creates. -/
def Creates (r : Replica A) (round seq : ℕ) (needsSnapshot : Bool) (c : Check A) : Prop :=
  r.checkpointCollectors.hasCollector round seq = false ∧
    c = .created r.checkpointCollectors r.replicaId round seq needsSnapshot

/-- The checks in `startCheckpoint`. -/
inductive StartReaches (r : Replica A) (createSnapshot : Bool) : Check A → Prop
  | created {c : Check A} :
      (if createSnapshot then r.takeSnapshot else r).Creates r.round (r.log.nextSeq - 1)
        createSnapshot c →
      StartReaches r createSnapshot c
  | getDigest {r₁ : Replica A} :
      (if createSnapshot then r.takeSnapshot else r).initCollector r.round (r.log.nextSeq - 1)
        createSnapshot = .ok (r₁, true) →
      StartReaches r createSnapshot (.getDigest r₁.log (r.log.nextSeq - 1))
  | getEntry {r₁ : Replica A} {digest : Bytes} :
      (if createSnapshot then r.takeSnapshot else r).initCollector r.round (r.log.nextSeq - 1)
        createSnapshot = .ok (r₁, true) →
      r₁.log.getDigestAt (r.log.nextSeq - 1) = .ok digest →
      StartReaches r createSnapshot (.getEntry r₁.log (r.log.nextSeq - 1))

/-- The checks in `processClientRequest`: those of the checkpoint at an interval. -/
inductive RequestReaches (cfg : Config) (r : Replica A) (m : ClientRequestProto) : Check A → Prop
  | start {log log' : Log A} {result : Bytes} {r₁ : Replica A} {c : Check A} :
      r.log.committedCheckpoint.clientRecord.contains m.clientId m.clientSeq = false →
      r.log.addEntry m.clientId m.clientSeq m.reqData = .ok (log, some result) →
      log.setDeadline (log.nextSeq - 1) m.deadline = .ok log' →
      { r with log := log' }.sendToClient cfg m.clientId (.reply {
        clientId := m.clientId
        clientSeq := m.clientSeq
        replicaId := r.replicaId
        result
        seq := log.nextSeq - 1
        round := r.round
        digest := log'.getDigest }) = .ok r₁ →
      (log.nextSeq - 1) % cfg.replicaCheckpointInterval = 0 →
      StartReaches r₁ ((log.nextSeq - 1) % cfg.replicaSnapshotInterval == 0) c →
      RequestReaches cfg r m c

/-- The checks in `processReply`: those of the checkpoint that is due where the sender has waited
too long, the collector, and the round of the reply that completes a certificate. -/
inductive ReplyReaches (cfg : Config) (now : ℕ) (r : Replica A) (reply : Reply) (sig : Bytes) :
    Check A → Prop
  | start {c : Check A} : r.repair = false → r.round ≤ reply.round →
      StartReaches { r with checkpointTimeoutSeqs :=
        r.checkpointTimeoutSeqs.insert reply.replicaId (r.round, reply.seq) } false c →
      ReplyReaches cfg now r reply sig c
  | created {r₁ : Replica A} {c : Check A} : r.repair = false → r.round ≤ reply.round →
      r.checkpointTimedOut cfg reply = .ok r₁ → r₁.log.committedCheckpoint.seq < reply.seq →
      r₁.Creates r₁.round reply.seq (reply.seq % cfg.replicaSnapshotInterval == 0) c →
      ReplyReaches cfg now r reply sig c
  | replyRound {r₁ r₂ : Replica A} {coll coll' : CheckpointCollector} :
      r.repair = false → r.round ≤ reply.round →
      r.checkpointTimedOut cfg reply = .ok r₁ → r₁.log.committedCheckpoint.seq < reply.seq →
      r₁.initCollector r₁.round reply.seq (reply.seq % cfg.replicaSnapshotInterval == 0) =
        .ok (r₂, true) →
      r₂.checkpointCollectors.get r₂.round reply.seq = .ok coll → coll.commitReady = false →
      coll.addAndCheckReply cfg now reply sig = (coll', true) →
      ReplyReaches cfg now r reply sig
        (.replyRound (r₂.setCollector r₂.round reply.seq coll') reply)

/-- `processCommit` calls `useCheckpoint`, in the state and with the collector given. -/
def CallsUseCheckpoint (cfg : Config) (r : Replica A) (commit : Commit) (sig : Bytes)
    (r₁ : Replica A) (coll : CheckpointCollector) : Prop :=
  ∃ r₀ coll₀, r.initCollector commit.round commit.seq
      (commit.seq % cfg.replicaSnapshotInterval == 0 || commit.appDigest.isSome) = .ok (r₀, true) ∧
    r₀.checkpointCollectors.get commit.round commit.seq = .ok coll₀ ∧
    coll₀.addAndCheckCommit cfg commit sig = (coll, true) ∧
    r₁ = r₀.setCollector commit.round commit.seq coll

/-- The checks in `processCommit`: the collector, the digest at the position of a checkpoint, and
those of the checkpoint that the log takes. -/
inductive CommitReaches (cfg : Config) (r : Replica A) (commit : Commit) (sig : Bytes) :
    Check A → Prop
  | created {c : Check A} : r.Creates commit.round commit.seq
        (commit.seq % cfg.replicaSnapshotInterval == 0 || commit.appDigest.isSome) c →
      CommitReaches cfg r commit sig c
  | getDigest {r₁ : Replica A} {coll : CheckpointCollector} {cp : LogCheckpoint} :
      CallsUseCheckpoint cfg r commit sig r₁ coll → coll.getCheckpoint = .ok cp →
      cp.seq < r₁.log.nextSeq → CommitReaches cfg r commit sig (.getDigest r₁.log cp.seq)
  | setCheckpoint {r₁ : Replica A} {coll : CheckpointCollector} {cp : LogCheckpoint} :
      CallsUseCheckpoint cfg r commit sig r₁ coll → coll.getCheckpoint = .ok cp →
      cp.seq < r₁.log.nextSeq → r₁.log.getDigestAt cp.seq = .ok cp.logDigest →
      (!coll.needsSnapshot ∨ cp.snapshot.isSome) →
      CommitReaches cfg r commit sig (.setCheckpoint r₁.log cp)
  | stale {r₁ : Replica A} {coll : CheckpointCollector} {cp : LogCheckpoint} {log : Log A} :
      CallsUseCheckpoint cfg r commit sig r₁ coll → coll.getCheckpoint = .ok cp →
      cp.seq < r₁.log.nextSeq → r₁.log.getDigestAt cp.seq = .ok cp.logDigest →
      (!coll.needsSnapshot ∨ cp.snapshot.isSome) → r₁.log.setCheckpoint cp = .ok log →
      CommitReaches cfg r commit sig (.stale { r₁ with log })

/-- A snapshot reply is used to align the log. -/
structure Aligns (cfg : Config) (r : Replica A) (reply : SnapshotReply) : Prop where
  round_le : r.round ≤ reply.round
  committed_lt : r.log.committedCheckpoint.seq < reply.seq
  repair : r.repair = false
  alignment : cfg.replicaSkipAlignment = false

instance (cfg : Config) (r : Replica A) (reply : SnapshotReply) : Decidable (r.Aligns cfg reply) :=
  decidable_of_iff (r.round ≤ reply.round ∧ r.log.committedCheckpoint.seq < reply.seq ∧
      r.repair = false ∧ cfg.replicaSkipAlignment = false)
    ⟨fun ⟨h, h', h'', hal⟩ => ⟨h, h', h'', hal⟩, fun ⟨h, h', h'', hal⟩ => ⟨h, h', h'', hal⟩⟩

/-- The checks that an event gets to.  A repair is not followed: once it has a proposal, or
fetches requests, every check counts as one that is reached. -/
inductive Reaches (cfg : Config) (r : Replica A) : ReplicaEvent → Check A → Prop
  | request {now deadline : ℕ} {m : ClientRequestProto} {c : Check A} : r.repair = false →
      RequestReaches cfg r { m with deadline } c → Reaches cfg r (.request now deadline m) c
  | fetched {now deadline : ℕ} {m : ClientRequestProto} {c : Check A} : r.repair = true →
      r.missingRequestFetchSent = true → Reaches cfg r (.request now deadline m) c
  | clientRequest {now : ℕ} {m : ClientRequestProto} {sig : Bytes} {c : Check A} :
      RequestReaches cfg r m c → Reaches cfg r (.message now (.clientRequest m) sig) c
  | reply {now : ℕ} {m : Reply} {sig : Bytes} {c : Check A} :
      ReplyReaches cfg now r m sig c → Reaches cfg r (.message now (.reply m) sig) c
  | commit {now : ℕ} {m : Commit} {sig : Bytes} {c : Check A} :
      CommitReaches cfg r m sig c → Reaches cfg r (.message now (.commit m) sig) c
  | align {now : ℕ} {m : SnapshotReply} {sig : Bytes} {log : Log A} : Aligns cfg r m →
      r.log.applySnapshotModifyLog m = .ok (log, true) →
      Reaches cfg r (.message now (.snapshotReply m) sig)
        (.stale { r with log, round := max r.round m.round })
  | repaired {now : ℕ} {m : SnapshotReply} {sig : Bytes} {c : Check A} : r.repair = true →
      r.repairProposal.isSome → Reaches cfg r (.message now (.snapshotReply m) sig) c

/-! ### The messages that make a check fail -/

/-- The events of the path: requests, the messages about checkpoints, and snapshots.  A reply in
the own name is one that has been sent. -/
def OnPath (r : Replica A) : ReplicaEvent → Prop
  | .request .. | .snapshot => True
  | .message _ (.reply m) _ => m.replicaId = r.replicaId → ∃ x ∈ r.sent, x.2 = .reply m
  | .message _ (.clientRequest _) _ | .message _ (.commit _) _ | .message _ (.snapshotReply _) _ =>
    True
  | _ => False

instance (r : Replica A) (e : ReplicaEvent) : Decidable (r.OnPath e) := by
  rcases e with _ | ⟨_, _ | _, _⟩ | _ <;> unfold OnPath <;> infer_instance

/-- The replies that are stored for a position match, the own one among them, but no certificate
has been made of them; now another replica sends its first reply, one of a later round. -/
def LateCertificate (cfg : Config) (r : Replica A) (reply : Reply) : Prop :=
  r.repair = false ∧ r.round < reply.round ∧ r.log.committedCheckpoint.seq < reply.seq ∧
    ∃ coll ∈ r.checkpointCollectors.collectors[(r.round, reply.seq)]?,
      coll.replyCollector.cert = none ∧
        coll.replyCollector.replies.contains reply.replicaId = false ∧
          ∃ own ∈ coll.replyCollector.replies[r.replicaId]?, cfg.superQuorumSize ≤
            (coll.replyCollector.replies.toList.filter (·.2.keyTuple = own.keyTuple)).length

instance (cfg : Config) (r : Replica A) (reply : Reply) :
    Decidable (r.LateCertificate cfg reply) :=
  inferInstanceAs (Decidable (_ ∧ _ ∧ _ ∧ ∃ coll ∈ _, _ ∧ _ ∧ ∃ own ∈ _, _))

/-- A commit completes matching ones with the digest of an application state, for a position of
the log whose collector has been created to do without. -/
def BareCheckpoint (cfg : Config) (r : Replica A) (commit : Commit) : Prop :=
  (ClientRecord.ofProto commit.clientRecord).digest = commit.clientRecord.digest ∧
    commit.seq < r.log.nextSeq ∧
      ∃ coll ∈ r.checkpointCollectors.collectors[(commit.round, commit.seq)]?,
        coll.needsSnapshot = false ∧
          ∃ x ∈ CommitCollector.matchCommits cfg.f
              (coll.commitCollector.commits.insert commit.replicaId commit).toList [],
            x.1.appDigest.getD [] ≠ [] ∧
              (r.log.getDigestAt commit.seq).toOption = some x.1.logDigest

instance (cfg : Config) (r : Replica A) (commit : Commit) :
    Decidable (r.BareCheckpoint cfg commit) :=
  inferInstanceAs (Decidable (_ ∧ _ ∧ ∃ coll ∈ _, _ ∧ ∃ x ∈ _, _ ∧ _))

/-- No reply comes that late, no commit completes a checkpoint without its snapshot, and a
snapshot reply that is used fits. -/
def Avoids (cfg : Config) (r : Replica A) : ReplicaEvent → Prop
  | .message _ (.reply m) _ => ¬r.LateCertificate cfg m
  | .message _ (.commit m) _ => ¬r.BareCheckpoint cfg m
  | .message _ (.snapshotReply m) _ => r.Aligns cfg m → r.log.Fits m
  | _ => True

instance (cfg : Config) (r : Replica A) (e : ReplicaEvent) : Decidable (r.Avoids cfg e) := by
  rcases e with _ | ⟨_, _ | _, _⟩ | _ <;> unfold Avoids <;> infer_instance

end Replica

/-! ### Collectors -/

namespace ReplyCollector

variable {q id : ℕ} {sigs : ExtTreeMap ℕ Bytes compare}

/-- A certificate is made of matching replies, one of them under the given number. -/
lemma exists_of_matchReplies {rs seen : List (ℕ × Reply)} {s : ℕ × Option Cert × Bool}
    (h : (matchReplies q id sigs rs seen s).2.2 = true) :
    s.2.2 = true ∨ ∃ m, (id, m) ∈ seen ++ rs ∧
      q ≤ ((seen ++ rs).filter (·.2.keyTuple = m.keyTuple)).length := by
  induction rs generalizing seen s with
  | nil => exact .inl h
  | cons x rs ih =>
      obtain ⟨maxMatch, cert, ret⟩ := s
      rw [matchReplies] at h
      rw [List.append_cons]
      rcases ih h with hret | hfound
      · by_cases hq : q ≤ ((seen ++ [x]).filter fun y => y.2.keyTuple = x.2.keyTuple).length ∧
            id ∈ ((seen ++ [x]).filter fun y => y.2.keyTuple = x.2.keyTuple).map (·.1)
        · obtain ⟨hlength, hid⟩ := hq
          obtain ⟨⟨id', m⟩, hm, rfl⟩ := List.mem_map.mp hid
          obtain ⟨hmem, hkey⟩ := List.mem_filter.mp hm
          refine .inr ⟨m, List.mem_append_left _ hmem, ?_⟩
          rw [of_decide_eq_true hkey, List.filter_append, List.length_append]
          exact hlength.trans (Nat.le_add_right _ _)
        · rw [if_neg hq] at hret
          exact .inl hret
      · exact .inr hfound

/-- A reply is stored in any case. -/
lemma addAndCheckReply_replies (cfg : Config) (c : ReplyCollector) (reply : Reply) (sig : Bytes) :
    (c.addAndCheckReply cfg reply sig).1.replies = c.replies.insert reply.replicaId reply ∧
      (c.addAndCheckReply cfg reply sig).1.replicaId = c.replicaId := by
  rw [addAndCheckReply]
  dsimp only
  split_ifs <;> exact ⟨rfl, rfl⟩

/-- A reply that completes a certificate is the first one of its sender, and there was none. -/
lemma addAndCheckReply_ready {cfg : Config} {c c' : ReplyCollector} {reply : Reply} {sig : Bytes}
    (h : c.addAndCheckReply cfg reply sig = (c', true)) :
    c.cert = none ∧ c.replies.contains reply.replicaId = false ∧
      ∃ m, (c.replies.insert reply.replicaId reply)[c.replicaId]? = some m ∧
        cfg.superQuorumSize ≤ ((c.replies.insert reply.replicaId reply).toList.filter
          (·.2.keyTuple = m.keyTuple)).length := by
  rw [addAndCheckReply] at h
  dsimp only at h
  split at h
  · cases h
  rename_i hsize
  split at h
  · cases h
  split at h
  · cases h
  rename_i hcert
  have hret := (Prod.mk.inj h).2
  refine ⟨Option.not_isSome_iff_eq_none.mp hcert, ?_, ?_⟩
  · rw [Bool.eq_false_iff]
    intro hmem
    rw [ExtTreeMap.size_insert, if_pos hmem] at hsize
    exact hsize rfl
  · rcases exists_of_matchReplies hret with hfalse | ⟨m, hm, hquorum⟩
    · cases hfalse
    · exact ⟨m, ExtTreeMap.mem_toList_iff_getElem?_eq_some.mp hm, hquorum⟩

/-- A reply of another round completes a certificate only of replies that are stored. -/
lemma stored_of_ready {cfg : Config} {c c' : ReplyCollector} {reply : Reply} {sig : Bytes}
    {round : ℕ} (h : c.addAndCheckReply cfg reply sig = (c', true)) (hround : reply.round ≠ round)
    (hown : ∀ m, (c.replies.insert reply.replicaId reply)[c.replicaId]? = some m →
      m.round = round) :
    c.cert = none ∧ c.replies.contains reply.replicaId = false ∧
      ∃ own ∈ c.replies[c.replicaId]?, cfg.superQuorumSize ≤
        (c.replies.toList.filter (·.2.keyTuple = own.keyTuple)).length := by
  obtain ⟨hcert, hnew, m, hm, hquorum⟩ := addAndCheckReply_ready h
  refine ⟨hcert, hnew, m, ?_, hquorum.trans ?_⟩
  · rcases OrderedMap.getElem?_insert_cases hm with ⟨-, rfl⟩ | ⟨-, hstored⟩
    · exact absurd (hown _ hm) hround
    · exact hstored
  · refine List.Subperm.length_le (List.Nodup.subperm ?_ fun x hx => ?_)
    · exact ((OrderedMap.nodup_map_fst_toList _).of_map _).filter _
    · obtain ⟨hmem, hkey⟩ := List.mem_filter.mp hx
      refine List.mem_filter.mpr ⟨ExtTreeMap.mem_toList_iff_getElem?_eq_some.mpr ?_, hkey⟩
      rcases OrderedMap.getElem?_insert_cases
        (ExtTreeMap.mem_toList_iff_getElem?_eq_some.mp hmem) with ⟨-, heq⟩ | ⟨-, hstored⟩
      · -- the reply itself is of another round than the matching ones
        have hrounds := congrArg ReplyKeyTuple.round (of_decide_eq_true hkey)
        rw [heq] at hrounds
        exact absurd (hrounds.trans (hown m hm)) hround
      · exact hstored

end ReplyCollector

/-- A collector is in its place: above the stable position, at the position of its key, and with
an own reply of its round, if there is one. -/
structure CheckpointCollector.InPlace (stableSeq replicaId : ℕ) (key : ℕ × ℕ)
    (coll : CheckpointCollector) : Prop where
  above : stableSeq < key.2
  position : coll.commitCollector.seq = key.2
  replicaId_eq : coll.replyCollector.replicaId = replicaId
  own : ∀ m, coll.replyCollector.replies[replicaId]? = some m → m.round = key.1

namespace CheckpointCollector.InPlace

variable {stableSeq replicaId : ℕ} {key : ℕ × ℕ} {coll coll' : CheckpointCollector}

/-- What keeps the position and the replies keeps a collector in its place. -/
lemma congr (h : coll.InPlace stableSeq replicaId key)
    (hcommits : coll'.commitCollector = coll.commitCollector)
    (hreplies : coll'.replyCollector = coll.replyCollector) :
    coll'.InPlace stableSeq replicaId key := by
  refine ⟨h.above, ?_, ?_, ?_⟩
  · rw [hcommits]
    exact h.position
  · rw [hreplies]
    exact h.replicaId_eq
  · rw [hreplies]
    exact h.own

lemma create {round seq : ℕ} {needsSnapshot : Bool} (h : stableSeq < seq) :
    (create replicaId round seq needsSnapshot).InPlace stableSeq replicaId (round, seq) where
  above := h
  position := rfl
  replicaId_eq := rfl
  own m hm := by
    rw [CheckpointCollector.create] at hm
    rw [ExtTreeMap.getElem?_empty] at hm
    cases hm

/-- A reply is added; in the own name it is one of the round. -/
lemma addAndCheckReply (h : coll.InPlace stableSeq replicaId key) {cfg : Config} {now : ℕ}
    {reply : Reply} {sig : Bytes} {ok : Bool}
    (hown : reply.replicaId = replicaId → reply.round = key.1)
    (hadd : coll.addAndCheckReply cfg now reply sig = (coll', ok)) :
    coll'.InPlace stableSeq replicaId key := by
  obtain ⟨hreplies, hid⟩ :=
    ReplyCollector.addAndCheckReply_replies cfg coll.replyCollector reply sig
  obtain ⟨⟨c', ok'⟩, hc⟩ : ∃ x, coll.replyCollector.addAndCheckReply cfg reply sig = x := ⟨_, rfl⟩
  rw [hc] at hreplies hid
  rw [CheckpointCollector.addAndCheckReply, hc] at hadd
  obtain rfl := (Prod.mk.inj hadd).1
  refine ⟨h.above, h.position, hid.trans h.replicaId_eq, fun m hm => ?_⟩
  rw [hreplies] at hm
  rcases OrderedMap.getElem?_insert_cases hm with ⟨hkey, rfl⟩ | ⟨-, hstored⟩
  · exact hown hkey.symm
  · exact h.own m hstored

/-- A commit is added. -/
lemma addAndCheckCommit [Sha256] (h : coll.InPlace stableSeq replicaId key) {cfg : Config}
    {commit : Commit} {sig : Bytes} {ok : Bool}
    (hadd : coll.addAndCheckCommit cfg commit sig = (coll', ok)) :
    coll'.InPlace stableSeq replicaId key := by
  obtain ⟨⟨c', ok'⟩, hc⟩ : ∃ x, coll.commitCollector.addAndCheckCommit cfg commit sig = x :=
    ⟨_, rfl⟩
  have hseq : c'.seq = coll.commitCollector.seq := by
    rcases CommitCollector.addAndCheckCommit_cases hc with ⟨rfl, -⟩ | ⟨-, -, hseq, -⟩
    · rfl
    · exact hseq
  rw [CheckpointCollector.addAndCheckCommit, hc] at hadd
  obtain rfl := (Prod.mk.inj hadd).1
  exact ⟨h.above, hseq.trans h.position, h.replicaId_eq, h.own⟩

end CheckpointCollector.InPlace

lemma CommitCollector.getCheckpoint_snapshot {c : CommitCollector} {cp : LogCheckpoint}
    (h : c.getCheckpoint = .ok cp) : cp.snapshot = none := by
  rw [getCheckpoint] at h
  split at h
  · cases h
  · dsimp only at h
    split_ifs at h
    cases h
    rfl

/-- **The checkpoint of a collector** is made of the commit that tips the count. -/
lemma CheckpointCollector.getCheckpoint_of_ready [Sha256] {cfg : Config}
    {coll coll' : CheckpointCollector} {commit : Commit} {sig : Bytes} {cp : LogCheckpoint}
    (hadd : coll.addAndCheckCommit cfg commit sig = (coll', true))
    (hcp : coll'.getCheckpoint = .ok cp) :
    (ClientRecord.ofProto commit.clientRecord).digest = commit.clientRecord.digest ∧
      coll'.needsSnapshot = coll.needsSnapshot ∧
      coll'.commitCollector.seq = coll.commitCollector.seq ∧
      cp.seq = coll'.commitCollector.seq ∧
      cp.snapshot = (if coll.needsSnapshot then coll.snapshot.map (·.snapshot) else none) ∧
      ∃ x, CommitCollector.matchCommits cfg.f
          (coll.commitCollector.commits.insert commit.replicaId commit).toList [] = some x ∧
        cp.logDigest = x.1.logDigest ∧ cp.appDigest = x.1.appDigest.getD [] := by
  obtain ⟨⟨c', ok⟩, hc⟩ : ∃ x, coll.commitCollector.addAndCheckCommit cfg commit sig = x :=
    ⟨_, rfl⟩
  rw [CheckpointCollector.addAndCheckCommit, hc] at hadd
  obtain ⟨rfl, rfl⟩ := Prod.mk.inj hadd
  rcases CommitCollector.addAndCheckCommit_cases hc with ⟨-, hfalse, -⟩ |
    ⟨hchecked, -, hsame, hcommits, hmatch⟩
  · cases hfalse
  obtain ⟨m, ids, hmatch, huse, hids⟩ := hmatch rfl
  obtain ⟨cp', hcp', hseq, hdigest, happ, -⟩ := CommitCollector.getCheckpoint_eq hmatch huse hids
  obtain ⟨cp'', hcp'', hcp⟩ := bind_eq_ok.mp hcp
  obtain rfl : cp' = cp'' := Except.ok.inj (hcp'.symm.trans hcp'')
  rw [hcommits] at hmatch
  cases pure_eq_ok.mp hcp
  dsimp only
  split_ifs with hneeds
  · exact ⟨hchecked, rfl, hsame, hseq, rfl, _, hmatch, hdigest, happ⟩
  · exact ⟨hchecked, rfl, hsame, hseq, CommitCollector.getCheckpoint_snapshot hcp', _, hmatch,
      hdigest, happ⟩

namespace CheckpointCollectorStore

lemma get_eq {s : CheckpointCollectorStore} {round seq : ℕ} {coll : CheckpointCollector}
    (h : s.get round seq = .ok coll) : s.collectors[(round, seq)]? = some coll := by
  rw [get] at h
  split at h
  · cases h
  · rename_i coll' hcoll
    cases h
    exact hcoll

lemma initCollector_created {s s' : CheckpointCollectorStore} {replicaId round seq : ℕ}
    {needsSnapshot : Bool}
    (h : s.initCollector replicaId round seq needsSnapshot = .ok (s', true)) :
    s' = s.set round seq (.create replicaId round seq needsSnapshot) := by
  rw [initCollector] at h
  by_cases hpassed : seq ≤ if needsSnapshot then s.stableSeq else s.committedSeq
  · rw [if_pos hpassed] at h
    cases h
  · rw [if_neg hpassed] at h
    split_ifs at h
    cases h
    rfl

end CheckpointCollectorStore

/-! ### The invariant -/

namespace Replica

section

variable {A : Type} {r r' : Replica A} {cfg : Config} {now : ℕ} {c : Check A}

/-- The positions of the log and of the collectors are in order. -/
structure Tidy (r : Replica A) : Prop where
  bounded : r.log.Bounded
  stable_le : r.log.stableCheckpoint.seq ≤ r.checkpointCollectors.stableSeq
  seq_le : r.checkpointCollectors.stableSeq ≤ r.checkpointCollectors.committedSeq
  collectors : ∀ (key : ℕ × ℕ) (coll : CheckpointCollector),
    r.checkpointCollectors.collectors[key]? = some coll →
      coll.InPlace r.log.stableCheckpoint.seq r.replicaId key
  replies : ∀ x ∈ r.sent, ∀ m, x.2 = .reply m → m.round ≤ r.round
  proposal : r.repairProposal = none
  fetch : r.missingRequestFetchSent = false

namespace Tidy

lemma fresh (i : ℕ) (app : A) : (Replica.fresh i app).Tidy where
  bounded := Log.bounded_fresh app
  stable_le := le_rfl
  seq_le := le_rfl
  collectors key coll h := by
    rw [Replica.fresh, ExtTreeMap.getElem?_empty] at h
    cases h
  replies := by simp [Replica.fresh]
  proposal := rfl
  fetch := rfl

lemma send (h : r.Tidy) (dst : Dest) {msg : Msg} (hmsg : ∀ m, msg = .reply m → m.round ≤ r.round) :
    (r.send dst msg).Tidy where
  bounded := h.bounded
  stable_le := h.stable_le
  seq_le := h.seq_le
  collectors := h.collectors
  replies x hx := by
    rcases List.mem_append.mp hx with hx | hx
    · exact h.replies x hx
    · rw [List.mem_singleton.mp hx]
      exact hmsg
  proposal := h.proposal
  fetch := h.fetch

/-- The log may change as long as the stable position stays. -/
lemma setLog (h : r.Tidy) {log : Log A} (hlog : log.Bounded)
    (hstable : log.stableCheckpoint = r.log.stableCheckpoint) : { r with log }.Tidy where
  bounded := hlog
  stable_le := hstable ▸ h.stable_le
  seq_le := h.seq_le
  collectors key coll hcoll := by
    show coll.InPlace log.stableCheckpoint.seq r.replicaId key
    rw [hstable]
    exact h.collectors key coll hcoll
  replies := h.replies
  proposal := h.proposal
  fetch := h.fetch

lemma setCollector (h : r.Tidy) {round seq : ℕ} {coll : CheckpointCollector}
    (hcoll : coll.InPlace r.log.stableCheckpoint.seq r.replicaId (round, seq)) :
    (r.setCollector round seq coll).Tidy where
  bounded := h.bounded
  stable_le := h.stable_le
  seq_le := h.seq_le
  collectors key coll' hcoll' := by
    rcases OrderedMap.getElem?_insert_cases hcoll' with ⟨rfl, rfl⟩ | ⟨-, hold⟩
    · exact hcoll
    · exact h.collectors key coll' hold
  replies := h.replies
  proposal := h.proposal
  fetch := h.fetch

lemma collector (h : r.Tidy) {round seq : ℕ} {coll : CheckpointCollector}
    (hget : r.checkpointCollectors.get round seq = .ok coll) :
    r.checkpointCollectors.collectors[(round, seq)]? = some coll ∧
      coll.InPlace r.log.stableCheckpoint.seq r.replicaId (round, seq) := by
  have hcoll := CheckpointCollectorStore.get_eq hget
  exact ⟨hcoll, h.collectors _ _ hcoll⟩

/-- A collector that is found or created is above the stable position. -/
lemma initCollector (h : r.Tidy) {round seq : ℕ} {needsSnapshot ok : Bool}
    (hinit : r.initCollector round seq needsSnapshot = .ok (r', ok)) :
    r'.Tidy ∧ (∃ store, r' = { r with checkpointCollectors := store }) ∧
      (ok = true → r.log.stableCheckpoint.seq < seq) := by
  rw [Replica.initCollector] at hinit
  split_ifs at hinit with hhas
  · cases hinit
    refine ⟨h, ⟨_, rfl⟩, fun _ => ?_⟩
    obtain ⟨coll, hcoll⟩ := Option.isSome_iff_exists.mp
      (ExtTreeMap.isSome_getElem?_iff_mem.mpr (ExtTreeMap.contains_iff_mem.mp hhas))
    exact (h.collectors _ _ hcoll).above
  · obtain ⟨⟨store, created⟩, hstore, hinit⟩ := bind_eq_ok.mp hinit
    cases pure_eq_ok.mp hinit
    rw [CheckpointCollectorStore.initCollector] at hstore
    by_cases hpassed : seq ≤ if needsSnapshot then r.checkpointCollectors.stableSeq
        else r.checkpointCollectors.committedSeq
    · rw [if_pos hpassed] at hstore
      cases hstore
      exact ⟨h, ⟨_, rfl⟩, fun h => by cases h⟩
    · rw [if_neg hpassed] at hstore
      split_ifs at hstore
      cases hstore
      have hstable := h.stable_le
      have hseq := h.seq_le
      have habove : r.log.stableCheckpoint.seq < seq := by
        cases needsSnapshot with
        | true =>
            rw [if_pos rfl] at hpassed
            omega
        | false =>
            rw [if_neg Bool.false_ne_true] at hpassed
            omega
      exact ⟨h.setCollector (.create habove), ⟨_, rfl⟩, fun _ => habove⟩

end Tidy

/-- **A collector that is not there is created.** -/
lemma Creates.not_fails [Application A] {round seq : ℕ} {needsSnapshot : Bool}
    (h : r.Creates round seq needsSnapshot c) : ¬c.Fails := by
  obtain ⟨hhas, rfl⟩ := h
  rw [Check.Fails, CheckpointCollectorStore.initCollector, hhas, if_neg Bool.false_ne_true]
  split_ifs <;> simp

end

section

variable {A : Type} [Application A] [Sha256] {r r' : Replica A} {cfg : Config} {now : ℕ}
  {c : Check A}

omit [Sha256] in
lemma Tidy.takeSnapshot (h : r.Tidy) (b : Bool) : (if b then r.takeSnapshot else r).Tidy := by
  cases b with
  | false => exact h
  | true =>
      exact ⟨h.bounded, h.stable_le, h.seq_le, h.collectors, h.replies, h.proposal, h.fetch⟩

omit [Sha256] in
lemma takeSnapshot_log (r : Replica A) (b : Bool) :
    (if b then r.takeSnapshot else r).log = r.log := by
  cases b <;> rfl

omit [Sha256] in
lemma Tidy.startCheckpoint (h : r.Tidy) {b : Bool} (hstart : r.startCheckpoint b = .ok r') :
    r'.Tidy := by
  obtain ⟨⟨r₁, ok⟩, hinit, hstart⟩ := bind_eq_ok.mp hstart
  obtain ⟨h₁, -, -⟩ := (h.takeSnapshot b).initCollector hinit
  cases ok with
  | false =>
      cases hstart
      exact h₁
  | true =>
      obtain ⟨coll, hget, hstart⟩ := bind_eq_ok.mp hstart
      obtain ⟨digest, -, hstart⟩ := bind_eq_ok.mp hstart
      obtain ⟨entry, -, hstart⟩ := bind_eq_ok.mp hstart
      cases pure_eq_ok.mp hstart
      have hcoll : (coll.addOwnState digest r₁.log.clientRecord).InPlace
          r₁.log.stableCheckpoint.seq r₁.replicaId (r₁.round, r.log.nextSeq - 1) :=
        (h₁.collector hget).2.congr rfl rfl
      refine (h₁.setCollector hcoll).send _ ?_
      rintro m ⟨⟩
      exact le_rfl

omit [Sha256] in
/-- **The checks in `startCheckpoint` do not fail.** -/
lemma Tidy.startReaches (h : r.Tidy) {b : Bool} (hc : StartReaches r b c) : ¬c.Fails := by
  have hread : ∀ {r₁}, (if b then r.takeSnapshot else r).initCollector r.round (r.log.nextSeq - 1)
      b = .ok (r₁, true) → r₁.log = r.log ∧ r.log.stableCheckpoint.seq < r.log.nextSeq - 1 ∧
        r.log.nextSeq - 1 < r.log.nextSeq := by
    intro r₁ hinit
    have hlog := takeSnapshot_log r b
    obtain ⟨-, ⟨store, rfl⟩, habove⟩ := (h.takeSnapshot b).initCollector hinit
    have hcommitted := h.bounded.committed_lt
    rw [hlog] at habove
    exact ⟨hlog, habove rfl, by omega⟩
  cases hc with
  | created hcreates => exact hcreates.not_fails
  | getDigest hinit =>
      obtain ⟨hlog, habove, hlt⟩ := hread hinit
      rw [hlog]
      exact h.bounded.getDigestAt_ne habove.le hlt
  | getEntry hinit _ =>
      obtain ⟨hlog, habove, hlt⟩ := hread hinit
      rw [hlog]
      exact h.bounded.getEntry_ne habove hlt

omit [Application A] [Sha256] in
lemma Tidy.restartTimer (h : r.Tidy) : (r.restartTimer now).Tidy :=
  ⟨h.bounded, h.stable_le, h.seq_le, h.collectors, h.replies, h.proposal, h.fetch⟩

omit [Sha256] in
lemma Tidy.checkpointAt (h : r.Tidy) {seq : ℕ} (hat : r.checkpointAt cfg now seq = .ok r') :
    r'.Tidy := by
  have hend : ∀ {r₁ : Replica A}, r₁.Tidy → (if seq = 1 then r₁.restartTimer now else r₁).Tidy := by
    intro r₁ h₁
    split_ifs
    · exact h₁.restartTimer
    · exact h₁
  rw [Replica.checkpointAt] at hat
  by_cases hdue : seq % cfg.replicaCheckpointInterval = 0
  · rw [if_pos hdue] at hat
    obtain ⟨r₁, hstart, hat⟩ := bind_eq_ok.mp hat
    obtain ⟨r₂, hr₂, rfl⟩ := map_eq_ok.mp hstart
    cases pure_eq_ok.mp hat
    exact hend (h.startCheckpoint hr₂).restartTimer
  · rw [if_neg hdue] at hat
    cases pure_eq_ok.mp hat
    exact hend h

variable [PaddedRequestData]

lemma Tidy.addEntry (h : r.Tidy) {log : Log A} {c s : UInt32} {req : Bytes} {res : Option Bytes}
    (hadd : r.log.addEntry c s req = .ok (log, res)) : { r with log }.Tidy :=
  h.setLog (h.bounded.addEntry hadd) (Log.addEntry_checkpoints hadd).1

omit [Application A] [Sha256] [PaddedRequestData] in
lemma Tidy.setDeadline (h : r.Tidy) {log : Log A} {seq deadline : ℕ}
    (hset : r.log.setDeadline seq deadline = .ok log) : { r with log }.Tidy :=
  h.setLog (h.bounded.setDeadline hset) (Log.setDeadline_checkpoints hset).1

omit [Application A] [Sha256] [PaddedRequestData] in
lemma Tidy.sendReply (h : r.Tidy) {m : Reply} (hm : m.round = r.round) {client : UInt32}
    {r₁ : Replica A} (hsend : r.sendToClient cfg client (.reply m) = .ok r₁) : r₁.Tidy := by
  rw [sendToClient_eq hsend]
  refine h.send _ ?_
  rintro m' ⟨⟩
  exact hm.le

lemma Tidy.processClientRequest (h : r.Tidy) {m : ClientRequestProto} {queued : Bool}
    (hreq : r.processClientRequest cfg now m queued = .ok r') : r'.Tidy := by
  rw [Replica.processClientRequest] at hreq
  split_ifs at hreq
  · cases hreq
    exact h
  · rw [sendToClient_eq hreq]
    exact h.send _ (by simp)
  · obtain ⟨⟨log, res⟩, hadd, hreq⟩ := bind_eq_ok.mp hreq
    have h₁ := h.addEntry hadd
    cases res with
    | none =>
        cases hreq
        exact h₁
    | some result =>
        obtain ⟨log', hset, hreq⟩ := bind_eq_ok.mp hreq
        obtain ⟨r₂, hsend, hreq⟩ := bind_eq_ok.mp hreq
        have h₂ : { r with log := log' }.Tidy := h₁.setDeadline hset
        exact (h₂.sendReply rfl hsend).checkpointAt hreq

/-- **The checks in `processClientRequest` do not fail.** -/
lemma Tidy.requestReaches (h : r.Tidy) {m : ClientRequestProto} (hc : RequestReaches cfg r m c) :
    ¬c.Fails := by
  cases hc with
  | @start log log' _ _ _ _ hadd hset hsend _ hstart =>
      have h₁ : { r with log := log' }.Tidy := (h.addEntry hadd).setDeadline hset
      exact (h₁.sendReply rfl hsend).startReaches hstart

end

/-! ### Replies -/

section

variable {A : Type} {r r' : Replica A} {cfg : Config} {now : ℕ} {c : Check A}

lemma Tidy.addCert (h : r.Tidy) {log : Log A} {seq : ℕ} {cert : Cert} {ok : Bool}
    (hadd : r.log.addCert seq cert = .ok (log, ok)) : { r with log }.Tidy :=
  h.setLog (h.bounded.addCert hadd) (Log.addCert_checkpoints hadd).1

variable [Sha256]

lemma Tidy.sendOwnCommit (h : r.Tidy) {coll : CheckpointCollector}
    (hsend : r.sendOwnCommit coll = .ok r') : r'.Tidy := by
  rw [Replica.sendOwnCommit] at hsend
  split_ifs at hsend
  · obtain ⟨commit, -, hsend⟩ := bind_eq_ok.mp hsend
    cases pure_eq_ok.mp hsend
    exact h.send _ (by simp)
  · cases hsend
    exact h

lemma Tidy.useCert (h : r.Tidy) {coll : CheckpointCollector} {reply : Reply}
    (huse : r.useCert cfg coll reply = .ok r') : r'.Tidy := by
  rw [Replica.useCert] at huse
  split_ifs at huse
  · split at huse
    · cases huse
    · obtain ⟨⟨log, ok⟩, hadd, huse⟩ := bind_eq_ok.mp huse
      cases ok with
      | false =>
          cases huse
          exact h.addCert hadd
      | true => exact (h.addCert hadd).sendOwnCommit huse
  · exact h.sendOwnCommit huse

lemma Tidy.startRepair (h : r.Tidy) (hstart : r.startRepair cfg = .ok r') : r'.Tidy := by
  obtain ⟨-, m, -, -, -, -, rfl⟩ := startRepair_eq hstart
  have h₁ : { r with repair := true, repairStart := some m }.Tidy :=
    ⟨h.bounded, h.stable_le, h.seq_le, h.collectors, h.replies, h.proposal, h.fetch⟩
  exact h₁.send _ (by simp)

lemma Tidy.useConflictProof (h : r.Tidy) {coll : CheckpointCollector}
    (huse : r.useConflictProof cfg coll = .ok r') : r'.Tidy := by
  rcases useConflictProof_cases huse with ⟨-, rfl⟩ | ⟨proof, -, huse⟩
  · exact h
  · exact (h.send _ (by simp)).startRepair huse

variable [Application A]

omit [Sha256] in
lemma Tidy.checkpointTimedOut (h : r.Tidy) {reply : Reply}
    (ht : r.checkpointTimedOut cfg reply = .ok r') : r'.Tidy := by
  rw [Replica.checkpointTimedOut] at ht
  dsimp only at ht
  split_ifs at ht
  · have h₁ : { r with checkpointTimeoutSeqs :=
        r.checkpointTimeoutSeqs.insert reply.replicaId (r.round, reply.seq) }.Tidy :=
      ⟨h.bounded, h.stable_le, h.seq_le, h.collectors, h.replies, h.proposal, h.fetch⟩
    exact h₁.startCheckpoint ht
  · cases ht
    exact h

omit [Sha256] [Application A] in
/-- A reply in the own name is of the current round, if it is not too old. -/
lemma Tidy.own_round (h : r.Tidy) {m : Reply} (hround : r.round ≤ m.round)
    (hown : m.replicaId = r.replicaId → ∃ x ∈ r.sent, x.2 = .reply m)
    (hid : m.replicaId = r.replicaId) : m.round = r.round := by
  obtain ⟨x, hx, hxm⟩ := hown hid
  exact le_antisymm (h.replies x hx m hxm) hround

lemma Tidy.processReply (h : r.Tidy) {m : Reply} {sig : Bytes}
    (hown : m.replicaId = r.replicaId → ∃ x ∈ r.sent, x.2 = .reply m)
    (hreply : r.processReply cfg now m sig = .ok r') : r'.Tidy := by
  rw [Replica.processReply] at hreply
  split_ifs at hreply with hrep hround
  · cases hreply
    exact h
  · cases hreply
    exact h
  obtain ⟨r₁, h₁, hreply⟩ := bind_eq_ok.mp hreply
  have hr₁ := h.checkpointTimedOut h₁
  have hq₁ := (checkpointTimedOut_quiet h₁).1.eq
  split_ifs at hreply
  · cases hreply
    exact hr₁
  obtain ⟨⟨r₂, ok⟩, h₂, hreply⟩ := bind_eq_ok.mp hreply
  obtain ⟨hr₂, ⟨store, hstore⟩, -⟩ := hr₁.initCollector h₂
  cases ok with
  | false =>
      cases hreply
      exact hr₂
  | true =>
      obtain ⟨coll, hget, hreply⟩ := bind_eq_ok.mp hreply
      split_ifs at hreply
      · cases hreply
        exact hr₂
      have hid : r₂.replicaId = r.replicaId := by rw [hstore, hq₁]
      have hrd : r₂.round = r.round := by rw [hstore, hq₁]
      obtain ⟨⟨coll', ready⟩, hadd⟩ : ∃ x, coll.addAndCheckReply cfg now m sig = x := ⟨_, rfl⟩
      have hplace := (hr₂.collector hget).2.addAndCheckReply (fun hkey => by
        rw [hrd]
        exact h.own_round (not_lt.mp hround) hown (hkey.trans hid)) hadd
      have hr₃ := hr₂.setCollector hplace
      rw [hadd] at hreply
      dsimp only at hreply
      split_ifs at hreply
      · exact hr₃.useCert hreply
      · exact hr₃.useConflictProof hreply

omit [Sha256] in
/-- Where a position has its collector, nothing is started for it. -/
lemma eq_of_hasCollector {reply : Reply} {r₁ r₂ : Replica A} {needsSnapshot : Bool}
    (hhas : r.checkpointCollectors.hasCollector r.round reply.seq = true)
    (h₁ : r.checkpointTimedOut cfg reply = .ok r₁)
    (h₂ : r₁.initCollector r₁.round reply.seq needsSnapshot = .ok (r₂, true)) :
    r₁ = r ∧ r₂ = r := by
  rw [Replica.checkpointTimedOut] at h₁
  dsimp only at h₁
  rw [hhas, if_neg (by simp)] at h₁
  cases h₁
  rw [Replica.initCollector, if_pos hhas] at h₂
  cases h₂
  exact ⟨rfl, rfl⟩

omit [Sha256] in
/-- **The checks in `processReply` do not fail** unless the certificate comes late. -/
lemma Tidy.replyReaches (h : r.Tidy) {m : Reply} {sig : Bytes}
    (hown : m.replicaId = r.replicaId → ∃ x ∈ r.sent, x.2 = .reply m)
    (hlate : ¬r.LateCertificate cfg m) (hc : ReplyReaches cfg now r m sig c) : ¬c.Fails := by
  cases hc with
  | start _ _ hstart =>
      have h₁ : { r with checkpointTimeoutSeqs :=
          r.checkpointTimeoutSeqs.insert m.replicaId (r.round, m.seq) }.Tidy :=
        ⟨h.bounded, h.stable_le, h.seq_le, h.collectors, h.replies, h.proposal, h.fetch⟩
      exact h₁.startReaches hstart
  | created _ _ _ _ hcreates => exact hcreates.not_fails
  | @replyRound r₁ r₂ coll coll' hrep hround h₁ hseq h₂ hget hready hadd =>
      show ¬m.round ≠ r₂.round
      have hk := (checkpointTimedOut_keepsGathered h₁).trans (initCollector_keepsGathered h₂)
      have hrd : r₂.round = r.round := by rw [hk.quiet.eq]
      rw [hrd]
      intro hne
      have hr₂ := ((h.checkpointTimedOut h₁).initCollector h₂).1
      obtain ⟨hcoll, hplace⟩ := hr₂.collector hget
      obtain ⟨hcoll', hret, -⟩ := CheckpointCollector.addAndCheckReply_eq hadd
      have hid : coll.replyCollector.replicaId = r.replicaId := by
        rw [hplace.replicaId_eq, hk.quiet.eq]
      obtain ⟨hcert, hnew, own, howned, hquorum⟩ :=
        ReplyCollector.stored_of_ready (Prod.ext hcoll'.symm hret.symm) hne fun m' hm' => by
          rcases OrderedMap.getElem?_insert_cases hm' with ⟨hkey, rfl⟩ | ⟨-, hstored⟩
          · exact h.own_round hround hown (hkey.symm.trans hid)
          · rw [hid, show r.replicaId = r₂.replicaId by rw [hk.quiet.eq]] at hstored
            exact (hplace.own m' hstored).trans hrd
      rw [hid] at howned
      -- the collector has been there before, since it has replies
      have hhas : r.checkpointCollectors.hasCollector r.round m.seq = true := by
        have hgathered : (r.gathered m.seq).replies = coll.replyCollector.replies := by
          rw [← hk.gathered, Replica.gathered, hcoll]
          rfl
        rw [Replica.gathered] at hgathered
        rw [CheckpointCollectorStore.hasCollector, ExtTreeMap.contains_iff_mem,
          ← ExtTreeMap.isSome_getElem?_iff_mem]
        by_contra hnone
        rw [Option.not_isSome_iff_eq_none.mp hnone] at hgathered
        rw [← hgathered] at howned
        simp at howned
      obtain ⟨rfl, rfl⟩ := eq_of_hasCollector hhas h₁ h₂
      exact hlate ⟨hrep, lt_of_le_of_ne hround (Ne.symm hne), hseq, coll, hcoll, hcert, hnew, own,
        howned, hquorum⟩

omit [Application A] in
lemma Tidy.processSnapshot (h : r.Tidy) {snapshot : AppSnapshot} {round : ℕ}
    (hsnap : r.processSnapshot snapshot round = .ok r') : r'.Tidy := by
  rw [Replica.processSnapshot] at hsnap
  split at hsnap
  · cases hsnap
    exact h
  · rename_i coll hcoll
    have hplace : (coll.addOwnSnapshot snapshot).InPlace r.log.stableCheckpoint.seq r.replicaId
        (round, snapshot.seq) := (h.collectors _ _ hcoll).congr rfl rfl
    exact (h.setCollector hplace).sendOwnCommit hsnap

end

/-! ### Commits -/

section

variable {A : Type} [Application A] {r r' r₁ : Replica A} {cfg : Config} {now : ℕ} {c : Check A}

omit [Application A] in
/-- The collectors that are left are above the stable position of the log. -/
lemma Tidy.clean (h : r.Tidy) {log : Log A} (hlog : log.Bounded) {round : ℕ}
    (hround : r.round ≤ round)
    (hclean : { r with log, round }.cleanStaleCollectors = .ok r') : r'.Tidy := by
  obtain ⟨store, hstore, hclean⟩ := bind_eq_ok.mp hclean
  cases pure_eq_ok.mp hclean
  rw [CheckpointCollectorStore.cleanStaleCollectors, if_neg (not_lt.mpr hlog.stable_le)] at hstore
  cases hstore
  refine ⟨hlog, le_max_right _ _, max_le_max h.seq_le hlog.stable_le, fun key coll hcoll => ?_,
    fun x hx m hm => (h.replies x hx m hm).trans hround, h.proposal, h.fetch⟩
  have hcoll' := hcoll
  rw [ExtTreeMap.getElem?_filter', Option.filter_eq_some_iff] at hcoll'
  obtain ⟨hold, habove⟩ := hcoll'
  have hplace := h.collectors key coll hold
  refine ⟨?_, hplace.position, hplace.replicaId_eq, hplace.own⟩
  have hlt := of_decide_eq_true habove
  have hstable := hlog.stable_le
  split at hlt
  · exact hlt
  · exact hstable.trans_lt hlt

lemma Tidy.commitCheckpoint (h : r.Tidy) {cp : LogCheckpoint} (hp : cp.seq < r.log.nextSeq)
    (hcommit : r.commitCheckpoint cp = .ok r') : r'.Tidy := by
  obtain ⟨log, hset, hclean⟩ := bind_eq_ok.mp hcommit
  exact h.clean (h.bounded.setCheckpoint hp hset) le_rfl hclean

omit [Application A] in
lemma Tidy.requestCheckpoint (h : r.Tidy) {cp : LogCheckpoint}
    (hrequest : r.requestCheckpoint cfg now cp = .ok r') : r'.Tidy := by
  have hset : ∀ {r₁ : Replica A}, r₁.Tidy → { r₁ with checkpointSnapshotRequested := true }.Tidy :=
    fun h₁ => ⟨h₁.bounded, h₁.stable_le, h₁.seq_le, h₁.collectors, h₁.replies, h₁.proposal, h₁.fetch⟩
  rw [Replica.requestCheckpoint] at hrequest
  split at hrequest
  · cases hrequest
  split_ifs at hrequest
  · cases hrequest
    exact h
  · obtain ⟨r₁, hsend, hrequest⟩ := bind_eq_ok.mp hrequest
    cases pure_eq_ok.mp hrequest
    refine hset ?_
    rw [(sendToReplica_eq hsend).2]
    exact h.send _ (by simp)
  · obtain ⟨r₁, hsend, hrequest⟩ := bind_eq_ok.mp hrequest
    cases pure_eq_ok.mp hrequest
    cases hsend
    exact hset h

lemma Tidy.useCheckpoint (h : r.Tidy) {coll : CheckpointCollector}
    (huse : r.useCheckpoint cfg now coll = .ok r') : r'.Tidy := by
  obtain ⟨cp, -, huse⟩ := bind_eq_ok.mp huse
  by_cases hnext : r.log.nextSeq ≤ cp.seq
  · rw [if_pos hnext] at huse
    exact h.requestCheckpoint huse
  · rw [if_neg hnext] at huse
    obtain ⟨digest, -, huse⟩ := bind_eq_ok.mp huse
    split_ifs at huse
    · exact h.requestCheckpoint huse
    · exact h.commitCheckpoint (not_le.mp hnext) huse
    · cases pure_eq_ok.mp huse
      exact h

variable [Sha256]

lemma Tidy.processCommit (h : r.Tidy) {commit : Commit} {sig : Bytes}
    (hcommit : r.processCommit cfg now commit sig = .ok r') : r'.Tidy := by
  obtain ⟨⟨r₁, ok⟩, hinit, hcommit⟩ := bind_eq_ok.mp hcommit
  have h₁ := (h.initCollector hinit).1
  cases ok with
  | false =>
      cases hcommit
      exact h₁
  | true =>
      obtain ⟨coll, hget, hcommit⟩ := bind_eq_ok.mp hcommit
      obtain ⟨⟨coll', ready⟩, hadd⟩ : ∃ x, coll.addAndCheckCommit cfg commit sig = x := ⟨_, rfl⟩
      have h₂ := h₁.setCollector ((h₁.collector hget).2.addAndCheckCommit hadd)
      rw [hadd] at hcommit
      dsimp only at hcommit
      split_ifs at hcommit
      · exact h₂.useCheckpoint hcommit
      · cases pure_eq_ok.mp hcommit
        exact h₂

omit [Application A] in
/-- A collector that is used is above the stable position; the log has not changed. -/
lemma Tidy.callsUseCheckpoint (h : r.Tidy) {commit : Commit} {sig : Bytes}
    {coll : CheckpointCollector} (hcall : CallsUseCheckpoint cfg r commit sig r₁ coll) :
    r₁.Tidy ∧ r₁.log = r.log ∧ coll.commitCollector.seq = commit.seq ∧
      r.log.stableCheckpoint.seq < commit.seq := by
  obtain ⟨r₀, coll₀, hinit, hget, hadd, rfl⟩ := hcall
  obtain ⟨h₀, ⟨store, rfl⟩, habove⟩ := h.initCollector hinit
  have hplace := (h₀.collector hget).2.addAndCheckCommit hadd
  exact ⟨h₀.setCollector hplace, rfl, hplace.position, habove rfl⟩

omit [Application A] [Sha256] in
lemma cleanStaleCollectors_ne (h : r.log.Bounded) :
    r.cleanStaleCollectors ≠ .error .assertion := by
  intro hclean
  rcases bind_eq_error.mp hclean with hclean | ⟨_, -, hclean⟩
  · rw [CheckpointCollectorStore.cleanStaleCollectors, if_neg (not_lt.mpr h.stable_le)] at hclean
    cases hclean
  · cases hclean

omit [Application A] in
/-- A collector that has just been created makes no checkpoint that lacks its snapshot. -/
lemma bareCheckpoint_of_calls {commit : Commit} {sig : Bytes} {coll : CheckpointCollector}
    {cp : LogCheckpoint} (hcall : CallsUseCheckpoint cfg r commit sig r₁ coll)
    (hcp : coll.getCheckpoint = .ok cp) (hseq : cp.seq = commit.seq) (hnext : cp.seq < r.log.nextSeq)
    (hdigest : r.log.getDigestAt cp.seq = .ok cp.logDigest)
    (hsnap : !coll.needsSnapshot ∨ cp.snapshot.isSome) (happ : cp.appDigest ≠ [])
    (hnone : cp.snapshot = none) : r.BareCheckpoint cfg commit := by
  obtain ⟨r₀, coll₀, hinit, hget, hadd, rfl⟩ := hcall
  obtain ⟨hchecked, hneeds, -, -, -, x, hmatch, hlog, happ'⟩ :=
    CheckpointCollector.getCheckpoint_of_ready hadd hcp
  have hbare : coll₀.needsSnapshot = false := by
    rcases hsnap with hsnap | hsnap
    · rw [← hneeds]
      simpa using hsnap
    · rw [hnone] at hsnap
      cases hsnap
  rw [happ'] at happ
  rw [hseq] at hnext
  rw [hseq, hlog] at hdigest
  rw [Replica.initCollector] at hinit
  split_ifs at hinit with hhas
  · cases hinit
    exact ⟨hchecked, hnext, coll₀, CheckpointCollectorStore.get_eq hget, hbare, x, hmatch, happ,
      by rw [hdigest]; rfl⟩
  · obtain ⟨⟨store, created⟩, hstore, hinit⟩ := bind_eq_ok.mp hinit
    cases pure_eq_ok.mp hinit
    obtain rfl := CheckpointCollectorStore.initCollector_created hstore
    obtain ⟨-, rfl⟩ | ⟨hne, -⟩ := OrderedMap.getElem?_insert_cases
      (CheckpointCollectorStore.get_eq hget)
    · -- the commit is the only one, and has no digest of an application state
      obtain ⟨before, id, after, hlist, -⟩ := CommitCollector.matchCommits_eq hmatch
      have hmem : ((∅ : ExtTreeMap ℕ Commit compare).insert commit.replicaId commit)[id]? =
          some x.1 := by
        rw [← ExtTreeMap.mem_toList_iff_getElem?_eq_some]
        exact hlist ▸ List.mem_append_right _ List.mem_cons_self
      rcases OrderedMap.getElem?_insert_cases hmem with ⟨-, hx⟩ | ⟨-, hx⟩
      · have hneeded : commit.appDigest.isSome = false := (Bool.or_eq_false_iff.mp hbare).2
        rw [hx, Option.not_isSome_iff_eq_none.mp (Bool.eq_false_iff.mp hneeded)] at happ
        exact absurd rfl happ
      · rw [ExtTreeMap.getElem?_empty] at hx
        cases hx
    · exact absurd rfl hne

/-- **The checks in `processCommit` do not fail** unless a checkpoint lacks its snapshot. -/
lemma Tidy.commitReaches (h : r.Tidy) {commit : Commit} {sig : Bytes}
    (hbare : ¬r.BareCheckpoint cfg commit) (hc : CommitReaches cfg r commit sig c) : ¬c.Fails := by
  have hseq : ∀ {r₁ : Replica A} {coll cp}, CallsUseCheckpoint cfg r commit sig r₁ coll →
      coll.getCheckpoint = .ok cp → cp.seq = commit.seq := by
    rintro r₁ coll cp hcall hcp
    rw [← (h.callsUseCheckpoint hcall).2.2.1]
    obtain ⟨r₀, coll₀, -, -, hadd, -⟩ := hcall
    exact (CheckpointCollector.getCheckpoint_of_ready hadd hcp).2.2.2.1
  cases hc with
  | created hcreates => exact hcreates.not_fails
  | @getDigest r₁ _ cp hcall hcp hnext =>
      obtain ⟨h₁, hlog, -, habove⟩ := h.callsUseCheckpoint hcall
      refine h₁.bounded.getDigestAt_ne ?_ hnext
      rw [hlog, hseq hcall hcp]
      exact habove.le
  | @setCheckpoint r₁ _ cp hcall hcp hnext hdigest hsnap =>
      obtain ⟨h₁, hlog, -, -⟩ := h.callsUseCheckpoint hcall
      rintro ⟨log₁, hcommit, hstab⟩
      refine (h₁.bounded.commitCheckpoint hnext hcommit).1.stabilizeCheckpoint_ne
        (fun happ hnone => hbare ?_) hstab
      rw [hlog] at hnext hdigest
      exact bareCheckpoint_of_calls hcall hcp (hseq hcall hcp) hnext hdigest hsnap happ hnone
  | @stale r₁ _ cp log hcall _ hnext _ _ hset =>
      obtain ⟨h₁, -⟩ := h.callsUseCheckpoint hcall
      exact cleanStaleCollectors_ne (h₁.bounded.setCheckpoint hnext hset)

end

/-! ### Snapshot replies -/

section

variable {A : Type} {r r' : Replica A} {cfg : Config} {now : ℕ} {c : Check A}

lemma Tidy.clearSnapshotRequested (h : r.Tidy) : r.clearSnapshotRequested.Tidy :=
  ⟨h.bounded, h.stable_le, h.seq_le, h.collectors, h.replies, h.proposal, h.fetch⟩

variable [Application A] [Sha256] [PaddedRequestData]

lemma Tidy.alignLog (h : r.Tidy) {m : SnapshotReply} (hfits : r.log.Fits m)
    (halign : r.alignLog cfg m = .ok r') : r'.Tidy := by
  obtain ⟨⟨log, ok⟩, hmodify, halign⟩ := bind_eq_ok.mp halign
  cases ok with
  | false => cases halign
  | true =>
      obtain ⟨r₁, hclean, halign⟩ := bind_eq_ok.mp halign
      have h₁ := h.clean (h.bounded.applySnapshotModifyLog hfits hmodify) (le_max_left _ _) hclean
      refine foldlM_rel (P := fun a b : Replica A => a.Tidy → b.Tidy) (fun _ => id)
        (fun _ _ _ hab hbc ha => hbc (hab ha)) (fun a _ _ _ hsend ha => ?_) halign h₁
      obtain ⟨entry, -, hsend⟩ := bind_eq_ok.mp hsend
      exact ha.sendReply rfl hsend

omit [Application A] [PaddedRequestData] in
/-- Without a proposal there is no repair to be finished. -/
lemma applySnapshot_eq [Application A] [PaddedRequestData] (h : r.repairProposal = none)
    (m : SnapshotReply) : r.applySnapshot cfg m = .ok (r, none) := by
  rw [applySnapshot]
  split_ifs with _ hnone
  · rfl
  · rfl
  · rw [h] at hnone
    exact absurd rfl hnone

lemma Tidy.processSnapshotReply (h : r.Tidy) {m : SnapshotReply}
    (hfits : r.Aligns cfg m → r.log.Fits m)
    (hreply : r.processSnapshotReply cfg now m = .ok r') : r'.Tidy := by
  have hnone : r.applySnapshot cfg m = .ok (r, none) := applySnapshot_eq h.proposal m
  rcases processSnapshotReply_cases hreply with rfl | ⟨hround, hseq, ⟨-, happly |
      ⟨r₂, r₃, aborted, happly, -⟩⟩ | ⟨hrep, hskip, r₁, halign, rfl⟩⟩
  · exact h.clearSnapshotRequested
  · rw [hnone] at happly
    cases happly
    exact h
  · rw [hnone] at happly
    cases happly
  · exact (h.alignLog (hfits ⟨hround, hseq, hrep, hskip⟩) halign).clearSnapshotRequested

lemma Tidy.processDOMRequest (h : r.Tidy) {deadline : ℕ} {m : ClientRequestProto}
    (hreq : r.processDOMRequest cfg now deadline m = .ok r') : r'.Tidy := by
  rw [Replica.processDOMRequest] at hreq
  dsimp only at hreq
  by_cases hrep : r.repair = false
  · rw [if_pos (by simpa using hrep)] at hreq
    exact h.processClientRequest hreq
  · have hfetch : (r.queueRequest { m with deadline }).missingRequestFetchSent = false := h.fetch
    rw [if_neg (by simpa using hrep), hfetch, if_neg (by simp)] at hreq
    cases hreq
    exact ⟨h.bounded, h.stable_le, h.seq_le, h.collectors, h.replies, h.proposal, h.fetch⟩

/-! ### Every event -/

variable {e : ReplicaEvent}

/-- Every event of the path keeps the positions in order. -/
lemma Tidy.handle (h : r.Tidy) (hpath : r.OnPath e) (havoid : r.Avoids cfg e)
    (hhandle : r.handle cfg e = .ok r') : r'.Tidy := by
  cases e with
  | request now deadline m => exact h.processDOMRequest hhandle
  | snapshot =>
      rw [Replica.handle] at hhandle
      split at hhandle
      · cases hhandle
        exact h
      · rename_i round snapshot queue _
        have h₁ : { r with snapshotQueue := queue }.Tidy :=
          ⟨h.bounded, h.stable_le, h.seq_le, h.collectors, h.replies, h.proposal, h.fetch⟩
        exact h₁.processSnapshot hhandle
  | message now msg sig =>
      cases msg with
      | clientRequest m => exact h.processClientRequest hhandle
      | reply m => exact h.processReply hpath hhandle
      | commit m => exact h.processCommit hhandle
      | snapshotReply m => exact h.processSnapshotReply havoid hhandle
      | _ => exact absurd hpath id
  | timeouts now => exact absurd hpath id

/-- **No check fails** on an event that avoids the messages that make one fail. -/
lemma Tidy.reaches (h : r.Tidy) (hpath : r.OnPath e) (havoid : r.Avoids cfg e)
    (hc : Reaches cfg r e c) : ¬c.Fails := by
  cases hc with
  | request _ hrequest => exact h.requestReaches hrequest
  | fetched _ hfetch =>
      rw [h.fetch] at hfetch
      cases hfetch
  | clientRequest hrequest => exact h.requestReaches hrequest
  | reply hreply => exact h.replyReaches hpath havoid hreply
  | commit hcommit => exact h.commitReaches havoid hcommit
  | align haligns hmodify =>
      exact cleanStaleCollectors_ne
        (h.bounded.applySnapshotModifyLog (havoid haligns) hmodify)
  | repaired _ hproposal =>
      rw [h.proposal] at hproposal
      cases hproposal

variable [SignatureProvider] {i : ℕ} {app : A} {es : List ReplicaEvent}

end

/-! ### Runs -/

section

variable {A : Type} {r : Replica A} {cfg : Config} {now : ℕ}

/-- A reply to a position whose collector is there, and that completes a certificate, gets to the
check of its round. -/
lemma replyReaches_of_collector [Application A] {m : Reply} {sig : Bytes}
    {coll : CheckpointCollector} (hrep : r.repair = false) (hround : r.round ≤ m.round)
    (hseq : r.log.committedCheckpoint.seq < m.seq)
    (hget : r.checkpointCollectors.get r.round m.seq = .ok coll) (hready : coll.commitReady = false)
    (hadd : (coll.addAndCheckReply cfg now m sig).2 = true) :
    ReplyReaches cfg now r m sig (.replyRound
      (r.setCollector r.round m.seq (coll.addAndCheckReply cfg now m sig).1) m) := by
  have hhas : r.checkpointCollectors.hasCollector r.round m.seq = true := by
    rw [CheckpointCollectorStore.hasCollector, ExtTreeMap.contains_iff_mem,
      ← ExtTreeMap.isSome_getElem?_iff_mem, CheckpointCollectorStore.get_eq hget]
    rfl
  have htimeout : r.checkpointTimedOut cfg m = .ok r := by
    rw [Replica.checkpointTimedOut]
    dsimp only
    rw [hhas, if_neg (by simp)]
  refine .replyRound hrep hround htimeout hseq ?_ hget hready (Prod.ext rfl hadd)
  rw [Replica.initCollector, if_pos hhas]

end

section

/-- Six replicas of which one may be faulty and another one slow, with a checkpoint after every
request. -/
def oneSlow : Config := { Config.oneFault with
  e := 1, numReplicas := 6, replicaCheckpointInterval := 1 }

/-- Six replicas with a key each. -/
abbrev sixKeys : SignatureProvider := numberSignaturesBelow 6

attribute [local instance] prefixSha shortPaddedRequestData counterWire sixKeys

/-- The reply of a replica to the first request, in a round. -/
def replyTo (i round : ℕ) (digest : Bytes) : ReplicaEvent :=
  .message 1 (.reply { clientSeq := 1, round, seq := 1, replicaId := i, digest }) [UInt8.ofNat i]

/-- The digest of the first request. -/
def firstDigest : Bytes := (LogEntry.create 1 0 1 [] []).digest

/-- The first request, and the replies of the first four replicas to it. -/
def fourReplies : List ReplicaEvent :=
  .request 1 1 { clientSeq := 1 } :: [0, 1, 2, 3].map (replyTo · 1 firstDigest)

/-- Replica `4` has sent another digest first, so that its matching reply is not noticed. -/
def lateEvents : List ReplicaEvent :=
  fourReplies ++ [replyTo 4 1 [], replyTo 4 1 firstDigest]

end

end Replica

end DomBft
