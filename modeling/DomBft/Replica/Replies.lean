import DomBft.Log.Committed
import DomBft.Replica.Kinds
import DomBft.Replica.Progress
import DomBft.Replica.Cluster

/-!
The replies that a replica signs, and the one log that it speaks for in a round.

* `replies`: the replies sent so far, to clients and to other replicas.
* `NoReply`: a step that sends no reply and stays in its round, at the same end of the log;
  `Silent` when it signs no commit either, and `KeepsWord` when only the log may change.  One lemma
  for each handler.
* `VoiceStep`: what one event is to the replies and the log.
* `Spoken`, the invariant: the replies of a round name positions of one history, and outside
  repairs the log continues all those of the round it is in.
* `OneVoice`: the condition under which every event keeps it.  `replies_chained` is what follows
  for **the replies of one replica in one round**, over every run.
-/

namespace DomBft

open Fallible
open Transition
open HashChain (Continues)

/-- The reply in a message. -/
def Msg.reply? : Msg → Option Reply
  | .reply m => some m
  | _ => none

/-- The commit in a message. -/
def Msg.commit? : Msg → Option Commit
  | .commit m => some m
  | _ => none

/-- The message is neither a reply nor a commit. -/
def Msg.Plain (msg : Msg) : Prop := msg.reply? = none ∧ msg.commit? = none

namespace Replica

section

variable {A : Type} {r r₁ r₂ r' : Replica A} {cfg : Config} {now : ℕ}

/-- The replies that a replica has signed. -/
def replies (r : Replica A) : List Reply := r.sent.filterMap (·.2.reply?)

/-- The commits that a replica has signed. -/
def commits (r : Replica A) : List Commit := r.sent.filterMap (·.2.commit?)

@[simp] lemma replies_send (r : Replica A) (dst : Dest) (m : Reply) :
    (r.send dst (.reply m)).replies = r.replies ++ [m] := by
  rw [replies, send, List.filterMap_append]
  rfl

@[simp] lemma commits_send (r : Replica A) (dst : Dest) (m : Commit) :
    (r.send dst (.commit m)).commits = r.commits ++ [m] := by
  rw [commits, send, List.filterMap_append]
  rfl

lemma replies_send_other (r : Replica A) (dst : Dest) {msg : Msg} (h : msg.reply? = none) :
    (r.send dst msg).replies = r.replies := by
  rw [replies, send, List.filterMap_append, replies]
  simp [h]

lemma commits_send_other (r : Replica A) (dst : Dest) {msg : Msg} (h : msg.commit? = none) :
    (r.send dst msg).commits = r.commits := by
  rw [commits, send, List.filterMap_append, commits]
  simp [h]

/-- A step that sends no reply and stays in its round, at the same end of the log; it does not
end a repair. -/
structure NoReply (r r' : Replica A) : Prop where
  replies : r'.replies = r.replies
  round : r'.round = r.round
  repair : r'.repair = false → r.repair = false
  nextSeq : r'.log.nextSeq = r.log.nextSeq
  digest : r'.log.getDigest = r.log.getDigest

/-- It sends no commit, either. -/
structure Silent (r r' : Replica A) : Prop extends NoReply r r' where
  commits : r'.commits = r.commits
  replicaId : r'.replicaId = r.replicaId

/-- A step that leaves what the replica has said, its collectors, and that a repair goes on. -/
structure KeepsWord (r r' : Replica A) : Prop where
  replies : r'.replies = r.replies
  commits : r'.commits = r.commits
  replicaId : r'.replicaId = r.replicaId
  repair : r'.repair = r.repair
  collectors : r'.checkpointCollectors = r.checkpointCollectors

lemma KeepsWord.trans (h : KeepsWord r r₁) (h' : KeepsWord r₁ r') : KeepsWord r r' :=
  ⟨h'.replies.trans h.replies, h'.commits.trans h.commits, h'.replicaId.trans h.replicaId,
    h'.repair.trans h.repair, h'.collectors.trans h.collectors⟩

lemma NoReply.trans (h : NoReply r r₁) (h' : NoReply r₁ r') : NoReply r r' :=
  ⟨h'.replies.trans h.replies, h'.round.trans h.round, fun hr => h.repair (h'.repair hr),
    h'.nextSeq.trans h.nextSeq, h'.digest.trans h.digest⟩

namespace Silent

lemma refl (r : Replica A) : Silent r r := ⟨⟨rfl, rfl, id, rfl, rfl⟩, rfl, rfl⟩

lemma trans (h : Silent r r₁) (h' : Silent r₁ r') : Silent r r' :=
  ⟨h.toNoReply.trans h'.toNoReply, h'.commits.trans h.commits, h'.replicaId.trans h.replicaId⟩

lemma send (r : Replica A) (dst : Dest) {msg : Msg} (h : msg.Plain) :
    Silent r (r.send dst msg) :=
  ⟨⟨replies_send_other r dst h.1, rfl, id, rfl, rfl⟩, commits_send_other r dst h.2, rfl⟩

lemma broadcast (r : Replica A) {msg : Msg} (h : msg.Plain) :
    Silent r (r.broadcastToReplicas msg) :=
  send r _ h

/-- A certificate is no part of the digest. -/
lemma addCert {log : Log A} {seq : ℕ} {cert : Cert} {ok : Bool}
    (h : r.log.addCert seq cert = .ok (log, ok)) : Silent r { r with log } := by
  rcases Log.addCert_cases h with rfl | rfl
  · exact ⟨⟨rfl, rfl, id, rfl, rfl⟩, rfl, rfl⟩
  · exact ⟨⟨rfl, rfl, id, rfl, rfl⟩, rfl, rfl⟩

end Silent

lemma Quiet.repair_eq (h : Quiet r r') : r'.repair = r.repair := by
  have hrepair := congrArg Replica.repair h.eq
  exact hrepair

/-! ### Certificates and checkpoints -/

lemma sendToReplica_silent {i : ℕ} {msg : Msg} (hmsg : msg.Plain)
    (h : r.sendToReplica cfg i msg = .ok r') : Silent r r' := by
  rw [(sendToReplica_eq h).2]
  exact .send r _ hmsg

lemma sendToClient_silent {c : UInt32} {msg : Msg} (hmsg : msg.Plain)
    (h : r.sendToClient cfg c msg = .ok r') : Silent r r' := by
  rw [sendToClient_eq h]
  exact .send r _ hmsg

lemma initCollector_silent {round seq : ℕ} {needsSnapshot ok : Bool}
    (h : r.initCollector round seq needsSnapshot = .ok (r', ok)) : Silent r r' := by
  rw [initCollector] at h
  split_ifs at h
  · cases h
    exact .refl r
  · obtain ⟨⟨cs, created⟩, -, h⟩ := bind_eq_ok.mp h
    cases h
    exact ⟨⟨rfl, rfl, id, rfl, rfl⟩, rfl, rfl⟩

lemma takeSnapshot_silent [Application A] (r : Replica A) (b : Bool) :
    Silent r (if b then r.takeSnapshot else r) := by
  cases b with
  | false => exact .refl r
  | true => exact ⟨⟨rfl, rfl, id, rfl, rfl⟩, rfl, rfl⟩

lemma processCert_silent {cert : Cert} (h : r.processCert cfg cert = .ok r') : Silent r r' := by
  rw [processCert] at h
  split at h
  · cases h
  split_ifs at h
  · cases h
    exact .refl r
  · cases h
    exact .refl r
  · obtain ⟨⟨log, ok⟩, hadd, h⟩ := bind_eq_ok.mp h
    cases ok with
    | false =>
        cases h
        exact .addCert hadd
    | true => exact (Silent.addCert hadd).trans (sendToClient_silent ⟨rfl, rfl⟩ h)

lemma cleanStaleCollectors_silent (h : r.cleanStaleCollectors = .ok r') : Silent r r' := by
  obtain ⟨cs, -, h⟩ := bind_eq_ok.mp h
  cases pure_eq_ok.mp h
  exact ⟨⟨rfl, rfl, id, rfl, rfl⟩, rfl, rfl⟩

lemma requestCheckpoint_silent {checkpoint : LogCheckpoint}
    (h : r.requestCheckpoint cfg now checkpoint = .ok r') : Silent r r' := by
  rw [requestCheckpoint] at h
  split at h
  · cases h
  split_ifs at h
  · cases h
    exact .refl r
  · obtain ⟨r₁, hsend, h⟩ := bind_eq_ok.mp h
    cases pure_eq_ok.mp h
    have hset : Silent r₁ { r₁ with checkpointSnapshotRequested := true } :=
      ⟨⟨rfl, rfl, id, rfl, rfl⟩, rfl, rfl⟩
    exact (sendToReplica_silent ⟨rfl, rfl⟩ hsend).trans hset
  · obtain ⟨r₁, hsend, h⟩ := bind_eq_ok.mp h
    cases pure_eq_ok.mp h
    cases hsend
    exact ⟨⟨rfl, rfl, id, rfl, rfl⟩, rfl, rfl⟩

lemma foldl_addMissingRequest_silent (reqs : List RequestData) (r : Replica A) :
    Silent r (reqs.foldl addMissingRequest r) := by
  induction reqs generalizing r with
  | nil => exact .refl r
  | cons req reqs ih =>
      refine Silent.trans ?_ (ih _)
      rw [addMissingRequest]
      split_ifs
      · exact ⟨⟨rfl, rfl, id, rfl, rfl⟩, rfl, rfl⟩
      · exact .refl r

lemma foldl_checkCollector_silent (cfg : Config) (now : ℕ)
    (cs : List ((ℕ × ℕ) × CheckpointCollector)) (r : Replica A) :
    Silent r (cs.foldl (fun r (key, coll) => r.checkCollector cfg now key coll) r) := by
  induction cs generalizing r with
  | nil => exact .refl r
  | cons c cs ih =>
      have hset : ∀ coll, Silent r (r.setCollector c.1.1 c.1.2 coll) :=
        fun coll => ⟨⟨rfl, rfl, id, rfl, rfl⟩, rfl, rfl⟩
      have hone : Silent r (r.checkCollector cfg now c.1 c.2) := by
        rw [checkCollector]
        dsimp only
        split_ifs
        · exact (hset _).trans (.broadcast _ ⟨rfl, rfl⟩)
        · exact hset _
      exact hone.trans (ih _)

lemma sendRepairSummaryToClients_silent (h : r.sendRepairSummaryToClients cfg = .ok r') :
    Silent r r' := by
  obtain ⟨entries, -, h⟩ := bind_eq_ok.mp h
  exact foldlM_rel (P := fun a b : Replica A => Silent a b) (fun a => .refl a)
    (fun a b c hab hbc => hab.trans hbc)
    (fun a c b _ hsend => sendToClient_silent ⟨rfl, rfl⟩ hsend) h

end

/-! ### Repairs and views -/

section

variable {A : Type} [Sha256] {r r₁ r₂ r' : Replica A} {cfg : Config} {now : ℕ}

lemma startRepair_silent (h : r.startRepair cfg = .ok r') : Silent r r' := by
  obtain ⟨-, m, -, -, -, -, rfl⟩ := startRepair_eq h
  have hset : Silent r { r with repair := true, repairStart := some m } :=
    ⟨⟨rfl, rfl, nofun, rfl, rfl⟩, rfl, rfl⟩
  exact hset.trans (.send _ _ ⟨rfl, rfl⟩)

lemma doPrePreparePhase_silent (cfg : Config) (r : Replica A) (round : ℕ) :
    Silent r (r.doPrePreparePhase cfg round) := by
  rw [doPrePreparePhase]
  dsimp only
  split_ifs
  · exact .refl r
  · exact .send r _ ⟨rfl, rfl⟩
  · refine Silent.trans ?_ (.broadcast _ ⟨rfl, rfl⟩)
    exact ⟨⟨rfl, rfl, id, rfl, rfl⟩, rfl, rfl⟩

omit [Sha256] in
lemma sendViewChange_silent (h : r.sendViewChange cfg = .ok r') : Silent r r' := by
  obtain ⟨m, -, rfl⟩ := sendViewChange_eq h
  have hset : Silent r { r with repairStart := some m } := ⟨⟨rfl, rfl, id, rfl, rfl⟩, rfl, rfl⟩
  exact hset.trans (.send _ _ ⟨rfl, rfl⟩)

lemma startViewChange_silent {v : ℕ} (h : r.startViewChange cfg v = .ok r') : Silent r r' := by
  obtain ⟨r₁, hsend, h⟩ := bind_eq_ok.mp h
  cases pure_eq_ok.mp h
  have hset : Silent r { r with
      pbftView := v, repair := true, viewPrepared := false, repairViewStart := 0 } :=
    ⟨⟨rfl, rfl, nofun, rfl, rfl⟩, rfl, rfl⟩
  have hr₁ := hset.trans (sendViewChange_silent hsend)
  refine Silent.trans ?_ (.broadcast _ ⟨rfl, rfl⟩)
  split_ifs
  · exact hr₁.trans (doPrePreparePhase_silent cfg r₁ r₁.round)
  · exact hr₁

lemma updateReplicaView_silent {id view round : ℕ}
    (h : r.updateReplicaView cfg now id view round = .ok r') : Silent r r' := by
  have hlearn : Silent r (r.learnView cfg now id view round) :=
    ⟨⟨rfl, rfl, fun hr => hr, rfl, rfl⟩, rfl, rfl⟩
  rcases updateReplicaView_cases h with rfl | ⟨-, rfl | ⟨-, -, hview⟩⟩
  · exact .refl _
  · exact hlearn
  · exact hlearn.trans (startViewChange_silent hview)

lemma processPrePrepare_silent {m : PBFTPrePrepare} (h : r.processPrePrepare cfg m = .ok r') :
    Silent r r' := by
  rcases processPrePrepare_cases h with rfl | ⟨-, -, -, s, suffix, -, -, rfl⟩
  · exact .refl _
  · refine Silent.trans ?_ (.broadcast _ ⟨rfl, rfl⟩)
    exact ⟨⟨rfl, rfl, id, rfl, rfl⟩, rfl, rfl⟩

lemma processPrepare_silent {m : PBFTPrepare} {sig : Bytes}
    (h : r.processPrepare cfg m sig = .ok r') : Silent r r' := by
  rcases processPrepare_cases h with rfl | ⟨-, rfl | ⟨proposal, -, -, -, -, hcommit⟩⟩
  · exact .refl _
  · exact ⟨⟨rfl, rfl, id, rfl, rfl⟩, rfl, rfl⟩
  · obtain ⟨_, suffix, -, -, rfl⟩ := doCommitPhase_eq hcommit
    refine Silent.trans ?_ (.broadcast _ ⟨rfl, rfl⟩)
    exact ⟨⟨rfl, rfl, id, rfl, rfl⟩, rfl, rfl⟩

lemma processRepairStart_silent (cfg : Config) (r : Replica A) (m : RepairStart) (sig : Bytes) :
    Silent r (r.processRepairStart cfg m sig) := by
  have hstore : Silent r (r.storeStart m sig) := ⟨⟨rfl, rfl, id, rfl, rfl⟩, rfl, rfl⟩
  rcases processRepairStart_cases cfg r m sig with ⟨-, heq⟩ | ⟨-, -, heq⟩ | ⟨-, -, heq⟩
  · rw [heq]
    exact .refl r
  · rw [heq]
    exact .refl r
  · rw [heq]
    split_ifs
    · exact hstore.trans (doPrePreparePhase_silent cfg _ _)
    · exact hstore

lemma processRepairTimeout_silent {m : RepairTimeout} {sig : Bytes}
    (h : r.processRepairTimeout cfg m sig = .ok r') : Silent r r' := by
  have hset : ∀ coll, Silent r (r.setCollector r.round m.seq coll) :=
    fun coll => ⟨⟨rfl, rfl, id, rfl, rfl⟩, rfl, rfl⟩
  rcases processRepairTimeout_cases h with rfl | ⟨coll, -, rfl | ⟨proof, hstart⟩⟩
  · exact .refl _
  · exact hset _
  · exact ((hset _).trans (.broadcast _ ⟨rfl, rfl⟩)).trans (startRepair_silent hstart)

lemma sendOwnCommit_noReply {coll : CheckpointCollector} (h : r.sendOwnCommit coll = .ok r') :
    NoReply r r' := by
  rw [sendOwnCommit] at h
  split_ifs at h
  · obtain ⟨commit, -, h⟩ := bind_eq_ok.mp h
    cases h
    exact ⟨replies_send_other r _ rfl, rfl, id, rfl, rfl⟩
  · cases h
    exact ⟨rfl, rfl, id, rfl, rfl⟩

lemma useCert_noReply {coll : CheckpointCollector} {reply : Reply}
    (h : r.useCert cfg coll reply = .ok r') : NoReply r r' := by
  rw [useCert] at h
  split_ifs at h
  · split at h
    · cases h
    · obtain ⟨⟨log, ok⟩, hadd, h⟩ := bind_eq_ok.mp h
      cases ok with
      | false =>
          cases h
          exact (Silent.addCert hadd).toNoReply
      | true => exact (Silent.addCert hadd).toNoReply.trans (sendOwnCommit_noReply h)
  · exact sendOwnCommit_noReply h

lemma useConflictProof_silent {coll : CheckpointCollector}
    (h : r.useConflictProof cfg coll = .ok r') : Silent r r' := by
  rcases useConflictProof_cases h with ⟨-, rfl⟩ | ⟨proof, -, h⟩
  · exact .refl _
  · exact (Silent.broadcast r ⟨rfl, rfl⟩).trans (startRepair_silent h)

lemma processSnapshot_noReply {snapshot : AppSnapshot} {round : ℕ}
    (h : r.processSnapshot snapshot round = .ok r') : NoReply r r' := by
  rw [processSnapshot] at h
  split at h
  · cases h
    exact (Silent.refl r).toNoReply
  · refine NoReply.trans ?_ (sendOwnCommit_noReply h)
    exact ⟨rfl, rfl, id, rfl, rfl⟩

lemma announced_silent [Application A] [PaddedRequestData] {e : ReplicaEvent} {i v round : ℕ}
    (he : e.announcement = some (i, v, round)) (h : r.handle cfg e = .ok r') : Silent r r' := by
  obtain ⟨now, msg, sig, r₁, -, hview, hfollow⟩ := handle_announced he h
  refine (updateReplicaView_silent hview).trans ?_
  cases hfollow with
  | waits => exact ⟨⟨rfl, rfl, id, rfl, rfl⟩, rfl, rfl⟩
  | replyProof hstart => exact (Silent.broadcast r₁ ⟨rfl, rfl⟩).trans (startRepair_silent hstart)
  | timeoutProof hstart => exact (Silent.broadcast r₁ ⟨rfl, rfl⟩).trans (startRepair_silent hstart)

end

/-! ### One history in a round -/

end Replica

/-- The digest of a reply is that of an entry with its request. -/
def Reply.Named [Sha256] (m : Reply) : Prop :=
  ∃ d request, m.digest = entryDigest m.seq d ⟨m.clientId, m.clientSeq, request⟩

/-- Replies with one digest are for one request. -/
lemma Reply.Named.id_eq [Sha256] (hc : CollisionFree) {m m' : Reply} (h : m.Named) (h' : m'.Named)
    (hd : m.digest = m'.digest) : m.clientId = m'.clientId ∧ m.clientSeq = m'.clientSeq := by
  obtain ⟨d, request, hm⟩ := h
  obtain ⟨d', request', hm'⟩ := h'
  have hin := hc.injective (hm.symm.trans (hd.trans hm'))
  simp only [List.append_assoc] at hin
  obtain ⟨-, hin⟩ := List.append_inj hin rfl
  obtain ⟨hid, hin⟩ := List.append_inj hin rfl
  obtain ⟨hseq, -⟩ := List.append_inj hin rfl
  exact ⟨le32_injective hid, le32_injective hseq⟩

namespace Log

variable {A : Type} [Sha256] {l l' : Log A}

/-- The digest of a longer log. -/
lemma Extends.digest_eq (hl : l.Linked) {rs : List Request} (h : Extends l l' rs) :
    HashChain.chainFrom entryDigest l.nextSeq l.getDigest rs = l'.getDigest := by
  rw [getDigest_eq, getDigest_eq, h.linked.segment.lastDigest_eq, hl.segment.lastDigest_eq,
    h.stable_eq, h.requests_eq, HashChain.chainFrom_append, List.length_map, hl.nextSeq_eq,
    Nat.add_right_comm]

/-- A longer log continues the one it extends. -/
lemma Extends.continues (hl : l.Linked) {rs : List Request} (h : Extends l l' rs) :
    Continues entryDigest (l.nextSeq - 1) l.getDigest (l'.nextSeq - 1) l'.getDigest := by
  have hnext := h.nextSeq_eq hl
  have hpos := hl.nextSeq_eq
  refine ⟨rs, by omega, ?_⟩
  rw [show l.nextSeq - 1 + 1 = l.nextSeq by omega]
  exact h.digest_eq hl

/-- The last entry of a log has its digest. -/
lemma Linked.getEntry_last (hl : l.Linked) {e : LogEntry}
    (h : l.getEntry (l.nextSeq - 1) = .ok e) :
    e.seq + 1 = l.nextSeq ∧ e.digest = l.getDigest ∧
      ∃ d, e.digest = entryDigest e.seq d e.toRequest := by
  have hnext := hl.nextSeq_eq
  rcases hl.getEntry (l.nextSeq - 1) with ⟨e', he', hseq, hget⟩ | ⟨-, herr⟩
  · rw [h] at hget
    cases hget
    have hlt := (List.getElem?_eq_some_iff.mp he').1
    have hlast := lastDigest_take_succ (d := l.stableCheckpoint.logDigest) he'
    rw [List.take_of_length_le (by omega)] at hlast
    refine ⟨by omega, ?_, _, hl.segment.digest_getElem? he'⟩
    rw [getDigest_eq, hlast]
  · rw [h] at herr
    cases herr

omit [Sha256] in
lemma lastDigest_take_drop (d : Bytes) (es : List LogEntry) (k : ℕ) :
    lastDigest (lastDigest d (es.take k)) (es.drop k) = lastDigest d es := by
  induction es generalizing d k with
  | nil => rw [List.take_nil, List.drop_nil, lastDigest_nil]
  | cons e es ih =>
      cases k with
      | zero => rw [List.take_zero, List.drop_zero, lastDigest_nil]
      | succ k =>
          rw [List.take_succ_cons, List.drop_succ_cons, lastDigest_cons, lastDigest_cons, ih]

/-- A checkpoint with the digest of its position leaves the end of the log as it is. -/
lemma WellFormed.setCheckpoint_digest [Application A] (hl : l.WellFormed) {cp : LogCheckpoint}
    (hp : cp.seq < l.nextSeq) (hd : l.getDigestAt cp.seq = .ok cp.logDigest)
    (h : l.setCheckpoint cp = .ok l') : l'.nextSeq = l.nextSeq ∧ l'.getDigest = l.getDigest := by
  obtain ⟨committed, stable, log, app, rfl, -, ⟨rfl, rfl⟩ | ⟨-, hlt, hstable, hlog⟩⟩ :=
    setCheckpoint_cases hl hp h
  · exact ⟨rfl, rfl⟩
  · have hcut : lastDigest l.stableCheckpoint.logDigest
        (l.log.take (cp.seq - l.stableCheckpoint.seq)) = cp.logDigest := by
      rcases hl.getDigestAt cp.seq with ⟨-, -, hd'⟩ | ⟨-, herr⟩
      · exact Except.ok.inj (hd'.symm.trans hd)
      · rw [hd] at herr
        cases herr
    refine ⟨rfl, ?_⟩
    rw [getDigest_eq, getDigest_eq]
    dsimp only
    rw [hstable, hlog, ← hcut, lastDigest_take_drop]

/-! ### Entries that are not counted -/

/-- The log holds an entry at a position that is not counted. -/
def Overfull (l : Log A) : Prop := l.nextSeq < l.stableCheckpoint.seq + l.log.length + 1

lemma Linked.not_overfull (hl : l.Linked) : ¬l.Overfull := hl.nextSeq_eq.not_lt

omit [Sha256] in
lemma Overfull.setDeadline (hl : l.Overfull) {seq deadline : ℕ}
    (h : l.setDeadline seq deadline = .ok l') : l'.Overfull := by
  obtain ⟨i, rfl⟩ := setDeadline_eq h
  rw [Overfull, List.length_modify]
  exact hl

/-- An entry that is not counted stays in the log. -/
lemma Overfull.addEntry [Application A] [PaddedRequestData] (hl : l.Overfull) {c s : UInt32}
    {req : Bytes} {res : Option Bytes} (h : l.addEntry c s req = .ok (l', res)) : l'.Overfull := by
  simp only [Log.addEntry, if_true] at h
  split_ifs at h
  · obtain ⟨d, -, h⟩ := bind_eq_ok.mp h
    dsimp only at h
    split at h
    · cases pure_eq_ok.mp h
      rw [Overfull, List.length_append]
      exact Nat.lt_add_right _ hl
    · obtain ⟨⟨app, res⟩, -, h⟩ := bind_eq_ok.mp h
      cases pure_eq_ok.mp h
      rw [Overfull, List.length_append]
      exact Nat.succ_lt_succ hl
  · cases Except.ok.inj h
    exact hl

/-- A request extends the log by its entry, or is a duplicate; else its entry is not counted. -/
lemma Linked.addEntry_linked [Application A] [PaddedRequestData] (hl : l.Linked) {c s : UInt32}
    {req : Bytes} {res : Option Bytes} (h : l.addEntry c s req = .ok (l', res)) :
    res = none ∧ (l'.Overfull ∨ l'.Linked ∧ l'.nextSeq = l.nextSeq ∧ l'.getDigest = l.getDigest) ∨
      res.isSome ∧ Extends l l' [⟨c, s, req⟩] := by
  rcases addEntry_cases hl h with ⟨-, hres, rfl⟩ | ⟨-, -, hres, rfl⟩ | ⟨-, -, hres, hext, -⟩
  · exact .inl ⟨hres, .inr ⟨hl.setClientRecord _, rfl, rfl⟩⟩
  · refine .inl ⟨hres, .inl ?_⟩
    have hnext := hl.nextSeq_eq
    rw [Overfull, List.length_append]
    show l.nextSeq < l.stableCheckpoint.seq + (l.log.length + 1) + 1
    omega
  · exact .inr ⟨hres, hext⟩

/-- A deadline is no part of the digest. -/
lemma WellFormed.setDeadline_digest (hl : l.WellFormed) {seq deadline : ℕ}
    (h : l.setDeadline seq deadline = .ok l') :
    l'.nextSeq = l.nextSeq ∧ l'.getDigest = l.getDigest := by
  have hrequests := setDeadline_requests h
  have hsegment := (hl.setDeadline h).segment
  obtain ⟨i, rfl⟩ := setDeadline_eq h
  refine ⟨rfl, ?_⟩
  rw [getDigest_eq, getDigest_eq, hsegment.lastDigest_eq, hl.segment.lastDigest_eq, hrequests]

end Log

namespace Replica

variable {A : Type} [Sha256] {r r₁ r₂ r' : Replica A} {cfg : Config} {now : ℕ}

/-- The replies of a round name positions of one history, each with the digest of its entry, and
outside repairs the log continues those of the round it is in. -/
structure Spoken (r : Replica A) : Prop where
  past : ∀ m ∈ r.replies, m.round ≤ r.round
  named : ∀ m ∈ r.replies, m.Named
  chained : ∀ m ∈ r.replies, ∀ m' ∈ r.replies, m.round = m'.round → m.seq ≤ m'.seq →
    Continues entryDigest m.seq m.digest m'.seq m'.digest
  leads : r.repair = false → ∀ m ∈ r.replies, m.round = r.round →
    Continues entryDigest m.seq m.digest (r.log.nextSeq - 1) r.log.getDigest

namespace Spoken

lemma fresh (i : ℕ) (app : A) : (Replica.fresh i app).Spoken where
  past := nofun
  named := nofun
  chained := nofun
  leads _ := nofun

/-- A longer log continues what the shorter one does. -/
lemma extend (hs : r.Spoken) (hreplies : r'.replies = r.replies) (hround : r'.round = r.round)
    (hrepair : r'.repair = false → r.repair = false)
    (hlog : Continues entryDigest (r.log.nextSeq - 1) r.log.getDigest
      (r'.log.nextSeq - 1) r'.log.getDigest) : r'.Spoken where
  past m hm := by
    rw [hround]
    exact hs.past m (hreplies ▸ hm)
  named m hm := hs.named m (hreplies ▸ hm)
  chained m hm m' hm' := hs.chained m (hreplies ▸ hm) m' (hreplies ▸ hm')
  leads hr m hm hmr :=
    (hs.leads (hrepair hr) m (hreplies ▸ hm) (hmr.trans hround)).trans hlog

lemma noReply (hs : r.Spoken) (h : NoReply r r') : r'.Spoken := by
  refine hs.extend h.replies h.round h.repair ?_
  rw [h.nextSeq, h.digest]
  exact .refl _ _ _

lemma silent (hs : r.Spoken) (h : Silent r r') : r'.Spoken := hs.noReply h.toNoReply

/-- In a repair, or in a later round, the log need not continue what has been said. -/
lemma turn (hs : r.Spoken) (hreplies : r'.replies = r.replies) (hround : r.round ≤ r'.round)
    (hfree : r'.repair = true ∨ r.round < r'.round) : r'.Spoken where
  past m hm := (hs.past m (hreplies ▸ hm)).trans hround
  named m hm := hs.named m (hreplies ▸ hm)
  chained m hm m' hm' := hs.chained m (hreplies ▸ hm) m' (hreplies ▸ hm')
  leads hr m hm hmr := by
    have hpast := hs.past m (hreplies ▸ hm)
    rcases hfree with hrep | hlt
    · rw [hr] at hrep
      cases hrep
    · omega

/-- **A reply for the end of the log.** -/
lemma say (hs : r.Spoken) (hrepair : r.repair = false) {m : Reply} (hround : m.round = r.round)
    (hseq : m.seq + 1 = r.log.nextSeq) (hd : m.digest = r.log.getDigest) (hn : m.Named)
    (dst : Dest) : (r.send dst (.reply m)).Spoken := by
  have hend : m.seq = r.log.nextSeq - 1 := by omega
  have hsame : Continues entryDigest m.seq m.digest (r.log.nextSeq - 1) r.log.getDigest := by
    rw [hend, hd]
    exact .refl _ _ _
  have hback : ∀ m' ∈ r.replies, m'.round = r.round →
      Continues entryDigest m'.seq m'.digest m.seq m.digest := by
    intro m' hm' hr
    rw [hend, hd]
    exact hs.leads hrepair m' hm' hr
  refine ⟨?_, ?_, ?_, ?_⟩
  · intro m' hm'
    rw [replies_send, List.mem_append, List.mem_singleton] at hm'
    rcases hm' with hm' | rfl
    · exact hs.past m' hm'
    · exact hround.le
  · intro m' hm'
    rw [replies_send, List.mem_append, List.mem_singleton] at hm'
    rcases hm' with hm' | rfl
    · exact hs.named m' hm'
    · exact hn
  · intro m₁ h₁ m₂ h₂ hr hle
    rw [replies_send, List.mem_append, List.mem_singleton] at h₁ h₂
    rcases h₁ with h₁ | rfl
    · rcases h₂ with h₂ | rfl
      · exact hs.chained m₁ h₁ m₂ h₂ hr hle
      · exact hback m₁ h₁ (hr.trans hround)
    · rcases h₂ with h₂ | rfl
      · -- an earlier reply for the end of the log has its digest
        have hcont := hback m₂ h₂ (hr.symm.trans hround)
        have heq := hcont.digest_eq hle
        rw [le_antisymm hle hcont.le, heq]
        exact .refl _ _ _
      · exact .refl _ _ _
  · intro hr m' hm' hmr
    rw [replies_send, List.mem_append, List.mem_singleton] at hm'
    rcases hm' with hm' | rfl
    · exact hs.leads hr m' hm' hmr
    · exact hsame

end Spoken

/-! ### The replies of the handlers -/

section

variable [Application A]

lemma startCheckpoint_spoken {b : Bool} (hs : r.Spoken) (hrepair : r.repair = false)
    (hl : r.log.Linked) (h : r.startCheckpoint b = .ok r') : r'.Spoken := by
  have hsnap := takeSnapshot_silent r b
  have hrepair₀ : (if b = true then r.takeSnapshot else r).repair = false := by
    split_ifs <;> exact hrepair
  have hlog₀ : (if b = true then r.takeSnapshot else r).log = r.log := by split_ifs <;> rfl
  rw [startCheckpoint] at h
  obtain ⟨⟨r₁, ok⟩, hinit, h⟩ := bind_eq_ok.mp h
  have hr₁ := hs.silent (hsnap.trans (initCollector_silent hinit))
  obtain ⟨hq, hlog⟩ := initCollector_quiet hinit
  rw [hlog₀] at hlog
  have hrepair₁ : r₁.repair = false := hq.repair_eq.trans hrepair₀
  cases ok with
  | false =>
      cases h
      exact hr₁
  | true =>
      obtain ⟨coll, -, h⟩ := bind_eq_ok.mp h
      obtain ⟨digest, -, h⟩ := bind_eq_ok.mp h
      obtain ⟨entry, hentry, h⟩ := bind_eq_ok.mp h
      cases h
      have hget : r₁.log.getEntry (r.log.nextSeq - 1) = .ok entry := hentry
      rw [← hlog] at hget hl
      obtain ⟨hseq, hdigest, d, hname⟩ := hl.getEntry_last hget
      have hset : ∀ coll, Silent r₁ (r₁.setCollector r₁.round (r.log.nextSeq - 1) coll) :=
        fun coll => ⟨⟨rfl, rfl, id, rfl, rfl⟩, rfl, rfl⟩
      exact (hr₁.silent (hset _)).say hrepair₁ rfl hseq hdigest ⟨d, entry.request, hname⟩ _

lemma checkpointAt_spoken {seq : ℕ} (hs : r.Spoken) (hrepair : r.repair = false)
    (hl : r.log.Linked) (h : r.checkpointAt cfg now seq = .ok r') : r'.Spoken := by
  have htimer : ∀ r₁ : Replica A, Silent r₁ (r₁.restartTimer now) :=
    fun r₁ => ⟨⟨rfl, rfl, id, rfl, rfl⟩, rfl, rfl⟩
  have hstart : ∃ r₁ : Replica A, r₁.Spoken ∧
      r' = if seq = 1 then r₁.restartTimer now else r₁ := by
    by_cases hseq : seq % cfg.replicaCheckpointInterval = 0
    · rw [checkpointAt, if_pos hseq] at h
      obtain ⟨r₁, h₁, h⟩ := bind_eq_ok.mp h
      obtain ⟨r₂, h₂, rfl⟩ := map_eq_ok.mp h₁
      have hr₂ := startCheckpoint_spoken hs hrepair hl h₂
      exact ⟨_, hr₂.silent (htimer r₂), (Except.ok.inj h).symm⟩
    · rw [checkpointAt, if_neg hseq] at h
      exact ⟨r, hs, (Except.ok.inj h).symm⟩
  obtain ⟨r₁, hr₁, rfl⟩ := hstart
  split_ifs
  · exact hr₁.silent (htimer r₁)
  · exact hr₁

/-- The log stays well formed, or the request leaves an entry that is not counted. -/
lemma processClientRequest_wellFormed [PaddedRequestData] {m : ClientRequestProto} {queued : Bool}
    (hl : r.log.WellFormed) (h : r.processClientRequest cfg now m queued = .ok r') :
    r'.log.Overfull ∨ r'.log.WellFormed := by
  obtain ⟨-, ⟨-, hlog⟩ | ⟨-, -, log, res, hadd, ⟨rfl, hlog⟩ | ⟨hres, hset⟩⟩⟩ :=
    processClientRequest_cases h
  · rw [hlog]
    exact .inr hl
  · rw [hlog]
    rcases hl.addEntry_linked hadd with ⟨-, hfull | ⟨hlinked, hnext, -⟩⟩ | ⟨hres, -⟩
    · exact .inl hfull
    · obtain ⟨hstable, hcommitted⟩ := Log.addEntry_checkpoints hadd
      refine .inr ⟨hlinked, ?_, ?_⟩
      · rw [hstable, hcommitted]
        exact hl.stable_le
      · rw [hcommitted, hnext]
        exact hl.committed_lt
    · cases hres
  · rcases hl.addEntry_linked hadd with ⟨rfl, -⟩ | ⟨-, hext⟩
    · cases hres
    · exact .inr ((hext.wellFormed hl).setDeadline hset)

/-- **A request is answered for the end of the log that it extends**, unless its entry is not
counted. -/
lemma processClientRequest_spoken [PaddedRequestData] {m : ClientRequestProto} {queued : Bool}
    (hs : r.Spoken) (hrepair : r.repair = false) (hl : r.log.WellFormed)
    (h : r.processClientRequest cfg now m queued = .ok r') : r'.log.Overfull ∨ r'.Spoken := by
  rw [processClientRequest] at h
  split_ifs at h
  · cases h
    exact .inr hs
  · exact .inr (hs.silent (sendToClient_silent ⟨rfl, rfl⟩ h))
  obtain ⟨⟨log, res⟩, hadd, h⟩ := bind_eq_ok.mp h
  rcases hl.addEntry_linked hadd with ⟨rfl, hfull | ⟨-, hnext, hdigest⟩⟩ | ⟨hres, hext⟩
  · cases h
    exact .inl hfull
  · cases h
    exact .inr (hs.silent ⟨⟨rfl, rfl, id, hnext, hdigest⟩, rfl, rfl⟩)
  obtain ⟨result, rfl⟩ := Option.isSome_iff_exists.mp hres
  obtain ⟨log', hset, h⟩ := bind_eq_ok.mp h
  obtain ⟨r₁, hsend, h⟩ := bind_eq_ok.mp h
  have hwell := hext.wellFormed hl
  have hwell' := hwell.setDeadline hset
  obtain ⟨hnext, hdigest⟩ := hwell.setDeadline_digest hset
  have hlonger : { r with log := log' }.Spoken := by
    refine hs.extend rfl rfl id ?_
    show Continues entryDigest (r.log.nextSeq - 1) r.log.getDigest (log'.nextSeq - 1) log'.getDigest
    rw [hnext, hdigest]
    exact hext.continues hl.toLinked
  -- the last entry is that of the request
  have hend : log.nextSeq - 1 = r.log.nextSeq := by
    rw [hext.nextSeq_eq hl.toLinked]
    rfl
  have hname : log'.getDigest = entryDigest (log.nextSeq - 1) r.log.getDigest
      ⟨m.clientId, m.clientSeq, m.reqData⟩ := by
    rw [hdigest, hend]
    exact (hext.digest_eq hl.toLinked).symm
  have hpos := hwell.nextSeq_eq
  rw [sendToClient_eq hsend] at h
  have hsaid := hlonger.say hrepair (m := {
      clientId := m.clientId
      clientSeq := m.clientSeq
      replicaId := r.replicaId
      result
      seq := log.nextSeq - 1
      round := r.round
      digest := log'.getDigest
      queued }) rfl (by
        show log.nextSeq - 1 + 1 = log'.nextSeq
        omega) rfl ⟨r.log.getDigest, m.reqData, hname⟩ (.client m.clientId)
  exact .inr (checkpointAt_spoken hsaid hrepair hwell'.toLinked h)

lemma checkpointTimedOut_spoken {reply : Reply} (hs : r.Spoken) (hrepair : r.repair = false)
    (hl : r.log.Linked) (h : r.checkpointTimedOut cfg reply = .ok r') : r'.Spoken := by
  rw [checkpointTimedOut] at h
  dsimp only at h
  split_ifs at h
  · have hset : ∀ seqs, Silent r { r with checkpointTimeoutSeqs := seqs } :=
      fun seqs => ⟨⟨rfl, rfl, id, rfl, rfl⟩, rfl, rfl⟩
    have hseqs := hset (r.checkpointTimeoutSeqs.insert reply.replicaId (r.round, reply.seq))
    exact startCheckpoint_spoken (hs.silent hseqs) hrepair hl h
  · cases h
    exact hs

lemma processReply_spoken {reply : Reply} {sig : Bytes} (hs : r.Spoken) (hl : r.log.Linked)
    (h : r.processReply cfg now reply sig = .ok r') : r'.Spoken := by
  rw [processReply] at h
  split_ifs at h with hrepair
  · cases h
    exact hs
  · cases h
    exact hs
  obtain ⟨r₁, htimeout, h⟩ := bind_eq_ok.mp h
  have hs₁ := checkpointTimedOut_spoken hs (by simpa using hrepair) hl htimeout
  split_ifs at h
  · cases h
    exact hs₁
  obtain ⟨⟨r₂, ok⟩, hinit, h⟩ := bind_eq_ok.mp h
  have hs₂ := hs₁.silent (initCollector_silent hinit)
  cases ok with
  | false =>
      cases h
      exact hs₂
  | true =>
      obtain ⟨coll, -, h⟩ := bind_eq_ok.mp h
      have hset : ∀ coll, Silent r₂ (r₂.setCollector r₂.round reply.seq coll) :=
        fun coll => ⟨⟨rfl, rfl, id, rfl, rfl⟩, rfl, rfl⟩
      dsimp only at h
      split_ifs at h
      · cases h
        exact hs₂
      · exact (hs₂.silent (hset _)).noReply (useCert_noReply h)
      · exact (hs₂.silent (hset _)).silent (useConflictProof_silent h)

/-- In a repair, no checkpoint is started for the end of the log. -/
lemma checkTimeouts_spoken (hs : r.Spoken) (hl : r.log.Linked)
    (hwaits : r.repair = true → ¬r.CheckpointDue cfg now)
    (h : r.checkTimeouts cfg now = .ok r') : r'.Spoken := by
  obtain ⟨r₁, hcheck, -, -, hend⟩ := checkTimeouts_cases h
  obtain ⟨collectors, sent, heq⟩ :=
    foldl_checkCollector_eq cfg now r.checkpointCollectors.collectors.toList r
  have hfold := foldl_checkCollector_silent cfg now r.checkpointCollectors.collectors.toList r
  rw [heq] at hcheck hfold
  have hs₁ : r₁.Spoken := by
    rw [checkCheckpointTimeout] at hcheck
    split_ifs at hcheck with hdue
    · obtain ⟨r₂, hstart, hcheck⟩ := bind_eq_ok.mp hcheck
      cases pure_eq_ok.mp hcheck
      have hrepair : r.repair = false := by
        by_contra hrep
        exact hwaits (by simpa using hrep) ⟨hdue.1, hdue.2.1⟩
      have htimer : Silent r₂ { r₂ with checkpointTimeoutStart := 0 } :=
        ⟨⟨rfl, rfl, id, rfl, rfl⟩, rfl, rfl⟩
      exact (startCheckpoint_spoken (hs.silent hfold) hrepair hl hstart).silent htimer
    · cases hcheck
      exact hs.silent hfold
  rcases hend with rfl | ⟨-, hview⟩
  · exact hs₁
  · have htimer : Silent r₁ { r₁ with
        repairViewStart := now
        numConsecutiveViewChanges := r₁.numConsecutiveViewChanges + 1 } :=
      ⟨⟨rfl, rfl, id, rfl, rfl⟩, rfl, rfl⟩
    exact hs₁.silent (htimer.trans (startViewChange_silent hview))

/-! ### Checkpoints that are committed -/

lemma commitCheckpoint_silent {cp : LogCheckpoint} (hl : r.log.WellFormed)
    (hp : cp.seq < r.log.nextSeq) (hd : r.log.getDigestAt cp.seq = .ok cp.logDigest)
    (h : r.commitCheckpoint cp = .ok r') : Silent r r' := by
  obtain ⟨log, hset, h⟩ := bind_eq_ok.mp h
  obtain ⟨hnext, hdigest⟩ := hl.setCheckpoint_digest hp hd hset
  have hlog : Silent r { r with log } := ⟨⟨rfl, rfl, id, hnext, hdigest⟩, rfl, rfl⟩
  exact hlog.trans (cleanStaleCollectors_silent h)

lemma useCheckpoint_silent {coll : CheckpointCollector} (hl : r.log.WellFormed)
    (h : r.useCheckpoint cfg now coll = .ok r') : Silent r r' := by
  obtain ⟨checkpoint, -, h⟩ := bind_eq_ok.mp h
  by_cases hnext : r.log.nextSeq ≤ checkpoint.seq
  · rw [if_pos hnext] at h
    exact requestCheckpoint_silent h
  rw [if_neg hnext] at h
  obtain ⟨digest, hdigest, h⟩ := bind_eq_ok.mp h
  split_ifs at h with hne
  · exact requestCheckpoint_silent h
  · rw [not_not.mp hne] at hdigest
    exact commitCheckpoint_silent hl (not_le.mp hnext) hdigest h
  · cases pure_eq_ok.mp h
    exact .refl _

lemma processCommit_silent {commit : Commit} {sig : Bytes} (hl : r.log.WellFormed)
    (h : r.processCommit cfg now commit sig = .ok r') : Silent r r' := by
  obtain ⟨⟨r₁, ok⟩, hinit, h⟩ := bind_eq_ok.mp h
  have hr₁ := initCollector_silent hinit
  have hlog := (initCollector_quiet hinit).2
  cases ok with
  | false =>
      cases pure_eq_ok.mp h
      exact hr₁
  | true =>
      obtain ⟨coll, -, h⟩ := bind_eq_ok.mp h
      have hset : ∀ coll, Silent r₁ (r₁.setCollector commit.round commit.seq coll) :=
        fun coll => ⟨⟨rfl, rfl, id, rfl, rfl⟩, rfl, rfl⟩
      rw [← hlog] at hl
      dsimp only at h
      split_ifs at h
      · exact (hr₁.trans (hset _)).trans (useCheckpoint_silent hl h)
      · cases pure_eq_ok.mp h
        exact hr₁.trans (hset _)

/-! ### The end of a repair -/

omit [Sha256] [Application A] in
lemma sendMissingRequestFetch_keepsWord (r : Replica A) (ids : List RequestId) :
    KeepsWord r (r.sendMissingRequestFetch ids) := by
  rw [sendMissingRequestFetch]
  split_ifs
  · exact ⟨rfl, rfl, rfl, rfl, rfl⟩
  · exact ⟨replies_send_other _ _ rfl, commits_send_other _ _ rfl, rfl, rfl, rfl⟩

lemma commitWithSnapshot_noReply {seq : ℕ} (h : r.commitWithSnapshot seq = .ok r') :
    NoReply r r' := by
  obtain ⟨digest, -, h⟩ := bind_eq_ok.mp h
  obtain ⟨⟨r₁, ok⟩, hinit, h⟩ := bind_eq_ok.mp h
  cases pure_eq_ok.mp h
  have hsnap := takeSnapshot_silent r₁ true
  refine (initCollector_silent hinit).toNoReply.trans (hsnap.toNoReply.trans ?_)
  exact ⟨replies_send_other _ _ rfl, rfl, id, rfl, rfl⟩

variable [PaddedRequestData]

lemma applyProposal_keepsWord {suffix : LogSuffix} {available : RequestMap Bytes}
    {aborted : List ClientRequestProto} {res : Option (List ClientRequestProto)}
    (h : r.applyProposal suffix available aborted = .ok (r', res)) : KeepsWord r r' := by
  obtain ⟨log, missing, -, ⟨-, rfl, -⟩ | ⟨ids, -, rfl, -⟩⟩ := applyProposal_cases h
  · exact ⟨rfl, rfl, rfl, rfl, rfl⟩
  · have hfetch := sendMissingRequestFetch_keepsWord { r with log } ids
    exact ⟨hfetch.replies, hfetch.commits, hfetch.replicaId, hfetch.repair, hfetch.collectors⟩

omit [Sha256] [Application A] [PaddedRequestData] in
/-- The request for a snapshot. -/
lemma requestSnapshot_keepsWord {b : Bool} {i seq : ℕ} {res : Option (List ClientRequestProto)}
    (h : (if b = true then do
        let r₁ ← (.ok r : Except Fault (Replica A))
        return ({ r₁ with repairSnapshotRequested := true }, none)
      else do
        let r₁ ← r.sendSnapshotRequest cfg i seq
        return ({ r₁ with repairSnapshotRequested := true }, none)) = .ok (r', res)) :
    KeepsWord r r' := by
  split_ifs at h
  · cases pure_eq_ok.mp h
    exact ⟨rfl, rfl, rfl, rfl, rfl⟩
  · obtain ⟨r₁, hsend, h⟩ := bind_eq_ok.mp h
    cases pure_eq_ok.mp h
    rw [(sendToReplica_eq hsend).2]
    exact ⟨replies_send_other r _ rfl, commits_send_other r _ rfl, rfl, rfl, rfl⟩

/-- Nothing is said before a repair is finished. -/
lemma tryApply_keepsWord {res : Option (List ClientRequestProto)}
    (h : r.tryApply cfg = .ok (r', res)) : KeepsWord r r' := by
  obtain ⟨⟨r₁, suffix⟩, hsuffix, h⟩ := bind_eq_ok.mp h
  obtain ⟨rfl, -⟩ := getRepairLogSuffix_cases hsuffix
  dsimp only at h
  split at h
  · cases h
  rename_i proposal _
  by_cases hround : proposal.round = (r.round + 2 ^ 32 - 1) % 2 ^ 32
  · rw [if_pos hround] at h
    obtain ⟨aborted, -, h⟩ := bind_eq_ok.mp h
    cases pure_eq_ok.mp h
    exact ⟨rfl, rfl, rfl, rfl, rfl⟩
  rw [if_neg hround] at h
  have hset : KeepsWord r { r with
      repairProposalLogSuffix := some suffix, round := proposal.round, repairViewStart := 0 } :=
    ⟨rfl, rfl, rfl, rfl, rfl⟩
  by_cases hbehind : r.log.committedCheckpoint.seq < suffix.checkpoint.seq
  · rw [if_pos hbehind] at h
    by_cases hin : suffix.checkpoint.seq < r.log.nextSeq
    · rw [if_pos hin] at h
      obtain ⟨consistent, -, h⟩ := bind_eq_ok.mp h
      cases consistent with
      | false => exact hset.trans (requestSnapshot_keepsWord h)
      | true =>
          rw [if_pos rfl] at h
          obtain ⟨aborted, -, h⟩ := bind_eq_ok.mp h
          exact hset.trans (applyProposal_keepsWord h)
    · rw [if_neg hin] at h
      exact hset.trans (requestSnapshot_keepsWord h)
  · rw [if_neg hbehind] at h
    obtain ⟨aborted, -, h⟩ := bind_eq_ok.mp h
    exact hset.trans (applyProposal_keepsWord h)

lemma applySnapshot_replies {reply : SnapshotReply} {res : Option (List ClientRequestProto)}
    (h : r.applySnapshot cfg reply = .ok (r', res)) : r'.replies = r.replies := by
  rcases applySnapshot_cases h with ⟨-, rfl⟩ | ⟨-, -, suffix, -, ⟨-, -, rfl⟩ |
      ⟨-, aborted, available, log, r₁, -, -, hclean, happly⟩⟩
  · rfl
  · rfl
  · rw [(applyProposal_keepsWord happly).replies, (cleanStaleCollectors_silent hclean).replies]
    rfl

omit [Sha256] [Application A] [PaddedRequestData] in
/-- Nothing has been said before the attempt, either. -/
lemma CallsTryFinish.silent {e : ReplicaEvent} (h : r.CallsTryFinish cfg e r₁) :
    Silent r r₁ := by
  cases h with
  | committed => exact ⟨⟨rfl, rfl, id, rfl, rfl⟩, rfl, rfl⟩
  | @fetched now reply sig =>
      have hfold := foldl_addMissingRequest_silent reply.requests r
      exact ⟨⟨hfold.replies, hfold.round, hfold.repair, hfold.nextSeq, hfold.digest⟩,
        hfold.commits, hfold.replicaId⟩
  | queued => exact ⟨⟨rfl, rfl, id, rfl, rfl⟩, rfl, rfl⟩

omit [PaddedRequestData] in
lemma commitRepair_silent {seq : ℕ} (hl : r.log.WellFormed) (h : r.commitRepair seq = .ok r') :
    Silent r r' ∧ r'.log.WellFormed := by
  obtain ⟨digest, hdigest, h⟩ := bind_eq_ok.mp h
  split at h
  · cases h
  split_ifs at h
  · cases h
    exact ⟨.refl r, hl⟩
  · obtain ⟨log, hset, h⟩ := bind_eq_ok.mp h
    cases pure_eq_ok.mp h
    have hp : seq < r.log.nextSeq := by
      rcases hl.getDigestAt seq with ⟨-, hp, -⟩ | ⟨-, herr⟩
      · exact hp
      · rw [hdigest] at herr
        cases herr
    obtain ⟨hnext, hsame⟩ := hl.setCheckpoint_digest hp hdigest hset
    exact ⟨⟨⟨rfl, rfl, id, hnext, hsame⟩, rfl, rfl⟩, hl.setCheckpoint hp hdigest hset⟩

omit [PaddedRequestData] in
lemma checkpointRepair_noReply (hl : r.log.WellFormed) (h : r.checkpointRepair cfg = .ok r') :
    NoReply r r' ∧ r'.log.WellFormed := by
  obtain ⟨⟨r₁, suffix⟩, hsuffix, h⟩ := bind_eq_ok.mp h
  obtain ⟨rfl, -⟩ := getRepairLogSuffix_cases hsuffix
  have hset : Silent r { r with repairProposalLogSuffix := some suffix } :=
    ⟨⟨rfl, rfl, id, rfl, rfl⟩, rfl, rfl⟩
  dsimp only at h
  split_ifs at h
  · cases pure_eq_ok.mp h
    exact ⟨hset.toNoReply, hl⟩
  · refine ⟨hset.toNoReply.trans (commitWithSnapshot_noReply h), ?_⟩
    rw [(commitWithSnapshot_quiet h).2]
    exact hl
  · have hl₁ : { r with repairProposalLogSuffix := some suffix }.log.WellFormed := hl
    obtain ⟨hsilent, hwell⟩ := commitRepair_silent hl₁ h
    exact ⟨(hset.trans hsilent).toNoReply, hwell⟩

/-- An entry that is not counted stays in the log. -/
lemma processClientRequest_overfull {m : ClientRequestProto} {queued : Bool}
    (hl : r.log.Overfull) (h : r.processClientRequest cfg now m queued = .ok r') :
    r'.log.Overfull := by
  obtain ⟨-, ⟨-, hlog⟩ | ⟨-, -, log, res, hadd, ⟨-, hlog⟩ | ⟨-, hset⟩⟩⟩ :=
    processClientRequest_cases h
  · rw [hlog]
    exact hl
  · rw [hlog]
    exact hl.addEntry hadd
  · exact (hl.addEntry hadd).setDeadline hset

/-- **The requests that have waited** are answered for the end of the log, one after the other. -/
lemma processQueued_spoken (hs : r.Spoken) (hrepair : r.repair = false) (hl : r.log.WellFormed)
    (h : r.processQueued cfg now = .ok r') : r'.log.Overfull ∨ r'.Spoken := by
  obtain ⟨r₁, hfold, h⟩ := bind_eq_ok.mp h
  cases pure_eq_ok.mp h
  have hrel := foldlM_rel (P := fun a b : Replica A => (a.log.Overfull → b.log.Overfull) ∧
      (a.Spoken ∧ a.repair = false ∧ a.log.WellFormed →
        b.log.Overfull ∨ b.Spoken ∧ b.repair = false ∧ b.log.WellFormed))
    (fun a => ⟨id, .inr⟩) (fun a b c hab hbc => ⟨hbc.1 ∘ hab.1, fun ha => ?_⟩) ?_ hfold
  · rcases hrel.2 ⟨hs, hrepair, hl⟩ with hfull | ⟨hs₁, -⟩
    · exact .inl hfull
    · have hclear : Silent r₁ { r₁ with
          repairQueuedReqs := ∅, checkpointTimeoutStart := now } :=
            ⟨⟨rfl, rfl, id, rfl, rfl⟩, rfl, rfl⟩
      exact .inr (hs₁.silent hclear)
  · rcases hab.2 ha with hfull | hb
    · exact .inl (hbc.1 hfull)
    · exact hbc.2 hb
  · intro a e b _ hstep
    refine ⟨fun ha => processClientRequest_overfull ha hstep, fun ⟨ha, har, hal⟩ => ?_⟩
    rcases processClientRequest_spoken ha har hal hstep with hfull | hb
    · exact .inl hfull
    rcases processClientRequest_wellFormed hal hstep with hfull | hbl
    · exact .inl hfull
    · exact .inr ⟨hb, (processClientRequest_grows hstep).1.repair_eq.trans har, hbl⟩

/-- **At the end of a repair** the replica begins to speak anew: nothing has been said in the
next round yet. -/
lemma finishRepair_spoken {r₀ : Replica A} {aborted : List ClientRequestProto} (hs : r₀.Spoken)
    (hreplies : r.replies = r₀.replies) (hround : r₀.round ≤ r.round) (hl : r.log.WellFormed)
    (hlast : r.round < 2 ^ 32 - 1) (h : r.finishRepair cfg now aborted = .ok r') :
    r'.log.Overfull ∨ r'.Spoken := by
  rw [finishRepair] at h
  dsimp only at h
  obtain ⟨r₃, hsummary, h⟩ := bind_eq_ok.mp h
  have hsilent₀ := sendRepairSummaryToClients_silent hsummary
  have hlog₀ := (sendRepairSummaryToClients_quiet hsummary).2
  obtain ⟨r₁, hcheckpoint, h⟩ := bind_eq_ok.mp h
  have hl₀ : r₃.log.WellFormed := hlog₀ ▸ hl
  obtain ⟨hnone₁, hl₁⟩ := checkpointRepair_noReply hl₀ hcheckpoint
  have hsilent := hsilent₀.toNoReply.trans hnone₁
  obtain ⟨r₂, hqueued, h⟩ := bind_eq_ok.mp h
  have hnext : r₁.round = r.round + 1 := hsilent.round.trans (Nat.mod_eq_of_lt (by omega))
  have hs₁ : (r₁.endRepair aborted).Spoken := by
    have hlt : r₀.round < (r₁.endRepair aborted).round := by
      show r₀.round < r₁.round
      omega
    exact hs.turn (hsilent.replies.trans hreplies) hlt.le (.inr hlt)
  rcases processQueued_spoken hs₁ rfl hl₁ hqueued with hfull | hs₂
  · split_ifs at h
    · have hlog : r'.log = r₂.log := congrArg Ledger.log (startRepair_ledger h)
      rw [hlog]
      exact .inl hfull
    · cases pure_eq_ok.mp h
      exact .inl hfull
  · split_ifs at h
    · have hclear : Silent r₂ { r₂ with pendingRepair := false } :=
      ⟨⟨rfl, rfl, id, rfl, rfl⟩, rfl, rfl⟩
      exact .inr (hs₂.silent (hclear.trans (startRepair_silent h)))
    · cases pure_eq_ok.mp h
      exact .inr hs₂

/-! ### What an event makes a replica say -/

/-- Which of the handlers an event calls that may send a reply or a commit, or change the log or
the collectors. -/
inductive VoiceStep (cfg : Config) (r r' : Replica A) : ReplicaEvent → Prop
  | silent {e : ReplicaEvent} (h : Silent r r') (hledger : r'.ledger = r.ledger) :
      VoiceStep cfg r r' e
  | request {e : ReplicaEvent} {now : ℕ} {m : ClientRequestProto}
      (hfree : r.repair = false ∨ ∃ now m sig, e = .message now (.clientRequest m) sig)
      (h : r.processClientRequest cfg now m = .ok r') : VoiceStep cfg r r' e
  | snapshot {round : ℕ} {snapshot : AppSnapshot} {queue : List (ℕ × AppSnapshot)}
      (h : { r with snapshotQueue := queue }.processSnapshot snapshot round = .ok r') :
      VoiceStep cfg r r' .snapshot
  | timeouts {now : ℕ} (h : r.checkTimeouts cfg now = .ok r') : VoiceStep cfg r r' (.timeouts now)
  | cert {now : ℕ} {m : Cert} {sig : Bytes} (h : r.processCert cfg m = .ok r') :
      VoiceStep cfg r r' (.message now (.cert m) sig)
  | reply {now : ℕ} {m : Reply} {sig : Bytes} (h : r.processReply cfg now m sig = .ok r') :
      VoiceStep cfg r r' (.message now (.reply m) sig)
  | commit {now : ℕ} {m : Commit} {sig : Bytes} (h : r.processCommit cfg now m sig = .ok r') :
      VoiceStep cfg r r' (.message now (.commit m) sig)
  | snapshotReply {now : ℕ} {m : SnapshotReply} {sig : Bytes}
      (h : r.processSnapshotReply cfg now m = .ok r') :
      VoiceStep cfg r r' (.message now (.snapshotReply m) sig)
  | repairTimeout {now : ℕ} {m : RepairTimeout} {sig : Bytes}
      (h : r.processRepairTimeout cfg m sig = .ok r') :
      VoiceStep cfg r r' (.message now (.repairTimeout m) sig)
  | finish {e : ReplicaEvent} {now : ℕ} {r₁ : Replica A} (hcall : r.CallsTryFinish cfg e r₁)
      (h : r₁.tryFinishRepair cfg now = .ok r') : VoiceStep cfg r r' e

lemma handle_voice {e : ReplicaEvent} (h : r.handle cfg e = .ok r') : VoiceStep cfg r r' e := by
  have hsame : ∀ {e : ReplicaEvent}, r = r' → VoiceStep cfg r r' e := by
    rintro e rfl
    exact .silent (.refl r) rfl
  cases e with
  | request now deadline m =>
      rcases processDOMRequest_cases h with ⟨hrepair, h⟩ | ⟨-, ⟨pending, rfl⟩ | ⟨hcall, htry⟩⟩
      · exact .request (.inl hrepair) h
      · exact .silent ⟨⟨rfl, rfl, id, rfl, rfl⟩, rfl, rfl⟩ rfl
      · exact .finish hcall htry
  | snapshot =>
      rw [handle] at h
      split at h
      · exact hsame (Except.ok.inj h)
      · exact .snapshot h
  | timeouts now => exact .timeouts h
  | message now msg sig =>
      cases msg with
      | clientRequest m => exact .request (.inr ⟨_, _, _, rfl⟩) h
      | cert m => exact .cert h
      | reply m => exact .reply h
      | commit m => exact .commit h
      | snapshotReply m => exact .snapshotReply h
      | repairTimeout m => exact .repairTimeout h
      | snapshotRequest m =>
          have h' : r.processSnapshotRequest cfg m = .ok r' := h
          rw [processSnapshotRequest] at h'
          split_ifs at h'
          · exact hsame (Except.ok.inj h')
          · obtain ⟨reply, -, hsend⟩ := bind_eq_ok.mp h'
            exact .silent (sendToReplica_silent ⟨rfl, rfl⟩ hsend) (sendToReplica_ledger hsend)
      | missingRequestFetch m =>
          obtain ⟨entries, -, h'⟩ := bind_eq_ok.mp h
          dsimp only at h'
          split_ifs at h'
          · exact hsame (Except.ok.inj h')
          · exact .silent (sendToReplica_silent ⟨rfl, rfl⟩ h') (sendToReplica_ledger h')
      | missingRequestReply m =>
          rcases processMissingRequestReply_cases h sig with rfl | rfl | ⟨hcall, htry⟩
          · exact hsame rfl
          · exact .silent (foldl_addMissingRequest_silent m.requests r)
              (foldl_addMissingRequest_same m.requests r).1
          · exact .finish hcall htry
      | repairReplyProof m => exact .silent (announced_silent rfl h) (announced_ledger rfl h)
      | repairTimeoutProof m => exact .silent (announced_silent rfl h) (announced_ledger rfl h)
      | viewUpdate m => exact .silent (announced_silent rfl h) (announced_ledger rfl h)
      | repairStart m =>
          cases Except.ok.inj h
          exact .silent (processRepairStart_silent cfg r m sig)
            (processRepairStart_ledger cfg r m sig)
      | prePrepare m => exact .silent (processPrePrepare_silent h) (processPrePrepare_ledger h)
      | prepare m => exact .silent (processPrepare_silent h) (processPrepare_ledger h)
      | pbftCommit m =>
          rcases processPBFTCommit_cases h with rfl | ⟨-, -, rfl | ⟨hcall, htry⟩⟩
          · exact hsame rfl
          · exact .silent ⟨⟨rfl, rfl, id, rfl, rfl⟩, rfl, rfl⟩ rfl
          · exact .finish hcall htry
      | domRequest | certReply | committedReply | repairSummary => exact hsame (Except.ok.inj h)

/-! ### One voice -/

/-- **What keeps a replica speaking for one log in a round.**  The rounds do not go back; the log
is well formed after every event, and where a repair is finished.  While it waits for the end of a
repair, the replica takes no request that has come without a deadline, and the timer for the next
checkpoint does not run out.  A proposal that cannot be applied at once is one of a repair that it
takes part in, and outside repairs no snapshot replaces its log. -/
structure OneVoice (cfg : Config) (r : Replica A) (e : ReplicaEvent) : Prop where
  keepsRound : r.KeepsRound cfg e
  wellFormed : ∀ r', r.handle cfg e = .ok r' → r'.log.WellFormed
  finishes : ∀ r₂ aborted, r.CallsFinish cfg e r₂ aborted → r₂.log.WellFormed
  noRequest : r.repair = true → ∀ now m sig, e ≠ .message now (.clientRequest m) sig
  notDue : r.repair = true → ∀ now, e = .timeouts now → ¬r.CheckpointDue cfg now
  inRepair : ∀ r₁ r₂, r.CallsTryFinish cfg e r₁ → r₁.tryApply cfg = .ok (r₂, none) →
    r.repair = true
  keepsLog : r.repair = false → ∀ now reply sig, e = .message now (.snapshotReply reply) sig →
    ¬r.UsesSnapshot cfg reply

variable {e : ReplicaEvent}

lemma tryFinishRepair_spoken (hv : r.OneVoice cfg e) (hs : r.Spoken) (he : e.InRange)
    (hrange : r.core.InRange) (hcall : r.CallsTryFinish cfg e r₁)
    (h : r₁.tryFinishRepair cfg now = .ok r') : r'.log.Overfull ∨ r'.Spoken := by
  obtain ⟨hround, hproposal, -⟩ := hcall.same
  have hrange₁ : r₁.core.InRange := by
    refine ⟨?_, ?_, fun p hp => hrange.proposal p (hproposal.symm.trans hp)⟩
    · show 0 < r₁.round
      rw [hround]
      exact hrange.pos
    · show r₁.round < 2 ^ 32
      rw [hround]
      exact hrange.lt
  obtain ⟨⟨r₂, res⟩, happly, h⟩ := bind_eq_ok.mp h
  obtain ⟨hreplies, -, -, hrepair, -⟩ := tryApply_keepsWord happly
  have hcore := (tryApply_core hcall happly).le hv.keepsRound he hrange₁
  have hle : r.round ≤ r₂.round := hround.symm.le.trans hcore.1
  have hsaid := hreplies.trans hcall.silent.replies
  cases res with
  | none =>
      cases pure_eq_ok.mp h
      have hrep : r₁.repair = true := by
        by_contra hno
        have hfree := hcall.silent.repair (by simpa using hno)
        rw [hv.inRepair _ _ hcall happly] at hfree
        cases hfree
      exact .inr (hs.turn hsaid hle (.inl (hrepair.trans hrep)))
  | some aborted =>
      have hfinish : r.CallsFinish cfg e r₂ aborted := .tried hcall happly
      exact finishRepair_spoken hs hsaid hle (hv.finishes _ _ hfinish)
        (hv.keepsRound.lastRound _ _ hfinish) h

lemma processSnapshotReply_spoken {reply : SnapshotReply} {sig : Bytes}
    (hv : r.OneVoice cfg (.message now (.snapshotReply reply) sig)) (hs : r.Spoken)
    (h : r.processSnapshotReply cfg now reply = .ok r') : r'.log.Overfull ∨ r'.Spoken := by
  rcases processSnapshotReply_cases h with rfl | ⟨hold, hdone, ⟨hrepair, happly |
      ⟨r₂, r₃, aborted, happly, hfinish, rfl⟩⟩ | ⟨hrepair, hskip, -⟩⟩
  · exact .inr (hs.silent ⟨⟨rfl, rfl, id, rfl, rfl⟩, rfl, rfl⟩)
  · have hcore := applySnapshot_core happly
    exact .inr (hs.turn (applySnapshot_replies happly) (congrArg Core.round hcore).symm.le
      (.inl ((congrArg Core.repair hcore).trans hrepair)))
  · have hround : r₂.round = r.round := congrArg Core.round (applySnapshot_core happly)
    have hcall : r.CallsFinish cfg (.message now (.snapshotReply reply) sig) r₂ aborted :=
      .snapshot hold hdone hrepair happly
    rcases finishRepair_spoken hs (applySnapshot_replies happly) hround.symm.le
      (hv.finishes _ _ hcall) (hv.keepsRound.lastRound _ _ hcall) hfinish with hfull | hs₃
    · exact .inl hfull
    -- the round may become that of the snapshot
    · refine .inr ?_
      rcases (le_max_left r₃.round reply.round).eq_or_lt with heq | hlt
      · exact hs₃.noReply ⟨rfl, heq.symm, id, rfl, rfl⟩
      · exact hs₃.turn rfl hlt.le (.inr hlt)
  · exact absurd ⟨hold, hdone, .inr ⟨hrepair, hskip⟩⟩ (hv.keepsLog hrepair _ _ _ rfl)

/-- **Every event keeps the replica speaking for one log in a round.** -/
theorem handle_spoken (hv : r.OneVoice cfg e) (hs : r.Spoken) (hl : r.log.WellFormed)
    (he : e.InRange) (hrange : r.core.InRange) (h : r.handle cfg e = .ok r') : r'.Spoken := by
  have hwell := hv.wellFormed r' h
  have hfull : r'.log.Overfull ∨ r'.Spoken → r'.Spoken :=
    fun hor => hor.resolve_left hwell.not_overfull
  replace h := handle_voice h
  cases h with
  | silent h _ => exact hs.silent h
  | request hfree h =>
      have hrepair : r.repair = false := by
        rcases hfree with hrepair | ⟨now, m, sig, rfl⟩
        · exact hrepair
        · by_contra hrep
          exact hv.noRequest (by simpa using hrep) _ _ _ rfl
      exact hfull (processClientRequest_spoken hs hrepair hl h)
  | @snapshot _ _ queue h =>
      have hqueue : Silent r { r with snapshotQueue := queue } :=
        ⟨⟨rfl, rfl, id, rfl, rfl⟩, rfl, rfl⟩
      exact (hs.silent hqueue).noReply (processSnapshot_noReply h)
  | timeouts h => exact checkTimeouts_spoken hs hl.toLinked (fun hrep => hv.notDue hrep _ rfl) h
  | cert h => exact hs.silent (processCert_silent h)
  | reply h => exact processReply_spoken hs hl.toLinked h
  | commit h => exact hs.silent (processCommit_silent hl h)
  | snapshotReply h => exact hfull (processSnapshotReply_spoken hv hs h)
  | repairTimeout h => exact hs.silent (processRepairTimeout_silent h)
  | finish hcall h => exact hfull (tryFinishRepair_spoken hv hs he hrange hcall h)

omit [Application A] [PaddedRequestData] in
lemma Spoken.id_eq (hs : r.Spoken) (hc : CollisionFree) {m m' : Reply} (hm : m ∈ r.replies)
    (hm' : m' ∈ r.replies) (hround : m.round = m'.round) (hseq : m.seq = m'.seq) :
    m.digest = m'.digest ∧ m.clientId = m'.clientId ∧ m.clientSeq = m'.clientSeq := by
  have hd : m'.digest = m.digest := (hs.chained m hm m' hm' hround hseq.le).digest_eq hseq.ge
  exact ⟨hd.symm, Reply.Named.id_eq hc (hs.named m hm) (hs.named m' hm') hd.symm⟩

section

variable [SignatureProvider] {i : ℕ} {app : A} {es : List ReplicaEvent}

lemma run_spoken (h : Run (system cfg i app) (fun _ r e => r.OneVoice cfg e) es r) :
    r.Spoken ∧ r.log.WellFormed ∧ r.core.InRange := by
  refine h.invariant (P := fun _ r => r.Spoken ∧ r.log.WellFormed ∧ r.core.InRange) ?_ ?_
  · rintro s rfl
    exact ⟨.fresh i app, Log.wellFormed_fresh app, Nat.one_pos, Nat.one_lt_two_pow (by decide),
      by simp [core, Replica.fresh]⟩
  · rintro _ s e s' - ⟨hs, hl, hrange⟩ hv ⟨-, he, hstep⟩
    exact ⟨handle_spoken hv hs hl he hrange hstep, hv.wellFormed s' hstep,
      ((handle_core hstep).le hv.keepsRound he hrange).2.2⟩

/-- **The replies of one round are about one log.**  Of two replies that a replica signs in a
round, the history of the earlier position can be continued to that of the later one; for one
position, they name one request.  Outside repairs, the log of the replica continues all its
replies of the round. -/
theorem replies_chained (hc : CollisionFree) :
    ∀ es r, Run (system cfg i app) (fun _ r e => r.OneVoice cfg e) es r →
      (∀ m ∈ r.replies, ∀ m' ∈ r.replies, m.round = m'.round →
        (m.seq ≤ m'.seq → Continues entryDigest m.seq m.digest m'.seq m'.digest) ∧
        (m.seq = m'.seq →
          m.digest = m'.digest ∧ m.clientId = m'.clientId ∧ m.clientSeq = m'.clientSeq)) ∧
      ∀ m ∈ r.replies, m.round ≤ r.round ∧ (r.repair = false → m.round = r.round →
        Continues entryDigest m.seq m.digest (r.log.nextSeq - 1) r.log.getDigest) := by
  intro es r hrun
  obtain ⟨hs, -, -⟩ := run_spoken hrun
  exact ⟨fun m hm m' hm' hround =>
      ⟨hs.chained m hm m' hm' hround, hs.id_eq hc hm hm' hround⟩,
    fun m hm => ⟨hs.past m hm, fun hrepair => hs.leads hrepair m hm⟩⟩

end

end

end Replica

/-! ### A run with a repair -/

section

attribute [local instance] prefixSha shortPaddedRequestData counterWire fourKeys

namespace Replica

variable {A : Type} [Application A] {r : Replica A} {cfg : Config} {e : ReplicaEvent}

instance decidableIsSegment : ∀ s d es, Decidable (IsSegment s d es)
  | _, _, [] => .isTrue trivial
  | s, d, e :: es =>
    have := decidableIsSegment (s + 1) e.digest es
    inferInstanceAs (Decidable (e.seq = s + 1 ∧ e.digest = entryDigest (s + 1) d e.toRequest ∧
      IsSegment (s + 1) e.digest es))

instance : DecidablePred (Log.WellFormed (A := A)) := fun l =>
  decidable_of_iff (l.nextSeq = l.stableCheckpoint.seq + l.log.length + 1 ∧
      IsSegment l.stableCheckpoint.seq l.stableCheckpoint.logDigest l.log ∧
      l.stableCheckpoint.seq ≤ l.committedCheckpoint.seq ∧ l.committedCheckpoint.seq < l.nextSeq)
    ⟨fun ⟨h₁, h₂, h₃, h₄⟩ => ⟨⟨h₁, h₂⟩, h₃, h₄⟩,
      fun h => ⟨h.nextSeq_eq, h.segment, h.stable_le, h.committed_lt⟩⟩

/-- Where commits arrive, the proposal can be applied at once; no missing requests arrive, and
neither requests without a deadline nor timeouts in a repair. -/
def AppliesAtOnce (cfg : Config) (r : Replica A) : ReplicaEvent → Prop
  | .message _ (.pbftCommit m) sig => ∃ x, (r.addPBFTCommit m sig).tryApply cfg = .ok x ∧
      (x.2.isSome ∧ x.1.log.WellFormed)
  | .message _ (.missingRequestReply _) _ => False
  | .message _ (.clientRequest _) _ => r.repair = false
  | .timeouts _ => r.repair = false
  | _ => True

instance (cfg : Config) (r : Replica A) (e : ReplicaEvent) : Decidable (r.AppliesAtOnce cfg e) := by
  unfold AppliesAtOnce
  split <;> infer_instance

/-- A condition that can be checked, under which a replica speaks with one voice. -/
def SpeaksInOrder (cfg : Config) (r : Replica A) (e : ReplicaEvent) : Prop :=
  r.InOrder e ∧ r.missingRequestFetchSent = false ∧ r.AppliesAtOnce cfg e ∧
    ∃ r', r.handle cfg e = .ok r' ∧ r'.log.WellFormed

instance (cfg : Config) (r : Replica A) (e : ReplicaEvent) : Decidable (r.SpeaksInOrder cfg e) :=
  inferInstanceAs (Decidable (_ ∧ _ ∧ _ ∧ _))

lemma SpeaksInOrder.oneVoice (h : r.SpeaksInOrder cfg e) (hrange : r.core.InRange) :
    r.OneVoice cfg e := by
  obtain ⟨horder, hnone, happlies, r₀, hhandle, hwell⟩ := h
  have hcommit : ∀ r₁, r.CallsTryFinish cfg e r₁ → ∃ x, r₁.tryApply cfg = .ok x ∧
      (x.2.isSome ∧ x.1.log.WellFormed) := by
    intro r₁ hcall
    cases hcall with
    | committed => exact happlies
    | fetched => exact happlies.elim
    | queued _ hsent =>
        rw [hnone] at hsent
        cases hsent
  refine ⟨horder.progresses.keepsRound hrange, ?_, ?_, ?_, ?_, ?_, ?_⟩
  · intro r' h
    rw [hhandle] at h
    cases h
    exact hwell
  · intro r₂ aborted hfinish
    cases hfinish with
    | tried hcall happly =>
        obtain ⟨x, hx, -, hlog⟩ := hcommit _ hcall
        rw [happly] at hx
        cases hx
        exact hlog
    | snapshot => exact absurd horder.2.2.2 Bool.false_ne_true
  · rintro hrep now m sig rfl
    rw [show r.repair = false from happlies] at hrep
    cases hrep
  · rintro hrep now rfl
    rw [show r.repair = false from happlies] at hrep
    cases hrep
  · intro r₁ r₂ hcall happly
    obtain ⟨x, hx, hsome, -⟩ := hcommit r₁ hcall
    rw [happly] at hx
    cases hx
    cases hsome
  · rintro - now reply sig rfl
    exact absurd horder.2.2.2 Bool.false_ne_true

lemma run_oneVoice {i : ℕ} {app : A} {es : List ReplicaEvent}
    (h : Run (system cfg i app) (fun _ r e => r.SpeaksInOrder cfg e) es r) :
    Run (system cfg i app) (fun _ r e => r.OneVoice cfg e) es r := by
  induction h with
  | start hinit => exact .start hinit
  | step _ horder hstep ih => exact ih.step (horder.oneVoice (run_spoken ih).2.2) hstep

/-- Two requests before the repair and one that waits in it; the first round ends, and there is
one more request. -/
def spokenEvents : List ReplicaEvent :=
  [.request 1 6 { clientId := 0, clientSeq := 2 }, .request 1 5 { clientId := 0, clientSeq := 1 },
    replyProofOf 3 0, .request 2 7 { clientId := 0, clientSeq := 3 }] ++ firstRoundEvents ++
    [commitOf (emptyProposal 1 [0, 1, 2]) 3, .request 3 8 { clientId := 0, clientSeq := 4 }]

/-- A replica that has been through a repair has signed two replies in the second round, for one
log. -/
theorem replies_chained_two : ∃ (r : Replica Counter) (m m' : Reply),
    Run (system .oneFault 1 {}) (fun _ r e => r.OneVoice .oneFault e) spokenEvents r ∧
    m ∈ r.replies ∧ m' ∈ r.replies ∧ m.round = 2 ∧ m'.round = 2 ∧ m.seq < m'.seq ∧
    Continues entryDigest m.seq m.digest m'.seq m'.digest := by
  have hsome : ∃ r, spokenEvents.foldlM
        (fun r e => if r.SpeaksInOrder .oneFault e then r.handle .oneFault e else .error .assertion)
        (fresh 1 ({} : Counter)) = .ok r ∧
      ∃ m ∈ r.replies, ∃ m' ∈ r.replies, m.round = 2 ∧ m'.round = 2 ∧ m.seq < m'.seq := by
    decide +kernel
  obtain ⟨r, hfold, m, hm, m', hm', hround, hround', hlt⟩ := hsome
  have hrun : Run (system .oneFault 1 ({} : Counter))
      (fun _ r e => r.SpeaksInOrder .oneFault e) ([] ++ spokenEvents) r :=
    run_of_foldlM (.start rfl) (by decide +kernel) (fun _ _ _ h => h) hfold
  replace hrun := run_oneVoice hrun
  exact ⟨r, m, m', hrun, hm, hm', hround, hround', hlt,
    ((replies_chained prefixSha_collisionFree _ _ hrun).1 m hm m' hm'
      (hround.trans hround'.symm)).1 hlt.le⟩

end Replica

end

end DomBft
