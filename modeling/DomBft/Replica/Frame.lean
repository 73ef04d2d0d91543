import DomBft.Lib.Fallible
import DomBft.Log.Committed
import DomBft.Replica.Step

/-!
What the handlers leave alone.

* `Quiet`: a change of the log, of the checkpoints and of what is sent, which keeps everything
  that belongs to a repair; no message that starts a repair or belongs to the agreement on a
  proposal is among those that are sent.
* One lemma for each handler that is quiet, assembled along its calls.
* `processClientRequest_cases`, `startRepair_eq`: what a handler does beside that.
-/

namespace DomBft.Replica

open Std (ExtTreeMap)
open Fallible

variable {A : Type} {r r' r'' : Replica A} {cfg : Config} {now : ℕ}

/-- The messages that start a repair, and those with which the replicas agree on a proposal. -/
def IsRepair : Msg → Prop
  | .repairReplyProof _ | .repairTimeoutProof _ | .repairStart _ | .prePrepare _ | .prepare _
  | .pbftCommit _ | .viewUpdate _ => True
  | _ => False

/-- Only the log, the checkpoints and the messages that are not about a repair change. -/
structure Quiet (r r' : Replica A) : Prop where
  eq : r' = { r with
    log := r'.log
    snapshotQueue := r'.snapshotQueue
    checkpointCollectors := r'.checkpointCollectors
    checkpointSnapshotRequested := r'.checkpointSnapshotRequested
    checkpointTimeoutStart := r'.checkpointTimeoutStart
    checkpointTimeoutSeqs := r'.checkpointTimeoutSeqs
    sent := r'.sent }
  sent : ∃ ms, r'.sent = r.sent ++ ms ∧ ∀ x ∈ ms, ¬IsRepair x.2

namespace Quiet

lemma refl (r : Replica A) : Quiet r r := ⟨rfl, [], (List.append_nil _).symm, by simp⟩

lemma trans (h : Quiet r r') (h' : Quiet r' r'') : Quiet r r'' := by
  refine ⟨?_, ?_⟩
  · have h₁ := h.eq
    have h₂ := h'.eq
    rw [h₁] at h₂
    exact h₂
  · obtain ⟨ms, hms, hm⟩ := h.sent
    obtain ⟨ms', hms', hm'⟩ := h'.sent
    refine ⟨ms ++ ms', by rw [hms', hms, List.append_assoc], ?_⟩
    intro x hx
    rcases List.mem_append.mp hx with hx | hx
    · exact hm x hx
    · exact hm' x hx

/-- A change without a message. -/
lemma of_sent_eq (h : r' = { r with
    log := r'.log
    snapshotQueue := r'.snapshotQueue
    checkpointCollectors := r'.checkpointCollectors
    checkpointSnapshotRequested := r'.checkpointSnapshotRequested
    checkpointTimeoutStart := r'.checkpointTimeoutStart
    checkpointTimeoutSeqs := r'.checkpointTimeoutSeqs }) : Quiet r r' := by
  have hs : r'.sent = r.sent := by rw [h]
  exact ⟨h.trans (by rw [hs]), [], by rw [hs, List.append_nil], by simp⟩

lemma send (r : Replica A) {dst : Dest} {msg : Msg} (h : ¬IsRepair msg) :
    Quiet r (r.send dst msg) :=
  ⟨rfl, [(dst, msg)], rfl, by simpa using h⟩

/-- What is quiet does not depend on the suffix. -/
lemma setSuffix (h : Quiet r r') (s : Option LogSuffix) :
    Quiet { r with repairProposalLogSuffix := s } { r' with repairProposalLogSuffix := s } :=
  ⟨congrArg (fun x => { x with repairProposalLogSuffix := s }) h.eq, h.sent⟩

end Quiet

/-! ### Sending -/

lemma sendToReplica_eq {i : ℕ} {msg : Msg} (h : r.sendToReplica cfg i msg = .ok r') :
    i < cfg.numReplicas ∧ r' = r.send (.replica i) msg := by
  rw [sendToReplica] at h
  split_ifs at h with hi
  exact ⟨hi, (Except.ok.inj h).symm⟩

lemma sendToClient_eq {c : UInt32} {msg : Msg} (h : r.sendToClient cfg c msg = .ok r') :
    r' = r.send (.client c) msg := by
  rw [sendToClient] at h
  split_ifs at h
  exact (Except.ok.inj h).symm

lemma sendToReplica_quiet {i : ℕ} {msg : Msg} (h : r.sendToReplica cfg i msg = .ok r')
    (hm : ¬IsRepair msg) : Quiet r r' := by
  rw [(sendToReplica_eq h).2]
  exact .send r hm

lemma sendToClient_quiet {c : UInt32} {msg : Msg} (h : r.sendToClient cfg c msg = .ok r')
    (hm : ¬IsRepair msg) : Quiet r r' := by
  rw [sendToClient_eq h]
  exact .send r hm

lemma sendSnapshotRequest_quiet {i seq : ℕ} (h : r.sendSnapshotRequest cfg i seq = .ok r') :
    Quiet r r' :=
  sendToReplica_quiet h id

/-! ### Requests -/

lemma initCollector_quiet {round seq : ℕ} {needsSnapshot ok : Bool}
    (h : r.initCollector round seq needsSnapshot = .ok (r', ok)) :
    Quiet r r' ∧ r'.log = r.log := by
  rw [initCollector] at h
  split_ifs at h
  · cases h
    exact ⟨.refl r, rfl⟩
  · obtain ⟨⟨cs, created⟩, -, h⟩ := bind_eq_ok.mp h
    cases h
    exact ⟨.of_sent_eq rfl, rfl⟩

variable [Application A]

lemma takeSnapshot_quiet (r : Replica A) : Quiet r r.takeSnapshot := .of_sent_eq rfl

lemma startCheckpoint_quiet {b : Bool} (h : r.startCheckpoint b = .ok r') :
    Quiet r r' ∧ r'.log = r.log := by
  have h0 : Quiet r (if b then r.takeSnapshot else r) ∧
      (if b then r.takeSnapshot else r).log = r.log := by
    cases b with
    | false => exact ⟨.refl r, rfl⟩
    | true => exact ⟨takeSnapshot_quiet r, rfl⟩
  rw [startCheckpoint] at h
  obtain ⟨⟨r₁, ok⟩, h₁, h⟩ := bind_eq_ok.mp h
  obtain ⟨hq, hlog⟩ := initCollector_quiet h₁
  cases ok with
  | false =>
      cases h
      exact ⟨h0.1.trans hq, hlog.trans h0.2⟩
  | true =>
      obtain ⟨coll, -, h⟩ := bind_eq_ok.mp h
      obtain ⟨digest, -, h⟩ := bind_eq_ok.mp h
      obtain ⟨entry, -, h⟩ := bind_eq_ok.mp h
      cases h
      refine ⟨(h0.1.trans hq).trans ?_, hlog.trans h0.2⟩
      exact Quiet.trans (.of_sent_eq rfl) (.send _ id)

lemma checkpointAt_quiet {seq : ℕ} (h : r.checkpointAt cfg now seq = .ok r') :
    Quiet r r' ∧ r'.log = r.log := by
  have hstart : ∃ r₁, (Quiet r r₁ ∧ r₁.log = r.log) ∧
      r' = if seq = 1 then r₁.restartTimer now else r₁ := by
    by_cases hseq : seq % cfg.replicaCheckpointInterval = 0
    · rw [checkpointAt, if_pos hseq] at h
      obtain ⟨r₁, h₁, h⟩ := bind_eq_ok.mp h
      obtain ⟨r₂, h₂, rfl⟩ := map_eq_ok.mp h₁
      obtain ⟨hq, hlog⟩ := startCheckpoint_quiet h₂
      exact ⟨r₂.restartTimer now, ⟨hq.trans (.of_sent_eq rfl), hlog⟩, (Except.ok.inj h).symm⟩
    · rw [checkpointAt, if_neg hseq] at h
      exact ⟨r, ⟨.refl r, rfl⟩, (Except.ok.inj h).symm⟩
  obtain ⟨r₁, hq, rfl⟩ := hstart
  split_ifs
  · exact ⟨hq.1.trans (.of_sent_eq rfl), hq.2⟩
  · exact hq

variable [Sha256] [PaddedRequestData]

/-- **What `processClientRequest` does**: it drops the request, answers it, or adds it to the
log. -/
lemma processClientRequest_cases {m : ClientRequestProto} {queued : Bool}
    (h : r.processClientRequest cfg now m queued = .ok r') :
    Quiet r r' ∧
      ((cfg.numClients < m.clientId.toNat ∨
          r.log.committedCheckpoint.clientRecord.contains m.clientId m.clientSeq = true) ∧
        r'.log = r.log ∨
      m.clientId.toNat ≤ cfg.numClients ∧
        r.log.committedCheckpoint.clientRecord.contains m.clientId m.clientSeq = false ∧
        ∃ log res, r.log.addEntry m.clientId m.clientSeq m.reqData = .ok (log, res) ∧
          (res = none ∧ r'.log = log ∨
            res.isSome ∧ log.setDeadline (log.nextSeq - 1) m.deadline = .ok r'.log)) := by
  rw [processClientRequest] at h
  split_ifs at h with hid hdup
  · cases h
    exact ⟨.refl r, .inl ⟨.inl hid, rfl⟩⟩
  · refine ⟨sendToClient_quiet h id, .inl ⟨.inr hdup, ?_⟩⟩
    rw [sendToClient_eq h]
    rfl
  · obtain ⟨⟨log, res⟩, hadd, h⟩ := bind_eq_ok.mp h
    have hdup' := Bool.eq_false_iff.mpr hdup
    cases res with
    | none =>
        cases h
        exact ⟨.of_sent_eq rfl, .inr ⟨by omega, hdup', log, none, hadd, .inl ⟨rfl, rfl⟩⟩⟩
    | some result =>
        obtain ⟨log', hset, h⟩ := bind_eq_ok.mp h
        obtain ⟨r₁, hsend, h⟩ := bind_eq_ok.mp h
        obtain ⟨hq, hlog⟩ := checkpointAt_quiet h
        have hr₁ := sendToClient_eq hsend
        have hlog₁ : r₁.log = log' := by rw [hr₁]; rfl
        refine ⟨(Quiet.of_sent_eq rfl).trans ((sendToClient_quiet hsend id).trans hq),
          .inr ⟨by omega, hdup', log, some result, hadd, .inr ⟨rfl, ?_⟩⟩⟩
        rw [hlog, hlog₁]
        exact hset

omit [Application A] [PaddedRequestData] in
/-- **What `startRepair` does**: its start message is sent to the primary. -/
lemma startRepair_eq (h : r.startRepair cfg = .ok r') :
    r.repair = false ∧ ∃ m : RepairStart, m.replicaId = r.replicaId ∧ m.round = r.round ∧
      m.pbftView = r.pbftView ∧ m.preparedHistory = none ∧
      r' = { r with repair := true, repairStart := some m
        }.send (.replica (r.getPrimary cfg)) (.repairStart m) := by
  rw [startRepair] at h
  split_ifs at h with hrep
  exact ⟨by simpa using hrep, _, rfl, rfl, rfl, rfl, (sendToReplica_eq h).2⟩

/-! ### Certificates and checkpoints -/

/-- The log at most takes a certificate. -/
def AtMostAddsCert (r r' : Replica A) : Prop :=
  r'.log = r.log ∨ ∃ seq cert ok, r.log.addCert seq cert = .ok (r'.log, ok)

omit [Application A] [Sha256] [PaddedRequestData] in
lemma processCert_quiet {cert : Cert} (h : r.processCert cfg cert = .ok r') :
    Quiet r r' ∧ AtMostAddsCert r r' := by
  rw [processCert] at h
  split at h
  · cases h
  split_ifs at h
  · cases h
    exact ⟨.refl r, .inl rfl⟩
  · cases h
    exact ⟨.refl r, .inl rfl⟩
  · obtain ⟨⟨log, ok⟩, hadd, h⟩ := bind_eq_ok.mp h
    cases ok with
    | false =>
        cases h
        exact ⟨.of_sent_eq rfl, .inr ⟨_, _, _, hadd⟩⟩
    | true =>
        refine ⟨(Quiet.of_sent_eq rfl).trans (sendToClient_quiet h id),
          .inr ⟨cert.seq, cert, true, ?_⟩⟩
        rw [sendToClient_eq h]
        exact hadd

omit [Application A] [PaddedRequestData] in
lemma sendOwnCommit_quiet {coll : CheckpointCollector} (h : r.sendOwnCommit coll = .ok r') :
    Quiet r r' ∧ r'.log = r.log ∧ r'.checkpointCollectors = r.checkpointCollectors := by
  rw [sendOwnCommit] at h
  split_ifs at h
  · obtain ⟨commit, -, h⟩ := bind_eq_ok.mp h
    cases h
    exact ⟨.send r id, rfl, rfl⟩
  · cases h
    exact ⟨.refl r, rfl, rfl⟩

omit [PaddedRequestData] [Sha256] in
lemma checkpointTimedOut_quiet {reply : Reply} (h : r.checkpointTimedOut cfg reply = .ok r') :
    Quiet r r' ∧ r'.log = r.log := by
  rw [checkpointTimedOut] at h
  dsimp only at h
  split_ifs at h
  · obtain ⟨hq, hlog⟩ := startCheckpoint_quiet h
    exact ⟨(Quiet.of_sent_eq rfl).trans hq, hlog⟩
  · cases h
    exact ⟨.refl r, rfl⟩

omit [Application A] [PaddedRequestData] in
lemma useCert_quiet {coll : CheckpointCollector} {reply : Reply}
    (h : r.useCert cfg coll reply = .ok r') :
    Quiet r r' ∧ AtMostAddsCert r r' ∧ r'.checkpointCollectors = r.checkpointCollectors := by
  rw [useCert] at h
  split_ifs at h
  · cases hc : coll.replyCollector.cert with
    | none =>
        rw [hc] at h
        cases h
    | some cert =>
        rw [hc] at h
        obtain ⟨⟨log, ok⟩, hadd, h⟩ := bind_eq_ok.mp h
        cases ok with
        | false =>
            cases h
            exact ⟨.of_sent_eq rfl, .inr ⟨_, _, _, hadd⟩, rfl⟩
        | true =>
            obtain ⟨hq, hlog, hcc⟩ := sendOwnCommit_quiet h
            refine ⟨(Quiet.of_sent_eq rfl).trans hq, .inr ⟨reply.seq, cert, true, ?_⟩, hcc⟩
            rw [hlog]
            exact hadd
  · obtain ⟨hq, hlog, hcc⟩ := sendOwnCommit_quiet h
    exact ⟨hq, .inl hlog, hcc⟩

omit [Application A] [PaddedRequestData] in
/-- A proof that the replies do not match starts a repair. -/
lemma useConflictProof_cases {coll : CheckpointCollector}
    (h : r.useConflictProof cfg coll = .ok r') :
    coll.replyCollector.repairReplyProof = none ∧ r' = r ∨
      ∃ proof, coll.replyCollector.repairReplyProof = some proof ∧
        (r.broadcastToReplicas <| .repairReplyProof { proof with
          replicaId := r.replicaId
          round := r.round
          view := r.pbftView }).startRepair cfg = .ok r' := by
  rw [useConflictProof] at h
  cases hp : coll.replyCollector.repairReplyProof with
  | none =>
      rw [hp] at h
      exact .inl ⟨rfl, (Except.ok.inj h).symm⟩
  | some proof =>
      rw [hp] at h
      exact .inr ⟨proof, rfl, h⟩

omit [PaddedRequestData] in
/-- **What `processReply` does**: beside the checkpoints, it starts a repair at most. -/
lemma processReply_cases {reply : Reply} {sig : Bytes}
    (h : r.processReply cfg now reply sig = .ok r') :
    AtMostAddsCert r r' ∧
      (Quiet r r' ∨ ∃ r₁ proof, Quiet r r₁ ∧ r₁.log = r.log ∧
        (r₁.broadcastToReplicas (.repairReplyProof proof)).startRepair cfg = .ok r') := by
  rw [processReply] at h
  split_ifs at h
  · cases h
    exact ⟨.inl rfl, .inl (.refl r)⟩
  · cases h
    exact ⟨.inl rfl, .inl (.refl r)⟩
  obtain ⟨r₁, h₁, h⟩ := bind_eq_ok.mp h
  obtain ⟨hq₁, hlog₁⟩ := checkpointTimedOut_quiet h₁
  split_ifs at h
  · cases h
    exact ⟨.inl hlog₁, .inl hq₁⟩
  obtain ⟨⟨r₂, ok⟩, h₂, h⟩ := bind_eq_ok.mp h
  obtain ⟨hq₂, hlog₂⟩ := initCollector_quiet h₂
  have hq := hq₁.trans hq₂
  have hlog := hlog₂.trans hlog₁
  cases ok with
  | false =>
      cases h
      exact ⟨.inl hlog, .inl hq⟩
  | true =>
      obtain ⟨coll, -, h⟩ := bind_eq_ok.mp h
      split_ifs at h
      · cases h
        exact ⟨.inl hlog, .inl hq⟩
      have hq₃ : Quiet r (r₂.setCollector r₂.round reply.seq
          (coll.addAndCheckReply cfg now reply sig).1) := hq.trans (.of_sent_eq rfl)
      dsimp only at h
      split_ifs at h
      · obtain ⟨hq₄, hcert, -⟩ := useCert_quiet h
        refine ⟨?_, .inl (hq₃.trans hq₄)⟩
        rcases hcert with hcert | ⟨seq, cert, ok, hcert⟩
        · exact .inl (hcert.trans hlog)
        · exact .inr ⟨seq, cert, ok, hlog ▸ hcert⟩
      · rcases useConflictProof_cases h with ⟨-, rfl⟩ | ⟨proof, -, h⟩
        · exact ⟨.inl hlog, .inl hq₃⟩
        · obtain ⟨-, m, -, -, -, -, rfl⟩ := startRepair_eq h
          exact ⟨.inl hlog, .inr ⟨_, _, hq₃, hlog, h⟩⟩

/-! ### The log outside repairs -/

lemma processClientRequest_grows {m : ClientRequestProto} {queued : Bool}
    (h : r.processClientRequest cfg now m queued = .ok r') : Quiet r r' ∧ r.log.Grows r'.log := by
  obtain ⟨hq, ⟨-, hlog⟩ | ⟨-, -, log, res, hadd, ⟨-, hlog⟩ | ⟨-, hset⟩⟩⟩ :=
    processClientRequest_cases h
  · exact ⟨hq, hlog ▸ .refl _⟩
  · exact ⟨hq, hlog ▸ (Log.Grows.refl _).addEntry hadd⟩
  · exact ⟨hq, ((Log.Grows.refl _).addEntry hadd).setDeadline hset⟩

lemma AtMostAddsCert.grows (h : AtMostAddsCert r r') : r.log.Grows r'.log := by
  rcases h with hlog | ⟨seq, cert, ok, hadd⟩
  · exact hlog ▸ .refl _
  · exact (Log.Grows.refl _).addCert hadd

omit [Application A] [PaddedRequestData] in
lemma processSnapshot_quiet {snapshot : AppSnapshot} {round : ℕ}
    (h : r.processSnapshot snapshot round = .ok r') : Quiet r r' ∧ r'.log = r.log := by
  rw [processSnapshot] at h
  split at h
  · cases h
    exact ⟨.refl r, rfl⟩
  · obtain ⟨hq, hlog, -⟩ := sendOwnCommit_quiet h
    exact ⟨(Quiet.of_sent_eq rfl).trans hq, hlog⟩

omit [Application A] [Sha256] [PaddedRequestData] in
lemma cleanStaleCollectors_quiet (h : r.cleanStaleCollectors = .ok r') :
    Quiet r r' ∧ r'.log = r.log := by
  obtain ⟨cs, -, h⟩ := bind_eq_ok.mp h
  cases pure_eq_ok.mp h
  exact ⟨.of_sent_eq rfl, rfl⟩

lemma commitCheckpoint_quiet {checkpoint : LogCheckpoint}
    (h : r.commitCheckpoint checkpoint = .ok r') : Quiet r r' ∧ r.log.Grows r'.log := by
  obtain ⟨log, hset, h⟩ := bind_eq_ok.mp h
  obtain ⟨hq, hlog⟩ := cleanStaleCollectors_quiet h
  refine ⟨(Quiet.of_sent_eq rfl).trans hq, ?_⟩
  rw [hlog]
  exact (Log.Grows.refl _).setCheckpoint hset

omit [Application A] [Sha256] [PaddedRequestData] in
lemma requestCheckpoint_quiet {checkpoint : LogCheckpoint}
    (h : r.requestCheckpoint cfg now checkpoint = .ok r') : Quiet r r' ∧ r'.log = r.log := by
  have hset : ∀ r₁ : Replica A, Quiet r r₁ ∧ r₁.log = r.log →
      Quiet r { r₁ with checkpointSnapshotRequested := true } ∧ r₁.log = r.log :=
    fun r₁ ⟨hq, hlog⟩ => ⟨hq.trans (.of_sent_eq rfl), hlog⟩
  rw [requestCheckpoint] at h
  split at h
  · cases h
  split_ifs at h
  · cases h
    exact ⟨.refl r, rfl⟩
  · obtain ⟨r₁, hsend, h⟩ := bind_eq_ok.mp h
    cases pure_eq_ok.mp h
    refine hset r₁ ⟨sendSnapshotRequest_quiet hsend, ?_⟩
    rw [(sendToReplica_eq hsend).2]
    rfl
  · obtain ⟨r₁, hsend, h⟩ := bind_eq_ok.mp h
    cases pure_eq_ok.mp h
    cases hsend
    exact hset r ⟨.refl r, rfl⟩

lemma useCheckpoint_quiet {coll : CheckpointCollector} (h : r.useCheckpoint cfg now coll = .ok r') :
    Quiet r r' ∧ r.log.Grows r'.log := by
  have hrequest : ∀ {cp}, r.requestCheckpoint cfg now cp = .ok r' →
      Quiet r r' ∧ r.log.Grows r'.log := by
    intro cp h
    obtain ⟨hq, hlog⟩ := requestCheckpoint_quiet h
    exact ⟨hq, hlog ▸ .refl _⟩
  obtain ⟨checkpoint, -, h⟩ := bind_eq_ok.mp h
  by_cases hnext : r.log.nextSeq ≤ checkpoint.seq
  · rw [if_pos hnext] at h
    exact hrequest h
  · rw [if_neg hnext] at h
    obtain ⟨digest, -, h⟩ := bind_eq_ok.mp h
    split_ifs at h
    · exact hrequest h
    · exact commitCheckpoint_quiet h
    · cases pure_eq_ok.mp h
      exact ⟨.refl r, .refl _⟩

lemma processCommit_quiet {commit : Commit} {sig : Bytes}
    (h : r.processCommit cfg now commit sig = .ok r') : Quiet r r' ∧ r.log.Grows r'.log := by
  obtain ⟨⟨r₁, ok⟩, hinit, h⟩ := bind_eq_ok.mp h
  obtain ⟨hq, hlog⟩ := initCollector_quiet hinit
  cases ok with
  | false =>
      cases pure_eq_ok.mp h
      exact ⟨hq, hlog ▸ .refl _⟩
  | true =>
      obtain ⟨coll, -, h⟩ := bind_eq_ok.mp h
      have hq₁ : ∀ coll, Quiet r (r₁.setCollector commit.round commit.seq coll) :=
        fun coll => hq.trans (.of_sent_eq rfl)
      dsimp only at h
      split_ifs at h
      · obtain ⟨hq₂, hgrows⟩ := useCheckpoint_quiet h
        exact ⟨(hq₁ _).trans hq₂, hlog ▸ hgrows⟩
      · cases pure_eq_ok.mp h
        exact ⟨hq₁ _, hlog ▸ .refl _⟩

omit [Application A] [PaddedRequestData] in
lemma processSnapshotRequest_quiet {request : SnapshotRequest}
    (h : r.processSnapshotRequest cfg request = .ok r') : Quiet r r' ∧ r'.log = r.log := by
  rw [processSnapshotRequest] at h
  split_ifs at h
  · cases h
    exact ⟨.refl r, rfl⟩
  · obtain ⟨reply, -, h⟩ := bind_eq_ok.mp h
    refine ⟨sendToReplica_quiet h id, ?_⟩
    rw [(sendToReplica_eq h).2]
    rfl

omit [Application A] [Sha256] [PaddedRequestData] in
lemma processMissingRequestFetch_quiet {fetch : MissingRequestFetch}
    (h : r.processMissingRequestFetch cfg fetch = .ok r') : Quiet r r' ∧ r'.log = r.log := by
  obtain ⟨entries, -, h⟩ := bind_eq_ok.mp h
  dsimp only at h
  split_ifs at h
  · cases pure_eq_ok.mp h
    exact ⟨.refl r, rfl⟩
  · refine ⟨sendToReplica_quiet h id, ?_⟩
    rw [(sendToReplica_eq h).2]
    rfl

/-! ### The parts of a repair that are quiet -/

omit [Application A] [Sha256] [PaddedRequestData] in
lemma sendRepairSummaryToClients_quiet (h : r.sendRepairSummaryToClients cfg = .ok r') :
    Quiet r r' ∧ r'.log = r.log := by
  obtain ⟨entries, -, h⟩ := bind_eq_ok.mp h
  refine foldlM_rel (P := fun a b : Replica A => Quiet a b ∧ b.log = a.log)
    (fun a => ⟨.refl a, rfl⟩) (fun a b c hab hbc => ⟨hab.1.trans hbc.1, hbc.2.trans hab.2⟩) ?_ h
  intro a c b _ hsend
  refine ⟨sendToClient_quiet hsend id, ?_⟩
  rw [sendToClient_eq hsend]
  rfl

omit [PaddedRequestData] in
lemma commitWithSnapshot_quiet {seq : ℕ} (h : r.commitWithSnapshot seq = .ok r') :
    Quiet r r' ∧ r'.log = r.log := by
  obtain ⟨digest, -, h⟩ := bind_eq_ok.mp h
  obtain ⟨⟨r₁, ok⟩, hinit, h⟩ := bind_eq_ok.mp h
  cases pure_eq_ok.mp h
  obtain ⟨hq, hlog⟩ := initCollector_quiet hinit
  exact ⟨hq.trans ((takeSnapshot_quiet r₁).trans (.send _ id)), hlog⟩

lemma commitRepair_quiet {seq : ℕ} (h : r.commitRepair seq = .ok r') :
    Quiet r r' ∧ r.log.Grows r'.log := by
  obtain ⟨digest, -, h⟩ := bind_eq_ok.mp h
  split at h
  · cases h
  split_ifs at h
  · cases h
    exact ⟨.refl r, .refl _⟩
  · obtain ⟨log, hset, h⟩ := bind_eq_ok.mp h
    cases pure_eq_ok.mp h
    exact ⟨.of_sent_eq rfl, (Log.Grows.refl _).setCheckpoint hset⟩

lemma processQueued_quiet {r r' : Replica A} (h : r.processQueued cfg now = .ok r') :
    ∃ r₁, Quiet r r₁ ∧ r.log.Grows r₁.log ∧
      r' = { r₁ with repairQueuedReqs := ∅, checkpointTimeoutStart := now } := by
  obtain ⟨r₁, hfold, h⟩ := bind_eq_ok.mp h
  have hr₁ := foldlM_rel (P := fun a b : Replica A => Quiet a b ∧ a.log.Grows b.log)
    (fun a => ⟨.refl a, .refl _⟩) (fun a b c hab hbc => ⟨hab.1.trans hbc.1, hab.2.trans hbc.2⟩)
    (fun a c b _ hreq => processClientRequest_grows hreq) hfold
  exact ⟨r₁, hr₁.1, hr₁.2, (pure_eq_ok.mp h).symm⟩

omit [Sha256] [PaddedRequestData] [Application A] in
/-- The replies are sent, and nothing else. -/
lemma resendReplies_eq {seqs : List ℕ} (h : seqs.foldlM (resendReply cfg) r = .ok r') :
    ∃ ms, (∀ x ∈ ms, ¬IsRepair x.2) ∧ r' = { r with sent := r.sent ++ ms } := by
  refine foldlM_rel
    (P := fun a b : Replica A => ∃ ms, (∀ x ∈ ms, ¬IsRepair x.2) ∧ b = { a with sent := a.sent ++ ms })
    (fun a => ⟨[], by simp, by rw [List.append_nil]⟩) ?_ ?_ h
  · rintro a b c ⟨ms, hms, rfl⟩ ⟨ms', hms', rfl⟩
    refine ⟨ms ++ ms', fun x hx => ?_, by rw [← List.append_assoc]⟩
    exact (List.mem_append.mp hx).elim (hms x) (hms' x)
  · intro a seq b _ hsend
    obtain ⟨entry, -, hsend⟩ := bind_eq_ok.mp hsend
    exact ⟨[_], by simp [IsRepair], sendToClient_eq hsend⟩

/-! ### Timers -/

omit [Application A] [Sha256] [PaddedRequestData] in
lemma checkCollector_quiet (cfg : Config) (now : ℕ) (r : Replica A) (key : ℕ × ℕ)
    (coll : CheckpointCollector) :
    Quiet r (r.checkCollector cfg now key coll) ∧
      (r.checkCollector cfg now key coll).log = r.log := by
  rw [checkCollector]
  dsimp only
  split_ifs
  · exact ⟨Quiet.trans (.of_sent_eq rfl) (.send _ id), rfl⟩
  · exact ⟨.of_sent_eq rfl, rfl⟩

omit [Sha256] [PaddedRequestData] in
lemma checkCheckpointTimeout_quiet (h : r.checkCheckpointTimeout cfg now = .ok r') :
    Quiet r r' ∧ r'.log = r.log := by
  rw [checkCheckpointTimeout] at h
  split_ifs at h
  · obtain ⟨r₁, hstart, h⟩ := bind_eq_ok.mp h
    cases pure_eq_ok.mp h
    obtain ⟨hq, hlog⟩ := startCheckpoint_quiet hstart
    exact ⟨hq.trans (.of_sent_eq rfl), hlog⟩
  · cases h
    exact ⟨.refl r, rfl⟩

end DomBft.Replica
