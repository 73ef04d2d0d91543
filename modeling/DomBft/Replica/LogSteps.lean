import DomBft.Replica.Core

/-!
What an event does to the log of a replica.

* `UsesSnapshot`: the condition under which a snapshot reply replaces a part of the log.
* `LogStep`: the log grows as outside repairs, it takes a suffix, or it is reset.
* `LogStep.committed_le`: the committed position goes back for a snapshot only.
* `ledger`: the log with the snapshots and collectors of its checkpoints, which most of what
  belongs to a repair leaves alone; `handle_ledger`: which handlers an event calls that do not.
* `handle_log`: whatever a replica does with an event, its log makes a sequence of these steps.
-/

namespace DomBft.Replica

open Fallible

variable {A : Type} [Application A] [Sha256] [PaddedRequestData]
  {r₀ r r₁ r' : Replica A} {cfg : Config} {e : ReplicaEvent} {now : ℕ}

/-- `processSnapshotReply` gets to the point where the log is reset. -/
def UsesSnapshot (cfg : Config) (r : Replica A) (reply : SnapshotReply) : Prop :=
  r.round ≤ reply.round ∧ r.log.committedCheckpoint.seq < reply.seq ∧
    (r.repair = true ∧ (r.repairSnapshotRequested = true ∨ r.round < reply.round) ∧
        (∃ r₁ suffix, r.getRepairLogSuffix cfg = .ok (r₁, suffix) ∧
          suffix.checkpoint.seq ≤ reply.seq) ∨
      r.repair = false ∧ cfg.replicaSkipAlignment = false)

/-- What happens to the log of a replica that takes the event `e` in the state `r₀`. -/
inductive LogStep (cfg : Config) (r₀ : Replica A) (e : ReplicaEvent) : Log A → Log A → Prop
  | grows {l l' : Log A} : l.Grows l' → LogStep cfg r₀ e l l'
  | apply {l l' : Log A} {suffix : LogSuffix} {available : RequestMap Bytes}
      {missing : Option (List RequestId)} :
      r₀.IsRepairSuffix cfg suffix → applySuffix suffix available l = .ok (l', missing) →
      LogStep cfg r₀ e l l'
  | reset {now : ℕ} {reply : SnapshotReply} {sig : Bytes} {l' : Log A} :
      e = .message now (.snapshotReply reply) sig → r₀.UsesSnapshot cfg reply → r₀.repair = true →
      r₀.log.resetToSnapshot reply = .ok (l', true) → LogStep cfg r₀ e r₀.log l'
  | align {now : ℕ} {reply : SnapshotReply} {sig : Bytes} {l' : Log A} :
      e = .message now (.snapshotReply reply) sig → r₀.UsesSnapshot cfg reply → r₀.repair = false →
      r₀.log.applySnapshotModifyLog reply = .ok (l', true) → LogStep cfg r₀ e r₀.log l'

/-- What happens to the log of a replica that takes the event `e` in the state `r₀`. -/
def LogSteps (cfg : Config) (r₀ : Replica A) (e : ReplicaEvent) : Log A → Log A → Prop :=
  Relation.ReflTransGen (LogStep cfg r₀ e)

/-! ### The committed position -/

lemma addSuffix_checkpoints {available : RequestMap Bytes} {l l' : Log A} {seq : ℕ}
    {es : List LogEntryProto} (h : addSuffix available l seq es = .ok l') :
    l.SameCheckpoints l' := by
  induction es generalizing l seq with
  | nil =>
      cases Except.ok.inj h
      exact .refl _
  | cons e es ih =>
      rw [addSuffix] at h
      split_ifs at h
      split at h
      · cases h
      split_ifs at h
      obtain ⟨⟨l₁, res⟩, hadd, h⟩ := bind_eq_ok.mp h
      exact (Log.addEntry_checkpoints hadd).trans (ih h)

lemma applySuffix_checkpoints {suffix : LogSuffix} {available : RequestMap Bytes} {l l' : Log A}
    {missing : Option (List RequestId)}
    (h : applySuffix suffix available l = .ok (l', missing)) : l.SameCheckpoints l' := by
  obtain ⟨-, -, h⟩ := bind_eq_ok.mp h
  split_ifs at h
  · cases h
    exact .refl _
  obtain ⟨⟨seq, record, rest⟩, -, h⟩ := bind_eq_ok.mp h
  obtain ⟨available', -, h⟩ := bind_eq_ok.mp h
  obtain ⟨l₁, habort, h⟩ := bind_eq_ok.mp h
  have hcut : l.SameCheckpoints l₁ := (Log.abort_nextSeq habort).2
  dsimp only at h
  split_ifs at h
  · cases h
    exact hcut
  · obtain ⟨l₂, hadd, h⟩ := bind_eq_ok.mp h
    cases pure_eq_ok.mp h
    exact hcut.trans (addSuffix_checkpoints hadd)

/-- **No step takes the committed position back** except for a snapshot that is behind it. -/
lemma LogStep.committed_le {l l' : Log A} (h : LogStep cfg r₀ e l l')
    (hforward : ∀ now reply sig, e = .message now (.snapshotReply reply) sig →
      r₀.UsesSnapshot cfg reply → r₀.log.committedCheckpoint.seq ≤ reply.checkpoint.seq) :
    l.committedCheckpoint.seq ≤ l'.committedCheckpoint.seq := by
  cases h with
  | grows h => exact h.committed_le
  | apply _ h => rw [(applySuffix_checkpoints h).2]
  | reset hmsg huse _ h =>
      have hseq := (LogCheckpoint.ofProto_eq (Log.resetToSnapshot_committed h)).1
      rw [hseq]
      exact hforward _ _ _ hmsg huse
  | align hmsg huse _ h =>
      have hseq := (LogCheckpoint.ofProto_eq (Log.applySnapshotModifyLog_committed h)).1
      rw [hseq]
      exact hforward _ _ _ hmsg huse

lemma LogSteps.committed_le {l l' : Log A} (h : LogSteps cfg r₀ e l l')
    (hforward : ∀ now reply sig, e = .message now (.snapshotReply reply) sig →
      r₀.UsesSnapshot cfg reply → r₀.log.committedCheckpoint.seq ≤ reply.checkpoint.seq) :
    l.committedCheckpoint.seq ≤ l'.committedCheckpoint.seq := by
  induction h with
  | refl => exact le_rfl
  | tail _ hstep ih => exact ih.trans (hstep.committed_le hforward)

/-! ### What leaves the log alone -/

/-- The log, with the snapshots and the collectors of its checkpoints. -/
structure Ledger (A : Type) where
  log : Log A
  snapshotQueue : List (ℕ × AppSnapshot)
  checkpointCollectors : CheckpointCollectorStore

omit [Application A] [Sha256] [PaddedRequestData] in
/-- The part of the state that checkpoints are made of. -/
def ledger (r : Replica A) : Ledger A := ⟨r.log, r.snapshotQueue, r.checkpointCollectors⟩

omit [Application A] [Sha256] [PaddedRequestData] in
lemma sendToReplica_ledger {i : ℕ} {msg : Msg} (h : r.sendToReplica cfg i msg = .ok r') :
    r'.ledger = r.ledger := by
  rw [(sendToReplica_eq h).2]
  rfl

omit [Application A] [PaddedRequestData] in
lemma startRepair_ledger (h : r.startRepair cfg = .ok r') : r'.ledger = r.ledger := by
  obtain ⟨-, m, -, -, -, -, rfl⟩ := startRepair_eq h
  rfl

omit [Application A] [PaddedRequestData] in
lemma doPrePreparePhase_ledger (cfg : Config) (r : Replica A) (round : ℕ) :
    (r.doPrePreparePhase cfg round).ledger = r.ledger := by
  obtain ⟨digest, ms, heq⟩ := doPrePreparePhase_eq cfg r round
  rw [heq]
  rfl

omit [Application A] [PaddedRequestData] in
lemma startViewChange_ledger {v : ℕ} (h : r.startViewChange cfg v = .ok r') :
    r'.ledger = r.ledger := by
  obtain ⟨m, digest, ms, -, rfl⟩ := startViewChange_eq h
  rfl

omit [Application A] [PaddedRequestData] in
lemma updateReplicaView_ledger {id view round : ℕ}
    (h : r.updateReplicaView cfg now id view round = .ok r') : r'.ledger = r.ledger := by
  rcases updateReplicaView_cases h with rfl | ⟨-, rfl | ⟨-, -, hview⟩⟩
  · rfl
  · rfl
  · have hledger := startViewChange_ledger hview
    exact hledger

omit [Application A] [PaddedRequestData] in
lemma getRepairLogSuffix_ledger {suffix : LogSuffix}
    (h : r.getRepairLogSuffix cfg = .ok (r', suffix)) : r'.ledger = r.ledger := by
  rw [(getRepairLogSuffix_cases h).1]
  rfl

omit [Application A] [PaddedRequestData] in
lemma processPrePrepare_ledger {m : PBFTPrePrepare} (h : r.processPrePrepare cfg m = .ok r') :
    r'.ledger = r.ledger := by
  rcases processPrePrepare_cases h with rfl | ⟨-, -, -, s, suffix, -, -, rfl⟩
  · rfl
  · rfl

omit [Application A] [PaddedRequestData] in
lemma processPrepare_ledger {m : PBFTPrepare} {sig : Bytes}
    (h : r.processPrepare cfg m sig = .ok r') : r'.ledger = r.ledger := by
  rcases processPrepare_cases h with rfl | ⟨-, rfl | ⟨proposal, -, -, -, -, hcommit⟩⟩
  · rfl
  · rfl
  · obtain ⟨_, suffix, -, -, rfl⟩ := doCommitPhase_eq hcommit
    rfl

omit [Application A] [PaddedRequestData] in
lemma processRepairTimeout_log {m : RepairTimeout} {sig : Bytes}
    (h : r.processRepairTimeout cfg m sig = .ok r') : r'.log = r.log := by
  rcases processRepairTimeout_cases h with rfl | ⟨coll, -, rfl | ⟨proof, hstart⟩⟩
  · rfl
  · rfl
  · have hlog := congrArg Ledger.log (startRepair_ledger hstart)
    exact hlog

lemma announced_ledger {i v round : ℕ} {e : ReplicaEvent}
    (he : e.announcement = some (i, v, round)) (h : r.handle cfg e = .ok r') :
    r'.ledger = r.ledger := by
  obtain ⟨now, msg, sig, r₁, rfl, hview, hfollow⟩ := handle_announced he h
  rw [← updateReplicaView_ledger hview]
  cases hfollow with
  | waits => rfl
  | replyProof hstart =>
      have hledger := startRepair_ledger hstart
      exact hledger
  | timeoutProof hstart =>
      have hledger := startRepair_ledger hstart
      exact hledger

omit [Application A] [PaddedRequestData] in
lemma processRepairStart_ledger (cfg : Config) (r : Replica A) (m : RepairStart) (sig : Bytes) :
    (r.processRepairStart cfg m sig).ledger = r.ledger := by
  rcases processRepairStart_cases cfg r m sig with ⟨-, heq⟩ | ⟨-, -, heq⟩ | ⟨-, -, heq⟩
  · rw [heq]
  · rw [heq]
  rw [heq]
  split_ifs
  · exact doPrePreparePhase_ledger cfg _ _
  · rfl

/-! ### The end of a repair -/

omit [Application A] [Sha256] [PaddedRequestData] in
lemma foldl_addMissingRequest_same (reqs : List RequestData) (r : Replica A) :
    (reqs.foldl addMissingRequest r).ledger = r.ledger ∧
      (reqs.foldl addMissingRequest r).repairProposalLogSuffix = r.repairProposalLogSuffix := by
  induction reqs generalizing r with
  | nil => exact ⟨rfl, rfl⟩
  | cons req reqs ih =>
      have hreq : (r.addMissingRequest req).ledger = r.ledger ∧
          (r.addMissingRequest req).repairProposalLogSuffix = r.repairProposalLogSuffix := by
        rw [addMissingRequest]
        split_ifs
        · exact ⟨rfl, rfl⟩
        · exact ⟨rfl, rfl⟩
      obtain ⟨hledger, hsuffix⟩ := ih (r.addMissingRequest req)
      exact ⟨hledger.trans hreq.1, hsuffix.trans hreq.2⟩

omit [Application A] [Sha256] [PaddedRequestData] in
/-- What has not changed when `tryFinishRepair` is called. -/
lemma CallsTryFinish.same (h : r.CallsTryFinish cfg e r₁) :
    r₁.round = r.round ∧ r₁.repairProposal = r.repairProposal ∧ r₁.ledger = r.ledger ∧
      r₁.replicaId = r.replicaId ∧ r₁.repairProposalLogSuffix = r.repairProposalLogSuffix := by
  cases h with
  | committed => exact ⟨rfl, rfl, rfl, rfl, rfl⟩
  | @fetched now reply sig =>
      have hcore := foldl_addMissingRequest_core reply.requests r
      obtain ⟨hledger, hsuffix⟩ := foldl_addMissingRequest_same reply.requests r
      exact ⟨congrArg Core.round hcore, congrArg Core.repairProposal hcore, hledger,
        congrArg Core.replicaId hcore, hsuffix⟩
  | queued => exact ⟨rfl, rfl, rfl, rfl, rfl⟩

omit [Application A] [PaddedRequestData] in
lemma CallsTryFinish.isRepairSuffix {suffix : LogSuffix} (hcall : r.CallsTryFinish cfg e r₁)
    (h : r₁.getRepairLogSuffix cfg = .ok (r', suffix)) : r.IsRepairSuffix cfg suffix := by
  obtain ⟨hround, hproposal, -, hid, hsuffix⟩ := hcall.same
  obtain ⟨-, hkept | hnew⟩ := getRepairLogSuffix_cases h
  · rw [hsuffix, hround] at hkept
    exact .inl hkept
  · rw [hproposal, hround, hid] at hnew
    exact .inr hnew

lemma applyProposal_log {suffix : LogSuffix} {available : RequestMap Bytes}
    {aborted : List ClientRequestProto} {res : Option (List ClientRequestProto)}
    (h : r.applyProposal suffix available aborted = .ok (r', res)) :
    ∃ missing, applySuffix suffix available r.log = .ok (r'.log, missing) := by
  obtain ⟨log, missing, happly, ⟨-, rfl, -⟩ | ⟨ids, -, rfl, -⟩⟩ := applyProposal_cases h
  · exact ⟨missing, happly⟩
  · refine ⟨missing, ?_⟩
    rw [sendMissingRequestFetch]
    split_ifs
    · exact happly
    · exact happly

lemma tryApply_log {res : Option (List ClientRequestProto)} (hcall : CallsTryFinish cfg r₀ e r₁)
    (h : r₁.tryApply cfg = .ok (r', res)) : LogSteps cfg r₀ e r₁.log r'.log := by
  obtain ⟨suffix, proposal, hsuffix, -, ⟨-, aborted, -, rfl, -⟩ | ⟨-, hrest⟩⟩ := tryApply_cases h
  · exact .refl
  rcases hrest with ⟨aborted, -, -, happly⟩ | ⟨-, -, sent, -, rfl⟩
  · obtain ⟨missing, happly⟩ := applyProposal_log happly
    exact .single (.apply (hcall.isRepairSuffix hsuffix) happly)
  · exact .refl

lemma finishRepair_log {aborted : List ClientRequestProto}
    (h : r.finishRepair cfg now aborted = .ok r') : r.log.Grows r'.log := by
  obtain ⟨suffix, r₁, r₂, -, hgrows, -, hgrows', hend⟩ := finishRepair_cases h
  have hlog : r'.log = r₂.log := by
    rcases hend with ⟨-, rfl⟩ | ⟨-, hstart⟩
    · rfl
    · have hlog := congrArg Ledger.log (startRepair_ledger hstart)
      exact hlog
  rw [hlog]
  exact hgrows.trans hgrows'

lemma tryFinishRepair_log (hcall : CallsTryFinish cfg r₀ e r₁)
    (h : r₁.tryFinishRepair cfg now = .ok r') : LogSteps cfg r₀ e r₀.log r'.log := by
  obtain ⟨⟨r₂, res⟩, happly, h⟩ := bind_eq_ok.mp h
  have hsteps := tryApply_log hcall happly
  have hlog : r₁.log = r₀.log := congrArg Ledger.log hcall.same.2.2.1
  rw [hlog] at hsteps
  cases res with
  | none =>
      cases pure_eq_ok.mp h
      exact hsteps
  | some aborted => exact hsteps.tail (.grows (finishRepair_log h))

/-! ### Snapshots -/

lemma applySnapshot_log {reply : SnapshotReply} {sig : Bytes}
    {res : Option (List ClientRequestProto)} (hold : r.round ≤ reply.round)
    (hahead : r.log.committedCheckpoint.seq < reply.seq) (hrepair : r.repair = true)
    (h : r.applySnapshot cfg reply = .ok (r', res)) :
    LogSteps cfg r (.message now (.snapshotReply reply) sig) r.log r'.log := by
  rcases applySnapshot_cases h with ⟨-, rfl⟩ | ⟨hwanted, -, suffix, hsuffix, ⟨-, -, rfl⟩ |
      ⟨hreach, aborted, available, log, r₁, -, hreset, hclean, happly⟩⟩
  · exact .refl
  · exact .refl
  · have huse : r.UsesSnapshot cfg reply :=
      ⟨hold, hahead, .inl ⟨hrepair, hwanted, _, suffix, hsuffix, hreach⟩⟩
    obtain ⟨missing, happly⟩ := applyProposal_log happly
    rw [(cleanStaleCollectors_quiet hclean).2] at happly
    exact (Relation.ReflTransGen.single (.reset rfl huse hrepair hreset)).tail
      (.apply (getRepairLogSuffix_cases hsuffix).2 happly)

lemma alignLog_log {reply : SnapshotReply} (h : r.alignLog cfg reply = .ok r') :
    r.log.applySnapshotModifyLog reply = .ok (r'.log, true) := by
  obtain ⟨log, r₁, ms, hmodify, hclean, -, rfl⟩ := alignLog_cases h
  have hlog : r₁.log = log := (cleanStaleCollectors_quiet hclean).2
  rw [← hlog] at hmodify
  exact hmodify

lemma processSnapshotReply_log {reply : SnapshotReply} {sig : Bytes}
    (h : r.processSnapshotReply cfg now reply = .ok r') :
    LogSteps cfg r (.message now (.snapshotReply reply) sig) r.log r'.log := by
  rcases processSnapshotReply_cases h with rfl | ⟨hold, hdone, ⟨hrepair, happly |
      ⟨r₂, r₃, aborted, happly, hfinish, rfl⟩⟩ | ⟨hrepair, hskip, r₁, halign, rfl⟩⟩
  · exact .refl
  · exact applySnapshot_log hold hdone hrepair happly
  · have hgrows : r₂.log.Grows r₃.log := finishRepair_log hfinish
    exact (applySnapshot_log hold hdone hrepair happly).tail (.grows hgrows)
  · have huse : r.UsesSnapshot cfg reply := ⟨hold, hdone, .inr ⟨hrepair, hskip⟩⟩
    have hlog := alignLog_log halign
    exact .single (.align rfl huse hrepair hlog)

/-! ### All events -/

lemma processReply_log {reply : Reply} {sig : Bytes}
    (h : r.processReply cfg now reply sig = .ok r') : r.log.Grows r'.log :=
  (processReply_cases h).1.grows

omit [PaddedRequestData] in
lemma checkTimeouts_log (h : r.checkTimeouts cfg now = .ok r') : r'.log = r.log := by
  obtain ⟨r₁, -, -, hlog, rfl | ⟨-, hview⟩⟩ := checkTimeouts_cases h
  · exact hlog
  · have hsame := congrArg Ledger.log (startViewChange_ledger hview)
    exact hsame.trans hlog

/-- What an event does to the ledger: nothing, or one of these handlers has been called. -/
inductive LedgerStep (cfg : Config) (r r' : Replica A) : ReplicaEvent → Prop
  | same {e : ReplicaEvent} (h : r'.ledger = r.ledger) : LedgerStep cfg r r' e
  | clientRequest {e : ReplicaEvent} {now : ℕ} {m : ClientRequestProto}
      (h : r.processClientRequest cfg now m = .ok r') : LedgerStep cfg r r' e
  | snapshot {round : ℕ} {snapshot : AppSnapshot} {queue : List (ℕ × AppSnapshot)}
      (hqueue : r.snapshotQueue = (round, snapshot) :: queue)
      (h : { r with snapshotQueue := queue }.processSnapshot snapshot round = .ok r') :
      LedgerStep cfg r r' .snapshot
  | timeouts {now : ℕ} (h : r.checkTimeouts cfg now = .ok r') : LedgerStep cfg r r' (.timeouts now)
  | cert {now : ℕ} {m : Cert} {sig : Bytes} (h : r.processCert cfg m = .ok r') :
      LedgerStep cfg r r' (.message now (.cert m) sig)
  | reply {now : ℕ} {m : Reply} {sig : Bytes} (h : r.processReply cfg now m sig = .ok r') :
      LedgerStep cfg r r' (.message now (.reply m) sig)
  | commit {now : ℕ} {m : Commit} {sig : Bytes} (h : r.processCommit cfg now m sig = .ok r') :
      LedgerStep cfg r r' (.message now (.commit m) sig)
  | snapshotReply {now : ℕ} {m : SnapshotReply} {sig : Bytes}
      (h : r.processSnapshotReply cfg now m = .ok r') :
      LedgerStep cfg r r' (.message now (.snapshotReply m) sig)
  | repairTimeout {now : ℕ} {m : RepairTimeout} {sig : Bytes}
      (h : r.processRepairTimeout cfg m sig = .ok r') :
      LedgerStep cfg r r' (.message now (.repairTimeout m) sig)
  | finish {e : ReplicaEvent} {now : ℕ} {r₁ : Replica A} (hcall : CallsTryFinish cfg r e r₁)
      (h : r₁.tryFinishRepair cfg now = .ok r') : LedgerStep cfg r r' e

lemma handle_ledger (h : r.handle cfg e = .ok r') : LedgerStep cfg r r' e := by
  cases e with
  | request now deadline m =>
      rcases processDOMRequest_cases h with ⟨-, h⟩ | ⟨-, ⟨pending, rfl⟩ | ⟨hcall, htry⟩⟩
      · exact .clientRequest h
      · exact .same rfl
      · exact .finish hcall htry
  | snapshot =>
      rw [handle] at h
      split at h
      · exact .same (congrArg ledger (Except.ok.inj h)).symm
      · exact .snapshot (by assumption) h
  | timeouts now => exact .timeouts h
  | message now msg sig =>
      cases msg with
      | clientRequest m => exact .clientRequest h
      | cert m => exact .cert h
      | reply m => exact .reply h
      | commit m => exact .commit h
      | snapshotReply m => exact .snapshotReply h
      | repairTimeout m => exact .repairTimeout h
      | snapshotRequest m =>
          have h' : r.processSnapshotRequest cfg m = .ok r' := h
          rw [processSnapshotRequest] at h'
          split_ifs at h'
          · exact .same (congrArg ledger (Except.ok.inj h')).symm
          · obtain ⟨reply, -, hsend⟩ := bind_eq_ok.mp h'
            exact .same (sendToReplica_ledger hsend)
      | missingRequestFetch m =>
          obtain ⟨entries, -, h'⟩ := bind_eq_ok.mp h
          dsimp only at h'
          split_ifs at h'
          · exact .same (congrArg ledger (Except.ok.inj h')).symm
          · exact .same (sendToReplica_ledger h')
      | missingRequestReply m =>
          rcases processMissingRequestReply_cases h sig with rfl | rfl | ⟨hcall, htry⟩
          · exact .same rfl
          · exact .same (foldl_addMissingRequest_same m.requests r).1
          · exact .finish hcall htry
      | repairReplyProof m => exact .same (announced_ledger rfl h)
      | repairTimeoutProof m => exact .same (announced_ledger rfl h)
      | viewUpdate m => exact .same (announced_ledger rfl h)
      | repairStart m =>
          cases Except.ok.inj h
          exact .same (processRepairStart_ledger cfg r m sig)
      | prePrepare m => exact .same (processPrePrepare_ledger h)
      | prepare m => exact .same (processPrepare_ledger h)
      | pbftCommit m =>
          rcases processPBFTCommit_cases h with rfl | ⟨-, -, rfl | ⟨hcall, htry⟩⟩
          · exact .same rfl
          · exact .same rfl
          · exact .finish hcall htry
      | domRequest => exact .same (congrArg ledger (Except.ok.inj h)).symm
      | certReply => exact .same (congrArg ledger (Except.ok.inj h)).symm
      | committedReply => exact .same (congrArg ledger (Except.ok.inj h)).symm
      | repairSummary => exact .same (congrArg ledger (Except.ok.inj h)).symm

/-- **What an event does to the log** is a sequence of the steps. -/
theorem handle_log (h : r.handle cfg e = .ok r') : LogSteps cfg r e r.log r'.log := by
  have hsame : r'.log = r.log → LogSteps cfg r e r.log r'.log := by
    intro hlog
    rw [hlog]
    exact .refl
  replace h := handle_ledger h
  cases h with
  | same hledger => exact hsame (congrArg Ledger.log hledger)
  | clientRequest h => exact .single (.grows (processClientRequest_grows h).2)
  | snapshot _ h =>
      have hlog := (processSnapshot_quiet h).2
      exact hsame hlog
  | timeouts h => exact hsame (checkTimeouts_log h)
  | cert h => exact .single (.grows (processCert_quiet h).2.grows)
  | reply h => exact .single (.grows (processReply_log h))
  | commit h => exact .single (.grows (processCommit_quiet h).2)
  | snapshotReply h => exact processSnapshotReply_log h
  | repairTimeout h => exact hsame (processRepairTimeout_log h)
  | finish hcall h => exact tryFinishRepair_log hcall h

end DomBft.Replica
