import DomBft.Repair.Apply
import DomBft.Replica.Frame

/-!
Where a replica tries to finish a repair, and where it does.

* `CallsTryFinish`: the three places that call `tryFinishRepair`, with the state in which they
  call it.
* `CallsFinish`: the two places that call `finishRepair`, with the state and the aborted
  requests.
* `processPBFTCommit_cases`, `processMissingRequestReply_cases`, `processDOMRequest_cases`: the
  handlers that call it.
* `IsRepairSuffix`: the suffix that a repair applies.
* `tryApply_cases`, `applySnapshot_cases`, `alignLog_cases`, `processSnapshotReply_cases`,
  `finishRepair_cases`: what these do.
-/

namespace DomBft.Replica

open Fallible

variable {A : Type} [Application A] [Sha256] [PaddedRequestData]
  {r r₁ r₂ r' : Replica A} {cfg : Config} {now : ℕ}

/-! ### The calls -/

/-- The replica in the state `r` takes an event and calls `tryFinishRepair` in the state `r₁`:
because of a quorum of commits, or because the missing requests are there. -/
inductive CallsTryFinish (cfg : Config) (r : Replica A) : ReplicaEvent → Replica A → Prop
  | committed {now : ℕ} {m : PBFTCommit} {sig : Bytes} {proposal : RepairProposal} :
      m.pbftView = r.pbftView → m.round = r.round →
      ¬(r.repairPBFTCommits[m.replicaId]?).any
        (fun m' => m.round < m'.round && m'.pbftView == m.pbftView) →
      r.repairProposal = some proposal → m.round ≤ proposal.round →
      r.preparedRound ≠ 2 ^ 32 - 1 → r.preparedRound = m.round → r.viewPrepared = true →
      cfg.quorumSize ≤ (r.addPBFTCommit m sig).countMatching
        (r.addPBFTCommit m sig).repairPBFTCommits
        (fun m => (m.round, m.proposalDigest, m.pbftView)) r.preparedRound →
      CallsTryFinish cfg r (.message now (.pbftCommit m) sig) (r.addPBFTCommit m sig)
  | fetched {now : ℕ} {reply : MissingRequestReply} {sig : Bytes} :
      r.round ≤ reply.round →
      (reply.requests.foldl addMissingRequest r).pendingMissingRequests = [] →
      (reply.requests.foldl addMissingRequest r).missingRequestFetchSent = true →
      CallsTryFinish cfg r (.message now (.missingRequestReply reply) sig)
        { reply.requests.foldl addMissingRequest r with missingRequestFetchSent := false }
  | queued {now deadline : ℕ} {m : ClientRequestProto} :
      r.repair = true → r.missingRequestFetchSent = true →
      (m.clientId, m.clientSeq) ∈ r.pendingMissingRequests →
      r.pendingMissingRequests.erase (m.clientId, m.clientSeq) = [] →
      CallsTryFinish cfg r (.request now deadline m)
        { r.queueRequest { m with deadline } with
          pendingMissingRequests := [], missingRequestFetchSent := false }

/-- The replica in the state `r` takes an event and calls `finishRepair` in the state `r₂`. -/
inductive CallsFinish (cfg : Config) (r : Replica A) :
    ReplicaEvent → Replica A → List ClientRequestProto → Prop
  | tried {e : ReplicaEvent} {r₁ r₂ : Replica A} {aborted : List ClientRequestProto} :
      CallsTryFinish cfg r e r₁ → r₁.tryApply cfg = .ok (r₂, some aborted) →
      CallsFinish cfg r e r₂ aborted
  | snapshot {now : ℕ} {reply : SnapshotReply} {sig : Bytes} {r₂ : Replica A}
      {aborted : List ClientRequestProto} :
      r.round ≤ reply.round → r.log.committedCheckpoint.seq < reply.seq → r.repair = true →
      r.applySnapshot cfg reply = .ok (r₂, some aborted) →
      CallsFinish cfg r (.message now (.snapshotReply reply) sig) r₂ aborted

lemma processPBFTCommit_cases {m : PBFTCommit} {sig : Bytes}
    (h : r.processPBFTCommit cfg now m sig = .ok r') :
    r' = r ∨ m.pbftView = r.pbftView ∧ m.round = r.round ∧
      (r' = r.addPBFTCommit m sig ∨
        CallsTryFinish cfg r (.message now (.pbftCommit m) sig) (r.addPBFTCommit m sig) ∧
          (r.addPBFTCommit m sig).tryFinishRepair cfg now = .ok r') := by
  rw [processPBFTCommit] at h
  by_cases hview : m.pbftView ≠ r.pbftView
  · rw [if_pos hview] at h
    exact .inl (Except.ok.inj h).symm
  by_cases hold : m.round < r.round
  · rw [if_neg hview, if_pos hold] at h
    exact .inl (Except.ok.inj h).symm
  by_cases hnew : r.round < m.round
  · rw [if_neg hview, if_neg hold, if_pos hnew] at h
    exact .inl (Except.ok.inj h).symm
  rw [if_neg hview, if_neg hold, if_neg hnew] at h
  by_cases hlater : (r.repairPBFTCommits[m.replicaId]?).any
      (fun m' => m.round < m'.round && m'.pbftView == m.pbftView) = true
  · rw [if_pos hlater] at h
    exact .inl (Except.ok.inj h).symm
  rw [if_neg hlater] at h
  dsimp only at h
  have hround : m.round = r.round := (not_lt.mp hnew).antisymm (not_lt.mp hold)
  refine .inr ⟨not_not.mp hview, hround, ?_⟩
  split at h
  · exact .inl (Except.ok.inj h).symm
  rename_i proposal hp
  split_ifs at h with hbefore hunprepared hfew
  · exact .inl (Except.ok.inj h).symm
  · exact .inl (Except.ok.inj h).symm
  · exact .inl (Except.ok.inj h).symm
  · simp only [not_or] at hunprepared
    obtain ⟨hmax, hprep, hvp⟩ := hunprepared
    have hvp' : (r.addPBFTCommit m sig).viewPrepared = true := by simpa using hvp
    exact .inr ⟨.committed (not_not.mp hview) hround hlater hp (not_lt.mp hbefore) hmax
      (not_not.mp hprep) hvp' (not_lt.mp hfew), h⟩

lemma processMissingRequestReply_cases {reply : MissingRequestReply}
    (h : r.processMissingRequestReply cfg now reply = .ok r') (sig : Bytes) :
    r' = r ∨ r' = reply.requests.foldl addMissingRequest r ∨
      CallsTryFinish cfg r (.message now (.missingRequestReply reply) sig)
          { reply.requests.foldl addMissingRequest r with missingRequestFetchSent := false } ∧
        { reply.requests.foldl addMissingRequest r with
          missingRequestFetchSent := false }.tryFinishRepair cfg now = .ok r' := by
  rw [processMissingRequestReply] at h
  dsimp only at h
  split_ifs at h with hold hready
  · exact .inl (Except.ok.inj h).symm
  · exact .inr (.inr ⟨.fetched (not_lt.mp hold) hready.1 hready.2, h⟩)
  · exact .inr (.inl (Except.ok.inj h).symm)

lemma processDOMRequest_cases {deadline : ℕ} {m : ClientRequestProto}
    (h : r.processDOMRequest cfg now deadline m = .ok r') :
    r.repair = false ∧ r.processClientRequest cfg now { m with deadline } = .ok r' ∨
      r.repair = true ∧
        ((∃ pending, r' = { r.queueRequest { m with deadline } with
            pendingMissingRequests := pending }) ∨
          CallsTryFinish cfg r (.request now deadline m)
              { r.queueRequest { m with deadline } with
                pendingMissingRequests := [], missingRequestFetchSent := false } ∧
            { r.queueRequest { m with deadline } with
              pendingMissingRequests := []
              missingRequestFetchSent := false }.tryFinishRepair cfg now = .ok r') := by
  rw [processDOMRequest] at h
  dsimp only at h
  by_cases hrepair : r.repair = true
  · refine .inr ⟨hrepair, ?_⟩
    rw [if_neg (by simpa using hrepair)] at h
    by_cases hpending : (r.queueRequest { m with deadline }).missingRequestFetchSent = true ∧
        (m.clientId, m.clientSeq) ∈ (r.queueRequest { m with deadline }).pendingMissingRequests
    · rw [if_pos hpending] at h
      split_ifs at h with hlast
      · rw [hlast] at h
        exact .inr ⟨.queued hrepair hpending.1 hpending.2 hlast, h⟩
      · exact .inl ⟨_, (Except.ok.inj h).symm⟩
    · rw [if_neg hpending] at h
      exact .inl ⟨_, (Except.ok.inj h).symm⟩
  · rw [if_pos (by simpa using hrepair)] at h
    exact .inl ⟨by simpa using hrepair, h⟩

/-- Where `tryFinishRepair` is called, the rest of the event is what it does. -/
lemma CallsTryFinish.handle_eq {e : ReplicaEvent} (h : r.CallsTryFinish cfg e r₁) :
    ∃ now, r.handle cfg e = r₁.tryFinishRepair cfg now := by
  cases h with
  | @committed now m sig proposal hview hround hlater hp hbefore hmax hprep hvp hmany =>
      refine ⟨now, ?_⟩
      rw [handle, process, processPBFTCommit, if_neg (not_not.mpr hview), if_neg hround.not_lt,
        if_neg hround.symm.not_lt, if_neg hlater]
      have hp' : (r.addPBFTCommit m sig).repairProposal = some proposal := hp
      have hready : ¬((r.addPBFTCommit m sig).preparedRound = 2 ^ 32 - 1 ∨
          (r.addPBFTCommit m sig).preparedRound ≠ m.round ∨
          !(r.addPBFTCommit m sig).viewPrepared) := by
        have hvp' : (r.addPBFTCommit m sig).viewPrepared = true := hvp
        simp only [not_or, hvp']
        exact ⟨hmax, not_not.mpr hprep, by decide⟩
      dsimp only
      split
      · rename_i hnone
        rw [hp'] at hnone
        cases hnone
      · rename_i proposal' hsome
        rw [hp'] at hsome
        cases hsome
        rw [if_neg hbefore.not_gt, if_neg hready]
        exact if_neg hmany.not_gt
  | @fetched now reply sig hround hnone hsent =>
      refine ⟨now, ?_⟩
      rw [handle, process, processMissingRequestReply, if_neg hround.not_gt]
      exact if_pos ⟨hnone, hsent⟩
  | @queued now deadline m hrepair hsent hmem hlast =>
      refine ⟨now, ?_⟩
      rw [handle, processDOMRequest]
      dsimp only
      rw [if_neg (by simpa using hrepair), if_pos ⟨hsent, hmem⟩]
      have hlast' : ((r.queueRequest { m with deadline }).pendingMissingRequests.erase
          (m.clientId, m.clientSeq)) = [] := hlast
      rw [if_pos hlast', hlast']

/-! ### The suffix -/

/-- A suffix that `getRepairLogSuffix` returns: that of an earlier call in the same round, or that
of the proposal. -/
def IsRepairSuffix (cfg : Config) (r : Replica A) (suffix : LogSuffix) : Prop :=
  r.repairProposalLogSuffix = some suffix ∧ suffix.round = r.round ∨
    ∃ proposal s, r.repairProposal = some proposal ∧ getLogSuffixFromProposal cfg proposal = .ok s ∧
      suffix = { s with replicaId := r.replicaId, round := r.round }

omit [Application A] [PaddedRequestData] in
lemma getRepairLogSuffix_cases {suffix : LogSuffix}
    (h : r.getRepairLogSuffix cfg = .ok (r', suffix)) :
    r' = { r with repairProposalLogSuffix := some suffix } ∧ r.IsRepairSuffix cfg suffix := by
  have hcompute : ∀ proposal, r.repairProposal = some proposal → (do
        let suffix ← getLogSuffixFromProposal cfg proposal
        let suffix := { suffix with replicaId := r.replicaId, round := r.round }
        return ({ r with repairProposal := some proposal, repairProposalLogSuffix := some suffix },
          suffix)) = .ok (r', suffix) →
      r' = { r with repairProposalLogSuffix := some suffix } ∧ r.IsRepairSuffix cfg suffix := by
    intro proposal hp h
    obtain ⟨s, hs, h⟩ := bind_eq_ok.mp h
    cases pure_eq_ok.mp h
    rw [← hp]
    exact ⟨rfl, .inr ⟨proposal, s, hp, hs, rfl⟩⟩
  rw [getRepairLogSuffix] at h
  by_cases hkept : ∃ s, r.repairProposalLogSuffix = some s ∧ s.round = r.round
  · obtain ⟨s, hs, hround⟩ := hkept
    rw [hs] at h
    dsimp only at h
    rw [if_pos hround] at h
    cases h
    refine ⟨?_, .inl ⟨hs, hround⟩⟩
    rw [← hs]
  · obtain hp | ⟨proposal, hp⟩ := Option.eq_none_or_eq_some r.repairProposal
    · rw [hp] at h
      cases hs : r.repairProposalLogSuffix with
      | none =>
          rw [hs] at h
          cases h
      | some s =>
          rw [hs] at h
          dsimp only at h
          rw [if_neg fun hround => hkept ⟨s, hs, hround⟩] at h
          cases h
    · refine hcompute proposal hp ?_
      rw [hp] at h
      cases hs : r.repairProposalLogSuffix with
      | none =>
          rw [hs] at h
          exact h
      | some s =>
          rw [hs] at h
          dsimp only at h
          rw [if_neg fun hround => hkept ⟨s, hs, hround⟩] at h
          exact h

/-- Where `applySuffix` returns `true`, the aborted requests are handed on; where it returns
`false`, the missing ones are fetched. -/
lemma applyProposal_cases {suffix : LogSuffix} {available : RequestMap Bytes}
    {aborted : List ClientRequestProto} {res : Option (List ClientRequestProto)}
    (h : r.applyProposal suffix available aborted = .ok (r', res)) :
    ∃ log missing, applySuffix suffix available r.log = .ok (log, missing) ∧
      (missing = none ∧ r' = { r with log } ∧ res = some aborted ∨
        ∃ ids, missing = some ids ∧ r' = { r with log }.sendMissingRequestFetch ids ∧
          res = none) := by
  obtain ⟨⟨log, missing⟩, happly, h⟩ := bind_eq_ok.mp h
  cases missing with
  | none =>
      cases pure_eq_ok.mp h
      exact ⟨log, none, happly, .inl ⟨rfl, rfl, rfl⟩⟩
  | some ids =>
      cases pure_eq_ok.mp h
      exact ⟨log, some ids, happly, .inr ⟨ids, rfl, rfl, rfl⟩⟩

omit [Application A] [Sha256] [PaddedRequestData] in
/-- A snapshot is requested unless one has been. -/
lemma requestSnapshot_cases {b : Bool} {i seq : ℕ} {res : Option (List ClientRequestProto)}
    (h : (if b = true then do
        let r₁ ← (.ok r : Except Fault (Replica A))
        return ({ r₁ with repairSnapshotRequested := true }, none)
      else do
        let r₁ ← r.sendSnapshotRequest cfg i seq
        return ({ r₁ with repairSnapshotRequested := true }, none)) = .ok (r', res)) :
    res = none ∧ ∃ sent, (∀ x ∈ sent, ¬IsRepair x.2) ∧
      r' = { r with repairSnapshotRequested := true, sent := r.sent ++ sent } := by
  split_ifs at h
  · cases pure_eq_ok.mp h
    exact ⟨rfl, [], by simp, by rw [List.append_nil]⟩
  · obtain ⟨r₁, hsend, h⟩ := bind_eq_ok.mp h
    cases pure_eq_ok.mp h
    rw [(sendToReplica_eq hsend).2]
    exact ⟨rfl, [_], by simp [IsRepair], rfl⟩

/-- **What `tryFinishRepair` does before `finishRepair`.**  If the proposal is that of the round
before, it has been applied already.  Otherwise its round becomes that of the replica, and the
suffix is applied if the log has its checkpoint; else a snapshot is requested. -/
lemma tryApply_cases {res : Option (List ClientRequestProto)} (h : r.tryApply cfg = .ok (r', res)) :
    ∃ suffix proposal, r.getRepairLogSuffix cfg =
        .ok ({ r with repairProposalLogSuffix := some suffix }, suffix) ∧
      r.repairProposal = some proposal ∧
      (proposal.round = (r.round + 2 ^ 32 - 1) % 2 ^ 32 ∧
          (∃ aborted, getAbortedEntries suffix r.log r.curRoundStartSeq = .ok aborted ∧
            r' = { r with repairProposalLogSuffix := some suffix } ∧ res = some aborted) ∨
        proposal.round ≠ (r.round + 2 ^ 32 - 1) % 2 ^ 32 ∧
          ((∃ aborted, getAbortedEntries suffix r.log r.curRoundStartSeq = .ok aborted ∧
            suffix.CheckpointHeld r.log ∧
            { r with
              repairProposalLogSuffix := some suffix
              round := proposal.round
              repairViewStart := 0 }.applyProposal suffix r.queuedRequests aborted =
                .ok (r', res)) ∨
          res = none ∧ r.log.committedCheckpoint.seq < suffix.checkpoint.seq ∧
            ∃ sent, (∀ x ∈ sent, ¬IsRepair x.2) ∧ r' = { r with
              repairProposalLogSuffix := some suffix
              round := proposal.round
              repairViewStart := 0
              repairSnapshotRequested := true
              sent := r.sent ++ sent })) := by
  obtain ⟨⟨r₁, suffix⟩, hsuffix, h⟩ := bind_eq_ok.mp h
  obtain ⟨rfl, -⟩ := getRepairLogSuffix_cases hsuffix
  dsimp only at h
  split at h
  · cases h
  rename_i proposal hp
  refine ⟨suffix, proposal, hsuffix, hp, ?_⟩
  by_cases hround : proposal.round = (r.round + 2 ^ 32 - 1) % 2 ^ 32
  · rw [if_pos hround] at h
    obtain ⟨aborted, haborted, h⟩ := bind_eq_ok.mp h
    cases pure_eq_ok.mp h
    exact .inl ⟨hround, aborted, haborted, rfl, rfl⟩
  refine .inr ⟨hround, ?_⟩
  rw [if_neg hround] at h
  by_cases hbehind : r.log.committedCheckpoint.seq < suffix.checkpoint.seq
  · rw [if_pos hbehind] at h
    by_cases hin : suffix.checkpoint.seq < r.log.nextSeq
    · rw [if_pos hin] at h
      obtain ⟨consistent, hsame, h⟩ := bind_eq_ok.mp h
      obtain ⟨digest, hdigest, rfl⟩ := map_eq_ok.mp hsame
      by_cases heq : suffix.checkpoint.logDigest = digest
      · rw [if_pos (by simpa using heq)] at h
        obtain ⟨aborted, haborted, h⟩ := bind_eq_ok.mp h
        exact .inl ⟨aborted, haborted, .inr ⟨hin, by rw [hdigest, heq]⟩, h⟩
      · rw [if_neg (by simpa using heq)] at h
        obtain ⟨hres, hr'⟩ := requestSnapshot_cases h
        exact .inr ⟨hres, hbehind, hr'⟩
    · rw [if_neg hin, ok_bind, if_neg (by decide)] at h
      obtain ⟨hres, hr'⟩ := requestSnapshot_cases h
      exact .inr ⟨hres, hbehind, hr'⟩
  · rw [if_neg hbehind] at h
    obtain ⟨aborted, haborted, h⟩ := bind_eq_ok.mp h
    exact .inl ⟨aborted, haborted, .inl (not_lt.mp hbehind), h⟩

/-- **What `processSnapshotReply` does in a repair before `finishRepair`.**  Nothing if the
snapshot has not been asked for and is not of a later round, or if it does not reach the
checkpoint of the suffix; otherwise the log is reset to it, and the suffix is applied. -/
lemma applySnapshot_cases {reply : SnapshotReply} {res : Option (List ClientRequestProto)}
    (h : r.applySnapshot cfg reply = .ok (r', res)) :
    res = none ∧ r' = r ∨
      (r.repairSnapshotRequested = true ∨ r.round < reply.round) ∧ r.repairProposal.isSome ∧
        ∃ suffix, r.getRepairLogSuffix cfg =
            .ok ({ r with repairProposalLogSuffix := some suffix }, suffix) ∧
          (reply.seq < suffix.checkpoint.seq ∧ res = none ∧
              r' = { r with repairProposalLogSuffix := some suffix } ∨
            suffix.checkpoint.seq ≤ reply.seq ∧ ∃ aborted available log r₁,
              getAbortedEntries suffix r.log r.curRoundStartSeq = .ok aborted ∧
              r.log.resetToSnapshot reply = .ok (log, true) ∧
              { r with repairProposalLogSuffix := some suffix, log }.cleanStaleCollectors = .ok r₁ ∧
              r₁.applyProposal suffix available aborted = .ok (r', res)) := by
  rw [applySnapshot] at h
  split_ifs at h with hold hproposal
  · cases h
    exact .inl ⟨rfl, rfl⟩
  · cases h
    exact .inl ⟨rfl, rfl⟩
  · refine .inr ⟨?_, by simpa [Option.isSome_iff_ne_none] using hproposal, ?_⟩
    · by_cases hreq : r.repairSnapshotRequested = true
      · exact .inl hreq
      · exact .inr (not_le.mp fun hle => hold ⟨by simpa using hreq, hle⟩)
    obtain ⟨⟨r₁, suffix⟩, hsuffix, h⟩ := bind_eq_ok.mp h
    obtain ⟨rfl, -⟩ := getRepairLogSuffix_cases hsuffix
    refine ⟨suffix, hsuffix, ?_⟩
    dsimp only at h
    by_cases hshort : reply.seq < suffix.checkpoint.seq
    · rw [if_pos hshort] at h
      cases pure_eq_ok.mp h
      exact .inl ⟨hshort, rfl, rfl⟩
    · rw [if_neg hshort] at h
      obtain ⟨aborted, haborted, h⟩ := bind_eq_ok.mp h
      obtain ⟨available, -, h⟩ := bind_eq_ok.mp h
      obtain ⟨⟨log, ok⟩, hreset, h⟩ := bind_eq_ok.mp h
      cases ok with
      | false => cases h
      | true =>
          obtain ⟨r₁, hclean, h⟩ := bind_eq_ok.mp h
          exact .inr ⟨not_lt.mp hshort, aborted, _, log, r₁, haborted, hreset, hclean, h⟩

/-- **What `alignLog` does**: the log is aligned with the snapshot, and replies are sent again. -/
lemma alignLog_cases {reply : SnapshotReply} (h : r.alignLog cfg reply = .ok r') :
    ∃ log r₁ ms, r.log.applySnapshotModifyLog reply = .ok (log, true) ∧
      { r with log, round := max r.round reply.round }.cleanStaleCollectors = .ok r₁ ∧
      (∀ x ∈ ms, ¬IsRepair x.2) ∧ r' = { r₁ with sent := r₁.sent ++ ms } := by
  obtain ⟨⟨log, ok⟩, hmodify, h⟩ := bind_eq_ok.mp h
  cases ok with
  | false => cases h
  | true =>
      obtain ⟨r₁, hclean, h⟩ := bind_eq_ok.mp h
      obtain ⟨ms, hms, heq⟩ := resendReplies_eq h
      exact ⟨log, r₁, ms, hmodify, hclean, hms, heq⟩

/-- **What `processSnapshotReply` does.**  A snapshot of an old round, or for an old position, is
not used; in a repair the snapshot is applied, and the repair may be finished; outside a repair
the log is aligned, unless that is switched off. -/
lemma processSnapshotReply_cases {reply : SnapshotReply}
    (h : r.processSnapshotReply cfg now reply = .ok r') :
    r' = r.clearSnapshotRequested ∨
      r.round ≤ reply.round ∧ r.log.committedCheckpoint.seq < reply.seq ∧
        (r.repair = true ∧ (r.applySnapshot cfg reply = .ok (r', none) ∨
            ∃ r₂ r₃ aborted, r.applySnapshot cfg reply = .ok (r₂, some aborted) ∧
              r₂.finishRepair cfg now aborted = .ok r₃ ∧
              r' = { r₃ with round := max r₃.round reply.round }.clearSnapshotRequested) ∨
          r.repair = false ∧ cfg.replicaSkipAlignment = false ∧
            ∃ r₁, r.alignLog cfg reply = .ok r₁ ∧ r' = r₁.clearSnapshotRequested) := by
  rw [processSnapshotReply] at h
  by_cases hold : reply.round < r.round
  · rw [if_pos hold] at h
    exact .inl (Except.ok.inj h).symm
  by_cases hdone : reply.seq ≤ r.log.committedCheckpoint.seq
  · rw [if_neg hold, if_pos hdone] at h
    exact .inl (Except.ok.inj h).symm
  rw [if_neg hold, if_neg hdone] at h
  by_cases hrepair : r.repair = true
  · rw [if_pos hrepair] at h
    refine .inr ⟨not_lt.mp hold, not_le.mp hdone, .inl ⟨hrepair, ?_⟩⟩
    obtain ⟨⟨r₂, res⟩, happly, h⟩ := bind_eq_ok.mp h
    cases res with
    | none =>
        cases pure_eq_ok.mp h
        exact .inl happly
    | some aborted =>
        obtain ⟨r₃, hfinish, h⟩ := bind_eq_ok.mp h
        exact .inr ⟨r₂, r₃, aborted, happly, hfinish, (pure_eq_ok.mp h).symm⟩
  · rw [if_neg hrepair] at h
    split_ifs at h with hskip
    · exact .inl (Except.ok.inj h).symm
    · obtain ⟨r₁, halign, h⟩ := bind_eq_ok.mp h
      exact .inr ⟨not_lt.mp hold, not_le.mp hdone, .inr ⟨Bool.eq_false_iff.mpr hrepair,
        Bool.eq_false_iff.mpr hskip, r₁, halign, (pure_eq_ok.mp h).symm⟩⟩

/-! ### The end of a repair -/

lemma checkpointRepair_quiet (h : r.checkpointRepair cfg = .ok r') :
    ∃ suffix, Quiet { r with repairProposalLogSuffix := some suffix } r' ∧ r.log.Grows r'.log := by
  obtain ⟨⟨r₁, suffix⟩, hsuffix, h⟩ := bind_eq_ok.mp h
  obtain ⟨rfl, -⟩ := getRepairLogSuffix_cases hsuffix
  refine ⟨suffix, ?_⟩
  dsimp only at h
  split_ifs at h
  · cases pure_eq_ok.mp h
    exact ⟨.refl _, .refl _⟩
  · obtain ⟨hq, hlog⟩ := commitWithSnapshot_quiet h
    exact ⟨hq, hlog ▸ .refl _⟩
  · exact commitRepair_quiet h

/-- **What `finishRepair` does**: the next round begins, the repair is left, and the requests
that have been waiting are processed; a pending repair is started. -/
lemma finishRepair_cases {aborted : List ClientRequestProto}
    (h : r.finishRepair cfg now aborted = .ok r') :
    ∃ suffix r₁ r₂, Quiet { r with
        round := (r.round + 1) % 2 ^ 32
        numConsecutiveViewChanges := 0
        repairProposalLogSuffix := some suffix } r₁ ∧ r.log.Grows r₁.log ∧
      Quiet (r₁.endRepair aborted) r₂ ∧ r₁.log.Grows r₂.log ∧
      (r₂.pendingRepair = false ∧
          r' = { r₂ with repairQueuedReqs := ∅, checkpointTimeoutStart := now } ∨
        r₂.pendingRepair = true ∧ { r₂ with
          repairQueuedReqs := ∅
          checkpointTimeoutStart := now
          pendingRepair := false }.startRepair cfg = .ok r') := by
  rw [finishRepair] at h
  dsimp only at h
  obtain ⟨r₀, hsummary, h⟩ := bind_eq_ok.mp h
  obtain ⟨hq₀, hlog₀⟩ := sendRepairSummaryToClients_quiet hsummary
  obtain ⟨r₁, hcheckpoint, h⟩ := bind_eq_ok.mp h
  obtain ⟨suffix, hq₁, hgrows₁⟩ := checkpointRepair_quiet hcheckpoint
  obtain ⟨r₃, hqueued, h⟩ := bind_eq_ok.mp h
  obtain ⟨r₂, hq₂, hgrows₂, rfl⟩ := processQueued_quiet hqueued
  refine ⟨suffix, r₁, r₂, (hq₀.setSuffix (some suffix)).trans hq₁, hlog₀ ▸ hgrows₁, hq₂,
    hgrows₂, ?_⟩
  split_ifs at h with hpending
  · exact .inr ⟨hpending, h⟩
  · cases pure_eq_ok.mp h
    exact .inl ⟨by simpa using hpending, rfl⟩

end DomBft.Replica
