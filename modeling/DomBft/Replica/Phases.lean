import DomBft.Replica.Finish

/-!
What the handlers of the agreement do, each said once.

* `doPrePreparePhase_eq`, `doPreparePhase_eq`, `doCommitPhase_eq`: what the phases change.
* `Accepts`, `storeStart`, `processRepairStart_cases`; `processPrePrepare_cases`;
  `TakesPrepare`, `processPrepare_cases`: the handlers of their messages.
* `learnView`, `updateReplicaView_cases`: learning the view of another replica.
* `handle_announced`: the messages that a view is learned from, and what follows.
* `processRepairTimeout_cases`: the timeouts of the others.
-/

namespace DomBft

open Std (ExtTreeMap)
open Fallible

/-- The replica, view and round that a message names, if it is one that `updateReplicaView`
learns from. -/
def ReplicaEvent.announcement : ReplicaEvent → Option (ℕ × ℕ × ℕ)
  | .message _ (.viewUpdate m) _ => some (m.replicaId, m.view, m.round)
  | .message _ (.repairReplyProof m) _ => some (m.replicaId, m.view, m.round)
  | .message _ (.repairTimeoutProof m) _ => some (m.replicaId, m.view, m.round)
  | _ => none

namespace Replica

variable {A : Type} {r r' r₁ : Replica A} {cfg : Config} {e : ReplicaEvent} {sig : Bytes} {now : ℕ}

/-! ### The phases -/

section

variable [Sha256]

/-- A proposal is sent, and its digest is remembered. -/
lemma doPrePreparePhase_eq (cfg : Config) (r : Replica A) (round : ℕ) :
    ∃ digest ms, r.doPrePreparePhase cfg round =
      { r with proposalDigest := digest, sent := r.sent ++ ms } := by
  rw [doPrePreparePhase]
  dsimp only
  split_ifs
  · exact ⟨r.proposalDigest, [], by rw [List.append_nil]⟩
  · exact ⟨r.proposalDigest, _, rfl⟩
  · exact ⟨_, _, rfl⟩

/-- A prepare is sent for the proposal that has been accepted. -/
lemma doPreparePhase_eq (h : r.doPreparePhase cfg = .ok r') :
    ∃ proposal suffix, r.repairProposal = some proposal ∧ r.IsRepairSuffix cfg suffix ∧
      r' = { r with repairProposalLogSuffix := some suffix }.broadcastToReplicas (.prepare {
        replicaId := r.replicaId
        round := proposal.round
        pbftView := r.pbftView
        proposalDigest := r.proposalDigest
        logDigest := suffix.logDigest }) := by
  rw [doPreparePhase] at h
  split at h
  · cases h
  rename_i proposal hp
  obtain ⟨⟨r₁, suffix⟩, hsuffix, h⟩ := bind_eq_ok.mp h
  cases pure_eq_ok.mp h
  obtain ⟨rfl, hrepair⟩ := getRepairLogSuffix_cases hsuffix
  exact ⟨proposal, suffix, hp, hrepair, rfl⟩

/-- A commit is sent for the proposal that has been accepted. -/
lemma doCommitPhase_eq (h : r.doCommitPhase cfg = .ok r') :
    ∃ proposal suffix, r.repairProposal = some proposal ∧ r.IsRepairSuffix cfg suffix ∧
      r' = { r with repairProposalLogSuffix := some suffix }.broadcastToReplicas (.pbftCommit {
        replicaId := r.replicaId
        round := proposal.round
        pbftView := r.pbftView
        proposalDigest := r.proposalDigest
        logDigest := suffix.logDigest }) := by
  rw [doCommitPhase] at h
  split at h
  · cases h
  rename_i proposal hp
  obtain ⟨⟨r₁, suffix⟩, hsuffix, h⟩ := bind_eq_ok.mp h
  cases pure_eq_ok.mp h
  obtain ⟨rfl, hrepair⟩ := getRepairLogSuffix_cases hsuffix
  exact ⟨proposal, suffix, hp, hrepair, rfl⟩

/-! ### Start messages -/

omit [Sha256] in
/-- A start message is accepted: it is for a view of this replica, and its round is not over. -/
def Accepts (cfg : Config) (r : Replica A) (m : RepairStart) : Prop :=
  m.pbftView % cfg.numReplicas = r.replicaId ∧ r.round ≤ m.round

instance (cfg : Config) (r : Replica A) (m : RepairStart) : Decidable (r.Accepts cfg m) := by
  unfold Accepts
  infer_instance

/-- A start message is stored. -/
def storeStart (r : Replica A) (m : RepairStart) (sig : Bytes) : Replica A :=
  { r with
    repairStartMsgs := r.repairStartMsgs.insert m.replicaId m
    repairHistorySigs := r.repairHistorySigs.insert m.replicaId sig }

/-- **What `processRepairStart` does.** -/
lemma processRepairStart_cases (cfg : Config) (r : Replica A) (m : RepairStart) (sig : Bytes) :
    ¬r.Accepts cfg m ∧ r.processRepairStart cfg m sig = r ∨
    r.Accepts cfg m ∧ (∃ m', r.repairStartMsgs[m.replicaId]? = some m' ∧ m.round ≤ m'.round) ∧
      r.processRepairStart cfg m sig = r ∨
    r.Accepts cfg m ∧ (∀ m', r.repairStartMsgs[m.replicaId]? = some m' → m'.round < m.round) ∧
      r.processRepairStart cfg m sig =
        if r.isPrimary cfg = true ∧ ((r.storeStart m sig).repairStartMsgs.toList.filter
            fun (_, m') => m'.round = m.round).length = cfg.quorumSize then
          (r.storeStart m sig).doPrePreparePhase cfg m.round
        else r.storeStart m sig := by
  rw [processRepairStart]
  by_cases hdst : m.pbftView % cfg.numReplicas ≠ r.replicaId
  · exact .inl ⟨fun h => hdst h.1, if_pos hdst⟩
  by_cases hold : m.round < r.round
  · exact .inl ⟨fun h => h.2.not_gt hold, by rw [if_neg hdst, if_pos hold]⟩
  rw [if_neg hdst, if_neg hold]
  have haccept : r.Accepts cfg m := ⟨not_not.mp hdst, not_lt.mp hold⟩
  by_cases hlater : (r.repairStartMsgs[m.replicaId]?).any (fun m' => decide (m.round ≤ m'.round))
  · obtain ⟨m', hm', hle⟩ := (Option.any_eq_true _ _).mp hlater
    exact .inr (.inl ⟨haccept, ⟨m', hm', of_decide_eq_true hle⟩, if_pos hlater⟩)
  refine .inr (.inr ⟨haccept, fun m' hm' => ?_, ?_⟩)
  · rw [hm'] at hlater
    simpa using hlater
  · rw [if_neg hlater]
    simp only [Bool.and_eq_true, beq_iff_eq]
    rfl

/-! ### Proposals and prepares -/

/-- **What `processPrePrepare` does.** -/
lemma processPrePrepare_cases {m : PBFTPrePrepare} (h : r.processPrePrepare cfg m = .ok r') :
    r' = r ∨ m.round = r.round ∧ m.pbftView = r.pbftView ∧ m.primaryId = r.getPrimary cfg ∧
      ∃ s suffix, getLogSuffixFromProposal cfg m.proposal = .ok s ∧
        suffix = { s with replicaId := r.replicaId, round := r.round } ∧ r' = { r with
          repairProposal := some m.proposal
          repairProposalLogSuffix := some suffix
          proposalDigest := m.proposalDigest }.broadcastToReplicas (.prepare {
            replicaId := r.replicaId
            round := m.proposal.round
            pbftView := r.pbftView
            proposalDigest := m.proposalDigest
            logDigest := suffix.logDigest }) := by
  rw [processPrePrepare] at h
  split_ifs at h with hold hnew hview hprimary
  · exact .inl (Except.ok.inj h).symm
  · exact .inl (Except.ok.inj h).symm
  · exact .inl (Except.ok.inj h).symm
  · exact .inl (Except.ok.inj h).symm
  · obtain ⟨proposal, suffix, hp, hrepair, heq⟩ := doPreparePhase_eq h
    cases hp
    -- no suffix is kept for the new proposal
    obtain ⟨hkept, -⟩ | ⟨proposal, s, hp, hs, hsuffix⟩ := hrepair
    · cases hkept
    cases hp
    exact .inr ⟨(not_lt.mp hnew).antisymm (not_lt.mp hold), not_not.mp hview,
      (not_not.mp hprimary).symm, s, suffix, hs, hsuffix, heq⟩

omit [Sha256] in
/-- A prepare is stored: it is of the view, not of an old round once the replica is prepared, not
of a later round, and the sender has not sent one for a later round. -/
structure TakesPrepare (r : Replica A) (m : PBFTPrepare) : Prop where
  view : m.pbftView = r.pbftView
  notOld : ¬(m.round < r.round ∧ r.viewPrepared)
  notFuture : m.round ≤ r.round
  latest : ∀ m', r.repairPrepares[m.replicaId]? = some m' → m.round < m'.round →
    m'.pbftView ≠ m.pbftView

/-- **What `processPrepare` does.** -/
lemma processPrepare_cases {m : PBFTPrepare} (h : r.processPrepare cfg m sig = .ok r') :
    r' = r ∨ r.TakesPrepare m ∧ (r' = r.addPrepare m sig ∨ ∃ proposal,
      ¬(r.viewPrepared = true ∧ r.preparedRound = m.round) ∧ r.repairProposal = some proposal ∧
        m.round ≤ proposal.round ∧
        cfg.quorumSize ≤ (r.addPrepare m sig).countMatching (r.addPrepare m sig).repairPrepares
          (fun m => (m.round, m.proposalDigest, m.pbftView)) proposal.round ∧
        ((r.addPrepare m sig).setPrepared proposal).doCommitPhase cfg = .ok r') := by
  rw [processPrepare] at h
  by_cases hview : m.pbftView ≠ r.pbftView
  · rw [if_pos hview] at h
    exact .inl (Except.ok.inj h).symm
  by_cases hold : m.round < r.round ∧ r.viewPrepared
  · rw [if_neg hview, if_pos hold] at h
    exact .inl (Except.ok.inj h).symm
  by_cases hfuture : r.round < m.round
  · rw [if_neg hview, if_neg hold, if_pos hfuture] at h
    exact .inl (Except.ok.inj h).symm
  rw [if_neg hview, if_neg hold, if_neg hfuture] at h
  by_cases hlater : (r.repairPrepares[m.replicaId]?).any
      (fun m' => m.round < m'.round && m'.pbftView == m.pbftView) = true
  · rw [if_pos hlater] at h
    exact .inl (Except.ok.inj h).symm
  rw [if_neg hlater] at h
  have htakes : r.TakesPrepare m := by
    refine ⟨not_not.mp hview, hold, not_lt.mp hfuture, fun m' hm' hlt heq => hlater ?_⟩
    simp [hm', hlt, heq]
  refine .inr ⟨htakes, ?_⟩
  dsimp only at h
  by_cases hdone : (r.addPrepare m sig).viewPrepared = true ∧
      (r.addPrepare m sig).preparedRound = m.round
  · rw [if_pos hdone] at h
    exact .inl (Except.ok.inj h).symm
  rw [if_neg hdone] at h
  split at h
  · exact .inl (Except.ok.inj h).symm
  rename_i proposal hp
  split_ifs at h with hbefore hfew
  · exact .inl (Except.ok.inj h).symm
  · exact .inl (Except.ok.inj h).symm
  · exact .inr ⟨proposal, hdone, hp, not_lt.mp hbefore, not_lt.mp hfew, h⟩

/-! ### Views -/

omit [Sha256] in
/-- The views of a map that are higher than that of the replica. -/
def higherViews (r : Replica A) (views : ExtTreeMap ℕ (ℕ × ℕ) compare) : List ℕ :=
  (views.toList.map (·.2.1)).filter (r.pbftView < ·)

/-- A replica that has learned the view and the round of another one. -/
def learnView (cfg : Config) (now : ℕ) (r : Replica A) (id view round : ℕ) : Replica A :=
  let replicaViews := r.replicaViews.insert id (view, round)
  { r with
    replicaViews
    repairViewStart :=
      if cfg.quorumSize ≤
          (replicaViews.toList.filter fun (_, v) => v = (r.pbftView, r.round)).length then now
      else r.repairViewStart }

/-- The least of the views that are higher than that of the replica. -/
def minHigherView (r : Replica A) : ℕ := (r.higherViews r.replicaViews).foldl min (2 ^ 32 - 1)

omit [Sha256] in
/-- The least of some numbers and a bound is the bound or one of the numbers. -/
lemma foldl_min_mem (l : List ℕ) (b : ℕ) : l.foldl min b = b ∨ l.foldl min b ∈ l := by
  induction l generalizing b with
  | nil => exact .inl rfl
  | cons a l ih =>
      rw [List.foldl_cons]
      rcases ih (min b a) with heq | hmem
      · rw [heq]
        rcases min_choice b a with h | h
        · exact .inl h
        · exact .inr (by rw [h]; exact List.mem_cons_self)
      · exact .inr (List.mem_cons_of_mem a hmem)

omit [Sha256] in
lemma pbftView_lt_minHigherView (h : r.minHigherView ≠ 2 ^ 32 - 1) :
    r.pbftView < r.minHigherView :=
  have hmem := (foldl_min_mem (r.higherViews r.replicaViews) (2 ^ 32 - 1)).resolve_left h
  of_decide_eq_true (List.mem_filter.mp hmem).2

/-- **What `updateReplicaView` does.** -/
lemma updateReplicaView_cases {id view round : ℕ}
    (h : r.updateReplicaView cfg now id view round = .ok r') :
    r' = r ∨ r.replicaViews[id]? ≠ some (view, round) ∧
      (r' = r.learnView cfg now id view round ∨
        (r.learnView cfg now id view round).minHigherView ≠ 2 ^ 32 - 1 ∧
        cfg.numReplicas - cfg.quorumSize + 1 ≤
          (r.higherViews (r.replicaViews.insert id (view, round))).length ∧
        (r.learnView cfg now id view round).startViewChange cfg
          (r.learnView cfg now id view round).minHigherView = .ok r') := by
  rw [updateReplicaView] at h
  by_cases hknown : r.replicaViews[id]? = some (view, round)
  · rw [if_pos hknown] at h
    exact .inl (Except.ok.inj h).symm
  rw [if_neg hknown] at h
  refine .inr ⟨hknown, ?_⟩
  dsimp only at h
  split at h
  · cases h
  rename_i hlast
  split at h
  · rename_i hmany
    refine .inr ⟨fun hmin => hlast ⟨fun hnil => ?_, hmin⟩, hmany, h⟩
    rw [hnil] at hmany
    exact absurd hmany (by simp)
  · exact .inl (Except.ok.inj h).symm

/-- What a message that announces a view does beside that: a repair waits for its round, or it is
started with the proof that the message is. -/
inductive FollowsUp (cfg : Config) (r : Replica A) : Replica A → Prop
  | waits (pending : Bool) : FollowsUp cfg r { r with pendingRepair := pending }
  | replyProof {m : RepairReplyProof} {r' : Replica A} :
      (r.broadcastToReplicas (.repairReplyProof m)).startRepair cfg = .ok r' → FollowsUp cfg r r'
  | timeoutProof {m : RepairTimeoutProof} {r' : Replica A} :
      (r.broadcastToReplicas (.repairTimeoutProof m)).startRepair cfg = .ok r' → FollowsUp cfg r r'

/-- **A message that announces a view** is handled by `updateReplicaView` and what follows. -/
lemma handle_announced [Application A] [PaddedRequestData] {i v round : ℕ}
    (he : e.announcement = some (i, v, round)) (h : r.handle cfg e = .ok r') :
    ∃ now msg sig r₁, e = .message now msg sig ∧
      r.updateReplicaView cfg now i v round = .ok r₁ ∧ FollowsUp cfg r₁ r' := by
  have hstay : ∀ {x : Replica A}, (Except.ok x : Except Fault _) = .ok r' → FollowsUp cfg x r' := by
    rintro x h
    cases h
    exact .waits r'.pendingRepair
  cases e with
  | message now msg sig =>
      cases msg with
      | viewUpdate m =>
          cases he
          exact ⟨now, _, sig, r', rfl, h, .waits r'.pendingRepair⟩
      | repairReplyProof m =>
          cases he
          obtain ⟨r₁, hview, h⟩ := bind_eq_ok.mp h
          refine ⟨now, _, sig, r₁, rfl, hview, ?_⟩
          split_ifs at h
          · cases h
            exact .waits true
          · exact hstay h
          · exact hstay h
          · exact hstay h
          · exact .replyProof h
      | repairTimeoutProof m =>
          cases he
          obtain ⟨r₁, hview, h⟩ := bind_eq_ok.mp h
          refine ⟨now, _, sig, r₁, rfl, hview, ?_⟩
          split_ifs at h
          · cases h
            exact .waits true
          · exact hstay h
          · exact hstay h
          · exact .timeoutProof h
      | _ => cases he
  | _ => cases he

/-! ### Timeouts -/

/-- **What `processRepairTimeout` does.** -/
lemma processRepairTimeout_cases {m : RepairTimeout}
    (h : r.processRepairTimeout cfg m sig = .ok r') :
    r' = r ∨ ∃ coll, r.checkpointCollectors.collectors[(r.round, m.seq)]? = some coll ∧
      (r' = r.setCollector r.round m.seq (coll.addAndCheckTimeout cfg m sig).1 ∨ ∃ proof,
        ((r.setCollector r.round m.seq (coll.addAndCheckTimeout cfg m sig).1).broadcastToReplicas
          (.repairTimeoutProof proof)).startRepair cfg = .ok r') := by
  rw [processRepairTimeout] at h
  split_ifs at h
  · exact .inl (Except.ok.inj h).symm
  · exact .inl (Except.ok.inj h).symm
  · exact .inl (Except.ok.inj h).symm
  split at h
  · exact .inl (Except.ok.inj h).symm
  rename_i coll hcoll
  refine .inr ⟨coll, hcoll, ?_⟩
  dsimp only at h
  split_ifs at h
  · split at h
    · cases h
    · exact .inr ⟨_, h⟩
  · exact .inl (Except.ok.inj h).symm

end

end Replica

end DomBft
