import DomBft.Replica.Phases

/-!
The agreement on a proposal, apart from everything else that a replica does.

* `Core`: the part of the state of a replica that belongs to the agreement, with the messages
  about it that have been sent.  It does not depend on the application.
* `Core.Step`: the small steps in which an event can change it.
* `handle_core`: whatever a replica does with an event is a sequence of these steps.
-/

namespace DomBft

open Std (ExtTreeMap)
open Fallible

/-- The messages with which the replicas agree on a proposal. -/
def Msg.isAgreement : Msg → Bool
  | .repairStart _ | .prePrepare _ | .prepare _ | .pbftCommit _ => true
  | _ => false

/-- The part of a replica that belongs to the agreement on a proposal. -/
structure Core where
  replicaId : ℕ
  round : ℕ
  repair : Bool
  repairStart : Option RepairStart
  repairProposal : Option RepairProposal
  proposalDigest : Bytes
  repairStartMsgs : ExtTreeMap ℕ RepairStart compare
  repairHistorySigs : ExtTreeMap ℕ Bytes compare
  pbftView : ℕ
  preparedRound : ℕ
  viewPrepared : Bool
  lastPreparedState : PreparedState
  repairPrepares : ExtTreeMap ℕ PBFTPrepare compare
  repairPrepareSigs : ExtTreeMap ℕ Bytes compare
  repairPBFTCommits : ExtTreeMap ℕ PBFTCommit compare
  sent : List (Dest × Msg)

/-- The core of a replica. -/
def Replica.core {A : Type} (r : Replica A) : Core where
  replicaId := r.replicaId
  round := r.round
  repair := r.repair
  repairStart := r.repairStart
  repairProposal := r.repairProposal
  proposalDigest := r.proposalDigest
  repairStartMsgs := r.repairStartMsgs
  repairHistorySigs := r.repairHistorySigs
  pbftView := r.pbftView
  preparedRound := r.preparedRound
  viewPrepared := r.viewPrepared
  lastPreparedState := r.lastPreparedState
  repairPrepares := r.repairPrepares
  repairPrepareSigs := r.repairPrepareSigs
  repairPBFTCommits := r.repairPBFTCommits
  sent := r.sent.filter (·.2.isAgreement)

namespace Core

/-- A message is sent. -/
def send (c : Core) (dst : Dest) (msg : Msg) : Core := { c with sent := c.sent ++ [(dst, msg)] }

/-- The start messages that the proposal of a round is made of. -/
def proposalStartMsgs (c : Core) (round : ℕ) : List (ℕ × RepairStart) :=
  c.repairStartMsgs.toList.filter fun (_, m) => m.round = round ∨ m.pbftView = c.pbftView

/-- The number of prepares of a round and the current view that name the current digest. -/
def numPrepares (c : Core) (round : ℕ) : ℕ :=
  (c.repairPrepares.toList.filter fun (_, m) =>
    (m.round, m.proposalDigest, m.pbftView) = (round, c.proposalDigest, c.pbftView)).length

/-- The prepares that are kept for a later view. -/
def keptPrepares (c : Core) (proposal : RepairProposal) : ExtTreeMap ℕ PBFTPrepare compare :=
  c.repairPrepares.filter fun _ prepare => prepare.round = proposal.round

/-- What is kept for a later view. -/
def preparedState (c : Core) (proposal : RepairProposal) : PreparedState where
  round := proposal.round
  pbftView := c.pbftView
  proposal
  proposalDigest := c.proposalDigest
  prepares := c.keptPrepares proposal
  prepareSigs := (c.keptPrepares proposal).toList.foldl
    (fun m (id, _) => m.insert id ((c.repairPrepareSigs[id]?).getD []))
    c.lastPreparedState.prepareSigs

/-- The start message of a view change, with what is kept if it is of this round. -/
structure IsViewStart (c : Core) (v : ℕ) (m : RepairStart) : Prop where
  replicaId : (∀ m₀, c.repairStart = some m₀ → m₀.replicaId = c.replicaId) →
    m.replicaId = c.replicaId
  pbftView : m.pbftView = v
  round : m.round = c.round
  prepared : c.lastPreparedState.round = c.round → m.preparedHistory = some {
    prepares := c.lastPreparedState.prepares.toList.map (·.2)
    prepareSigs := c.lastPreparedState.prepares.toList.map fun (id, _) =>
      (c.lastPreparedState.prepareSigs[id]?).getD [] }
  notPrepared : c.lastPreparedState.round ≠ c.round → m.preparedHistory = none

end Core

/-- The condition under which the timer starts a view change. -/
def Replica.ViewTimedOut {A : Type} (cfg : Config) (now : ℕ) (r : Replica A) : Prop :=
  r.repairViewStart ≠ 0 ∧
    cfg.replicaRepairViewTimeout * 2 ^ r.numConsecutiveViewChanges < now - r.repairViewStart

variable {A : Type} [Application A] [Sha256] [PaddedRequestData]

/-- The small steps that a replica in the state `r₀` makes when it takes the event `e`. -/
inductive Core.Step (cfg : Config) (r₀ : Replica A) (e : ReplicaEvent) : Core → Core → Prop
  | startRepair {c : Core} {m : RepairStart} :
      c.repair = false → m.replicaId = c.replicaId → m.round = c.round →
      m.pbftView = c.pbftView → m.preparedHistory = none →
      Step cfg r₀ e c ({ c with repair := true, repairStart := some m }.send
        (.replica (c.pbftView % cfg.numReplicas)) (.repairStart m))
  | changeView {c : Core} {v : ℕ} {m : RepairStart} :
      c.pbftView < v ∨ (∃ now, e = .timeouts now ∧ r₀.ViewTimedOut cfg now) ∧
        c.pbftView = r₀.pbftView ∧ v = (c.pbftView + 1) % 2 ^ 32 →
      c.IsViewStart v m →
      Step cfg r₀ e c ({ c with
        pbftView := v, repair := true, viewPrepared := false, repairStart := some m }.send
        (.replica (v % cfg.numReplicas)) (.repairStart m))
  | proposeAgain {c : Core} {round : ℕ} :
      c.pbftView % cfg.numReplicas = c.replicaId →
      (∃ x ∈ c.proposalStartMsgs round, x.2.preparedHistory.isSome) →
      Step cfg r₀ e c (c.send .replicas <| .prePrepare {
        round
        primaryId := c.replicaId
        pbftView := c.pbftView
        proposal := c.lastPreparedState.proposal
        proposalDigest := c.lastPreparedState.proposalDigest })
  | propose {c : Core} {round : ℕ} {proposal : RepairProposal} :
      c.pbftView % cfg.numReplicas = c.replicaId →
      (∀ x ∈ c.proposalStartMsgs round, x.2.preparedHistory = none) →
      proposal.round = round → proposal.startMsgs = (c.proposalStartMsgs round).map (·.2) →
      Step cfg r₀ e c ({ c with proposalDigest := getProposalDigest proposal }.send .replicas <|
        .prePrepare {
          round
          primaryId := c.replicaId
          pbftView := c.pbftView
          proposal
          proposalDigest := getProposalDigest proposal })
  | storeStart {c : Core} {now : ℕ} {m : RepairStart} {sig : Bytes} :
      e = .message now (.repairStart m) sig → m.pbftView % cfg.numReplicas = c.replicaId →
      c.round ≤ m.round →
      Step cfg r₀ e c { c with
        repairStartMsgs := c.repairStartMsgs.insert m.replicaId m
        repairHistorySigs := c.repairHistorySigs.insert m.replicaId sig }
  | accept {c : Core} {now : ℕ} {m : PBFTPrePrepare} {sig logDigest : Bytes} :
      e = .message now (.prePrepare m) sig → c = r₀.core → m.round = c.round →
      m.pbftView = c.pbftView → m.primaryId = c.pbftView % cfg.numReplicas →
      Step cfg r₀ e c ({ c with
        repairProposal := some m.proposal, proposalDigest := m.proposalDigest }.send .replicas <|
        .prepare {
          replicaId := c.replicaId
          round := m.proposal.round
          pbftView := c.pbftView
          proposalDigest := m.proposalDigest
          logDigest })
  | storePrepare {c : Core} {now : ℕ} {m : PBFTPrepare} {sig : Bytes} :
      e = .message now (.prepare m) sig → m.pbftView = c.pbftView → m.round ≤ c.round →
      (c.viewPrepared = true → m.round = c.round) →
      Step cfg r₀ e c { c with
        repairPrepares := c.repairPrepares.insert m.replicaId m
        repairPrepareSigs := c.repairPrepareSigs.insert m.replicaId sig }
  | prepared {c : Core} {now : ℕ} {m : PBFTPrepare} {sig : Bytes} {proposal : RepairProposal}
      {logDigest : Bytes} :
      e = .message now (.prepare m) sig → c.repairProposal = some proposal →
      (c.viewPrepared = true → c.preparedRound ≠ c.round ∧ c.round ≤ proposal.round) →
      cfg.quorumSize ≤ c.numPrepares proposal.round →
      Step cfg r₀ e c ({ c with
        preparedRound := proposal.round
        viewPrepared := true
        lastPreparedState := c.preparedState proposal }.send .replicas <| .pbftCommit {
          replicaId := c.replicaId
          round := proposal.round
          pbftView := c.pbftView
          proposalDigest := c.proposalDigest
          logDigest })
  | storeCommit {c : Core} {now : ℕ} {m : PBFTCommit} {sig : Bytes} :
      e = .message now (.pbftCommit m) sig → m.pbftView = c.pbftView → m.round = c.round →
      Step cfg r₀ e c { c with repairPBFTCommits := c.repairPBFTCommits.insert m.replicaId m }
  | setRound {c : Core} {r₁ : Replica A} {proposal : RepairProposal} :
      Replica.CallsTryFinish cfg r₀ e r₁ → c = r₁.core → c.repairProposal = some proposal →
      proposal.round ≠ (c.round + 2 ^ 32 - 1) % 2 ^ 32 →
      Step cfg r₀ e c { c with round := proposal.round }
  | finish {c : Core} {r₂ : Replica A} {aborted : List ClientRequestProto} :
      Replica.CallsFinish cfg r₀ e r₂ aborted → c = r₂.core →
      Step cfg r₀ e c { c with
        round := (c.round + 1) % 2 ^ 32
        repair := false
        repairProposal := none
        repairPrepares := ∅
        repairPBFTCommits := ∅ }
  | align {c : Core} {now : ℕ} {reply : SnapshotReply} {sig : Bytes} :
      e = .message now (.snapshotReply reply) sig →
      r₀.repair = false ∨ (∃ r₂ aborted, Replica.CallsFinish cfg r₀ e r₂ aborted) →
      Step cfg r₀ e c { c with round := max c.round reply.round }

/-- The steps that a replica in the state `r₀` makes when it takes the event `e`. -/
def Core.Steps (cfg : Config) (r₀ : Replica A) (e : ReplicaEvent) : Core → Core → Prop :=
  Relation.ReflTransGen (Core.Step cfg r₀ e)

namespace Replica

variable {r₀ r r' : Replica A} {cfg : Config} {e : ReplicaEvent} {now : ℕ}

/-! ### What does not change the core -/

omit [Application A] [Sha256] [PaddedRequestData] in
lemma isAgreement_of_not_isRepair {msg : Msg} (h : ¬IsRepair msg) : msg.isAgreement = false := by
  cases msg <;> first | rfl | exact absurd trivial h

omit [Application A] [Sha256] [PaddedRequestData] in
/-- What is quiet does not change the core. -/
lemma Quiet.core_eq (h : Quiet r r') : r'.core = r.core := by
  obtain ⟨ms, hms, hno⟩ := h.sent
  have hsent : r'.sent.filter (·.2.isAgreement) = r.sent.filter (·.2.isAgreement) := by
    have hnil : ms.filter (·.2.isAgreement) = [] := by
      refine List.filter_eq_nil_iff.mpr fun x hx => ?_
      rw [isAgreement_of_not_isRepair (hno x hx)]
      decide
    rw [hms, List.filter_append, hnil, List.append_nil]
  have hcore := congrArg core h.eq
  rw [hcore]
  exact congrArg (fun sent => { r.core with sent }) hsent

omit [Application A] [Sha256] [PaddedRequestData] in
/-- A message of the agreement is sent. -/
lemma core_send (r : Replica A) (dst : Dest) {msg : Msg} (h : msg.isAgreement = true) :
    (r.send dst msg).core = r.core.send dst msg := by
  have hsent : (r.send dst msg).sent.filter (·.2.isAgreement) =
      r.sent.filter (·.2.isAgreement) ++ [(dst, msg)] := by
    rw [send, List.filter_append]
    exact congrArg _ (List.filter_cons_of_pos h)
  exact congrArg (fun sent => { r.core with sent }) hsent

omit [Application A] [Sha256] [PaddedRequestData] in
/-- Another message is sent. -/
lemma core_send_other (r : Replica A) (dst : Dest) {msg : Msg} (h : msg.isAgreement = false) :
    (r.send dst msg).core = r.core := by
  have hsent : (r.send dst msg).sent.filter (·.2.isAgreement) =
      r.sent.filter (·.2.isAgreement) := by
    have hnil : [(dst, msg)].filter (·.2.isAgreement) = [] :=
      List.filter_cons_of_neg (by simpa using h)
    rw [send, List.filter_append, hnil, List.append_nil]
  exact congrArg (fun sent => { r.core with sent }) hsent

/-! ### Starting a repair, and views -/

lemma startRepair_core (h : r.startRepair cfg = .ok r') :
    Core.Step cfg r₀ e r.core r'.core := by
  obtain ⟨hrepair, m, hid, hround, hview, hprep, rfl⟩ := startRepair_eq h
  rw [core_send _ _ rfl]
  exact .startRepair hrepair hid hround hview hprep

lemma doPrePreparePhase_core (cfg : Config) (r : Replica A) (round : ℕ) :
    Core.Steps cfg r₀ e r.core (r.doPrePreparePhase cfg round).core := by
  rw [doPrePreparePhase]
  by_cases hprimary : r.isPrimary cfg = true
  · rw [if_neg (by simpa using hprimary)]
    have hid : r.pbftView % cfg.numReplicas = r.replicaId := by
      simpa [isPrimary, getPrimary] using hprimary
    dsimp only
    split_ifs with hprepared
    · rw [broadcastToReplicas, core_send _ _ rfl]
      exact .single (.proposeAgain hid (List.any_eq_true.mp hprepared))
    · rw [broadcastToReplicas, core_send _ _ rfl]
      refine .single (.propose hid (fun x hx => ?_) rfl rfl)
      have hnone := fun h => hprepared (List.any_eq_true.mpr ⟨x, hx, h⟩)
      simpa using hnone
  · rw [if_pos (by simpa using hprimary)]
    exact .refl

omit [Application A] [Sha256] [PaddedRequestData] in
/-- **What the start message of a view change is.** -/
lemma sendViewChange_eq (h : r.sendViewChange cfg = .ok r') :
    ∃ m, r.core.IsViewStart r.pbftView m ∧ r' = { r with repairStart := some m }.send
      (.replica (r.getPrimary cfg)) (.repairStart m) := by
  rw [sendViewChange] at h
  by_cases hround : r.lastPreparedState.round = r.round
  · rw [if_pos hround] at h
    exact ⟨_, ⟨fun _ => rfl, rfl, rfl, fun _ => rfl, fun hne => absurd hround hne⟩,
      (sendToReplica_eq h).2⟩
  · rw [if_neg hround] at h
    split at h
    · cases h
    rename_i m₀ hm₀
    split_ifs at h with hround₀
    exact ⟨{ m₀ with preparedHistory := none, pbftView := r.pbftView },
      ⟨fun hid => hid m₀ hm₀, rfl, not_not.mp hround₀, fun heq => absurd heq hround, fun _ => rfl⟩,
      (sendToReplica_eq h).2⟩

lemma startViewChange_core {v : ℕ} (h : r.startViewChange cfg v = .ok r')
    (hv : r.core.pbftView < v ∨ (∃ now, e = .timeouts now ∧ r₀.ViewTimedOut cfg now) ∧
      r.core.pbftView = r₀.pbftView ∧ v = (r.core.pbftView + 1) % 2 ^ 32) :
    Core.Steps cfg r₀ e r.core r'.core := by
  rw [startViewChange] at h
  dsimp only at h
  obtain ⟨r₁, hsend, h⟩ := bind_eq_ok.mp h
  obtain ⟨m, hm, rfl⟩ := sendViewChange_eq hsend
  have hstep : Core.Steps cfg r₀ e r.core (send { r with
      pbftView := v
      repair := true
      viewPrepared := false
      repairViewStart := 0
      repairStart := some m } (.replica (v % cfg.numReplicas)) (.repairStart m)).core := by
    rw [core_send _ _ rfl]
    exact .single (.changeView hv
      ⟨hm.replicaId, hm.pbftView, hm.round, hm.prepared, hm.notPrepared⟩)
  cases pure_eq_ok.mp h
  rw [broadcastToReplicas, core_send_other _ _ rfl]
  split_ifs
  · exact hstep.trans (doPrePreparePhase_core cfg _ _)
  · exact hstep

lemma updateReplicaView_core {id view round : ℕ}
    (h : r.updateReplicaView cfg now id view round = .ok r') :
    Core.Steps cfg r₀ e r.core r'.core := by
  rcases updateReplicaView_cases h with rfl | ⟨-, rfl | ⟨hmin, -, hview⟩⟩
  · exact .refl
  · exact .refl
  · have hsteps : Core.Steps cfg r₀ e (r.learnView cfg now id view round).core r'.core :=
      startViewChange_core hview (.inl (pbftView_lt_minHigherView hmin))
    exact hsteps

omit [Application A] [PaddedRequestData] in
/-- **What `startViewChange` does.** -/
lemma startViewChange_eq {v : ℕ} (h : r.startViewChange cfg v = .ok r') :
    ∃ m digest ms, r.core.IsViewStart v m ∧ r' = { r with
      pbftView := v
      repair := true
      viewPrepared := false
      repairViewStart := 0
      repairStart := some m
      proposalDigest := digest
      sent := r.sent ++ (.replica (v % cfg.numReplicas), .repairStart m) :: ms } := by
  have hrest : ∀ (r₁ : Replica A) (propose : Bool) (msg : Replica A → Msg), ∃ digest ms,
      (if propose then r₁.doPrePreparePhase cfg r₁.round else r₁).broadcastToReplicas
          (msg (if propose then r₁.doPrePreparePhase cfg r₁.round else r₁)) =
        { r₁ with proposalDigest := digest, sent := r₁.sent ++ ms } := by
    intro r₁ propose msg
    cases propose with
    | false => exact ⟨r₁.proposalDigest, [_], rfl⟩
    | true =>
        obtain ⟨digest, ms, heq⟩ := doPrePreparePhase_eq cfg r₁ r₁.round
        rw [if_pos rfl, heq]
        exact ⟨digest, ms ++ [_], by rw [broadcastToReplicas, send, List.append_assoc]⟩
  rw [startViewChange] at h
  dsimp only at h
  obtain ⟨r₁, hsend, h⟩ := bind_eq_ok.mp h
  obtain ⟨m, hm, hr₁⟩ := sendViewChange_eq hsend
  obtain ⟨digest, ms, heq⟩ := hrest r₁ (r₁.isPrimary cfg && decide (cfg.quorumSize ≤
    (r₁.repairStartMsgs.toList.filter fun x =>
      x.2.round = r₁.round ∧ x.2.pbftView = r₁.pbftView).length))
    fun r => .viewUpdate { replicaId := r.replicaId, view := r.pbftView, round := r.round }
  cases pure_eq_ok.mp h
  refine ⟨m, digest, ms, ⟨hm.replicaId, hm.pbftView, hm.round, hm.prepared, hm.notPrepared⟩,
    heq.trans ?_⟩
  rw [hr₁, send, List.append_assoc]
  rfl

/-! ### The three phases -/

lemma processPrePrepare_core {m : PBFTPrePrepare} {sig : Bytes}
    (h : r.processPrePrepare cfg m = .ok r') :
    Core.Steps cfg r (.message now (.prePrepare m) sig) r.core r'.core := by
  rcases processPrePrepare_cases h with rfl | ⟨hround, hview, hprimary, s, suffix, -, -, rfl⟩
  · exact .refl
  · rw [broadcastToReplicas, core_send _ _ rfl]
    exact .single (.accept rfl rfl hround hview hprimary)

omit [Application A] [PaddedRequestData] in
/-- A commit that is sent does not change what is prepared. -/
lemma doCommitPhase_core (h : r.doCommitPhase cfg = .ok r') :
    ∃ proposal logDigest, r.repairProposal = some proposal ∧
      r'.core = r.core.send .replicas (.pbftCommit {
        replicaId := r.replicaId
        round := proposal.round
        pbftView := r.pbftView
        proposalDigest := r.proposalDigest
        logDigest }) := by
  obtain ⟨proposal, suffix, hp, -, rfl⟩ := doCommitPhase_eq h
  refine ⟨proposal, suffix.logDigest, hp, ?_⟩
  rw [broadcastToReplicas, core_send _ _ rfl]
  rfl

lemma processPrepare_core {m : PBFTPrepare} {sig : Bytes}
    (h : r.processPrepare cfg m sig = .ok r') :
    Core.Steps cfg r (.message now (.prepare m) sig) r.core r'.core := by
  rcases processPrepare_cases h with rfl | ⟨htakes, hrest⟩
  · exact .refl
  have hround : r.viewPrepared = true → m.round = r.round := by
    intro hp
    have hnotOld := htakes.notOld
    have hnotFuture := htakes.notFuture
    have hle := (not_and_or.mp hnotOld).resolve_right (not_not.mpr hp)
    omega
  have hstore : Core.Steps cfg r (.message now (.prepare m) sig) r.core
      (r.addPrepare m sig).core :=
    .single (.storePrepare rfl htakes.view htakes.notFuture hround)
  rcases hrest with rfl | ⟨proposal, hdone, hp, hle, hquorum, hcommit⟩
  · exact hstore
  obtain ⟨proposal', logDigest, hp', hcore⟩ := doCommitPhase_core hcommit
  obtain rfl : proposal = proposal' := Option.some.inj (hp.symm.trans hp')
  refine hstore.tail ?_
  rw [hcore]
  refine .prepared rfl hp (fun hvp => ?_) hquorum
  have hmr := hround hvp
  exact ⟨fun heq => hdone ⟨hvp, heq.trans hmr.symm⟩, hmr.symm.trans_le hle⟩

/-! ### The end of a repair -/

/-- `tryFinishRepair` up to `finishRepair` changes the round at most. -/
lemma tryApply_core {r₁ : Replica A} {res : Option (List ClientRequestProto)}
    (hcall : CallsTryFinish cfg r₀ e r₁) (h : r₁.tryApply cfg = .ok (r', res)) :
    Core.Steps cfg r₀ e r₁.core r'.core := by
  obtain ⟨suffix, proposal, -, hp, ⟨-, aborted, -, rfl, -⟩ | ⟨hround, hrest⟩⟩ := tryApply_cases h
  · exact .refl
  have hstep : Core.Step cfg r₀ e r₁.core { r₁.core with round := proposal.round } :=
    .setRound hcall rfl hp hround
  refine .single ?_
  rcases hrest with ⟨aborted, -, -, happly⟩ | ⟨-, -, sent, hsent, rfl⟩
  · obtain ⟨log, missing, -, ⟨-, rfl, -⟩ | ⟨ids, -, rfl, -⟩⟩ := applyProposal_cases happly
    · exact hstep
    · rw [sendMissingRequestFetch]
      split_ifs
      · exact hstep
      · rw [broadcastToReplicas, core_send_other _ _ rfl]
        exact hstep
  · have hquiet : Quiet { r₁ with
        repairProposalLogSuffix := some suffix
        round := proposal.round
        repairViewStart := 0
        repairSnapshotRequested := true } { r₁ with
        repairProposalLogSuffix := some suffix
        round := proposal.round
        repairViewStart := 0
        repairSnapshotRequested := true
        sent := r₁.sent ++ sent } := ⟨rfl, sent, rfl, hsent⟩
    rw [hquiet.core_eq]
    exact hstep

lemma finishRepair_core {r₂ : Replica A} {aborted : List ClientRequestProto}
    (hcall : CallsFinish cfg r₀ e r₂ aborted) (h : r₂.finishRepair cfg now aborted = .ok r') :
    Core.Steps cfg r₀ e r₂.core r'.core := by
  obtain ⟨suffix, r₃, r₄, hq₃, -, hq₄, -, hend⟩ := finishRepair_cases h
  have hcore : r₄.core = { r₂.core with
      round := (r₂.core.round + 1) % 2 ^ 32
      repair := false
      repairProposal := none
      repairPrepares := ∅
      repairPBFTCommits := ∅ } := by
    rw [hq₄.core_eq]
    exact congrArg (fun c : Core => { c with
      repair := false, repairProposal := none, repairPrepares := ∅, repairPBFTCommits := ∅ })
      hq₃.core_eq
  have hstep : Core.Step cfg r₀ e r₂.core r₄.core := hcore ▸ .finish hcall rfl
  rcases hend with ⟨-, rfl⟩ | ⟨-, hstart⟩
  · exact .single hstep
  · have hnext : Core.Step cfg r₀ e _ r'.core := startRepair_core hstart
    exact (Relation.ReflTransGen.single hstep).tail hnext

lemma tryFinishRepair_core {r₁ : Replica A} (hcall : CallsTryFinish cfg r₀ e r₁)
    (h : r₁.tryFinishRepair cfg now = .ok r') : Core.Steps cfg r₀ e r₁.core r'.core := by
  obtain ⟨⟨r₂, res⟩, happly, h⟩ := bind_eq_ok.mp h
  have hsteps := tryApply_core hcall happly
  cases res with
  | none =>
      cases pure_eq_ok.mp h
      exact hsteps
  | some aborted => exact hsteps.trans (finishRepair_core (.tried hcall happly) h)

lemma processPBFTCommit_core {m : PBFTCommit} {sig : Bytes}
    (h : r.processPBFTCommit cfg now m sig = .ok r') :
    Core.Steps cfg r (.message now (.pbftCommit m) sig) r.core r'.core := by
  rcases processPBFTCommit_cases h with rfl | ⟨hview, hround, rfl | ⟨hcall, htry⟩⟩
  · exact .refl
  · exact .single (.storeCommit rfl hview hround)
  · have hstore : Core.Steps cfg r (.message now (.pbftCommit m) sig) r.core
        (r.addPBFTCommit m sig).core := .single (.storeCommit rfl hview hround)
    exact hstore.trans (tryFinishRepair_core hcall htry)

omit [Application A] [Sha256] [PaddedRequestData] in
lemma foldl_addMissingRequest_core (reqs : List RequestData) (r : Replica A) :
    (reqs.foldl addMissingRequest r).core = r.core := by
  induction reqs generalizing r with
  | nil => rfl
  | cons req reqs ih =>
      rw [List.foldl_cons, ih, addMissingRequest]
      split_ifs <;> rfl

lemma processMissingRequestReply_core {reply : MissingRequestReply} {sig : Bytes}
    (h : r.processMissingRequestReply cfg now reply = .ok r') :
    Core.Steps cfg r (.message now (.missingRequestReply reply) sig) r.core r'.core := by
  have hfold := foldl_addMissingRequest_core reply.requests r
  rcases processMissingRequestReply_cases h sig with rfl | rfl | ⟨hcall, htry⟩
  · exact .refl
  · rw [hfold]
    exact .refl
  · have hsteps := tryFinishRepair_core hcall htry
    rw [← hfold]
    exact hsteps

lemma processDOMRequest_core {deadline : ℕ} {m : ClientRequestProto}
    (h : r.processDOMRequest cfg now deadline m = .ok r') :
    Core.Steps cfg r (.request now deadline m) r.core r'.core := by
  rcases processDOMRequest_cases h with ⟨-, h⟩ | ⟨-, ⟨pending, rfl⟩ | ⟨hcall, htry⟩⟩
  · rw [(processClientRequest_grows h).1.core_eq]
    exact .refl
  · exact .refl
  · have hsteps := tryFinishRepair_core hcall htry
    exact hsteps

/-! ### Snapshots -/

lemma applySnapshot_core {reply : SnapshotReply} {res : Option (List ClientRequestProto)}
    (h : r.applySnapshot cfg reply = .ok (r', res)) : r'.core = r.core := by
  rcases applySnapshot_cases h with ⟨-, rfl⟩ | ⟨-, -, suffix, -, ⟨-, -, rfl⟩ |
      ⟨-, aborted, available, log, r₁, -, -, hclean, happly⟩⟩
  · rfl
  · rfl
  · have hcore : r₁.core = r.core := (cleanStaleCollectors_quiet hclean).1.core_eq
    rw [← hcore]
    obtain ⟨log', missing, -, ⟨-, rfl, -⟩ | ⟨ids, -, rfl, -⟩⟩ := applyProposal_cases happly
    · rfl
    · rw [sendMissingRequestFetch]
      split_ifs
      · rfl
      · rw [broadcastToReplicas, core_send_other _ _ rfl]
        rfl

lemma alignLog_core {reply : SnapshotReply} (h : r.alignLog cfg reply = .ok r') :
    r'.core = { r.core with round := max r.core.round reply.round } := by
  obtain ⟨log, r₁, ms, -, hclean, hms, rfl⟩ := alignLog_cases h
  have hresent : Quiet r₁ { r₁ with sent := r₁.sent ++ ms } := ⟨rfl, ms, rfl, hms⟩
  rw [hresent.core_eq, (cleanStaleCollectors_quiet hclean).1.core_eq]
  rfl

lemma processSnapshotReply_core {reply : SnapshotReply} {sig : Bytes}
    (h : r.processSnapshotReply cfg now reply = .ok r') :
    Core.Steps cfg r (.message now (.snapshotReply reply) sig) r.core r'.core := by
  rcases processSnapshotReply_cases h with rfl | ⟨hold, hdone, ⟨hrepair, happly |
      ⟨r₂, r₃, aborted, happly, hfinish, rfl⟩⟩ | ⟨hrepair, -, r₁, halign, rfl⟩⟩
  · exact .refl
  · rw [applySnapshot_core happly]
    exact .refl
  · have hcall : CallsFinish cfg r (.message now (.snapshotReply reply) sig) r₂ aborted :=
      .snapshot hold hdone hrepair happly
    have hsteps := finishRepair_core hcall hfinish
    rw [applySnapshot_core happly] at hsteps
    exact hsteps.tail (.align rfl (.inr ⟨r₂, aborted, hcall⟩))
  · have hstep : Core.Step cfg r (.message now (.snapshotReply reply) sig) r.core r₁.core := by
      rw [alignLog_core halign]
      exact .align rfl (.inl hrepair)
    exact .single hstep

/-! ### What starts a repair -/

omit [Application A] [Sha256] [PaddedRequestData] in
lemma core_broadcast_other (r : Replica A) {msg : Msg} (h : msg.isAgreement = false) :
    (r.broadcastToReplicas msg).core = r.core := core_send_other r _ h

lemma processReply_core {reply : Reply} {sig : Bytes}
    (h : r.processReply cfg now reply sig = .ok r') : Core.Steps cfg r₀ e r.core r'.core := by
  obtain ⟨-, hq | ⟨r₁, proof, hq, -, hstart⟩⟩ := processReply_cases h
  · rw [hq.core_eq]
    exact .refl
  · have hstep : Core.Step cfg r₀ e _ r'.core := startRepair_core hstart
    rw [core_broadcast_other _ rfl, hq.core_eq] at hstep
    exact .single hstep

lemma processRepairTimeout_core {m : RepairTimeout} {sig : Bytes}
    (h : r.processRepairTimeout cfg m sig = .ok r') : Core.Steps cfg r₀ e r.core r'.core := by
  rcases processRepairTimeout_cases h with rfl | ⟨coll, -, rfl | ⟨proof, hstart⟩⟩
  · exact .refl
  · exact .refl
  · have hstep : Core.Step cfg r₀ e _ r'.core := startRepair_core hstart
    rw [core_broadcast_other _ rfl] at hstep
    exact .single hstep

lemma announced_core {i v round : ℕ} (he : e.announcement = some (i, v, round))
    (h : r.handle cfg e = .ok r') : Core.Steps cfg r₀ e r.core r'.core := by
  obtain ⟨now, msg, sig, r₁, rfl, hview, hfollow⟩ := handle_announced he h
  refine (updateReplicaView_core hview).trans ?_
  cases hfollow with
  | waits => exact .refl
  | replyProof hstart =>
      have hstep : Core.Step cfg r₀ (.message now msg sig) _ r'.core := startRepair_core hstart
      rw [core_broadcast_other _ rfl] at hstep
      exact .single hstep
  | timeoutProof hstart =>
      have hstep : Core.Step cfg r₀ (.message now msg sig) _ r'.core := startRepair_core hstart
      rw [core_broadcast_other _ rfl] at hstep
      exact .single hstep

lemma processRepairStart_core (cfg : Config) (now : ℕ) (r : Replica A) (m : RepairStart)
    (sig : Bytes) : Core.Steps cfg r (.message now (.repairStart m) sig) r.core
      (r.processRepairStart cfg m sig).core := by
  rcases processRepairStart_cases cfg r m sig with ⟨-, heq⟩ | ⟨-, -, heq⟩ | ⟨haccept, -, heq⟩
  · rw [heq]
    exact .refl
  · rw [heq]
    exact .refl
  have hstore : Core.Steps cfg r (.message now (.repairStart m) sig) r.core
      (r.storeStart m sig).core := .single (.storeStart rfl haccept.1 haccept.2)
  rw [heq]
  split_ifs
  · exact hstore.trans (doPrePreparePhase_core cfg _ _)
  · exact hstore

/-! ### All events -/

omit [Application A] [Sha256] [PaddedRequestData] in
lemma foldl_checkCollector_quiet (cfg : Config) (now : ℕ)
    (cs : List ((ℕ × ℕ) × CheckpointCollector)) (r : Replica A) :
    Quiet r (cs.foldl (fun r (key, coll) => r.checkCollector cfg now key coll) r) ∧
      (cs.foldl (fun r (key, coll) => r.checkCollector cfg now key coll) r).log = r.log := by
  induction cs generalizing r with
  | nil => exact ⟨.refl r, rfl⟩
  | cons c cs ih =>
      obtain ⟨hq, hlog⟩ := checkCollector_quiet cfg now r c.1 c.2
      obtain ⟨hq', hlog'⟩ := ih (r.checkCollector cfg now c.1 c.2)
      exact ⟨hq.trans hq', hlog'.trans hlog⟩

omit [PaddedRequestData] in
/-- **What the timeouts do**: the checks of the collectors and of the checkpoint, which are quiet,
and a view change if the view has timed out. -/
lemma checkTimeouts_cases (h : r.checkTimeouts cfg now = .ok r') :
    ∃ r₁, (r.checkpointCollectors.collectors.toList.foldl
        (fun r (key, coll) => r.checkCollector cfg now key coll) r).checkCheckpointTimeout cfg now =
          .ok r₁ ∧
      Quiet r r₁ ∧ r₁.log = r.log ∧
      (r' = r₁ ∨ r.ViewTimedOut cfg now ∧
        { r₁ with
          repairViewStart := now
          numConsecutiveViewChanges := r₁.numConsecutiveViewChanges + 1
          }.startViewChange cfg ((r₁.pbftView + 1) % 2 ^ 32) = .ok r') := by
  rw [checkTimeouts] at h
  dsimp only at h
  obtain ⟨r₁, htimeout, h⟩ := bind_eq_ok.mp h
  obtain ⟨hfold, hlog⟩ := foldl_checkCollector_quiet cfg now
    r.checkpointCollectors.collectors.toList r
  obtain ⟨hcheck, hlog₁⟩ := checkCheckpointTimeout_quiet htimeout
  have hquiet := hfold.trans hcheck
  refine ⟨r₁, htimeout, hquiet, hlog₁.trans hlog, ?_⟩
  rw [checkViewTimeout] at h
  split_ifs at h with hdue
  · refine .inr ⟨?_, h⟩
    rw [hquiet.eq] at hdue
    exact hdue
  · exact .inl (Except.ok.inj h).symm

lemma checkTimeouts_core (h : r.checkTimeouts cfg now = .ok r') :
    Core.Steps cfg r (.timeouts now) r.core r'.core := by
  obtain ⟨r₁, -, hq, -, rfl | ⟨htimedOut, hview⟩⟩ := checkTimeouts_cases h
  · rw [hq.core_eq]
    exact .refl
  · have hsame : r₁.pbftView = r.pbftView := congrArg Core.pbftView hq.core_eq
    have hsteps : Core.Steps cfg r (.timeouts now) _ r'.core :=
      startViewChange_core hview (.inr ⟨⟨now, rfl, htimedOut⟩, hsame, rfl⟩)
    rw [← hq.core_eq]
    exact hsteps

/-- **What an event does to the core** is a sequence of the steps. -/
theorem handle_core (h : r.handle cfg e = .ok r') : Core.Steps cfg r e r.core r'.core := by
  have hquiet : Quiet r r' → Core.Steps cfg r e r.core r'.core := by
    intro hq
    rw [hq.core_eq]
    exact .refl
  cases e with
  | request now deadline m => exact processDOMRequest_core h
  | snapshot =>
      rw [handle] at h
      split at h
      · cases h
        exact .refl
      · have hq := (processSnapshot_quiet h).1
        exact hquiet (Quiet.trans (.of_sent_eq rfl) hq)
  | timeouts now => exact checkTimeouts_core h
  | message now msg sig =>
      cases msg with
      | clientRequest m => exact hquiet (processClientRequest_grows h).1
      | cert m => exact hquiet (processCert_quiet h).1
      | reply m => exact processReply_core h
      | commit m => exact hquiet (processCommit_quiet h).1
      | snapshotRequest m => exact hquiet (processSnapshotRequest_quiet h).1
      | snapshotReply m => exact processSnapshotReply_core h
      | missingRequestFetch m => exact hquiet (processMissingRequestFetch_quiet h).1
      | missingRequestReply m => exact processMissingRequestReply_core h
      | repairTimeout m => exact processRepairTimeout_core h
      | repairReplyProof m => exact announced_core rfl h
      | repairTimeoutProof m => exact announced_core rfl h
      | repairStart m =>
          cases Except.ok.inj h
          exact processRepairStart_core cfg now r m sig
      | prePrepare m => exact processPrePrepare_core h
      | prepare m => exact processPrepare_core h
      | pbftCommit m => exact processPBFTCommit_core h
      | viewUpdate m => exact announced_core rfl h
      | domRequest => exact hquiet (Except.ok.inj h ▸ .refl r)
      | certReply => exact hquiet (Except.ok.inj h ▸ .refl r)
      | committedReply => exact hquiet (Except.ok.inj h ▸ .refl r)
      | repairSummary => exact hquiet (Except.ok.inj h ▸ .refl r)

end Replica

end DomBft
