import DomBft.Lib.OrderedMap
import DomBft.Replica.Core
import DomBft.Replica.Views

/-!
What the proposals of a primary are made of.

* `proposalOf`, `Proposes`: what `doPrePreparePhase` proposes, and the states in which an event
  makes a replica call it.
* `handle_proposals`: no other proposals are sent.
* `Certifies`, `CertifiedIn`, `MadeOf`: a proposal that a prepared history vouches for, and one
  that is made of the start messages of its own round and view.
* `Suitable`: the condition on what a replica has stored under which
  `proposals_for_their_round` holds.
-/

namespace DomBft

open Std (ExtTreeMap)
open Fallible Transition

/-! ### When a replica proposes -/

namespace Replica

section

variable {A : Type} {r r' r'' : Replica A} {cfg : Config} {e : ReplicaEvent} {now : ℕ}

/-- An event moves a replica to a view: its timer has run out, or enough others are ahead. -/
inductive MovesTo (cfg : Config) (r : Replica A) : ReplicaEvent → ℕ → Prop
  | timedOut {now : ℕ} : r.ViewTimedOut cfg now →
      MovesTo cfg r (.timeouts now) ((r.pbftView + 1) % 2 ^ 32)
  | outvoted {e : ReplicaEvent} {i v round : ℕ} : e.announcement = some (i, v, round) →
      r.replicaViews[i]? ≠ some (v, round) → cfg.numReplicas - cfg.quorumSize + 1 ≤
        (r.higherViews (r.replicaViews.insert i (v, round))).length →
      MovesTo cfg r e
        ((r.higherViews (r.replicaViews.insert i (v, round))).foldl min (2 ^ 32 - 1))

/-- An event makes a replica propose for a round, in the state given: it has stored a start
message that completes a quorum for its round, or it has changed to a view that has one. -/
inductive Proposes (cfg : Config) (r : Replica A) : ReplicaEvent → Replica A → ℕ → Prop
  | started {now : ℕ} {m : RepairStart} {sig : Bytes} :
      m.pbftView % cfg.numReplicas = r.replicaId → r.round ≤ m.round →
      ¬(r.repairStartMsgs[m.replicaId]?).any (fun m' => decide (m.round ≤ m'.round)) →
      r.isPrimary cfg = true →
      ((r.storeStart m sig).repairStartMsgs.toList.filter fun (_, m') =>
        m'.round = m.round).length = cfg.quorumSize →
      Proposes cfg r (.message now (.repairStart m) sig) (r.storeStart m sig) m.round
  | viewChanged {e : ReplicaEvent} {v : ℕ} : r.MovesTo cfg e v →
      ({ r with pbftView := v }).isPrimary cfg = true →
      cfg.quorumSize ≤ (r.repairStartMsgs.toList.filter fun (_, m) =>
        m.round = r.round ∧ m.pbftView = v).length →
      Proposes cfg r e { r with pbftView := v } r.round

variable [Sha256]

/-- What a primary proposes. -/
def proposalOf (r : Replica A) (round : ℕ) : PBFTPrePrepare :=
  let startMsgs := r.proposalStartMsgs round
  if startMsgs.any fun (_, m) => m.preparedHistory.isSome then {
    round
    primaryId := r.replicaId
    pbftView := r.pbftView
    proposal := r.lastPreparedState.proposal
    proposalDigest := r.lastPreparedState.proposalDigest }
  else
    let proposal : RepairProposal := {
      round
      replicaId := r.replicaId
      startMsgs := startMsgs.map (·.2)
      signatures := startMsgs.map fun (id, _) => (r.repairHistorySigs[id]?).getD [] }
    { round
      primaryId := r.replicaId
      pbftView := r.pbftView
      proposal
      proposalDigest := getProposalDigest proposal }

@[simp] lemma proposalOf_round (r : Replica A) (round : ℕ) :
    (r.proposalOf round).round = round := by
  rw [proposalOf]
  dsimp only
  split_ifs
  · rfl
  · rfl

@[simp] lemma proposalOf_pbftView (r : Replica A) (round : ℕ) :
    (r.proposalOf round).pbftView = r.pbftView := by
  rw [proposalOf]
  dsimp only
  split_ifs
  · rfl
  · rfl

/-- No proposal is sent because of an event, or one that the event makes the replica propose. -/
def ProposalStep (cfg : Config) (r : Replica A) (e : ReplicaEvent) (r' : Replica A) : Prop :=
  prePrepares r'.sent = prePrepares r.sent ∨ ∃ r₁ round, r.Proposes cfg e r₁ round ∧
    prePrepares r'.sent = prePrepares r.sent ++ [r₁.proposalOf round]

lemma ProposalStep.same (h : ProposalStep cfg r e r') (h' : Same r' r'') :
    ProposalStep cfg r e r'' := by
  have hproposals : prePrepares r''.sent = prePrepares r'.sent := h'.proposals
  rw [ProposalStep, hproposals]
  exact h

/-- A primary broadcasts its proposal. -/
lemma doPrePreparePhase_broadcast {round : ℕ} (h : r.isPrimary cfg = true) :
    (r.doPrePreparePhase cfg round).sent =
      r.sent ++ [(.replicas, .prePrepare (r.proposalOf round))] := by
  rw [doPrePreparePhase, if_neg (by simpa using h), proposalOf]
  dsimp only
  split_ifs
  · rfl
  · rfl

lemma doPrePreparePhase_proposals {round : ℕ} (h : r.isPrimary cfg = true) :
    prePrepares (r.doPrePreparePhase cfg round).sent =
      prePrepares r.sent ++ [r.proposalOf round] := by
  rw [doPrePreparePhase_broadcast h]
  exact List.filterMap_append

/-- **What a view change sends**: a start message, a proposal if the replica is the primary of the
view and has a quorum of start messages for it, and the view. -/
lemma startViewChange_broadcast {v : ℕ} (h : r.startViewChange cfg v = .ok r') :
    ∃ dst m u, r'.sent = r.sent ++ (dst, .repairStart m) ::
      ((if ({ r with pbftView := v }).isPrimary cfg = true ∧
          cfg.quorumSize ≤ (r.repairStartMsgs.toList.filter fun (_, m) =>
            m.round = r.round ∧ m.pbftView = v).length then
        [(.replicas, .prePrepare (({ r with pbftView := v }).proposalOf r.round))]
      else []) ++ [(.replicas, .viewUpdate u)]) := by
  rw [startViewChange] at h
  dsimp only at h
  obtain ⟨r₁, hsend, h⟩ := bind_eq_ok.mp h
  obtain ⟨m, -, hr₁⟩ := sendViewChange_eq hsend
  have hstart : r₁.sent = r.sent ++ [(.replica (v % cfg.numReplicas), .repairStart m)] := by
    rw [hr₁]
    rfl
  have hprimary : r₁.isPrimary cfg = ({ r with pbftView := v }).isPrimary cfg := by
    rw [hr₁]
    rfl
  have hmsgs : (r₁.repairStartMsgs.toList.filter fun (_, m) =>
      m.round = r₁.round ∧ m.pbftView = r₁.pbftView) =
        r.repairStartMsgs.toList.filter fun (_, m) => m.round = r.round ∧ m.pbftView = v := by
    rw [hr₁]
    rfl
  have hproposal : r₁.proposalOf r₁.round = ({ r with pbftView := v }).proposalOf r.round := by
    rw [hr₁]
    rfl
  clear hr₁
  cases pure_eq_ok.mp h
  rw [hprimary, hmsgs, broadcastToReplicas, send]
  split_ifs with hif hpropose hpropose
  · have hsent : (r₁.doPrePreparePhase cfg r₁.round).sent = r.sent ++
        [(.replica (v % cfg.numReplicas), .repairStart m)] ++
        [(.replicas, .prePrepare (({ r with pbftView := v }).proposalOf r.round))] := by
      rw [doPrePreparePhase_broadcast (hprimary.trans hpropose.1), hstart, hproposal]
    rw [hsent, List.append_assoc, List.append_assoc]
    exact ⟨_, m, _, rfl⟩
  · exact absurd (by simpa using hif) hpropose
  · exact absurd (by simpa using hpropose) hif
  · rw [hstart, List.append_assoc]
    exact ⟨_, m, _, rfl⟩

/-- The proposal of a view change. -/
lemma startViewChange_proposals {v : ℕ} (h : r.startViewChange cfg v = .ok r') :
    prePrepares r'.sent = prePrepares r.sent ∨
      ({ r with pbftView := v }).isPrimary cfg = true ∧
        cfg.quorumSize ≤ (r.repairStartMsgs.toList.filter fun (_, m) =>
          m.round = r.round ∧ m.pbftView = v).length ∧
        prePrepares r'.sent =
          prePrepares r.sent ++ [({ r with pbftView := v }).proposalOf r.round] := by
  obtain ⟨dst, m, u, hsent⟩ := startViewChange_broadcast h
  rw [hsent]
  split_ifs with hpropose
  · exact .inr ⟨hpropose.1, hpropose.2, List.filterMap_append⟩
  · exact .inl (prePrepares_append (by simp [Msg.prePrepare?]))

lemma updateReplicaView_proposals {i v round : ℕ} (he : e.announcement = some (i, v, round))
    (h : r.updateReplicaView cfg now i v round = .ok r') : ProposalStep cfg r e r' := by
  rcases updateReplicaView_cases h with rfl | ⟨hnew, rfl | ⟨-, hmany, hview⟩⟩
  · exact .inl rfl
  · exact .inl rfl
  · rcases startViewChange_proposals hview with hsame | ⟨hprimary, hquorum, hproposals⟩
    · exact .inl hsame
    · exact .inr ⟨_, _, .viewChanged (.outvoted he hnew hmany) hprimary hquorum, hproposals⟩

lemma processRepairStart_proposals {m : RepairStart} {sig : Bytes} :
    ProposalStep cfg r (.message now (.repairStart m) sig) (r.processRepairStart cfg m sig) := by
  rcases processRepairStart_cases cfg r m sig with
    ⟨-, heq⟩ | ⟨-, -, heq⟩ | ⟨haccept, hbefore, heq⟩
  · rw [heq]
    exact .inl rfl
  · rw [heq]
    exact .inl rfl
  have hlater : ¬(r.repairStartMsgs[m.replicaId]?).any
      (fun m' => decide (m.round ≤ m'.round)) := by
    intro hany
    obtain ⟨m', hm', hle⟩ := (Option.any_eq_true _ _).mp hany
    exact (hbefore m' hm').not_ge (of_decide_eq_true hle)
  rw [heq]
  split_ifs with hpropose
  · exact .inr ⟨_, _, .started haccept.1 haccept.2 hlater hpropose.1 hpropose.2,
      doPrePreparePhase_proposals (r := r.storeStart m sig) hpropose.1⟩
  · exact .inl rfl

lemma checkTimeouts_proposals [Application A] (h : r.checkTimeouts cfg now = .ok r') :
    ProposalStep cfg r (.timeouts now) r' := by
  obtain ⟨r₁, -, hquiet, -, hend⟩ := checkTimeouts_cases h
  have hsame : prePrepares r₁.sent = prePrepares r.sent := (Same.of_quiet hquiet).proposals
  obtain ⟨log, queue, colls, requested, start, seqs, sent, rfl⟩ : ∃ log queue colls requested start
      seqs sent, r₁ = { r with
        log
        snapshotQueue := queue
        checkpointCollectors := colls
        checkpointSnapshotRequested := requested
        checkpointTimeoutStart := start
        checkpointTimeoutSeqs := seqs
        sent } := ⟨_, _, _, _, _, _, _, hquiet.eq⟩
  rcases hend with rfl | ⟨htime, hview⟩
  · exact .inl hsame
  · rcases startViewChange_proposals hview with hno | ⟨hprimary, hquorum, hproposals⟩
    · exact .inl (hno.trans hsame)
    · exact .inr ⟨_, _, .viewChanged (.timedOut htime) hprimary hquorum,
        hproposals.trans (congrArg (· ++ _) hsame)⟩

/-- **The proposals that a replica sends** are those that an event makes it propose. -/
theorem handle_proposals [Application A] [PaddedRequestData] (h : r.handle cfg e = .ok r') :
    ProposalStep cfg r e r' := by
  by_cases he : e.movesView = false
  · exact .inl (handle_same he h).proposals
  rcases ReplicaEvent.cases_of_movesView (Bool.of_not_eq_false he) with
    ⟨now, rfl⟩ | ⟨now, m, sig, rfl⟩ | ⟨i, v, round, hann⟩
  · exact checkTimeouts_proposals h
  · cases Except.ok.inj h
    exact processRepairStart_proposals
  · obtain ⟨_, _, _, r₁, -, hview, hfollow⟩ := handle_announced hann h
    exact (updateReplicaView_proposals hann hview).same hfollow.same

end

end Replica

/-! ### What a proposal should be -/

section

variable [SignatureProvider] [Sha256]

/-- A prepared history has prepares of a quorum for a proposal, in its round and in one view. -/
def PreparedHistory.Certifies (cfg : Config) (h : PreparedHistory) (round : ℕ)
    (p : RepairProposal) : Prop :=
  ∃ view, cfg.quorumSize ≤ (((h.prepares.zip h.prepareSigs).filter fun (m, sig) =>
    m.round = round ∧ m.pbftView = view ∧ m.proposalDigest = getProposalDigest p ∧
      SignatureProvider.verify m.replicaId (Msg.prepare m).body sig = true).map
        (·.1.replicaId)).dedup.length

/-- A start message of the round, among the events so far, has a prepared history that vouches
for a proposal. -/
def CertifiedIn (cfg : Config) (es : List ReplicaEvent) (round : ℕ) (p : RepairProposal) : Prop :=
  ∃ now m sig h, .message now (.repairStart m) sig ∈ es ∧ m.round = round ∧
    m.preparedHistory = some h ∧ h.Certifies cfg round p

end

/-- A proposal is made of the start messages of a quorum for its round and view, each with the
signature that it has arrived with. -/
structure MadeOf (cfg : Config) (es : List ReplicaEvent) (m : PBFTPrePrepare) : Prop where
  sameLength : m.proposal.signatures.length = m.proposal.startMsgs.length
  received : ∀ x ∈ m.proposal.startMsgs.zip m.proposal.signatures,
    ∃ now, .message now (.repairStart x.1) x.2 ∈ es
  exact : ∀ s ∈ m.proposal.startMsgs, s.round = m.round ∧ s.pbftView = m.pbftView
  distinct : (m.proposal.startMsgs.map (·.replicaId)).Nodup
  quorum : cfg.quorumSize ≤ m.proposal.startMsgs.length

/-- What a core has stored: start messages that have arrived, under their senders, and the last
proposal that was prepared. -/
structure Core.Stored (es : List ReplicaEvent) (c : Core) : Prop where
  received : ∀ k m, c.repairStartMsgs[k]? = some m → m.replicaId = k ∧
    ∃ now, .message now (.repairStart m) ((c.repairHistorySigs[k]?).getD []) ∈ es
  lastRound : c.lastPreparedState.proposal.round = c.lastPreparedState.round

namespace Core.Stored

variable {es : List ReplicaEvent} {c c' : Core}

lemma mono (h : c.Stored es) {es' : List ReplicaEvent} (hes : es ⊆ es') : c.Stored es' := by
  refine ⟨fun k m hm => ?_, h.lastRound⟩
  obtain ⟨hk, now, he⟩ := h.received k m hm
  exact ⟨hk, now, hes he⟩

/-- A start message is stored with its signature. -/
lemma insert (h : c.Stored es) {now : ℕ} {m : RepairStart} {sig : Bytes}
    (he : .message now (.repairStart m) sig ∈ es) : Core.Stored es { c with
      repairStartMsgs := c.repairStartMsgs.insert m.replicaId m
      repairHistorySigs := c.repairHistorySigs.insert m.replicaId sig } := by
  refine ⟨fun k m' hm' => ?_, h.lastRound⟩
  rcases OrderedMap.getElem?_insert_cases hm' with ⟨rfl, rfl⟩ | ⟨hne, hold⟩
  · refine ⟨rfl, now, ?_⟩
    rwa [ExtTreeMap.getElem?_insert_self, Option.getD_some]
  · dsimp only
    rw [OrderedMap.getElem?_insert_of_ne hne]
    exact h.received k m' hold

variable {A : Type} [Application A] [Sha256] [PaddedRequestData] {cfg : Config} {r₀ : Replica A}
  {e : ReplicaEvent}

lemma step (h : c.Stored es) (he : e ∈ es) (hstep : Core.Step cfg r₀ e c c') : c'.Stored es := by
  cases hstep with
  | storeStart heq => exact h.insert (heq ▸ he)
  | prepared => exact ⟨h.received, rfl⟩
  | _ => exact ⟨h.received, h.lastRound⟩

lemma steps (h : c.Stored es) (he : e ∈ es) (hsteps : Core.Steps cfg r₀ e c c') :
    c'.Stored es := by
  induction hsteps with
  | refl => exact h
  | tail _ hstep ih => exact ih.step he hstep

end Core.Stored

namespace Replica

section

variable {A : Type} [SignatureProvider] [Sha256] {r r₁ : Replica A} {cfg : Config}
  {e : ReplicaEvent} {es : List ReplicaEvent} {round : ℕ}

/-- A replica can propose for a round: if one of the start messages it takes has a prepared
history, its last prepared proposal is one of the round that such a history vouches for; if none
has, all these start messages are of the round and of its view. -/
structure Suitable (cfg : Config) (es : List ReplicaEvent) (r : Replica A) (round : ℕ) : Prop where
  prepared : (∃ x ∈ r.proposalStartMsgs round, x.2.preparedHistory.isSome) →
    r.lastPreparedState.round = round ∧ CertifiedIn cfg es round r.lastPreparedState.proposal
  exact : (∀ x ∈ r.proposalStartMsgs round, x.2.preparedHistory = none) →
    ∀ x ∈ r.proposalStartMsgs round, x.2.round = round ∧ x.2.pbftView = r.pbftView

/-- Whenever an event makes a replica propose, it can. -/
def ProposesSuitably (cfg : Config) (es : List ReplicaEvent) (r : Replica A) (e : ReplicaEvent) :
    Prop :=
  ∀ r₁ round, r.Proposes cfg e r₁ round → Suitable cfg (es ++ [e]) r₁ round

/-- A proposal is one of its round, and one that is vouched for or made of the right messages. -/
def WellMade (cfg : Config) (es : List ReplicaEvent) (m : PBFTPrePrepare) : Prop :=
  m.proposal.round = m.round ∧ (CertifiedIn cfg es m.round m.proposal ∨ MadeOf cfg es m)

lemma proposalOf_wellMade (hstored : r.core.Stored es) (h : Suitable cfg es r round)
    (hquorum : cfg.quorumSize ≤
      (r.repairStartMsgs.toList.filter fun (_, m) => m.round = round).length) :
    WellMade cfg es (r.proposalOf round) := by
  rw [proposalOf]
  split
  · rename_i hprepared
    obtain ⟨x, hx, hsome⟩ := List.any_eq_true.mp hprepared
    obtain ⟨hround, hcert⟩ := h.prepared ⟨x, hx, hsome⟩
    exact ⟨hstored.lastRound.trans hround, .inl hcert⟩
  · rename_i hno
    have hnone : ∀ x ∈ r.proposalStartMsgs round, x.2.preparedHistory = none := by
      intro x hx
      have hx' := fun hsome => hno (List.any_eq_true.mpr ⟨x, hx, hsome⟩)
      simpa using hx'
    have hmem : ∀ x ∈ r.proposalStartMsgs round, r.repairStartMsgs[x.1]? = some x.2 := fun x hx =>
      ExtTreeMap.mem_toList_iff_getElem?_eq_some.mp (List.mem_filter.mp hx).1
    have hids : ((r.proposalStartMsgs round).map (·.2)).map (·.replicaId) =
        (r.proposalStartMsgs round).map (·.1) := by
      rw [List.map_map]
      exact List.map_congr_left fun x hx => (hstored.received x.1 x.2 (hmem x hx)).1
    refine ⟨rfl, .inr ⟨?_, ?_, ?_, ?_, ?_⟩⟩
    · rw [List.length_map, List.length_map]
    · intro x hx
      rw [List.zip_map', List.mem_map] at hx
      obtain ⟨y, hy, rfl⟩ := hx
      exact (hstored.received y.1 y.2 (hmem y hy)).2
    · intro m hm
      obtain ⟨x, hx, rfl⟩ := List.mem_map.mp hm
      exact h.exact hnone x hx
    · rw [hids]
      exact OrderedMap.nodup_map_fst_of_sublist List.filter_sublist
    · rw [List.length_map]
      refine hquorum.trans (List.Sublist.length_le (List.monotone_filter_right _ fun x hx => ?_))
      simp only [decide_eq_true_eq] at hx ⊢
      exact .inl hx

end

section

variable {A : Type} [Application A] [Sha256] [PaddedRequestData] [SignatureProvider]
  {r r' : Replica A} {cfg : Config} {e : ReplicaEvent} {es : List ReplicaEvent} {i : ℕ} {app : A}

omit [Application A] [PaddedRequestData] in
lemma WellMade.mono {m : PBFTPrePrepare} (h : WellMade cfg es m) {es' : List ReplicaEvent}
    (hes : es ⊆ es') : WellMade cfg es' m := by
  obtain ⟨hround, ⟨now, s, sig, hist, hmem, hrest⟩ | hmade⟩ := h
  · exact ⟨hround, .inl ⟨now, s, sig, hist, hes hmem, hrest⟩⟩
  · refine ⟨hround, .inr { hmade with received := fun x hx => ?_ }⟩
    obtain ⟨now, hmem⟩ := hmade.received x hx
    exact ⟨now, hes hmem⟩

omit [Application A] [PaddedRequestData] in
/-- What an event makes a replica propose is well made. -/
lemma Proposes.wellMade {r₁ : Replica A} {round : ℕ} (h : r.Proposes cfg e r₁ round)
    (hstored : r.core.Stored es) (hs : ProposesSuitably cfg es r e) :
    WellMade cfg (es ++ [e]) (r₁.proposalOf round) := by
  have hstored' := hstored.mono (List.subset_append_left es [e])
  have hsuitable := hs r₁ round h
  cases h with
  | started _ _ _ _ hcount =>
      have hinsert := hstored'.insert (List.mem_append_right es List.mem_cons_self)
      exact proposalOf_wellMade hinsert hsuitable hcount.ge
  | viewChanged _ _ hquorum =>
      refine proposalOf_wellMade ⟨hstored'.received, hstored'.lastRound⟩ hsuitable
        (hquorum.trans (List.Sublist.length_le (List.monotone_filter_right _ fun x hx => ?_)))
      simp only [decide_eq_true_eq] at hx ⊢
      exact hx.1

/-- **Each proposal is for its own round and view**, as long as the replica can propose whenever it
does. -/
theorem proposals_for_their_round
    (h : Run (system cfg i app) (fun es r e => r.ProposesSuitably cfg es e) es r) {dst : Dest}
    {m : PBFTPrePrepare} (hm : (dst, .prePrepare m) ∈ r.sent) :
    m.proposal.round = m.round ∧ (CertifiedIn cfg es m.round m.proposal ∨ MadeOf cfg es m) := by
  have hinv : r.core.Stored es ∧ ∀ m ∈ prePrepares r.sent, WellMade cfg es m := by
    refine h.invariant (P := fun es r => r.core.Stored es ∧ ∀ m ∈ prePrepares r.sent,
      WellMade cfg es m) ?_ ?_
    · rintro s rfl
      exact ⟨⟨by simp [core, fresh], rfl⟩, by simp [fresh, prePrepares]⟩
    · rintro es r e r' - ⟨hstored, hmade⟩ hs ⟨-, -, hhandle⟩
      have hsub : es ⊆ es ++ [e] := List.subset_append_left es [e]
      refine ⟨(hstored.mono hsub).steps (List.mem_append_right es List.mem_cons_self)
        (handle_core hhandle), ?_⟩
      rcases handle_proposals hhandle with hsame | ⟨r₁, round, hpropose, hmore⟩
      · rw [hsame]
        exact fun m hm => (hmade m hm).mono hsub
      · rw [hmore]
        intro m hm
        rcases List.mem_append.mp hm with hm | hm
        · exact (hmade m hm).mono hsub
        · rw [List.mem_singleton.mp hm]
          exact hpropose.wellMade hstored hs
  exact hinv.2 m (List.mem_filterMap.mpr ⟨_, hm, rfl⟩)

end

/-! ### Runs -/

section

attribute [local instance] prefixSha shortPaddedRequestData counterWire fourKeys

/-- A replica with an empty log starts the repair of a round in the first view. -/
def startOf (round i : ℕ) : ReplicaEvent :=
  .message 1 (.repairStart { round, replicaId := i, log? := some {} }) [UInt8.ofNat i]

/-- The start messages are those of the first view, of this round, and without prepares. -/
def OnlyRound (round : ℕ) (r : Replica Counter) : ReplicaEvent → Prop
  | .message _ (.repairStart m) _ => m.round = round ∧ m.pbftView = 0 ∧ m.preparedHistory = none ∧
      r.pbftView = 0 ∧ ∀ x ∈ r.repairStartMsgs.toList, x.2.round = round ∧ x.2.pbftView = 0 ∧
        x.2.preparedHistory = none
  | _ => False

instance (round : ℕ) (r : Replica Counter) (e : ReplicaEvent) :
    Decidable (OnlyRound round r e) := by
  rcases e with _ | ⟨_, _ | _, _⟩ | _ <;> unfold OnlyRound <;> infer_instance

lemma OnlyRound.proposesSuitably {round : ℕ} {r : Replica Counter} {e : ReplicaEvent}
    (h : OnlyRound round r e) (es : List ReplicaEvent) : r.ProposesSuitably .oneFault es e := by
  intro r₁ round' hpropose
  cases hpropose with
  | @started now m sig =>
      obtain ⟨hround, hview, hnone, hown, hstored⟩ := h
      have hall : ∀ x ∈ (r.storeStart m sig).proposalStartMsgs m.round,
          x.2.round = round ∧ x.2.pbftView = 0 ∧ x.2.preparedHistory = none := by
        intro x hx
        have hget := ExtTreeMap.mem_toList_iff_getElem?_eq_some.mp (List.mem_filter.mp hx).1
        rcases OrderedMap.getElem?_insert_cases hget with ⟨-, heq⟩ | ⟨-, hold⟩
        · rw [heq]
          exact ⟨hround, hview, hnone⟩
        · exact hstored x (ExtTreeMap.mem_toList_iff_getElem?_eq_some.mpr hold)
      refine ⟨?_, ?_⟩
      · rintro ⟨x, hx, hsome⟩
        rw [(hall x hx).2.2] at hsome
        cases hsome
      · intro _ x hx
        exact ⟨(hall x hx).1.trans hround.symm, (hall x hx).2.1.trans hown.symm⟩
  | viewChanged hmove =>
      cases hmove with
      | timedOut => exact h.elim
      | outvoted hann =>
          unfold OnlyRound at h
          split at h
          · cases hann
          · exact h.elim

/-- The primary proposes what three replicas have sent for the first round. -/
theorem proposal_of_first_round : ∃ (r : Replica Counter) (m : PBFTPrePrepare),
    Run (system .oneFault 0 {}) (fun es r e => r.ProposesSuitably .oneFault es e)
      [startOf 1 0, startOf 1 1, startOf 1 2] r ∧
    (.replicas, .prePrepare m) ∈ r.sent ∧ m.proposal.round = m.round ∧
    (CertifiedIn .oneFault [startOf 1 0, startOf 1 1, startOf 1 2] m.round m.proposal ∨
      MadeOf .oneFault [startOf 1 0, startOf 1 1, startOf 1 2] m) := by
  have hsome : ∃ r, [startOf 1 0, startOf 1 1, startOf 1 2].foldlM
        (fun r e => if OnlyRound 1 r e then r.handle .oneFault e else .error .assertion)
        (fresh 0 ({} : Counter)) = .ok r ∧
      ∃ x ∈ r.sent, x.1 = .replicas ∧ ∃ m ∈ x.2.prePrepare?, m.round = 1 := by
    decide +kernel
  obtain ⟨r, hfold, ⟨dst, msg⟩, hx, rfl, m, hm, -⟩ := hsome
  obtain rfl := Msg.eq_of_prePrepare? hm
  have hrun : Run (system .oneFault 0 ({} : Counter))
      (fun es r e => r.ProposesSuitably .oneFault es e)
      ([] ++ [startOf 1 0, startOf 1 1, startOf 1 2]) r :=
    run_of_foldlM (.start rfl) (by decide +kernel) (fun es _ _ h => h.proposesSuitably es) hfold
  exact ⟨r, m, hrun, hx, proposals_for_their_round hrun hx⟩

/-- **A start message of an earlier round becomes part of a proposal**, since it is of the same
view. -/
theorem stale_start_proposed : ∃ (r : Replica Counter) (m : PBFTPrePrepare),
    Run (system .oneFault 0 {}) anyStep [startOf 1 3, startOf 2 0, startOf 2 1, startOf 2 2] r ∧
    (.replicas, .prePrepare m) ∈ r.sent ∧
    ¬CertifiedIn .oneFault [startOf 1 3, startOf 2 0, startOf 2 1, startOf 2 2] m.round m.proposal ∧
    ¬MadeOf .oneFault [startOf 1 3, startOf 2 0, startOf 2 1, startOf 2 2] m := by
  have hsome : ∃ r, [startOf 1 3, startOf 2 0, startOf 2 1, startOf 2 2].foldlM
        (fun r e => if True then r.handle .oneFault e else .error .assertion)
        (fresh 0 ({} : Counter)) = .ok r ∧
      ∃ x ∈ r.sent, x.1 = .replicas ∧ ∃ m ∈ x.2.prePrepare?, m.round = 2 ∧
        ∃ s ∈ m.proposal.startMsgs, s.round = 1 := by
    decide +kernel
  obtain ⟨r, hfold, ⟨dst, msg⟩, hx, rfl, m, hm, hround, s, hs, hone⟩ := hsome
  obtain rfl := Msg.eq_of_prePrepare? hm
  have hrun : Run (system .oneFault 0 ({} : Counter)) anyStep
      ([] ++ [startOf 1 3, startOf 2 0, startOf 2 1, startOf 2 2]) r :=
    run_of_foldlM (P := fun _ _ => True) (.start rfl) (by decide +kernel)
      (fun _ _ _ _ => trivial) hfold
  refine ⟨r, m, hrun, hx, ?_, fun hmade => ?_⟩
  · rintro ⟨now, s, sig, hist, hmem, -, hsome, -⟩
    simp only [startOf, List.mem_cons, List.not_mem_nil, or_false, ReplicaEvent.message.injEq,
      Msg.repairStart.injEq] at hmem
    rcases hmem with ⟨-, rfl, -⟩ | ⟨-, rfl, -⟩ | ⟨-, rfl, -⟩ | ⟨-, rfl, -⟩ <;> cases hsome
  · have hexact := (hmade.exact s hs).1
    omega

end

end Replica

end DomBft
