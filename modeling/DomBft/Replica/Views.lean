import DomBft.Replica.LogSteps

/-!
The views that a replica knows of the others, and when it starts a view change because of them.

* `Front`: the part of a replica that the views are about, and `Same`: messages are sent, none of
  them a proposal, and neither the views of the others nor the own one change.
* `ViewStep`, `handle_views`: what an event does to the views.
-/

namespace DomBft

open Std (ExtTreeMap)
open Fallible

/-- The events that may change a view or make a replica propose. -/
def ReplicaEvent.movesView : ReplicaEvent → Bool
  | .timeouts _ | .message _ (.repairStart _) _ | .message _ (.viewUpdate _) _
  | .message _ (.repairReplyProof _) _ | .message _ (.repairTimeoutProof _) _ => true
  | _ => false

/-- Such an event is the timer, a start message, or one that announces a view. -/
lemma ReplicaEvent.cases_of_movesView {e : ReplicaEvent} (h : e.movesView = true) :
    (∃ now, e = .timeouts now) ∨ (∃ now m sig, e = .message now (.repairStart m) sig) ∨
      ∃ i v round, e.announcement = some (i, v, round) := by
  cases e with
  | timeouts now => exact .inl ⟨now, rfl⟩
  | message now msg sig =>
      cases msg with
      | repairStart m => exact .inr (.inl ⟨now, m, sig, rfl⟩)
      | viewUpdate m => exact .inr (.inr ⟨_, _, _, rfl⟩)
      | repairReplyProof m => exact .inr (.inr ⟨_, _, _, rfl⟩)
      | repairTimeoutProof m => exact .inr (.inr ⟨_, _, _, rfl⟩)
      | _ => cases h
  | _ => cases h

/-- The proposal in a message. -/
def Msg.prePrepare? : Msg → Option PBFTPrePrepare
  | .prePrepare m => some m
  | _ => none

lemma Msg.eq_of_prePrepare? {msg : Msg} {m : PBFTPrePrepare} (h : msg.prePrepare? = some m) :
    msg = .prePrepare m := by
  cases msg with
  | prePrepare m' => rw [Option.some.inj h]
  | _ => cases h

/-- The proposals among some messages. -/
def prePrepares (ms : List (Dest × Msg)) : List PBFTPrePrepare := ms.filterMap (·.2.prePrepare?)

lemma prePrepares_append {l ms : List (Dest × Msg)} (h : ∀ x ∈ ms, x.2.prePrepare? = none) :
    prePrepares (l ++ ms) = prePrepares l := by
  rw [prePrepares, List.filterMap_append, List.filterMap_eq_nil_iff.mpr h, List.append_nil]
  rfl

/-- What a replica knows of the views, and what it has sent. -/
structure Front where
  replicaViews : ExtTreeMap ℕ (ℕ × ℕ) compare
  pbftView : ℕ
  sent : List (Dest × Msg)

/-- Messages are sent, none of them a proposal, and the views stay the same. -/
structure Front.Same (a b : Front) : Prop where
  sent : a.sent <+: b.sent
  proposals : prePrepares b.sent = prePrepares a.sent
  replicaViews : b.replicaViews = a.replicaViews
  pbftView : b.pbftView = a.pbftView

namespace Replica

/-- The front of a replica. -/
def front {A : Type} (r : Replica A) : Front := ⟨r.replicaViews, r.pbftView, r.sent⟩

variable {A : Type} {r r' r'' : Replica A} {cfg : Config} {e : ReplicaEvent} {now : ℕ}

lemma prePrepare?_of_not_isRepair {msg : Msg} (h : ¬IsRepair msg) : msg.prePrepare? = none := by
  cases msg with
  | prePrepare m => exact absurd trivial h
  | _ => rfl

/-- Messages are sent, none of them a proposal, and the views stay the same. -/
def Same (r r' : Replica A) : Prop := Front.Same r.front r'.front

namespace Same

lemma refl (r : Replica A) : Same r r := ⟨List.prefix_rfl, rfl, rfl, rfl⟩

lemma trans (h : Same r r') (h' : Same r' r'') : Same r r'' :=
  ⟨h.sent.trans h'.sent, h'.proposals.trans h.proposals, h'.replicaViews.trans h.replicaViews,
    h'.pbftView.trans h.pbftView⟩

lemma send (r : Replica A) (dst : Dest) {msg : Msg} (h : msg.prePrepare? = none) :
    Same r (r.send dst msg) :=
  ⟨List.prefix_append _ _, prePrepares_append (by simpa using h), rfl, rfl⟩

lemma of_quiet (h : Quiet r r') : Same r r' := by
  obtain ⟨ms, hms, hno⟩ := h.sent
  have hproposals : prePrepares r'.sent = prePrepares r.sent := by
    rw [hms]
    exact prePrepares_append fun x hx => prePrepare?_of_not_isRepair (hno x hx)
  refine ⟨⟨ms, hms.symm⟩, hproposals, ?_, ?_⟩
  · change r'.replicaViews = r.replicaViews
    rw [h.eq]
  · change r'.pbftView = r.pbftView
    rw [h.eq]

end Same

/-! ### What leaves the views alone -/

section

variable [Sha256]

lemma startRepair_same (h : r.startRepair cfg = .ok r') : Same r r' := by
  obtain ⟨-, m, -, -, -, -, rfl⟩ := startRepair_eq h
  exact .send _ _ rfl

lemma doPrePreparePhase_sent (cfg : Config) (r : Replica A) (round : ℕ) :
    r.sent <+: (r.doPrePreparePhase cfg round).sent ∧
    (r.doPrePreparePhase cfg round).replicaViews = r.replicaViews ∧
    (r.doPrePreparePhase cfg round).pbftView = r.pbftView := by
  obtain ⟨digest, ms, heq⟩ := doPrePreparePhase_eq cfg r round
  rw [heq]
  exact ⟨List.prefix_append _ _, rfl, rfl⟩

/-- A view change sends messages, and leaves the views of the others alone. -/
lemma startViewChange_sent {v : ℕ} (h : r.startViewChange cfg v = .ok r') :
    r.sent <+: r'.sent ∧ r'.replicaViews = r.replicaViews := by
  obtain ⟨m, digest, ms, -, rfl⟩ := startViewChange_eq h
  exact ⟨List.prefix_append _ _, rfl⟩

lemma processPrePrepare_same {m : PBFTPrePrepare} (h : r.processPrePrepare cfg m = .ok r') :
    Same r r' := by
  rcases processPrePrepare_cases h with rfl | ⟨-, -, -, s, suffix, -, -, rfl⟩
  · exact .refl _
  · exact .send _ _ rfl

lemma processPrepare_same {m : PBFTPrepare} {sig : Bytes}
    (h : r.processPrepare cfg m sig = .ok r') : Same r r' := by
  rcases processPrepare_cases h with rfl | ⟨-, rfl | ⟨proposal, -, -, -, -, hcommit⟩⟩
  · exact .refl _
  · exact .refl _
  · obtain ⟨_, suffix, -, -, rfl⟩ := doCommitPhase_eq hcommit
    exact .send _ _ rfl

lemma processRepairTimeout_same {m : RepairTimeout} {sig : Bytes}
    (h : r.processRepairTimeout cfg m sig = .ok r') : Same r r' := by
  rcases processRepairTimeout_cases h with rfl | ⟨coll, -, rfl | ⟨proof, hstart⟩⟩
  · exact .refl _
  · exact .refl _
  · have hsame := startRepair_same hstart
    exact Same.trans (.send _ _ rfl) hsame

lemma FollowsUp.same (h : FollowsUp cfg r r') : Same r r' := by
  cases h with
  | waits => exact .refl r
  | replyProof hstart => exact (Same.send r _ rfl).trans (startRepair_same hstart)
  | timeoutProof hstart => exact (Same.send r _ rfl).trans (startRepair_same hstart)

end

/-! ### The end of a repair -/

section

variable [Application A] [Sha256] [PaddedRequestData] {r₁ : Replica A}

omit [Application A] [Sha256] [PaddedRequestData] in
lemma sendMissingRequestFetch_same (r : Replica A) (ids : List RequestId) :
    Same r (r.sendMissingRequestFetch ids) := by
  rw [sendMissingRequestFetch]
  split_ifs
  · exact .refl r
  · exact .send _ _ rfl

lemma applyProposal_same {suffix : LogSuffix} {available : RequestMap Bytes}
    {aborted : List ClientRequestProto} {res : Option (List ClientRequestProto)}
    (h : r.applyProposal suffix available aborted = .ok (r', res)) : Same r r' := by
  obtain ⟨log, missing, -, ⟨-, rfl, -⟩ | ⟨ids, -, rfl, -⟩⟩ := applyProposal_cases h
  · exact .refl _
  · have hsame := sendMissingRequestFetch_same { r with log } ids
    exact hsame

lemma tryApply_same {res : Option (List ClientRequestProto)} (h : r.tryApply cfg = .ok (r', res)) :
    Same r r' := by
  obtain ⟨suffix, proposal, -, -, ⟨-, aborted, -, rfl, -⟩ | ⟨-, hrest⟩⟩ := tryApply_cases h
  · exact .refl _
  rcases hrest with ⟨aborted, -, -, happly⟩ | ⟨-, -, sent, hno, rfl⟩
  · have hsame := applyProposal_same happly
    exact hsame
  · have hproposals := prePrepares_append (l := r.sent) fun x hx =>
      prePrepare?_of_not_isRepair (hno x hx)
    exact ⟨List.prefix_append _ _, hproposals, rfl, rfl⟩

lemma finishRepair_same {aborted : List ClientRequestProto}
    (h : r.finishRepair cfg now aborted = .ok r') : Same r r' := by
  obtain ⟨suffix, r₁, r₂, hq₁, -, hq₂, -, hend⟩ := finishRepair_cases h
  have hsame₁ : Same r r₁ := by
    have hquiet := Same.of_quiet hq₁
    exact hquiet
  have hsame₂ : Same r₁ r₂ := by
    have hquiet := Same.of_quiet hq₂
    exact hquiet
  have hsame := hsame₁.trans hsame₂
  rcases hend with ⟨-, rfl⟩ | ⟨-, hstart⟩
  · exact hsame
  · have hlast := startRepair_same hstart
    exact hsame.trans hlast

lemma tryFinishRepair_same (h : r.tryFinishRepair cfg now = .ok r') : Same r r' := by
  obtain ⟨⟨r₁, res⟩, happly, h⟩ := bind_eq_ok.mp h
  have hsame := tryApply_same happly
  cases res with
  | none =>
      cases pure_eq_ok.mp h
      exact hsame
  | some aborted => exact hsame.trans (finishRepair_same h)

lemma processPBFTCommit_same {m : PBFTCommit} {sig : Bytes}
    (h : r.processPBFTCommit cfg now m sig = .ok r') : Same r r' := by
  have hadd : Same r (r.addPBFTCommit m sig) := .refl _
  rcases processPBFTCommit_cases h with rfl | ⟨-, -, rfl | ⟨-, htry⟩⟩
  · exact .refl r'
  · exact hadd
  · exact hadd.trans (tryFinishRepair_same htry)

omit [Application A] [Sha256] [PaddedRequestData] in
lemma foldl_addMissingRequest_views (reqs : List RequestData) (r : Replica A) :
    Same r (reqs.foldl addMissingRequest r) := by
  induction reqs generalizing r with
  | nil => exact .refl r
  | cons req reqs ih =>
      have hreq : Same r (r.addMissingRequest req) := by
        rw [addMissingRequest]
        split_ifs
        · exact .refl _
        · exact .refl r
      exact hreq.trans (ih _)

lemma processMissingRequestReply_same {reply : MissingRequestReply}
    (h : r.processMissingRequestReply cfg now reply = .ok r') : Same r r' := by
  have hfold := foldl_addMissingRequest_views reply.requests r
  rcases processMissingRequestReply_cases h [] with rfl | rfl | ⟨-, htry⟩
  · exact .refl r'
  · exact hfold
  · have hsame := tryFinishRepair_same htry
    exact hfold.trans hsame

lemma processDOMRequest_same {deadline : ℕ} {m : ClientRequestProto}
    (h : r.processDOMRequest cfg now deadline m = .ok r') : Same r r' := by
  rcases processDOMRequest_cases h with ⟨-, h⟩ | ⟨-, ⟨pending, rfl⟩ | ⟨-, htry⟩⟩
  · exact .of_quiet (processClientRequest_grows h).1
  · exact .refl _
  · have hsame := tryFinishRepair_same htry
    exact hsame

/-! ### Snapshots -/

lemma applySnapshot_same {reply : SnapshotReply} {res : Option (List ClientRequestProto)}
    (h : r.applySnapshot cfg reply = .ok (r', res)) : Same r r' := by
  rcases applySnapshot_cases h with ⟨-, rfl⟩ | ⟨-, -, suffix, -, ⟨-, -, rfl⟩ |
      ⟨-, aborted, available, log, r₁, -, -, hclean, happly⟩⟩
  · exact .refl r'
  · exact .refl _
  · have hquiet := Same.of_quiet (cleanStaleCollectors_quiet hclean).1
    have hsame := applyProposal_same happly
    exact hquiet.trans hsame

lemma alignLog_same {reply : SnapshotReply} (h : r.alignLog cfg reply = .ok r') : Same r r' := by
  obtain ⟨log, r₁, ms, -, hclean, hms, rfl⟩ := alignLog_cases h
  have hclean' := Same.of_quiet (cleanStaleCollectors_quiet hclean).1
  have hresent : Same r₁ { r₁ with sent := r₁.sent ++ ms } := .of_quiet ⟨rfl, ms, rfl, hms⟩
  exact hclean'.trans hresent

lemma processSnapshotReply_same {reply : SnapshotReply}
    (h : r.processSnapshotReply cfg now reply = .ok r') : Same r r' := by
  rcases processSnapshotReply_cases h with rfl | ⟨-, -, ⟨-, happly |
      ⟨r₂, r₃, aborted, happly, hfinish, rfl⟩⟩ | ⟨-, -, r₁, halign, rfl⟩⟩
  · exact .refl _
  · exact applySnapshot_same happly
  · have hsame := (applySnapshot_same happly).trans (finishRepair_same hfinish)
    exact hsame
  · have hsame := alignLog_same halign
    exact hsame

omit [PaddedRequestData] in
lemma processReply_same {reply : Reply} {sig : Bytes}
    (h : r.processReply cfg now reply sig = .ok r') : Same r r' := by
  obtain ⟨-, hq | ⟨r₁, proof, hq, -, hstart⟩⟩ := processReply_cases h
  · exact .of_quiet hq
  · exact ((Same.of_quiet hq).trans (.send r₁ _ rfl)).trans (startRepair_same hstart)

/-! ### What changes the views -/

/-- What an event does to the views: `updateReplicaView` learns what the event announces, and
starts a view change if enough replicas have a higher view; else it is the timer that does. -/
structure ViewStep (cfg : Config) (r : Replica A) (e : ReplicaEvent) (r' : Replica A) : Prop where
  sent : r.sent <+: r'.sent
  learns : r'.replicaViews = r.replicaViews ∨ ∃ i v round, e.announcement = some (i, v, round) ∧
    r'.replicaViews = r.replicaViews.insert i (v, round)
  changes : r'.pbftView = r.pbftView ∨ (∃ now, e = .timeouts now) ∨
    ∃ i v round, e.announcement = some (i, v, round) ∧ cfg.numReplicas - cfg.quorumSize + 1 ≤
      (r.higherViews (r.replicaViews.insert i (v, round))).length

omit [Application A] [Sha256] [PaddedRequestData] in
lemma Same.viewStep (h : Same r r') : ViewStep cfg r e r' :=
  ⟨h.sent, .inl h.replicaViews, .inl h.pbftView⟩

omit [Application A] [Sha256] [PaddedRequestData] in
lemma ViewStep.same (h : ViewStep cfg r e r') (h' : Same r' r'') : ViewStep cfg r e r'' := by
  have hviews : r''.replicaViews = r'.replicaViews := h'.replicaViews
  have hview : r''.pbftView = r'.pbftView := h'.pbftView
  exact ⟨h.sent.trans h'.sent, hviews ▸ h.learns, hview ▸ h.changes⟩

omit [Application A] [PaddedRequestData] in
lemma updateReplicaView_views {i v round : ℕ} (he : e.announcement = some (i, v, round))
    (h : r.updateReplicaView cfg now i v round = .ok r') : ViewStep cfg r e r' := by
  rcases updateReplicaView_cases h with rfl | ⟨-, rfl | ⟨-, hmany, hview⟩⟩
  · exact (Same.refl _).viewStep
  · exact ⟨List.prefix_rfl, .inr ⟨i, v, round, he, rfl⟩, .inl rfl⟩
  · obtain ⟨hsent, hviews⟩ := startViewChange_sent hview
    exact ⟨hsent, .inr ⟨i, v, round, he, hviews⟩, .inr (.inr ⟨i, v, round, he, hmany⟩)⟩

omit [Application A] [PaddedRequestData] in
lemma processRepairStart_views {m : RepairStart} {sig : Bytes} :
    ViewStep cfg r e (r.processRepairStart cfg m sig) := by
  rcases processRepairStart_cases cfg r m sig with ⟨-, heq⟩ | ⟨-, -, heq⟩ | ⟨-, -, heq⟩
  · rw [heq]
    exact (Same.refl r).viewStep
  · rw [heq]
    exact (Same.refl r).viewStep
  rw [heq]
  split_ifs
  · obtain ⟨hsent, hviews, hview⟩ := doPrePreparePhase_sent cfg (r.storeStart m sig) m.round
    exact ⟨hsent, .inl hviews, .inl hview⟩
  · exact ⟨List.prefix_rfl, .inl rfl, .inl rfl⟩

omit [PaddedRequestData] in
lemma checkTimeouts_views (h : r.checkTimeouts cfg now = .ok r') :
    ViewStep cfg r (.timeouts now) r' := by
  obtain ⟨r₁, -, hquiet, -, rfl | ⟨-, hview⟩⟩ := checkTimeouts_cases h
  · exact (Same.of_quiet hquiet).viewStep
  · have hsame := Same.of_quiet hquiet
    obtain ⟨hsent, hviews⟩ := startViewChange_sent hview
    exact ⟨hsame.sent.trans hsent, .inl (hviews.trans hsame.replicaViews), .inr (.inl ⟨now, rfl⟩)⟩

/-- **Most events leave the views alone**, and no proposal is sent because of them. -/
lemma handle_same (he : e.movesView = false) (h : r.handle cfg e = .ok r') : Same r r' := by
  cases e with
  | request now deadline m => exact processDOMRequest_same h
  | snapshot =>
      rw [handle] at h
      split at h
      · cases h
        exact .refl r
      · have hsame := Same.of_quiet (processSnapshot_quiet h).1
        exact hsame
  | timeouts now => cases he
  | message now msg sig =>
      cases msg with
      | clientRequest m => exact .of_quiet (processClientRequest_grows h).1
      | cert m => exact .of_quiet (processCert_quiet h).1
      | reply m => exact processReply_same h
      | commit m => exact .of_quiet (processCommit_quiet h).1
      | snapshotRequest m => exact .of_quiet (processSnapshotRequest_quiet h).1
      | snapshotReply m => exact processSnapshotReply_same h
      | missingRequestFetch m => exact .of_quiet (processMissingRequestFetch_quiet h).1
      | missingRequestReply m => exact processMissingRequestReply_same h
      | repairTimeout m => exact processRepairTimeout_same h
      | prePrepare m => exact processPrePrepare_same h
      | prepare m => exact processPrepare_same h
      | pbftCommit m => exact processPBFTCommit_same h
      | domRequest => exact Except.ok.inj h ▸ .refl r
      | certReply => exact Except.ok.inj h ▸ .refl r
      | committedReply => exact Except.ok.inj h ▸ .refl r
      | repairSummary => exact Except.ok.inj h ▸ .refl r
      | _ => cases he

/-- **What an event does to the views.** -/
theorem handle_views (h : r.handle cfg e = .ok r') : ViewStep cfg r e r' := by
  by_cases he : e.movesView = false
  · exact (handle_same he h).viewStep
  rcases ReplicaEvent.cases_of_movesView (Bool.of_not_eq_false he) with
    ⟨now, rfl⟩ | ⟨now, m, sig, rfl⟩ | ⟨i, v, round, hann⟩
  · exact checkTimeouts_views h
  · cases Except.ok.inj h
    exact processRepairStart_views
  · obtain ⟨_, _, _, r₁, -, hview, hfollow⟩ := handle_announced hann h
    exact (updateReplicaView_views hann hview).same hfollow.same

end

end Replica

end DomBft
