import DomBft.Replica.Cluster

/-!
The start of a view change: whether the start message of the repair is there when it is sent once
more.

* `CallsViewChange`: the places that call `startViewChange`, with the state in which they do.
* `CanResend`: the replica is prepared in its round, or has a start message of its round.
* `Ready`: a replica that is in a repair has a start message of its round; `Core.Step.ready` is
  the step lemma.
* `StartsInRepair`: the condition on the events; `view_change_start_safe`: under it **every view
  change can start**.
-/

namespace DomBft

open Std (ExtTreeMap)
open Fallible Transition

namespace Replica

variable {A : Type} {r r' r₁ r₂ : Replica A} {cfg : Config} {e : ReplicaEvent} {now v : ℕ}

/-! ### The calls -/

/-- A replica whose view has timed out. -/
def viewTimeout (now : ℕ) (r : Replica A) : Replica A :=
  { r with
    repairViewStart := now
    numConsecutiveViewChanges := r.numConsecutiveViewChanges + 1 }

/-- What a replica does with an event after it has learned the view of another one. -/
def afterView [Sha256] (cfg : Config) (r : Replica A) : ReplicaEvent → Except Fault (Replica A)
  | .message _ (.repairReplyProof msg) _ =>
    if r.round < msg.round then .ok { r with pendingRepair := true }
    else if r.repair then .ok r
    else if msg.round < r.round then .ok r
    else if msg.view < r.pbftView then .ok r
    else (r.broadcastToReplicas <| .repairReplyProof { msg with
      replicaId := r.replicaId, view := r.pbftView }).startRepair cfg
  | .message _ (.repairTimeoutProof msg) _ =>
    if r.round < msg.round then .ok { r with pendingRepair := true }
    else if r.repair then .ok r
    else if msg.round < r.round then .ok r
    else (r.broadcastToReplicas (.repairTimeoutProof msg)).startRepair cfg
  | _ => .ok r

/-- The replica in the state `r` takes an event and calls `startViewChange` in the state `r₁`,
with the view `v`: because enough replicas have announced a higher view, or because its own view
has timed out. -/
inductive CallsViewChange [Application A] (cfg : Config) (r : Replica A) :
    ReplicaEvent → Replica A → ℕ → Prop
  | announced {now id view round : ℕ} {msg : Msg} {sig : Bytes} :
      (ReplicaEvent.message now msg sig).announcement = some (id, view, round) →
      r.replicaViews[id]? ≠ some (view, round) →
      (r.learnView cfg now id view round).minHigherView ≠ 2 ^ 32 - 1 →
      cfg.numReplicas - cfg.quorumSize + 1 ≤
        (r.higherViews (r.replicaViews.insert id (view, round))).length →
      CallsViewChange cfg r (.message now msg sig) (r.learnView cfg now id view round)
        (r.learnView cfg now id view round).minHigherView
  | timedOut {now : ℕ} {r₁ : Replica A} :
      (r.checkpointCollectors.collectors.toList.foldl
        (fun r (key, coll) => r.checkCollector cfg now key coll) r).checkCheckpointTimeout cfg now =
          .ok r₁ →
      r.ViewTimedOut cfg now →
      CallsViewChange cfg r (.timeouts now) (r₁.viewTimeout now) ((r₁.pbftView + 1) % 2 ^ 32)

/-- `updateReplicaView`, where it calls `startViewChange`. -/
lemma updateReplicaView_calls [Sha256] (now : ℕ) {id view round : ℕ}
    (hnew : r.replicaViews[id]? ≠ some (view, round))
    (hmin : (r.learnView cfg now id view round).minHigherView ≠ 2 ^ 32 - 1)
    (hmany : cfg.numReplicas - cfg.quorumSize + 1 ≤
      (r.higherViews (r.replicaViews.insert id (view, round))).length) :
    r.updateReplicaView cfg now id view round =
      (r.learnView cfg now id view round).startViewChange cfg
        (r.learnView cfg now id view round).minHigherView := by
  rw [updateReplicaView, if_neg hnew]
  have hnot : ¬(r.higherViews (r.replicaViews.insert id (view, round)) ≠ [] ∧
      (r.learnView cfg now id view round).minHigherView = 2 ^ 32 - 1) := fun h => hmin h.2
  exact (if_neg hnot).trans (if_pos hmany)

section

variable [Application A] [Sha256] [PaddedRequestData]

/-- Where `startViewChange` is called, the event is that call and what follows it. -/
lemma CallsViewChange.handle_eq (h : r.CallsViewChange cfg e r₁ v) :
    r.handle cfg e = (r₁.startViewChange cfg v).bind fun r' => r'.afterView cfg e := by
  cases h with
  | @announced now id view round msg sig hann hnew hmin hmany =>
      have hcall := updateReplicaView_calls now hnew hmin hmany
      cases msg with
      | viewUpdate m =>
          cases hann
          rw [handle, process, hcall]
          exact (bind_pure _).symm
      | repairReplyProof m =>
          cases hann
          rw [handle, process, processRepairReplyProof, hcall]
          rfl
      | repairTimeoutProof m =>
          cases hann
          rw [handle, process, processRepairTimeoutProof, hcall]
          rfl
      | _ => cases hann
  | @timedOut now r₁ htimeout hdue =>
      have hquiet := (foldl_checkCollector_quiet cfg now _ r).1.trans
        (checkCheckpointTimeout_quiet htimeout).1
      have hdue₁ : r₁.ViewTimedOut cfg now := by
        rw [hquiet.eq]
        exact hdue
      rw [handle, checkTimeouts]
      dsimp only
      rw [htimeout, ok_bind, checkViewTimeout]
      exact (if_pos hdue₁).trans (bind_pure _).symm

end

section

variable [Application A]

/-- The state in which `startViewChange` is called has the core of before. -/
lemma CallsViewChange.core_eq (h : r.CallsViewChange cfg e r₁ v) : r₁.core = r.core := by
  cases h with
  | announced => rfl
  | timedOut htimeout =>
      have hquiet := (foldl_checkCollector_quiet cfg _ _ r).1.trans
        (checkCheckpointTimeout_quiet htimeout).1
      exact hquiet.core_eq

end

/-! ### The start message -/

/-- The start message of the round can be sent once more, unless a new one with the prepares
replaces it. -/
def CanResend (r : Replica A) : Prop :=
  r.lastPreparedState.round ≠ r.round → ∃ m, r.repairStart = some m ∧ m.round = r.round

lemma sendViewChange_ok_iff (hn : 0 < cfg.numReplicas) :
    (∃ r', r.sendViewChange cfg = .ok r') ↔ r.CanResend := by
  have hsend : ∀ (x : Replica A) msg, ∃ r', x.sendToReplica cfg (r.getPrimary cfg) msg = .ok r' :=
    fun x msg => ⟨_, if_pos (Nat.mod_lt r.pbftView hn)⟩
  rw [sendViewChange, CanResend]
  by_cases hprepared : r.lastPreparedState.round = r.round
  · rw [if_pos hprepared]
    exact iff_of_true (hsend _ _) fun h => absurd hprepared h
  rw [if_neg hprepared]
  cases hm : r.repairStart with
  | none =>
      refine iff_of_false ?_ fun h => ?_
      · rintro ⟨r', h⟩
        cases h
      · obtain ⟨m, hm, -⟩ := h hprepared
        cases hm
  | some m =>
      dsimp only
      by_cases hround : m.round = r.round
      · rw [if_neg (not_not.mpr hround)]
        exact iff_of_true (hsend _ _) fun _ => ⟨m, rfl, hround⟩
      · rw [if_pos hround]
        refine iff_of_false ?_ fun h => ?_
        · rintro ⟨r', h⟩
          cases h
        · obtain ⟨m', hm', hround'⟩ := h hprepared
          cases hm'
          exact hround hround'

/-- **A view change starts if and only if** the start message can be sent: in no other case does
`startViewChange` fail. -/
lemma startViewChange_ok_iff [Sha256] (hn : 0 < cfg.numReplicas) :
    (∃ r', r.startViewChange cfg v = .ok r') ↔ r.CanResend := by
  have hsend := sendViewChange_ok_iff (r := { r with
    pbftView := v, repair := true, viewPrepared := false, repairViewStart := 0 }) hn
  refine Iff.trans ⟨?_, ?_⟩ hsend
  · rintro ⟨r', h⟩
    obtain ⟨r₁, hr₁, -⟩ := bind_eq_ok.mp h
    exact ⟨r₁, hr₁⟩
  · rintro ⟨r₁, hr₁⟩
    exact ⟨_, bind_eq_ok.mpr ⟨r₁, hr₁, rfl⟩⟩

end Replica

namespace Core

/-- A replica that is in a repair has a start message of its round. -/
def Ready (c : Core) : Prop :=
  c.repair = true → ∃ m, c.repairStart = some m ∧ m.round = c.round

variable {A : Type} [Application A] [Sha256] [PaddedRequestData] {r : Replica A} {cfg : Config}
  {e : ReplicaEvent} {c c' : Core}

/-- **Every step of the agreement keeps the start message**, but where a repair is tried to be
finished and where a snapshot is taken. -/
lemma Step.ready (htry : ∀ r₁, ¬r.CallsTryFinish cfg e r₁)
    (hsnap : ∀ now m sig, e ≠ .message now (.snapshotReply m) sig) (h : Step cfg r e c c')
    (hc : c.Ready) : c'.Ready := by
  cases h with
  | startRepair _ _ hround => exact fun _ => ⟨_, rfl, hround⟩
  | changeView _ hm => exact fun _ => ⟨_, rfl, hm.round⟩
  | setRound hcall => exact absurd hcall (htry _)
  | finish hcall =>
      cases hcall with
      | tried hcall _ => exact absurd hcall (htry _)
      | snapshot => exact absurd rfl (hsnap _ _ _)
  | align he => exact absurd he (hsnap _ _ _)
  | _ => exact hc

lemma Steps.ready (htry : ∀ r₁, ¬r.CallsTryFinish cfg e r₁)
    (hsnap : ∀ now m sig, e ≠ .message now (.snapshotReply m) sig) (h : Steps cfg r e c c')
    (hc : c.Ready) : c'.Ready := by
  induction h with
  | refl => exact hc
  | tail _ hstep ih => exact hstep.ready htry hsnap ih

end Core

namespace Replica

section

variable {A : Type} [Application A] [Sha256] [PaddedRequestData] {r r' r₁ r₂ : Replica A}
  {cfg : Config} {e : ReplicaEvent} {now v : ℕ}

/-! ### The end of a repair -/

/-- The repair has been left, or a new one, that has been pending, has a start message. -/
lemma finishRepair_ready {aborted : List ClientRequestProto}
    (h : r.finishRepair cfg now aborted = .ok r') :
    r'.core.Ready ∧ r'.round = (r.round + 1) % 2 ^ 32 ∧
      (r.pendingRepair = false → r'.repair = false) := by
  obtain ⟨suffix, r₁, r₂, hq₁, -, hq₂, -, hend⟩ := finishRepair_cases h
  have hround : r₂.round = (r.round + 1) % 2 ^ 32 := by
    rw [hq₂.eq]
    show r₁.round = _
    rw [hq₁.eq]
  have hpending : r₂.pendingRepair = r.pendingRepair := by
    rw [hq₂.eq]
    show r₁.pendingRepair = _
    rw [hq₁.eq]
  have hrepair : r₂.repair = false := by
    rw [hq₂.eq]
    rfl
  rcases hend with ⟨-, rfl⟩ | ⟨hpend, hstart⟩
  · refine ⟨fun hrep => ?_, hround, fun _ => hrepair⟩
    have hrep' : r₂.repair = true := hrep
    rw [hrepair] at hrep'
    cases hrep'
  · obtain ⟨-, m, -, hm, -, -, rfl⟩ := startRepair_eq hstart
    refine ⟨fun _ => ⟨m, rfl, hm⟩, hround, fun hno => ?_⟩
    rw [← hpending, hpend] at hno
    cases hno

omit [Application A] [Sha256] [PaddedRequestData] in
/-- What a view change needs is left alone. -/
def SameStart (r r' : Replica A) : Prop :=
  r'.repair = r.repair ∧ r'.repairStart = r.repairStart ∧ r'.pendingRepair = r.pendingRepair

lemma applyProposal_start {suffix : LogSuffix} {available : RequestMap Bytes}
    {aborted : List ClientRequestProto} {res : Option (List ClientRequestProto)}
    (h : r.applyProposal suffix available aborted = .ok (r', res)) :
    SameStart r r' ∧ r'.round = r.round := by
  obtain ⟨log, missing, -, ⟨-, rfl, -⟩ | ⟨ids, -, rfl, -⟩⟩ := applyProposal_cases h
  · exact ⟨⟨rfl, rfl, rfl⟩, rfl⟩
  · rw [sendMissingRequestFetch]
    split_ifs
    · exact ⟨⟨rfl, rfl, rfl⟩, rfl⟩
    · exact ⟨⟨rfl, rfl, rfl⟩, rfl⟩

/-- `tryFinishRepair`, where it waits for something. -/
lemma tryApply_waits {proposal : RepairProposal} (hp : r.repairProposal = some proposal)
    (h : r.tryApply cfg = .ok (r', none)) : SameStart r r' ∧ r'.round = proposal.round := by
  obtain ⟨suffix, proposal', -, hp', ⟨-, aborted, -, -, hres⟩ | ⟨-, hrest⟩⟩ := tryApply_cases h
  · cases hres
  obtain rfl : proposal = proposal' := Option.some.inj (hp.symm.trans hp')
  rcases hrest with ⟨aborted, -, -, happly⟩ | ⟨-, -, sent, -, rfl⟩
  · exact applyProposal_start happly
  · exact ⟨⟨rfl, rfl, rfl⟩, rfl⟩

lemma applySnapshot_start {reply : SnapshotReply} {res : Option (List ClientRequestProto)}
    (h : r.applySnapshot cfg reply = .ok (r', res)) : SameStart r r' ∧ r'.round = r.round := by
  rcases applySnapshot_cases h with ⟨-, rfl⟩ | ⟨-, -, suffix, -, ⟨-, -, rfl⟩ |
      ⟨-, aborted, available, log, r₁, -, -, hclean, happly⟩⟩
  · exact ⟨⟨rfl, rfl, rfl⟩, rfl⟩
  · exact ⟨⟨rfl, rfl, rfl⟩, rfl⟩
  · have hsame := applyProposal_start happly
    rw [(cleanStaleCollectors_quiet hclean).1.eq] at hsame
    exact hsame

lemma alignLog_repair {reply : SnapshotReply} (h : r.alignLog cfg reply = .ok r') :
    r'.repair = r.repair := by
  obtain ⟨log, r₁, ms, -, hclean, -, rfl⟩ := alignLog_cases h
  have hrepair := congrArg Replica.repair (cleanStaleCollectors_quiet hclean).1.eq
  exact hrepair

/-! ### The condition -/

/-- What makes every view change start: it starts in a repair, or the replica is prepared in its
round; where a repair has to wait for something, the proposal is of the round; and the snapshot
that ends a repair does not skip the round of a repair that is pending. -/
structure StartsInRepair (cfg : Config) (r : Replica A) (e : ReplicaEvent) : Prop where
  inRepair : ∀ r₁ v, r.CallsViewChange cfg e r₁ v →
    r.repair = true ∨ r.lastPreparedState.round = r.round
  waits : ∀ r₁ r₂ proposal, r.CallsTryFinish cfg e r₁ → r₁.tryApply cfg = .ok (r₂, none) →
    r.repairProposal = some proposal → proposal.round = r.round
  snapshot : ∀ now m sig r₂ aborted, e = .message now (.snapshotReply m) sig →
    r.CallsFinish cfg e r₂ aborted → r.pendingRepair = true → m.round ≤ (r.round + 1) % 2 ^ 32

lemma processSnapshotReply_ready {m : SnapshotReply} {sig : Bytes}
    (hfit : r.StartsInRepair cfg (.message now (.snapshotReply m) sig)) (hr : r.core.Ready)
    (h : r.processSnapshotReply cfg now m = .ok r') : r'.core.Ready := by
  rcases processSnapshotReply_cases h with rfl | ⟨hround, hseq, ⟨hrep, happly |
      ⟨r₁, r₂, aborted, happly, hfinish, rfl⟩⟩ | ⟨hrep, -, r₁, halign, rfl⟩⟩
  · exact hr
  · obtain ⟨⟨-, hstart, -⟩, hsame⟩ := applySnapshot_start happly
    intro _
    obtain ⟨m', hm', hround'⟩ := hr hrep
    exact ⟨m', hstart.trans hm', hround'.trans hsame.symm⟩
  · obtain ⟨⟨-, -, hpending⟩, hsame⟩ := applySnapshot_start happly
    obtain ⟨hready, hround₂, hleft⟩ := finishRepair_ready hfinish
    intro hrep₂
    have hrep₂' : r₂.repair = true := hrep₂
    have hpend : r.pendingRepair = true := by
      by_contra hno
      rw [hleft (hpending.trans (Bool.eq_false_iff.mpr hno))] at hrep₂'
      cases hrep₂'
    have hle := hfit.snapshot now m sig r₁ aborted rfl (.snapshot hround hseq hrep happly) hpend
    obtain ⟨m', hm', hround'⟩ := hready hrep₂'
    have hround₂' : r₂.round = (r.round + 1) % 2 ^ 32 := by rw [hround₂, hsame]
    have hmax : max r₂.round m.round = r₂.round := max_eq_left (hround₂'.symm ▸ hle)
    exact ⟨m', hm', hround'.trans hmax.symm⟩
  · intro hrep₁
    have hrep₁' : r₁.repair = true := hrep₁
    rw [alignLog_repair halign, hrep] at hrep₁'
    cases hrep₁'

lemma handle_ready (hfit : r.StartsInRepair cfg e) (hr : r.core.Ready)
    (h : r.handle cfg e = .ok r') : r'.core.Ready := by
  by_cases htry : ∃ r₁, r.CallsTryFinish cfg e r₁
  · obtain ⟨r₁, hcall⟩ := htry
    obtain ⟨now, heq⟩ := hcall.handle_eq
    rw [heq] at h
    have hcore : r₁.core.repair = r.repair ∧ r₁.core.repairStart = r.repairStart ∧
        r₁.core.repairProposal = r.repairProposal := by
      cases hcall with
      | committed => exact ⟨rfl, rfl, rfl⟩
      | @fetched now reply sig =>
          have hcore := foldl_addMissingRequest_core reply.requests r
          exact ⟨congrArg Core.repair hcore, congrArg Core.repairStart hcore,
            congrArg Core.repairProposal hcore⟩
      | queued => exact ⟨rfl, rfl, rfl⟩
    obtain ⟨⟨r₂, res⟩, happly, h⟩ := bind_eq_ok.mp h
    cases res with
    | some aborted => exact (finishRepair_ready h).1
    | none =>
        cases pure_eq_ok.mp h
        obtain ⟨-, proposal, -, hp, -⟩ := tryApply_cases happly
        obtain ⟨⟨hrepair, hstart, -⟩, hround⟩ := tryApply_waits hp happly
        have hwait := hfit.waits r₁ _ proposal hcall happly (hcore.2.2.symm.trans hp)
        intro hrep
        obtain ⟨m, hm, hmr⟩ := hr (hcore.1.symm.trans (hrepair.symm.trans hrep))
        exact ⟨m, (hstart.trans hcore.2.1).trans hm, hmr.trans (hwait.symm.trans hround.symm)⟩
  by_cases hsnap : ∃ now m sig, e = .message now (.snapshotReply m) sig
  · obtain ⟨now, m, sig, rfl⟩ := hsnap
    exact processSnapshotReply_ready hfit hr h
  exact (handle_core h).ready (fun r₁ hcall => htry ⟨r₁, hcall⟩)
    (fun now m sig he => hsnap ⟨now, m, sig, he⟩) hr

/-- A replica that is in a repair, or prepared in its round, can start a view change. -/
lemma CallsViewChange.canResend (hfit : r.StartsInRepair cfg e) (hr : r.core.Ready)
    (h : r.CallsViewChange cfg e r₁ v) : r₁.CanResend := by
  have hcan : r.CanResend := by
    intro hprepared
    rcases hfit.inRepair r₁ v h with hrep | heq
    · exact hr hrep
    · exact absurd heq hprepared
  have hcore : r₁.core = r.core := h.core_eq
  show r₁.core.lastPreparedState.round ≠ r₁.core.round →
    ∃ m, r₁.core.repairStart = some m ∧ m.round = r₁.core.round
  rw [hcore]
  exact hcan

variable [SignatureProvider] {i : ℕ} {app : A} {es : List ReplicaEvent}

/-- **Every view change can start**, in every run in which a view change starts in a repair or
with the prepares of the round, no repair waits with a proposal of another round, and no snapshot
skips the round of a repair that is pending. -/
theorem view_change_start_safe (hwf : cfg.WellFormed)
    (h : Run (system cfg i app) (fun _ r e => r.StartsInRepair cfg e) es r)
    (hfit : r.StartsInRepair cfg e) (hcall : r.CallsViewChange cfg e r₁ v) :
    (r₁.lastPreparedState.round ≠ r₁.round →
      ∃ m, r₁.repairStart = some m ∧ m.round = r₁.round) ∧
    ∃ r', r₁.startViewChange cfg v = .ok r' := by
  have hready : r.core.Ready := h.invariant (P := fun _ r => r.core.Ready)
    (by
      rintro _ rfl hrep
      cases hrep)
    fun _ _ _ _ _ hr hfit ⟨_, _, hhandle⟩ => handle_ready hfit hr hhandle
  have hcan := hcall.canResend hfit hready
  have hn : 0 < cfg.numReplicas := by
    rw [Config.WellFormed] at hwf
    omega
  exact ⟨hcan, (startViewChange_ok_iff hn).mpr hcan⟩

end

/-! ### Runs -/

section

/-- Two replies of one replica that do not match: a proof for a later round and view, which any
replica may be named as the sender of. -/
def laterProofOf (i : ℕ) : ReplicaEvent :=
  .message 1 (.repairReplyProof {
    replicaId := i
    round := 2
    view := 7
    replies := [{ round := 2, replicaId := 3 }, { round := 2, replicaId := 3, seq := 1 }]
    signatures := [[3], [3]] }) [3]

/-- The message of a replica that has gone to the view after the first. -/
def secondView (i : ℕ) : ReplicaEvent :=
  .message 1 (.viewUpdate { replicaId := i, view := 1, round := 1 }) [UInt8.ofNat i]

variable {A : Type} {r : Replica A} {cfg : Config} {e : ReplicaEvent}

/-- `StartsInRepair` on the messages about views, where it can be checked. -/
def ViewsInRepair (cfg : Config) (r : Replica A) : ReplicaEvent → Prop
  | .message _ (.viewUpdate m) _ => r.repair = true ∨
    (r.higherViews (r.replicaViews.insert m.replicaId (m.view, m.round))).length <
      cfg.numReplicas - cfg.quorumSize + 1
  | .message _ (.repairReplyProof m) _ => r.repair = true ∨
    (r.higherViews (r.replicaViews.insert m.replicaId (m.view, m.round))).length <
      cfg.numReplicas - cfg.quorumSize + 1
  | _ => False

instance (cfg : Config) (r : Replica A) (e : ReplicaEvent) : Decidable (r.ViewsInRepair cfg e) := by
  rcases e with _ | ⟨_, _ | _, _⟩ | _ <;> unfold ViewsInRepair <;> infer_instance

lemma ViewsInRepair.startsInRepair [Application A] [Sha256] [PaddedRequestData]
    (h : r.ViewsInRepair cfg e) : r.StartsInRepair cfg e := by
  refine ⟨?_, ?_, ?_⟩
  · intro r₁ v hcall
    cases hcall with
    | @announced now id view round msg sig hann _ _ hmany =>
        cases msg with
        | viewUpdate m =>
            cases hann
            exact .inl (h.resolve_right hmany.not_gt)
        | repairReplyProof m =>
            cases hann
            exact .inl (h.resolve_right hmany.not_gt)
        | _ => exact absurd h not_false
    | timedOut => exact absurd h id
  · intro r₁ r₂ proposal hcall
    cases hcall <;> exact absurd h id
  · rintro now m sig r₂ aborted rfl
    exact absurd h id

end

section

attribute [local instance] prefixSha shortPaddedRequestData counterWire fourKeys

/-- **A view change in a repair**: the repair has been started by a proof, and two replicas have
gone to the next view. -/
theorem view_change_in_repair : ∃ (r r₁ r' : Replica Counter) (v : ℕ),
    Run (system .oneFault 0 {}) (fun _ r e => r.StartsInRepair .oneFault e)
      [replyProofOf 3 0, secondView 1] r ∧
    r.CallsViewChange .oneFault (secondView 2) r₁ v ∧ r₁.startViewChange .oneFault v = .ok r' := by
  have hsome : ∃ r, [replyProofOf 3 0, secondView 1].foldlM
        (fun (r : Replica Counter) e => if r.ViewsInRepair .oneFault e
          then r.handle .oneFault e else .error .assertion) (fresh 0 {}) = .ok r ∧
      (r.ViewsInRepair .oneFault (secondView 2) ∧ r.replicaViews[2]? ≠ some (1, 1) ∧
        (r.learnView .oneFault 1 2 1 1).minHigherView ≠ 2 ^ 32 - 1 ∧
        2 ≤ (r.higherViews (r.replicaViews.insert 2 (1, 1))).length) := by
    decide +kernel
  obtain ⟨r, hfold, hnext, hnew, hmin, hmany⟩ := hsome
  have hrun : Run (system .oneFault 0 ({} : Counter)) (fun _ r e => r.StartsInRepair .oneFault e)
      ([] ++ [replyProofOf 3 0, secondView 1]) r :=
    run_of_foldlM (.start rfl) (by decide +kernel) (fun _ _ _ h => h.startsInRepair) hfold
  have hcall : r.CallsViewChange .oneFault (secondView 2) _ _ := .announced rfl hnew hmin hmany
  have hwf : Config.oneFault.WellFormed := rfl
  obtain ⟨r', hr'⟩ := (view_change_start_safe hwf hrun hnext.startsInRepair hcall).2
  exact ⟨r, _, r', _, hrun, hcall, hr'⟩

lemma deliverable_laterProofOf (s : ℕ → Replica Counter) {i : ℕ} (hi : i = 1 ∨ i = 2) :
    Deliverable .oneFault {3} s 0 (laterProofOf i) := by
  have hver : (laterProofOf i).Verified .oneFault ∧ (laterProofOf i).InRange := by
    rcases hi with rfl | rfl <;> decide
  refine deliverable_of_signed hver.1 hver.2 fun x hx => ?_
  simp only [Msg.signed, Msg.inner, List.mem_cons, List.map_cons, List.map_nil, List.zip_cons_cons,
    List.zip_nil_left, List.not_mem_nil, or_false] at hx
  rcases hx with rfl | rfl | rfl <;> rfl

/-- **Two proofs of one faulty replica break a correct one**: they are for a later round, so that
no repair is started, but the views that they announce start a view change, and there is no start
message to be sent. -/
theorem view_change_without_start : ∃ (s : ℕ → Replica Counter) (r₁ : Replica Counter) (v : ℕ),
    Run ((network .oneFault fun _ => {}).system {3}) anyStep [(0, laterProofOf 1)] s ∧
    (laterProofOf 2).Verified .oneFault ∧
    (network .oneFault fun _ => ({} : Counter)).Unforged {3} s (laterProofOf 2) ∧
    (s 0).CallsViewChange .oneFault (laterProofOf 2) r₁ v ∧
    r₁.lastPreparedState.round ≠ r₁.round ∧ r₁.repairStart = none ∧
    ¬∃ r', (s 0).handle .oneFault (laterProofOf 2) = .ok r' := by
  have hsome : ∃ t, (fresh 0 ({} : Counter)).handle .oneFault (laterProofOf 1) = .ok t ∧
      (t.replicaViews[2]? ≠ some (7, 2) ∧
        (t.learnView .oneFault 1 2 7 2).minHigherView ≠ 2 ^ 32 - 1 ∧
        2 ≤ (t.higherViews (t.replicaViews.insert 2 (7, 2))).length) ∧
      t.lastPreparedState.round ≠ t.round ∧ t.repairStart = none := by
    decide +kernel
  obtain ⟨t, ht, ⟨hnew, hmin, hmany⟩, hprepared, hnone⟩ := hsome
  let s₀ : ℕ → Replica Counter := fun j => fresh j {}
  let s : ℕ → Replica Counter := fun j => if j = 0 then t else s₀ j
  have hrun : Run ((network .oneFault fun _ => ({} : Counter)).system {3}) anyStep
      ([] ++ [(0, laterProofOf 1)]) s :=
    .step (.start fun _ => rfl) trivial ((deliverable_laterProofOf s₀ (.inl rfl)).step ht)
  have hnext := deliverable_laterProofOf s (.inr rfl)
  have hcall : (s 0).CallsViewChange .oneFault (laterProofOf 2) _ _ :=
    .announced rfl hnew hmin hmany
  refine ⟨s, _, _, hrun, hnext.2.2.1, hnext.unforged, hcall, hprepared, hnone, ?_⟩
  rintro ⟨r', hr'⟩
  rw [hcall.handle_eq] at hr'
  obtain ⟨r₂, hr₂, -⟩ := bind_eq_ok.mp hr'
  obtain ⟨m, hm, -⟩ := (startViewChange_ok_iff (by decide)).mp ⟨r₂, hr₂⟩ hprepared
  cases hnone.symm.trans hm

end

end Replica

end DomBft
