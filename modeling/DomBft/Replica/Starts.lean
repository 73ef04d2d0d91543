import DomBft.Replica.History
import DomBft.Replica.Proposals

/-!
The start messages that a primary has stored, and whether it proposes once there is a quorum.

* `StartTrace`: a replica with all start messages that it has accepted, also those that
  `processRepairStart` drops because the sender has sent another one.
* `Proposed`: the proposal for a round and view has been broadcast.
* `StartsInOrder`: the condition on the start messages and the view changes.
* `Orderly`, the invariant: the stored messages are the largest ones, and a primary has proposed
  for every round that has a quorum of them.
* `primary_proposes`: under the condition **a primary has proposed once a quorum has sent start
  messages for its round and view**.
* `later_view_not_proposed`: a view of the same primary that it never proposes for.
-/

namespace DomBft

open Std (ExtTreeMap)
open Fallible Transition

/-- A start message is compared by its round, and then by its view. -/
def RepairStart.rank (m : RepairStart) : ℕ ×ₗ ℕ := toLex (m.round, m.pbftView)

lemma RepairStart.rank_le_iff {m m' : RepairStart} :
    m.rank ≤ m'.rank ↔ m.round < m'.round ∨ m.round = m'.round ∧ m.pbftView ≤ m'.pbftView := by
  rw [rank, rank, Prod.Lex.toLex_le_toLex]

namespace Replica

variable {A : Type} {r r' r₁ : Replica A} {cfg : Config} {e : ReplicaEvent} {m : RepairStart}
  {sig : Bytes} {round view v : ℕ}

/-- The start message that is accepted with an event. -/
def acceptedStart (cfg : Config) (r : Replica A) : ReplicaEvent → List RepairStart
  | .message _ (.repairStart m) _ => if r.Accepts cfg m then [m] else []
  | _ => []

/-- The proposal for a round and view has been broadcast. -/
def Proposed (r : Replica A) (round view : ℕ) : Prop :=
  ∃ m, (.replicas, .prePrepare m) ∈ r.sent ∧ m.round = round ∧ m.pbftView = view

lemma Proposed.mono (h : r.Proposed round view) (hsent : r.sent <+: r'.sent) :
    r'.Proposed round view := by
  obtain ⟨m, hm, hround, hview⟩ := h
  exact ⟨m, hsent.subset hm, hround, hview⟩

/-! ### Counting what is stored -/

/-- The number of start messages that are stored for a round. -/
def numStarts (r : Replica A) (round : ℕ) : ℕ :=
  (r.repairStartMsgs.toList.filter fun (_, m) => m.round = round).length

/-- The number of start messages that are stored for a round and a view. -/
def numStartsFor (r : Replica A) (round view : ℕ) : ℕ :=
  (r.repairStartMsgs.toList.filter fun (_, m) => m.round = round ∧ m.pbftView = view).length

/-- The replicas with a stored start message for a round. -/
def starters (r : Replica A) (round : ℕ) : Finset ℕ :=
  OrderedMap.keysWhere r.repairStartMsgs fun m => m.round = round

lemma mem_starters {i : ℕ} :
    i ∈ r.starters round ↔ ∃ m, r.repairStartMsgs[i]? = some m ∧ m.round = round :=
  OrderedMap.mem_keysWhere

lemma card_starters (r : Replica A) (round : ℕ) : (r.starters round).card = r.numStarts round :=
  OrderedMap.card_keysWhere r.repairStartMsgs fun m : RepairStart => m.round = round

/-- A message that is stored adds at most one to the number for its round. -/
lemma numStarts_storeStart_le (r : Replica A) (m : RepairStart) (sig : Bytes) :
    (r.storeStart m sig).numStarts m.round ≤ r.numStarts m.round + 1 := by
  rw [← card_starters, ← card_starters]
  exact (Finset.card_le_card (OrderedMap.keysWhere_insert_subset r.repairStartMsgs m.replicaId m
    fun m' => m'.round = m.round)).trans (Finset.card_insert_le _ _)

/-- It adds none to the number for another round. -/
lemma numStarts_storeStart_le_of_ne (h : m.round ≠ round) (sig : Bytes) :
    (r.storeStart m sig).numStarts round ≤ r.numStarts round := by
  rw [← card_starters, ← card_starters]
  exact Finset.card_le_card (OrderedMap.keysWhere_insert_subset_of_not r.repairStartMsgs
    m.replicaId (p := fun m' : RepairStart => m'.round = round) h)

/-! ### Proposing -/

section

variable [Sha256]

/-- A proposal of a primary is broadcast. -/
lemma doPrePreparePhase_proposed (h : r.isPrimary cfg = true) (round : ℕ) :
    (r.doPrePreparePhase cfg round).Proposed round r.pbftView := by
  refine ⟨r.proposalOf round, ?_, proposalOf_round r round, proposalOf_pbftView r round⟩
  rw [doPrePreparePhase_broadcast h]
  exact List.mem_append_right _ List.mem_cons_self

/-- A view change proposes, if the replica is the primary of the view and has a quorum for it. -/
lemma startViewChange_proposed (h : r.startViewChange cfg v = .ok r')
    (hprimary : v % cfg.numReplicas = r.replicaId)
    (hquorum : cfg.quorumSize ≤ r.numStartsFor r.round v) : r'.Proposed r.round v := by
  obtain ⟨dst, m, u, hsent⟩ := startViewChange_broadcast h
  rw [if_pos ⟨beq_iff_eq.mpr hprimary, hquorum⟩] at hsent
  refine ⟨({ r with pbftView := v }).proposalOf r.round, ?_, proposalOf_round _ _,
    proposalOf_pbftView _ _⟩
  rw [hsent]
  exact List.mem_append_right _ (List.mem_cons_of_mem _ List.mem_cons_self)

/-- A start message that is stored makes a primary propose, if it completes a quorum. -/
lemma processRepairStart_stored {r' : Replica A}
    (h : r' = if r.isPrimary cfg = true ∧
        (r.storeStart m sig).numStarts m.round = cfg.quorumSize then
      (r.storeStart m sig).doPrePreparePhase cfg m.round else r.storeStart m sig) :
    r'.repairStartMsgs = (r.storeStart m sig).repairStartMsgs ∧ r'.round = r.round ∧
      r'.pbftView = r.pbftView ∧ r'.replicaId = r.replicaId ∧ (r.isPrimary cfg = true →
        (r.storeStart m sig).numStarts m.round = cfg.quorumSize →
          r'.Proposed m.round r.pbftView) := by
  split_ifs at h with hpropose
  · have hproposed : r'.Proposed m.round r.pbftView := by
      rw [h]
      exact doPrePreparePhase_proposed (r := r.storeStart m sig) hpropose.1 m.round
    obtain ⟨digest, ms, heq⟩ := doPrePreparePhase_eq cfg (r.storeStart m sig) m.round
    rw [heq] at h
    subst h
    exact ⟨rfl, rfl, rfl, rfl, fun _ _ => hproposed⟩
  · subst h
    exact ⟨rfl, rfl, rfl, rfl, fun hprimary hcount => absurd ⟨hprimary, hcount⟩ hpropose⟩

end

/-! ### The view -/

section

variable [Application A] [Sha256] [PaddedRequestData]

/-- **The view changes only where `startViewChange` is called.** -/
lemma handle_pbftView (hcall : ∀ r₁ v, ¬r.CallsViewChange cfg e r₁ v)
    (h : r.handle cfg e = .ok r') : r'.pbftView = r.pbftView := by
  by_cases he : e.movesView = false
  · exact (handle_same he h).pbftView
  rcases ReplicaEvent.cases_of_movesView (Bool.of_not_eq_false he) with
    ⟨now, rfl⟩ | ⟨now, m, sig, rfl⟩ | ⟨i, v, round, hann⟩
  · obtain ⟨r₁, htimeout, hquiet, -, rfl | ⟨hdue, -⟩⟩ := checkTimeouts_cases h
    · exact congrArg Core.pbftView hquiet.core_eq
    · exact absurd (.timedOut htimeout hdue) (hcall _ _)
  · cases Except.ok.inj h
    rcases processRepairStart_cases cfg r m sig with ⟨-, heq⟩ | ⟨-, -, heq⟩ | ⟨-, -, heq⟩
    · rw [heq]
    · rw [heq]
    · exact (processRepairStart_stored heq).2.2.1
  · obtain ⟨now, msg, sig, r₁, rfl, hview, hfollow⟩ := handle_announced hann h
    have hsame : r'.pbftView = r₁.pbftView := hfollow.same.pbftView
    rw [hsame]
    rcases updateReplicaView_cases hview with rfl | ⟨hnew, rfl | ⟨hmin, hmany, -⟩⟩
    · rfl
    · rfl
    · exact absurd (.announced hann hnew hmin hmany) (hcall _ _)

omit [Application A] [PaddedRequestData] in
/-- After a view change no repair is started. -/
lemma afterView_eq (hrepair : r.repair = true) (h : r.afterView cfg e = .ok r') :
    ∃ pending, r' = { r with pendingRepair := pending } := by
  unfold afterView at h
  split at h
  · split_ifs at h
    · exact ⟨true, (Except.ok.inj h).symm⟩
    · exact ⟨r.pendingRepair, (Except.ok.inj h).symm⟩
  · split_ifs at h
    · exact ⟨true, (Except.ok.inj h).symm⟩
    · exact ⟨r.pendingRepair, (Except.ok.inj h).symm⟩
  · exact ⟨r.pendingRepair, (Except.ok.inj h).symm⟩

/-- **A view change**: the replica is in the view, and it has proposed if it is the primary and
has a quorum for the view. -/
lemma CallsViewChange.handle_proposed (hcall : r.CallsViewChange cfg e r₁ v)
    (h : r.handle cfg e = .ok r') : r'.pbftView = v ∧ (v % cfg.numReplicas = r.replicaId →
      cfg.quorumSize ≤ r.numStartsFor r.round v → r'.Proposed r.round v) := by
  rw [hcall.handle_eq] at h
  obtain ⟨r₂, hview, h⟩ := bind_eq_ok.mp h
  have hproposed := startViewChange_proposed hview
  obtain ⟨m, digest, ms, -, rfl⟩ := startViewChange_eq hview
  obtain ⟨pending, rfl⟩ := afterView_eq rfl h
  refine ⟨rfl, fun hprimary hquorum => ?_⟩
  have hcore := hcall.core_eq
  have hround : r₁.round = r.round := congrArg Core.round hcore
  have hid : r₁.replicaId = r.replicaId := congrArg Core.replicaId hcore
  have hmsgs : r₁.repairStartMsgs = r.repairStartMsgs := congrArg Core.repairStartMsgs hcore
  rw [hround, hid, numStartsFor, hmsgs] at hproposed
  exact hproposed hprimary hquorum

end

end Replica

/-- Only `processRepairStart` stores start messages. -/
lemma Core.Steps.repairStartMsgs_eq {A : Type} [Application A] [Sha256] [PaddedRequestData]
    {r₀ : Replica A} {cfg : Config} {e : ReplicaEvent} {c c' : Core}
    (he : ∀ now m sig, e ≠ .message now (.repairStart m) sig) (h : Core.Steps cfg r₀ e c c') :
    c'.repairStartMsgs = c.repairStartMsgs ∧ c'.replicaId = c.replicaId := by
  induction h with
  | refl => exact ⟨rfl, rfl⟩
  | tail _ hstep ih =>
      cases hstep with
      | storeStart heq => exact absurd heq (he _ _ _)
      | _ => exact ih

/-! ### The condition -/

/-- A replica, and the start messages that it has accepted. -/
structure StartTrace (A : Type) where
  replica : Replica A
  accepted : List RepairStart

/-- The replicas that have sent a start message for exactly a round and a view. -/
def startersOf (es : List ReplicaEvent) (round view : ℕ) : Finset ℕ :=
  (es.filterMap fun
    | .message _ (.repairStart m) _ =>
      if m.round = round ∧ m.pbftView = view then some m.replicaId else none
    | _ => none).toFinset

lemma mem_startersOf {es : List ReplicaEvent} {round view i : ℕ} :
    i ∈ startersOf es round view ↔ ∃ now m sig, .message now (.repairStart m) sig ∈ es ∧
      m.round = round ∧ m.pbftView = view ∧ m.replicaId = i := by
  rw [startersOf, List.mem_toFinset, List.mem_filterMap]
  constructor
  · rintro ⟨e, he, hi⟩
    split at hi
    · rename_i now m sig
      split_ifs at hi with hm
      exact ⟨now, m, sig, he, hm.1, hm.2, Option.some.inj hi⟩
    · cases hi
  · rintro ⟨now, m, sig, he, hround, hview, rfl⟩
    exact ⟨_, he, if_pos ⟨hround, hview⟩⟩

namespace StartTrace

variable {A : Type} [Application A] [Sha256] [PaddedRequestData]

/-- A replica of a deployment; what it accepts is remembered. -/
def system [SignatureProvider] (cfg : Config) (replicaId : ℕ) (app : A) :
    System (StartTrace A) ReplicaEvent where
  init t := t = ⟨.fresh replicaId app, []⟩
  step t e t' := (Replica.system cfg replicaId app).step t.replica e t'.replica ∧
    t'.accepted = t.accepted ++ t.replica.acceptedStart cfg e

/-- What makes a primary propose in time.

* `laterView`: a sender does not send a start message for a later view of the round of the one
  that is stored, which would be dropped;
* `replaced`, `outdated`: when the start message of a sender is replaced by one of a later round,
  or dropped because of one, the proposal for it has been broadcast;
* `entered`: when the replica becomes the primary of a view, it has no quorum of start messages for
  its round or a later one, unless they are for its round and the view, or it has proposed;
* `proposalRound`, `lastRound`: the round does not go back. -/
structure StartsInOrder (cfg : Config) (t : StartTrace A) (e : ReplicaEvent) : Prop where
  laterView : ∀ m ∈ t.replica.acceptedStart cfg e, ∀ m',
    t.replica.repairStartMsgs[m.replicaId]? = some m' → m.round = m'.round →
      m.pbftView ≤ m'.pbftView
  replaced : ∀ m ∈ t.replica.acceptedStart cfg e, ∀ m' ∈ t.accepted, m'.replicaId = m.replicaId →
    t.replica.round ≤ m'.round → m'.round < m.round → t.replica.Proposed m'.round m'.pbftView
  outdated : ∀ m ∈ t.replica.acceptedStart cfg e, ∀ m',
    t.replica.repairStartMsgs[m.replicaId]? = some m' → m.round < m'.round →
      t.replica.Proposed m.round m.pbftView
  entered : ∀ r₁ v, t.replica.CallsViewChange cfg e r₁ v →
    v % cfg.numReplicas = t.replica.replicaId → ∀ round, t.replica.round ≤ round →
      cfg.quorumSize ≤ t.replica.numStarts round →
        round = t.replica.round ∧ cfg.quorumSize ≤ t.replica.numStartsFor round v ∨
          t.replica.Proposed round v
  proposalRound : ∀ r₁ proposal, t.replica.CallsTryFinish cfg e r₁ →
    t.replica.repairProposal = some proposal → t.replica.round ≤ proposal.round + 1
  lastRound : ∀ r₂ aborted, t.replica.CallsFinish cfg e r₂ aborted → r₂.round < 2 ^ 32 - 1

/-! ### The invariant -/

/-- **The invariant** of a trace.

* `stored`, `largest`: what is stored for a sender is the largest of what has been accepted;
* `kept`: what has been accepted is counted for its round, until the round is over or the
  proposal has been broadcast;
* `triggered`: a primary has proposed for every round that has a quorum;
* `received`: what has arrived for a view of the replica has been accepted, until its round is
  over. -/
structure Orderly (cfg : Config) (es : List ReplicaEvent) (t : StartTrace A) : Prop where
  inRange : t.replica.core.InRange
  stored : ∀ (k : ℕ) (m : RepairStart), t.replica.repairStartMsgs[k]? = some m →
    m.replicaId = k ∧ m ∈ t.accepted
  largest : ∀ m ∈ t.accepted, ∃ m', t.replica.repairStartMsgs[m.replicaId]? = some m' ∧
    m.rank ≤ m'.rank
  kept : ∀ m ∈ t.accepted, t.replica.round ≤ m.round →
    m.replicaId ∈ t.replica.starters m.round ∨ t.replica.Proposed m.round m.pbftView
  triggered : t.replica.isPrimary cfg = true → ∀ round, t.replica.round ≤ round →
    cfg.quorumSize ≤ t.replica.numStarts round → t.replica.Proposed round t.replica.pbftView
  received : ∀ now m sig, .message now (.repairStart m) sig ∈ es →
    m.pbftView % cfg.numReplicas = t.replica.replicaId → t.replica.round ≤ m.round →
      m ∈ t.accepted

namespace Orderly

variable {cfg : Config} {e : ReplicaEvent} {es : List ReplicaEvent} {t : StartTrace A}
  {r' : Replica A} {now : ℕ} {m : RepairStart} {sig : Bytes}

omit [Application A] [Sha256] [PaddedRequestData] in
/-- Nothing is accepted, and the replica has proposed where it has to. -/
lemma keep (ht : t.Orderly cfg es) (hrange : r'.core.InRange)
    (hmsgs : r'.repairStartMsgs = t.replica.repairStartMsgs)
    (hid : r'.replicaId = t.replica.replicaId) (hround : t.replica.round ≤ r'.round)
    (hsent : t.replica.sent <+: r'.sent)
    (htriggered : r'.isPrimary cfg = true → ∀ round, t.replica.round ≤ round →
      cfg.quorumSize ≤ t.replica.numStarts round → r'.Proposed round r'.pbftView)
    (hnew : ∀ now m sig, e = .message now (.repairStart m) sig → ¬t.replica.Accepts cfg m) :
    Orderly cfg (es ++ [e]) ⟨r', t.accepted⟩ where
  inRange := hrange
  stored k m hm := ht.stored k m (hmsgs ▸ hm)
  largest m hm := by
    rw [hmsgs]
    exact ht.largest m hm
  kept m hm hle := by
    rw [Replica.starters, hmsgs]
    exact (ht.kept m hm (hround.trans hle)).imp_right fun h => h.mono hsent
  triggered hprimary round hle hquorum := by
    rw [Replica.numStarts, hmsgs] at hquorum
    exact htriggered hprimary round (hround.trans hle) hquorum
  received now m sig hmem hview hle := by
    rw [hid] at hview
    rcases List.mem_append.mp hmem with hmem | hmem
    · exact ht.received now m sig hmem hview (hround.trans hle)
    · exact absurd ⟨hview, hround.trans hle⟩ (hnew now m sig (List.mem_singleton.mp hmem).symm)

/-- A start message is dropped, because one of its round or a later one is stored. -/
lemma drop (ht : t.Orderly cfg es) (hc : StartsInOrder cfg t (.message now (.repairStart m) sig))
    (haccept : t.replica.Accepts cfg m) {m₀ : RepairStart}
    (hm₀ : t.replica.repairStartMsgs[m.replicaId]? = some m₀) (hle : m.round ≤ m₀.round) :
    Orderly cfg (es ++ [.message now (.repairStart m) sig])
      ⟨t.replica, t.accepted ++ [m]⟩ := by
  have hmem : m ∈ t.replica.acceptedStart cfg (.message now (.repairStart m) sig) := by
    rw [Replica.acceptedStart, if_pos haccept]
    exact List.mem_cons_self
  refine ⟨ht.inRange, fun k m' hm' => ?_, fun m' hm' => ?_, fun m' hm' hround => ?_,
    ht.triggered, fun now' m' sig' hm' hview hround => ?_⟩
  · obtain ⟨hk, hold⟩ := ht.stored k m' hm'
    exact ⟨hk, List.mem_append_left _ hold⟩
  · rcases List.mem_append.mp hm' with hold | hm'
    · exact ht.largest m' hold
    · cases List.mem_singleton.mp hm'
      refine ⟨m₀, hm₀, RepairStart.rank_le_iff.mpr (hle.lt_or_eq.imp_right fun heq => ?_)⟩
      exact ⟨heq, hc.laterView m hmem m₀ hm₀ heq⟩
  · rcases List.mem_append.mp hm' with hold | hm'
    · exact ht.kept m' hold hround
    · cases List.mem_singleton.mp hm'
      rcases hle.lt_or_eq with hlt | heq
      · exact .inr (hc.outdated m hmem m₀ hm₀ hlt)
      · exact .inl (Replica.mem_starters.mpr ⟨m₀, hm₀, heq.symm⟩)
  · rcases List.mem_append.mp hm' with hold | hm'
    · exact List.mem_append_left _ (ht.received now' m' sig' hold hview hround)
    · cases List.mem_singleton.mp hm'
      exact List.mem_append_right _ List.mem_cons_self

/-- A start message is stored, and the replica proposes if it completes a quorum. -/
lemma store (ht : t.Orderly cfg es) (hc : StartsInOrder cfg t (.message now (.repairStart m) sig))
    (haccept : t.replica.Accepts cfg m)
    (hbefore : ∀ m', t.replica.repairStartMsgs[m.replicaId]? = some m' → m'.round < m.round)
    (hrange : r'.core.InRange)
    (hmsgs : r'.repairStartMsgs = (t.replica.storeStart m sig).repairStartMsgs)
    (hround : r'.round = t.replica.round) (hview : r'.pbftView = t.replica.pbftView)
    (hid : r'.replicaId = t.replica.replicaId) (hsent : t.replica.sent <+: r'.sent)
    (hproposed : t.replica.isPrimary cfg = true →
      (t.replica.storeStart m sig).numStarts m.round = cfg.quorumSize →
        r'.Proposed m.round t.replica.pbftView) :
    Orderly cfg (es ++ [.message now (.repairStart m) sig]) ⟨r', t.accepted ++ [m]⟩ := by
  have hmem : m ∈ t.replica.acceptedStart cfg (.message now (.repairStart m) sig) := by
    rw [Replica.acceptedStart, if_pos haccept]
    exact List.mem_cons_self
  have hself : r'.repairStartMsgs[m.replicaId]? = some m := by
    rw [hmsgs]
    exact ExtTreeMap.getElem?_insert_self
  have hother : ∀ k, k ≠ m.replicaId →
      r'.repairStartMsgs[k]? = t.replica.repairStartMsgs[k]? := by
    intro k hk
    rw [hmsgs]
    exact OrderedMap.getElem?_insert_of_ne hk
  refine ⟨hrange, fun k m' hm' => ?_, fun m' hm' => ?_, fun m' hm' hle => ?_,
    fun hprimary round hle hquorum => ?_, fun now' m' sig' hm' hown hle => ?_⟩
  · by_cases hk : k = m.replicaId
    · cases hk
      cases hself.symm.trans hm'
      exact ⟨rfl, List.mem_append_right _ List.mem_cons_self⟩
    · obtain ⟨hk', hold⟩ := ht.stored k m' ((hother k hk).symm.trans hm')
      exact ⟨hk', List.mem_append_left _ hold⟩
  · rcases List.mem_append.mp hm' with hold | hm'
    · obtain ⟨m₀, hm₀, hrank⟩ := ht.largest m' hold
      by_cases hk : m'.replicaId = m.replicaId
      · rw [hk] at hm₀ ⊢
        exact ⟨m, hself, hrank.trans (RepairStart.rank_le_iff.mpr (.inl (hbefore m₀ hm₀)))⟩
      · exact ⟨m₀, (hother _ hk).trans hm₀, hrank⟩
    · cases List.mem_singleton.mp hm'
      exact ⟨m, hself, le_rfl⟩
  · have hle : t.replica.round ≤ m'.round := hround ▸ hle
    rcases List.mem_append.mp hm' with hold | hm'
    · rcases ht.kept m' hold hle with hkept | hdone
      · obtain ⟨m₀, hm₀, heq⟩ := Replica.mem_starters.mp hkept
        by_cases hk : m'.replicaId = m.replicaId
        · have hlt : m'.round < m.round := heq ▸ hbefore m₀ (hk ▸ hm₀)
          exact .inr ((hc.replaced m hmem m' hold hk hle hlt).mono hsent)
        · exact .inl (Replica.mem_starters.mpr ⟨m₀, (hother _ hk).trans hm₀, heq⟩)
      · exact .inr (hdone.mono hsent)
    · cases List.mem_singleton.mp hm'
      exact .inl (Replica.mem_starters.mpr ⟨m, hself, rfl⟩)
  · have hle : t.replica.round ≤ round := hround ▸ hle
    have hprimary : t.replica.isPrimary cfg = true := by
      rw [Replica.isPrimary, Replica.getPrimary, hview, hid] at hprimary
      exact hprimary
    have hquorum : cfg.quorumSize ≤ (t.replica.storeStart m sig).numStarts round := by
      rw [Replica.numStarts, hmsgs] at hquorum
      exact hquorum
    show r'.Proposed round r'.pbftView
    rw [hview]
    by_cases hmr : m.round = round
    · subst hmr
      have hone := Replica.numStarts_storeStart_le t.replica m sig
      rcases hquorum.lt_or_eq with hlt | heq
      · exact (ht.triggered hprimary _ hle (by omega)).mono hsent
      · exact hproposed hprimary heq.symm
    · have hnone := Replica.numStarts_storeStart_le_of_ne (r := t.replica) hmr sig
      exact (ht.triggered hprimary round hle (hquorum.trans hnone)).mono hsent
  · have hle : t.replica.round ≤ m'.round := hround ▸ hle
    have hown : m'.pbftView % cfg.numReplicas = t.replica.replicaId := hid ▸ hown
    rcases List.mem_append.mp hm' with hold | hm'
    · exact List.mem_append_left _ (ht.received now' m' sig' hold hown hle)
    · cases List.mem_singleton.mp hm'
      exact List.mem_append_right _ List.mem_cons_self

/-- **Every event keeps the invariant.** -/
lemma step (ht : t.Orderly cfg es) (hc : StartsInOrder cfg t e) (he : e.InRange)
    (h : t.replica.handle cfg e = .ok r') :
    Orderly cfg (es ++ [e]) ⟨r', t.accepted ++ t.replica.acceptedStart cfg e⟩ := by
  have hsent := (Replica.handle_views h).sent
  obtain ⟨hround, hrange⟩ :=
    (Replica.handle_core h).round_le hc.proposalRound hc.lastRound he ht.inRange
  by_cases hstart : ∃ now m sig, e = .message now (.repairStart m) sig
  · obtain ⟨now, m, sig, rfl⟩ := hstart
    rw [Replica.acceptedStart]
    have heq : t.replica.processRepairStart cfg m sig = r' := Except.ok.inj h
    rcases Replica.processRepairStart_cases cfg t.replica m sig with ⟨hno, hcase⟩ |
        ⟨haccept, ⟨m₀, hm₀, hle⟩, hcase⟩ | ⟨haccept, hbefore, hcase⟩
    · obtain rfl : t.replica = r' := hcase.symm.trans heq
      rw [if_neg hno, List.append_nil]
      refine ht.keep hrange rfl rfl le_rfl hsent ht.triggered fun _ _ _ heq => ?_
      cases heq
      exact hno
    · obtain rfl : t.replica = r' := hcase.symm.trans heq
      rw [if_pos haccept]
      exact ht.drop hc haccept hm₀ hle
    · obtain ⟨hmsgs, hround', hview, hid, hproposed⟩ :=
        Replica.processRepairStart_stored (heq.symm.trans hcase)
      rw [if_pos haccept]
      exact ht.store hc haccept hbefore hrange hmsgs hround' hview hid hsent hproposed
  · have hnone : t.replica.acceptedStart cfg e = [] := by
      unfold Replica.acceptedStart
      split
      · exact absurd ⟨_, _, _, rfl⟩ hstart
      · rfl
    obtain ⟨hmsgs, hid⟩ := (Replica.handle_core h).repairStartMsgs_eq fun now m sig heq =>
      hstart ⟨now, m, sig, heq⟩
    have hid : r'.replicaId = t.replica.replicaId := hid
    rw [hnone, List.append_nil]
    refine ht.keep hrange hmsgs hid hround hsent (fun hprimary round hle hquorum => ?_)
      fun now m sig heq => absurd ⟨now, m, sig, heq⟩ hstart
    have hprimary : r'.pbftView % cfg.numReplicas = r'.replicaId := beq_iff_eq.mp hprimary
    by_cases hcall : ∃ r₁ v, t.replica.CallsViewChange cfg e r₁ v
    · obtain ⟨r₁, v, hcall⟩ := hcall
      obtain ⟨rfl, hproposed⟩ := hcall.handle_proposed h
      rw [hid] at hprimary
      rcases hc.entered r₁ _ hcall hprimary round hle hquorum with ⟨rfl, hexact⟩ | hdone
      · exact hproposed hprimary hexact
      · exact hdone.mono hsent
    · have hview := Replica.handle_pbftView (fun r₁ v hc => hcall ⟨r₁, v, hc⟩) h
      rw [hid, hview] at hprimary
      rw [hview]
      exact (ht.triggered (beq_iff_eq.mpr hprimary) round hle hquorum).mono hsent

end Orderly

/-! ### The theorem -/

/-- For each sender, the largest start message that has been accepted is stored. -/
structure LargestStored (t : StartTrace A) : Prop where
  stored : ∀ (i : ℕ) (m : RepairStart), t.replica.repairStartMsgs[i]? = some m →
    m.replicaId = i ∧ m ∈ t.accepted ∧ ∀ m' ∈ t.accepted, m'.replicaId = i → m'.rank ≤ m.rank
  every : ∀ m ∈ t.accepted, ∃ m', t.replica.repairStartMsgs[m.replicaId]? = some m'

/-- If the replica is the primary of its view, and a quorum of distinct replicas has sent start
messages for exactly its round and view, it has broadcast the proposal for them. -/
def HasProposed (cfg : Config) (es : List ReplicaEvent) (t : StartTrace A) : Prop :=
  t.replica.isPrimary cfg = true →
    cfg.quorumSize ≤ (startersOf es t.replica.round t.replica.pbftView).card →
      t.replica.Proposed t.replica.round t.replica.pbftView

omit [Application A] [Sha256] [PaddedRequestData] in
lemma Orderly.largestStored {cfg : Config} {es : List ReplicaEvent} {t : StartTrace A}
    (ht : t.Orderly cfg es) : t.LargestStored where
  stored i m hm := by
    obtain ⟨hi, hmem⟩ := ht.stored i m hm
    refine ⟨hi, hmem, fun m' hm' hi' => ?_⟩
    obtain ⟨m₀, hm₀, hle⟩ := ht.largest m' hm'
    cases Option.some.inj ((hi' ▸ hm₀).symm.trans hm)
    exact hle
  every m hm := by
    obtain ⟨m', hm', -⟩ := ht.largest m hm
    exact ⟨m', hm'⟩

omit [Application A] [Sha256] [PaddedRequestData] in
lemma Orderly.hasProposed {cfg : Config} {es : List ReplicaEvent} {t : StartTrace A}
    (ht : t.Orderly cfg es) : t.HasProposed cfg es := by
  intro hprimary hquorum
  by_contra hno
  -- what counts for the round and the view is still stored, so that the trigger has gone off
  have hsub : startersOf es t.replica.round t.replica.pbftView ⊆
      t.replica.starters t.replica.round := by
    intro i hi
    obtain ⟨now, m, sig, hmem, hround, hview, rfl⟩ := mem_startersOf.mp hi
    have hown : m.pbftView % cfg.numReplicas = t.replica.replicaId := by
      rw [hview]
      exact beq_iff_eq.mp hprimary
    have haccepted := ht.received now m sig hmem hown hround.ge
    have hkept := ht.kept m haccepted hround.ge
    rw [hround, hview] at hkept
    exact hkept.resolve_right hno
  have hcount := Finset.card_le_card hsub
  rw [Replica.card_starters] at hcount
  exact hno (ht.triggered hprimary _ le_rfl (hquorum.trans hcount))

/-- **A primary proposes once it can**, in every run whose start messages and view changes are in
order: what is stored for each sender is its largest start message, and if a quorum has sent start
messages for the round and the view of a primary, it has proposed. -/
theorem primary_proposes [SignatureProvider] {cfg : Config} {i : ℕ} {app : A}
    {es : List ReplicaEvent} {t : StartTrace A}
    (h : Run (system cfg i app) (fun _ t e => StartsInOrder cfg t e) es t) :
    t.LargestStored ∧ t.HasProposed cfg es := by
  have ht : t.Orderly cfg es := h.invariant (P := fun es t => t.Orderly cfg es)
    (by
      rintro _ rfl
      refine ⟨⟨Nat.one_pos, Nat.one_lt_two_pow (by decide), fun _ hp => ?_⟩, ?_, ?_, ?_, ?_, ?_⟩
      · cases hp
      · simp [Replica.fresh]
      · simp
      · simp
      · intro _ round _ hquorum
        have hpos : 0 < cfg.quorumSize := Nat.succ_pos _
        have hnone : (Replica.fresh i app).numStarts round = 0 := by
          simp [Replica.numStarts, Replica.fresh]
        exact absurd (hquorum.trans hnone.le) hpos.not_ge
      · simp)
    (by
      rintro es t e ⟨r', accepted⟩ - ht hc ⟨⟨-, he, hhandle⟩, haccepted⟩
      have haccepted : accepted = t.accepted ++ t.replica.acceptedStart cfg e := haccepted
      rw [haccepted]
      exact ht.step hc he hhandle)
  exact ⟨ht.largestStored, ht.hasProposed⟩

/-! ### Two runs -/

/-- An event, taken under a condition that can be checked. -/
def exec (cfg : Config) (P : StartTrace A → ReplicaEvent → Prop) [∀ t e, Decidable (P t e)]
    (t : StartTrace A) (e : ReplicaEvent) : Except Fault (StartTrace A) :=
  if P t e then do
    let r ← t.replica.handle cfg e
    return ⟨r, t.accepted ++ t.replica.acceptedStart cfg e⟩
  else .error .assertion

lemma run_of_exec [SignatureProvider] {cfg : Config} {i : ℕ} {app : A}
    {G : List ReplicaEvent → StartTrace A → ReplicaEvent → Prop}
    {P : StartTrace A → ReplicaEvent → Prop} [∀ t e, Decidable (P t e)]
    {es es' : List ReplicaEvent} {t t' : StartTrace A} (ht : Run (system cfg i app) G es t)
    (hes : ∀ e ∈ es', e.Verified cfg ∧ e.InRange) (hG : ∀ es t e, P t e → G es t e)
    (h : es'.foldlM (exec cfg P) t = .ok t') : Run (system cfg i app) G (es ++ es') t' := by
  refine ht.of_foldlM (fun es t e t' he hstep => ?_) h
  obtain ⟨hver, hrange⟩ := hes e he
  rw [exec] at hstep
  split_ifs at hstep with hP
  obtain ⟨r', hhandle, hstep⟩ := bind_eq_ok.mp hstep
  cases pure_eq_ok.mp hstep
  exact ⟨hG es t e hP, ⟨hver, hrange, hhandle⟩, rfl⟩

/-- A start message of a sender that no message has been accepted from. -/
def FromNewSender (t : StartTrace A) : ReplicaEvent → Prop
  | .message _ (.repairStart m) _ => t.replica.repairStartMsgs[m.replicaId]? = none ∧
      ∀ m' ∈ t.accepted, m'.replicaId ≠ m.replicaId
  | _ => False

instance (t : StartTrace A) (e : ReplicaEvent) : Decidable (t.FromNewSender e) := by
  rcases e with _ | ⟨_, _ | _, _⟩ | _ <;> unfold FromNewSender <;> infer_instance

lemma FromNewSender.startsInOrder {cfg : Config} {t : StartTrace A} {e : ReplicaEvent}
    (h : t.FromNewSender e) : StartsInOrder cfg t e := by
  unfold FromNewSender at h
  split at h
  · rename_i now m sig
    obtain ⟨hnone, hnew⟩ := h
    have heq : ∀ m' ∈ t.replica.acceptedStart cfg (.message now (.repairStart m) sig), m' = m := by
      intro m' hm'
      rw [Replica.acceptedStart] at hm'
      split_ifs at hm'
      · exact List.mem_singleton.mp hm'
      · cases hm'
    refine ⟨fun m₁ hm₁ m' hm' => ?_, fun m₁ hm₁ m' hm' hid => ?_, fun m₁ hm₁ m' hm' => ?_,
      fun _ _ hcall => ?_, fun _ _ hcall => ?_, fun _ _ hcall => ?_⟩
    · rw [heq m₁ hm₁, hnone] at hm'
      cases hm'
    · rw [heq m₁ hm₁] at hid
      exact absurd hid (hnew m' hm')
    · rw [heq m₁ hm₁, hnone] at hm'
      cases hm'
    · cases hcall with
      | announced hann => cases hann
    · cases hcall
    · cases hcall with
      | tried hcall => cases hcall
  · exact h.elim

end StartTrace

namespace StartTrace

attribute [local instance] prefixSha shortPaddedRequestData counterWire fourKeys

/-- **The primary of the first view proposes** when three replicas have sent start messages. -/
theorem first_view_proposed : ∃ t : StartTrace Counter,
    Run (system .oneFault 0 {}) (fun _ t e => StartsInOrder .oneFault t e)
      [Replica.startOf 1 0, Replica.startOf 1 1, Replica.startOf 1 2] t ∧
    t.replica.isPrimary .oneFault = true ∧ Config.oneFault.quorumSize ≤ (startersOf
      [Replica.startOf 1 0, Replica.startOf 1 1, Replica.startOf 1 2] t.replica.round
        t.replica.pbftView).card ∧
    t.replica.Proposed t.replica.round t.replica.pbftView ∧ t.LargestStored := by
  have hsome : ∃ t, [Replica.startOf 1 0, Replica.startOf 1 1, Replica.startOf 1 2].foldlM
        (exec .oneFault FromNewSender) ⟨Replica.fresh 0 ({} : Counter), []⟩ = .ok t ∧
      (t.replica.isPrimary .oneFault = true ∧ Config.oneFault.quorumSize ≤ (startersOf
        [Replica.startOf 1 0, Replica.startOf 1 1, Replica.startOf 1 2] t.replica.round
          t.replica.pbftView).card) := by
    decide +kernel
  obtain ⟨t, hfold, hprimary, hquorum⟩ := hsome
  have hrun : Run (system .oneFault 0 ({} : Counter)) (fun _ t e => StartsInOrder .oneFault t e)
      ([] ++ [Replica.startOf 1 0, Replica.startOf 1 1, Replica.startOf 1 2]) t :=
    run_of_exec (.start rfl) (by decide +kernel) (fun _ _ _ h => h.startsInOrder) hfold
  obtain ⟨hlargest, hproposed⟩ := primary_proposes hrun
  exact ⟨t, hrun, hprimary, hquorum, hproposed hprimary hquorum, hlargest⟩

/-- The message of a replica that has gone to the second view of replica 0. -/
def fifthView (i : ℕ) : ReplicaEvent :=
  .message 1 (.viewUpdate { replicaId := i, view := 4, round := 1 }) [UInt8.ofNat i]

/-- The start message of a replica for that view. -/
def fifthStart (i : ℕ) : ReplicaEvent :=
  .message 1 (.repairStart { round := 1, replicaId := i, pbftView := 4, log? := some {} })
    [UInt8.ofNat i]

/-- Replica 0 is the primary of a round twice, in the first view and in the fifth. -/
def fifthViewEvents : List ReplicaEvent :=
  Replica.replyProofOf 3 0 :: [1, 2, 3].map (Replica.startOf 1) ++ [1, 2].map fifthView ++
    [1, 2, 3].map fifthStart

/-- **A view that its primary never proposes for**: three replicas have sent start messages for the
fifth view, and all of them have been dropped because of those for the first. -/
theorem later_view_not_proposed : ∃ t : StartTrace Counter,
    Run (system .oneFault 0 {}) anyStep fifthViewEvents t ∧ ¬t.LargestStored ∧
    t.replica.isPrimary .oneFault = true ∧ Config.oneFault.quorumSize ≤
      (startersOf fifthViewEvents t.replica.round t.replica.pbftView).card ∧
    ¬t.replica.Proposed t.replica.round t.replica.pbftView := by
  have hsome : ∃ t, fifthViewEvents.foldlM (exec .oneFault fun _ _ => True)
        ⟨Replica.fresh 0 ({} : Counter), []⟩ = .ok t ∧
      (t.replica.isPrimary .oneFault = true ∧ Config.oneFault.quorumSize ≤
        (startersOf fifthViewEvents t.replica.round t.replica.pbftView).card ∧
      t.replica.pbftView = 4 ∧ (∀ x ∈ t.replica.sent, ∀ m ∈ x.2.prePrepare?, m.pbftView = 0) ∧
      ∃ m ∈ t.replica.repairStartMsgs[1]?, m.pbftView = 0 ∧ m.round = 1 ∧
        ∃ m' ∈ t.accepted, m'.replicaId = 1 ∧ m'.pbftView = 4 ∧ m'.round = 1) := by
    decide +kernel
  obtain ⟨t, hfold, hprimary, hquorum, hview, hsent, m, hm, hzero, hone, m', hm', hid, hfour,
    hone'⟩ := hsome
  have hrun : Run (system .oneFault 0 ({} : Counter)) anyStep ([] ++ fifthViewEvents) t :=
    run_of_exec (P := fun _ _ => True) (.start rfl) (by decide +kernel)
      (fun _ _ _ _ => trivial) hfold
  refine ⟨t, hrun, fun hlargest => ?_, hprimary, hquorum, ?_⟩
  · have hle := RepairStart.rank_le_iff.mp ((hlargest.stored 1 m hm).2.2 m' hm' hid)
    omega
  · rintro ⟨p, hp, -, hpview⟩
    have hzero' := hsent _ hp p rfl
    omega

end StartTrace

end DomBft
