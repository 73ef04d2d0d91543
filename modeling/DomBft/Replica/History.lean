import DomBft.Replica.Prepared
import DomBft.Replica.ViewChange
import DomBft.Verify.Soundness

/-!
The prepared history that a replica attaches to the start message of a view change.

* `PreparedState.Certified`: the last prepared state holds signed prepares of a quorum, all for its
  ballot.  `PreparedHistory.IsCertificate` is the same of what is attached.
* `BecomesPrepared`: a prepare with which `processPrepare` stores those of the round.
* `Core.Historic`, the invariant: prepares are stored under the replica that has signed them, and
  the last prepared state is certified, if the replica has been prepared.
* `KeepsHistory`: the condition on the stored prepares under which `prepared_history_certified`
  holds: **every history that is attached is a certificate**.
* `history_of_two_digests`: a history with the prepare of a faulty replica for another digest.
-/

namespace DomBft

open Std (ExtTreeMap)
open Fallible Transition

/-! ### Certificates -/

section

variable [SignatureProvider] {cfg : Config}

/-- A history is a certificate for the ballot of a prepared state: the prepares of a quorum of
distinct replicas, all for its round, view and digest, each with a signature of its sender. -/
structure PreparedHistory.IsCertificate (cfg : Config) (h : PreparedHistory) (p : PreparedState) :
    Prop where
  quorum : cfg.quorumSize ≤ h.prepares.length
  distinct : (h.prepares.map (·.replicaId)).Nodup
  agree : ∀ m ∈ h.prepares,
    m.round = p.round ∧ m.pbftView = p.pbftView ∧ m.proposalDigest = p.proposalDigest
  paired : h.prepareSigs.length = h.prepares.length
  signed : ∀ x ∈ h.prepares.zip h.prepareSigs,
    SignatureProvider.verify x.1.replicaId (Msg.prepare x.1).body x.2 = true

/-- A prepared state holds such prepares. -/
structure PreparedState.Certified (cfg : Config) (p : PreparedState) : Prop where
  quorum : cfg.quorumSize ≤ p.prepares.size
  signed : SignedMessages (·.replicaId) .prepare p.prepares p.prepareSigs
  agree : ∀ (i : ℕ) (m : PBFTPrepare), p.prepares[i]? = some m →
    m.round = p.round ∧ m.pbftView = p.pbftView ∧ m.proposalDigest = p.proposalDigest

/-- The history that is made of a prepared state. -/
def PreparedState.history (p : PreparedState) : PreparedHistory where
  prepares := p.prepares.toList.map (·.2)
  prepareSigs := p.prepares.toList.map fun (id, _) => (p.prepareSigs[id]?).getD []

lemma PreparedState.Certified.isCertificate {p : PreparedState} (h : p.Certified cfg) :
    p.history.IsCertificate cfg p where
  quorum := by
    rw [history, List.length_map, ExtTreeMap.length_toList]
    exact h.quorum
  distinct := by
    rw [history, List.map_map]
    exact h.signed.nodup (List.Sublist.refl _)
  agree m hm := by
    obtain ⟨⟨i, m⟩, hmem, rfl⟩ := List.mem_map.mp hm
    exact h.agree i m (ExtTreeMap.mem_toList_iff_getElem?_eq_some.mp hmem)
  paired := by rw [history, List.length_map, List.length_map]
  signed x hx := List.all_eq_true.mp (h.signed.verifyAll fun _ => id) x hx

end

namespace Core

variable {c c' : Core} {cfg : Config} {proposal : RepairProposal}

/-! ### The prepares that are kept -/

lemma getElem?_keptPrepares {i : ℕ} {m : PBFTPrepare} :
    (c.keptPrepares proposal)[i]? = some m ↔
      c.repairPrepares[i]? = some m ∧ m.round = proposal.round := by
  rw [keptPrepares, ExtTreeMap.getElem?_filter', Option.filter_eq_some_iff, decide_eq_true_eq]

/-- Each prepare that is kept has the signature that is stored with it. -/
lemma getElem?_preparedState_prepareSigs {i : ℕ} {m : PBFTPrepare}
    (h : (c.keptPrepares proposal)[i]? = some m) :
    (c.preparedState proposal).prepareSigs[i]? = some ((c.repairPrepareSigs[i]?).getD []) :=
  OrderedMap.getElem?_foldl_insert c.lastPreparedState.prepareSigs (c.keptPrepares proposal).toList
    (·.1) (fun i => (c.repairPrepareSigs[i]?).getD []) (.inl
      (List.mem_map.mpr ⟨(i, m), ExtTreeMap.mem_toList_iff_getElem?_eq_some.mpr h, rfl⟩))

lemma numPrepares_le_keptPrepares (c : Core) (proposal : RepairProposal) :
    c.numPrepares proposal.round ≤ (c.keptPrepares proposal).size := by
  rw [numPrepares, ← ExtTreeMap.length_toList, keptPrepares, ExtTreeMap.toList_filter]
  refine (List.monotone_filter_right _ fun x hx => ?_).length_le
  have hx : (x.2.round, x.2.proposalDigest, x.2.pbftView) =
      (proposal.round, c.proposalDigest, c.pbftView) := of_decide_eq_true hx
  exact decide_eq_true (congrArg Prod.fst hx)

variable [SignatureProvider]

/-- **The invariant**: prepares are stored under the replica that has signed them, and the last
prepared state is certified, if there is one. -/
structure Historic (cfg : Config) (c : Core) : Prop where
  stored : SignedMessages (·.replicaId) .prepare c.repairPrepares c.repairPrepareSigs
  last : c.lastPreparedState = {} ∨ c.lastPreparedState.Certified cfg

/-- What is kept is certified, if all prepares of the round are for the ballot. -/
lemma Historic.preparedState (h : c.Historic cfg)
    (hquorum : cfg.quorumSize ≤ c.numPrepares proposal.round)
    (hagree : ∀ (i : ℕ) (p : PBFTPrepare), c.repairPrepares[i]? = some p →
      p.round = proposal.round → p.pbftView = c.pbftView ∧ p.proposalDigest = c.proposalDigest) :
    (c.preparedState proposal).Certified cfg where
  quorum := hquorum.trans (c.numPrepares_le_keptPrepares proposal)
  signed i m hm := by
    obtain ⟨hid, hsig⟩ := h.stored i m (getElem?_keptPrepares.mp hm).1
    rw [getElem?_preparedState_prepareSigs hm, Option.getD_some]
    exact ⟨hid, hsig⟩
  agree i m hm := by
    obtain ⟨hstored, hround⟩ := getElem?_keptPrepares.mp hm
    exact ⟨hround, hagree i m hstored hround⟩

variable {A : Type} [Application A] [Sha256] [PaddedRequestData] {r₀ : Replica A}
  {e : ReplicaEvent}

/-- **Every step keeps the invariant**, other than those of `processPrepare`. -/
lemma Historic.step (h : c.Historic cfg) (he : ∀ now m sig, e ≠ .message now (.prepare m) sig)
    (hstep : Step cfg r₀ e c c') : c'.Historic cfg := by
  cases hstep with
  | storePrepare heq => exact absurd heq (he _ _ _)
  | prepared heq => exact absurd heq (he _ _ _)
  | finish => exact ⟨.empty, h.last⟩
  | _ => exact ⟨h.stored, h.last⟩

lemma Historic.steps (h : c.Historic cfg) (he : ∀ now m sig, e ≠ .message now (.prepare m) sig)
    (hsteps : Steps cfg r₀ e c c') : c'.Historic cfg := by
  induction hsteps with
  | refl => exact h
  | tail _ hstep ih => exact ih.step he hstep

end Core

namespace Replica

variable {A : Type} {r r' r₁ : Replica A} {cfg : Config} {e : ReplicaEvent} {m : PBFTPrepare}
  {sig : Bytes} {v : ℕ}

/-! ### Becoming prepared -/

/-- With a prepare, the replica becomes prepared for a proposal: the prepare is taken, the replica
is not prepared in its round, and a quorum of prepares names the round of the proposal, its digest
and the view. -/
structure BecomesPrepared (cfg : Config) (r : Replica A) (m : PBFTPrepare) (sig : Bytes)
    (proposal : RepairProposal) : Prop where
  view : m.pbftView = r.pbftView
  notOld : ¬(m.round < r.round ∧ r.viewPrepared)
  notFuture : m.round ≤ r.round
  latest : ∀ m', r.repairPrepares[m.replicaId]? = some m' → m.round < m'.round →
    m'.pbftView ≠ m.pbftView
  notPrepared : ¬(r.viewPrepared ∧ r.preparedRound = m.round)
  accepted : r.repairProposal = some proposal
  covered : m.round ≤ proposal.round
  quorum : cfg.quorumSize ≤ (r.addPrepare m sig).core.numPrepares proposal.round

/-- A prepare with which the replica does not become prepared is at most stored. -/
lemma processPrepare_prepared [Sha256] (h : r.processPrepare cfg m sig = .ok r') :
    r' = r ∨ r' = r.addPrepare m sig ∨ ∃ proposal, r.BecomesPrepared cfg m sig proposal ∧
      ((r.addPrepare m sig).setPrepared proposal).doCommitPhase cfg = .ok r' := by
  rcases processPrepare_cases h with
    rfl | ⟨htakes, rfl | ⟨proposal, hdone, hp, hle, hquorum, hcommit⟩⟩
  · exact .inl rfl
  · exact .inr (.inl rfl)
  · exact .inr (.inr ⟨proposal, ⟨htakes.view, htakes.notOld, htakes.notFuture, htakes.latest, hdone,
      hp, hle, hquorum⟩, hcommit⟩)

/-! ### The condition -/

/-- What makes every history a certificate: when the replica becomes prepared, the prepares that it
has stored for the round of the proposal all name the view and the digest; and a view change in
round `0` starts only if the replica has been prepared. -/
structure KeepsHistory [Application A] (cfg : Config) (r : Replica A) (e : ReplicaEvent) :
    Prop where
  agree : ∀ now m sig proposal, e = .message now (.prepare m) sig →
    r.BecomesPrepared cfg m sig proposal → ∀ (i : ℕ) (p : PBFTPrepare),
      (r.addPrepare m sig).repairPrepares[i]? = some p → p.round = proposal.round →
        p.pbftView = r.pbftView ∧ p.proposalDigest = r.proposalDigest
  prepared : ∀ r₁ v, r.CallsViewChange cfg e r₁ v → r.round = 0 → r.lastPreparedState ≠ {}

section

variable [Application A] [Sha256] [PaddedRequestData] [SignatureProvider]

/-- **Every event keeps the invariant.** -/
lemma handle_historic (hr : r.core.Historic cfg) (he : e.Verified cfg)
    (hkeeps : r.KeepsHistory cfg e) (h : r.handle cfg e = .ok r') : r'.core.Historic cfg := by
  by_cases hprepare : ∃ now m sig, e = .message now (.prepare m) sig
  · obtain ⟨now, m, sig, rfl⟩ := hprepare
    have hsig : SignatureProvider.verify m.replicaId (Msg.prepare m).body sig = true :=
      Except.ok.inj he
    have hadd : (r.addPrepare m sig).core.Historic cfg := ⟨hr.stored.insert hsig, hr.last⟩
    rcases processPrepare_prepared h with rfl | rfl | ⟨proposal, hbecomes, hcommit⟩
    · exact hr
    · exact hadd
    · obtain ⟨_, _, -, hcore⟩ := doCommitPhase_core hcommit
      have hcert := hadd.preparedState hbecomes.quorum
        (hkeeps.agree now m sig proposal rfl hbecomes)
      rw [hcore]
      exact ⟨hadd.stored, .inr hcert⟩
  · exact hr.steps (fun now m sig heq => hprepare ⟨now, m, sig, heq⟩) (handle_core h)

variable {i : ℕ} {app : A} {es : List ReplicaEvent}

/-- **Every prepared history is a certificate**, in every run in which the prepares that a replica
has stored for a round agree whenever it becomes prepared: what `startViewChange` attaches to the
start message are signed prepares of a quorum of distinct replicas, all for the round, the view and
the digest of the last prepared state. -/
theorem prepared_history_certified
    (h : Run (system cfg i app) (fun _ r e => r.KeepsHistory cfg e) es r)
    (hkeeps : r.KeepsHistory cfg e) (hcall : r.CallsViewChange cfg e r₁ v)
    (hview : r₁.startViewChange cfg v = .ok r') :
    ∃ m, (.replica (v % cfg.numReplicas), .repairStart m) ∈ r'.sent ∧ r'.repairStart = some m ∧
      ∀ hist, m.preparedHistory = some hist →
        m.round = r₁.lastPreparedState.round ∧ hist.IsCertificate cfg r₁.lastPreparedState := by
  have hhist : r.core.Historic cfg := h.invariant (P := fun _ r => r.core.Historic cfg)
    (by
      rintro _ rfl
      exact ⟨.empty, .inl rfl⟩)
    fun _ _ _ _ _ hr hkeeps ⟨he, _, hhandle⟩ => handle_historic hr he hkeeps hhandle
  have hlast : r₁.lastPreparedState = r.lastPreparedState :=
    congrArg Core.lastPreparedState hcall.core_eq
  have hround : r₁.round = r.round := congrArg Core.round hcall.core_eq
  obtain ⟨m, digest, ms, hm, rfl⟩ := startViewChange_eq hview
  refine ⟨m, List.mem_append_right _ List.mem_cons_self, rfl, fun hist hsome => ?_⟩
  by_cases hprepared : r₁.lastPreparedState.round = r₁.round
  · have hist_eq : some hist = some r₁.lastPreparedState.history :=
      hsome.symm.trans (hm.prepared hprepared)
    cases hist_eq
    refine ⟨hm.round.trans hprepared.symm, ?_⟩
    rcases hhist.last with hnone | hcert
    · -- a replica that has never been prepared has its last prepared state in round `0`
      have hnone : r.lastPreparedState = {} := hnone
      refine absurd hnone (hkeeps.prepared r₁ v hcall ?_)
      rw [← hround, ← hprepared, hlast, hnone]
    · rw [hlast]
      exact hcert.isCertificate
  · cases hsome.symm.trans (hm.notPrepared hprepared)

end

/-! ### Two runs -/

section

/-- `KeepsHistory`, where it can be checked: all prepares that are stored agree. -/
def AllAgree (r : Replica A) : ReplicaEvent → Prop
  | .message _ (.prepare m) sig => ∀ x ∈ (r.addPrepare m sig).repairPrepares.toList,
    x.2.pbftView = r.pbftView ∧ x.2.proposalDigest = r.proposalDigest
  | _ => True

instance (r : Replica A) (e : ReplicaEvent) : Decidable (r.AllAgree e) := by
  rcases e with _ | ⟨_, _ | _, _⟩ | _ <;> unfold AllAgree <;> infer_instance

lemma AllAgree.keepsHistory [Application A] (h : r.AllAgree e) (hround : r.round ≠ 0) :
    r.KeepsHistory cfg e := by
  refine ⟨?_, fun _ _ _ hzero => absurd hzero hround⟩
  rintro now m sig proposal rfl - i p hp -
  exact h (i, p) (ExtTreeMap.mem_toList_iff_getElem?_eq_some.mpr hp)

end

section

attribute [local instance] prefixSha shortPaddedRequestData counterWire fourKeys

/-- A replica takes a proposal and the prepares of a quorum, and learns that one of the others has
gone to the next view. -/
def certifiedEvents : List ReplicaEvent :=
  prePrepareOf 1 (emptyProposal 1 [0, 1, 2]) :: preparesOf (emptyProposal 1 [0, 1, 2]) ++
    [secondView 2]

/-- **A certificate for the next view**: the replica changes to it with the three prepares. -/
theorem history_of_one_digest : ∃ (r r₁ r' : Replica Counter) (v : ℕ) (m : RepairStart)
    (hist : PreparedHistory),
    Run (system .oneFault 1 {}) (fun _ r e => r.KeepsHistory .oneFault e) certifiedEvents r ∧
    r.CallsViewChange .oneFault (secondView 3) r₁ v ∧ r₁.startViewChange .oneFault v = .ok r' ∧
    r'.repairStart = some m ∧ m.preparedHistory = some hist ∧
    hist.IsCertificate .oneFault r₁.lastPreparedState := by
  have hsome : ∃ r, certifiedEvents.foldlM (fun (r : Replica Counter) e =>
        if r.AllAgree e ∧ r.round ≠ 0 then r.handle .oneFault e else .error .assertion)
        (fresh 1 {}) = .ok r ∧
      (r.round ≠ 0 ∧ r.lastPreparedState.round = r.round ∧ r.replicaViews[3]? ≠ some (1, 1) ∧
        (r.learnView .oneFault 1 3 1 1).minHigherView ≠ 2 ^ 32 - 1 ∧
        2 ≤ (r.higherViews (r.replicaViews.insert 3 (1, 1))).length) := by
    decide +kernel
  obtain ⟨r, hfold, hround, hlast, hnew, hmin, hmany⟩ := hsome
  have hrun : Run (system .oneFault 1 ({} : Counter)) (fun _ r e => r.KeepsHistory .oneFault e)
      ([] ++ certifiedEvents) r :=
    run_of_foldlM (.start rfl) (by decide +kernel) (fun _ _ _ h => h.1.keepsHistory h.2) hfold
  have hkeeps : r.KeepsHistory .oneFault (secondView 3) := AllAgree.keepsHistory trivial hround
  have hcall : r.CallsViewChange .oneFault (secondView 3) (r.learnView .oneFault 1 3 1 1)
      (r.learnView .oneFault 1 3 1 1).minHigherView := .announced rfl hnew hmin hmany
  have hpos : 0 < Config.oneFault.numReplicas := by decide
  obtain ⟨r', hr'⟩ : ∃ r', (r.learnView .oneFault 1 3 1 1).startViewChange .oneFault
      (r.learnView .oneFault 1 3 1 1).minHigherView = .ok r' :=
    (startViewChange_ok_iff hpos).mpr fun hne => absurd hlast hne
  obtain ⟨m, digest, ms, hm, heq⟩ := startViewChange_eq hr'
  obtain ⟨m', -, hm', hcert⟩ := prepared_history_certified hrun hkeeps hcall hr'
  have hstart : r'.repairStart = some m := by rw [heq]
  cases hstart.symm.trans hm'
  have hhist := hm.prepared hlast
  exact ⟨r, _, r', _, m, _, hrun, hcall, hr', hstart, hhist, (hcert _ hhist).2⟩

/-- The prepare of replica 0 for a digest that nobody has proposed. -/
def strayPrepare : ReplicaEvent :=
  .message 1 (.prepare { round := 1, proposalDigest := [9] }) [0]

/-- A proof of two replies of replica 0, with a later view in the name of another replica. -/
def laterViewOf (i : ℕ) : ReplicaEvent :=
  .message 1 (.repairReplyProof {
    replicaId := i
    round := 1
    view := 5
    replies := [{ round := 1 }, { round := 1, seq := 1 }]
    signatures := [[0], [0]] }) [0]

/-- Replica 1 gets the stray prepare before those of a quorum, and is taken to a later view. -/
def strayEvents : List (ℕ × ReplicaEvent) :=
  [1, 2, 3].map startEvent ++
  [1, 2, 3].map (fun i => (i, prePrepareOf 1 (startProposal [1, 2, 3]))) ++
  [(1, strayPrepare)] ++
  [1, 2, 3].map (fun j => (1, prepareOf (startProposal [1, 2, 3]) j)) ++
  [(1, laterViewOf 2), (1, laterViewOf 3)]

/-- **A history of two digests**: a correct replica, with one faulty one, attaches four prepares of
which one is for another digest than the others. -/
theorem history_of_two_digests : ∃ s : ℕ → Replica Counter,
    Run ((network .oneFault fun _ => {}).system {0}) anyStep strayEvents s ∧
    ∃ m hist, (.replica 1, .repairStart m) ∈ (s 1).sent ∧ (s 1).repairStart = some m ∧
      m.preparedHistory = some hist ∧ ∀ p, ¬hist.IsCertificate .oneFault p := by
  have hsome : ∃ s, strayEvents.foldlM (deliver .oneFault {0} fun _ _ => True)
        (fun i => fresh i ({} : Counter)) = .ok s ∧
      ∃ m ∈ (s 1).repairStart, (Dest.replica 1, Msg.repairStart m) ∈ (s 1).sent ∧
        ∃ hist ∈ m.preparedHistory, ∃ p ∈ hist.prepares, ∃ p' ∈ hist.prepares,
          p.proposalDigest ≠ p'.proposalDigest := by
    decide +kernel
  obtain ⟨s, hfold, m, hm, hsent, hist, hhist, p, hp, p', hp', hne⟩ := hsome
  have hrun : Run ((network .oneFault fun _ => ({} : Counter)).system {0})
      (fun _ _ _ => True) ([] ++ strayEvents) s :=
    run_of_deliver (P := fun _ _ => True) (.start fun _ => rfl) hfold
  refine ⟨s, hrun, m, hist, hsent, hm, hhist, fun q hq => hne ?_⟩
  exact (hq.agree p hp).2.2.trans (hq.agree p' hp').2.2.symm

end

end Replica

end DomBft
