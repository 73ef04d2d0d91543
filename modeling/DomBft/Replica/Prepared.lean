import DomBft.Replica.Cluster
import DomBft.Replica.Core
import DomBft.Replica.Progress

/-!
The proposals that correct replicas are prepared for.

* `Ballot`: the round, the view and the digest in a prepare and in a commit.
* `Certified`: a quorum has prepared a ballot, as far as it is correct.
* `Voting`: the invariant of a correct replica.  The prepares it has stored are those of others,
  or of ballots that are certified; it prepares one digest for a round and a view, and commits to
  certified ballots only.
* `PreparesOnce`: the condition on proposals under which `prepared_unique` holds: **in one round and
  view, correct replicas are prepared for one proposal**.
* `prepared_for_two`: a primary that proposes twice.
-/

namespace DomBft

open Std (ExtTreeMap)
open Fallible Transition

/-- The round, the view and the digest of the proposal. -/
abbrev Ballot : Type := ℕ × ℕ × Bytes

/-- What a prepare is for. -/
def PBFTPrepare.ballot (m : PBFTPrepare) : Ballot := (m.round, m.pbftView, m.proposalDigest)

/-- What a commit is for. -/
def PBFTCommit.ballot (m : PBFTCommit) : Ballot := (m.round, m.pbftView, m.proposalDigest)

/-- What has the body of a prepare is that prepare, or a commit for the same ballot. -/
lemma Msg.eq_of_body_prepare {msg : Msg} {m : PBFTPrepare} (h : msg.body = (Msg.prepare m).body) :
    msg = .prepare m ∨ ∃ m', msg = .pbftCommit m' ∧ m'.ballot = m.ballot := by
  cases msg with
  | pbftCommit m' =>
      cases h
      exact .inr ⟨m', rfl, rfl⟩
  | _ => exact .inl h

namespace Core

variable {c c' : Core} {b b' : Ballot} {cfg : Config} {F : Finset ℕ}
  {Said Said' : ℕ → Ballot → Prop}

/-- A prepare for the ballot has been sent. -/
def Prepares (c : Core) (b : Ballot) : Prop := ∃ dst m, (dst, .prepare m) ∈ c.sent ∧ m.ballot = b

/-- A commit for the ballot has been sent. -/
def Commits (c : Core) (b : Ballot) : Prop := ∃ dst m, (dst, .pbftCommit m) ∈ c.sent ∧ m.ballot = b

lemma Prepares.mono (hsent : c.sent <+: c'.sent) (h : c.Prepares b) : c'.Prepares b := by
  obtain ⟨dst, m, hm, rfl⟩ := h
  exact ⟨dst, m, hsent.subset hm, rfl⟩

/-- Another message is sent. -/
lemma prepares_send {dst : Dest} {msg : Msg} (h : (c.send dst msg).Prepares b) :
    c.Prepares b ∨ ∃ m, msg = .prepare m ∧ m.ballot = b := by
  obtain ⟨dst', m, hm, rfl⟩ := h
  rcases List.mem_append.mp hm with hm | hm
  · exact .inl ⟨dst', m, hm, rfl⟩
  · cases List.mem_singleton.mp hm
    exact .inr ⟨m, rfl, rfl⟩

lemma commits_send {dst : Dest} {msg : Msg} (h : (c.send dst msg).Commits b) :
    c.Commits b ∨ ∃ m, msg = .pbftCommit m ∧ m.ballot = b := by
  obtain ⟨dst', m, hm, rfl⟩ := h
  rcases List.mem_append.mp hm with hm | hm
  · exact .inl ⟨dst', m, hm, rfl⟩
  · cases List.mem_singleton.mp hm
    exact .inr ⟨m, rfl, rfl⟩

/-! ### The invariant of a replica -/

section

variable (cfg : Config) (F : Finset ℕ) (Said : ℕ → Ballot → Prop)

/-- A quorum has prepared the ballot, as far as it is correct. -/
def Certified (b : Ballot) : Prop :=
  ∃ B : Finset ℕ, cfg.quorumSize ≤ B.card ∧ ∀ j ∈ B, j ∉ F → Said j b

/-- **The invariant of a correct replica.** -/
structure Voting (c : Core) : Prop where
  stored : ∀ (j : ℕ) (m : PBFTPrepare), c.repairPrepares[j]? = some m → j ∉ F →
    Said j m.ballot ∨ Certified cfg F Said m.ballot
  once : ∀ b b', c.Prepares b → c.Prepares b' → b.1 = b'.1 → b.2.1 = b'.2.1 → b = b'
  certified : ∀ b, c.Commits b → Certified cfg F Said b
  kept : c.lastPreparedState = {} ∨ c.Commits (c.lastPreparedState.round,
    c.lastPreparedState.pbftView, c.lastPreparedState.proposalDigest)

end

lemma Certified.mono (hsaid : ∀ j b, Said j b → Said' j b) (h : Certified cfg F Said b) :
    Certified cfg F Said' b := by
  obtain ⟨B, hcard, hB⟩ := h
  exact ⟨B, hcard, fun j hj hjF => hsaid j b (hB j hj hjF)⟩

lemma Voting.mono (hsaid : ∀ j b, Said j b → Said' j b) (h : c.Voting cfg F Said) :
    c.Voting cfg F Said' where
  stored j m hm hjF := (h.stored j m hm hjF).imp (hsaid j _) (Certified.mono hsaid)
  once := h.once
  certified b hb := (h.certified b hb).mono hsaid
  kept := h.kept

/-- Other messages are sent, and what is stored stays or goes. -/
lemma Voting.congr (h : c.Voting cfg F Said)
    (hstored : c'.repairPrepares = c.repairPrepares ∨ c'.repairPrepares = ∅)
    (hlast : c'.lastPreparedState = c.lastPreparedState)
    (hsent : ∃ ms, c'.sent = c.sent ++ ms ∧
      ∀ x ∈ ms, (∀ m, x.2 ≠ .prepare m) ∧ ∀ m, x.2 ≠ .pbftCommit m) :
    c'.Voting cfg F Said := by
  obtain ⟨ms, hms, hother⟩ := hsent
  have hprepares : ∀ {b}, c'.Prepares b → c.Prepares b := by
    rintro b ⟨dst, m, hm, rfl⟩
    rw [hms] at hm
    exact ⟨dst, m, (List.mem_append.mp hm).resolve_right fun hm => (hother _ hm).1 m rfl, rfl⟩
  have hcommits : ∀ {b}, c'.Commits b ↔ c.Commits b := by
    refine ⟨?_, ?_⟩
    · rintro ⟨dst, m, hm, rfl⟩
      rw [hms] at hm
      exact ⟨dst, m, (List.mem_append.mp hm).resolve_right fun hm => (hother _ hm).2 m rfl, rfl⟩
    · rintro ⟨dst, m, hm, rfl⟩
      exact ⟨dst, m, hms ▸ List.mem_append_left _ hm, rfl⟩
  refine ⟨fun j m hm hjF => ?_, fun b b' hb hb' => h.once b b' (hprepares hb) (hprepares hb'),
    fun b hb => h.certified b (hcommits.mp hb), ?_⟩
  · rcases hstored with heq | heq
    · exact h.stored j m (heq ▸ hm) hjF
    · rw [heq] at hm
      cases ExtTreeMap.getElem?_empty.symm.trans hm
  · rw [hlast]
    exact h.kept.imp_right hcommits.mpr

/-- **A quorum of prepares** certifies its ballot. -/
lemma Voting.certified_of_quorum (h : c.Voting cfg F Said) {round : ℕ}
    (hquorum : cfg.quorumSize ≤ c.numPrepares round) :
    Certified cfg F Said (round, c.pbftView, c.proposalDigest) := by
  let names : PBFTPrepare → Prop := fun m =>
    (m.round, m.proposalDigest, m.pbftView) = (round, c.proposalDigest, c.pbftView)
  have hsaid : ∀ j ∈ OrderedMap.keysWhere c.repairPrepares names, j ∉ F →
      Said j (round, c.pbftView, c.proposalDigest) ∨
        Certified cfg F Said (round, c.pbftView, c.proposalDigest) := by
    intro j hj hjF
    obtain ⟨m, hm, heq⟩ := OrderedMap.mem_keysWhere.mp hj
    have hballot : m.ballot = (round, c.pbftView, c.proposalDigest) := by
      rw [PBFTPrepare.ballot]
      injection heq with hround hrest
      injection hrest with hdigest hview
      rw [hround, hdigest, hview]
    rw [← hballot]
    exact h.stored j m hm hjF
  -- a commit that is taken for a prepare is for a ballot that is certified already
  by_cases hcert : Certified cfg F Said (round, c.pbftView, c.proposalDigest)
  · exact hcert
  · refine ⟨OrderedMap.keysWhere c.repairPrepares names, ?_, fun j hj hjF =>
      (hsaid j hj hjF).resolve_right hcert⟩
    rw [OrderedMap.card_keysWhere]
    exact hquorum

end Core

/-- A prepare for the round and view of a proposal is for the proposal. -/
def Msg.PreparesOnly (m : PBFTPrePrepare) : Msg → Prop
  | .prepare p => p.round = m.proposal.round → p.pbftView = m.pbftView →
    p.proposalDigest = m.proposalDigest
  | _ => True

instance (m : PBFTPrePrepare) : DecidablePred (Msg.PreparesOnly m) := fun msg => by
  rcases msg with _ | _ <;> unfold Msg.PreparesOnly <;> infer_instance

namespace Replica

variable {A : Type}

/-- A proposal that the replica accepts is the one that it has prepared in its round and view
before, if there is one. -/
def PreparesOnce (cfg : Config) (r : Replica A) : ReplicaEvent → Prop
  | .message _ (.prePrepare m) _ =>
    m.round = r.round → m.pbftView = r.pbftView → m.primaryId = r.getPrimary cfg →
      ∀ x ∈ r.sent, x.2.PreparesOnly m
  | _ => True

instance decidablePreparesOnce (cfg : Config) (r : Replica A) :
    DecidablePred (r.PreparesOnce cfg) := fun e => by
  rcases e with _ | ⟨_, _ | _, _⟩ | _ <;> unfold PreparesOnce <;> infer_instance

end Replica

namespace Core

variable {A : Type} [Application A] [Sha256] [PaddedRequestData] {r₀ : Replica A} {cfg : Config}
  {F : Finset ℕ} {Said Said' : ℕ → Ballot → Prop} {e : ReplicaEvent} {c c' : Core}

omit [Application A] [Sha256] [PaddedRequestData] in
lemma mem_core_sent {r : Replica A} {dst : Dest} {msg : Msg} (h : msg.isAgreement = true) :
    (dst, msg) ∈ r.core.sent ↔ (dst, msg) ∈ r.sent :=
  List.mem_filter.trans (and_iff_left h)

/-- **Every step keeps the invariant of a correct replica.** -/
lemma Voting.step (h : c.Voting cfg F Said) (hprepare : ∀ now m sig,
      e = .message now (.prepare m) sig → m.replicaId ∉ F →
        Said m.replicaId m.ballot ∨ Certified cfg F Said m.ballot)
    (honce : r₀.PreparesOnce cfg e) (hstep : Step cfg r₀ e c c') : c'.Voting cfg F Said := by
  cases hstep with
  | startRepair | changeView | proposeAgain | propose =>
      exact h.congr (.inl rfl) rfl ⟨_, rfl, by simp⟩
  | storeStart | storeCommit | setRound | align =>
      exact h.congr (.inl rfl) rfl ⟨[], (List.append_nil _).symm, by simp⟩
  | finish => exact h.congr (.inr rfl) rfl ⟨[], (List.append_nil _).symm, by simp⟩
  | @accept now m sig logDigest he hc hround hview hprimary =>
      subst he hc
      -- an earlier prepare for the round and view is for this proposal
      have hold : ∀ b, r₀.core.Prepares b → b.1 = m.proposal.round → b.2.1 = r₀.pbftView →
          b = (m.proposal.round, r₀.pbftView, m.proposalDigest) := by
        rintro b ⟨dst, p, hp, rfl⟩ hr hv
        have hdigest := honce hround hview hprimary (dst, .prepare p) ((mem_core_sent rfl).mp hp) hr
          (hv.trans hview.symm)
        exact Prod.ext hr (Prod.ext hv hdigest)
      refine ⟨h.stored, fun b b' hb hb' hr hv => ?_, fun b hb => ?_, ?_⟩
      · rcases prepares_send hb with hb | ⟨p, hp, rfl⟩
        · rcases prepares_send hb' with hb' | ⟨p', hp', rfl⟩
          · exact h.once b b' hb hb' hr hv
          · cases hp'
            exact hold b hb hr hv
        · cases hp
          rcases prepares_send hb' with hb' | ⟨p', hp', rfl⟩
          · exact (hold b' hb' hr.symm hv.symm).symm
          · cases hp'
            rfl
      · exact h.certified b ((commits_send hb).resolve_right fun ⟨_, hm, _⟩ => by cases hm)
      · refine h.kept.imp_right fun ⟨dst, p, hp, hb⟩ => ⟨dst, p, List.mem_append_left _ hp, hb⟩
  | @storePrepare now m sig he =>
      refine ⟨fun j m' hm' hjF => ?_, h.once, h.certified, h.kept⟩
      rcases OrderedMap.getElem?_insert_cases hm' with ⟨rfl, rfl⟩ | ⟨-, hold⟩
      · exact hprepare now m' sig he hjF
      · exact h.stored j m' hold hjF
  | prepared _ _ _ hquorum =>
      have hcert := h.certified_of_quorum hquorum
      refine ⟨h.stored, fun b b' hb hb' => ?_, fun b hb => ?_, .inr ?_⟩
      · refine h.once b b' ((prepares_send hb).resolve_right fun ⟨_, hm, _⟩ => by cases hm)
          ((prepares_send hb').resolve_right fun ⟨_, hm, _⟩ => by cases hm)
      · rcases commits_send hb with hb | ⟨m, hm, rfl⟩
        · exact h.certified b hb
        · cases hm
          exact hcert
      · exact ⟨.replicas, _, List.mem_append_right _ (List.mem_singleton_self _), rfl⟩

/-- An event keeps the invariant of a correct replica. -/
lemma Voting.steps (h : c.Voting cfg F Said) (hprepare : ∀ now m sig,
      e = .message now (.prepare m) sig → m.replicaId ∉ F →
        Said m.replicaId m.ballot ∨ Certified cfg F Said m.ballot)
    (honce : r₀.PreparesOnce cfg e) (hsteps : Steps cfg r₀ e c c') : c'.Voting cfg F Said := by
  induction hsteps with
  | refl => exact h
  | tail _ hstep ih => exact ih.step hprepare honce hstep

end Core

namespace Replica

section

variable {A : Type} [Application A] [Sha256] [PaddedRequestData] [SignatureProvider] {cfg : Config}
  {app : ℕ → A} {F : Finset ℕ} {s s' : ℕ → Replica A}

/-! ### All replicas -/

omit [Application A] [Sha256] [PaddedRequestData] [SignatureProvider] in
/-- The replica has been prepared for the ballot, and has sent a commit for it then. -/
def PreparedFor (r : Replica A) (b : Ballot) : Prop :=
  ∃ dst m, (dst, .pbftCommit m) ∈ r.sent ∧ m.ballot = b

/-- One of the replicas has sent a prepare for the ballot. -/
def SaidIn (cfg : Config) (s : ℕ → Replica A) (j : ℕ) (b : Ballot) : Prop :=
  j < cfg.numReplicas ∧ (s j).core.Prepares b

/-- **The invariant of the deployment.** -/
structure AllVoting (cfg : Config) (F : Finset ℕ) (s : ℕ → Replica A) : Prop where
  idle : ∀ j, cfg.numReplicas ≤ j → (s j).sent = []
  voting : ∀ j ∉ F, (s j).core.Voting cfg F (SaidIn cfg s)

omit [Application A] [PaddedRequestData] in
/-- A prepare of a correct replica comes from it, or is its commit for a ballot that is
certified. -/
lemma AllVoting.of_prepare (h : AllVoting cfg F s) {e : ReplicaEvent} (hver : e.Verified cfg)
    (hforged : ∀ j ∉ F, ∀ now msg sig, e = .message now msg sig →
      SignatureProvider.verify j msg.body sig = true → (s j).Signed msg.body)
    {now : ℕ} {m : PBFTPrepare} {sig : Bytes} (he : e = .message now (.prepare m) sig)
    (hF : m.replicaId ∉ F) :
    SaidIn cfg s m.replicaId m.ballot ∨ Core.Certified cfg F (SaidIn cfg s) m.ballot := by
  subst he
  have hsig : SignatureProvider.verify m.replicaId (Msg.prepare m).body sig = true :=
    Except.ok.inj hver
  obtain ⟨⟨dst, msg⟩, hmem, hbody⟩ := hforged m.replicaId hF now _ sig rfl hsig
  replace hbody : msg.body = (Msg.prepare m).body := hbody
  rcases Msg.eq_of_body_prepare hbody with heq | ⟨m', heq, hballot⟩
  · rw [heq] at hmem
    refine .inl ⟨?_, dst, m, (Core.mem_core_sent rfl).mpr hmem, rfl⟩
    by_contra hge
    rw [h.idle _ (not_lt.mp hge)] at hmem
    exact List.not_mem_nil hmem
  · rw [heq] at hmem
    exact .inr ((h.voting m.replicaId hF).certified m.ballot
      ⟨dst, m', (Core.mem_core_sent rfl).mpr hmem, hballot⟩)

omit [Application A] [Sha256] [PaddedRequestData] [SignatureProvider] in
lemma allVoting_fresh (app : ℕ → A) : AllVoting cfg F fun i => fresh i (app i) where
  idle _ _ := rfl
  voting j _ := by
    refine ⟨fun k m hm => ?_, ?_, ?_, .inl rfl⟩
    · cases ExtTreeMap.getElem?_empty.symm.trans hm
    · rintro b b' ⟨dst, m, hm, -⟩
      exact absurd hm List.not_mem_nil
    · rintro b ⟨dst, m, hm, -⟩
      exact absurd hm List.not_mem_nil

/-- **Every step of the deployment keeps the invariant.** -/
lemma AllVoting.step (h : AllVoting cfg F s) {x : ℕ × ReplicaEvent}
    (honce : (s x.1).PreparesOnce cfg x.2) (hstep : ((network cfg app).system F).step s x s') :
    AllVoting cfg F s' := by
  obtain ⟨i, e⟩ := x
  obtain ⟨hi, hforged, t, ⟨hin, hver, -, hhandle⟩, rfl⟩ := hstep
  dsimp only at hi hforged hin hver hhandle honce
  have hsent : (s i).sent <+: t.sent := (handle_views hhandle).sent
  have hgrows : ∀ j, (s j).core.sent <+: (Function.update s i t j).core.sent := by
    intro j
    by_cases hj : j = i
    · rw [hj, Function.update_self]
      exact hsent.filter _
    · rw [Function.update_of_ne hj]
  have hsaid : ∀ j b, SaidIn cfg s j b → SaidIn cfg (Function.update s i t) j b :=
    fun j b => And.imp_right (Core.Prepares.mono (hgrows j))
  have hnew : t.core.Voting cfg F (SaidIn cfg s) := by
    refine (h.voting i hi).steps (fun now m sig he hF => h.of_prepare hver ?_ he hF) honce
      (handle_core hhandle)
    rintro j hj now msg sig rfl hsig
    exact hforged j hj msg.body ⟨_, List.mem_cons_self, rfl, hsig⟩
  refine ⟨fun j hj => ?_, fun j hj => ?_⟩
  · rw [Function.update_of_ne (by omega)]
    exact h.idle j hj
  · by_cases hji : j = i
    · rw [hji, Function.update_self]
      exact hnew.mono hsaid
    · rw [Function.update_of_ne hji]
      exact (h.voting j hj).mono hsaid

/-- **One prepared proposal**: in a round and view, correct replicas are prepared for the same
digest, as long as none of them prepares two. -/
theorem prepared_unique (hwf : cfg.WellFormed) (hF : F ⊆ Finset.range cfg.numReplicas)
    (hcard : F.card ≤ cfg.f) {es : List (ℕ × ReplicaEvent)}
    (hrun : Run ((network cfg app).system F) (fun _ s x => (s x.1).PreparesOnce cfg x.2) es s) :
    (∀ i ∉ F, (s i).lastPreparedState = {} ∨ (s i).PreparedFor ((s i).lastPreparedState.round,
      (s i).lastPreparedState.pbftView, (s i).lastPreparedState.proposalDigest)) ∧
    ∀ i ∉ F, ∀ j ∉ F, ∀ b b', (s i).PreparedFor b → (s j).PreparedFor b' →
      b.1 = b'.1 → b.2.1 = b'.2.1 → b.2.2 = b'.2.2 := by
  have h : AllVoting cfg F s := by
    refine hrun.invariant (P := fun _ s => AllVoting cfg F s) ?_ ?_
    · intro s hs
      obtain rfl : s = fun i => fresh i (app i) := funext hs
      exact allVoting_fresh app
    · exact fun es s x s' _ h honce hstep => h.step honce hstep
  have hcommits : ∀ {i b}, (s i).core.Commits b ↔ (s i).PreparedFor b := by
    intro i b
    refine exists_congr fun dst => exists_congr fun m => and_congr_left fun _ => ?_
    exact Core.mem_core_sent rfl
  refine ⟨fun i hi => (h.voting i hi).kept.imp_right hcommits.mp, ?_⟩
  intro i hi j hj b b' hb hb' hround hview
  obtain ⟨B, hB, hsaid⟩ := (h.voting i hi).certified b (hcommits.mpr hb)
  obtain ⟨B', hB', hsaid'⟩ := (h.voting j hj).certified b' (hcommits.mpr hb')
  have hsub : ∀ {B : Finset ℕ} {b}, (∀ k ∈ B, k ∉ F → SaidIn cfg s k b) →
      B ⊆ Finset.range cfg.numReplicas := fun hB k hk => by
    by_cases hkF : k ∈ F
    · exact hF hkF
    · exact Finset.mem_range.mpr (hB k hk hkF).1
  obtain ⟨k, hk, hk', hkF⟩ := Quorum.exists_common (F := F) (hsub hsaid) (hsub hsaid') (by
    rw [Finset.card_range]
    simp only [Config.WellFormed, Config.quorumSize] at *
    omega)
  rw [(h.voting k hkF).once b b' (hsaid k hk hkF).2 (hsaid' k hk' hkF).2 hround hview]

end

/-! ### Two runs -/

section

attribute [local instance] prefixSha shortPaddedRequestData counterWire fourKeys

/-- Replica 0 makes a proof of two replies of its own, upon which another replica starts a
repair. -/
def startEvent (i : ℕ) : ℕ × ReplicaEvent :=
  (i, .message 1 (.repairReplyProof {
    replicaId := 0
    round := 1
    replies := [{ round := 1 }, { round := 1, seq := 1 }]
    signatures := [[0], [0]] }) [0])

/-- A proposal made of the first start messages of some replicas. -/
def startProposal (ids : List ℕ) : RepairProposal where
  round := 1
  startMsgs := ids.map fun i =>
    { round := 1, replicaId := i, log? := some ((fresh i ({} : Counter)).log.toProto true) }
  signatures := ids.map fun i => [UInt8.ofNat i]

/-- A replica prepares a proposal. -/
def prepareOf (p : RepairProposal) (i : ℕ) : ReplicaEvent :=
  .message 1 (.prepare {
    round := p.round, replicaId := i, proposalDigest := getProposalDigest p }) [UInt8.ofNat i]

/-- The others start a repair, accept what replica 0 proposes, and two of them are prepared. -/
def onceEvents : List (ℕ × ReplicaEvent) :=
  [1, 2, 3].map startEvent ++
  [1, 2, 3].map (fun i => (i, prePrepareOf 1 (startProposal [1, 2, 3]))) ++
  [1, 2].flatMap fun i => [1, 2, 3].map fun j => (i, prepareOf (startProposal [1, 2, 3]) j)

/-- The ballot of a proposal in the first view. -/
def ballotOf (p : RepairProposal) : Ballot := (p.round, 0, getProposalDigest p)

/-- Two correct replicas are prepared for the proposal, and so for nothing else. -/
theorem prepared_once : ∃ s : ℕ → Replica Counter,
    Run ((network .oneFault fun _ => {}).system {0})
      (fun _ s x => (s x.1).PreparesOnce .oneFault x.2) onceEvents s ∧
    (s 1).PreparedFor (ballotOf (startProposal [1, 2, 3])) ∧
    ∀ d, (s 2).PreparedFor (1, 0, d) → d = getProposalDigest (startProposal [1, 2, 3]) := by
  have hsome : ∃ s, onceEvents.foldlM
        (deliver (A := Counter) .oneFault {0} fun s e =>
          ∀ i < (4 : ℕ), (s i).PreparesOnce .oneFault e)
        (fun i => fresh i ({} : Counter)) = .ok s ∧
      ∃ x ∈ (s 1).sent, x.2 = .pbftCommit {
        round := 1, replicaId := 1, proposalDigest := getProposalDigest (startProposal [1, 2, 3]) } := by
    decide +kernel
  obtain ⟨s, hfold, ⟨dst, msg⟩, hmem, heq⟩ := hsome
  have hrun : Run ((network .oneFault fun _ => ({} : Counter)).system {0})
      (fun _ s x => ∀ i < 4, (s i).PreparesOnce .oneFault x.2) ([] ++ onceEvents) s :=
    run_of_deliver (.start fun _ => rfl) hfold
  have hrun' : Run ((network .oneFault fun _ => ({} : Counter)).system {0})
      (fun _ s x => (s x.1).PreparesOnce .oneFault x.2) ([] ++ onceEvents) s := by
    refine hrun.mono_of_step fun es s x s' hall hstep => ?_
    obtain ⟨-, -, t, ⟨hlt, -⟩, -⟩ := hstep
    exact hall x.1 hlt
  replace heq : msg = _ := heq
  subst heq
  have hone : (s 1).PreparedFor (ballotOf (startProposal [1, 2, 3])) := ⟨dst, _, hmem, rfl⟩
  have hwf : Config.oneFault.WellFormed := rfl
  refine ⟨s, hrun', hone, fun d hd => ?_⟩
  exact (prepared_unique hwf (by decide) (by decide) hrun').2 2 (by decide) 1 (by decide)
    _ _ hd hone
    rfl rfl

/-- Replica 0 proposes once more: what replica 1 has been prepared for is not what replica 2 is. -/
def twiceEvents : List (ℕ × ReplicaEvent) :=
  [1, 2, 3].map startEvent ++
  [1, 2, 3].map (fun i => (i, prePrepareOf 1 (startProposal [1, 2, 3]))) ++
  [1, 2, 3].map (fun j => (1, prepareOf (startProposal [1, 2, 3]) j)) ++
  [2, 3].map (fun i => (i, prePrepareOf 1 (startProposal [0, 1, 2]))) ++
  [0, 2, 3].map fun j => (2, prepareOf (startProposal [0, 1, 2]) j)

/-- **Two prepared proposals in one round and view**: a primary proposes twice, and two correct
replicas are prepared for different digests. -/
theorem prepared_for_two : ∃ s : ℕ → Replica Counter,
    Run ((network .oneFault fun _ => {}).system {0}) anyStep twiceEvents s ∧
    ∃ b b', (s 1).PreparedFor b ∧ (s 2).PreparedFor b' ∧ b.1 = b'.1 ∧ b.2.1 = b'.2.1 ∧
      b.2.2 ≠ b'.2.2 ∧ (s 1).viewPrepared = true ∧ (s 2).viewPrepared = true ∧
      (s 1).lastPreparedState.proposalDigest = b.2.2 ∧
      (s 2).lastPreparedState.proposalDigest = b'.2.2 := by
  have hsome : ∃ s, twiceEvents.foldlM (deliver .oneFault {0} fun _ _ => True)
        (fun i => fresh i ({} : Counter)) = .ok s ∧
      ((∃ x ∈ (s 1).sent, x.2 = .pbftCommit {
          round := 1
          replicaId := 1
          proposalDigest := getProposalDigest (startProposal [1, 2, 3]) }) ∧
        (∃ x ∈ (s 2).sent, x.2 = .pbftCommit {
          round := 1
          replicaId := 2
          proposalDigest := getProposalDigest (startProposal [0, 1, 2]) }) ∧
        (s 1).viewPrepared = true ∧ (s 2).viewPrepared = true ∧
        (s 1).lastPreparedState.proposalDigest = getProposalDigest (startProposal [1, 2, 3]) ∧
        (s 2).lastPreparedState.proposalDigest = getProposalDigest (startProposal [0, 1, 2])) := by
    decide +kernel
  obtain ⟨s, hfold, ⟨⟨dst, msg⟩, hmem, heq⟩, ⟨⟨dst', msg'⟩, hmem', heq'⟩, hrest⟩ := hsome
  have hrun : Run ((network .oneFault fun _ => ({} : Counter)).system {0})
      (fun _ _ _ => True) ([] ++ twiceEvents) s :=
    run_of_deliver (P := fun _ _ => True) (.start fun _ => rfl) hfold
  replace heq : msg = _ := heq
  replace heq' : msg' = _ := heq'
  subst heq heq'
  exact ⟨s, hrun, _, _, ⟨dst, _, hmem, rfl⟩, ⟨dst', _, hmem', rfl⟩, rfl, rfl, by decide, hrest⟩

end

end Replica

end DomBft
