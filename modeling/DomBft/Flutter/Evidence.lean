import DomBft.Lib.Quorum
import DomBft.Flutter.Step

/-!
What the decisions of a replica of Flutter rest on: the votes and proposals that others have sent.

* `Voters`, `Majority`, `Decided`: the votes for an outcome, those behind a slow proposal, and
  what an outcome is decided upon.
* `Candidate.Justified`, `FlutterMsg.Justified`, `FlutterReplica.Justified`: all that a replica
  has recorded and sent has been said by those it names.
* `Step.justified`: every small step keeps that.
* `Decided.exists_voters`: whichever way an outcome has been decided, `2f + 1` replicas have voted
  for it.
-/

namespace DomBft

open Std (ExtTreeMap)

/-! ### Votes -/

section

variable (cfg : FlutterConfig) (Said : ℕ → FlutterMsg → Prop)

/-- All of these replicas have voted for the outcome. -/
def Voters (key : CandidateKey) (accept : Bool) (S : Finset ℕ) : Prop :=
  ∀ j ∈ S, j < cfg.numReplicas ∧ Said j (.rbcProposal key accept)

/-- A super quorum has voted, and this is what most of it has voted for. -/
def Majority (key : CandidateKey) (accept : Bool) : Prop :=
  ∃ A R : Finset ℕ, Disjoint A R ∧ Voters cfg Said key true A ∧ Voters cfg Said key false R ∧
    A.card + R.card = cfg.superQuorumSize ∧ accept = decide (R.card < A.card)

/-- More than `f` replicas have sent a slow proposal for the outcome. -/
def SlowQuorum (key : CandidateKey) (accept : Bool) : Prop :=
  ∃ D : Finset ℕ, cfg.f + 1 ≤ D.card ∧
    ∀ j ∈ D, j < cfg.numReplicas ∧ Said j (.rbcSlowProposal key accept)

/-- The outcome has been decided: by the votes, or by the leader. -/
def Decided (key : CandidateKey) (accept : Bool) : Prop :=
  (∃ A : Finset ℕ, cfg.superQuorumSize ≤ A.card ∧ Voters cfg Said key accept A) ∨
    Said leaderId (.rbcSlowValue key accept)

/-- What a candidate has recorded has been said. -/
structure Candidate.Justified (key : CandidateKey) (c : Candidate) : Prop where
  keyed : c.key = key
  votes : ∃ A R : Finset ℕ, Disjoint A R ∧ c.votedReplicas = A ∪ R ∧ c.acceptVotes = A.card ∧
    c.rejectVotes = R.card ∧ Voters cfg Said key true A ∧ Voters cfg Said key false R
  proposals : ∀ j accept, c.slowProposals[j]? = some accept →
    j < cfg.numReplicas ∧ Said j (.rbcSlowProposal key accept)
  value : c.slowValueReceived = true → Said leaderId (.rbcSlowValue key c.slowAccepted)

/-- What a message rests on has been said; the leader alone sends slow values. -/
def FlutterMsg.Justified (replicaId : ℕ) : FlutterMsg → Prop
  | .rbcSlowProposal key accept => Majority cfg Said key accept
  | .rbcSlowValue key accept => replicaId = leaderId ∧ SlowQuorum cfg Said key accept
  | .reply m => Decided cfg Said m.key m.accepted
  | _ => True

/-- What a replica has recorded and sent rests on what has been said. -/
structure FlutterReplica.Justified (r : FlutterReplica) : Prop where
  pool : ∀ (key : CandidateKey) (c : Candidate), r.candidatePool[key]? = some c →
    c.Justified cfg Said key
  sent : ∀ x ∈ r.sent, x.2.Justified cfg Said r.replicaId

/-- A message comes from a replica that has sent it. -/
def FlutterInput.Heard : FlutterInput → Prop
  | .message j msg => j < cfg.numReplicas ∧ Said j msg
  | _ => True

end

section

variable {cfg : FlutterConfig} {Said Said' : ℕ → FlutterMsg → Prop} {key : CandidateKey}
  {accept : Bool} {c : Candidate} {r r' : FlutterReplica} {e : FlutterInput} {now : ℕ}

/-! ### More that has been said -/

lemma Voters.mono {S : Finset ℕ} (hsaid : ∀ j m, Said j m → Said' j m)
    (h : Voters cfg Said key accept S) : Voters cfg Said' key accept S :=
  fun j hj => (h j hj).imp_right (hsaid j _)

lemma Majority.mono (hsaid : ∀ j m, Said j m → Said' j m) (h : Majority cfg Said key accept) :
    Majority cfg Said' key accept := by
  obtain ⟨A, R, hdisj, hA, hR, hrest⟩ := h
  exact ⟨A, R, hdisj, hA.mono hsaid, hR.mono hsaid, hrest⟩

lemma SlowQuorum.mono (hsaid : ∀ j m, Said j m → Said' j m) (h : SlowQuorum cfg Said key accept) :
    SlowQuorum cfg Said' key accept := by
  obtain ⟨D, hcard, hD⟩ := h
  exact ⟨D, hcard, fun j hj => (hD j hj).imp_right (hsaid j _)⟩

lemma Decided.mono (hsaid : ∀ j m, Said j m → Said' j m) (h : Decided cfg Said key accept) :
    Decided cfg Said' key accept :=
  h.imp (fun ⟨A, hcard, hA⟩ => ⟨A, hcard, hA.mono hsaid⟩) (hsaid leaderId _)

lemma FlutterReplica.Justified.mono (hsaid : ∀ j m, Said j m → Said' j m)
    (h : r.Justified cfg Said) : r.Justified cfg Said' := by
  refine ⟨fun key c hc => ?_, fun x hx => ?_⟩
  · obtain ⟨hkey, ⟨A, R, hdisj, hvoted, hacc, hrej, hA, hR⟩, hproposals, hvalue⟩ := h.pool key c hc
    exact ⟨hkey, ⟨A, R, hdisj, hvoted, hacc, hrej, hA.mono hsaid, hR.mono hsaid⟩,
      fun j accept hj => (hproposals j accept hj).imp_right (hsaid j _),
      fun hreceived => hsaid leaderId _ (hvalue hreceived)⟩
  · have hsent := h.sent x hx
    revert hsent
    cases x.2 with
    | rbcSlowProposal key accept => exact Majority.mono hsaid
    | rbcSlowValue key accept => exact And.imp_right (SlowQuorum.mono hsaid)
    | reply reply => exact Decided.mono hsaid
    | _ => exact id

/-! ### Counting -/

/-- A majority of a super quorum has more than twice `f` votes. -/
lemma Majority.exists_voters (h : Majority cfg Said key accept) :
    ∃ S : Finset ℕ, 2 * cfg.f + 1 ≤ S.card ∧ Voters cfg Said key accept S := by
  obtain ⟨A, R, -, hA, hR, hcard, rfl⟩ := h
  rw [FlutterConfig.superQuorumSize] at hcard
  by_cases hlt : R.card < A.card
  · rw [decide_eq_true hlt]
    exact ⟨A, by omega, hA⟩
  · rw [decide_eq_false hlt]
    exact ⟨R, by omega, hR⟩

/-- Behind a slow quorum there are the votes that a correct replica has counted before its slow
proposal. -/
lemma SlowQuorum.exists_voters {F : Finset ℕ} (hF : F.card ≤ cfg.f)
    (hproposal : ∀ j ∉ F, j < cfg.numReplicas → Said j (.rbcSlowProposal key accept) →
      Majority cfg Said key accept) (h : SlowQuorum cfg Said key accept) :
    ∃ S : Finset ℕ, 2 * cfg.f + 1 ≤ S.card ∧ Voters cfg Said key accept S := by
  obtain ⟨D, hcard, hD⟩ := h
  obtain ⟨j, hj, hjF⟩ := Quorum.exists_correct (F := F) (A := D) (by omega)
  exact (hproposal j hjF (hD j hj).1 (hD j hj).2).exists_voters

/-- **Whatever has been decided has `2f + 1` votes**: those of a super quorum, or those that a
correct replica has counted before its slow proposal. -/
lemma Decided.exists_voters {F : Finset ℕ} (hF : F.card ≤ cfg.f)
    (hvalue : Said leaderId (.rbcSlowValue key accept) → SlowQuorum cfg Said key accept)
    (hproposal : ∀ j ∉ F, j < cfg.numReplicas → Said j (.rbcSlowProposal key accept) →
      Majority cfg Said key accept) (h : Decided cfg Said key accept) :
    ∃ S : Finset ℕ, 2 * cfg.f + 1 ≤ S.card ∧ Voters cfg Said key accept S := by
  rcases h with ⟨A, hcard, hA⟩ | hsaid
  · rw [FlutterConfig.superQuorumSize] at hcard
    exact ⟨A, by omega, hA⟩
  · exact (hvalue hsaid).exists_voters hF hproposal

/-- Replicas are counted below their number. -/
lemma Voters.subset {S : Finset ℕ} (h : Voters cfg Said key accept S) :
    S ⊆ Finset.range cfg.numReplicas :=
  fun j hj => Finset.mem_range.mpr (h j hj).1

/-! ### Candidates -/

namespace Candidate

lemma justified_placeholder (key : CandidateKey) :
    (placeholder key).Justified cfg Said key := by
  refine ⟨rfl, ⟨∅, ∅, Finset.disjoint_empty_left _, rfl, rfl, rfl, ?_, ?_⟩, ?_, nofun⟩
  · exact fun j hj => absurd hj (Finset.notMem_empty j)
  · exact fun j hj => absurd hj (Finset.notMem_empty j)
  · exact fun j accept hj => absurd hj (by simp [placeholder])

/-- What is recorded of the candidate stays the same, but for what nothing rests on. -/
lemma Justified.congr {c' : Candidate} (h : c.Justified cfg Said key) (hkey : c'.key = c.key)
    (hvoted : c'.votedReplicas = c.votedReplicas) (hacc : c'.acceptVotes = c.acceptVotes)
    (hrej : c'.rejectVotes = c.rejectVotes) (hproposals : c'.slowProposals = c.slowProposals)
    (hreceived : c'.slowValueReceived = c.slowValueReceived)
    (hvalue : c'.slowAccepted = c.slowAccepted) : c'.Justified cfg Said key := by
  refine ⟨hkey.trans h.keyed, ?_, ?_, ?_⟩
  · rw [hvoted, hacc, hrej]
    exact h.votes
  · rw [hproposals]
    exact h.proposals
  · rw [hreceived, hvalue]
    exact h.value

lemma Justified.recordVote {j : ℕ} (h : c.Justified cfg Said key) (hj : j ∉ c.votedReplicas)
    (hlt : j < cfg.numReplicas) (hsaid : Said j (.rbcProposal key accept)) :
    (c.recordVote j accept).Justified cfg Said key := by
  obtain ⟨A, R, hdisj, hvoted, hacc, hrej, hA, hR⟩ := h.votes
  refine ⟨h.keyed, ?_, h.proposals, h.value⟩
  rw [hvoted, Finset.mem_union, not_or] at hj
  have hinsert : ∀ {S : Finset ℕ}, Voters cfg Said key accept S →
      Voters cfg Said key accept (insert j S) := fun hS k hk =>
    (Finset.mem_insert.mp hk).elim (fun heq => heq ▸ ⟨hlt, hsaid⟩) (hS k)
  cases accept with
  | true =>
      refine ⟨insert j A, R, Finset.disjoint_insert_left.mpr ⟨hj.2, hdisj⟩, ?_, ?_, hrej, hinsert hA,
        hR⟩
      · rw [Finset.insert_union, ← hvoted]
        rfl
      · rw [Finset.card_insert_of_notMem hj.1, ← hacc]
        rfl
  | false =>
      refine ⟨A, insert j R, Finset.disjoint_insert_right.mpr ⟨hj.1, hdisj⟩, ?_, hacc, ?_, hA,
        hinsert hR⟩
      · rw [Finset.union_insert, ← hvoted]
        rfl
      · rw [Finset.card_insert_of_notMem hj.2, ← hrej]
        rfl

lemma Justified.decided_of_accepted (h : c.Justified cfg Said key) (hacc : c.Accepted cfg) :
    Decided cfg Said key true := by
  obtain ⟨A, R, -, -, hA, -, hvoters, -⟩ := h.votes
  rcases hacc with hmany | ⟨hreceived, hvalue⟩
  · exact .inl ⟨A, hA ▸ hmany, hvoters⟩
  · exact .inr (hvalue ▸ h.value hreceived)

lemma Justified.decided_of_rejected (h : c.Justified cfg Said key) (hrej : c.Rejected cfg) :
    Decided cfg Said key false := by
  obtain ⟨A, R, -, -, -, hR, -, hvoters⟩ := h.votes
  rcases hrej with hmany | ⟨hreceived, hvalue⟩
  · exact .inl ⟨R, hR ▸ hmany, hvoters⟩
  · exact .inr (hvalue ▸ h.value hreceived)

/-- The slow proposals for an outcome, as many as have been counted. -/
lemma exists_slowProposals {decision : Bool}
    (hdecision : c.slowDecision cfg = some decision) : ∃ D : Finset ℕ, cfg.f + 1 ≤ D.card ∧
      ∀ j ∈ D, c.slowProposals[j]? = some decision := by
  have hcount : cfg.f + 1 ≤ c.slowCount decision := by
    rw [slowDecision] at hdecision
    split_ifs at hdecision with haccept hreject
    · cases hdecision
      exact haccept
    · cases hdecision
      exact hreject
  let D := (c.slowProposals.toList.filter fun e => e.2 = decision).map (·.1)
  have hnodup : D.Nodup := (OrderedMap.nodup_map_fst_toList c.slowProposals).sublist
    (List.filter_sublist.map _)
  refine ⟨D.toFinset, ?_, fun j hj => ?_⟩
  · rw [List.toFinset_card_of_nodup hnodup, List.length_map]
    exact hcount
  · obtain ⟨⟨j, a⟩, hmem, rfl⟩ := List.mem_map.mp (List.mem_toFinset.mp hj)
    obtain ⟨hmem, ha⟩ := List.mem_filter.mp hmem
    rw [← of_decide_eq_true ha]
    exact ExtTreeMap.mem_toList_iff_getElem?_eq_some.mp hmem

end Candidate

/-! ### The steps -/

namespace FlutterReplica

/-- The candidate that is changed or created under a key. -/
lemma Justified.candidateAt (h : r.Justified cfg Said) (key : CandidateKey) :
    (r.candidateAt key).Justified cfg Said key := by
  rw [FlutterReplica.candidateAt, ExtTreeMap.getD_eq_getD_getElem?]
  cases hc : r.candidatePool[key]? with
  | none => exact Candidate.justified_placeholder key
  | some c => exact h.pool key c hc

lemma Justified.setCandidate (h : r.Justified cfg Said) (hc : c.Justified cfg Said key) :
    (r.setCandidate key c).Justified cfg Said := by
  refine ⟨fun key' c' hget => ?_, h.sent⟩
  rcases OrderedMap.getElem?_insert_cases hget with ⟨rfl, rfl⟩ | ⟨-, hold⟩
  · exact hc
  · exact h.pool key' c' hold

lemma Justified.send {dst : FlutterDest} {msg : FlutterMsg} (h : r.Justified cfg Said)
    (hmsg : msg.Justified cfg Said r.replicaId) : (r.send dst msg).Justified cfg Said := by
  refine ⟨h.pool, fun x hx => ?_⟩
  rcases List.mem_append.mp hx with hx | hx
  · exact h.sent x hx
  · rw [List.mem_singleton.mp hx]
    exact hmsg

lemma Justified.eraseCandidate (h : r.Justified cfg Said) (key : CandidateKey) :
    (r.eraseCandidate key).Justified cfg Said :=
  ⟨fun key' c hget => h.pool key' c (OrderedMap.getElem?_erase_cases hget).2, h.sent⟩

lemma Justified.addCandidate {request : FlutterClientRequest} (h : r.Justified cfg Said) :
    (r.addCandidate now request).Justified cfg Said := by
  refine ⟨fun key c hc => ?_, fun x hx => ?_⟩
  · rcases addCandidate_pool hc with ⟨rfl, c₀, hc₀, rfl⟩ | ⟨-, hc, -⟩
    · have hj : c₀.Justified cfg Said request.key := by
        rcases hc₀ with hc₀ | rfl
        · exact h.pool _ _ hc₀
        · exact Candidate.justified_placeholder _
      exact hj.congr rfl rfl rfl rfl rfl rfl rfl
    · exact h.pool key c hc
  · rw [addCandidate_eq] at hx ⊢
    rcases List.mem_append.mp hx with hx | hx
    · exact h.sent x hx
    · rcases List.mem_cons.mp hx with rfl | hx
      · trivial
      · rw [List.mem_singleton.mp hx]
        trivial

/-- **Every small step rests on what has been said.** -/
lemma Step.justified (he : e.Heard cfg Said) (h : r.Justified cfg Said)
    (hstep : Step cfg now e r r') : r'.Justified cfg Said := by
  cases hstep with
  | propose => exact h.addCandidate
  | @vote j key accept candidate heq _ _ hc hvoted =>
      subst heq
      exact h.setCandidate ((hc ▸ h.candidateAt key).recordVote hvoted he.1 he.2)
  | @slowPath key candidate hc hvotes =>
      have hj := h.pool key candidate hc
      obtain ⟨A, R, hdisj, -, hacc, hrej, hA, hR⟩ := hj.votes
      have hset : (r.setCandidate key { candidate with slowPathInitiated := true }).Justified
          cfg Said := h.setCandidate (hj.congr rfl rfl rfl rfl rfl rfl rfl)
      refine hset.send ?_
      rw [hacc, hrej] at hvotes ⊢
      exact ⟨A, R, hdisj, hA, hR, hvotes, rfl⟩
  | @reject key candidate hc hrejected =>
      have hj := h.pool key candidate hc
      have hsend : (r.send (.client key.2.1)
          (.reply (r.replyTo key.2.1 candidate false ""))).Justified cfg Said := by
        have hkey : (r.replyTo key.2.1 candidate false "").key = key := by
          rw [← hj.keyed]
          rfl
        refine h.send ?_
        show Decided cfg Said (r.replyTo key.2.1 candidate false "").key false
        rw [hkey]
        exact hj.decided_of_rejected hrejected
      have herase := hsend.eraseCandidate key
      exact ⟨herase.pool, herase.sent⟩
  | @slowProposal j key accept candidate heq _ _ _ hc =>
      subst heq
      have hj : candidate.Justified cfg Said key := hc ▸ h.candidateAt key
      refine h.setCandidate ⟨hj.keyed, hj.votes, fun k a hk => ?_, hj.value⟩
      rcases OrderedMap.getElem?_insert_cases hk with ⟨rfl, rfl⟩ | ⟨-, hold⟩
      · exact he
      · exact hj.proposals k a hold
  | @slowDecide key candidate decision hleader _ _ hc _ hdecision =>
      have hj := h.pool key candidate hc
      obtain ⟨D, hcard, hD⟩ := Candidate.exists_slowProposals hdecision
      have hset : (r.setCandidate key { candidate with slowValueSent := true }).Justified
          cfg Said := h.setCandidate (hj.congr rfl rfl rfl rfl rfl rfl rfl)
      have hquorum : SlowQuorum cfg Said key decision :=
        ⟨D, hcard, fun j hjD => hj.proposals j decision (hD j hjD)⟩
      exact hset.send ⟨hleader, hquorum⟩
  | @slowValue key accept candidate heq hc =>
      subst heq
      have hj := h.pool key candidate hc
      exact h.setCandidate ⟨hj.keyed, hj.votes, hj.proposals, fun _ => he.2⟩
  | @commit key candidate _ hfirst _ _ haccepted =>
      have hc : r.candidatePool[key]? = some candidate :=
        ExtTreeMap.mem_toList_iff_getElem?_eq_some.mp (List.mem_of_mem_head? hfirst)
      have hj := h.pool key candidate hc
      have hsend : (r.send (.client candidate.clientId) (.reply (r.replyTo candidate.clientId
          candidate true "Request executed successfully"))).Justified cfg Said := by
        have hdecided := hj.decided_of_accepted haccepted
        rw [← hj.keyed] at hdecided
        exact h.send hdecided
      have herase := hsend.eraseCandidate key
      exact ⟨herase.pool, herase.sent⟩
  | setClock => exact ⟨h.pool, h.sent⟩
  | sendClock =>
      have hsend : (r.send .replicas (.time now)).Justified cfg Said := h.send trivial
      exact ⟨hsend.pool, hsend.sent⟩

lemma Steps.justified (he : e.Heard cfg Said) (h : r.Justified cfg Said)
    (hsteps : Steps cfg now e r r') : r'.Justified cfg Said := by
  induction hsteps with
  | refl => exact h
  | tail _ hstep ih => exact hstep.justified he ih

lemma justified_fresh (i t₀ t₁ : ℕ) : (fresh i t₀ t₁).Justified cfg Said := by
  refine ⟨fun key c hc => ?_, fun x hx => absurd hx List.not_mem_nil⟩
  cases ExtTreeMap.getElem?_empty.symm.trans hc

end FlutterReplica

end

end DomBft
