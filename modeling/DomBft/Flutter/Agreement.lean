import DomBft.Flutter.Cluster
import DomBft.Flutter.Evidence

/-!
Agreement on the outcome of a bet, with Byzantine replicas beside the leader.

* `Trusted`: what is known of the messages of correct replicas. They vote once about a candidate,
  and the leader decides once.
* `Voters.agree`, `Decided.agree`: votes for two outcomes overlap in a correct replica, so that
  **only one outcome is decided**.
* `MarksStale`: when the leader's decision is to reject a candidate, raising the current bet by
  one makes the messages about the candidate stale.
* `Settled`: why the leader decides nothing more about a candidate.
* `Careful`: the invariant of a correct replica; `Step.careful` is the step lemma.
-/

namespace DomBft

open Std (ExtTreeMap)
open Fallible Transition

/-! ### Votes and decisions -/

section

variable (cfg : FlutterConfig) (F : Finset ℕ) (Said : ℕ → FlutterMsg → Prop)

/-- What is known of the messages of correct replicas, the leader among them. -/
structure Trusted : Prop where
  rejects : ∀ j key, j < cfg.numReplicas → j ∉ F → Said j (.rbcProposal key false) →
    key.1 < 2 ^ 64 - 1
  once : ∀ j key accept accept', j < cfg.numReplicas → j ∉ F → Said j (.rbcProposal key accept) →
    Said j (.rbcProposal key accept') → accept = accept'
  proposals : ∀ j key accept, j < cfg.numReplicas → j ∉ F →
    Said j (.rbcSlowProposal key accept) → Majority cfg Said key accept
  values : ∀ key accept, Said leaderId (.rbcSlowValue key accept) →
    SlowQuorum cfg Said key accept
  decides : ∀ key accept accept', Said leaderId (.rbcSlowValue key accept) →
    Said leaderId (.rbcSlowValue key accept') → accept = accept'

end

variable {cfg : FlutterConfig} {F : Finset ℕ} {Said Said' : ℕ → FlutterMsg → Prop}
  {key key' : CandidateKey} {accept accept' : Bool} {c : Candidate} {r r' : FlutterReplica}
  {e : FlutterInput} {now : ℕ}

/-- **Enough votes for two outcomes** have a correct voter in common, so that they are one. -/
lemma Voters.agree (hw : Trusted cfg F Said) {A B : Finset ℕ}
    (hA : Voters cfg Said key accept A) (hB : Voters cfg Said key accept' B)
    (hcard : cfg.numReplicas + F.card < A.card + B.card) : accept = accept' := by
  obtain ⟨j, hjA, hjB, hjF⟩ := Quorum.exists_common (F := F) hA.subset hB.subset
    (by rwa [Finset.card_range])
  obtain ⟨hjn, hsaid⟩ := hA j hjA
  exact hw.once j key accept accept' hjn hjF hsaid (hB j hjB).2

/-- A super quorum of votes leaves no slow quorum for the other outcome. -/
lemma Voters.agree_slowQuorum (hn : cfg.numReplicas = 5 * cfg.f + 1) (hF : F.card ≤ cfg.f)
    (hw : Trusted cfg F Said) {A : Finset ℕ} (hA : Voters cfg Said key accept A)
    (hcard : cfg.superQuorumSize ≤ A.card) (hslow : SlowQuorum cfg Said key accept') :
    accept = accept' := by
  obtain ⟨S, hS, hvoters⟩ := hslow.exists_voters hF fun j hjF hjn => hw.proposals j key accept' hjn hjF
  rw [FlutterConfig.superQuorumSize] at hcard
  exact hA.agree hw hvoters (by omega)

/-- **Only one outcome is decided.** -/
lemma Decided.agree (hn : cfg.numReplicas = 5 * cfg.f + 1) (hF : F.card ≤ cfg.f)
    (hw : Trusted cfg F Said) (h : Decided cfg Said key accept)
    (h' : Decided cfg Said key accept') : accept = accept' := by
  rcases h with ⟨A, hA, hvoters⟩ | hvalue
  · rcases h' with ⟨B, hB, hvoters'⟩ | hvalue'
    · rw [FlutterConfig.superQuorumSize] at hA hB
      exact hvoters.agree hw hvoters' (by omega)
    · exact hvoters.agree_slowQuorum hn hF hw hA (hw.values key accept' hvalue')
  · rcases h' with ⟨B, hB, hvoters'⟩ | hvalue'
    · exact (hvoters'.agree_slowQuorum hn hF hw hB (hw.values key accept hvalue)).symm
    · exact hw.decides key accept accept' hvalue hvalue'

namespace FlutterReplica

/-! ### The invariant of a replica -/

section

variable (cfg : FlutterConfig) (Said : ℕ → FlutterMsg → Prop)

/-- Why the leader decides nothing else about the candidate: it says in the pool that it has
decided, or messages about it are ignored, or the votes leave no other outcome. -/
def Settled (r : FlutterReplica) (key : CandidateKey) (accept : Bool) : Prop :=
  (∃ c, r.candidatePool[key]? = some c ∧ c.slowValueSent = true) ∨ r.Seen (key.1 + 1, key.2) ∨
    ∃ A : Finset ℕ, cfg.superQuorumSize ≤ A.card ∧ Voters cfg Said key accept A

/-- **The invariant of a correct replica.** -/
structure Careful (r : FlutterReplica) : Prop where
  justified : r.Justified cfg Said
  voted : ∀ d key accept, (d, .rbcProposal key accept) ∈ r.sent →
    r.Seen key ∧ (accept = false → key.1 < 2 ^ 64 - 1)
  once : ∀ d d' key accept accept', (d, .rbcProposal key accept) ∈ r.sent →
    (d', .rbcProposal key accept') ∈ r.sent → accept = accept'
  settled : ∀ d key accept, (d, .rbcSlowValue key accept) ∈ r.sent → r.Settled cfg Said key accept
  decides : ∀ d d' key accept accept', (d, .rbcSlowValue key accept) ∈ r.sent →
    (d', .rbcSlowValue key accept') ∈ r.sent → accept = accept'

end

/-- The leader's decision to reject a candidate of the pool makes the messages about it stale at
the leader, and nowhere does the current bet start again at zero. -/
def MarksStale (r : FlutterReplica) (e : FlutterInput) : Prop :=
  ∀ key c, e = .message leaderId (.rbcSlowValue key false) → r.candidatePool[key]? = some c →
    r.clientCurrentBets.getD key.2 0 < 2 ^ 64 - 1 ∧
      (r.replicaId = leaderId → key.1 ≤ r.clientCurrentBets.getD key.2 0)

instance decidableMarksStale (r : FlutterReplica) : DecidablePred r.MarksStale
  | .message j (.rbcSlowValue key accept) =>
    decidable_of_iff (j = leaderId → accept = false → r.candidatePool[key]?.isSome = true →
      r.clientCurrentBets.getD key.2 0 < 2 ^ 64 - 1 ∧
        (r.replicaId = leaderId → key.1 ≤ r.clientCurrentBets.getD key.2 0)) <| by
      refine ⟨?_, ?_⟩
      · rintro h k c ⟨⟩ hc
        exact h rfl rfl (hc ▸ rfl)
      · rintro h rfl rfl hsome
        obtain ⟨c, hc⟩ := Option.isSome_iff_exists.mp hsome
        exact h key c rfl hc
  | .request _ | .clock | .message _ (.time _) | .message _ (.observe _)
  | .message _ (.rbcProposal _ _) | .message _ (.rbcSlowProposal _ _) | .message _ (.reply _) =>
    isTrue nofun

/-! ### Current bets -/

/-- What is neither committed nor stale has no higher bet. -/
lemma not_seen_of_not_stale (hcommitted : r.isCommitted key.2 = false)
    (hstale : r.isStale key = false) : ¬r.Seen (key.1 + 1, key.2) := by
  rintro (h | ⟨bet, hget, hle⟩)
  · rw [hcommitted] at h
    cases h
  · rw [isStale, hget] at hstale
    have hnot : ¬key.1 < bet := of_decide_eq_false hstale
    exact hnot hle

lemma bet_le_of_not_stale (h : r.isStale key = false) :
    r.clientCurrentBets.getD key.2 0 ≤ key.1 := by
  rw [ExtTreeMap.getD_eq_getD_getElem?]
  rw [isStale] at h
  cases hget : r.clientCurrentBets[key.2]? with
  | none => exact Nat.zero_le _
  | some bet =>
      rw [hget] at h
      exact not_lt.mp (of_decide_eq_false h)

/-- The current bet does not start again at zero. -/
lemma Careful.bet_lt_of_rejects (hn : cfg.numReplicas = 5 * cfg.f + 1) (hF : F.card ≤ cfg.f)
    (hw : Trusted cfg F Said) (h : r.Careful cfg Said) (hmarks : r.MarksStale e)
    (hc : r.candidatePool[key]? = some c) (hupon : RejectsUpon cfg e r key c) :
    r.clientCurrentBets.getD key.2 0 < 2 ^ 64 - 1 := by
  rcases hupon with ⟨-, hmany, hstale⟩ | he
  · obtain ⟨A, R, -, -, -, hR, -, hvoters⟩ := (h.justified.pool key c hc).votes
    rw [hR, FlutterConfig.superQuorumSize] at hmany
    obtain ⟨j, hj, hjF⟩ := Quorum.exists_correct (F := F) (A := R) (by omega)
    exact (bet_le_of_not_stale hstale).trans_lt
      (hw.rejects j key (hvoters j hj).1 hjF (hvoters j hj).2)
  · exact (hmarks key c he hc).1

/-- What has been seen stays seen. -/
lemma Careful.seen (hn : cfg.numReplicas = 5 * cfg.f + 1) (hF : F.card ≤ cfg.f)
    (hw : Trusted cfg F Said) (h : r.Careful cfg Said) (hmarks : r.MarksStale e)
    (hstep : Step cfg now e r r') (hseen : r.Seen key) : r'.Seen key := by
  cases hstep with
  | propose _ _ hbet => exact hseen.addCandidate hbet
  | reject hc _ hupon => exact hseen.reject (h.bet_lt_of_rejects hn hF hw hmarks hc hupon)
  | commit _ hfirst =>
      exact hseen.commit (h.justified.pool _ _
        (ExtTreeMap.mem_toList_iff_getElem?_eq_some.mp (List.mem_of_mem_head? hfirst))).keyed
  | _ => exact hseen

/-! ### The steps -/

/-- What the leader has decided goes on to mark as stale. -/
lemma Step.marksStale (hmarks : r.MarksStale e) (hstep : Step cfg now e r r') :
    r'.MarksStale e := by
  intro key c he hc
  cases hstep with
  | propose heither => rcases heither with rfl | ⟨j, rfl⟩ <;> cases he
  | vote he' | slowProposal he' | setClock he' | sendClock he' => cases he.symm.trans he'
  | commit hnot => exact absurd he (hnot key)
  | @slowPath k candidate hget | @slowDecide k candidate _ _ _ _ hget
  | @slowValue k _ candidate _ hget =>
      rcases OrderedMap.getElem?_insert_cases hc with ⟨rfl, -⟩ | ⟨-, hold⟩
      · exact hmarks key candidate he hget
      · exact hmarks key c he hold
  | @reject k candidate _ _ hupon =>
      have hne := (OrderedMap.getElem?_erase_cases hc).1
      rcases hupon with ⟨⟨j, accept, he'⟩, -⟩ | he'
      · cases he.symm.trans he'
      · cases he.symm.trans he'
        exact absurd rfl hne

/-- A new candidate leaves those in the pool that do not have the current bet of its client. -/
lemma addCandidate_keeps {request : FlutterClientRequest} (hc : r.candidatePool[key]? = some c)
    (hne : r.clientCurrentBets[request.key.2]? = some key.1 → key.2 ≠ request.key.2) :
    ∃ c', (r.addCandidate now request).candidatePool[key]? = some c' ∧
      c'.slowValueSent = c.slowValueSent := by
  obtain ⟨pool, hpool, hget⟩ : ∃ pool : ExtTreeMap CandidateKey Candidate candidateCmp,
      (r.addCandidate now request).candidatePool = pool.insert request.key
        { pool.getD request.key (.placeholder request.key) with request := some request } ∧
      pool[key]? = some c := by
    rw [addCandidate]
    cases hbet : r.clientCurrentBets[request.key.2]? with
    | none => exact ⟨r.candidatePool, rfl, hc⟩
    | some bet =>
        refine ⟨r.candidatePool.erase (bet, request.key.2), rfl, ?_⟩
        rw [← hc]
        refine OrderedMap.getElem?_erase_of_ne fun hkey => ?_
        exact hne (by rw [hbet, hkey]) (by rw [hkey])
  rw [hpool]
  by_cases hkey : request.key = key
  · rw [hkey, ExtTreeMap.getElem?_insert_self, ExtTreeMap.getD_eq_getD_getElem?, hget]
    exact ⟨_, rfl, rfl⟩
  · refine ⟨c, ?_, rfl⟩
    rw [← hget]
    exact ExtTreeMap.getElem?_insert.trans
      (if_neg fun heq => hkey (Std.LawfulEqCmp.compare_eq_iff_eq.mp heq))

/-- A candidate of the pool is changed, but for what says that the leader has decided. -/
lemma setCandidate_keeps {k : CandidateKey} {candidate : Candidate}
    (hc : r.candidatePool[key]? = some c) (hsent : c.slowValueSent = true)
    (hk : (r.candidateAt k).slowValueSent = true → candidate.slowValueSent = true) :
    ∃ c', (r.setCandidate k candidate).candidatePool[key]? = some c' ∧
      c'.slowValueSent = true := by
  by_cases hkey : k = key
  · subst hkey
    refine ⟨candidate, setCandidate_getElem? r k candidate, hk ?_⟩
    rw [candidateAt, ExtTreeMap.getD_eq_getD_getElem?, hc]
    exact hsent
  · refine ⟨c, ?_, hsent⟩
    rw [← hc]
    exact ExtTreeMap.getElem?_insert.trans
      (if_neg fun heq => hkey (Std.LawfulEqCmp.compare_eq_iff_eq.mp heq))

/-- What the leader has decided to be rejected is stale when it has been rejected. -/
lemma seen_reject (hlt : r.clientCurrentBets.getD key.2 0 < 2 ^ 64 - 1)
    (hle : key.1 ≤ r.clientCurrentBets.getD key.2 0) :
    (r.reject key c).Seen (key.1 + 1, key.2) := by
  refine .inr ⟨(r.clientCurrentBets.getD key.2 0 + 1) % 2 ^ 64, ExtTreeMap.getElem?_insert_self, ?_⟩
  show key.1 + 1 ≤ _
  rw [Nat.mod_eq_of_lt (by omega)]
  omega

/-- A decision that is noted in the pool is settled after every step: where the candidate goes, the
messages about it are stale, or the votes have rejected it. -/
lemma Step.settled_of_sent (hn : cfg.numReplicas = 5 * cfg.f + 1) (hF : F.card ≤ cfg.f)
    (hw : Trusted cfg F Said) (h : r.Careful cfg Said) (hmarks : r.MarksStale e)
    (hstep : Step cfg now e r r') (hleader : r.replicaId = leaderId)
    (hslow : SlowQuorum cfg Said key accept) (hc : r.candidatePool[key]? = some c)
    (hsent : c.slowValueSent = true) : r'.Settled cfg Said key accept := by
  cases hstep with
  | @propose request _ _ hbet =>
      by_cases hcurrent : r.clientCurrentBets[request.key.2]? = some key.1 ∧ key.2 = request.key.2
      · refine .inr (.inl (.inr ⟨request.bet, ?_, hbet key.1 hcurrent.1⟩))
        rw [addCandidate_eq, hcurrent.2]
        exact ExtTreeMap.getElem?_insert_self
      · obtain ⟨c', hc', hsent'⟩ := addCandidate_keeps hc fun hbet heq => hcurrent ⟨hbet, heq⟩
        exact .inl ⟨c', hc', hsent'.trans hsent⟩
  | @vote j k a candidate _ _ _ hat | @slowProposal j k a candidate _ _ _ _ hat =>
      exact .inl (setCandidate_keeps hc hsent fun hk => hat ▸ hk)
  | @slowPath k candidate hget | @slowValue k a candidate _ hget =>
      refine .inl (setCandidate_keeps hc hsent fun hk => ?_)
      rw [candidateAt, ExtTreeMap.getD_eq_getD_getElem?, hget] at hk
      exact hk
  | slowDecide => exact .inl (setCandidate_keeps hc hsent fun _ => rfl)
  | @reject k candidate hget hrejected hupon =>
      by_cases hkey : k = key
      · subst hkey
        rcases hupon with ⟨-, hmany, -⟩ | he
        · obtain ⟨A, R, -, -, -, hR, -, hvoters⟩ := (h.justified.pool k candidate hget).votes
          obtain rfl := hvoters.agree_slowQuorum hn hF hw (hR ▸ hmany) hslow
          exact .inr (.inr ⟨R, hR ▸ hmany, hvoters⟩)
        · obtain ⟨hlt, hle⟩ := hmarks k candidate he hget
          exact .inr (.inl (seen_reject hlt (hle hleader)))
      · refine .inl ⟨c, ?_, hsent⟩
        rw [← hc]
        exact OrderedMap.getElem?_erase_of_ne (Ne.symm hkey)
  | @commit k candidate _ hfirst =>
      by_cases hkey : k = key
      · subst hkey
        have hkeyed := (h.justified.pool k candidate (ExtTreeMap.mem_toList_iff_getElem?_eq_some.mp
          (List.mem_of_mem_head? hfirst))).keyed
        exact .inr (.inl (.inl (isCommitted_commit.mpr (.inr (congrArg Prod.snd hkeyed.symm)))))
      · refine .inl ⟨c, ?_, hsent⟩
        rw [← hc]
        exact OrderedMap.getElem?_erase_of_ne (Ne.symm hkey)
  | setClock | sendClock => exact .inl ⟨c, hc, hsent⟩

/-- **What is settled stays settled.** -/
lemma Step.settled (hn : cfg.numReplicas = 5 * cfg.f + 1) (hF : F.card ≤ cfg.f)
    (hw : Trusted cfg F Said) (h : r.Careful cfg Said) (hmarks : r.MarksStale e)
    (hstep : Step cfg now e r r') (hleader : r.replicaId = leaderId)
    (hslow : SlowQuorum cfg Said key accept) (hsettled : r.Settled cfg Said key accept) :
    r'.Settled cfg Said key accept := by
  rcases hsettled with ⟨c, hc, hsent⟩ | hseen | hfast
  · exact hstep.settled_of_sent hn hF hw h hmarks hleader hslow hc hsent
  · exact .inr (.inl (h.seen hn hF hw hmarks hstep hseen))
  · exact .inr (.inr hfast)

/-- What the leader decides in a step is settled then, and nothing was before. -/
lemma Step.values (hstep : Step cfg now e r r') {d : FlutterDest}
    (hx : (d, .rbcSlowValue key accept) ∈ r'.sent) :
    (d, .rbcSlowValue key accept) ∈ r.sent ∨
      ¬r.Seen (key.1 + 1, key.2) ∧
        ∃ c, r.candidatePool[key]? = some c ∧ c.slowValueSent = false ∧
          c.slowDecision cfg = some accept ∧
          ∃ c', r'.candidatePool[key]? = some c' ∧ c'.slowValueSent = true := by
  cases hstep with
  | propose =>
      rw [addCandidate_eq] at hx
      exact .inl ((List.mem_append.mp hx).resolve_right (by simp))
  | @slowDecide k candidate decision _ hcommitted hstale hget hnot hdecision =>
      refine (mem_send hx).imp_right fun heq => ?_
      cases heq
      exact ⟨not_seen_of_not_stale hcommitted hstale, candidate, hget, hnot, hdecision, _,
        setCandidate_getElem? r key _, rfl⟩
  | vote | slowProposal | slowValue | setClock => exact .inl hx
  | slowPath | reject | commit | sendClock => exact .inl ((mem_send hx).resolve_right (by simp))

/-- The leader does not decide what it has decided the other way. -/
lemma Careful.decides_again (hn : cfg.numReplicas = 5 * cfg.f + 1) (hF : F.card ≤ cfg.f)
    (hw : Trusted cfg F Said) (h : r.Careful cfg Said) {d : FlutterDest}
    (hold : (d, .rbcSlowValue key accept) ∈ r.sent) (hnot : ¬r.Seen (key.1 + 1, key.2))
    (hc : r.candidatePool[key]? = some c) (hsent : c.slowValueSent = false)
    (hdecision : c.slowDecision cfg = some accept') : accept = accept' := by
  rcases h.settled d key accept hold with ⟨c', hc', hsent'⟩ | hseen | ⟨A, hA, hvoters⟩
  · rw [hc] at hc'
    rw [Option.some.inj hc', hsent'] at hsent
    cases hsent
  · exact absurd hseen hnot
  · obtain ⟨D, hD, hproposals⟩ := Candidate.exists_slowProposals hdecision
    have hslow : SlowQuorum cfg Said key accept' :=
      ⟨D, hD, fun j hj => (h.justified.pool key c hc).proposals j accept' (hproposals j hj)⟩
    exact hvoters.agree_slowQuorum hn hF hw hA hslow

/-- **Every small step keeps the invariant of a correct replica.** -/
lemma Step.careful (hn : cfg.numReplicas = 5 * cfg.f + 1) (hF : F.card ≤ cfg.f)
    (hw : Trusted cfg F Said) (he : e.Heard cfg Said) (hnow : now < 2 ^ 64)
    (h : r.Careful cfg Said) (hmarks : r.MarksStale e) (hstep : Step cfg now e r r') :
    r'.Careful cfg Said where
  justified := hstep.justified he h.justified
  voted d key accept hx := by
    rcases hstep.votes hx with hold | ⟨-, hseen, haccept⟩
    · exact (h.voted d key accept hold).imp_left (h.seen hn hF hw hmarks hstep)
    · refine ⟨hseen, fun hfalse => ?_⟩
      have hlt : key.1 < now := not_le.mp (of_decide_eq_false (haccept.symm.trans hfalse))
      omega
  once d d' key accept accept' hx hx' := by
    rcases hstep.votes hx with hold | ⟨hnot, -, haccept⟩
    · rcases hstep.votes hx' with hold' | ⟨hnot, -⟩
      · exact h.once d d' key accept accept' hold hold'
      · exact absurd (h.voted d key accept hold).1 hnot
    · rcases hstep.votes hx' with hold' | ⟨-, -, haccept'⟩
      · exact absurd (h.voted d' key accept' hold').1 hnot
      · exact haccept.trans haccept'.symm
  settled d key accept hx := by
    rcases hstep.values hx with hold | ⟨-, -, -, -, -, hsent⟩
    · obtain ⟨hleader, hslow⟩ := h.justified.sent _ hold
      exact hstep.settled hn hF hw h hmarks hleader hslow (h.settled d key accept hold)
    · exact .inl hsent
  decides d d' key accept accept' hx hx' := by
    rcases hstep.values hx with hold | ⟨hnot, c, hc, hsent, hdecision, -⟩
    · rcases hstep.values hx' with hold' | ⟨hnot, c, hc, hsent, hdecision, -⟩
      · exact h.decides d d' key accept accept' hold hold'
      · exact h.decides_again hn hF hw hold hnot hc hsent hdecision
    · rcases hstep.values hx' with hold' | ⟨-, c', hc', -, hdecision', -⟩
      · exact (h.decides_again hn hF hw hold' hnot hc hsent hdecision).symm
      · obtain rfl := Option.some.inj (hc.symm.trans hc')
        exact Option.some.inj (hdecision.symm.trans hdecision')

/-- **An event keeps the invariant of a correct replica.** -/
lemma Steps.careful (hn : cfg.numReplicas = 5 * cfg.f + 1) (hF : F.card ≤ cfg.f)
    (hw : Trusted cfg F Said) (he : e.Heard cfg Said) (hnow : now < 2 ^ 64)
    (h : r.Careful cfg Said) (hmarks : r.MarksStale e) (hsteps : Steps cfg now e r r') :
    r'.Careful cfg Said ∧ r'.MarksStale e := by
  induction hsteps with
  | refl => exact ⟨h, hmarks⟩
  | tail _ hstep ih =>
      exact ⟨hstep.careful hn hF hw he hnow ih.1 ih.2, hstep.marksStale ih.2⟩

/-- More that others say leaves the invariant as it is. -/
lemma Careful.mono (hsaid : ∀ j m, Said j m → Said' j m) (h : r.Careful cfg Said) :
    r.Careful cfg Said' where
  justified := h.justified.mono hsaid
  voted := h.voted
  once := h.once
  settled d key accept hx := (h.settled d key accept hx).imp_right <| Or.imp_right
    fun ⟨A, hA, hvoters⟩ => ⟨A, hA, hvoters.mono hsaid⟩
  decides := h.decides

lemma careful_fresh (i t₀ t₁ : ℕ) : (fresh i t₀ t₁).Careful cfg Said where
  justified := justified_fresh i t₀ t₁
  voted _ _ _ hx := absurd hx List.not_mem_nil
  once _ _ _ _ _ hx := absurd hx List.not_mem_nil
  settled _ _ _ hx := absurd hx List.not_mem_nil
  decides _ _ _ _ _ hx := absurd hx List.not_mem_nil

/-- What a replica has told clients about bets, oldest first: that they have been committed, or
that they have been rejected. -/
def decisions (r : FlutterReplica) : List (CandidateKey × Bool) :=
  r.sent.filterMap fun x => match x.2 with
    | .reply m => some (m.key, m.accepted)
    | _ => none

lemma Careful.decided (h : r.Careful cfg Said) (hmem : (key, accept) ∈ r.decisions) :
    Decided cfg Said key accept := by
  obtain ⟨⟨d, msg⟩, hsent, hmsg⟩ := List.mem_filterMap.mp hmem
  have hjustified := h.justified.sent _ hsent
  cases msg with
  | reply m =>
      cases hmsg
      exact hjustified
  | _ => cases hmsg

end FlutterReplica

/-! ### The cluster -/

namespace FlutterCluster

variable {c c' : FlutterCluster} {clock : ℕ → ℕ × ℕ} {a : FlutterAction}

/-- The replica has sent the message, or is faulty. -/
def MaySay (F : Finset ℕ) (c : FlutterCluster) (j : ℕ) (m : FlutterMsg) : Prop :=
  j ∈ F ∨ c.Said j m

/-- The event that the action brings makes what the leader rejects stale. -/
def RejectsStale (_ : List FlutterAction) (c : FlutterCluster) (a : FlutterAction) : Prop :=
  ∀ e, c.input a.replica a.source = some e → (c.replicas a.replica).MarksStale e

instance decidableRejectsStale (as : List FlutterAction) (c : FlutterCluster) :
    DecidablePred (RejectsStale as c) := fun a =>
  inferInstanceAs (Decidable (∀ e ∈ c.input a.replica a.source, (c.replicas a.replica).MarksStale e))

/-- **The invariant of the cluster.** -/
structure Agreeing (cfg : FlutterConfig) (F : Finset ℕ) (c : FlutterCluster) : Prop where
  ids : ∀ i, (c.replicas i).replicaId = i
  careful : ∀ i < cfg.numReplicas, i ∉ F → (c.replicas i).Careful cfg (c.MaySay F)

lemma Agreeing.trusted (h : Agreeing cfg F c) (hn : cfg.numReplicas = 5 * cfg.f + 1)
    (hleader : leaderId ∉ F) : Trusted cfg F (c.MaySay F) where
  rejects j key hj hjF hsaid := by
    obtain ⟨d, hd⟩ := hsaid.resolve_left hjF
    exact ((h.careful j hj hjF).voted d key false hd).2 rfl
  once j key accept accept' hj hjF hsaid hsaid' := by
    obtain ⟨d, hd⟩ := hsaid.resolve_left hjF
    obtain ⟨d', hd'⟩ := hsaid'.resolve_left hjF
    exact (h.careful j hj hjF).once d d' key accept accept' hd hd'
  proposals j key accept hj hjF hsaid := by
    obtain ⟨d, hd⟩ := hsaid.resolve_left hjF
    exact (h.careful j hj hjF).justified.sent _ hd
  values key accept hsaid := by
    obtain ⟨d, hd⟩ := hsaid.resolve_left hleader
    exact ((h.careful leaderId (by rw [hn, leaderId]; omega) hleader).justified.sent _ hd).2
  decides key accept accept' hsaid hsaid' := by
    obtain ⟨d, hd⟩ := hsaid.resolve_left hleader
    obtain ⟨d', hd'⟩ := hsaid'.resolve_left hleader
    exact (h.careful leaderId (by rw [hn, leaderId]; omega) hleader).decides d d' key accept accept'
      hd hd'

/-- A message comes from a replica that has sent it, or is faulty. -/
lemma heard_of_input (hallowed : a.Allowed cfg F) {e : FlutterInput}
    (hinput : c.input a.replica a.source = some e) : e.Heard cfg (c.MaySay F) := by
  obtain ⟨-, -, -, hsource⟩ := hallowed
  cases hs : a.source with
  | client request | timer =>
      rw [hs] at hinput
      cases hinput
      trivial
  | link src =>
      rw [hs] at hinput hsource
      obtain ⟨msg, hget, rfl⟩ := input_link hinput
      obtain ⟨x, hx, hlink⟩ := List.mem_filterMap.mp (List.mem_of_getElem? hget)
      rw [onLink] at hlink
      split_ifs at hlink
      cases hlink
      exact ⟨hsource.1, .inr ⟨x.1, hx⟩⟩
  | faulty src msg =>
      rw [hs] at hinput hsource
      cases hinput
      exact ⟨hsource.1, .inl hsource.2.1⟩

/-- **Every action keeps the invariant of the cluster.** -/
lemma Agreeing.next (hn : cfg.numReplicas = 5 * cfg.f + 1) (hF : F.card ≤ cfg.f)
    (hleader : leaderId ∉ F) (h : Agreeing cfg F c) (hstale : RejectsStale [] c a)
    (hallowed : a.Allowed cfg F) (hnext : c.next cfg a = .ok c') : Agreeing cfg F c' := by
  rcases next_cases hnext with rfl | ⟨e, r, hinput, hhandle, heq⟩
  · exact h
  have hsteps := FlutterReplica.handle_steps hhandle
  have hold := h.careful a.replica hallowed.1 hallowed.2.1
  have hnew := (hsteps.careful hn hF (h.trusted hn hleader) (heard_of_input hallowed hinput)
    hallowed.2.2.1 hold (hstale e hinput)).1
  have hreplica : c'.replicas a.replica = r := by rw [heq]; exact Function.update_self ..
  have hother : ∀ j, j ≠ a.replica → c'.replicas j = c.replicas j := fun j hj => by
    rw [heq]
    exact Function.update_of_ne hj ..
  have hsaid : ∀ j m, c.MaySay F j m → c'.MaySay F j m := by
    intro j m hm
    refine hm.imp_right fun ⟨d, hd⟩ => ⟨d, ?_⟩
    by_cases hj : j = a.replica
    · rw [hj] at hd
      rw [hj, hreplica]
      exact hsteps.grows.2.subset hd
    · rwa [hother j hj]
  refine ⟨fun i => ?_, fun i hi hiF => ?_⟩
  · by_cases hia : i = a.replica
    · rw [hia, hreplica, hsteps.grows.1, h.ids]
    · rw [hother i hia, h.ids]
  · by_cases hia : i = a.replica
    · rw [hia, hreplica]
      exact hnew.mono hsaid
    · rw [hother i hia]
      exact (h.careful i hi hiF).mono hsaid

/-- **The outcome of a bet is one**: no correct replica commits a bet that a correct replica
rejects, as long as the leader's rejections make the messages about a bet stale. -/
theorem decisions_agree (hn : cfg.numReplicas = 5 * cfg.f + 1) (hF : F.card ≤ cfg.f)
    (hleader : leaderId ∉ F) {as : List FlutterAction}
    (hrun : Run (flutterSystem cfg F clock) RejectsStale as c) {i j : ℕ}
    (hi : i < cfg.numReplicas) (hiF : i ∉ F) (hj : j < cfg.numReplicas) (hjF : j ∉ F)
    (hdecided : (key, accept) ∈ (c.replicas i).decisions)
    (hdecided' : (key, accept') ∈ (c.replicas j).decisions) : accept = accept' := by
  have h : Agreeing cfg F c := by
    refine hrun.invariant (P := fun _ c => Agreeing cfg F c) ?_ ?_
    · rintro _ rfl
      exact ⟨fun _ => rfl, fun _ _ _ => FlutterReplica.careful_fresh _ _ _⟩
    · intro as c a c' _ h hstale hstep
      exact h.next hn hF hleader hstale hstep.1 hstep.2
  exact ((h.careful i hi hiF).decided hdecided).agree hn hF (h.trusted hn hleader)
    ((h.careful j hj hjF).decided hdecided')

/-! ### A bet that is rejected -/

/-- The client bets on a time for its first request. -/
def betOn (bet : ℕ) : FlutterClientRequest :=
  { clientId := 0, clientSeq := 1, bet }

/-- Five replicas vote on bet 10, the later ones against it. Two of them see that most votes are
against it, and tell the leader so, upon which it decides. -/
def lateBet : List FlutterAction :=
  [0, 1].map (fun i => { replica := i, now := 10, source := .client (betOn 10) }) ++
  [2, 3, 4].map (fun i => { replica := i, now := 11, source := .client (betOn 10) }) ++
  [1, 2].flatMap (fun i => [0, 1, 2, 3, 4].flatMap fun j => reads i 11 j 2) ++
  reads 0 11 1 3 ++ reads 0 11 2 3 ++ reads 0 11 0 3 ++ reads 1 11 0 1

/-- The leader and another replica reject the bet. -/
theorem late_bet_rejected : ∃ c,
    Run (flutterSystem .sixReplicas {5} fun _ => (0, 0)) RejectsStale lateBet c ∧
    (c.replicas 0).decisions = [((10, 0, 1), false)] ∧ (c.replicas 1).decisions ≠ [] ∧
    ∀ accept, ((10, 0, 1), accept) ∈ (c.replicas 1).decisions → accept = false := by
  have hsome : ∃ c, lateBet.foldlM
        (fun (c : FlutterCluster) (a : FlutterAction) =>
          if RejectsStale [] c a then c.next .sixReplicas a else .error .assertion)
        (fresh fun _ => (0, 0)) = .ok c ∧
      (c.replicas 0).decisions = [((10, 0, 1), false)] ∧ (c.replicas 1).decisions ≠ [] := by
    decide +kernel
  obtain ⟨c, hfold, hzero, hone⟩ := hsome
  have hrun : Run (flutterSystem .sixReplicas {5} fun _ => (0, 0)) RejectsStale ([] ++ lateBet) c :=
    run_of_foldlM (.start rfl) (by decide +kernel) (fun _ _ _ h => h) hfold
  refine ⟨c, hrun, hzero, hone, fun accept hmem => ?_⟩
  exact decisions_agree (j := 0) (by decide) (by decide) (by decide) hrun (by decide) (by decide)
    (by decide) (by decide) hmem (hzero ▸ List.mem_singleton_self _)

/-! ### A bet that is rejected and committed -/

/-- Eleven replicas, two of which may fail, and one client. -/
def elevenReplicas : FlutterConfig :=
  { numReplicas := 11, numClients := 1, clockBroadcastInterval := 1 }

/-- The faulty replicas vote about a bet at a replica. -/
def faultyVotes (i bet : ℕ) (accept : Bool) : List FlutterAction :=
  [9, 10].map fun j =>
    { replica := i, now := 11, source := .faulty j (.rbcProposal (betOn bet).key accept) }

/-- The faulty replicas send the leader slow proposals about a bet. -/
def faultyProposals (bet : ℕ) (accept : Bool) : List FlutterAction :=
  [9, 10].map fun j =>
    { replica := 0, now := 11, source := .faulty j (.rbcSlowProposal (betOn bet).key accept) }

/-- The clocks are sent, before the bets: those of replicas 3 and 4 are early. -/
def firstClocks : List FlutterAction :=
  [3, 4].map (fun i => { replica := i, now := 1, source := .timer }) ++
  [0, 1, 6, 7, 8].map fun i => { replica := i, now := 11, source := .timer }

/-- The client raises its bet from 7 to 10; replica 1 gets the first one only. For replicas 2 to 5
the last bet is in time. -/
def fourBets : List FlutterAction :=
  { replica := 1, now := 11, source := .client (betOn 7) } ::
  [2, 3, 4, 5, 6, 7, 8].flatMap fun i => [7, 8, 9, 10].map fun bet =>
    { replica := i, now := if i ≤ 5 then 10 else 11, source := .client (betOn bet) }

/-- The number of messages on the links of a replica before its bets. -/
def clocksOf (j : ℕ) : ℕ := if j ∈ [2, 5] then 0 else 1

/-- Replica 1 rejects the bets 7, 8 and 9 by the votes, so that its current bet is 10. It sees most
votes against bet 10. -/
def threeRejections : List FlutterAction :=
  [2, 3, 4, 5, 6, 7, 8].flatMap (fun j => reads 1 11 j (clocksOf j)) ++
  [7, 8, 9, 10].flatMap fun bet =>
    [2, 3, 4, 5, 6, 7, 8].flatMap (fun j => reads 1 11 j 2) ++ faultyVotes 1 bet false

/-- The leader rejects bet 7 by the votes. With the slow proposals of replica 1 and the faulty ones
it rejects bet 10, upon which its current bet is 9. -/
def leaderRejects : List FlutterAction :=
  [9, 10].map (fun j => { replica := 0, now := 11, source := .faulty j (.time 11) }) ++
  reads 0 11 1 3 ++ reads 0 11 0 3 ++ faultyVotes 0 7 false ++
  [3, 4, 6, 7, 8].flatMap (fun j => reads 0 11 j 3) ++
  reads 0 11 1 1 ++ faultyProposals 10 false ++ reads 0 11 0 1

/-- Replica 2 sees most votes for bet 10. The leader takes the request for it from replica 2, and
accepts it with the slow proposals of replica 2 and the faulty ones. -/
def leaderAccepts : List FlutterAction :=
  [2, 3, 4, 5, 6, 7, 8].flatMap (fun j => reads 2 11 j (clocksOf j + 8)) ++ faultyVotes 2 10 true ++
  reads 0 11 2 9 ++ faultyProposals 10 true ++ reads 0 11 0 3

/-- **A bet that is rejected and committed**: replica 3 rejects bet 10 as the leader has told it,
and the leader commits it. -/
theorem rejected_bet_committed :
    elevenReplicas.numReplicas = 5 * elevenReplicas.f + 1 ∧
    ({9, 10} : Finset ℕ).card ≤ elevenReplicas.f ∧ leaderId ∉ ({9, 10} : Finset ℕ) ∧
    ∃ as c, Run (flutterSystem elevenReplicas {9, 10} fun _ => (0, 0)) anyStep as c ∧
      ((10, 0, 1), true) ∈ (c.replicas 0).decisions ∧
      ((10, 0, 1), false) ∈ (c.replicas 3).decisions := by
  refine ⟨by decide, by decide, by decide, ?_⟩
  have hsome : ∃ c, (firstClocks ++ fourBets ++ threeRejections ++ leaderRejects ++ leaderAccepts ++
        reads 3 11 0 4).foldlM
        (fun (c : FlutterCluster) (a : FlutterAction) =>
          if True then c.next elevenReplicas a else .error .assertion)
        (fresh fun _ => (0, 0)) = .ok c ∧
      ((10, 0, 1), true) ∈ (c.replicas 0).decisions ∧
      ((10, 0, 1), false) ∈ (c.replicas 3).decisions := by
    decide +kernel
  obtain ⟨c, hfold, hdecided⟩ := hsome
  have hrun := run_of_foldlM (P := fun _ _ => True) (F := {9, 10}) (G := anyStep)
    (.start rfl) (by decide +kernel) (fun _ _ _ _ => trivial) hfold
  exact ⟨_, c, hrun, hdecided⟩

end FlutterCluster

end DomBft
