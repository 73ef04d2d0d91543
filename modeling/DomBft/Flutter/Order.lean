import DomBft.Flutter.Cluster
import DomBft.Flutter.Evidence
import DomBft.Flutter.LockTime

/-!
The order in which correct replicas of Flutter commit.

* `WellOrdered`: what a replica has sent before its votes.
* `Doomed`: too many clocks have passed the bet of a key for it to be accepted.
* `Local`: the invariant of a replica, by which **it commits in the order of the keys**;
  `Step.local` is the step lemma, `Steps.takes` that for an event, `Local.mono` what more messages
  of others change.
-/

namespace DomBft

open Std (ExtTreeMap)
open Fallible Transition

/-! ### Keys -/

lemma bet_le_of_candidateCmp {key key' : CandidateKey} (h : candidateCmp key key' ≠ .gt) :
    key.1 ≤ key'.1 := by
  by_contra hlt
  refine h ?_
  have hfst : compareOn Prod.fst key key' = .gt := Nat.compare_eq_gt.mpr (not_le.mp hlt)
  show (compareOn Prod.fst key key').then _ = .gt
  rw [hfst]
  rfl

namespace FlutterReplica

variable {cfg : FlutterConfig} {Said Said' : ℕ → FlutterMsg → Prop} {T T' : ℕ → ℕ}
  {r r' : FlutterReplica} {key key' : CandidateKey} {c : Candidate} {e : FlutterInput} {now : ℕ}

/-! ### What a replica has sent -/

/-- The keys of the candidates that a replica has committed, oldest first. -/
def commits (r : FlutterReplica) : List CandidateKey :=
  r.sent.filterMap fun x => match x.2 with
    | .reply m => if m.accepted then some m.key else none
    | _ => none

end FlutterReplica

/-- A vote is sent behind the request it is about; one for it not behind a clock with a later time
than the bet, and none behind a slow proposal. -/
def GoesAfter (l : List (FlutterDest × FlutterMsg)) : FlutterDest × FlutterMsg → Prop
  | (dst, .rbcProposal key accept) => dst = .replicas ∧
    (∃ request : FlutterClientRequest, request.key = key ∧ (.replicas, .observe request) ∈ l) ∧
    (accept = true → ∀ d t, (d, .time t) ∈ l → t ≤ key.1) ∧
    ∀ d a, (d, .rbcSlowProposal key a) ∉ l
  | _ => True

/-- Every message goes after those that it has to go after. -/
def WellOrdered (l : List (FlutterDest × FlutterMsg)) : Prop :=
  ∀ l₁ x l₂, l = l₁ ++ x :: l₂ → GoesAfter l₁ x

lemma WellOrdered.concat {l : List (FlutterDest × FlutterMsg)} {x : FlutterDest × FlutterMsg}
    (h : WellOrdered l) (hx : GoesAfter l x) : WellOrdered (l ++ [x]) := by
  intro l₁ y l₂ heq
  rcases List.eq_nil_or_concat l₂ with rfl | ⟨l₃, z, rfl⟩
  · obtain ⟨rfl, hxy⟩ := List.append_inj' heq rfl
    cases hxy
    exact hx
  · rw [List.concat_eq_append, ← List.cons_append, ← List.append_assoc] at heq
    obtain ⟨rfl, -⟩ := List.append_inj' heq rfl
    exact h l₁ y l₃ rfl

/-! ### The invariant of a replica -/

section

variable (cfg : FlutterConfig) (Said : ℕ → FlutterMsg → Prop) (T : ℕ → ℕ)

/-- More than `3f` replicas have not voted for a key, and will not: their clocks have passed its
bet. -/
def Doomed (key : CandidateKey) : Prop :=
  ∃ S : Finset ℕ, 3 * cfg.f + 1 ≤ S.card ∧
    ∀ j ∈ S, j < cfg.numReplicas ∧ key.1 < T j ∧ ¬Said j (.rbcProposal key true)

/-- What is known of the messages of all replicas. -/
structure Consistent : Prop where
  rejects : ∀ j key, j < cfg.numReplicas → Said j (.rbcProposal key false) → key.1 < 2 ^ 64 - 1
  proposals : ∀ j key accept, j < cfg.numReplicas → Said j (.rbcSlowProposal key accept) →
    Majority cfg Said key accept
  values : ∀ key accept, Said leaderId (.rbcSlowValue key accept) →
    SlowQuorum cfg Said key accept

namespace FlutterReplica

/-- What the replica knows of an event: the requests that go before a vote, a slow proposal or a
clock on the link have been received before it. -/
structure Knows (r : FlutterReplica) (e : FlutterInput) : Prop where
  heard : e.Heard cfg Said
  vote : ∀ j key accept, e = .message j (.rbcProposal key accept) → r.Seen key
  proposal : ∀ j key accept a, e = .message j (.rbcSlowProposal key accept) →
    Said j (.rbcProposal key a) → r.Seen key
  time : ∀ j t, e = .message j (.time t) →
    t ≤ T j ∧ ∀ key : CandidateKey, Said j (.rbcProposal key true) → key.1 < t → r.Seen key
  own : r.replicaId = leaderId → ∀ m, Said leaderId m → ∃ d, (d, m) ∈ r.sent

/-- A candidate of the leader that nothing has been decided about. -/
def Inert (r : FlutterReplica) (key : CandidateKey) (c : Candidate) : Prop :=
  r.replicaId = leaderId ∧ c.request = none ∧ c.acceptVotes = 0 ∧ c.rejectVotes = 0 ∧
    ∀ d a, (d, .rbcSlowValue key a) ∉ r.sent

/-- What a replica knows of the messages that it has sent. -/
def Backs (r : FlutterReplica) : FlutterMsg → Prop
  | .rbcProposal key accept => r.Seen key ∧ (accept = false → key.1 < 2 ^ 64 - 1)
  | .rbcSlowProposal key _ | .rbcSlowValue key _ => r.Seen key
  | .time t => t ≤ T r.replicaId
  | _ => True

/-- The replica commits nothing under the key any more. -/
def Closed (r : FlutterReplica) (key : CandidateKey) : Prop :=
  (r.Seen key ∧ ∀ c, r.candidatePool[key]? = some c → c.request = none) ∨ Doomed cfg Said T key

/-- **The invariant of a replica**, with what others have said and what their clocks show. -/
structure Local (r : FlutterReplica) : Prop where
  justified : r.Justified cfg Said
  current : ∀ (key : CandidateKey) (c : Candidate), r.candidatePool[key]? = some c →
    r.clientCurrentBets[key.2]? = some key.1 ∨ r.Inert key c
  backs : ∀ x ∈ r.sent, r.Backs T x.2
  ordered : WellOrdered r.sent
  heard : r.replicaId = leaderId → ∀ (key : CandidateKey) (c : Candidate) (j : ℕ) (a a' : Bool),
    r.candidatePool[key]? = some c → c.slowProposals[j]? = some a →
    Said j (.rbcProposal key a') → r.Seen key
  clocks : ∀ (j t : ℕ), r.replicaClocks[j]? = some t → j < cfg.numReplicas ∧ t ≤ T j ∧
    ∀ key : CandidateKey, Said j (.rbcProposal key true) → key.1 < t → r.Seen key
  lock : r.lockTime = 0 ∨ cfg.superQuorumSize ≤ r.replicaClocks.size ∧
    ∃ S : Finset ℕ, 3 * cfg.f + 1 ≤ S.card ∧
      ∀ j ∈ S, ∃ t, r.replicaClocks[j]? = some t ∧ r.lockTime ≤ t
  sorted : r.commits.Pairwise fun key key' => candidateCmp key key' = .lt
  closed : ∀ key ∈ r.commits, ∀ key', candidateCmp key' key ≠ .gt → r.Closed cfg Said T key'

end FlutterReplica

end

/-! ### Counting -/

section

variable {cfg : FlutterConfig} {Said Said' : ℕ → FlutterMsg → Prop} {T T' : ℕ → ℕ}
  {r r' : FlutterReplica} {key key' : CandidateKey} {c : Candidate} {e : FlutterInput} {now : ℕ}

/-- **What is doomed is never accepted.** -/
lemma Doomed.not_decided (hn : cfg.numReplicas = 5 * cfg.f + 1) (hw : Consistent cfg Said)
    (h : Doomed cfg Said T key) : ¬Decided cfg Said key true := by
  intro hdecided
  obtain ⟨S, hS, hdoomed⟩ := h
  obtain ⟨A, hA, hvoters⟩ := hdecided.exists_voters (F := ∅) (Nat.zero_le _) (hw.values key true)
    fun j _ hj => hw.proposals j key true hj
  obtain ⟨j, hjS, hjA, -⟩ := Quorum.exists_common (F := ∅)
    (fun j hj => Finset.mem_range.mpr (hdoomed j hj).1) hvoters.subset
    (by rw [Finset.card_range, Finset.card_empty]; omega)
  exact (hdoomed j hjS).2.2 (hvoters j hjA).2

/-- A candidate is rejected only if somebody has voted against it. -/
lemma Decided.exists_reject (hn : cfg.numReplicas = 5 * cfg.f + 1) (hw : Consistent cfg Said)
    (h : Decided cfg Said key false) : key.1 < 2 ^ 64 - 1 := by
  obtain ⟨A, hA, hvoters⟩ := h.exists_voters (F := ∅) (Nat.zero_le _) (hw.values key false)
    fun j _ hj => hw.proposals j key false hj
  obtain ⟨j, hj⟩ := Finset.card_pos.mp (by omega : 0 < A.card)
  exact hw.rejects j key (hvoters j hj).1 (hvoters j hj).2

namespace FlutterReplica

/-- The lock time is that of many clocks. -/
lemma exists_clocks (hn : cfg.numReplicas = 5 * cfg.f + 1) {lockTime : ℕ}
    (hmany : cfg.superQuorumSize ≤ r.replicaClocks.size)
    (hlock : r.clockTimes[cfg.numReplicas - cfg.superQuorumSize]? = some lockTime) :
    ∃ S : Finset ℕ, 3 * cfg.f + 1 ≤ S.card ∧
      ∀ j ∈ S, ∃ t, r.replicaClocks[j]? = some t ∧ lockTime ≤ t := by
  have hbelow := (le_clockTime_iff hlock lockTime).mp le_rfl
  have hsum := r.clocksBelow_add_clocksFrom lockTime
  refine ⟨OrderedMap.keysWhere r.replicaClocks (lockTime ≤ ·), ?_, fun j hj =>
    OrderedMap.mem_keysWhere.mp hj⟩
  show 3 * cfg.f + 1 ≤ r.clocksFrom lockTime
  rw [FlutterConfig.superQuorumSize] at hmany hbelow
  omega

/-! ### The steps -/

lemma candidate_of_head? {candidate : Candidate}
    (h : r.candidatePool.toList.head? = some (key, candidate)) :
    r.candidatePool[key]? = some candidate ∧
      ∀ key' c, r.candidatePool[key']? = some c → key' ≠ key → candidateCmp key key' = .lt := by
  obtain ⟨l, hl⟩ : ∃ l, r.candidatePool.toList = (key, candidate) :: l := by
    cases hl : r.candidatePool.toList with
    | nil => rw [hl] at h; cases h
    | cons x l =>
        rw [hl] at h
        cases h
        exact ⟨l, rfl⟩
  have hordered := hl ▸ ExtTreeMap.ordered_keys_toList (t := r.candidatePool)
  refine ⟨ExtTreeMap.mem_toList_iff_getElem?_eq_some.mp (hl ▸ List.mem_cons_self), ?_⟩
  intro key' c hc hne
  have hmem : (key', c) ∈ r.candidatePool.toList :=
    ExtTreeMap.mem_toList_iff_getElem?_eq_some.mpr hc
  rw [hl] at hmem
  rcases List.mem_cons.mp hmem with heq | hmem
  · cases heq
    exact absurd rfl hne
  · exact (List.pairwise_cons.mp hordered).1 _ hmem

/-- What is rejected has the current bet, which is not the last one there is. -/
lemma Local.current_of_rejected (hn : cfg.numReplicas = 5 * cfg.f + 1)
    (hw : Consistent cfg Said) (h : r.Local cfg Said T) (hk : r.Knows cfg Said T e)
    (hc : r.candidatePool[key]? = some c) (hrejected : c.Rejected cfg) :
    r.clientCurrentBets[key.2]? = some key.1 ∧ key.1 < 2 ^ 64 - 1 := by
  have hj := h.justified.pool key c hc
  refine ⟨?_, (hj.decided_of_rejected hrejected).exists_reject hn hw⟩
  rcases h.current key c hc with hcurrent | ⟨hleader, -, -, hzero, hnone⟩
  · exact hcurrent
  rcases hrejected with hmany | ⟨hreceived, -⟩
  · rw [hzero, FlutterConfig.superQuorumSize] at hmany
    omega
  · obtain ⟨d, hd⟩ := hk.own hleader _ (hj.value hreceived)
    exact absurd hd (hnone d _)

/-- **What has been seen stays seen.** -/
lemma Step.seen (hn : cfg.numReplicas = 5 * cfg.f + 1) (hw : Consistent cfg Said)
    (h : r.Local cfg Said T) (hk : r.Knows cfg Said T e) (hstep : Step cfg now e r r')
    (hseen : r.Seen key') : r'.Seen key' := by
  cases hstep with
  | propose _ _ hbet => exact hseen.addCandidate hbet
  | reject hc hrejected _ =>
      obtain ⟨hcurrent, hlt⟩ := h.current_of_rejected hn hw hk hc hrejected
      refine hseen.reject ?_
      rw [ExtTreeMap.getD_eq_getD_getElem?, hcurrent]
      exact hlt
  | commit _ hfirst =>
      exact hseen.commit (h.justified.pool _ _ (candidate_of_head? hfirst).1).keyed
  | _ => exact hseen

/-- What the replica knows of the event, it knows until it is done with it. -/
lemma Step.knows (hn : cfg.numReplicas = 5 * cfg.f + 1) (hw : Consistent cfg Said)
    (h : r.Local cfg Said T) (hk : r.Knows cfg Said T e) (hstep : Step cfg now e r r') :
    r'.Knows cfg Said T e := by
  have hseen : ∀ {key}, r.Seen key → r'.Seen key := hstep.seen hn hw h hk
  refine ⟨hk.heard, fun j key a he => hseen (hk.vote j key a he),
    fun j key a a' he hsaid => hseen (hk.proposal j key a a' he hsaid),
    fun j t he => (hk.time j t he).imp_right fun htime key hsaid hlt => hseen (htime key hsaid hlt),
    ?_⟩
  intro hleader m hm
  obtain ⟨d, hd⟩ := hk.own (hstep.grows.1.symm.trans hleader) m hm
  exact ⟨d, hstep.grows.2.subset hd⟩

/-- Only a request that has not been seen is taken. -/
lemma Step.request (hstep : Step cfg now e r r') (hc : r'.candidatePool[key]? = some c)
    (hrequest : c.request ≠ none) :
    (∃ c₀, r.candidatePool[key]? = some c₀ ∧ c₀.request ≠ none) ∨ ¬r.Seen key := by
  cases hstep with
  | propose _ hcommitted hbet =>
      rcases addCandidate_pool hc with ⟨rfl, -⟩ | ⟨-, hold, -⟩
      · exact .inr (not_seen hcommitted hbet)
      · exact .inl ⟨c, hold, hrequest⟩
  | @vote j k accept candidate _ _ _ hat | @slowProposal j k accept candidate _ _ _ _ hat =>
      rcases OrderedMap.getElem?_insert_cases hc with ⟨rfl, rfl⟩ | ⟨-, hold⟩
      · rcases candidateAt_cases r key with hget | hplace
        · exact .inl ⟨candidate, hat ▸ hget, hrequest⟩
        · rw [hat] at hplace
          exact absurd (congrArg Candidate.request hplace) hrequest
      · exact .inl ⟨c, hold, hrequest⟩
  | @slowPath k candidate hget | @slowDecide k candidate decision _ _ _ hget
  | @slowValue k accept candidate _ hget =>
      rcases OrderedMap.getElem?_insert_cases hc with ⟨rfl, rfl⟩ | ⟨-, hold⟩
      · exact .inl ⟨candidate, hget, hrequest⟩
      · exact .inl ⟨c, hold, hrequest⟩
  | reject | commit => exact .inl ⟨c, (OrderedMap.getElem?_erase_cases hc).2, hrequest⟩
  | setClock | sendClock => exact .inl ⟨c, hc, hrequest⟩

/-- What the leader decides about has been seen by it: one of those that have sent it a slow
proposal has voted before, and its request has been received. -/
lemma Local.seen_of_slowDecision {decision : Bool} (hn : cfg.numReplicas = 5 * cfg.f + 1)
    (hw : Consistent cfg Said) (h : r.Local cfg Said T) (hleader : r.replicaId = leaderId)
    (hc : r.candidatePool[key]? = some c) (hdecision : c.slowDecision cfg = some decision) :
    r.Seen key := by
  have hj := h.justified.pool key c hc
  obtain ⟨D, hD, hproposals⟩ := Candidate.exists_slowProposals hdecision
  obtain ⟨k, hk⟩ := Finset.card_pos.mp (by omega : 0 < D.card)
  obtain ⟨hkn, hsaid⟩ := hj.proposals k decision (hproposals k hk)
  obtain ⟨A, R, hdisj, hA, hR, hcard, -⟩ := hw.proposals k key decision hkn hsaid
  have hunion : (A ∪ R).card = 4 * cfg.f + 1 := by
    rw [Finset.card_union_of_disjoint hdisj, hcard]
    rfl
  obtain ⟨j, hjD, hjV, -⟩ := Quorum.exists_common (F := ∅) (A := D) (B := A ∪ R)
    (U := Finset.range cfg.numReplicas)
    (fun j hj' => Finset.mem_range.mpr (hj.proposals j decision (hproposals j hj')).1)
    (Finset.union_subset hA.subset hR.subset)
    (by rw [Finset.card_range, Finset.card_empty]; omega)
  rcases Finset.mem_union.mp hjV with hjA | hjR
  · exact h.heard hleader key c j decision true hc (hproposals j hjD) (hA j hjA).2
  · exact h.heard hleader key c j decision false hc (hproposals j hjD) (hR j hjR).2

/-- A candidate that has votes is no inert one. -/
lemma Inert.no_votes (h : r.Inert key c) : c.acceptVotes + c.rejectVotes = 0 := by
  obtain ⟨-, -, hacc, hrej, -⟩ := h
  rw [hacc, hrej]

/-- An inert candidate stays one as long as nothing is decided about it. -/
lemma Inert.of_sent (h : r.Inert key c) (hid : r'.replicaId = r.replicaId)
    (hsent : ∀ d a, (d, .rbcSlowValue key a) ∈ r'.sent → (d, .rbcSlowValue key a) ∈ r.sent) :
    r'.Inert key c := by
  obtain ⟨hleader, hrequest, hacc, hrej, hnone⟩ := h
  exact ⟨hid.trans hleader, hrequest, hacc, hrej, fun d a hd => hnone d a (hsent d a hd)⟩

/-- Two candidates with the same current bet are the same. -/
lemma key_eq_of_current (h : r.clientCurrentBets[key.2]? = some key.1)
    (h' : r.clientCurrentBets[key'.2]? = some key'.1) (heq : key.2 = key'.2) : key = key' := by
  rw [heq, h'] at h
  exact Prod.ext (Option.some.inj h).symm heq

/-- What has votes has the current bet. -/
lemma Local.current_of_votes (h : r.Local cfg Said T) (hc : r.candidatePool[key]? = some c)
    (hvotes : c.acceptVotes + c.rejectVotes = cfg.superQuorumSize) :
    r.clientCurrentBets[key.2]? = some key.1 := by
  refine (h.current key c hc).resolve_right fun hinert => ?_
  rw [hinert.no_votes, FlutterConfig.superQuorumSize] at hvotes
  omega

/-- **The candidates in the pool have the current bet**, but for inert ones of the leader. -/
lemma Step.current (hn : cfg.numReplicas = 5 * cfg.f + 1) (hw : Consistent cfg Said)
    (h : r.Local cfg Said T) (hk : r.Knows cfg Said T e) (hstep : Step cfg now e r r')
    (hc : r'.candidatePool[key]? = some c) :
    r'.clientCurrentBets[key.2]? = some key.1 ∨ r'.Inert key c := by
  cases hstep with
  | @propose request =>
      rcases addCandidate_pool hc with ⟨rfl, -⟩ | ⟨-, hold, hne⟩
      · rw [addCandidate_eq]
        exact .inl ExtTreeMap.getElem?_insert_self
      · rw [addCandidate_eq]
        refine (h.current key c hold).imp (fun hcurrent => ?_) fun hinert => ?_
        · have hkey : key.2 ≠ request.key.2 := fun heq =>
            hne key.1 (heq.symm ▸ hcurrent) (Prod.ext rfl heq)
          rw [← hcurrent]
          exact OrderedMap.getElem?_insert_of_ne hkey
        · refine hinert.of_sent rfl fun d a hd => ?_
          exact (List.mem_append.mp hd).resolve_right (by simp)
  | @vote j k accept candidate he hcommitted hstale =>
      rcases OrderedMap.getElem?_insert_cases hc with ⟨rfl, -⟩ | ⟨-, hold⟩
      · exact .inl ((hk.vote j key accept he).current hcommitted hstale)
      · exact h.current key c hold
  | @slowPath k candidate hget hvotes =>
      have hsent : ∀ {c}, r.Inert key c → FlutterReplica.Inert ((r.setCandidate k
          { candidate with slowPathInitiated := true }).send (.replica leaderId)
          (.rbcSlowProposal k (candidate.rejectVotes < candidate.acceptVotes))) key c := by
        intro c hinert
        exact hinert.of_sent rfl fun d a hd => (mem_send hd).resolve_right (by simp)
      rcases OrderedMap.getElem?_insert_cases hc with ⟨rfl, rfl⟩ | ⟨-, hold⟩
      · exact .inl (h.current_of_votes hget hvotes)
      · exact (h.current key c hold).imp_right hsent
  | @reject k candidate hget hrejected =>
      obtain ⟨hne, hold⟩ := OrderedMap.getElem?_erase_cases hc
      have hcurrent := (h.current_of_rejected hn hw hk hget hrejected).1
      refine (h.current key c hold).imp (fun hkey => ?_) fun hinert => ?_
      · rw [← hkey]
        exact OrderedMap.getElem?_insert_of_ne fun heq =>
          hne (key_eq_of_current hkey hcurrent heq)
      · exact hinert.of_sent rfl fun d a hd => (mem_send hd).resolve_right (by simp)
  | @slowProposal j k accept candidate _ hleader hcommitted hstale hat =>
      rcases OrderedMap.getElem?_insert_cases hc with ⟨rfl, rfl⟩ | ⟨-, hold⟩
      · rcases candidateAt_cases r key with hget | hplace
        · exact h.current key candidate (hat ▸ hget)
        by_cases hvalue : ∃ d a, (d, .rbcSlowValue key a) ∈ r.sent
        · obtain ⟨d, a, hd⟩ := hvalue
          exact .inl ((h.backs _ hd).current hcommitted hstale)
        · obtain rfl := hat.symm.trans hplace
          exact .inr ⟨hleader, rfl, rfl, rfl, fun d a hd => hvalue ⟨d, a, hd⟩⟩
      · exact h.current key c hold
  | @slowDecide k candidate decision hleader hcommitted hstale hget _ hdecision =>
      rcases OrderedMap.getElem?_insert_cases hc with ⟨rfl, -⟩ | ⟨hne, hold⟩
      · exact .inl ((h.seen_of_slowDecision hn hw hleader hget hdecision).current hcommitted hstale)
      · refine (h.current key c hold).imp_right fun hinert => ?_
        refine hinert.of_sent rfl fun d a hd => (mem_send hd).resolve_right fun heq => ?_
        cases heq
        exact hne rfl
  | @slowValue k accept candidate _ hget =>
      rcases OrderedMap.getElem?_insert_cases hc with ⟨rfl, rfl⟩ | ⟨-, hold⟩
      · exact h.current key candidate hget
      · exact h.current key c hold
  | @commit k candidate _ hfirst _ hrequest =>
      obtain ⟨hne, hold⟩ := OrderedMap.getElem?_erase_cases hc
      have hget := (candidate_of_head? hfirst).1
      have hcurrent : r.clientCurrentBets[k.2]? = some k.1 := by
        refine (h.current k candidate hget).resolve_right fun hinert => ?_
        rw [hinert.2.1] at hrequest
        cases hrequest
      refine (h.current key c hold).imp (fun hkey => ?_) fun hinert => ?_
      · rw [← hkey]
        exact OrderedMap.getElem?_erase_of_ne fun heq =>
          hne (key_eq_of_current hkey hcurrent heq)
      · exact hinert.of_sent rfl fun d a hd => (mem_send hd).resolve_right (by simp)
  | setClock => exact h.current key c hc
  | sendClock =>
      refine (h.current key c hc).imp_right fun hinert => ?_
      exact hinert.of_sent rfl fun d a hd => (mem_send hd).resolve_right (by simp)

/-- What is known of a message does not change. -/
lemma Backs.of_seen {m : FlutterMsg} (h : r.Backs T m) (hid : r'.replicaId = r.replicaId)
    (hseen : ∀ key, r.Seen key → r'.Seen key) : r'.Backs T m := by
  cases m with
  | rbcProposal key accept => exact And.imp_left (hseen key) h
  | rbcSlowProposal key accept | rbcSlowValue key accept => exact hseen key h
  | time t => exact h.trans_eq (congrArg T hid.symm)
  | observe request | reply reply => trivial

/-- What a step sends is known of. -/
lemma Step.backs (hn : cfg.numReplicas = 5 * cfg.f + 1) (hw : Consistent cfg Said)
    (h : r.Local cfg Said T) (hk : r.Knows cfg Said T e) (hnow : now < 2 ^ 64)
    (hT : now = T r.replicaId) (hstep : Step cfg now e r r') {x : FlutterDest × FlutterMsg}
    (hx : x ∈ r'.sent) : r'.Backs T x.2 := by
  have hold : x ∈ r.sent → r'.Backs T x.2 := fun hx =>
    (h.backs x hx).of_seen hstep.grows.1 fun _ => hstep.seen hn hw h hk
  cases hstep with
  | @propose request =>
      rw [addCandidate_eq] at hx
      rcases List.mem_append.mp hx with hx | hx
      · exact hold hx
      rcases List.mem_cons.mp hx with rfl | hx
      · trivial
      · rw [List.mem_singleton.mp hx]
        refine ⟨seen_addCandidate, fun hlate => ?_⟩
        have hlt : request.bet < now := not_le.mp (of_decide_eq_false hlate)
        show request.bet < 2 ^ 64 - 1
        omega
  | vote | slowProposal | slowValue | setClock => exact hold hx
  | slowPath hget hvotes =>
      rcases mem_send hx with hx | rfl
      · exact hold hx
      · exact .inr ⟨_, h.current_of_votes hget hvotes, le_rfl⟩
  | @slowDecide k candidate decision hleader _ _ hget _ hdecision =>
      rcases mem_send hx with hx | rfl
      · exact hold hx
      · have hseen : r.Seen k := h.seen_of_slowDecision hn hw hleader hget hdecision
        exact hseen
  | reject | commit =>
      rcases mem_send hx with hx | rfl
      · exact hold hx
      · trivial
  | sendClock =>
      rcases mem_send hx with hx | rfl
      · exact hold hx
      · exact hT.le

/-- A vote for a request is cast by the time of its bet. -/
lemma Step.vote_in_time (hstep : Step cfg now e r r') {d : FlutterDest}
    (hx : (d, .rbcProposal key true) ∈ r'.sent) :
    (d, .rbcProposal key true) ∈ r.sent ∨ now ≤ key.1 :=
  (hstep.votes hx).imp_right fun ⟨_, _, haccept⟩ => of_decide_eq_true haccept.symm

/-- Every message goes after those that it has to go after. -/
lemma Step.ordered (h : r.Local cfg Said T) (hT : now = T r.replicaId)
    (hstep : Step cfg now e r r') : WellOrdered r'.sent := by
  cases hstep with
  | @propose request _ hcommitted hbet =>
      have hfirst : WellOrdered (r.sent ++ [(.replicas, .observe request)]) :=
        h.ordered.concat trivial
      have hsecond := hfirst.concat (x := (.replicas, .rbcProposal request.key
        (decide (now ≤ request.bet)))) ⟨rfl, ⟨request, rfl, by simp⟩, fun haccept d t ht => ?_,
          fun d a ha => ?_⟩
      · rw [addCandidate_eq]
        rwa [List.append_assoc] at hsecond
      · have hsent := (List.mem_append.mp ht).resolve_right (by simp)
        have htime : t ≤ T r.replicaId := h.backs _ hsent
        exact (htime.trans_eq hT.symm).trans (of_decide_eq_true haccept)
      · have hsent := (List.mem_append.mp ha).resolve_right (by simp)
        exact not_seen hcommitted hbet (h.backs _ hsent)
  | vote | slowProposal | slowValue | setClock => exact h.ordered
  | slowPath | slowDecide | reject | commit | sendClock => exact h.ordered.concat trivial

/-- A slow proposal that is recorded has come in. -/
lemma Step.slowProposals {j : ℕ} {accept : Bool} (hstep : Step cfg now e r r')
    (hc : r'.candidatePool[key]? = some c) (hj : c.slowProposals[j]? = some accept) :
    (∃ c₀, r.candidatePool[key]? = some c₀ ∧ c₀.slowProposals[j]? = some accept) ∨
      e = .message j (.rbcSlowProposal key accept) := by
  -- a placeholder has none, so that they are those of a candidate of the pool
  have hold : ∀ {c₀ : Candidate}, (r.candidatePool[key]? = some c₀ ∨ c₀ = .placeholder key) →
      c₀.slowProposals[j]? = some accept →
      ∃ c₀, r.candidatePool[key]? = some c₀ ∧ c₀.slowProposals[j]? = some accept := by
    rintro c₀ (hget | rfl) hj
    · exact ⟨c₀, hget, hj⟩
    · cases ExtTreeMap.getElem?_empty.symm.trans hj
  cases hstep with
  | propose =>
      rcases addCandidate_pool hc with ⟨rfl, c₀, hc₀, rfl⟩ | ⟨-, hget, -⟩
      · exact .inl (hold hc₀ hj)
      · exact .inl ⟨c, hget, hj⟩
  | @vote k' k a candidate _ _ _ hat =>
      rcases OrderedMap.getElem?_insert_cases hc with ⟨rfl, rfl⟩ | ⟨-, hget⟩
      · have hc₀ : r.candidatePool[key]? = some candidate ∨ candidate = .placeholder key :=
          hat ▸ candidateAt_cases r key
        exact .inl (hold hc₀ hj)
      · exact .inl ⟨c, hget, hj⟩
  | @slowProposal k' k a candidate he _ _ _ hat =>
      rcases OrderedMap.getElem?_insert_cases hc with ⟨rfl, rfl⟩ | ⟨-, hget⟩
      · rcases OrderedMap.getElem?_insert_cases hj with ⟨rfl, rfl⟩ | ⟨-, hj⟩
        · exact .inr he
        · exact .inl (hold (hat ▸ candidateAt_cases r key) hj)
      · exact .inl ⟨c, hget, hj⟩
  | @slowPath k candidate hget | @slowDecide k candidate decision _ _ _ hget
  | @slowValue k a candidate _ hget =>
      rcases OrderedMap.getElem?_insert_cases hc with ⟨rfl, rfl⟩ | ⟨-, hget⟩
      · exact .inl ⟨candidate, hget, hj⟩
      · exact .inl ⟨c, hget, hj⟩
  | reject | commit => exact .inl ⟨c, (OrderedMap.getElem?_erase_cases hc).2, hj⟩
  | setClock | sendClock => exact .inl ⟨c, hc, hj⟩

/-- The requests of the slow proposals that the leader has recorded have been received. -/
lemma Step.heard (hn : cfg.numReplicas = 5 * cfg.f + 1) (hw : Consistent cfg Said)
    (h : r.Local cfg Said T) (hk : r.Knows cfg Said T e) (hstep : Step cfg now e r r')
    (hleader : r.replicaId = leaderId) {j : ℕ} {a a' : Bool}
    (hc : r'.candidatePool[key]? = some c) (hj : c.slowProposals[j]? = some a)
    (hsaid : Said j (.rbcProposal key a')) : r'.Seen key := by
  refine hstep.seen hn hw h hk ?_
  rcases hstep.slowProposals hc hj with ⟨c₀, hget, hj⟩ | he
  · exact h.heard hleader key c₀ j a a' hget hj hsaid
  · exact hk.proposal j key a a' he hsaid

/-- The requests behind the clocks that are recorded have been received. -/
lemma Step.clocks (hn : cfg.numReplicas = 5 * cfg.f + 1) (hw : Consistent cfg Said)
    (h : r.Local cfg Said T) (hk : r.Knows cfg Said T e) (hstep : Step cfg now e r r') {j t : ℕ}
    (hj : r'.replicaClocks[j]? = some t) : j < cfg.numReplicas ∧ t ≤ T j ∧
      ∀ key : CandidateKey, Said j (.rbcProposal key true) → key.1 < t → r'.Seen key := by
  have hclock : j < cfg.numReplicas ∧ t ≤ T j ∧
      ∀ key : CandidateKey, Said j (.rbcProposal key true) → key.1 < t → r.Seen key := by
    cases hstep with
    | propose =>
        rw [addCandidate_eq] at hj
        exact h.clocks j t hj
    | @setClock j' t' lockTime he =>
        rcases OrderedMap.getElem?_insert_cases hj with ⟨rfl, rfl⟩ | ⟨-, hold⟩
        · have hheard := hk.heard
          rw [he] at hheard
          exact ⟨hheard.1, hk.time j t he⟩
        · exact h.clocks j t hold
    | _ => exact h.clocks j t hj
  exact hclock.imp_right (And.imp_right fun hall key hsaid hlt =>
    hstep.seen hn hw h hk (hall key hsaid hlt))

/-- The lock time is that of many clocks. -/
lemma Step.lock (hn : cfg.numReplicas = 5 * cfg.f + 1) (h : r.Local cfg Said T)
    (hstep : Step cfg now e r r') :
    r'.lockTime = 0 ∨ cfg.superQuorumSize ≤ r'.replicaClocks.size ∧
      ∃ S : Finset ℕ, 3 * cfg.f + 1 ≤ S.card ∧
        ∀ j ∈ S, ∃ t, r'.replicaClocks[j]? = some t ∧ r'.lockTime ≤ t := by
  cases hstep with
  | propose =>
      rw [addCandidate_eq]
      exact h.lock
  | @setClock j t lockTime _ hset =>
      by_cases hmany : cfg.superQuorumSize ≤ (r.replicaClocks.insert j t).size
      · exact .inr ⟨hmany, exists_clocks hn hmany (hset.many hmany)⟩
      · have hzero : r.lockTime = 0 := by
          refine h.lock.resolve_right fun hlock => hmany ?_
          exact hlock.1.trans ExtTreeMap.size_le_size_insert
        exact .inl ((hset.few (not_le.mp hmany)).trans hzero)
  | _ => exact h.lock

/-! ### What is committed -/

lemma commits_commit (r : FlutterReplica) (key : CandidateKey) (candidate : Candidate) :
    (r.commit key candidate).commits = r.commits ++ [candidate.key] := by
  show List.filterMap _ (r.sent ++ [_]) = _
  rw [List.filterMap_append]
  rfl

/-- Only the first candidate of the pool is committed; nothing else is told to a tracker. -/
lemma Step.commits_cases (hstep : Step cfg now e r r') :
    r'.commits = r.commits ∧ r'.clientSeqTrackers = r.clientSeqTrackers ∨
    ∃ (k : CandidateKey) (candidate : Candidate),
      r.candidatePool.toList.head? = some (k, candidate) ∧ candidate.bet < r.lockTime ∧
        candidate.request.isSome = true ∧ candidate.Accepted cfg ∧ r' = r.commit k candidate := by
  have hsend : ∀ x : FlutterDest × FlutterMsg, FlutterReplica.commits { r with sent := [x] } = [] →
      List.filterMap _ (r.sent ++ [x]) = r.commits ++ [] := fun x hx => by
    rw [List.filterMap_append]
    exact congrArg (r.commits ++ ·) hx
  rw [List.append_nil] at hsend
  cases hstep with
  | commit _ hfirst hlock hrequest haccepted =>
      exact .inr ⟨_, _, hfirst, hlock, hrequest, haccepted, rfl⟩
  | @propose request =>
      rw [addCandidate_eq]
      refine .inl ⟨?_, rfl⟩
      show List.filterMap _ (r.sent ++ [_, _]) = _
      rw [List.filterMap_append]
      exact List.append_nil _
  | vote | slowProposal | slowValue | setClock => exact .inl ⟨rfl, rfl⟩
  | slowPath | slowDecide | reject | sendClock => exact .inl ⟨hsend _ rfl, rfl⟩

/-- **What is closed stays closed.** -/
lemma Step.closed (hn : cfg.numReplicas = 5 * cfg.f + 1) (hw : Consistent cfg Said)
    (h : r.Local cfg Said T) (hk : r.Knows cfg Said T e) (hstep : Step cfg now e r r')
    (hclosed : r.Closed cfg Said T key) : r'.Closed cfg Said T key := by
  refine hclosed.imp_left fun ⟨hseen, hnone⟩ => ⟨hstep.seen hn hw h hk hseen, fun c hc => ?_⟩
  by_contra hrequest
  rcases hstep.request hc hrequest with ⟨c₀, hc₀, hrequest⟩ | hnot
  · exact hrequest (hnone c₀ hc₀)
  · exact hnot hseen

/-- A candidate that is committed is not closed. -/
lemma Local.not_closed (hn : cfg.numReplicas = 5 * cfg.f + 1) (hw : Consistent cfg Said)
    (h : r.Local cfg Said T) (hc : r.candidatePool[key]? = some c) (hrequest : c.request.isSome)
    (haccepted : c.Accepted cfg) : ¬r.Closed cfg Said T key := by
  rintro (⟨-, hnone⟩ | hdoomed)
  · rw [hnone c hc] at hrequest
    cases hrequest
  · exact hdoomed.not_decided hn hw ((h.justified.pool key c hc).decided_of_accepted haccepted)

/-- What has not been seen, and has a bet below the lock time, is doomed: those whose clocks have
passed the bet would have sent the request before. -/
lemma Local.doomed_of_not_seen (h : r.Local cfg Said T) (hnot : ¬r.Seen key)
    (hlt : key.1 < r.lockTime) : Doomed cfg Said T key := by
  rcases h.lock with hzero | ⟨-, S, hcard, hS⟩
  · omega
  · refine ⟨S, hcard, fun j hj => ?_⟩
    obtain ⟨t, hget, hle⟩ := hS j hj
    obtain ⟨hjn, ht, hseen⟩ := h.clocks j t hget
    exact ⟨hjn, (hlt.trans_le hle).trans_le ht, fun hsaid =>
      hnot (hseen key hsaid (hlt.trans_le hle))⟩

/-- **The commit of the first candidate** closes all keys up to its own. -/
lemma Local.closed_of_commit (hn : cfg.numReplicas = 5 * cfg.f + 1) (hw : Consistent cfg Said)
    (h : r.Local cfg Said T) (hk : r.Knows cfg Said T e) (hstep : Step cfg now e r r')
    (heq : r' = r.commit key c) (hfirst : r.candidatePool.toList.head? = some (key, c))
    (hlock : c.bet < r.lockTime) (hle : candidateCmp key' key ≠ .gt) :
    r'.Closed cfg Said T key' := by
  obtain ⟨hget, hleast⟩ := candidate_of_head? hfirst
  have hbet : c.bet = key.1 := congrArg Prod.fst (h.justified.pool key c hget).keyed
  by_cases hseen : r.Seen key'
  · refine .inl ⟨hstep.seen hn hw h hk hseen, fun c' hc' => ?_⟩
    -- what is left in the pool lies behind the key
    rw [heq] at hc'
    obtain ⟨hne, hold⟩ := OrderedMap.getElem?_erase_cases hc'
    exact absurd (Std.OrientedCmp.gt_of_lt (hleast key' c' hold hne)) hle
  · refine .inr (h.doomed_of_not_seen hseen ?_)
    have hbets := bet_le_of_candidateCmp hle
    omega

/-- Keys that are not in order one way are in order the other way. -/
lemma not_gt_of_not_lt (h : candidateCmp key key' ≠ .lt) : candidateCmp key' key ≠ .gt :=
  fun hgt => h (Std.OrientedCmp.gt_iff_lt.mp hgt)

/-- **Every small step keeps the invariant of a replica.** -/
lemma Step.local (hn : cfg.numReplicas = 5 * cfg.f + 1) (hw : Consistent cfg Said)
    (hnow : now < 2 ^ 64) (hT : now = T r.replicaId) (h : r.Local cfg Said T)
    (hk : r.Knows cfg Said T e) (hstep : Step cfg now e r r') : r'.Local cfg Said T where
  justified := hstep.justified hk.heard h.justified
  current key c hc := hstep.current hn hw h hk hc
  backs x hx := hstep.backs hn hw h hk hnow hT hx
  ordered := hstep.ordered h hT
  heard hleader key c j a a' hc hj hsaid :=
    hstep.heard hn hw h hk (hstep.grows.1.symm.trans hleader) hc hj hsaid
  clocks j t hj := hstep.clocks hn hw h hk hj
  lock := hstep.lock hn h
  sorted := by
    rcases hstep.commits_cases with ⟨heq, -⟩ | ⟨k, candidate, hfirst, -, hrequest, haccepted, rfl⟩
    · rw [heq]
      exact h.sorted
    · have hget := (candidate_of_head? hfirst).1
      rw [commits_commit, (h.justified.pool k candidate hget).keyed]
      refine List.pairwise_append.mpr ⟨h.sorted, List.pairwise_singleton _ _, ?_⟩
      intro key hkey key' hkey'
      rw [List.mem_singleton.mp hkey']
      by_contra hnot
      exact h.not_closed hn hw hget hrequest haccepted
        (h.closed key hkey k (not_gt_of_not_lt hnot))
  closed key hkey key' hle := by
    rcases hstep.commits_cases with ⟨heq, -⟩ | ⟨k, candidate, hfirst, hlock, -, -, heq⟩
    · rw [heq] at hkey
      exact hstep.closed hn hw h hk (h.closed key hkey key' hle)
    · rw [heq, commits_commit, (h.justified.pool k candidate (candidate_of_head? hfirst).1).keyed]
        at hkey
      rcases List.mem_append.mp hkey with hkey | hkey
      · exact hstep.closed hn hw h hk (h.closed key hkey key' hle)
      · rw [List.mem_singleton.mp hkey] at hle
        exact h.closed_of_commit hn hw hk hstep heq hfirst hlock hle

/-- What an event makes of a replica that meets the invariant. -/
structure Takes (cfg : FlutterConfig) (Said : ℕ → FlutterMsg → Prop) (T : ℕ → ℕ) (now : ℕ)
    (e : FlutterInput) (r r' : FlutterReplica) : Prop where
  keeps : r'.Local cfg Said T
  knows : r'.Knows cfg Said T e
  grows : r'.replicaId = r.replicaId ∧ r.sent <+: r'.sent
  seen : ∀ key, r.Seen key → r'.Seen key
  votes : ∀ d key, (d, .rbcProposal key true) ∈ r'.sent →
    (d, .rbcProposal key true) ∈ r.sent ∨ now ≤ key.1

/-- **An event keeps the invariant of a replica.** -/
lemma Steps.takes (hn : cfg.numReplicas = 5 * cfg.f + 1) (hw : Consistent cfg Said)
    (hnow : now < 2 ^ 64) (hT : now = T r.replicaId) (h : r.Local cfg Said T)
    (hk : r.Knows cfg Said T e) (hsteps : Steps cfg now e r r') : Takes cfg Said T now e r r' := by
  induction hsteps with
  | refl => exact ⟨h, hk, ⟨rfl, List.prefix_rfl⟩, fun _ => id, fun _ _ => .inl⟩
  | tail _ hstep ih =>
      have hT' := hT.trans (congrArg T ih.grows.1.symm)
      exact {
        keeps := hstep.local hn hw hnow hT' ih.keeps ih.knows
        knows := hstep.knows hn hw ih.keeps ih.knows
        grows := ⟨hstep.grows.1.trans ih.grows.1, ih.grows.2.trans hstep.grows.2⟩
        seen := fun key hseen => hstep.seen hn hw ih.keeps ih.knows (ih.seen key hseen)
        votes := fun d key hd => (hstep.vote_in_time hd).elim (ih.votes d key) .inr }

/-! ### More that others have said -/

lemma Doomed.mono (hT : ∀ j, T j ≤ T' j)
    (hnews : ∀ j key, Said' j (.rbcProposal key true) →
      Said j (.rbcProposal key true) ∨ T' j ≤ key.1)
    (h : Doomed cfg Said T key) : Doomed cfg Said' T' key := by
  obtain ⟨S, hcard, hS⟩ := h
  refine ⟨S, hcard, fun j hj => ?_⟩
  obtain ⟨hjn, hlt, hnot⟩ := hS j hj
  refine ⟨hjn, hlt.trans_le (hT j), fun hsaid => ?_⟩
  rcases hnews j key hsaid with hold | hle
  · exact hnot hold
  · exact absurd (hlt.trans_le (hT j)) hle.not_gt

/-- What others say, with no vote behind a slow proposal and none that comes too late, keeps the
invariant. -/
lemma Local.mono (hsaid : ∀ j m, Said j m → Said' j m) (hT : ∀ j, T j ≤ T' j)
    (hnews : ∀ j key, Said' j (.rbcProposal key true) →
      Said j (.rbcProposal key true) ∨ T' j ≤ key.1)
    (hafter : ∀ j key a a', Said' j (.rbcProposal key a) → Said j (.rbcSlowProposal key a') →
      Said j (.rbcProposal key a))
    (h : r.Local cfg Said T) : r.Local cfg Said' T' where
  justified := h.justified.mono hsaid
  current := h.current
  backs x hx := by
    have hold := h.backs x hx
    revert hold
    cases x.2 with
    | time t => exact fun ht => ht.trans (hT _)
    | _ => exact id
  ordered := h.ordered
  heard hleader key c j a a' hc hj hvote := by
    have hslow := ((h.justified.pool key c hc).proposals j a hj).2
    exact h.heard hleader key c j a a' hc hj (hafter j key a' a hvote hslow)
  clocks j t hj := by
    obtain ⟨hjn, ht, hseen⟩ := h.clocks j t hj
    refine ⟨hjn, ht.trans (hT j), fun key hvote hlt => ?_⟩
    rcases hnews j key hvote with hold | hle
    · exact hseen key hold hlt
    · exact absurd (hlt.trans_le (ht.trans (hT j))) hle.not_gt
  lock := h.lock
  sorted := h.sorted
  closed key hkey key' hle :=
    (h.closed key hkey key' hle).imp_right (Doomed.mono hT hnews)

end FlutterReplica

end

end DomBft
