import DomBft.Lib.OrderedMap
import DomBft.Lib.Run
import DomBft.Flutter
import Mathlib.Data.List.TakeWhile

/-!
What a replica of Flutter does, in small steps.

* `Candidate.Rejected`, `Candidate.Accepted`: what a candidate is rejected and committed upon.
* `FlutterReplica.Step`: the small steps, with what the handlers check before each.
* `addCandidate_eq`, `addCandidate_pool`: what a new candidate changes.
* `due`, `checkCandidatesForCommit_eq`: the walk over the pool commits the candidates that are due;
  `commitAll_steps` takes them out one after the other, the first of the pool each time.
* `initializeCandidate_cases`, `processRBCProposal_cases`, `processRBCSlowProposal_cases`,
  `processRBCSlowValue_cases`, `processFlutterTime_cases`: what a handler does.
* `handle_steps`: **what an event does to a replica** is a sequence of small steps.
* `Seen`: the replica has got past a key, so that it does not take a request for it.
* `system`: the runs of one replica.
-/

namespace DomBft

open Std (ExtTreeMap)
open Fallible

/-! ### Candidates -/

namespace Candidate

variable {cfg : FlutterConfig} {c : Candidate}

/-- The candidate is rejected: by the votes, or by the leader. -/
def Rejected (cfg : FlutterConfig) (c : Candidate) : Prop :=
  cfg.superQuorumSize ≤ c.rejectVotes ∨ c.slowValueReceived = true ∧ c.slowAccepted = false

/-- The candidate is accepted: by the votes, or by the leader. -/
def Accepted (cfg : FlutterConfig) (c : Candidate) : Prop :=
  cfg.superQuorumSize ≤ c.acceptVotes ∨ c.slowValueReceived = true ∧ c.slowAccepted = true

/-- The walk over the pool does not stop at the candidate. -/
def isDue (cfg : FlutterConfig) (lockTime : ℕ) (c : Candidate) : Bool :=
  decide (c.bet < lockTime) && c.request.isSome &&
    (c.hasFastConsensus cfg || c.slowValueReceived)

lemma accepted_of_consensus (hcons : (c.hasFastConsensus cfg || c.slowValueReceived) = true)
    (hacc : c.accepted cfg = true) : c.Accepted cfg := by
  rw [accepted] at hacc
  split_ifs at hacc with hfast
  · exact .inl (of_decide_eq_true hacc)
  · refine .inr ⟨?_, hacc⟩
    rw [Bool.eq_false_iff.mpr hfast, Bool.false_or] at hcons
    exact hcons

end Candidate

namespace FlutterReplica

variable {cfg : FlutterConfig} {now : ℕ} {e : FlutterInput} {r r' : FlutterReplica}
  {key key' : CandidateKey} {accept : Bool}

/-! ### The steps -/

/-- The candidate under a key, or a placeholder. -/
def candidateAt (r : FlutterReplica) (key : CandidateKey) : Candidate :=
  r.candidatePool.getD key (.placeholder key)

/-- The replies to a client, of its being rejected. -/
def reject (r : FlutterReplica) (key : CandidateKey) (candidate : Candidate) : FlutterReplica :=
  ((r.send (.client key.2.1) (.reply (r.replyTo key.2.1 candidate false ""))).eraseCandidate
    key).incrementBet key.2

/-- A candidate is committed and taken out of the pool. -/
def commit (r : FlutterReplica) (key : CandidateKey) (candidate : Candidate) : FlutterReplica :=
  let r := r.commitSeq (candidate.clientId, candidate.clientSeq)
  (r.send (.client candidate.clientId) (.reply (r.replyTo candidate.clientId candidate true
    "Request executed successfully"))).removeCandidate key

/-- A clock is recorded, and the lock time is that of the clocks, if there are enough of them. -/
structure SetsClock (cfg : FlutterConfig) (r r₁ : FlutterReplica) (lockTime : ℕ) : Prop where
  few : r₁.replicaClocks.size < cfg.superQuorumSize → lockTime = r.lockTime
  many : cfg.superQuorumSize ≤ r₁.replicaClocks.size →
    r₁.clockTimes[cfg.numReplicas - cfg.superQuorumSize]? = some lockTime

/-- An event upon which a candidate is rejected: a vote about it that is not stale, or what the
leader has decided. -/
def RejectsUpon (cfg : FlutterConfig) (e : FlutterInput) (r : FlutterReplica) (key : CandidateKey)
    (candidate : Candidate) : Prop :=
  ((∃ j accept, e = .message j (.rbcProposal key accept)) ∧
      cfg.superQuorumSize ≤ candidate.rejectVotes ∧ r.isStale key = false) ∨
    e = .message leaderId (.rbcSlowValue key false)

/-- The small steps of a replica that takes an event, with the time on its clock. -/
inductive Step (cfg : FlutterConfig) (now : ℕ) (e : FlutterInput) (r : FlutterReplica) :
    FlutterReplica → Prop
  | propose {request : FlutterClientRequest} :
      (e = .request request ∨ ∃ j, e = .message j (.observe request)) →
      r.isCommitted request.key.2 = false →
      (∀ bet, r.clientCurrentBets[request.key.2]? = some bet → bet < request.bet) →
      Step cfg now e r (r.addCandidate now request)
  | vote {j : ℕ} {key : CandidateKey} {accept : Bool} {candidate : Candidate} :
      e = .message j (.rbcProposal key accept) →
      r.isCommitted key.2 = false → r.isStale key = false →
      r.candidateAt key = candidate → j ∉ candidate.votedReplicas →
      Step cfg now e r (r.setCandidate key (candidate.recordVote j accept))
  | slowPath {key : CandidateKey} {candidate : Candidate} :
      r.candidatePool[key]? = some candidate →
      candidate.acceptVotes + candidate.rejectVotes = cfg.superQuorumSize →
      Step cfg now e r ((r.setCandidate key { candidate with slowPathInitiated := true }).send
        (.replica leaderId)
        (.rbcSlowProposal key (candidate.rejectVotes < candidate.acceptVotes)))
  | reject {key : CandidateKey} {candidate : Candidate} :
      r.candidatePool[key]? = some candidate → candidate.Rejected cfg →
      RejectsUpon cfg e r key candidate →
      Step cfg now e r (r.reject key candidate)
  | slowProposal {j : ℕ} {key : CandidateKey} {accept : Bool} {candidate : Candidate} :
      e = .message j (.rbcSlowProposal key accept) → r.replicaId = leaderId →
      r.isCommitted key.2 = false → r.isStale key = false →
      r.candidateAt key = candidate → candidate.slowValueSent = false →
      Step cfg now e r (r.setCandidate key { candidate with
        slowProposals := candidate.slowProposals.insert j accept })
  | slowDecide {key : CandidateKey} {candidate : Candidate} {decision : Bool} :
      r.replicaId = leaderId → r.isCommitted key.2 = false → r.isStale key = false →
      r.candidatePool[key]? = some candidate → candidate.slowValueSent = false →
      candidate.slowDecision cfg = some decision →
      Step cfg now e r ((r.setCandidate key { candidate with slowValueSent := true }).send
        .replicas (.rbcSlowValue key decision))
  | slowValue {key : CandidateKey} {accept : Bool} {candidate : Candidate} :
      e = .message leaderId (.rbcSlowValue key accept) →
      r.candidatePool[key]? = some candidate →
      Step cfg now e r (r.setCandidate key { candidate with
        slowAccepted := accept, slowValueReceived := true })
  | commit {key : CandidateKey} {candidate : Candidate} :
      (∀ k, e ≠ .message leaderId (.rbcSlowValue k false)) →
      r.candidatePool.toList.head? = some (key, candidate) → candidate.bet < r.lockTime →
      candidate.request.isSome = true → candidate.Accepted cfg →
      Step cfg now e r (r.commit key candidate)
  | setClock {j t lockTime : ℕ} :
      e = .message j (.time t) →
      SetsClock cfg r { r with replicaClocks := r.replicaClocks.insert j t } lockTime →
      Step cfg now e r { r with replicaClocks := r.replicaClocks.insert j t, lockTime }
  | sendClock :
      e = .clock →
      Step cfg now e r { r.send .replicas (.time now) with lastClockBroadcast := now }

/-- Sequences of small steps. -/
def Steps (cfg : FlutterConfig) (now : ℕ) (e : FlutterInput) :
    FlutterReplica → FlutterReplica → Prop :=
  Relation.ReflTransGen (Step cfg now e)

lemma setCandidate_of_getElem? {key : CandidateKey} {candidate : Candidate}
    (h : r.candidatePool[key]? = some candidate) : r.setCandidate key candidate = r := by
  rw [setCandidate, OrderedMap.insert_of_getElem? h]

lemma setCandidate_getElem? (r : FlutterReplica) (key : CandidateKey) (candidate : Candidate) :
    (r.setCandidate key candidate).candidatePool[key]? = some candidate :=
  ExtTreeMap.getElem?_insert_self

lemma setCandidate_setCandidate (r : FlutterReplica) (key : CandidateKey) (c c' : Candidate) :
    (r.setCandidate key c).setCandidate key c' = r.setCandidate key c' := by
  refine congrArg (fun pool => { r with candidatePool := pool }) ?_
  refine ExtTreeMap.ext_getElem? fun k => ?_
  show ((r.candidatePool.insert key c).insert key c')[k]? = (r.candidatePool.insert key c')[k]?
  rw [ExtTreeMap.getElem?_insert, ExtTreeMap.getElem?_insert, ExtTreeMap.getElem?_insert]
  split_ifs <;> rfl

/-- A candidate that is not a placeholder is in the pool. -/
lemma getElem?_of_candidateAt_ne {key : CandidateKey}
    (h : r.candidateAt key ≠ .placeholder key) :
    r.candidatePool[key]? = some (r.candidateAt key) := by
  rw [candidateAt, ExtTreeMap.getD_eq_getD_getElem?] at h ⊢
  cases hc : r.candidatePool[key]? with
  | none =>
      rw [hc] at h
      exact absurd rfl h
  | some c => rfl

/-- What a new candidate changes but for the pool. -/
lemma addCandidate_eq (r : FlutterReplica) (now : ℕ) (request : FlutterClientRequest) :
    r.addCandidate now request = { r with
      clientCurrentBets := r.clientCurrentBets.insert request.key.2 request.bet
      candidatePool := (r.addCandidate now request).candidatePool
      sent := r.sent ++ [(.replicas, .observe request),
        (.replicas, .rbcProposal request.key (now ≤ request.bet))] } := by
  rw [addCandidate]
  cases r.clientCurrentBets[request.key.2]? with
  | none => simp only [send, setCandidate, List.append_assoc, List.cons_append, List.nil_append]
  | some bet =>
      simp only [send, setCandidate, eraseCandidate, List.append_assoc, List.cons_append,
        List.nil_append]

/-- A new candidate takes the request, and the place of the one with the current bet. -/
lemma addCandidate_pool {request : FlutterClientRequest} {key : CandidateKey} {c : Candidate}
    (h : (r.addCandidate now request).candidatePool[key]? = some c) :
    (key = request.key ∧ ∃ c₀, (r.candidatePool[key]? = some c₀ ∨ c₀ = .placeholder key) ∧
        c = { c₀ with request := some request }) ∨
      key ≠ request.key ∧ r.candidatePool[key]? = some c ∧
        ∀ bet, r.clientCurrentBets[request.key.2]? = some bet → key ≠ (bet, request.key.2) := by
  obtain ⟨pool, hpool, hold⟩ : ∃ pool : ExtTreeMap CandidateKey Candidate candidateCmp,
      (r.addCandidate now request).candidatePool = pool.insert request.key
        { pool.getD request.key (.placeholder request.key) with request := some request } ∧
      ∀ key c, pool[key]? = some c → r.candidatePool[key]? = some c ∧
        ∀ bet, r.clientCurrentBets[request.key.2]? = some bet → key ≠ (bet, request.key.2) := by
    rw [addCandidate]
    cases r.clientCurrentBets[request.key.2]? with
    | none => exact ⟨r.candidatePool, rfl, fun key c hc => ⟨hc, nofun⟩⟩
    | some bet =>
        refine ⟨r.candidatePool.erase (bet, request.key.2), rfl, fun key c hc => ?_⟩
        obtain ⟨hne, hc⟩ := OrderedMap.getElem?_erase_cases hc
        refine ⟨hc, ?_⟩
        rintro _ ⟨⟩
        exact hne
  rw [hpool] at h
  rcases OrderedMap.getElem?_insert_cases h with ⟨rfl, rfl⟩ | ⟨hne, hc⟩
  · refine .inl ⟨rfl, _, ?_, rfl⟩
    rw [ExtTreeMap.getD_eq_getD_getElem?]
    cases hc : pool[request.key]? with
    | none => exact .inr rfl
    | some c₀ => exact .inl (hold _ _ hc).1
  · exact .inr ⟨hne, hold key c hc⟩

lemma reply_eq {clientId : ℕ} {candidate : Candidate} {accepted : Bool} {result : String}
    (h : r.reply cfg clientId candidate accepted result = .ok r') :
    r' = r.send (.client clientId) (.reply (r.replyTo clientId candidate accepted result)) := by
  rw [reply] at h
  split_ifs at h
  exact (Except.ok.inj h).symm

/-! ### The walk over the pool -/

/-- Several candidates are taken out. -/
lemma foldl_removeCandidate_send (keys : List CandidateKey) (r : FlutterReplica)
    (dst : FlutterDest) (msg : FlutterMsg) :
    keys.foldl removeCandidate (r.send dst msg) = (keys.foldl removeCandidate r).send dst msg := by
  induction keys generalizing r with
  | nil => rfl
  | cons key keys ih => exact ih (r.removeCandidate key)

lemma foldl_removeCandidate_commitSeq (keys : List CandidateKey) (r : FlutterReplica)
    (x : ℕ × ℕ) :
    keys.foldl removeCandidate (r.commitSeq x) = (keys.foldl removeCandidate r).commitSeq x := by
  induction keys generalizing r with
  | nil => rfl
  | cons key keys ih => exact ih (r.removeCandidate key)

lemma foldl_removeCandidate_same (keys : List CandidateKey) (r : FlutterReplica) :
    (keys.foldl removeCandidate r).lockTime = r.lockTime ∧
      (keys.foldl removeCandidate r).replicaId = r.replicaId := by
  induction keys generalizing r with
  | nil => exact ⟨rfl, rfl⟩
  | cons key keys ih => exact ih (r.removeCandidate key)

/-- The candidates that a walk over the pool commits. -/
def due (cfg : FlutterConfig) (r : FlutterReplica) : List (CandidateKey × Candidate) :=
  r.candidatePool.toList.takeWhile (·.2.isDue cfg r.lockTime)

/-- Candidates are committed one after the other. -/
def commitAll (r : FlutterReplica) (l : List (CandidateKey × Candidate)) : FlutterReplica :=
  l.foldl (fun r x => r.commit x.1 x.2) r

/-- The walk over a list of candidates, all of which it accepts as far as it gets. -/
lemma commitLoop_eq {l : List (CandidateKey × Candidate)} {remove remove' : List CandidateKey}
    (h : commitLoop cfg l remove r = .ok (remove', r')) :
    remove'.foldl removeCandidate r' =
        (remove.foldl removeCandidate r).commitAll (l.takeWhile (·.2.isDue cfg r.lockTime)) ∧
      ∀ x ∈ l.takeWhile (·.2.isDue cfg r.lockTime), x.2.Accepted cfg := by
  induction l generalizing remove r with
  | nil =>
      cases h
      exact ⟨rfl, nofun⟩
  | cons x rest ih =>
      obtain ⟨key, candidate⟩ := x
      rw [commitLoop] at h
      by_cases hlock : r.lockTime ≤ candidate.bet
      · rw [if_pos hlock] at h
        cases h
        rw [List.takeWhile_cons_of_neg (by simp [Candidate.isDue, hlock.not_gt])]
        exact ⟨rfl, nofun⟩
      by_cases hrequest : candidate.request.isNone = true
      · rw [if_neg hlock, if_pos hrequest] at h
        cases h
        rw [List.takeWhile_cons_of_neg
          (by simp [Candidate.isDue, Option.isNone_iff_eq_none.mp hrequest])]
        exact ⟨rfl, nofun⟩
      by_cases hcons : (candidate.hasFastConsensus cfg || candidate.slowValueReceived) = true
      · rw [if_neg hlock, if_neg hrequest, if_pos hcons] at h
        split_ifs at h with hdiffer hrejected
        obtain ⟨r₁, hreply, h⟩ := bind_eq_ok.mp h
        have hacc : candidate.accepted cfg = true := by simpa using hrejected
        have hid : (r.commitSeq (candidate.clientId, candidate.clientSeq)).replicaId =
            ((remove.foldl removeCandidate r).commitSeq
              (candidate.clientId, candidate.clientSeq)).replicaId :=
          (foldl_removeCandidate_same remove r).2.symm
        have hcommit : (remove ++ [key]).foldl removeCandidate r₁ =
            (remove.foldl removeCandidate r).commit key candidate := by
          rw [reply_eq hreply, List.foldl_append, foldl_removeCandidate_send,
            foldl_removeCandidate_commitSeq, hacc, commit, List.foldl_cons, List.foldl_nil, replyTo,
            replyTo, hid]
        have hlockTime : r₁.lockTime = r.lockTime := by
          rw [reply_eq hreply]
          rfl
        obtain ⟨hrest, haccepted⟩ := ih h
        rw [hcommit, hlockTime] at hrest
        rw [hlockTime] at haccepted
        have hdue : candidate.isDue cfg r.lockTime = true := by
          simp [Candidate.isDue, not_le.mp hlock, Option.isSome_iff_ne_none,
            ← Option.isNone_iff_eq_none, hrequest, hcons]
        rw [List.takeWhile_cons, if_pos hdue]
        refine ⟨hrest, fun x hx => ?_⟩
        rcases List.mem_cons.mp hx with rfl | hx
        · exact Candidate.accepted_of_consensus hcons hacc
        · exact haccepted x hx
      · rw [if_neg hlock, if_neg hrequest, if_neg hcons] at h
        cases h
        rw [List.takeWhile_cons_of_neg (by simp [Candidate.isDue, hcons])]
        exact ⟨rfl, nofun⟩

/-- **The walk over the pool** commits the candidates that are due, which it has accepted. -/
lemma checkCandidatesForCommit_eq (h : r.checkCandidatesForCommit cfg = .ok r') :
    r' = r.commitAll (r.due cfg) ∧ ∀ x ∈ r.due cfg, x.2.Accepted cfg := by
  obtain ⟨⟨remove, r₁⟩, hloop, h⟩ := bind_eq_ok.mp h
  cases pure_eq_ok.mp h
  exact commitLoop_eq hloop

/-- The first candidates of the pool are taken out of it one after the other. -/
lemma commitAll_steps (he : ∀ k, e ≠ .message leaderId (.rbcSlowValue k false))
    {l l' : List (CandidateKey × Candidate)} (hpool : r.candidatePool.toList = l ++ l')
    (hl : ∀ x ∈ l, x.2.bet < r.lockTime ∧ x.2.request.isSome = true ∧ x.2.Accepted cfg) :
    Steps cfg now e r (r.commitAll l) := by
  induction l generalizing r with
  | nil => exact .refl
  | cons x l ih =>
      obtain ⟨key, candidate⟩ := x
      obtain ⟨hlock, hrequest, hacc⟩ := hl _ List.mem_cons_self
      have hfirst : r.candidatePool.toList.head? = some (key, candidate) := by
        rw [hpool]
        rfl
      have hrest : (r.commit key candidate).candidatePool.toList = l ++ l' :=
        OrderedMap.toList_erase_first hpool
      refine .head (.commit he hfirst hlock hrequest hacc) (ih hrest fun y hy => ?_)
      exact hl y (List.mem_cons_of_mem _ hy)

lemma checkCandidatesForCommit_steps (he : ∀ k, e ≠ .message leaderId (.rbcSlowValue k false))
    (h : r.checkCandidatesForCommit cfg = .ok r') : Steps cfg now e r r' := by
  obtain ⟨rfl, hacc⟩ := checkCandidatesForCommit_eq h
  refine commitAll_steps he List.takeWhile_append_dropWhile.symm fun x hx => ?_
  have hdue := List.mem_takeWhile_imp hx
  simp only [Candidate.isDue, Bool.and_eq_true, decide_eq_true_eq] at hdue
  exact ⟨hdue.1.1, hdue.1.2, hacc x hx⟩

/-! ### The handlers -/

lemma initializeCandidate_cases (r : FlutterReplica) (now : ℕ) (request : FlutterClientRequest) :
    r.initializeCandidate now request = r ∨
      r.isCommitted request.key.2 = false ∧
        (∀ bet, r.clientCurrentBets[request.key.2]? = some bet → bet < request.bet) ∧
        r.initializeCandidate now request = r.addCandidate now request := by
  rw [initializeCandidate]
  split_ifs with hcommitted hbet
  · exact .inl rfl
  · exact .inl rfl
  · refine .inr ⟨Bool.eq_false_iff.mpr hcommitted, fun bet hbet' => ?_, rfl⟩
    rw [hbet'] at hbet
    simpa using hbet

/-- The vote of a replica about a key is counted. -/
structure Counts (r : FlutterReplica) (j : ℕ) (key : CandidateKey) : Prop where
  committed : r.isCommitted key.2 = false
  stale : r.isStale key = false
  voted : j ∉ (r.candidateAt key).votedReplicas

/-- The candidate under a key with the vote of a replica. -/
def voteAt (r : FlutterReplica) (j : ℕ) (key : CandidateKey) (accept : Bool) : Candidate :=
  (r.candidateAt key).recordVote j accept

/-- **What a vote does**: nothing, or it is recorded; with it the pool may be walked over, the
candidate rejected, or the slow path taken. -/
lemma processRBCProposal_cases {j : ℕ} (h : r.processRBCProposal cfg j key accept = .ok r') :
    r' = r ∨ r.Counts j key ∧
      (r' = r.setCandidate key (r.voteAt j key accept) ∨
        (cfg.superQuorumSize ≤ (r.voteAt j key accept).acceptVotes ∧
          (r.setCandidate key (r.voteAt j key accept)).isFirst key = true ∧
          (r.setCandidate key (r.voteAt j key accept)).checkCandidatesForCommit cfg = .ok r') ∨
        (¬cfg.superQuorumSize ≤ (r.voteAt j key accept).acceptVotes ∧
          cfg.superQuorumSize ≤ (r.voteAt j key accept).rejectVotes ∧
          r' = (r.setCandidate key (r.voteAt j key accept)).reject key (r.voteAt j key accept)) ∨
        (r.voteAt j key accept).acceptVotes + (r.voteAt j key accept).rejectVotes =
            cfg.superQuorumSize ∧
          r' = ((r.setCandidate key (r.voteAt j key accept)).setCandidate key
            { r.voteAt j key accept with slowPathInitiated := true }).send (.replica leaderId)
            (.rbcSlowProposal key ((r.voteAt j key accept).rejectVotes <
              (r.voteAt j key accept).acceptVotes))) := by
  rw [processRBCProposal] at h
  by_cases hcommitted : r.isCommitted key.2 = true
  · rw [if_pos hcommitted] at h
    cases h
    exact .inl rfl
  by_cases hstale : r.isStale key = true
  · rw [if_neg hcommitted, if_pos hstale] at h
    cases h
    exact .inl rfl
  rw [if_neg hcommitted, if_neg hstale] at h
  have hat : r.candidatePool.getD key (.placeholder key) = r.candidateAt key := rfl
  have hvote : (r.candidateAt key).recordVote j accept = r.voteAt j key accept := rfl
  rw [hat] at h
  dsimp only at h
  by_cases hvoted : j ∈ (r.candidateAt key).votedReplicas
  · rw [if_pos hvoted] at h
    cases h
    have hget : r.candidatePool[key]? = some (r.candidateAt key) := by
      refine getElem?_of_candidateAt_ne fun heq => ?_
      rw [heq] at hvoted
      exact absurd hvoted (Finset.notMem_empty j)
    exact .inl (setCandidate_of_getElem? hget)
  rw [if_neg hvoted, hvote] at h
  refine .inr ⟨⟨Bool.eq_false_iff.mpr hcommitted, Bool.eq_false_iff.mpr hstale, hvoted⟩, ?_⟩
  split_ifs at h with haccepted hfirst hrejected hslow
  · exact .inr (.inl ⟨haccepted, hfirst, h⟩)
  · cases h
    exact .inl rfl
  · obtain ⟨r₁, hreply, h⟩ := bind_eq_ok.mp h
    cases pure_eq_ok.mp h
    rw [reply_eq hreply]
    exact .inr (.inr (.inl ⟨haccepted, hrejected, rfl⟩))
  · cases h
    exact .inr (.inr (.inr ⟨hslow.1, rfl⟩))
  · cases h
    exact .inl rfl

/-- **What a slow proposal does**: nothing, or the leader records it, and may decide. -/
lemma processRBCSlowProposal_cases (cfg : FlutterConfig) (r : FlutterReplica) (j : ℕ)
    (key : CandidateKey) (accept : Bool) :
    r.processRBCSlowProposal cfg j key accept = r ∨
      (r.replicaId = leaderId ∧ r.isCommitted key.2 = false ∧ r.isStale key = false ∧
        (r.candidateAt key).slowValueSent = false ∧
        ∃ candidate : Candidate, candidate = { r.candidateAt key with
            slowProposals := (r.candidateAt key).slowProposals.insert j accept } ∧
          (r.processRBCSlowProposal cfg j key accept = r.setCandidate key candidate ∨
            ∃ decision, candidate.slowDecision cfg = some decision ∧
              r.processRBCSlowProposal cfg j key accept =
                (r.setCandidate key { candidate with slowValueSent := true }).send .replicas
                  (.rbcSlowValue key decision))) := by
  rw [processRBCSlowProposal]
  by_cases hleader : r.replicaId ≠ leaderId
  · rw [if_pos hleader]
    exact .inl rfl
  by_cases hcommitted : r.isCommitted key.2 = true
  · rw [if_neg hleader, if_pos hcommitted]
    exact .inl rfl
  by_cases hstale : r.isStale key = true
  · rw [if_neg hleader, if_neg hcommitted, if_pos hstale]
    exact .inl rfl
  rw [if_neg hleader, if_neg hcommitted, if_neg hstale]
  have hat : r.candidatePool.getD key (.placeholder key) = r.candidateAt key := rfl
  rw [hat]
  dsimp only
  by_cases hsent : (r.candidateAt key).slowValueSent = true
  · have hget : r.candidatePool[key]? = some (r.candidateAt key) := by
      refine getElem?_of_candidateAt_ne fun heq => ?_
      rw [heq] at hsent
      cases hsent
    rw [if_pos hsent]
    exact .inl (setCandidate_of_getElem? hget)
  rw [if_neg hsent]
  refine .inr ⟨not_not.mp hleader, Bool.eq_false_iff.mpr hcommitted, Bool.eq_false_iff.mpr hstale,
    Bool.eq_false_iff.mpr hsent, _, rfl, ?_⟩
  split
  · exact .inl rfl
  · rename_i decision hdecision
    exact .inr ⟨decision, hdecision, rfl⟩

/-- **What the leader's value does**: nothing, or it is recorded; with it the pool may be walked
over, or the candidate rejected. -/
lemma processRBCSlowValue_cases {j : ℕ} (h : r.processRBCSlowValue cfg j key accept = .ok r') :
    r' = r ∨ j = leaderId ∧ ∃ candidate candidate' : Candidate,
      r.candidatePool[key]? = some candidate ∧
      candidate' = { candidate with slowAccepted := accept, slowValueReceived := true } ∧
      ((accept = true ∧ r' = r.setCandidate key candidate') ∨
        (accept = true ∧ (r.setCandidate key candidate').isFirst key = true ∧
          (r.setCandidate key candidate').checkCandidatesForCommit cfg = .ok r') ∨
        (accept = false ∧ r' = (r.setCandidate key candidate').reject key candidate')) := by
  rw [processRBCSlowValue] at h
  by_cases hleader : j ≠ leaderId
  · rw [if_pos hleader] at h
    cases h
    exact .inl rfl
  rw [if_neg hleader] at h
  split at h
  · cases h
    exact .inl rfl
  rename_i candidate hc
  dsimp only at h
  refine .inr ⟨not_not.mp hleader, candidate, _, hc, rfl, ?_⟩
  split_ifs at h with haccept hfirst
  · exact .inr (.inl ⟨haccept, hfirst, h⟩)
  · cases h
    exact .inl ⟨haccept, rfl⟩
  · obtain ⟨r₁, hreply, h⟩ := bind_eq_ok.mp h
    cases pure_eq_ok.mp h
    rw [reply_eq hreply]
    exact .inr (.inr ⟨Bool.eq_false_iff.mpr haccept, rfl⟩)

/-- The replica with one more recorded clock. -/
def recordClock (r : FlutterReplica) (j t : ℕ) : FlutterReplica :=
  { r with replicaClocks := r.replicaClocks.insert j t }

/-- **What a clock does**: it is recorded, the lock time is that of the clocks, and if it is later
the pool is walked over. -/
lemma processFlutterTime_cases {j t : ℕ} (h : r.processFlutterTime cfg j t = .ok r') :
    ∃ lockTime, SetsClock cfg r (r.recordClock j t) lockTime ∧
      (r' = { r.recordClock j t with lockTime } ∨ r.lockTime < lockTime ∧
        checkCandidatesForCommit cfg { r.recordClock j t with lockTime } = .ok r') := by
  have hclock : { r with replicaClocks := r.replicaClocks.insert j t } = r.recordClock j t := rfl
  rw [processFlutterTime, hclock, updateLockTime] at h
  by_cases hfew : (r.recordClock j t).replicaClocks.size < cfg.superQuorumSize
  · rw [if_pos hfew] at h
    cases h
    exact ⟨r.lockTime, ⟨fun _ => rfl, fun hle => absurd hfew hle.not_gt⟩, .inl rfl⟩
  rw [if_neg hfew] at h
  split at h
  · cases h
  rename_i lockTime hlock
  refine ⟨lockTime, ⟨fun hlt => absurd hlt hfew, fun _ => hlock⟩, ?_⟩
  split_ifs at h with hlater
  · exact .inr ⟨hlater, h⟩
  · cases h
    exact .inl rfl

/-! ### The handlers in small steps -/

lemma initializeCandidate_steps {request : FlutterClientRequest}
    (he : e = .request request ∨ ∃ j, e = .message j (.observe request)) :
    Steps cfg now e r (r.initializeCandidate now request) := by
  rcases initializeCandidate_cases r now request with hr | ⟨hcommitted, hbet, hr⟩
  · rw [hr]
    exact .refl
  · rw [hr]
    exact .single (.propose he hcommitted hbet)

lemma processRBCProposal_steps {j : ℕ} {key : CandidateKey} {accept : Bool}
    (he : e = .message j (.rbcProposal key accept))
    (h : r.processRBCProposal cfg j key accept = .ok r') : Steps cfg now e r r' := by
  rcases processRBCProposal_cases h with rfl | ⟨hcounts, hcases⟩
  · exact .refl
  have hvote : Steps cfg now e r (r.setCandidate key (r.voteAt j key accept)) :=
    .single (.vote he hcounts.committed hcounts.stale rfl hcounts.voted)
  have hget := setCandidate_getElem? r key (r.voteAt j key accept)
  rcases hcases with rfl | ⟨-, -, hcheck⟩ | ⟨-, hrejected, rfl⟩ | ⟨hslow, rfl⟩
  · exact hvote
  · exact hvote.trans (checkCandidatesForCommit_steps (by simp [he]) hcheck)
  · exact hvote.tail (.reject hget (.inl hrejected)
      (.inl ⟨⟨j, accept, he⟩, hrejected, hcounts.stale⟩))
  · exact hvote.tail (.slowPath hget hslow)

lemma processRBCSlowProposal_steps {j : ℕ} {key : CandidateKey} {accept : Bool}
    (he : e = .message j (.rbcSlowProposal key accept)) :
    Steps cfg now e r (r.processRBCSlowProposal cfg j key accept) := by
  rcases processRBCSlowProposal_cases cfg r j key accept with
    hr | ⟨hleader, hcommitted, hstale, hsent, candidate, rfl, hr⟩
  · rw [hr]
    exact .refl
  have hrecord : Steps cfg now e r (r.setCandidate key { r.candidateAt key with
      slowProposals := (r.candidateAt key).slowProposals.insert j accept }) :=
    .single (.slowProposal he hleader hcommitted hstale rfl hsent)
  rcases hr with hr | ⟨decision, hdecision, hr⟩
  · rw [hr]
    exact hrecord
  · have hget := setCandidate_getElem? r key { r.candidateAt key with
      slowProposals := (r.candidateAt key).slowProposals.insert j accept }
    have hstep := hrecord.tail (.slowDecide hleader hcommitted hstale hget hsent hdecision)
    rw [setCandidate_setCandidate] at hstep
    rw [hr]
    exact hstep

lemma processRBCSlowValue_steps {j : ℕ} {key : CandidateKey} {accept : Bool}
    (he : e = .message j (.rbcSlowValue key accept))
    (h : r.processRBCSlowValue cfg j key accept = .ok r') : Steps cfg now e r r' := by
  rcases processRBCSlowValue_cases h with rfl | ⟨rfl, candidate, candidate', hc, rfl, hcases⟩
  · exact .refl
  have hvalue : Steps cfg now e r (r.setCandidate key { candidate with
      slowAccepted := accept, slowValueReceived := true }) := .single (.slowValue he hc)
  rcases hcases with ⟨-, rfl⟩ | ⟨rfl, -, hcheck⟩ | ⟨rfl, rfl⟩
  · exact hvalue
  · exact hvalue.trans (checkCandidatesForCommit_steps (by simp [he]) hcheck)
  · exact hvalue.tail (.reject (setCandidate_getElem? r key _) (.inr ⟨rfl, rfl⟩) (.inr he))

lemma processFlutterTime_steps {j t : ℕ} (he : e = .message j (.time t))
    (h : r.processFlutterTime cfg j t = .ok r') : Steps cfg now e r r' := by
  obtain ⟨lockTime, hset, hcases⟩ := processFlutterTime_cases h
  have hclock : Steps cfg now e r { r.recordClock j t with lockTime } :=
    .single (.setClock he hset)
  rcases hcases with rfl | ⟨-, hcheck⟩
  · exact hclock
  · exact hclock.trans (checkCandidatesForCommit_steps (by simp [he]) hcheck)

lemma broadcastClock_steps : Steps cfg now .clock r (r.broadcastClock cfg now) := by
  rw [broadcastClock]
  split_ifs
  · exact .refl
  · exact .single (.sendClock rfl)

/-- **What an event does to a replica** is a sequence of small steps. -/
theorem handle_steps (h : r.handle cfg now e = .ok r') : Steps cfg now e r r' := by
  cases e with
  | request request =>
      cases h
      exact initializeCandidate_steps (.inl rfl)
  | message j msg =>
      cases msg with
      | time t => exact processFlutterTime_steps rfl h
      | observe request =>
          cases h
          exact initializeCandidate_steps (.inr ⟨j, rfl⟩)
      | rbcProposal key accept => exact processRBCProposal_steps rfl h
      | rbcSlowProposal key accept =>
          cases h
          exact processRBCSlowProposal_steps rfl
      | rbcSlowValue key accept => exact processRBCSlowValue_steps rfl h
      | reply reply =>
          cases h
          exact .refl
  | clock =>
      cases h
      exact broadcastClock_steps

/-! ### What a replica has got past -/

/-- The request has been committed, or there is a bet that is as high. -/
def Seen (r : FlutterReplica) (key : CandidateKey) : Prop :=
  r.isCommitted key.2 = true ∨ ∃ bet, r.clientCurrentBets[key.2]? = some bet ∧ key.1 ≤ bet

/-- What is neither committed nor stale, but has been seen, has the current bet. -/
lemma Seen.current (h : r.Seen key) (hcommitted : r.isCommitted key.2 = false)
    (hstale : r.isStale key = false) : r.clientCurrentBets[key.2]? = some key.1 := by
  rcases h with h | ⟨bet, hbet, hle⟩
  · rw [hcommitted] at h
    cases h
  · rw [isStale, hbet] at hstale
    have hge : bet ≤ key.1 := by simpa using hstale
    rw [hbet, hle.antisymm hge]

lemma seen_addCandidate {request : FlutterClientRequest} :
    (r.addCandidate now request).Seen request.key := by
  rw [addCandidate_eq]
  exact .inr ⟨request.bet, ExtTreeMap.getElem?_insert_self, le_rfl⟩

lemma Seen.addCandidate {request : FlutterClientRequest} (h : r.Seen key)
    (hbet : ∀ bet, r.clientCurrentBets[request.key.2]? = some bet → bet < request.bet) :
    (r.addCandidate now request).Seen key := by
  rw [addCandidate_eq]
  refine h.imp_right fun ⟨bet, hget, hle⟩ => ?_
  by_cases hkey : key.2 = request.key.2
  · refine ⟨request.bet, ?_, hle.trans (hbet bet (hkey ▸ hget)).le⟩
    rw [hkey]
    exact ExtTreeMap.getElem?_insert_self
  · refine ⟨bet, ?_, hle⟩
    rw [← hget]
    exact ExtTreeMap.getElem?_insert.trans
      (if_neg fun heq => hkey (Std.LawfulEqCmp.compare_eq_iff_eq.mp heq).symm)

lemma Seen.reject {candidate : Candidate} (h : r.Seen key')
    (hlt : r.clientCurrentBets.getD key.2 0 < 2 ^ 64 - 1) : (r.reject key candidate).Seen key' := by
  refine h.imp_right fun ⟨bet, hget, hle⟩ => ?_
  by_cases hkey : key'.2 = key.2
  · have hbet : r.clientCurrentBets.getD key.2 0 = bet := by
      rw [← hkey, ExtTreeMap.getD_eq_getD_getElem?, hget]
      rfl
    refine ⟨(r.clientCurrentBets.getD key.2 0 + 1) % 2 ^ 64, ?_, ?_⟩
    · rw [hkey]
      exact ExtTreeMap.getElem?_insert_self
    · rw [Nat.mod_eq_of_lt (by omega)]
      omega
  · refine ⟨bet, ?_, hle⟩
    rw [← hget]
    exact ExtTreeMap.getElem?_insert.trans
      (if_neg fun heq => hkey (Std.LawfulEqCmp.compare_eq_iff_eq.mp heq).symm)

/-- A commit adds the request of the candidate and nothing else. -/
lemma isCommitted_commit {candidate : Candidate} {x : ℕ × ℕ} :
    (r.commit key candidate).isCommitted x = true ↔
      r.isCommitted x = true ∨ x = (candidate.clientId, candidate.clientSeq) := by
  show ((r.clientSeqTrackers.insert candidate.clientId
    ((r.clientSeqTrackers.getD candidate.clientId {}).commit candidate.clientSeq)).getD
      x.1 {}).isCommitted x.2 = true ↔ _
  rw [ExtTreeMap.getD_insert]
  split_ifs with hclient
  · have heq : candidate.clientId = x.1 := Std.LawfulEqCmp.compare_eq_iff_eq.mp hclient
    rw [ClientSequenceTracker.isCommitted_commit, isCommitted, heq, Prod.ext_iff]
    simp
  · refine (or_iff_left_of_imp ?_).symm
    rintro rfl
    exact absurd Std.ReflCmp.compare_self hclient

lemma Seen.commit {candidate : Candidate} (h : r.Seen key') (hkey : candidate.key = key) :
    (r.commit key candidate).Seen key' := by
  by_cases heq : key'.2 = key.2
  · refine .inl (isCommitted_commit.mpr (.inr ?_))
    rw [heq, ← hkey]
    rfl
  · rcases h with h | ⟨bet, hget, hle⟩
    · exact .inl (isCommitted_commit.mpr (.inl h))
    · refine .inr ⟨bet, ?_, hle⟩
      rw [← hget]
      exact OrderedMap.getElem?_erase_of_ne heq

/-- What a replica votes for has not been seen. -/
lemma not_seen {request : FlutterClientRequest}
    (hcommitted : r.isCommitted request.key.2 = false)
    (hbet : ∀ bet, r.clientCurrentBets[request.key.2]? = some bet → bet < request.bet) :
    ¬r.Seen request.key := by
  rintro (h | ⟨bet, hget, hle⟩)
  · rw [hcommitted] at h
    cases h
  · exact absurd (hbet bet hget) (not_lt.mpr hle)

/-! ### What a step changes -/

/-- A replica only sends more. -/
lemma Step.grows (hstep : Step cfg now e r r') :
    r'.replicaId = r.replicaId ∧ r.sent <+: r'.sent := by
  cases hstep with
  | propose =>
      rw [addCandidate_eq]
      exact ⟨rfl, List.prefix_append _ _⟩
  | vote | slowProposal | slowValue | setClock => exact ⟨rfl, List.prefix_rfl⟩
  | slowPath | reject | slowDecide | commit | sendClock => exact ⟨rfl, List.prefix_append _ _⟩

lemma Steps.grows (hsteps : Steps cfg now e r r') :
    r'.replicaId = r.replicaId ∧ r.sent <+: r'.sent := by
  induction hsteps with
  | refl => exact ⟨rfl, List.prefix_rfl⟩
  | tail _ hstep ih => exact ⟨hstep.grows.1.trans ih.1, ih.2.trans hstep.grows.2⟩

/-- Another message has been sent. -/
lemma mem_send {dst : FlutterDest} {msg : FlutterMsg} {x : FlutterDest × FlutterMsg}
    (h : x ∈ (r.send dst msg).sent) : x ∈ r.sent ∨ x = (dst, msg) :=
  (List.mem_append.mp h).imp_right List.mem_singleton.mp

/-- The candidate under a key is in the pool, or a placeholder. -/
lemma candidateAt_cases (r : FlutterReplica) (key : CandidateKey) :
    r.candidatePool[key]? = some (r.candidateAt key) ∨ r.candidateAt key = .placeholder key := by
  by_cases h : r.candidateAt key = .placeholder key
  · exact .inr h
  · exact .inl (getElem?_of_candidateAt_ne h)

/-- The votes that a step casts. -/
lemma Step.votes (hstep : Step cfg now e r r') {d : FlutterDest}
    (hx : (d, .rbcProposal key accept) ∈ r'.sent) :
    (d, .rbcProposal key accept) ∈ r.sent ∨
      ¬r.Seen key ∧ r'.Seen key ∧ accept = decide (now ≤ key.1) := by
  cases hstep with
  | @propose request _ hcommitted hbet =>
      rw [addCandidate_eq] at hx
      refine (List.mem_append.mp hx).imp_right fun hx => ?_
      have hvote := List.mem_singleton.mp ((List.mem_cons.mp hx).resolve_left (by simp))
      have haccept : accept = decide (now ≤ request.bet) := by injections
      have hkey : key = request.key := by injections
      rw [hkey]
      exact ⟨not_seen hcommitted hbet, seen_addCandidate, haccept⟩
  | vote | slowProposal | slowValue | setClock => exact .inl hx
  | slowPath | slowDecide | reject | commit | sendClock =>
      exact .inl ((mem_send hx).resolve_right (by simp))

/-! ### One replica -/

/-- The runs of one replica, which takes any events at any times on its clock. -/
def system (cfg : FlutterConfig) : Transition.System FlutterReplica (ℕ × FlutterInput) where
  init r := ∃ replicaId t₀ t₁, r = .fresh replicaId t₀ t₁
  step r e r' := r.handle cfg e.1 e.2 = .ok r'

end FlutterReplica

end DomBft
