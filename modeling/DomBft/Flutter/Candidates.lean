import DomBft.Flutter.Cluster
import DomBft.Flutter.Step

/-!
The candidates that a replica of Flutter holds, over every sequence of events.

* `HasRejected`, `Final`: **what a decision means for the pool**.  A candidate in it is neither
  committed nor stale, and none has a bet that is as low as a rejected one of its request.
* `LiveOnly`: the invariant behind it.  A rejected candidate is committed or stale for good.
* `ClearBelow`, `AtCurrent`, `CommitsAlone`: what has to hold when a request is taken, a candidate
  is rejected and the pool is walked over, so that the invariant is kept.
* `handle_liveOnly`: one event; `decisions_final`: every run.
-/

namespace DomBft

open Std (ExtTreeMap)
open Fallible Transition

namespace FlutterReplica

variable {cfg : FlutterConfig} {now : ℕ} {e : FlutterInput} {r r' : FlutterReplica}
  {key key' : CandidateKey} {candidate c : Candidate}

/-! ### Decisions -/

/-- The replica has told a client that it rejects a candidate. -/
def HasRejected (r : FlutterReplica) (key : CandidateKey) : Prop :=
  ∃ dst reply, (dst, FlutterMsg.reply reply) ∈ r.sent ∧ reply.accepted = false ∧ reply.key = key

/-- What the pool may hold. -/
structure Final (r : FlutterReplica) : Prop where
  live : ∀ (key : CandidateKey) (c : Candidate), r.candidatePool[key]? = some c →
    r.isCommitted key.2 = false ∧
      ∀ bet, r.clientCurrentBets[key.2]? = some bet → bet ≤ key.1
  rejected : ∀ (key key' : CandidateKey) (c : Candidate), r.HasRejected key →
    r.candidatePool[key']? = some c → key'.2 = key.2 → key.1 < key'.1

/-- The pool holds what is neither committed nor stale, and all that has been rejected is one of
the two. -/
structure LiveOnly (r : FlutterReplica) : Prop where
  keyed : ∀ (key : CandidateKey) (c : Candidate), r.candidatePool[key]? = some c → c.key = key
  uncommitted : ∀ (key : CandidateKey) (c : Candidate), r.candidatePool[key]? = some c →
    r.isCommitted key.2 = false
  current : ∀ (key : CandidateKey) (c : Candidate), r.candidatePool[key]? = some c →
    r.isStale key = false
  rejected : ∀ key, r.HasRejected key → r.isCommitted key.2 = true ∨ r.isStale key = true

lemma isStale_eq_true : r.isStale key = true ↔
    ∃ bet, r.clientCurrentBets[key.2]? = some bet ∧ key.1 < bet := by
  rw [isStale]
  cases r.clientCurrentBets[key.2]? with
  | none => simp
  | some bet => simp

lemma isStale_eq_false : r.isStale key = false ↔
    ∀ bet, r.clientCurrentBets[key.2]? = some bet → bet ≤ key.1 := by
  rw [isStale]
  cases r.clientCurrentBets[key.2]? with
  | none => simp
  | some bet => simp

/-- The invariant says what decisions mean. -/
lemma LiveOnly.final (h : r.LiveOnly) : r.Final where
  live key c hc := ⟨h.uncommitted key c hc, isStale_eq_false.mp (h.current key c hc)⟩
  rejected key key' c hrej hc hkey := by
    rcases h.rejected key hrej with hcommitted | hstale
    · rw [← hkey, h.uncommitted key' c hc] at hcommitted
      cases hcommitted
    · obtain ⟨bet, hbet, hlt⟩ := isStale_eq_true.mp hstale
      exact lt_of_lt_of_le hlt (isStale_eq_false.mp (h.current key' c hc) bet (hkey ▸ hbet))

/-! ### What is sent and recorded -/

lemma hasRejected_send {dst : FlutterDest} {msg : FlutterMsg}
    (h : (r.send dst msg).HasRejected key) :
    r.HasRejected key ∨ ∃ reply, msg = .reply reply ∧ reply.accepted = false ∧ reply.key = key := by
  obtain ⟨d, reply, hmem, hreply⟩ := h
  rcases mem_send hmem with hold | hnew
  · exact .inl ⟨d, reply, hold, hreply⟩
  · exact .inr ⟨reply, (Prod.ext_iff.mp hnew).2.symm, hreply⟩

/-- What is sent, but for a rejection, changes nothing. -/
lemma LiveOnly.send (h : r.LiveOnly) {dst : FlutterDest} {msg : FlutterMsg}
    (hmsg : ∀ reply, msg = .reply reply → reply.accepted = true) : (r.send dst msg).LiveOnly where
  keyed := h.keyed
  uncommitted := h.uncommitted
  current := h.current
  rejected key hrej := by
    rcases hasRejected_send hrej with hold | ⟨reply, rfl, hreject, -⟩
    · exact h.rejected key hold
    · rw [hmsg reply rfl] at hreject
      cases hreject

/-- A candidate that is neither committed nor stale is set. -/
lemma LiveOnly.setCandidate (h : r.LiveOnly) (hkey : c.key = key)
    (hcommitted : r.isCommitted key.2 = false) (hstale : r.isStale key = false) :
    (r.setCandidate key c).LiveOnly where
  keyed key' c' hc' := by
    rcases OrderedMap.getElem?_insert_cases hc' with ⟨rfl, rfl⟩ | ⟨-, hc'⟩
    · exact hkey
    · exact h.keyed key' c' hc'
  uncommitted key' c' hc' := by
    rcases OrderedMap.getElem?_insert_cases hc' with ⟨rfl, -⟩ | ⟨-, hc'⟩
    · exact hcommitted
    · exact h.uncommitted key' c' hc'
  current key' c' hc' := by
    rcases OrderedMap.getElem?_insert_cases hc' with ⟨rfl, -⟩ | ⟨-, hc'⟩
    · exact hstale
    · exact h.current key' c' hc'
  rejected := h.rejected

/-- The candidate under a key has that key. -/
lemma LiveOnly.key_candidateAt (h : r.LiveOnly) (key : CandidateKey) :
    (r.candidateAt key).key = key := by
  rcases candidateAt_cases r key with hget | hplaceholder
  · exact h.keyed key _ hget
  · rw [hplaceholder]
    rfl

/-! ### Requests -/

/-- If the request is taken, the candidates of a lower bet for it are those that it replaces. -/
def ClearBelow (r : FlutterReplica) (request : FlutterClientRequest) : Prop :=
  r.isCommitted request.key.2 = false →
  (∀ bet ∈ r.clientCurrentBets[request.key.2]?, bet < request.bet) →
  ∀ x ∈ r.candidatePool.toList, x.1.2 = request.key.2 → x.1.1 < request.bet →
    r.clientCurrentBets[request.key.2]? = some x.1.1

instance (r : FlutterReplica) (request : FlutterClientRequest) :
    Decidable (r.ClearBelow request) :=
  inferInstanceAs (Decidable (_ → _ → _))

lemma LiveOnly.initializeCandidate (h : r.LiveOnly) {request : FlutterClientRequest}
    (hclear : r.ClearBelow request) : (r.initializeCandidate now request).LiveOnly := by
  rcases initializeCandidate_cases r now request with hr | ⟨hcommitted, hbet, hr⟩
  · rw [hr]
    exact h
  rw [hr]
  have hbets : (r.addCandidate now request).clientCurrentBets =
      r.clientCurrentBets.insert request.key.2 request.bet := by rw [addCandidate_eq]
  have hsame : ∀ x, (r.addCandidate now request).isCommitted x = r.isCommitted x := by
    intro x
    rw [addCandidate_eq]
    rfl
  have hget : (r.addCandidate now request).clientCurrentBets[request.key.2]? =
      some request.bet := by
    rw [hbets]
    exact ExtTreeMap.getElem?_insert_self
  have hother : ∀ x, x ≠ request.key.2 →
      (r.addCandidate now request).clientCurrentBets[x]? = r.clientCurrentBets[x]? := by
    intro x hx
    rw [hbets]
    exact OrderedMap.getElem?_insert_of_ne hx
  constructor
  · intro key c hc
    rcases addCandidate_pool hc with ⟨rfl, c₀, hc₀ | rfl, rfl⟩ | ⟨-, hold, -⟩
    · exact h.keyed _ c₀ hc₀
    · rfl
    · exact h.keyed key c hold
  · intro key c hc
    rw [hsame]
    rcases addCandidate_pool hc with ⟨rfl, -⟩ | ⟨-, hold, -⟩
    · exact hcommitted
    · exact h.uncommitted key c hold
  · intro key c hc
    refine isStale_eq_false.mpr fun bet hget' => ?_
    by_cases hx : key.2 = request.key.2
    · rw [hx, hget] at hget'
      obtain rfl := Option.some.inj hget'
      rcases addCandidate_pool hc with ⟨rfl, -⟩ | ⟨-, hold, hreplaced⟩
      · exact le_rfl
      · by_contra hlt
        have hcur := hclear hcommitted hbet (key, c)
          (ExtTreeMap.mem_toList_iff_getElem?_eq_some.mpr hold) hx (not_le.mp hlt)
        exact hreplaced key.1 hcur (Prod.ext rfl hx)
    · rw [hother key.2 hx] at hget'
      rcases addCandidate_pool hc with ⟨rfl, -⟩ | ⟨-, hold, -⟩
      · exact absurd rfl hx
      · exact isStale_eq_false.mp (h.current key c hold) bet hget'
  · intro key hrej
    rw [hsame]
    have hold : r.HasRejected key := by
      obtain ⟨dst, reply, hmem, hreply⟩ := hrej
      rw [addCandidate_eq] at hmem
      exact ⟨dst, reply, (List.mem_append.mp hmem).resolve_right (by simp), hreply⟩
    refine (h.rejected key hold).imp_right fun hstale => ?_
    obtain ⟨bet, hget', hlt⟩ := isStale_eq_true.mp hstale
    by_cases hx : key.2 = request.key.2
    · exact isStale_eq_true.mpr ⟨request.bet, hx ▸ hget, hlt.trans (hbet bet (hx ▸ hget'))⟩
    · exact isStale_eq_true.mpr ⟨bet, (hother key.2 hx).trans hget', hlt⟩

/-! ### Rejections -/

/-- The bet of the key is the current one, or there is none and it is zero; the next one is a
`uint64_t`. -/
def AtCurrent (r : FlutterReplica) (key : CandidateKey) : Prop :=
  r.clientCurrentBets.getD key.2 0 = key.1 ∧ key.1 + 1 < 2 ^ 64

instance (r : FlutterReplica) (key : CandidateKey) : Decidable (r.AtCurrent key) :=
  inferInstanceAs (Decidable (_ ∧ _))

lemma LiveOnly.reject (h : r.LiveOnly) (hcurrent : r.AtCurrent key) (hkey : candidate.key = key) :
    (r.reject key candidate).LiveOnly := by
  obtain ⟨hbet, hlt⟩ := hcurrent
  have hget : (r.reject key candidate).clientCurrentBets[key.2]? = some (key.1 + 1) := by
    refine Eq.trans ExtTreeMap.getElem?_insert_self (congrArg some ?_)
    show (r.clientCurrentBets.getD key.2 0 + 1) % 2 ^ 64 = key.1 + 1
    rw [hbet, Nat.mod_eq_of_lt hlt]
  have hother : ∀ x, x ≠ key.2 →
      (r.reject key candidate).clientCurrentBets[x]? = r.clientCurrentBets[x]? := fun x hx =>
    OrderedMap.getElem?_insert_of_ne hx
  -- an older bet for the request is not above the one that is rejected
  have hle : ∀ bet, r.clientCurrentBets[key.2]? = some bet → bet = key.1 := by
    intro bet hget'
    rw [← hbet, ExtTreeMap.getD_eq_getD_getElem?, hget', Option.getD_some]
  constructor
  · intro key' c hc
    exact h.keyed key' c (OrderedMap.getElem?_erase_cases hc).2
  · intro key' c hc
    exact h.uncommitted key' c (OrderedMap.getElem?_erase_cases hc).2
  · intro key' c hc
    obtain ⟨hne, hold⟩ := OrderedMap.getElem?_erase_cases hc
    have hstale := isStale_eq_false.mp (h.current key' c hold)
    refine isStale_eq_false.mpr fun bet hget' => ?_
    by_cases hx : key'.2 = key.2
    · rw [hx, hget] at hget'
      obtain rfl := Option.some.inj hget'
      have hdiffer : key'.1 ≠ key.1 := fun heq => hne (Prod.ext heq hx)
      have hbelow : key.1 ≤ key'.1 := by
        rw [hx] at hstale
        rw [← hbet, ExtTreeMap.getD_eq_getD_getElem?]
        cases hold' : r.clientCurrentBets[key.2]? with
        | none => exact Nat.zero_le _
        | some bet => exact hstale bet hold'
      omega
    · rw [hother key'.2 hx] at hget'
      exact hstale bet hget'
  · intro key' hrej
    have hcases : r.HasRejected key' ∨ ∃ reply,
        FlutterMsg.reply (r.replyTo key.2.1 candidate false "") = .reply reply ∧
          reply.accepted = false ∧ reply.key = key' := hasRejected_send hrej
    rcases hcases with hold | ⟨reply, heq, -, hreply⟩
    · refine (h.rejected key' hold).imp_right fun hstale => ?_
      obtain ⟨bet, hget', hlt'⟩ := isStale_eq_true.mp hstale
      by_cases hx : key'.2 = key.2
      · have hsame := hle bet (hx ▸ hget')
        exact isStale_eq_true.mpr ⟨key.1 + 1, hx ▸ hget, by omega⟩
      · exact isStale_eq_true.mpr ⟨bet, (hother key'.2 hx).trans hget', hlt'⟩
    · have hown : key' = key := by
        rw [← hreply, ← FlutterMsg.reply.inj heq, ← hkey]
        rfl
      rw [hown]
      exact .inr (isStale_eq_true.mpr ⟨key.1 + 1, hget, Nat.lt_succ_self _⟩)

/-! ### Commits -/

/-- No other candidate in the pool is for the same request. -/
def Alone (r : FlutterReplica) (key : CandidateKey) : Prop :=
  ∀ x ∈ r.candidatePool.toList, x.1.2 = key.2 → x.1 = key

instance (r : FlutterReplica) (key : CandidateKey) : Decidable (r.Alone key) :=
  inferInstanceAs (Decidable (∀ _ ∈ _, _))

/-- A walk over the pool commits no candidate but the only one for its request. -/
def CommitsAlone (cfg : FlutterConfig) (r : FlutterReplica) : Prop :=
  ∀ x ∈ r.due cfg, r.Alone x.1

instance (r : FlutterReplica) : Decidable (r.CommitsAlone cfg) :=
  inferInstanceAs (Decidable (∀ _ ∈ _, _))

lemma LiveOnly.commit (h : r.LiveOnly) (halone : r.Alone key) (hkey : candidate.key = key) :
    (r.commit key candidate).LiveOnly := by
  have hrequest : (candidate.clientId, candidate.clientSeq) = key.2 := congrArg Prod.snd hkey
  have hdiffers : ∀ (key' : CandidateKey) (c : Candidate),
      (r.commit key candidate).candidatePool[key']? = some c →
        key'.2 ≠ key.2 ∧ r.candidatePool[key']? = some c := by
    intro key' c hc
    obtain ⟨hne, hold⟩ := OrderedMap.getElem?_erase_cases hc
    refine ⟨fun hx => hne ?_, hold⟩
    exact halone (key', c) (ExtTreeMap.mem_toList_iff_getElem?_eq_some.mpr hold) hx
  have hother : ∀ x, x ≠ key.2 →
      (r.commit key candidate).clientCurrentBets[x]? = r.clientCurrentBets[x]? := fun x hx =>
    OrderedMap.getElem?_erase_of_ne hx
  constructor
  · intro key' c hc
    exact h.keyed key' c (hdiffers key' c hc).2
  · intro key' c hc
    obtain ⟨hx, hold⟩ := hdiffers key' c hc
    rw [Bool.eq_false_iff, ne_eq, isCommitted_commit, hrequest, h.uncommitted key' c hold]
    simp [hx]
  · intro key' c hc
    obtain ⟨hx, hold⟩ := hdiffers key' c hc
    rw [isStale, hother key'.2 hx]
    exact h.current key' c hold
  · intro key' hrej
    rw [isCommitted_commit, hrequest]
    have hcases : r.HasRejected key' ∨ ∃ reply, FlutterMsg.reply (r.replyTo candidate.clientId
        candidate true "Request executed successfully") = .reply reply ∧
          reply.accepted = false ∧ reply.key = key' := hasRejected_send hrej
    rcases hcases with hold | ⟨reply, heq, hreject, -⟩
    · by_cases hx : key'.2 = key.2
      · exact .inl (.inr hx)
      · refine (h.rejected key' hold).imp .inl fun hstale => ?_
        rw [isStale, hother key'.2 hx]
        exact hstale
    · rw [← FlutterMsg.reply.inj heq] at hreject
      cases hreject

/-- The first candidates of the pool are committed one after the other. -/
lemma LiveOnly.commitAll {l l' : List (CandidateKey × Candidate)} (h : r.LiveOnly)
    (hpool : r.candidatePool.toList = l ++ l') (halone : ∀ x ∈ l, r.Alone x.1) :
    (r.commitAll l).LiveOnly := by
  induction l generalizing r with
  | nil => exact h
  | cons x l ih =>
      obtain ⟨key, candidate⟩ := x
      have hget : r.candidatePool[key]? = some candidate := by
        refine ExtTreeMap.mem_toList_iff_getElem?_eq_some.mp ?_
        rw [hpool]
        exact List.mem_cons_self
      have hrest : (r.commit key candidate).candidatePool.toList = l ++ l' :=
        OrderedMap.toList_erase_first hpool
      have hfirst := h.commit (halone _ List.mem_cons_self) (h.keyed key candidate hget)
      refine ih hfirst hrest fun x hx y hy => ?_
      rw [hrest] at hy
      refine halone x (List.mem_cons_of_mem _ hx) y ?_
      rw [hpool]
      exact List.mem_cons_of_mem _ hy

lemma LiveOnly.checkCandidatesForCommit (h : r.LiveOnly) (halone : r.CommitsAlone cfg)
    (hcheck : r.checkCandidatesForCommit cfg = .ok r') : r'.LiveOnly := by
  obtain ⟨rfl, -⟩ := checkCandidatesForCommit_eq hcheck
  exact h.commitAll List.takeWhile_append_dropWhile.symm halone

/-! ### Events -/

/-- A vote that counts rejects the candidate at the current bet, or has the pool walked over such
that every commit is of the only candidate for its request. -/
def VoteKeeps (cfg : FlutterConfig) (r : FlutterReplica) (j : ℕ) (key : CandidateKey)
    (accept : Bool) : Prop :=
  r.isCommitted key.2 = false → r.isStale key = false →
  j ∉ (r.candidateAt key).votedReplicas →
  if cfg.superQuorumSize ≤ (r.voteAt j key accept).acceptVotes then
    (r.setCandidate key (r.voteAt j key accept)).isFirst key = true →
      (r.setCandidate key (r.voteAt j key accept)).CommitsAlone cfg
  else cfg.superQuorumSize ≤ (r.voteAt j key accept).rejectVotes → r.AtCurrent key

instance (r : FlutterReplica) (j : ℕ) (key : CandidateKey) (accept : Bool) :
    Decidable (VoteKeeps cfg r j key accept) :=
  inferInstanceAs (Decidable (_ → _ → _ → ite _ _ _))

/-- The same for a value of the leader, if the candidate is in the pool. -/
def ValueKeeps (cfg : FlutterConfig) (r : FlutterReplica) (j : ℕ) (key : CandidateKey)
    (accept : Bool) : Prop :=
  j = leaderId → ∀ candidate ∈ r.candidatePool[key]?,
    if accept then
      (r.setCandidate key { candidate with
        slowAccepted := accept, slowValueReceived := true }).isFirst key = true →
        (r.setCandidate key { candidate with
          slowAccepted := accept, slowValueReceived := true }).CommitsAlone cfg
    else r.AtCurrent key

instance (r : FlutterReplica) (j : ℕ) (key : CandidateKey) (accept : Bool) :
    Decidable (ValueKeeps cfg r j key accept) :=
  inferInstanceAs (Decidable (_ → ∀ _ ∈ _, ite _ _ _))

/-- The same for a clock, if the lock time rises with it. -/
def ClockKeeps (cfg : FlutterConfig) (r : FlutterReplica) (j t : ℕ) : Prop :=
  cfg.superQuorumSize ≤ (r.recordClock j t).replicaClocks.size →
  ∀ lockTime ∈ (r.recordClock j t).clockTimes[cfg.numReplicas - cfg.superQuorumSize]?,
    r.lockTime < lockTime → { r.recordClock j t with lockTime }.CommitsAlone cfg

instance (r : FlutterReplica) (j t : ℕ) : Decidable (ClockKeeps cfg r j t) :=
  inferInstanceAs (Decidable (_ → ∀ _ ∈ _, _ → _))

/-- What has to hold of the state in which an event comes. -/
def KeepsFinal (cfg : FlutterConfig) (_ : List (ℕ × FlutterInput)) (r : FlutterReplica) :
    ℕ × FlutterInput → Prop
  | (_, .request request) | (_, .message _ (.observe request)) => r.ClearBelow request
  | (_, .message j (.rbcProposal key accept)) => VoteKeeps cfg r j key accept
  | (_, .message j (.rbcSlowValue key accept)) => ValueKeeps cfg r j key accept
  | (_, .message j (.time t)) => ClockKeeps cfg r j t
  | (_, .message _ (.rbcSlowProposal _ _)) | (_, .message _ (.reply _)) | (_, .clock) => True

instance (es : List (ℕ × FlutterInput)) (r : FlutterReplica) :
    (ev : ℕ × FlutterInput) → Decidable (KeepsFinal cfg es r ev)
  | (_, .request request) | (_, .message _ (.observe request)) =>
    inferInstanceAs (Decidable (r.ClearBelow request))
  | (_, .message j (.rbcProposal key accept)) =>
    inferInstanceAs (Decidable (VoteKeeps cfg r j key accept))
  | (_, .message j (.rbcSlowValue key accept)) =>
    inferInstanceAs (Decidable (ValueKeeps cfg r j key accept))
  | (_, .message j (.time t)) => inferInstanceAs (Decidable (ClockKeeps cfg r j t))
  | (_, .message _ (.rbcSlowProposal _ _)) | (_, .message _ (.reply _)) | (_, .clock) =>
    inferInstanceAs (Decidable True)

lemma LiveOnly.processRBCProposal (h : r.LiveOnly) {j : ℕ} {accept : Bool}
    (hg : VoteKeeps cfg r j key accept) (hok : r.processRBCProposal cfg j key accept = .ok r') :
    r'.LiveOnly := by
  rcases processRBCProposal_cases hok with rfl | ⟨⟨hcommitted, hstale, hvoted⟩, hcases⟩
  · exact h
  replace hg := hg hcommitted hstale hvoted
  have hkey : (r.voteAt j key accept).key = key := h.key_candidateAt key
  have hvote := h.setCandidate hkey hcommitted hstale
  rcases hcases with rfl | ⟨haccepted, hfirst, hcheck⟩ | ⟨haccepted, hrejected, rfl⟩ | ⟨-, rfl⟩
  · exact hvote
  · rw [if_pos haccepted] at hg
    exact hvote.checkCandidatesForCommit (hg hfirst) hcheck
  · rw [if_neg haccepted] at hg
    exact hvote.reject (hg hrejected) hkey
  · refine LiveOnly.send (LiveOnly.setCandidate hvote ?_ hcommitted hstale) (by simp)
    exact hkey

lemma LiveOnly.processRBCSlowProposal (h : r.LiveOnly) (j : ℕ) (accept : Bool) :
    (r.processRBCSlowProposal cfg j key accept).LiveOnly := by
  rcases processRBCSlowProposal_cases cfg r j key accept with
    hr | ⟨-, hcommitted, hstale, -, candidate, rfl, hr⟩
  · rw [hr]
    exact h
  have hkey := h.key_candidateAt key
  rcases hr with hr | ⟨decision, -, hr⟩
  · rw [hr]
    exact h.setCandidate hkey hcommitted hstale
  · rw [hr]
    refine LiveOnly.send (LiveOnly.setCandidate h ?_ hcommitted hstale) (by simp)
    exact hkey

lemma LiveOnly.processRBCSlowValue (h : r.LiveOnly) {j : ℕ} {accept : Bool}
    (hg : ValueKeeps cfg r j key accept)
    (hok : r.processRBCSlowValue cfg j key accept = .ok r') : r'.LiveOnly := by
  rcases processRBCSlowValue_cases hok with rfl | ⟨rfl, candidate, candidate', hc, rfl, hcases⟩
  · exact h
  replace hg := hg rfl candidate hc
  have hkey : candidate.key = key := h.keyed key candidate hc
  have hvalue := h.setCandidate (c := { candidate with
    slowAccepted := accept, slowValueReceived := true }) hkey (h.uncommitted key candidate hc)
    (h.current key candidate hc)
  rcases hcases with ⟨-, rfl⟩ | ⟨rfl, hfirst, hcheck⟩ | ⟨rfl, rfl⟩
  · exact hvalue
  · exact hvalue.checkCandidatesForCommit (hg hfirst) hcheck
  · exact hvalue.reject hg hkey

lemma LiveOnly.processFlutterTime (h : r.LiveOnly) {j t : ℕ} (hg : ClockKeeps cfg r j t)
    (hok : r.processFlutterTime cfg j t = .ok r') : r'.LiveOnly := by
  obtain ⟨lockTime, hset, hcases⟩ := processFlutterTime_cases hok
  have hclock : LiveOnly { r.recordClock j t with lockTime } :=
    ⟨h.keyed, h.uncommitted, h.current, h.rejected⟩
  rcases hcases with rfl | ⟨hlater, hcheck⟩
  · exact hclock
  have hmany : cfg.superQuorumSize ≤ (r.recordClock j t).replicaClocks.size := by
    by_contra hfew
    exact absurd (hset.few (not_le.mp hfew)) hlater.ne'
  exact hclock.checkCandidatesForCommit (hg hmany lockTime (hset.many hmany) hlater) hcheck

/-- **One event** keeps the invariant. -/
lemma handle_liveOnly {es : List (ℕ × FlutterInput)} {ev : ℕ × FlutterInput} (h : r.LiveOnly)
    (hg : KeepsFinal cfg es r ev) (hok : r.handle cfg ev.1 ev.2 = .ok r') : r'.LiveOnly := by
  obtain ⟨now, e⟩ := ev
  cases e with
  | request request =>
      cases hok
      exact h.initializeCandidate hg
  | message j msg =>
      cases msg with
      | time t => exact h.processFlutterTime hg hok
      | observe request =>
          cases hok
          exact h.initializeCandidate hg
      | rbcProposal key accept => exact h.processRBCProposal hg hok
      | rbcSlowProposal key accept =>
          cases hok
          exact h.processRBCSlowProposal j accept
      | rbcSlowValue key accept => exact h.processRBCSlowValue hg hok
      | reply reply =>
          cases hok
          exact h
  | clock =>
      cases hok
      show (r.broadcastClock cfg now).LiveOnly
      rw [broadcastClock]
      split_ifs
      · exact h
      · have hsend : (r.send .replicas (.time now)).LiveOnly := h.send fun _ hreply => by cases hreply
        exact ⟨hsend.keyed, hsend.uncommitted, hsend.current, hsend.rejected⟩

/-! ### Runs -/

lemma liveOnly_fresh (replicaId t₀ t₁ : ℕ) : (fresh replicaId t₀ t₁).LiveOnly := by
  have hnone : ∀ (key : CandidateKey) (c : Candidate),
      (fresh replicaId t₀ t₁).candidatePool[key]? ≠ some c := by
    intro key c hc
    exact Option.some_ne_none c (hc.symm.trans ExtTreeMap.getElem?_empty)
  refine ⟨fun key c hc => absurd hc (hnone key c), fun key c hc => absurd hc (hnone key c),
    fun key c hc => absurd hc (hnone key c), fun key hrej => ?_⟩
  obtain ⟨dst, reply, hmem, -⟩ := hrej
  cases hmem

/-- **Decisions are final**: in a run whose events all meet the condition, the pool never holds a
candidate that is committed or stale, nor one with a bet up to that of a rejected one. -/
theorem decisions_final {es : List (ℕ × FlutterInput)}
    (hrun : Run (system cfg) (KeepsFinal cfg) es r) : r.Final := by
  refine LiveOnly.final (hrun.invariant (P := fun _ r => r.LiveOnly) ?_ ?_)
  · rintro _ ⟨replicaId, t₀, t₁, rfl⟩
    exact liveOnly_fresh replicaId t₀ t₁
  · rintro es r ev r' _ h hg hstep
    exact handle_liveOnly h hg hstep

/-! ### Two runs -/

/-- Votes of the replicas `0`, `1`, …, all of them the same. -/
def votesOf (votes : ℕ) (key : CandidateKey) (accept : Bool) : List (ℕ × FlutterInput) :=
  (List.range votes).map fun j => (0, .message j (.rbcProposal key accept))

/-- A request that is rejected at its bet, and comes again with a higher one. -/
def retried : List (ℕ × FlutterInput) :=
  (0, .request { clientId := 0, clientSeq := 1, bet := 100 }) ::
    (votesOf 5 (100, 0, 1) false ++ [(0, .request { clientId := 0, clientSeq := 1, bet := 200 })])

/-- A run over a list of events, each of which meets the condition. -/
lemma run_keepsFinal {es : List (ℕ × FlutterInput)} {replicaId t₀ t₁ : ℕ}
    (h : es.foldlM (fun r e => if KeepsFinal cfg [] r e then r.handle cfg e.1 e.2 else
      .error .assertion) (fresh replicaId t₀ t₁) = .ok r) :
    Run (system cfg) (KeepsFinal cfg) es r := by
  have hstart : Run (system cfg) (KeepsFinal cfg) [] (fresh replicaId t₀ t₁) :=
    .start ⟨replicaId, t₀, t₁, rfl⟩
  refine hstart.of_foldlM (fun es r e r' _ hf => ?_) h
  split_ifs at hf with hg
  exact ⟨hg, hf⟩

/-- The candidate of the higher bet is the only one that is left. -/
theorem decisions_final_retried : ∃ r,
    Run (system .sixReplicas) (KeepsFinal .sixReplicas) retried r ∧
      r.HasRejected (100, 0, 1) ∧ r.candidatePool.keys = [(200, 0, 1)] ∧ r.Final := by
  obtain ⟨r, h, hsent, hpool⟩ : ∃ r, retried.foldlM
      (fun r e => if KeepsFinal .sixReplicas [] r e then r.handle .sixReplicas e.1 e.2 else
        .error .assertion) (fresh 0 0 0) = .ok r ∧
      (.client 0, .reply ⟨0, 0, 1, 100, false, ""⟩) ∈ r.sent ∧
      r.candidatePool.keys = [(200, 0, 1)] := by
    decide +kernel
  have hrun := run_keepsFinal h
  exact ⟨r, hrun, ⟨_, _, hsent, rfl, rfl⟩, hpool, decisions_final hrun⟩

/-- **A candidate that comes back**: five replicas vote to reject it before its request comes, so
that there is no bet of its client to raise, and then the sixth votes. -/
theorem rejected_candidate_returns : ∃ r, Run (system .sixReplicas) anyStep
    (votesOf 6 (100, 0, 1) false) r ∧ r.HasRejected (100, 0, 1) ∧
      (100, 0, 1) ∈ r.candidatePool ∧ ¬r.Final := by
  obtain ⟨r, h, hsent, hpool⟩ : ∃ r, (votesOf 6 (100, 0, 1) false).foldlM
      (fun r e => r.handle .sixReplicas e.1 e.2) (fresh 0 0 0) = .ok r ∧
      (.client 0, .reply ⟨0, 0, 1, 100, false, ""⟩) ∈ r.sent ∧ (100, 0, 1) ∈ r.candidatePool := by
    decide +kernel
  have hstart : Run (system .sixReplicas) anyStep [] (fresh 0 0 0) := .start ⟨0, 0, 0, rfl⟩
  have hrejected : r.HasRejected (100, 0, 1) := ⟨_, _, hsent, rfl, rfl⟩
  obtain ⟨c, hc⟩ := Option.isSome_iff_exists.mp (ExtTreeMap.mem_iff_isSome_getElem?.mp hpool)
  refine ⟨r, hstart.of_foldlM (fun _ _ _ _ _ hf => ⟨trivial, hf⟩) h, hrejected, hpool, ?_⟩
  intro hfinal
  exact absurd (hfinal.rejected _ _ c hrejected hc rfl) (lt_irrefl _)

end FlutterReplica

end DomBft
