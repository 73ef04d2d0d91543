import DomBft.Lib.OrderedMap
import DomBft.Lib.Run
import DomBft.Flutter.Client

/-!
The requests of a client of Flutter, over every sequence of replies, whoever sends them.

* `FlutterClient.Step`, `handle_steps`: what a client does, in small steps.
* `Retried`: the bets on one request, each with one retry more and higher than the one before.
* `Counted`, `Orderly`: the votes of a pending request, and the invariant of a client;
  `Step.orderly` is the step lemma.
* `requests_in_order`: **a client keeps its requests in order**: each is pending or committed, once,
  and has been bet on as often as it has been retried.
-/

namespace DomBft

open Std (ExtTreeMap)
open Transition

/-- The votes on a pending request are those of the replicas that have voted, and are not enough
for an outcome. -/
structure FlutterRequestState.Counted (f : ℕ) (state : FlutterRequestState) : Prop where
  card : state.acceptVotes + state.rejectVotes = state.votedReplicas.card
  accepts : state.acceptVotes ≤ f
  rejects : state.rejectVotes ≤ f

/-- A vote keeps the count, if the outcome is still open. -/
lemma FlutterRequestState.Counted.recordVote {f : ℕ} {m : FlutterReply}
    {state : FlutterRequestState} (h : state.Counted f)
    (hfirst : m.replicaId ∉ state.votedReplicas)
    (haccept : m.accepted = true → state.acceptVotes < f)
    (hreject : m.accepted = false → state.rejectVotes < f) :
    (state.recordVote m).Counted f := by
  have hcard : (insert m.replicaId state.votedReplicas).card = state.votedReplicas.card + 1 :=
    Finset.card_insert_of_notMem hfirst
  have h₁ := h.card
  have h₂ := h.accepts
  have h₃ := h.rejects
  cases ha : m.accepted with
  | true =>
      have hlt := haccept ha
      refine ⟨?_, ?_, ?_⟩ <;> simp only [FlutterRequestState.recordVote, ha, if_true, hcard] <;>
        omega
  | false =>
      have hlt := hreject ha
      refine ⟨?_, ?_, ?_⟩ <;>
        simp only [FlutterRequestState.recordVote, ha, Bool.false_eq_true, if_false, hcard] <;>
        omega

/-- The reply that a client has. -/
def FlutterClientEvent.reply : FlutterClientEvent → Option FlutterReply
  | .message _ reply _ _ => reply
  | .sendTimer _ _ => none

namespace FlutterClient

variable {cfg : FlutterClientConfig} {c c' : FlutterClient} {reply : Option FlutterReply}
  {m : FlutterReply} {state : FlutterRequestState} {now seq : ℕ}

/-! ### What a client does -/

/-- A reply counts as a vote on a pending request. -/
structure Counts (c : FlutterClient) (m : FlutterReply) (state : FlutterRequestState) : Prop where
  pending : c.pendingRequests[m.clientSeq]? = some state
  first : m.replicaId ∉ state.votedReplicas
  bet_le : state.bet ≤ m.bet

/-- A bet does not wrap, and is made behind all bets so far. -/
def BetsLater (cfg : FlutterClientConfig) (c : FlutterClient) (now numRetries : ℕ) : Prop :=
  (∀ x ∈ c.sent, x.1 ≤ now) ∧
    now + cfg.baseBetOffset + numRetries * cfg.betIncrement < 2 ^ 64

/-- The state of a request that is tried again. -/
def retryState (state : FlutterRequestState) : FlutterRequestState :=
  { state with
    acceptVotes := 0, rejectVotes := 0, votedReplicas := ∅, numRetries := state.numRetries + 1 }

/-- The small steps of a client that has a reply, or none. -/
inductive Step (cfg : FlutterClientConfig) (reply : Option FlutterReply) (c : FlutterClient) :
    FlutterClient → Prop
  | submit {now : ℕ} {data : Bytes} :
      c.nextSeq + 1 < 2 ^ 32 → c.numInFlight + 1 < 2 ^ 32 →
      Step cfg reply c (c.submitRequest cfg now data)
  | sendTime {t : ℕ} : Step cfg reply c { c with lastSendTime := t }
  | vote {m : FlutterReply} {state : FlutterRequestState} :
      reply = some m → c.Counts m state → (state.recordVote m).Counted cfg.f →
      Step cfg reply c (c.setState m.clientSeq (state.recordVote m))
  | commit {now : ℕ} {m : FlutterReply} {state : FlutterRequestState} :
      reply = some m → c.Counts m state → m.accepted = true → cfg.f ≤ state.acceptVotes →
      Step cfg reply c (c.finish cfg now m.clientSeq)
  | retry {now : ℕ} {m : FlutterReply} {state : FlutterRequestState} :
      reply = some m → c.Counts m state → m.accepted = false → cfg.f ≤ state.rejectVotes →
      c.BetsLater cfg now (state.numRetries + 1) →
      Step cfg reply c (c.sendRequest cfg now m.clientSeq (retryState state))

/-- Sequences of small steps. -/
def Steps (cfg : FlutterClientConfig) (reply : Option FlutterReply) :
    FlutterClient → FlutterClient → Prop :=
  Relation.ReflTransGen (Step cfg reply)

/-- What is assumed of the clock and of the number of requests, so that nothing wraps. -/
def InRange (cfg : FlutterClientConfig) (c : FlutterClient) : FlutterClientEvent → Prop
  | .message now (some m) _ _ => c.nextSeq + cfg.maxInFlight + 1 < 2 ^ 32 ∧
      ∀ state, c.pendingRequests[m.clientSeq]? = some state →
        c.BetsLater cfg now (state.numRetries + 1)
  | _ => c.nextSeq + cfg.maxInFlight + 1 < 2 ^ 32

instance (c : FlutterClient) (now numRetries : ℕ) : Decidable (c.BetsLater cfg now numRetries) :=
  inferInstanceAs (Decidable (_ ∧ _))

instance decidableInRange (c : FlutterClient) : DecidablePred (c.InRange cfg)
  | .message now (some m) _ _ =>
    inferInstanceAs (Decidable (_ ∧ ∀ state ∈ c.pendingRequests[m.clientSeq]?,
      c.BetsLater cfg now (state.numRetries + 1)))
  | .message _ none _ _ => inferInstanceAs (Decidable (_ < _))
  | .sendTimer _ _ => inferInstanceAs (Decidable (_ < _))

lemma InRange.next_lt {e : FlutterClientEvent} (h : c.InRange cfg e) :
    c.nextSeq + cfg.maxInFlight + 1 < 2 ^ 32 := by
  match e, h with
  | .message _ (some _) _ _, h => exact h.1
  | .message _ none _ _, h => exact h
  | .sendTimer _ _, h => exact h

/-- The number of requests in flight of a client, and its next number, after a submission. -/
lemma submitRequest_eq (c : FlutterClient) (cfg : FlutterClientConfig) (now : ℕ) (data : Bytes)
    (hnext : c.nextSeq + 1 < 2 ^ 32)
    (hflight : c.numInFlight + 1 < 2 ^ 32) :
    (c.submitRequest cfg now data).nextSeq = c.nextSeq + 1 ∧
      (c.submitRequest cfg now data).numInFlight = c.numInFlight + 1 :=
  ⟨Nat.mod_eq_of_lt hnext, Nat.mod_eq_of_lt hflight⟩

/-- The loop submits requests, and does not go beyond the window. -/
lemma submitLoop_steps (times : ℕ → ℕ) (turns : ℕ) (hmax : cfg.maxInFlight < 2 ^ 32)
    (hnext : c.nextSeq + (cfg.maxInFlight - c.numInFlight) < 2 ^ 32) :
    Steps cfg reply c (submitLoop cfg times turns c) ∧
      (submitLoop cfg times turns c).numInFlight ≤ max c.numInFlight cfg.maxInFlight := by
  induction turns generalizing times c with
  | zero => exact ⟨.refl, le_max_left _ _⟩
  | succ turns ih =>
      rw [submitLoop]
      split_ifs with hfull
      · exact ⟨.refl, le_max_left _ _⟩
      · have hsubmit := submitRequest_eq c cfg (times 0) (requestData cfg)
          (by omega) (by omega)
        obtain ⟨hsteps, hle⟩ := ih (c := c.submitRequest cfg (times 0) (requestData cfg))
          (fun i => times (i + 1)) (by rw [hsubmit.1, hsubmit.2]; omega)
        rw [hsubmit.2] at hle
        exact ⟨.head (.submit (by omega) (by omega)) hsteps, hle.trans (by omega)⟩

lemma submitRequestsOpenLoop_steps (start : ℕ) (times : ℕ → ℕ) (hmax : cfg.maxInFlight < 2 ^ 32)
    (hnext : c.nextSeq + (cfg.maxInFlight - c.numInFlight) < 2 ^ 32) :
    Steps cfg reply c (c.submitRequestsOpenLoop cfg start times) ∧
      (c.submitRequestsOpenLoop cfg start times).numInFlight ≤
        max c.numInFlight cfg.maxInFlight := by
  rw [submitRequestsOpenLoop]
  split_ifs
  · exact ⟨.refl, le_max_left _ _⟩
  · dsimp only
    split_ifs
    · exact ⟨.refl, le_max_left _ _⟩
    · generalize cfg.nextSendTime c.lastSendTime (cfg.numToSend start c.lastSendTime) = t
      obtain ⟨hsteps, hle⟩ : Steps cfg reply _ _ ∧ _ :=
        submitLoop_steps (c := { c with lastSendTime := t }) times
          (cfg.numToSend start c.lastSendTime) hmax hnext
      exact ⟨.head .sendTime hsteps, hle⟩

/-- The commit of a request that has a state. -/
lemma commitRequest_setState (now : ℕ) (seq : ℕ) (state : FlutterRequestState) :
    (c.setState seq state).commitRequest cfg now seq =
      if cfg.sendMode = .maxInFlightBased then
        (c.finish cfg now seq).submitRequest cfg now nextRequestData
      else c.finish cfg now seq := by
  have herase : (c.pendingRequests.insert seq state).erase seq = c.pendingRequests.erase seq := by
    refine ExtTreeMap.ext_getElem? fun k => ?_
    by_cases hk : k = seq
    · rw [hk, ExtTreeMap.getElem?_erase_self, ExtTreeMap.getElem?_erase_self]
    · rw [OrderedMap.getElem?_erase_of_ne hk, OrderedMap.getElem?_erase_of_ne hk,
        OrderedMap.getElem?_insert_of_ne hk]
  have hfinish : (c.setState seq state).finish cfg now seq = c.finish cfg now seq := by
    rw [finish, finish, setState, herase]
  have hmem : seq ∈ (c.setState seq state).pendingRequests := ExtTreeMap.mem_insert_self
  rw [commitRequest, if_pos hmem, hfinish]

/-- **What a reply does**: nothing, a vote, another bet, or a commit, upon which another request
may be submitted. -/
lemma processFlutterReply_cases (hcounted : ∀ (seq : ℕ) (state : FlutterRequestState),
      c.pendingRequests[seq]? = some state → state.Counted cfg.f) :
    c.processFlutterReply cfg now m = c ∨
    ∃ state, c.Counts m state ∧
      ((state.recordVote m).Counted cfg.f ∧
          c.processFlutterReply cfg now m = c.setState m.clientSeq (state.recordVote m) ∨
        m.accepted = true ∧ cfg.f ≤ state.acceptVotes ∧ c.processFlutterReply cfg now m =
          (c.setState m.clientSeq (state.recordVote m)).commitRequest cfg now m.clientSeq ∨
        m.accepted = false ∧ cfg.f ≤ state.rejectVotes ∧ c.processFlutterReply cfg now m =
          c.sendRequest cfg now m.clientSeq (retryState state)) := by
  rw [processFlutterReply]
  cases hpending : c.pendingRequests[m.clientSeq]? with
  | none => exact .inl rfl
  | some state =>
      have hold := hcounted m.clientSeq state hpending
      dsimp only
      split_ifs with hvoted hstale haccept henough henough
      · exact .inl rfl
      · exact .inl rfl
      · refine .inr ⟨state, ⟨hpending, hvoted, not_lt.mp hstale⟩, .inr (.inl ⟨haccept, ?_, rfl⟩)⟩
        simpa [FlutterRequestState.recordVote, haccept] using henough
      · refine .inr ⟨state, ⟨hpending, hvoted, not_lt.mp hstale⟩, .inl ⟨?_, rfl⟩⟩
        refine hold.recordVote hvoted (fun _ => ?_) fun hreject => ?_
        · simpa [FlutterRequestState.recordVote, haccept] using henough
        · rw [haccept] at hreject
          cases hreject
      · have hreject : m.accepted = false := Bool.eq_false_iff.mpr haccept
        refine .inr ⟨state, ⟨hpending, hvoted, not_lt.mp hstale⟩, .inr (.inr ⟨hreject, ?_, rfl⟩)⟩
        simpa [FlutterRequestState.recordVote, hreject] using henough
      · have hreject : m.accepted = false := Bool.eq_false_iff.mpr haccept
        refine .inr ⟨state, ⟨hpending, hvoted, not_lt.mp hstale⟩, .inl ⟨?_, rfl⟩⟩
        refine hold.recordVote hvoted (fun haccept => ?_) fun _ => ?_
        · rw [hreject] at haccept
          cases haccept
        · simpa [FlutterRequestState.recordVote, hreject] using henough

/-! ### The bets on a request -/

/-- The requests that have been sent under a number, oldest first. -/
def requestsFor (c : FlutterClient) (seq : ℕ) : List FlutterClientRequest :=
  (c.sent.map (·.2)).filter (·.clientSeq = seq)

/-- **The bets on one request**: each one says how often the request has been retried, and is
higher than those before it. -/
structure Retried (cfg : FlutterClientConfig) (l : List FlutterClientRequest) : Prop where
  numRetries : l.map (·.numRetries) = List.range l.length
  bets : l.Pairwise fun q q' => q.bet + cfg.betIncrement ≤ q'.bet
  same : ∀ q ∈ l, ∀ q' ∈ l, q.key.2 = q'.key.2 ∧ q.reqData = q'.reqData

lemma Retried.concat {l : List FlutterClientRequest} {q : FlutterClientRequest}
    (h : Retried cfg l) (hretries : q.numRetries = l.length)
    (hbets : ∀ q' ∈ l, q'.bet + cfg.betIncrement ≤ q.bet)
    (hsame : ∀ q' ∈ l, q'.key.2 = q.key.2 ∧ q'.reqData = q.reqData) : Retried cfg (l ++ [q]) where
  numRetries := by
    rw [List.map_append, h.numRetries, List.length_append, List.length_singleton,
      List.range_succ, List.map_singleton, hretries]
  bets := by
    refine List.pairwise_append.mpr ⟨h.bets, List.pairwise_singleton _ _, fun q' hq' x hx => ?_⟩
    rw [List.mem_singleton.mp hx]
    exact hbets q' hq'
  same x hx y hy := by
    rcases List.mem_append.mp hx with hx | hx <;> rcases List.mem_append.mp hy with hy | hy
    · exact h.same x hx y hy
    · rw [List.mem_singleton.mp hy]
      exact hsame x hx
    · rw [List.mem_singleton.mp hx]
      exact (hsame y hy).imp Eq.symm Eq.symm
    · rw [List.mem_singleton.mp hx, List.mem_singleton.mp hy]
      exact ⟨rfl, rfl⟩

lemma Retried.length_eq {l : List FlutterClientRequest} {q : FlutterClientRequest}
    (h : Retried cfg l) (hlast : l.getLast? = some q) : l.length = q.numRetries + 1 := by
  have hmap : (l.map (·.numRetries)).getLast? = some q.numRetries := by
    rw [List.getLast?_map, hlast]
    rfl
  rw [h.numRetries, List.getLast?_range] at hmap
  split_ifs at hmap with hzero
  have heq := Option.some.inj hmap
  omega

/-- A pending request: its votes are counted, and its bet is the last one that has been sent. -/
structure Pending (cfg : FlutterClientConfig) (c : FlutterClient) (seq : ℕ)
    (state : FlutterRequestState) : Prop where
  counted : state.Counted cfg.f
  clientSeq : state.clientSeq = seq
  bet : state.bet = state.request.bet
  numRetries : state.numRetries = state.request.numRetries
  last : (c.requestsFor seq).getLast? = some state.request

/-- **The order of a client.**  Each number so far is that of a request that is pending or has been
committed, once; the requests in flight are the pending ones. -/
structure Orderly (cfg : FlutterClientConfig) (c : FlutterClient) : Prop where
  next : 1 ≤ c.nextSeq
  sent : ∀ x ∈ c.sent, (1 ≤ x.2.clientSeq ∧ x.2.clientSeq < c.nextSeq) ∧
    x.2.clientId = cfg.clientId ∧ x.2.bet = nextBet cfg x.1 x.2.numRetries
  asked : ∀ seq, 1 ≤ seq → seq < c.nextSeq → c.requestsFor seq ≠ []
  retried : ∀ seq, Retried cfg (c.requestsFor seq)
  pending : ∀ (seq : ℕ) (state : FlutterRequestState), c.pendingRequests[seq]? = some state →
    c.Pending cfg seq state
  outcome : ∀ seq, 1 ≤ seq ∧ seq < c.nextSeq ↔ seq ∈ c.pendingRequests ∨ seq ∈ c.committed
  separate : ∀ seq ∈ c.pendingRequests, seq ∉ c.committed
  once : c.committed.Nodup
  inFlight : c.numInFlight = c.pendingRequests.size
  inFlight_lt : c.numInFlight < 2 ^ 32

lemma mem_of_getElem? (h : c.pendingRequests[seq]? = some state) : seq ∈ c.pendingRequests :=
  ExtTreeMap.mem_iff_isSome_getElem?.mpr (by rw [h]; rfl)

namespace Orderly

lemma init : ({} : FlutterClient).Orderly cfg where
  next := le_rfl
  sent _ hx := absurd hx List.not_mem_nil
  asked seq h h' := absurd h' (by show ¬seq < 1; omega)
  retried _ := ⟨rfl, List.Pairwise.nil, fun _ hq => absurd hq List.not_mem_nil⟩
  pending _ _ h := by cases h
  outcome seq := by
    refine ⟨fun h => absurd h.2 (by show ¬seq < 1; omega), fun h => ?_⟩
    exact absurd (h.resolve_right List.not_mem_nil) ExtTreeMap.not_mem_empty
  separate _ _ := List.not_mem_nil
  once := List.nodup_nil
  inFlight := rfl
  inFlight_lt := by decide

/-- A number that has not been used has not been sent. -/
lemma requestsFor_next (h : c.Orderly cfg) : c.requestsFor c.nextSeq = [] := by
  refine List.filter_eq_nil_iff.mpr fun q hq => ?_
  obtain ⟨x, hx, rfl⟩ := List.mem_map.mp hq
  have hlt := (h.sent x hx).1.2
  simpa using hlt.ne

/-- A request that is sent is the last one under its number. -/
lemma requestsFor_sendRequest (c : FlutterClient) (cfg : FlutterClientConfig) (now seq : ℕ)
    (state : FlutterRequestState) (s : ℕ) :
    (c.sendRequest cfg now seq state).requestsFor s = c.requestsFor s ++
      if state.request.clientSeq = s then
        [{ state.request with
          bet := nextBet cfg now state.numRetries, numRetries := state.numRetries }]
      else [] := by
  rw [requestsFor, sendRequest, List.map_append, List.filter_append, requestsFor,
    List.map_singleton]
  congr 1
  split_ifs with hs
  · exact List.filter_cons_of_pos (by simpa using hs)
  · exact List.filter_cons_of_neg (by simpa using hs)

lemma requestsFor_submitRequest (now : ℕ) (data : Bytes) (s : ℕ) :
    (c.submitRequest cfg now data).requestsFor s = c.requestsFor s ++
      if c.nextSeq = s then
        [{ clientId := cfg.clientId, clientSeq := c.nextSeq, bet := nextBet cfg now 0
           reqData := data }]
      else [] :=
  requestsFor_sendRequest c cfg now c.nextSeq _ s

/-- Another request is submitted. -/
lemma submit (h : c.Orderly cfg) {data : Bytes} (hnext : c.nextSeq + 1 < 2 ^ 32)
    (hflight : c.numInFlight + 1 < 2 ^ 32) : (c.submitRequest cfg now data).Orderly cfg := by
  have hnextSeq := (submitRequest_eq c cfg now data hnext hflight).1
  have hinFlight := (submitRequest_eq c cfg now data hnext hflight).2
  set q : FlutterClientRequest :=
    { clientId := cfg.clientId, clientSeq := c.nextSeq, bet := nextBet cfg now 0, reqData := data }
  have hfor : ∀ s, (c.submitRequest cfg now data).requestsFor s =
      c.requestsFor s ++ if c.nextSeq = s then [q] else [] :=
    requestsFor_submitRequest now data
  have hnew : c.nextSeq ∉ c.pendingRequests := fun hmem =>
    absurd ((h.outcome c.nextSeq).mpr (.inl hmem)).2 (lt_irrefl _)
  have hsent : (c.submitRequest cfg now data).sent = c.sent ++ [(now, q)] := rfl
  have hmem : ∀ s, s ∈ (c.submitRequest cfg now data).pendingRequests ↔
      s = c.nextSeq ∨ s ∈ c.pendingRequests := by
    intro s
    refine ExtTreeMap.mem_insert.trans (or_congr_left ?_)
    rw [Std.LawfulEqCmp.compare_eq_iff_eq, eq_comm]
  have hcommitted : (c.submitRequest cfg now data).committed = c.committed := rfl
  refine ⟨by omega, ?_, ?_, ?_, ?_, ?_, ?_, h.once, ?_, ?_⟩
  · intro x hx
    rw [hsent] at hx
    rw [hnextSeq]
    rcases List.mem_append.mp hx with hx | hx
    · obtain ⟨⟨hpos, hlt⟩, hrest⟩ := h.sent x hx
      exact ⟨⟨hpos, by omega⟩, hrest⟩
    · rw [List.mem_singleton.mp hx]
      exact ⟨⟨h.next, Nat.lt_succ_self _⟩, rfl, rfl⟩
  · intro s hs hlt
    rw [hfor]
    split_ifs with heq
    · exact List.append_ne_nil_of_right_ne_nil _ (List.cons_ne_nil _ _)
    · exact List.append_ne_nil_of_left_ne_nil (h.asked s hs (by omega)) _
  · intro s
    rw [hfor]
    split_ifs with heq
    · rw [← heq, h.requestsFor_next]
      exact ⟨rfl, List.pairwise_singleton _ _, fun x hx y hy => by
        rw [List.mem_singleton.mp hx, List.mem_singleton.mp hy]
        exact ⟨rfl, rfl⟩⟩
    · rw [List.append_nil]
      exact h.retried s
  · intro s state hstate
    rcases OrderedMap.getElem?_insert_cases hstate with ⟨rfl, rfl⟩ | ⟨hs, hstate⟩
    · refine ⟨⟨rfl, Nat.zero_le _, Nat.zero_le _⟩, rfl, rfl, rfl, ?_⟩
      rw [hfor, if_pos rfl, List.getLast?_concat]
    · have hold := h.pending s state hstate
      refine ⟨hold.counted, hold.clientSeq, hold.bet, hold.numRetries, ?_⟩
      rw [hfor, if_neg (Ne.symm hs), List.append_nil]
      exact hold.last
  · intro s
    rw [hnextSeq, hmem, hcommitted, or_assoc, ← h.outcome s]
    have hpos := h.next
    omega
  · intro s hs
    rw [hcommitted]
    rcases (hmem s).mp hs with rfl | hs
    · exact fun hc => absurd ((h.outcome _).mpr (.inr hc)).2 (lt_irrefl _)
    · exact h.separate s hs
  · rw [hinFlight, h.inFlight]
    refine (ExtTreeMap.size_insert.trans (if_neg ?_)).symm
    exact fun hcontains => hnew (ExtTreeMap.mem_iff_contains.mpr hcontains)
  · rw [hinFlight]
    exact hflight

/-- The state of a pending request is replaced. -/
lemma set (h : c.Orderly cfg) (hpending : c.pendingRequests[seq]? = some state)
    {state' : FlutterRequestState} (hstate : (c.setState seq state').Pending cfg seq state') :
    (c.setState seq state').Orderly cfg := by
  have hin := mem_of_getElem? hpending
  have hmem : ∀ s, s ∈ (c.setState seq state').pendingRequests ↔ s ∈ c.pendingRequests := by
    intro s
    refine ExtTreeMap.mem_insert.trans (or_iff_right_of_imp fun heq => ?_)
    rwa [← Std.LawfulEqCmp.compare_eq_iff_eq.mp heq]
  refine ⟨h.next, h.sent, h.asked, h.retried, ?_, ?_, ?_, h.once, ?_, h.inFlight_lt⟩
  · intro s st hs
    rcases OrderedMap.getElem?_insert_cases hs with ⟨rfl, rfl⟩ | ⟨-, hs⟩
    · exact hstate
    · have hold := h.pending s st hs
      exact ⟨hold.counted, hold.clientSeq, hold.bet, hold.numRetries, hold.last⟩
  · intro s
    rw [hmem]
    exact h.outcome s
  · exact fun s hs => h.separate s ((hmem s).mp hs)
  · refine h.inFlight.trans (ExtTreeMap.size_insert.trans (if_pos ?_)).symm
    exact ExtTreeMap.mem_iff_contains.mp hin

/-- A pending request is committed. -/
lemma finish (h : c.Orderly cfg) (hpending : c.pendingRequests[seq]? = some state) :
    (c.finish cfg now seq).Orderly cfg := by
  have hin := mem_of_getElem? hpending
  have hmem : ∀ s, s ∈ (c.finish cfg now seq).pendingRequests ↔
      s ≠ seq ∧ s ∈ c.pendingRequests := by
    intro s
    refine ExtTreeMap.mem_erase.trans (and_congr_left fun _ => ?_)
    rw [Ne, Std.LawfulEqCmp.compare_eq_iff_eq, eq_comm]
  have hcommitted : ∀ s, s ∈ (c.finish cfg now seq).committed ↔ s ∈ c.committed ∨ s = seq :=
    fun s => List.mem_append.trans (or_congr_right List.mem_singleton)
  have hsize : c.pendingRequests.size ≠ 0 := by
    intro hzero
    rw [ExtTreeMap.eq_empty_iff_size_eq_zero.mpr hzero] at hin
    exact ExtTreeMap.not_mem_empty hin
  have hinFlight : (c.finish cfg now seq).numInFlight = c.numInFlight - 1 := by
    have heq := h.inFlight
    have hlt := h.inFlight_lt
    show (c.numInFlight + 2 ^ 32 - 1) % 2 ^ 32 = _
    omega
  refine ⟨h.next, h.sent, h.asked, h.retried, ?_, ?_, ?_, ?_, ?_, ?_⟩
  · intro s st hs
    have hold := h.pending s st (OrderedMap.getElem?_erase_cases hs).2
    exact ⟨hold.counted, hold.clientSeq, hold.bet, hold.numRetries, hold.last⟩
  · intro s
    rw [hmem, hcommitted]
    show 1 ≤ s ∧ s < c.nextSeq ↔ _
    rw [h.outcome s]
    by_cases hs : s = seq
    · subst hs
      exact ⟨fun _ => .inr (.inr rfl), fun _ => .inl hin⟩
    · simp [hs]
  · intro s hs hc
    obtain ⟨hne, hs⟩ := (hmem s).mp hs
    rcases (hcommitted s).mp hc with hc | hc
    · exact h.separate s hs hc
    · exact hne hc
  · refine List.nodup_append.mpr ⟨h.once, List.nodup_singleton _, fun a ha b hb => ?_⟩
    rw [List.mem_singleton.mp hb]
    rintro rfl
    exact h.separate a hin ha
  · rw [hinFlight, h.inFlight]
    exact (ExtTreeMap.size_erase.trans (if_pos (ExtTreeMap.mem_iff_contains.mp hin))).symm
  · have hlt := h.inFlight_lt
    omega

/-- A bet that does not wrap is above all bets so far on the same request. -/
lemma bet_le (h : c.Orderly cfg) (hlater : c.BetsLater cfg now (state.numRetries + 1))
    (hpending : c.Pending cfg seq state) {q : FlutterClientRequest} (hq : q ∈ c.requestsFor seq) :
    q.bet + cfg.betIncrement ≤ nextBet cfg now (state.numRetries + 1) := by
  obtain ⟨x, hx, rfl⟩ := List.mem_map.mp (List.mem_of_mem_filter hq)
  have hlength := (h.retried seq).length_eq hpending.last
  have hretries : x.2.numRetries < state.numRetries + 1 := by
    rw [hpending.numRetries, ← hlength]
    refine List.mem_range.mp ?_
    rw [← (h.retried seq).numRetries]
    exact List.mem_map_of_mem hq
  have htime := hlater.1 x hx
  have hmul : (x.2.numRetries + 1) * cfg.betIncrement ≤
      (state.numRetries + 1) * cfg.betIncrement := Nat.mul_le_mul_right _ hretries
  have hle : nextBet cfg x.1 x.2.numRetries ≤
      x.1 + cfg.baseBetOffset + x.2.numRetries * cfg.betIncrement := Nat.mod_le _ _
  have hnew : nextBet cfg now (state.numRetries + 1) =
      now + cfg.baseBetOffset + (state.numRetries + 1) * cfg.betIncrement :=
    Nat.mod_eq_of_lt hlater.2
  rw [(h.sent x hx).2.2, hnew]
  rw [Nat.succ_mul] at hmul
  omega

/-- A pending request is bet on again. -/
lemma retry (h : c.Orderly cfg) (hget : c.pendingRequests[seq]? = some state)
    (hlater : c.BetsLater cfg now (state.numRetries + 1)) :
    (c.sendRequest cfg now seq (retryState state)).Orderly cfg := by
  have hin := mem_of_getElem? hget
  have hpending := h.pending seq state hget
  have hlast : state.request ∈ c.requestsFor seq := List.mem_of_getLast? hpending.last
  have hseq : state.request.clientSeq = seq := by simpa using (List.mem_filter.mp hlast).2
  set q : FlutterClientRequest := { state.request with
    bet := nextBet cfg now (state.numRetries + 1), numRetries := state.numRetries + 1 }
  have hfor : ∀ s, (c.sendRequest cfg now seq (retryState state)).requestsFor s =
      c.requestsFor s ++ if state.request.clientSeq = s then [q] else [] :=
    fun s => requestsFor_sendRequest _ cfg _ seq _ s
  have hmem : ∀ s, s ∈ (c.sendRequest cfg now seq (retryState state)).pendingRequests ↔
      s ∈ c.pendingRequests := by
    intro s
    refine ExtTreeMap.mem_insert.trans (or_iff_right_of_imp fun heq => ?_)
    rwa [← Std.LawfulEqCmp.compare_eq_iff_eq.mp heq]
  have hsent : (c.sendRequest cfg now seq (retryState state)).sent = c.sent ++ [(now, q)] := rfl
  refine ⟨h.next, ?_, ?_, ?_, ?_, ?_, ?_, h.once, ?_, h.inFlight_lt⟩
  · intro x hx
    rw [hsent] at hx
    rcases List.mem_append.mp hx with hx | hx
    · exact h.sent x hx
    · rw [List.mem_singleton.mp hx]
      obtain ⟨y, hy, heq⟩ := List.mem_map.mp (List.mem_of_mem_filter hlast)
      obtain ⟨hrange, hclient, -⟩ := h.sent y hy
      rw [heq] at hrange hclient
      exact ⟨hrange, hclient, rfl⟩
  · intro s hs hlt
    rw [hfor]
    exact List.append_ne_nil_of_left_ne_nil (h.asked s hs hlt) _
  · intro s
    rw [hfor]
    split_ifs with heq
    · rw [← heq, hseq]
      refine (h.retried seq).concat ?_ (fun q' hq' => h.bet_le hlater hpending hq') fun q' hq' =>
        (h.retried seq).same q' hq' state.request hlast
      rw [(h.retried seq).length_eq hpending.last, ← hpending.numRetries]
    · rw [List.append_nil]
      exact h.retried s
  · intro s st hs
    rcases OrderedMap.getElem?_insert_cases hs with ⟨rfl, rfl⟩ | ⟨hne, hs⟩
    · refine ⟨⟨rfl, Nat.zero_le _, Nat.zero_le _⟩, hpending.clientSeq, rfl, rfl, ?_⟩
      rw [hfor, if_pos hseq, List.getLast?_concat]
      rfl
    · have hold := h.pending s st hs
      refine ⟨hold.counted, hold.clientSeq, hold.bet, hold.numRetries, ?_⟩
      rw [hfor, hseq, if_neg (Ne.symm hne), List.append_nil]
      exact hold.last
  · intro s
    rw [hmem]
    exact h.outcome s
  · exact fun s hs => h.separate s ((hmem s).mp hs)
  · refine h.inFlight.trans (ExtTreeMap.size_insert.trans (if_pos ?_)).symm
    exact ExtTreeMap.mem_iff_contains.mp hin

end Orderly

/-- **A step keeps the order.** -/
lemma Step.orderly (h : c.Orderly cfg) (hstep : Step cfg reply c c') : c'.Orderly cfg := by
  cases hstep with
  | submit hnext hflight => exact h.submit hnext hflight
  | sendTime =>
      refine ⟨h.next, h.sent, h.asked, h.retried, fun s st hs => ?_, h.outcome, h.separate, h.once,
        h.inFlight, h.inFlight_lt⟩
      have hold := h.pending s st hs
      exact ⟨hold.counted, hold.clientSeq, hold.bet, hold.numRetries, hold.last⟩
  | vote _ hcounts hcounted =>
      have hold := h.pending _ _ hcounts.pending
      exact h.set hcounts.pending ⟨hcounted, hold.clientSeq, hold.bet, hold.numRetries, hold.last⟩
  | commit _ hcounts => exact h.finish hcounts.pending
  | retry _ hcounts _ _ hlater => exact h.retry hcounts.pending hlater

lemma Steps.orderly (h : c.Orderly cfg) (hsteps : Steps cfg reply c c') : c'.Orderly cfg := by
  induction hsteps with
  | refl => exact h
  | tail _ hstep ih => exact hstep.orderly ih

/-! ### Events -/

/-- **What a reply does**, in small steps; in a closed loop it leaves the number of requests in
flight as it is. -/
lemma processFlutterReply_steps (h : c.Orderly cfg) (hnext : c.nextSeq + 1 < 2 ^ 32)
    (hlater : ∀ state, c.pendingRequests[m.clientSeq]? = some state →
      c.BetsLater cfg now (state.numRetries + 1)) :
    Steps cfg (some m) c (c.processFlutterReply cfg now m) ∧
      (cfg.sendMode = .rateBased → (c.processFlutterReply cfg now m).nextSeq = c.nextSeq ∧
        (c.processFlutterReply cfg now m).numInFlight ≤ c.numInFlight) ∧
      (cfg.sendMode = .maxInFlightBased →
        (c.processFlutterReply cfg now m).numInFlight = c.numInFlight) := by
  rcases processFlutterReply_cases (fun s st hs => (h.pending s st hs).counted) with heq |
      ⟨state, hcounts, ⟨hcounted, heq⟩ | ⟨haccepted, henough, heq⟩ | ⟨hrejected, henough, heq⟩⟩
  · rw [heq]
    exact ⟨.refl, fun _ => ⟨rfl, le_rfl⟩, fun _ => rfl⟩
  · rw [heq]
    exact ⟨.single (.vote rfl hcounts hcounted), fun _ => ⟨rfl, le_rfl⟩, fun _ => rfl⟩
  · rw [heq, commitRequest_setState]
    have hcommit : Step cfg (some m) c (c.finish cfg now m.clientSeq) :=
      .commit rfl hcounts haccepted henough
    have hpos : c.pendingRequests.size ≠ 0 := by
      intro hzero
      have hin := mem_of_getElem? hcounts.pending
      rw [ExtTreeMap.eq_empty_iff_size_eq_zero.mpr hzero] at hin
      exact ExtTreeMap.not_mem_empty hin
    have hless : (c.finish cfg now m.clientSeq).numInFlight + 1 = c.numInFlight := by
      have hsize := h.inFlight
      have hlt := h.inFlight_lt
      show (c.numInFlight + 2 ^ 32 - 1) % 2 ^ 32 + 1 = _
      omega
    split_ifs with hmode
    · have hflight : (c.finish cfg now m.clientSeq).numInFlight + 1 < 2 ^ 32 := by
        rw [hless]
        exact h.inFlight_lt
      have hseq : (c.finish cfg now m.clientSeq).nextSeq + 1 < 2 ^ 32 := hnext
      refine ⟨.tail (.single hcommit) (.submit hseq hflight), fun hrate => ?_, fun _ => ?_⟩
      · rw [hmode] at hrate
        cases hrate
      · rw [(submitRequest_eq _ _ now nextRequestData hseq hflight).2, hless]
    · exact ⟨.single hcommit, fun _ => ⟨rfl, by omega⟩, fun hclosed => absurd hclosed hmode⟩
  · rw [heq]
    exact ⟨.single (.retry rfl hcounts hrejected henough (hlater state hcounts.pending)),
      fun _ => ⟨rfl, le_rfl⟩, fun _ => rfl⟩

/-- The requests in flight: as many as configured in a closed loop, and no more otherwise. -/
structure InWindow (cfg : FlutterClientConfig) (c : FlutterClient) : Prop where
  closed : cfg.sendMode = .maxInFlightBased → c.numInFlight = cfg.maxInFlight
  rate : cfg.sendMode = .rateBased → c.numInFlight ≤ max 1 cfg.maxInFlight

/-- **What happens at a client**, in small steps. -/
lemma handle_steps {e : FlutterClientEvent} (h : c.Orderly cfg) (hwindow : c.InWindow cfg)
    (hrange : c.InRange cfg e) :
    Steps cfg e.reply c (c.handle cfg e) ∧ (c.handle cfg e).InWindow cfg := by
  have hnext := hrange.next_lt
  -- at a rate, the loop comes behind the reply, and the window still has room for what it submits
  have hloop : ∀ {c₁ : FlutterClient} {reply : Option FlutterReply} (start : ℕ) (times : ℕ → ℕ),
      cfg.sendMode = .rateBased → Steps cfg reply c c₁ → c₁.nextSeq = c.nextSeq →
      c₁.numInFlight ≤ c.numInFlight →
      Steps cfg reply c (c₁.submitRequestsOpenLoop cfg start times) ∧
        (c₁.submitRequestsOpenLoop cfg start times).InWindow cfg := by
    intro c₁ reply start times hrate hsteps hseq hflight
    obtain ⟨hrest, hle⟩ := submitRequestsOpenLoop_steps (c := c₁) start times
      (show cfg.maxInFlight < 2 ^ 32 by omega) (by rw [hseq]; omega)
    refine ⟨hsteps.trans hrest, fun hclosed => ?_, fun _ => ?_⟩
    · rw [hrate] at hclosed
      cases hclosed
    · exact hle.trans (max_le (hflight.trans (hwindow.rate hrate)) (le_max_right _ _))
  have hclosed : cfg.sendMode ≠ .rateBased → cfg.sendMode = .maxInFlightBased := by
    cases cfg.sendMode with
    | rateBased => exact fun hne => absurd rfl hne
    | maxInFlightBased => exact fun _ => rfl
  match e, hrange with
  | .sendTimer start times, hrange | .message _ none start times, hrange =>
      by_cases hrate : cfg.sendMode = .rateBased
      · rw [handle, if_pos hrate]
        exact hloop start times hrate .refl rfl le_rfl
      · rw [handle, if_neg hrate]
        exact ⟨.refl, hwindow⟩
  | .message now (some m) start times, hrange =>
      obtain ⟨hsteps, hopen, hsame⟩ :=
        processFlutterReply_steps h (by omega) hrange.2
      by_cases hrate : cfg.sendMode = .rateBased
      · rw [handle, if_pos hrate]
        exact hloop start times hrate hsteps (hopen hrate).1 (hopen hrate).2
      · rw [handle, if_neg hrate]
        refine ⟨hsteps, fun hmode => ?_, fun hmode => absurd hmode hrate⟩
        exact (hsame hmode).trans (hwindow.closed hmode)

/-! ### Runs -/

/-- The constructor submits what it sends first. -/
lemma create_steps (hmax : cfg.maxInFlight + 2 < 2 ^ 32) (times : ℕ → ℕ) :
    Steps cfg reply {} (create cfg times) ∧ (create cfg times).InWindow cfg := by
  rw [create]
  cases hmode : cfg.sendMode with
  | rateBased =>
      refine ⟨.single (.submit (by decide) (by decide)), fun hclosed => ?_, fun _ => ?_⟩
      · rw [hmode] at hclosed
        cases hclosed
      · exact (submitRequest_eq {} _ _ _ (by decide) (by decide)).2.trans_le (le_max_left _ _)
  | maxInFlightBased =>
      dsimp only
      have hall : ∀ n ≤ cfg.maxInFlight,
          Steps cfg reply {}
            ((List.range n).foldl (fun c i => c.submitRequest cfg (times i) (requestData cfg)) {}) ∧
          ((List.range n).foldl (fun c i => c.submitRequest cfg (times i) (requestData cfg))
            ({} : FlutterClient)).nextSeq = n + 1 ∧
          ((List.range n).foldl (fun c i => c.submitRequest cfg (times i) (requestData cfg))
            ({} : FlutterClient)).numInFlight = n := by
        intro n hn
        induction n with
        | zero => exact ⟨.refl, rfl, rfl⟩
        | succ n ih =>
            obtain ⟨h, hseq, hflight⟩ := ih (by omega)
            rw [List.range_succ, List.foldl_append, List.foldl_cons, List.foldl_nil]
            have hsubmit := submitRequest_eq _ cfg (times n) (requestData cfg)
              (by rw [hseq]; omega) (by rw [hflight]; omega)
            refine ⟨.tail h (.submit (by rw [hseq]; omega) (by rw [hflight]; omega)), ?_, ?_⟩
            · rw [hsubmit.1, hseq]
            · rw [hsubmit.2, hflight]
      obtain ⟨h, -, hflight⟩ := hall cfg.maxInFlight le_rfl
      refine ⟨h, fun _ => hflight, fun hrate => ?_⟩
      rw [hmode] at hrate
      cases hrate

/-- The runs of a client. -/
def system (cfg : FlutterClientConfig) : System FlutterClient FlutterClientEvent where
  init c := ∃ times, c = create cfg times
  step c e c' := c' = c.handle cfg e

/-- **A client keeps its requests in order**, whatever replies it receives: every number so far is
that of one request, which is pending or has been committed once; a request has been sent once for
each retry, with a higher bet each time; the votes on a pending request are those of different
replicas, and too few for an outcome; and the window is kept. -/
theorem requests_in_order (hmax : cfg.maxInFlight + 2 < 2 ^ 32) {es : List FlutterClientEvent}
    (hrun : Run (system cfg) (fun _ c e => c.InRange cfg e) es c) :
    c.Orderly cfg ∧ c.InWindow cfg := by
  refine hrun.invariant (P := fun _ c => c.Orderly cfg ∧ c.InWindow cfg) ?_ ?_
  · rintro _ ⟨times, rfl⟩
    obtain ⟨hsteps, hwindow⟩ := (create_steps hmax times : Steps cfg none _ _ ∧ _)
    exact ⟨hsteps.orderly .init, hwindow⟩
  · rintro es c e c' - ⟨h, hwindow⟩ hrange rfl
    obtain ⟨hsteps, hwindow'⟩ := handle_steps h hwindow hrange
    exact ⟨hsteps.orderly h, hwindow'⟩

/-- A run goes on with an event. -/
lemma run_next {es : List FlutterClientEvent}
    (hrun : Run (system cfg) (fun _ c e => c.InRange cfg e) es c) (e : FlutterClientEvent)
    (hrange : c.InRange cfg e) :
    Run (system cfg) (fun _ c e => c.InRange cfg e) (es ++ [e]) (c.handle cfg e) :=
  hrun.step hrange rfl

/-- A closed loop of two requests, with one faulty replica. -/
def closedLoop : FlutterClientConfig where
  clientId := 0
  f := 1
  sendMode := .maxInFlightBased
  maxInFlight := 2
  requestSize := 1
  numToSend _ _ := 0
  nextSendTime t _ := t

/-- A reply about the first request of the client. -/
def replyOf (replicaId bet : ℕ) (accepted : Bool) : FlutterReply :=
  { replicaId, clientId := 0, clientSeq := 1, bet, accepted }

/-- The first request is rejected by two replicas, bet on again, and accepted by two; a late
rejection of the first bet is not counted. -/
theorem requests_in_order_retried : ∃ c : FlutterClient,
    c.Orderly closedLoop ∧ c.InWindow closedLoop ∧ c.committed = [1] ∧
      (c.requestsFor 1).map (·.bet) = [100000, 200007] := by
  have hstart : Run (system closedLoop) (fun _ c e => c.InRange closedLoop e) []
    (create closedLoop fun _ => 0) := .start ⟨_, rfl⟩
  have h₁ := run_next hstart (.message 5 (some (replyOf 0 100000 false)) 0 fun _ => 0) (by decide)
  have h₂ := run_next h₁ (.message 7 (some (replyOf 1 100000 false)) 0 fun _ => 0) (by decide)
  have h₃ := run_next h₂ (.message 8 (some (replyOf 2 100000 false)) 0 fun _ => 0) (by decide)
  have h₄ := run_next h₃ (.message 9 (some (replyOf 3 200007 true)) 0 fun _ => 0) (by decide)
  have h₅ := run_next h₄ (.message 9 (some (replyOf 4 200007 true)) 0 fun _ => 0) (by decide)
  obtain ⟨horderly, hwindow⟩ := requests_in_order (by decide) h₅
  exact ⟨_, horderly, hwindow, by decide, by decide⟩

end FlutterClient

end DomBft
