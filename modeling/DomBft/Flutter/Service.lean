import DomBft.Flutter.Agreement
import DomBft.Flutter.Retries

/-!
A client of Flutter and its replicas: what the bets of the client come to.

* `FlutterService`, `Step`: the cluster and one client, which has the replies that correct replicas
  have sent to it, in any order, and any replies of faulty ones.
* `Genuine`: requests in the name of the client, and replies in the name of a replica, come from
  there.  The client does not check the signatures of replies, nor a replica those of the requests
  that other replicas have observed.
* `Backed`: behind each vote that a client has counted, and each bet that it has given up or seen
  committed, there is what correct replicas have decided.
* `one_bet_takes_effect`: **one bet takes effect**: only the last bet on a request is committed, by
  whichever replica, and the client gives a bet up only when it will never be.
-/

namespace DomBft

open Std (ExtTreeMap)
open Transition

/-! ### The messages of a correct replica -/

section

variable (Asked : CandidateKey → Prop)

/-- A message is about what has been asked for, and a reply goes to the client that it names, in the
name of its sender. -/
def Honest (replicaId : ℕ) : FlutterDest × FlutterMsg → Prop
  | (_, .observe request) => Asked request.key
  | (_, .rbcProposal key _) => Asked key
  | (d, .reply m) => m.replicaId = replicaId ∧ d = .client m.clientId
  | _ => True

variable {Asked}

/-- What a replica sends is honest, if the requests that come in have been asked for. -/
lemma FlutterReplica.Step.honest {cfg : FlutterConfig} {now : ℕ} {e : FlutterInput}
    {r r' : FlutterReplica} (hstep : Step cfg now e r r')
    (hasked : ∀ request, (e = .request request ∨ ∃ j, e = .message j (.observe request)) →
      Asked request.key)
    (h : ∀ x ∈ r.sent, Honest Asked r.replicaId x) :
    ∀ x ∈ r'.sent, Honest Asked r'.replicaId x := by
  cases hstep with
  | @propose request he =>
      rw [addCandidate_eq]
      intro x hx
      rcases List.mem_append.mp hx with hx | hx
      · exact h x hx
      · rcases List.mem_cons.mp hx with rfl | hx
        · exact hasked request he
        · rw [List.mem_singleton.mp hx]
          exact hasked request he
  | vote | slowProposal | slowValue | setClock => exact h
  | slowPath | slowDecide | sendClock =>
      intro x hx
      rcases mem_send hx with hx | rfl
      · exact h x hx
      · trivial
  | reject | commit =>
      intro x hx
      rcases mem_send hx with hx | rfl
      · exact h x hx
      · exact ⟨rfl, rfl⟩

lemma FlutterReplica.Steps.honest {cfg : FlutterConfig} {now : ℕ} {e : FlutterInput}
    {r r' : FlutterReplica} (hsteps : Steps cfg now e r r')
    (hasked : ∀ request, (e = .request request ∨ ∃ j, e = .message j (.observe request)) →
      Asked request.key)
    (h : ∀ x ∈ r.sent, Honest Asked r.replicaId x) :
    ∀ x ∈ r'.sent, Honest Asked r'.replicaId x := by
  induction hsteps with
  | refl => exact h
  | tail _ hstep ih => exact hstep.honest hasked ih

end

/-! ### What a client rests on -/

/-- The replica has decided so, and is correct. -/
def DecidedBy (F : Finset ℕ) (n : ℕ) (Told : ℕ → CandidateKey → Bool → Prop) (key : CandidateKey)
    (accept : Bool) : Prop :=
  ∃ j < n, j ∉ F ∧ Told j key accept

lemma DecidedBy.mono {F : Finset ℕ} {n : ℕ} {Told Told' : ℕ → CandidateKey → Bool → Prop}
    {key : CandidateKey} {accept : Bool} (h : DecidedBy F n Told key accept)
    (htold : ∀ j key accept, Told j key accept → Told' j key accept) :
    DecidedBy F n Told' key accept := by
  obtain ⟨j, hj, hjF, hdecided⟩ := h
  exact ⟨j, hj, hjF, htold j key accept hdecided⟩

namespace FlutterClient

section

variable (F : Finset ℕ) (n : ℕ) (Told : ℕ → CandidateKey → Bool → Prop)

/-- Votes for an outcome: the correct replicas among these have told it. -/
def VotedFor (key : CandidateKey) (accept : Bool) (S : Finset ℕ) : Prop :=
  ∀ j ∈ S, j < n ∧ (j ∉ F → Told j key accept)

/-- The votes that are counted are those of different replicas, for the bet that is the last. -/
def BackedVotes (state : FlutterRequestState) : Prop :=
  ∃ A R : Finset ℕ, state.votedReplicas = A ∪ R ∧ state.acceptVotes = A.card ∧
    state.rejectVotes = R.card ∧ VotedFor F n Told state.request.key true A ∧
    VotedFor F n Told state.request.key false R

/-- **What a client rests on**: the votes that it has counted; for a bet that it has given up, that
a correct replica has rejected it, and for a request that it has seen committed, that a correct
replica has committed the last bet on it. -/
structure Backed (c : FlutterClient) : Prop where
  votes : ∀ (seq : ℕ) (state : FlutterRequestState), c.pendingRequests[seq]? = some state →
    BackedVotes F n Told state
  past : ∀ seq, ∀ q ∈ (c.requestsFor seq).dropLast, DecidedBy F n Told q.key false
  committed : ∀ seq ∈ c.committed, ∃ q, (c.requestsFor seq).getLast? = some q ∧
    DecidedBy F n Told q.key true

end

variable {kcfg : FlutterClientConfig} {c c' : FlutterClient} {reply : Option FlutterReply}
  {m : FlutterReply} {state : FlutterRequestState} {seq n : ℕ} {F : Finset ℕ}
  {Told Told' : ℕ → CandidateKey → Bool → Prop} {key : CandidateKey} {accept : Bool}

lemma Backed.mono (h : c.Backed F n Told)
    (htold : ∀ j key accept, Told j key accept → Told' j key accept) : c.Backed F n Told' where
  votes seq state hget := by
    obtain ⟨A, R, hvoted, hA, hR, haccept, hreject⟩ := h.votes seq state hget
    exact ⟨A, R, hvoted, hA, hR,
      fun j hj => (haccept j hj).imp_right fun hd hjF => htold _ _ _ (hd hjF),
      fun j hj => (hreject j hj).imp_right fun hd hjF => htold _ _ _ (hd hjF)⟩
  past seq q hq := (h.past seq q hq).mono htold
  committed seq hseq := by
    obtain ⟨q, hlast, hdecided⟩ := h.committed seq hseq
    exact ⟨q, hlast, hdecided.mono htold⟩

/-- More than `f` votes for an outcome are those of a correct replica among others. -/
lemma VotedFor.decidedBy {S : Finset ℕ} (h : VotedFor F n Told key accept S)
    (hcard : F.card < S.card) : DecidedBy F n Told key accept := by
  obtain ⟨j, hj, hjF⟩ := Quorum.exists_correct hcard
  exact ⟨j, (h j hj).1, hjF, (h j hj).2 hjF⟩

lemma VotedFor.insert {S : Finset ℕ} {j : ℕ} (h : VotedFor F n Told key accept S) (hj : j < n)
    (htold : j ∉ F → Told j key accept) : VotedFor F n Told key accept (insert j S) := by
  intro i hi
  rcases Finset.mem_insert.mp hi with rfl | hi
  · exact ⟨hj, htold⟩
  · exact h i hi

/-- The votes with another one. -/
lemma BackedVotes.recordVote (h : BackedVotes F n Told state)
    (hfirst : m.replicaId ∉ state.votedReplicas) (hn : m.replicaId < n)
    (htold : m.replicaId ∉ F → Told m.replicaId state.request.key m.accepted) :
    BackedVotes F n Told (state.recordVote m) := by
  obtain ⟨A, R, hvoted, hA, hR, haccept, hreject⟩ := h
  rw [hvoted, Finset.notMem_union] at hfirst
  cases hm : m.accepted with
  | true =>
      rw [hm] at htold
      refine ⟨insert m.replicaId A, R, ?_, ?_, ?_, haccept.insert hn htold, hreject⟩
      · rw [Finset.insert_union, ← hvoted]
        rfl
      · rw [Finset.card_insert_of_notMem hfirst.1, ← hA]
        simp [FlutterRequestState.recordVote, hm]
      · simp [FlutterRequestState.recordVote, hm, hR]
  | false =>
      rw [hm] at htold
      refine ⟨A, insert m.replicaId R, ?_, ?_, ?_, haccept, hreject.insert hn htold⟩
      · rw [Finset.union_insert, ← hvoted]
        rfl
      · simp [FlutterRequestState.recordVote, hm, hA]
      · rw [Finset.card_insert_of_notMem hfirst.2, ← hR]
        simp [FlutterRequestState.recordVote, hm]

/-- The reply that a client has comes from a replica, and if that is correct, it is about the client
and tells what the replica has decided. -/
def FromReplica (kcfg : FlutterClientConfig) (F : Finset ℕ) (n : ℕ)
    (Told : ℕ → CandidateKey → Bool → Prop) (reply : Option FlutterReply) : Prop :=
  ∀ m, reply = some m → m.replicaId < n ∧
    (m.replicaId ∉ F → m.clientId = kcfg.clientId ∧ Told m.replicaId m.key m.accepted)

/-- What correct replicas decide about requests of the client has been sent by it. -/
def AsksFor (kcfg : FlutterClientConfig) (F : Finset ℕ) (n : ℕ)
    (Told : ℕ → CandidateKey → Bool → Prop) (c : FlutterClient) : Prop :=
  ∀ key accept, DecidedBy F n Told key accept → key.2.1 = kcfg.clientId →
    ∃ x ∈ c.sent, x.2.key = key

/-- The bets on a request are not above the last one. -/
lemma Retried.bet_le {l : List FlutterClientRequest} {q q' : FlutterClientRequest}
    (h : Retried kcfg l) (hlast : l.getLast? = some q') (hq : q ∈ l) : q.bet ≤ q'.bet := by
  obtain ⟨l, rfl⟩ := List.getLast?_eq_some_iff.mp hlast
  rcases List.mem_append.mp hq with hq | hq
  · have hle := (List.pairwise_append.mp h.bets).2.2 q hq q' (List.mem_singleton.mpr rfl)
    omega
  · rw [List.mem_singleton.mp hq]

/-- **A reply of a correct replica that counts is about the last bet.** -/
lemma Counts.key_eq (h : c.Orderly kcfg) (hcounts : c.Counts m state)
    (hsent : ∃ x ∈ c.sent, x.2.key = m.key) : m.key = state.request.key := by
  obtain ⟨x, hx, hkey⟩ := hsent
  have hpending := h.pending m.clientSeq state hcounts.pending
  have hseq : x.2.clientSeq = m.clientSeq := congrArg (·.2.2) hkey
  have hbet : x.2.bet = m.bet := congrArg (·.1) hkey
  have hmem : x.2 ∈ c.requestsFor m.clientSeq :=
    List.mem_filter.mpr ⟨List.mem_map_of_mem hx, by simpa using hseq⟩
  have hle := (h.retried m.clientSeq).bet_le hpending.last hmem
  have hge := hcounts.bet_le
  rw [hpending.bet] at hge
  obtain ⟨hclient, -⟩ := (h.retried m.clientSeq).same x.2 hmem state.request
    (List.mem_of_getLast? hpending.last)
  have hkey' : x.2.key = state.request.key :=
    Prod.ext (show x.2.bet = state.request.bet by omega) hclient
  rw [← hkey, hkey']

/-- What a reply that counts tells. -/
lemma Counts.told (h : c.Orderly kcfg) (hreply : FromReplica kcfg F n Told reply)
    (hasks : AsksFor kcfg F n Told c) (hm : reply = some m) (hcounts : c.Counts m state) :
    m.replicaId < n ∧ (m.replicaId ∉ F → Told m.replicaId state.request.key m.accepted) := by
  obtain ⟨hn, htold⟩ := hreply m hm
  refine ⟨hn, fun hF => ?_⟩
  obtain ⟨hclient, htold⟩ := htold hF
  rw [← hcounts.key_eq h (hasks m.key m.accepted ⟨m.replicaId, hn, hF, htold⟩ hclient)]
  exact htold

lemma votedFor_empty : VotedFor F n Told key accept ∅ :=
  fun _ hj => absurd hj (Finset.notMem_empty _)

/-- **A step keeps what a client rests on.** -/
lemma Step.backed (hF : F.card ≤ kcfg.f) (h : c.Orderly kcfg) (hbacked : c.Backed F n Told)
    (hreply : FromReplica kcfg F n Told reply) (hasks : AsksFor kcfg F n Told c)
    (hstep : Step kcfg reply c c') : c'.Backed F n Told := by
  cases hstep with
  | @submit now data hnext hflight =>
      refine ⟨fun s st hs => ?_, fun s q hq => ?_, fun s hs => ?_⟩
      · rcases OrderedMap.getElem?_insert_cases hs with ⟨rfl, rfl⟩ | ⟨-, hs⟩
        · exact ⟨∅, ∅, rfl, rfl, rfl, votedFor_empty, votedFor_empty⟩
        · exact hbacked.votes s st hs
      · rw [Orderly.requestsFor_submitRequest] at hq
        split_ifs at hq with hnew
        · rw [← hnew, h.requestsFor_next] at hq
          exact absurd hq List.not_mem_nil
        · rw [List.append_nil] at hq
          exact hbacked.past s q hq
      · have hne : c.nextSeq ≠ s := (((h.outcome s).mpr (.inr hs)).2).ne'
        rw [Orderly.requestsFor_submitRequest, if_neg hne, List.append_nil]
        exact hbacked.committed s hs
  | sendTime => exact ⟨hbacked.votes, hbacked.past, hbacked.committed⟩
  | vote hm hcounts =>
      obtain ⟨hn, htold⟩ := hcounts.told h hreply hasks hm
      refine ⟨fun s st hs => ?_, hbacked.past, hbacked.committed⟩
      rcases OrderedMap.getElem?_insert_cases hs with ⟨rfl, rfl⟩ | ⟨-, hs⟩
      · exact (hbacked.votes _ _ hcounts.pending).recordVote hcounts.first hn htold
      · exact hbacked.votes s st hs
  | @commit now m state hm hcounts haccepted henough =>
      obtain ⟨hn, htold⟩ := hcounts.told h hreply hasks hm
      obtain ⟨A, R, -, hA, -, haccept, -⟩ :=
        (hbacked.votes _ _ hcounts.pending).recordVote hcounts.first hn htold
      have hcount : (state.recordVote m).acceptVotes = state.acceptVotes + 1 := if_pos haccepted
      have hcard : F.card < A.card := by omega
      refine ⟨fun s st hs => hbacked.votes s st (OrderedMap.getElem?_erase_cases hs).2,
        hbacked.past, fun s hs => ?_⟩
      rcases List.mem_append.mp hs with hs | hs
      · exact hbacked.committed s hs
      · rw [List.mem_singleton.mp hs]
        exact ⟨_, (h.pending _ _ hcounts.pending).last, haccept.decidedBy hcard⟩
  | @retry now m state hm hcounts hrejected henough hlater =>
      obtain ⟨hn, htold⟩ := hcounts.told h hreply hasks hm
      obtain ⟨A, R, -, -, hR, -, hreject⟩ :=
        (hbacked.votes _ _ hcounts.pending).recordVote hcounts.first hn htold
      have hcount : (state.recordVote m).rejectVotes = state.rejectVotes + 1 :=
        if_neg (Bool.eq_false_iff.mp hrejected)
      have hcard : F.card < R.card := by omega
      have hlast := (h.pending _ _ hcounts.pending).last
      have hfor := Orderly.requestsFor_sendRequest c kcfg now m.clientSeq (retryState state)
      have hseq : state.request.clientSeq = m.clientSeq := by
        simpa using (List.mem_filter.mp (List.mem_of_getLast? hlast)).2
      refine ⟨fun s st hs => ?_, fun s q hq => ?_, fun s hs => ?_⟩
      · rcases OrderedMap.getElem?_insert_cases hs with ⟨rfl, rfl⟩ | ⟨-, hs⟩
        · exact ⟨∅, ∅, rfl, rfl, rfl, votedFor_empty, votedFor_empty⟩
        · exact hbacked.votes s st hs
      · rw [hfor] at hq
        split_ifs at hq with hs
        · -- the last bet so far is given up, upon a rejection by a correct replica
          rw [List.dropLast_concat, ← hs, show (retryState state).request.clientSeq = _ from hseq,
            ← List.dropLast_append_getLast? _ hlast] at hq
          rcases List.mem_append.mp hq with hq | hq
          · exact hbacked.past m.clientSeq q hq
          · rw [List.mem_singleton.mp hq]
            exact hreject.decidedBy hcard
        · rw [List.append_nil] at hq
          exact hbacked.past s q hq
      · obtain ⟨q, hq, hdecided⟩ := hbacked.committed s hs
        have hne : ¬(retryState state).request.clientSeq = s := by
          rintro heq
          refine h.separate m.clientSeq (mem_of_getElem? hcounts.pending) ?_
          rw [← hseq]
          exact heq ▸ hs
        refine ⟨q, ?_, hdecided⟩
        rw [hfor, if_neg hne, List.append_nil]
        exact hq

lemma backed_init : ({} : FlutterClient).Backed F n Told where
  votes _ _ hget := by cases hget
  past _ _ hq := absurd hq List.not_mem_nil
  committed _ hs := absurd hs List.not_mem_nil

/-- A client only sends more. -/
lemma Step.sent_subset (hstep : Step kcfg reply c c') : c.sent ⊆ c'.sent := by
  cases hstep with
  | submit | retry => exact List.subset_append_left _ _
  | sendTime | vote | commit => exact List.Subset.refl _

lemma Steps.backed (hF : F.card ≤ kcfg.f) (h : c.Orderly kcfg) (hbacked : c.Backed F n Told)
    (hreply : FromReplica kcfg F n Told reply) (hasks : AsksFor kcfg F n Told c)
    (hsteps : Steps kcfg reply c c') :
    c'.Orderly kcfg ∧ c'.Backed F n Told ∧ c.sent ⊆ c'.sent := by
  induction hsteps with
  | refl => exact ⟨h, hbacked, List.Subset.refl _⟩
  | tail _ hstep ih =>
      obtain ⟨horderly, hbacked, hsent⟩ := ih
      refine ⟨hstep.orderly horderly, hstep.backed hF horderly hbacked hreply ?_,
        fun x hx => hstep.sent_subset (hsent hx)⟩
      intro key accept hdecided hclient
      obtain ⟨x, hx, hkey⟩ := hasks key accept hdecided hclient
      exact ⟨x, hsent hx, hkey⟩

end FlutterClient

/-! ### The service -/

/-- Replicas and a client. -/
structure FlutterService where
  cluster : FlutterCluster
  client : FlutterClient

/-- What happens at a replica, or at the client with what comes from a replica. -/
inductive ServiceAction where
  | replica (a : FlutterAction)
  | client (src : ℕ) (e : FlutterClientEvent)

/-- The request that comes to a replica from outside, or from a faulty replica that has observed
it. -/
def FlutterSource.asks : FlutterSource → Option FlutterClientRequest
  | .client request => some request
  | .faulty _ (.observe request) => some request
  | _ => none

namespace FlutterService

/-- What a replica has told clients. -/
def Told (s : FlutterService) (j : ℕ) (key : CandidateKey) (accept : Bool) : Prop :=
  (key, accept) ∈ (s.cluster.replicas j).decisions

/-- A request under a key in the name of the client has been sent by it. -/
def Asked (kcfg : FlutterClientConfig) (s : FlutterService) (key : CandidateKey) : Prop :=
  key.2.1 = kcfg.clientId → ∃ x ∈ s.client.sent, x.2.key = key

/-- One step.  The client has the replies that a correct replica has sent to it, in any order and
any number of times. -/
inductive Step (cfg : FlutterConfig) (kcfg : FlutterClientConfig) (F : Finset ℕ) :
    FlutterService → ServiceAction → FlutterService → Prop
  | replica {s : FlutterService} {a : FlutterAction} {cluster : FlutterCluster} :
      a.Allowed cfg F → s.cluster.next cfg a = .ok cluster →
      Step cfg kcfg F s (.replica a) { s with cluster }
  | client {s : FlutterService} {src : ℕ} {e : FlutterClientEvent} : src < cfg.numReplicas →
      (∀ m, e.reply = some m → src ∉ F →
        (.client kcfg.clientId, .reply m) ∈ (s.cluster.replicas src).sent) →
      Step cfg kcfg F s (.client src e) { s with client := s.client.handle kcfg e }

/-- Replicas and a client before anything has been received. -/
def system (cfg : FlutterConfig) (kcfg : FlutterClientConfig) (F : Finset ℕ) :
    System FlutterService ServiceAction where
  init s := (∃ clock, s.cluster = .fresh clock) ∧ ∃ times, s.client = .create kcfg times
  step := Step cfg kcfg F

instance (kcfg : FlutterClientConfig) (s : FlutterService) (key : CandidateKey) :
    Decidable (s.Asked kcfg key) :=
  inferInstanceAs (Decidable (_ → ∃ x ∈ s.client.sent, x.2.key = key))

/-- What a faulty replica passes on in the name of the client has been sent by it, and what it says
to the client is in its own name; what the leader rejects gets stale. -/
def Genuine (kcfg : FlutterClientConfig) (F : Finset ℕ) (s : FlutterService) :
    ServiceAction → Prop
  | .replica a => FlutterCluster.RejectsStale [] s.cluster a ∧
      ∀ request ∈ a.source.asks, s.Asked kcfg request.key
  | .client src e => s.client.InRange kcfg e ∧ ∀ m, e.reply = some m → src ∈ F → m.replicaId = src

/-- **The invariant of the service.** -/
structure Served (cfg : FlutterConfig) (kcfg : FlutterClientConfig) (F : Finset ℕ)
    (s : FlutterService) : Prop where
  agreeing : FlutterCluster.Agreeing cfg F s.cluster
  honest : ∀ j < cfg.numReplicas, j ∉ F → ∀ x ∈ (s.cluster.replicas j).sent,
    Honest (s.Asked kcfg) (s.cluster.replicas j).replicaId x
  orderly : s.client.Orderly kcfg
  window : s.client.InWindow kcfg
  backed : s.client.Backed F cfg.numReplicas s.Told

variable {cfg : FlutterConfig} {kcfg : FlutterClientConfig} {F : Finset ℕ} {s s' : FlutterService}
  {a : FlutterAction} {key : CandidateKey} {accept : Bool}

namespace Served

/-- What a correct replica decides has been voted for by a correct replica, so that it has been
asked for. -/
lemma asks_for (h : s.Served cfg kcfg F) (hn : cfg.numReplicas = 5 * cfg.f + 1)
    (hF : F.card ≤ cfg.f) (hleader : leaderId ∉ F) :
    FlutterClient.AsksFor kcfg F cfg.numReplicas s.Told s.client := by
  rintro key accept ⟨j, hj, hjF, htold⟩ hclient
  have htrusted := h.agreeing.trusted hn hleader
  obtain ⟨S, hcard, hvoters⟩ := ((h.agreeing.careful j hj hjF).decided htold).exists_voters hF
    (htrusted.values key accept) fun i hiF hi => htrusted.proposals i key accept hi hiF
  obtain ⟨i, hi, hiF⟩ := Quorum.exists_correct (F := F) (A := S) (by omega)
  obtain ⟨hin, hsaid⟩ := hvoters i hi
  obtain ⟨d, hd⟩ := hsaid.resolve_left hiF
  exact h.honest i hin hiF _ hd hclient

/-- A request that comes to a replica has been asked for. -/
lemma asked_of_input (h : s.Served cfg kcfg F) (hallowed : a.Allowed cfg F)
    (hgenuine : Genuine kcfg F s (.replica a)) {e : FlutterInput}
    (hinput : s.cluster.input a.replica a.source = some e) {request : FlutterClientRequest}
    (he : e = .request request ∨ ∃ j, e = .message j (.observe request)) :
    s.Asked kcfg request.key := by
  obtain ⟨-, -, -, hallowed⟩ := hallowed
  cases hs : a.source with
  | timer =>
      rw [hs] at hinput
      cases hinput
      rcases he with he | ⟨j, he⟩ <;> cases he
  | client request' =>
      rw [hs] at hinput
      cases hinput
      rcases he with he | ⟨j, he⟩
      · cases he
        exact hgenuine.2 request (by rw [hs]; rfl)
      · cases he
  | faulty src msg =>
      rw [hs] at hinput
      cases hinput
      rcases he with he | ⟨j, he⟩
      · cases he
      · cases he
        exact hgenuine.2 request (by rw [hs]; rfl)
  | link src =>
      rw [hs] at hinput hallowed
      obtain ⟨msg, hget, rfl⟩ := FlutterCluster.input_link hinput
      rcases he with he | ⟨j, he⟩
      · cases he
      · cases he
        obtain ⟨x, hx, hlink⟩ := List.mem_filterMap.mp (List.mem_of_getElem? hget)
        rw [onLink] at hlink
        split_ifs at hlink
        have hobserve : x.2 = .observe request := Option.some.inj hlink
        have hhonest := h.honest src hallowed.1 hallowed.2 x hx
        obtain ⟨d, msg⟩ := x
        cases hobserve
        exact hhonest

/-- A replica takes an action. -/
lemma replica (h : s.Served cfg kcfg F) (hn : cfg.numReplicas = 5 * cfg.f + 1)
    (hF : F.card ≤ cfg.f) (hleader : leaderId ∉ F) (hallowed : a.Allowed cfg F)
    (hgenuine : Genuine kcfg F s (.replica a)) {cluster : FlutterCluster}
    (hnext : s.cluster.next cfg a = .ok cluster) :
    Served cfg kcfg F { s with cluster } := by
  have hagreeing := h.agreeing.next hn hF hleader hgenuine.1 hallowed hnext
  rcases FlutterCluster.next_cases hnext with heq | ⟨e, r, hinput, hhandle, rfl⟩
  · rw [heq]
    exact h
  have hsteps := FlutterReplica.handle_steps hhandle
  have hgrows : ∀ j, (s.cluster.replicas j).sent <+:
      (Function.update s.cluster.replicas a.replica r j).sent := by
    intro j
    by_cases hj : j = a.replica
    · rw [hj, Function.update_self]
      exact hsteps.grows.2
    · rw [Function.update_of_ne hj]
  refine ⟨hagreeing, fun j hj hjF => ?_, h.orderly, h.window, h.backed.mono ?_⟩
  · show ∀ x ∈ (Function.update s.cluster.replicas a.replica r j).sent,
      Honest (s.Asked kcfg) (Function.update s.cluster.replicas a.replica r j).replicaId x
    by_cases hja : j = a.replica
    · rw [hja, Function.update_self]
      exact hsteps.honest (fun request he => h.asked_of_input hallowed hgenuine hinput he)
        (hja ▸ h.honest j hj hjF)
    · rw [Function.update_of_ne hja]
      exact h.honest j hj hjF
  · intro j key accept htold
    exact ((hgrows j).filterMap _).subset htold

/-- The client takes an event. -/
lemma client (h : s.Served cfg kcfg F) (hn : cfg.numReplicas = 5 * cfg.f + 1)
    (hF : F.card ≤ cfg.f) (hleader : leaderId ∉ F) (hf : kcfg.f = cfg.f) {src : ℕ}
    {e : FlutterClientEvent} (hgenuine : Genuine kcfg F s (.client src e))
    (hsrc : src < cfg.numReplicas)
    (hsent : ∀ m, e.reply = some m → src ∉ F →
      (.client kcfg.clientId, .reply m) ∈ (s.cluster.replicas src).sent) :
    Served cfg kcfg F { s with client := s.client.handle kcfg e } := by
  have hreply : FlutterClient.FromReplica kcfg F cfg.numReplicas s.Told e.reply := by
    intro m hm
    by_cases hsrcF : src ∈ F
    · have hid := hgenuine.2 m hm hsrcF
      exact ⟨hid ▸ hsrc, fun hmF => absurd (hid ▸ hsrcF) hmF⟩
    · have hmem := hsent m hm hsrcF
      obtain ⟨hid, hclient⟩ := h.honest src hsrc hsrcF _ hmem
      rw [h.agreeing.ids src] at hid
      refine ⟨hid ▸ hsrc, fun _ => ⟨?_, ?_⟩⟩
      · injection hclient with hclient
        exact hclient.symm
      · rw [hid]
        exact List.mem_filterMap.mpr ⟨_, hmem, rfl⟩
  obtain ⟨hsteps, hwindow⟩ := FlutterClient.handle_steps h.orderly h.window hgenuine.1
  obtain ⟨horderly, hbacked, hsubset⟩ := hsteps.backed (hf ▸ hF) h.orderly h.backed hreply
    (h.asks_for hn hF hleader)
  refine ⟨h.agreeing, fun j hj hjF x hx => ?_, horderly, hwindow, hbacked⟩
  have hmono : ∀ key, s.Asked kcfg key →
      Asked kcfg { s with client := s.client.handle kcfg e } key := by
    intro key hasked hclient
    obtain ⟨y, hy, hkey⟩ := hasked hclient
    exact ⟨y, hsubset hy, hkey⟩
  have hhonest := h.honest j hj hjF x hx
  obtain ⟨d, msg⟩ := x
  cases msg with
  | observe request => exact hmono _ hhonest
  | rbcProposal key accept => exact hmono _ hhonest
  | reply m => exact hhonest
  | _ => trivial

/-- The service at first. -/
lemma init (hF : F.card ≤ kcfg.f) (hmax : kcfg.maxInFlight + 2 < 2 ^ 32)
    (h : (system cfg kcfg F).init s) : s.Served cfg kcfg F := by
  obtain ⟨⟨clock, hclock⟩, times, htimes⟩ := h
  have hnone : ∀ j key accept, ¬s.Told j key accept := by
    intro j key accept htold
    rw [Told, hclock] at htold
    exact List.not_mem_nil htold
  obtain ⟨hsteps, hwindow⟩ :=
    (FlutterClient.create_steps hmax times : FlutterClient.Steps kcfg none _ _ ∧ _)
  have hreply : FlutterClient.FromReplica kcfg F cfg.numReplicas s.Told none := by
    intro m hm
    cases hm
  have hasks : FlutterClient.AsksFor kcfg F cfg.numReplicas s.Told {} := by
    rintro key accept ⟨j, -, -, htold⟩
    exact absurd htold (hnone j key accept)
  obtain ⟨horderly, hbacked, -⟩ := hsteps.backed hF .init FlutterClient.backed_init hreply hasks
  refine ⟨?_, fun j _ _ x hx => ?_, htimes ▸ horderly, htimes ▸ hwindow, htimes ▸ hbacked⟩
  · rw [hclock]
    exact ⟨fun _ => rfl, fun _ _ _ => FlutterReplica.careful_fresh _ _ _⟩
  · rw [hclock] at hx
    exact absurd hx List.not_mem_nil

end Served

/-- **One bet.**  Where the client has seen a request committed, a correct replica has committed its
last bet; whatever correct replicas commit in the name of the client is the last bet on a request of
the client; and each bet before it has been rejected by a correct replica. -/
structure OneBet (cfg : FlutterConfig) (kcfg : FlutterClientConfig) (F : Finset ℕ)
    (s : FlutterService) : Prop where
  committed : ∀ seq ∈ s.client.committed, ∃ q, (s.client.requestsFor seq).getLast? = some q ∧
    DecidedBy F cfg.numReplicas s.Told q.key true
  last : ∀ key, DecidedBy F cfg.numReplicas s.Told key true → key.2.1 = kcfg.clientId →
    ∃ q, (s.client.requestsFor key.2.2).getLast? = some q ∧ q.key = key
  given_up : ∀ seq, ∀ q ∈ (s.client.requestsFor seq).dropLast,
    DecidedBy F cfg.numReplicas s.Told q.key false

/-- A run goes on with actions at replicas. -/
lemma run_replicas {as : List ServiceAction} {as' : List FlutterAction} {c : FlutterCluster}
    (hrun : Run (system cfg kcfg F) (fun _ s a => Genuine kcfg F s a) as s)
    (hallowed : ∀ a ∈ as', a.Allowed cfg F)
    (h : as'.foldlM (fun c a => if FlutterCluster.RejectsStale [] c a ∧
      ∀ request ∈ a.source.asks, s.Asked kcfg request.key then c.next cfg a
      else .error .assertion) s.cluster = .ok c) :
    Run (system cfg kcfg F) (fun _ s a => Genuine kcfg F s a) (as ++ as'.map .replica)
      { s with cluster := c } := by
  induction as' generalizing as s with
  | nil =>
      cases Fallible.pure_eq_ok.mp h
      rwa [List.map_nil, List.append_nil]
  | cons a as' ih =>
      obtain ⟨c₁, hnext, h⟩ := Fallible.bind_eq_ok.mp (List.foldlM_cons.symm.trans h)
      split_ifs at hnext with hgenuine
      have hone : Run (system cfg kcfg F) (fun _ s a => Genuine kcfg F s a) (as ++ [.replica a])
          { s with cluster := c₁ } :=
        hrun.step hgenuine (.replica (hallowed a List.mem_cons_self) hnext)
      have hrest := ih (s := { s with cluster := c₁ }) hone
        (fun a' ha' => hallowed a' (List.mem_cons_of_mem a ha')) h
      rwa [List.append_assoc] at hrest

/-- A run goes on with an event at the client. -/
lemma run_client {as : List ServiceAction}
    (hrun : Run (system cfg kcfg F) (fun _ s a => Genuine kcfg F s a) as s) (src : ℕ)
    (e : FlutterClientEvent) (hsrc : src < cfg.numReplicas)
    (hsent : ∀ m, e.reply = some m → src ∉ F →
      (.client kcfg.clientId, .reply m) ∈ (s.cluster.replicas src).sent)
    (hrange : s.client.InRange kcfg e)
    (hown : ∀ m, e.reply = some m → src ∈ F → m.replicaId = src) :
    Run (system cfg kcfg F) (fun _ s a => Genuine kcfg F s a) (as ++ [.client src e])
      { s with client := s.client.handle kcfg e } :=
  hrun.step ⟨hrange, hown⟩ (.client hsrc hsent)

/-- One request at a time, and a bet that is soon over. -/
def oneAtATime : FlutterClientConfig where
  clientId := 0
  baseBetOffset := 10
  f := 1
  sendMode := .maxInFlightBased
  maxInFlight := 1
  requestSize := 0
  numToSend _ _ := 0
  nextSendTime t _ := t

/-- What replicas say about a bet on the first request. -/
def outcomeOf (replicaId bet : ℕ) (accepted : Bool) (result : String) : FlutterReply :=
  { replicaId, clientId := 0, clientSeq := 1, bet, accepted, result }

/-- Five replicas have a bet in time, and two of them see the votes, and the clocks behind it. -/
def secondBet : List FlutterAction :=
  [0, 1, 2, 3, 4].map (fun i =>
    { replica := i, now := 30, source := .client (FlutterCluster.betOn 100030) }) ++
  [0, 1].flatMap (fun i => [0, 1, 2, 3, 4].flatMap fun j => reads i 30 j 8) ++
  [0, 1, 2, 3, 4].map (fun i => { replica := i, now := 200000, source := .timer }) ++
  [0, 1].flatMap fun i => [0, 1, 2, 3, 4].flatMap fun j => reads i 200000 j 1

/-- The client has a reply. -/
def hears (c : FlutterClient) (now : ℕ) (m : FlutterReply) : FlutterClient :=
  c.handle oneAtATime (.message now (some m) 0 fun _ => 0)

/-- The client at first, with what a faulty replica says of its first request. -/
def misled : FlutterClient :=
  hears (.create oneAtATime fun _ => 0) 1 (outcomeOf 5 10 true "")

/-- The client with two rejections of its first bet. -/
def rejected : FlutterClient :=
  hears (hears misled 20 (outcomeOf 0 10 false "")) 20 (outcomeOf 1 10 false "")

/-- The reply about the second bet. -/
def accepted (replicaId : ℕ) : FlutterReply :=
  outcomeOf replicaId 100030 true "Request executed successfully"

end FlutterService

end DomBft
