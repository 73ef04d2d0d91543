import DomBft.Client
import DomBft.Lib.Run

/-!
What a client has seen when it commits a request.

* `ClientTrace`: a client with the messages it has counted, each with its signature, and all
  it has done; `ClientTrace.system` is every sequence of submissions, timeouts and messages.
* `FastJustified`, `NormalJustified`, `SlowJustified`: what the three paths promise about the
  signers of the messages counted.
* `Supported`, the invariant: every number in the state of a request stands for signers of
  that request.
* `CountsSigners`: the condition under which the replicas counted are the signers of what
  they are counted for.  `client_commit_sound` is **commit soundness over every run**.
-/

namespace DomBft

open Std (ExtTreeMap ExtTreeSet)
open Transition

section

variable [SignatureProvider]

/-! ### Runs of a client -/

/-- A client, the messages it has counted, and what it has done, the last first. -/
structure ClientTrace where
  client : Client
  counted : List (Msg × Bytes)
  actions : List ClientAction

/-- What can happen to a client. -/
inductive ClientEvent where
  | submit (now : ℕ)
  | timeout (now : ℕ)
  | receive (now : ℕ) (msg : Msg) (sig : Bytes)

/-- Whether an accepted message is counted: it is for a request in flight, or a summary. -/
def Client.counts (c : Client) : Msg → Bool
  | .reply m => (c.requestStates[m.clientSeq]?).isSome
  | .certReply m => (c.requestStates[m.clientSeq]?).isSome
  | .committedReply m => m.clientId = c.clientId && (c.requestStates[m.clientSeq]?).isSome
  | _ => true

namespace ClientTrace

variable (cfg : ClientConfig)

/-- One event.  A message that is accepted and counted is remembered. -/
def Step (t : ClientTrace) (ev : ClientEvent) (t' : ClientTrace) : Prop :=
  match ev with
  | .submit now =>
    t' = { t with
      client := (t.client.submitRequest cfg now).1
      actions := (t.client.submitRequest cfg now).2 ++ t.actions }
  | .timeout now =>
    t' = { t with
      client := (t.client.checkTimeouts cfg now).1
      actions := (t.client.checkTimeouts cfg now).2 ++ t.actions }
  | .receive now msg sig =>
    ∃ c actions, t.client.handleMessage cfg now msg sig = .ok (c, actions) ∧
      t' = {
        client := c
        counted := if t.client.accepts msg sig && t.client.counts msg then (msg, sig) :: t.counted
          else t.counted
        actions := actions ++ t.actions }

/-- All sequences of events at a client. -/
def system : System ClientTrace ClientEvent where
  init t := ∃ clientId, t = ⟨{ clientId }, [], []⟩
  step := Step cfg

end ClientTrace

/-! ### What the paths promise -/

/-- The replica `i` has signed the message, and it has been counted. -/
def SignedBy (ms : List (Msg × Bytes)) (i : ℕ) (msg : Msg) : Prop :=
  ∃ sig, (msg, sig) ∈ ms ∧ SignatureProvider.verify i msg.body sig = true

/-- The fast path: matching replies of a super quorum. -/
def FastJustified (cfg : Config) (ms : List (Msg × Bytes)) (clientSeq : UInt32) : Prop :=
  ∃ S : Finset ℕ, cfg.superQuorumSize ≤ S.card ∧ ∃ seq round digest result, ∀ i ∈ S,
    ∃ m : Reply, SignedBy ms i (.reply m) ∧ m.replicaId = i ∧ m.clientSeq = clientSeq ∧
      m.seq = seq ∧ m.round = round ∧ m.digest = digest ∧ m.result = result

/-- The normal path: acknowledgements of a certificate by a quorum, in one round and at one
position. -/
def NormalJustified (cfg : Config) (ms : List (Msg × Bytes)) (clientSeq : UInt32) : Prop :=
  ∃ S : Finset ℕ, cfg.quorumSize ≤ S.card ∧ ∃ seq round, ∀ i ∈ S,
    ∃ m : CertReply, SignedBy ms i (.certReply m) ∧ m.replicaId = i ∧ m.clientSeq = clientSeq ∧
      m.seq = seq ∧ m.round = round

/-- The replica `i` claims to have committed the request, in a reply or in a summary. -/
def ClaimsCommitted (ms : List (Msg × Bytes)) (clientId clientSeq : UInt32) (i : ℕ) : Prop :=
  (∃ m : CommittedReply, SignedBy ms i (.committedReply m) ∧ m.replicaId = i ∧
      m.clientId = clientId ∧ m.clientSeq = clientSeq) ∨
    ∃ m : RepairSummary, SignedBy ms i (.repairSummary m) ∧ m.replicaId = i ∧
      ∃ r ∈ m.replies, r.clientId = clientId ∧ r.clientSeq = clientSeq

/-- The slow path: claims of `f + 1` replicas. -/
def SlowJustified (cfg : Config) (ms : List (Msg × Bytes)) (clientId clientSeq : UInt32) : Prop :=
  ∃ S : Finset ℕ, cfg.f + 1 ≤ S.card ∧ ∀ i ∈ S, ClaimsCommitted ms clientId clientSeq i

/-- One of the three. -/
def Justified (cfg : Config) (ms : List (Msg × Bytes)) (clientId clientSeq : UInt32) : Prop :=
  FastJustified cfg ms clientSeq ∨ NormalJustified cfg ms clientSeq ∨
    SlowJustified cfg ms clientId clientSeq

section

variable {cfg : Config} {ms ms' : List (Msg × Bytes)} {clientId clientSeq : UInt32} {i : ℕ}

lemma SignedBy.mono (hms : ms ⊆ ms') {msg : Msg} (h : SignedBy ms i msg) : SignedBy ms' i msg := by
  obtain ⟨sig, hmem, hsig⟩ := h
  exact ⟨sig, hms hmem, hsig⟩

lemma ClaimsCommitted.mono (hms : ms ⊆ ms') (h : ClaimsCommitted ms clientId clientSeq i) :
    ClaimsCommitted ms' clientId clientSeq i := by
  rcases h with ⟨m, hm, h⟩ | ⟨m, hm, h⟩
  · exact .inl ⟨m, hm.mono hms, h⟩
  · exact .inr ⟨m, hm.mono hms, h⟩

lemma Justified.mono (hms : ms ⊆ ms') (h : Justified cfg ms clientId clientSeq) :
    Justified cfg ms' clientId clientSeq := by
  rcases h with ⟨S, hS, seq, round, digest, result, h⟩ | ⟨S, hS, seq, round, h⟩ | ⟨S, hS, h⟩
  · refine .inl ⟨S, hS, seq, round, digest, result, fun i hi => ?_⟩
    obtain ⟨m, hm, h⟩ := h i hi
    exact ⟨m, hm.mono hms, h⟩
  · refine .inr (.inl ⟨S, hS, seq, round, fun i hi => ?_⟩)
    obtain ⟨m, hm, h⟩ := h i hi
    exact ⟨m, hm.mono hms, h⟩
  · exact .inr (.inr ⟨S, hS, fun i hi => (h i hi).mono hms⟩)

end

/-! ### The invariant -/

/-- What the state of a request stands for: its replies, its largest number of matching
replies, its acknowledgements and its claims are those of signers. -/
structure Supported (ms : List (Msg × Bytes)) (clientId clientSeq : UInt32) (st : RequestState) :
    Prop where
  replies : ∀ i r, st.collector.replies[i]? = some r →
    SignedBy ms i (.reply r) ∧ r.replicaId = i ∧ r.clientSeq = clientSeq
  maxMatchSize : ∃ S : Finset ℕ, st.collector.maxMatchSize ≤ S.card ∧ ∃ key : ReplyKey, ∀ i ∈ S,
    ∃ r : Reply, SignedBy ms i (.reply r) ∧ r.replicaId = i ∧ r.clientSeq = clientSeq ∧ r.key = key
  certReplies : ∀ i ∈ st.certReplies, ∃ m : CertReply, SignedBy ms i (.certReply m) ∧
    m.replicaId = i ∧ m.clientSeq = clientSeq
  repairReplies : ∀ i ∈ st.repairReplies, ClaimsCommitted ms clientId clientSeq i

/-- Every request in flight is supported. -/
def AllSupported (ms : List (Msg × Bytes)) (c : Client) : Prop :=
  ∀ clientSeq st, c.requestStates[clientSeq]? = some st → Supported ms c.clientId clientSeq st

section

variable {cfg : ClientConfig} {ms ms' : List (Msg × Bytes)} {c : Client}
  {clientId clientSeq : UInt32} {st st' : RequestState}

lemma Supported.mono (hms : ms ⊆ ms') (h : Supported ms clientId clientSeq st) :
    Supported ms' clientId clientSeq st where
  replies i r hr := by
    obtain ⟨hs, h⟩ := h.replies i r hr
    exact ⟨hs.mono hms, h⟩
  maxMatchSize := by
    obtain ⟨S, hS, key, h⟩ := h.maxMatchSize
    refine ⟨S, hS, key, fun i hi => ?_⟩
    obtain ⟨r, hr, h⟩ := h i hi
    exact ⟨r, hr.mono hms, h⟩
  certReplies i hi := by
    obtain ⟨m, hm, h⟩ := h.certReplies i hi
    exact ⟨m, hm.mono hms, h⟩
  repairReplies i hi := (h.repairReplies i hi).mono hms

/-- Only what is counted matters. -/
lemma Supported.congr (h : Supported ms clientId clientSeq st)
    (hcollector : st'.collector = st.collector) (hcert : st'.certReplies = st.certReplies)
    (hrepair : st'.repairReplies = st.repairReplies) : Supported ms clientId clientSeq st' where
  replies := by
    rw [hcollector]
    exact h.replies
  maxMatchSize := by
    rw [hcollector]
    exact h.maxMatchSize
  certReplies := by
    rw [hcert]
    exact h.certReplies
  repairReplies := by
    rw [hrepair]
    exact h.repairReplies

/-- A new request has nothing to support. -/
lemma supported_new (request : ClientRequestProto) (now : ℕ) :
    Supported ms clientId clientSeq
      { request, firstSendTime := now, sendTime := now } where
  replies i r hr := by
    cases ExtTreeMap.getElem?_empty.symm.trans hr
  maxMatchSize := ⟨∅, le_rfl, ⟨0, 0, 0, 0, [], []⟩, by simp⟩
  certReplies i hi := by simp at hi
  repairReplies i hi := by simp at hi

lemma AllSupported.mono (hms : ms ⊆ ms') (h : AllSupported ms c) : AllSupported ms' c :=
  fun clientSeq st hst => (h clientSeq st hst).mono hms

lemma AllSupported.insert (h : AllSupported ms c) (hst : Supported ms c.clientId clientSeq st) :
    AllSupported ms { c with requestStates := c.requestStates.insert clientSeq st } := by
  intro clientSeq' st' hst'
  rcases OrderedMap.getElem?_insert_cases hst' with ⟨rfl, rfl⟩ | ⟨-, hold⟩
  · exact hst
  · exact h clientSeq' st' hold

lemma AllSupported.submitRequest (h : AllSupported ms c) (now : ℕ) :
    AllSupported ms (c.submitRequest cfg now).1 := by
  intro clientSeq st hst
  rw [Client.submitRequest, ExtTreeMap.getElem?_insertIfNew] at hst
  split at hst
  · cases Option.some.inj hst
    exact supported_new _ now
  · exact h clientSeq st hst

lemma AllSupported.commitRequest (h : AllSupported ms c) (now : ℕ) (clientSeq : UInt32)
    (replicaSeq : ℕ) : AllSupported ms (c.commitRequest cfg now clientSeq replicaSeq).1 := by
  have herase : AllSupported ms { c with requestStates := c.requestStates.erase clientSeq } := by
    intro clientSeq' st hst
    exact h clientSeq' st (OrderedMap.getElem?_erase_cases hst).2
  rw [Client.commitRequest]
  split
  · exact herase.submitRequest now
  · exact herase

lemma AllSupported.checkTimeouts (h : AllSupported ms c) (now : ℕ) :
    AllSupported ms (c.checkTimeouts cfg now).1 := by
  intro clientSeq st hst
  rw [Client.checkTimeouts, ExtTreeMap.getElem?_map, Option.map_eq_some_iff] at hst
  obtain ⟨st, hst, rfl⟩ := hst
  have hresend : Supported ms c.clientId clientSeq (Client.checkTimeout.resend cfg now st).1 := by
    rw [Client.checkTimeout.resend]
    split
    · exact (h clientSeq st hst).congr rfl rfl rfl
    · exact h clientSeq st hst
  rw [Client.checkTimeout]
  split
  · split
    · exact (h clientSeq st hst).congr rfl rfl rfl
    · exact hresend
  · exact hresend

omit [SignatureProvider] in
/-- A set of replicas as large as the set that is stored. -/
lemma card_toFinset_toList (s : ExtTreeSet ℕ compare) : s.toList.toFinset.card = s.size := by
  rw [List.toFinset_card_of_nodup, ExtTreeSet.length_toList]
  exact ExtTreeSet.distinct_toList.imp fun h => by simpa using h

omit [SignatureProvider] in
lemma mem_toFinset_toList {s : ExtTreeSet ℕ compare} {i : ℕ} : i ∈ s.toList.toFinset ↔ i ∈ s := by
  rw [List.mem_toFinset, ExtTreeSet.mem_toList]

namespace Supported

/-- Inserting a signed reply. -/
lemma insertReply (h : Supported ms clientId clientSeq st) {m : Reply} {sig : Bytes}
    (hm : SignedBy ms m.replicaId (.reply m)) (hseq : m.clientSeq = clientSeq)
    (hcollector : st'.collector = st.collector.insertReply cfg.config m sig)
    (hcert : st'.certReplies = st.certReplies) (hrepair : st'.repairReplies = st.repairReplies) :
    Supported ms clientId clientSeq st' := by
  have hreplies : ∀ i r, (st.collector.insertReply cfg.config m sig).replies[i]? = some r →
      SignedBy ms i (.reply r) ∧ r.replicaId = i ∧ r.clientSeq = clientSeq := by
    intro i r hr
    rw [CertCollector.insertReply_replies] at hr
    rcases OrderedMap.getElem?_insert_cases hr with ⟨rfl, rfl⟩ | ⟨-, hold⟩
    · exact ⟨hm, rfl, hseq⟩
    · exact h.replies i r hold
  refine ⟨by rw [hcollector]; exact hreplies, ?_, by rw [hcert]; exact h.certReplies,
    by rw [hrepair]; exact h.repairReplies⟩
  rw [hcollector]
  rcases st.collector.insertReply_maxMatchSize cfg.config m sig with heq | ⟨key, hle⟩
  · rw [heq]
    exact h.maxMatchSize
  · refine ⟨_, hle, key, fun i hi => ?_⟩
    obtain ⟨r, hr, hkey⟩ := CertCollector.mem_matching.mp hi
    obtain ⟨hs, hid, hseq⟩ := hreplies i r hr
    exact ⟨r, hs, hid, hseq, hkey⟩

/-- The fast path is justified where its threshold is reached. -/
lemma fastJustified (h : Supported ms clientId clientSeq st)
    (hsize : cfg.config.superQuorumSize ≤ st.collector.maxMatchSize) :
    FastJustified cfg.config ms clientSeq := by
  obtain ⟨S, hS, key, h⟩ := h.maxMatchSize
  refine ⟨S, hsize.trans hS, key.seq, key.round, key.digest, key.result, fun i hi => ?_⟩
  obtain ⟨r, hr, hid, hseq, rfl⟩ := h i hi
  exact ⟨r, hr, hid, hseq, rfl, rfl, rfl, rfl⟩

/-- Inserting a signed acknowledgement. -/
lemma insertCertReply (h : Supported ms clientId clientSeq st) {m : CertReply}
    (hm : SignedBy ms m.replicaId (.certReply m)) (hseq : m.clientSeq = clientSeq) :
    Supported ms clientId clientSeq
      { st with certReplies := st.certReplies.insert m.replicaId } := by
  refine ⟨h.replies, h.maxMatchSize, fun i hi => ?_, h.repairReplies⟩
  rcases ExtTreeSet.mem_insert.mp hi with heq | hi
  · cases Std.compare_eq_iff_eq.mp heq
    exact ⟨m, hm, rfl, hseq⟩
  · exact h.certReplies i hi

/-- The normal path is justified where its threshold is reached, if all acknowledgements are
for one round and position. -/
lemma normalJustified (h : Supported ms clientId clientSeq st) {seq round : ℕ}
    (hagree : ∀ m sig, (Msg.certReply m, sig) ∈ ms → m.clientSeq = clientSeq →
      m.seq = seq ∧ m.round = round)
    (hsize : cfg.config.quorumSize ≤ st.certReplies.size) :
    NormalJustified cfg.config ms clientSeq := by
  refine ⟨st.certReplies.toList.toFinset, by rw [card_toFinset_toList]; exact hsize, seq, round,
    fun i hi => ?_⟩
  obtain ⟨m, hm, hid, hseq⟩ := h.certReplies i (mem_toFinset_toList.mp hi)
  obtain ⟨sig, hmem, -⟩ := id hm
  exact ⟨m, hm, hid, hseq, hagree m sig hmem hseq⟩

/-- Inserting a claim. -/
lemma insertRepairReply (h : Supported ms clientId clientSeq st) {i : ℕ}
    (hi : ClaimsCommitted ms clientId clientSeq i) :
    Supported ms clientId clientSeq { st with repairReplies := st.repairReplies.insert i } := by
  refine ⟨h.replies, h.maxMatchSize, h.certReplies, fun j hj => ?_⟩
  rcases ExtTreeSet.mem_insert.mp hj with heq | hj
  · cases Std.compare_eq_iff_eq.mp heq
    exact hi
  · exact h.repairReplies j hj

/-- The slow path is justified where its threshold is reached. -/
lemma slowJustified (h : Supported ms clientId clientSeq st)
    (hsize : cfg.config.f + 1 ≤ st.repairReplies.size) :
    SlowJustified cfg.config ms clientId clientSeq :=
  ⟨st.repairReplies.toList.toFinset, by rw [card_toFinset_toList]; exact hsize,
    fun i hi => h.repairReplies i (mem_toFinset_toList.mp hi)⟩

end Supported

/-! ### The handlers -/

/-- What a handler may leave behind: requests that are supported, and justified
commitments. -/
structure Sound (cfg : ClientConfig) (ms : List (Msg × Bytes)) (clientId : UInt32)
    (res : Client × List ClientAction) : Prop where
  clientId_eq : res.1.clientId = clientId
  supported : AllSupported ms res.1
  justified : ∀ clientSeq replicaSeq, .commitRequest clientSeq replicaSeq ∈ res.2 →
    Justified cfg.config ms clientId clientSeq

/-- A handler that commits nothing. -/
lemma sound_of_noCommit {res : Client × List ClientAction} (hid : res.1.clientId = c.clientId)
    (h : AllSupported ms res.1) (hno : ∀ a b, .commitRequest a b ∉ res.2) :
    Sound cfg ms c.clientId res :=
  ⟨hid, h, fun a b hab => absurd hab (hno a b)⟩

lemma sound_submitRequest (h : AllSupported ms c) (now : ℕ) :
    Sound cfg ms c.clientId (c.submitRequest cfg now) :=
  sound_of_noCommit rfl (h.submitRequest now) (by simp [Client.submitRequest])

/-- Committing a request is sound if the request is justified. -/
lemma sound_commitRequest (h : AllSupported ms c) (now : ℕ) {clientSeq : UInt32} (replicaSeq : ℕ)
    (hj : Justified cfg.config ms c.clientId clientSeq) :
    Sound cfg ms c.clientId (c.commitRequest cfg now clientSeq replicaSeq) := by
  refine ⟨?_, h.commitRequest now clientSeq replicaSeq, fun a b hab => ?_⟩
  · rw [Client.commitRequest]
    split <;> rfl
  · have ha : a = clientSeq := by
      rw [Client.commitRequest] at hab
      split at hab <;> simp [Client.submitRequest] at hab <;> exact hab.1
    rw [ha]
    exact hj

omit [SignatureProvider] in
/-- Sending a certificate or a proof changes nothing that is counted, and commits nothing. -/
lemma tryCert_tryTrigger (cfg : ClientConfig) (now : ℕ) (m : Reply) (st : RequestState) :
    (∀ a b, .commitRequest a b ∉ (Client.tryCert cfg st).2) ∧
      (∀ a b, .commitRequest a b ∉ (Client.tryTrigger cfg now m (Client.tryCert cfg st).1).2) ∧
      (Client.tryTrigger cfg now m (Client.tryCert cfg st).1).1.collector = st.collector ∧
      (Client.tryTrigger cfg now m (Client.tryCert cfg st).1).1.certReplies = st.certReplies ∧
      (Client.tryTrigger cfg now m (Client.tryCert cfg st).1).1.repairReplies =
        st.repairReplies := by
  have htrigger : ∀ st : RequestState,
      (∀ a b, .commitRequest a b ∉ (Client.tryTrigger cfg now m st).2) ∧
        (Client.tryTrigger cfg now m st).1.collector = st.collector ∧
        (Client.tryTrigger cfg now m st).1.certReplies = st.certReplies ∧
        (Client.tryTrigger cfg now m st).1.repairReplies = st.repairReplies := by
    intro st
    rw [Client.tryTrigger]
    split <;> exact ⟨by simp, rfl, rfl, rfl⟩
  rw [Client.tryCert]
  split
  · exact ⟨by simp, htrigger st⟩
  · split
    · exact ⟨by simp, htrigger _⟩
    · exact ⟨by simp, htrigger st⟩

lemma sound_handleReply (h : AllSupported ms c) (now : ℕ) {m : Reply} (sig : Bytes)
    (hm : (c.requestStates[m.clientSeq]?).isSome → SignedBy ms m.replicaId (.reply m)) :
    Sound cfg ms c.clientId (c.handleReply cfg now m sig) := by
  rw [Client.handleReply]
  split
  · exact sound_of_noCommit rfl h (by simp)
  · rename_i st hst
    simp only
    set st₁ : RequestState := { st with
      quorumTime := if (st.collector.insertReply cfg.config m sig).numReceived =
        cfg.config.quorumSize then now else st.quorumTime
      certTime := if st.collector.cert.isNone ∧
        (st.collector.insertReply cfg.config m sig).cert.isSome then now else st.certTime
      collector := st.collector.insertReply cfg.config m sig } with hst₁
    have hsup : Supported ms c.clientId m.clientSeq st₁ :=
      (h m.clientSeq st hst).insertReply (hm (by rw [hst]; rfl)) rfl rfl rfl rfl
    split
    · rename_i hsize
      exact sound_commitRequest (h.insert hsup) now _ (.inl (hsup.fastJustified hsize))
    · obtain ⟨hcert, hproof, h₁, h₂, h₃⟩ := tryCert_tryTrigger cfg now m st₁
      refine sound_of_noCommit rfl (h.insert (hsup.congr h₁ h₂ h₃)) fun a b hab => ?_
      rcases List.mem_append.mp hab with hab | hab
      · exact hcert a b hab
      · exact hproof a b hab

lemma sound_handleCertReply (h : AllSupported ms c) (now : ℕ) {m : CertReply}
    (hm : (c.requestStates[m.clientSeq]?).isSome → SignedBy ms m.replicaId (.certReply m) ∧
      ∀ m' sig, (Msg.certReply m', sig) ∈ ms → m'.clientSeq = m.clientSeq →
        m'.seq = m.seq ∧ m'.round = m.round)
    {res : Client × List ClientAction} (hres : c.handleCertReply cfg now m = .ok res) :
    Sound cfg ms c.clientId res := by
  rw [Client.handleCertReply] at hres
  split at hres
  · cases hres
  split at hres
  · cases Except.ok.inj hres
    exact sound_of_noCommit rfl h (by simp)
  · rename_i st hst
    obtain ⟨hsigned, hagree⟩ := hm (by rw [hst]; rfl)
    have hsup := (h m.clientSeq st hst).insertCertReply hsigned rfl
    simp only at hres
    split at hres
    · rename_i hsize
      cases Except.ok.inj hres
      exact sound_commitRequest (h.insert hsup) now _
        (.inr (.inl (hsup.normalJustified hagree hsize)))
    · cases Except.ok.inj hres
      exact sound_of_noCommit rfl (h.insert hsup) (by simp)

lemma sound_handleCommittedReply (h : AllSupported ms c) (now : ℕ) {m : CommittedReply}
    (hm : m.clientId = c.clientId → (c.requestStates[m.clientSeq]?).isSome →
      ClaimsCommitted ms c.clientId m.clientSeq m.replicaId) :
    Sound cfg ms c.clientId (c.handleCommittedReply cfg now m) := by
  rw [Client.handleCommittedReply]
  split
  · exact sound_of_noCommit rfl h (by simp)
  rename_i hid
  split
  · exact sound_of_noCommit rfl h (by simp)
  · rename_i st hst
    have hsup := (h m.clientSeq st hst).insertRepairReply
      (hm (not_not.mp hid) (by rw [hst]; rfl))
    simp only
    split
    · rename_i hsize
      exact sound_commitRequest (h.insert hsup) now _ (.inr (.inr (hsup.slowJustified hsize)))
    · exact sound_of_noCommit rfl (h.insert hsup) (by simp)

omit [SignatureProvider] in
lemma checkTimeout_noCommit (now : ℕ) (st : RequestState) (a : UInt32) (b : ℕ) :
    .commitRequest a b ∉ (Client.checkTimeout cfg now st).2 := by
  have hresend : .commitRequest a b ∉ (Client.checkTimeout.resend cfg now st).2 := by
    rw [Client.checkTimeout.resend]
    split <;> simp
  rw [Client.checkTimeout]
  split
  · split
    · simp
    · exact hresend
  · exact hresend

omit [SignatureProvider] in
/-- Every reply of a summary that is counted names the replica `i`. -/
def NamesSigner (cfg : ClientConfig) (now i : ℕ) : List CommittedReply → Client → Prop
  | [], _ => True
  | r :: rs, c =>
    (r.clientId = c.clientId → (c.requestStates[r.clientSeq]?).isSome → r.replicaId = i) ∧
      NamesSigner cfg now i rs (c.handleCommittedReply cfg now r).1

lemma sound_handleRepairSummary (now : ℕ) {m : RepairSummary}
    (hm : SignedBy ms m.replicaId (.repairSummary m)) {rs : List CommittedReply}
    (hrs : rs ⊆ m.replies) (h : AllSupported ms c) (hnames : NamesSigner cfg now m.replicaId rs c) :
    Sound cfg ms c.clientId (Client.handleRepairSummary cfg now rs c) := by
  induction rs generalizing c with
  | nil => exact sound_of_noCommit rfl h (by simp [Client.handleRepairSummary])
  | cons r rs ih =>
      obtain ⟨hname, hnames⟩ := hnames
      have htail := List.subset_of_cons_subset hrs
      have hhead : Sound cfg ms c.clientId (c.handleCommittedReply cfg now r) :=
        sound_handleCommittedReply h now fun hid hst =>
          .inr ⟨m, by rw [hname hid hst]; exact hm, (hname hid hst).symm, r,
            hrs List.mem_cons_self, hid, rfl⟩
      rw [Client.handleRepairSummary]
      split
      · rename_i hne
        rw [Client.handleCommittedReply, if_pos hne] at hnames
        exact ih htail h hnames
      · have hrest := ih htail hhead.supported hnames
        rw [hhead.clientId_eq] at hrest
        refine ⟨hrest.clientId_eq, hrest.supported, fun a b hab => ?_⟩
        rcases List.mem_append.mp hab with hab | hab
        · exact hhead.justified a b hab
        · exact hrest.justified a b hab

end

/-! ### Every run -/

/-- What is counted is counted for its signer: the acknowledgements of one request are all
for one round and position, and the replies of a summary name the replica that has signed
it. -/
def CountsSigners (cfg : ClientConfig) : List ClientEvent → ClientTrace → ClientEvent → Prop
  | _, t, .receive _ (.certReply m) sig =>
    t.client.accepts (.certReply m) sig → t.client.counts (.certReply m) →
      ∀ m' sig', (Msg.certReply m', sig') ∈ t.counted → m'.clientSeq = m.clientSeq →
        m'.seq = m.seq ∧ m'.round = m.round
  | _, t, .receive now (.repairSummary m) sig =>
    t.client.accepts (.repairSummary m) sig → NamesSigner cfg now m.replicaId m.replies t.client
  | _, _, _ => True

variable {cfg : ClientConfig}

/-- The invariant of a run: requests are supported, commitments justified. -/
structure ClientTrace.Good (cfg : ClientConfig) (t : ClientTrace) : Prop where
  supported : AllSupported t.counted t.client
  justified : ∀ clientSeq replicaSeq, .commitRequest clientSeq replicaSeq ∈ t.actions →
    Justified cfg.config t.counted t.client.clientId clientSeq

/-- A sound handler keeps the invariant. -/
lemma ClientTrace.Good.handle {t : ClientTrace} (ht : t.Good cfg) {ms : List (Msg × Bytes)}
    (hms : t.counted ⊆ ms) {res : Client × List ClientAction}
    (hres : Sound cfg ms t.client.clientId res) :
    ClientTrace.Good cfg ⟨res.1, ms, res.2 ++ t.actions⟩ := by
  refine ⟨hres.supported, fun a b hab => ?_⟩
  show Justified cfg.config ms res.1.clientId a
  rw [hres.clientId_eq]
  rcases List.mem_append.mp hab with hab | hab
  · exact hres.justified a b hab
  · exact (ht.justified a b hab).mono hms

lemma ClientTrace.Good.step {es : List ClientEvent} {t t' : ClientTrace} {ev : ClientEvent}
    (ht : t.Good cfg) (hc : CountsSigners cfg es t ev) (hstep : ClientTrace.Step cfg t ev t') :
    t'.Good cfg := by
  cases ev with
  | submit now =>
      cases hstep
      exact ht.handle (List.Subset.refl _) (sound_submitRequest ht.supported now)
  | timeout now =>
      cases hstep
      refine ht.handle (List.Subset.refl _) (sound_of_noCommit rfl (ht.supported.checkTimeouts now)
        fun a b hab => ?_)
      obtain ⟨⟨_, st⟩, -, hab⟩ := List.mem_flatMap.mp hab
      exact checkTimeout_noCommit now st a b hab
  | receive now msg sig =>
      obtain ⟨c, actions, hhandle, rfl⟩ := hstep
      unfold Client.handleMessage at hhandle
      cases haccepts : t.client.accepts msg sig with
      | false =>
          rw [if_pos (by rw [haccepts]; rfl)] at hhandle
          cases Except.ok.inj hhandle
          exact ht
      | true =>
          rw [if_neg (by rw [haccepts]; decide)] at hhandle
          rw [Bool.true_and]
          set ms := if t.client.counts msg then (msg, sig) :: t.counted else t.counted with hms
          have hsub : t.counted ⊆ ms := by
            rw [hms]
            split
            · exact List.subset_cons_self _ _
            · exact List.Subset.refl _
          have hmem : t.client.counts msg = true → (msg, sig) ∈ ms := fun h => by
            rw [hms, if_pos h]
            exact List.mem_cons_self
          have hsupported := ht.supported.mono hsub
          refine ht.handle hsub (?_ : Sound cfg ms t.client.clientId (c, actions))
          cases msg with
          | reply m =>
              rw [← Except.ok.inj hhandle]
              rw [Client.accepts, Bool.and_eq_true] at haccepts
              exact sound_handleReply hsupported now sig fun hst =>
                ⟨sig, hmem hst, haccepts.2⟩
          | certReply m =>
              have hverify := haccepts
              rw [Client.accepts, Bool.and_eq_true] at hverify
              refine sound_handleCertReply hsupported now (fun hst =>
                ⟨⟨sig, hmem hst, hverify.2⟩, fun m' sig' hm' hseq => ?_⟩) hhandle
              rw [hms, if_pos (show t.client.counts (.certReply m) = true from hst),
                List.mem_cons] at hm'
              rcases hm' with heq | hm'
              · cases heq
                exact ⟨rfl, rfl⟩
              · exact hc haccepts hst m' sig' hm' hseq
          | committedReply m =>
              rw [← Except.ok.inj hhandle]
              refine sound_handleCommittedReply hsupported now fun hid hst =>
                .inl ⟨m, ⟨sig, hmem ?_, haccepts⟩, rfl, hid, rfl⟩
              rw [Client.counts, hst, Bool.and_true]
              exact decide_eq_true hid
          | repairSummary m =>
              rw [← Except.ok.inj hhandle]
              exact sound_handleRepairSummary now ⟨sig, hmem rfl, haccepts⟩ (List.Subset.refl _)
                hsupported (hc haccepts)
          | _ => cases haccepts

/-- **Commit soundness over every run**: as long as what is counted is counted for its
signer, the client commits a request only where one of the three paths is justified. -/
theorem client_commit_sound {es : List ClientEvent} {t : ClientTrace}
    (hrun : Run (ClientTrace.system cfg) (CountsSigners cfg) es t) {clientSeq : UInt32}
    {replicaSeq : ℕ} (h : .commitRequest clientSeq replicaSeq ∈ t.actions) :
    Justified cfg.config t.counted t.client.clientId clientSeq := by
  have hgood : t.Good cfg := by
    refine hrun.invariant (P := fun _ t => t.Good cfg) ?_ ?_
    · rintro _ ⟨clientId, rfl⟩
      refine ⟨fun clientSeq st hst => ?_, by simp⟩
      cases ExtTreeMap.getElem?_empty.symm.trans hst
    · exact fun es t ev t' _ ht hc hstep => ht.step hc hstep
  exact hgood.justified clientSeq replicaSeq h

end

/-! ### Two runs -/

section

attribute [local instance] numberSignatures

/-- A client of four replicas. -/
def oneFaultClient : ClientConfig where
  config := .oneFault
  maxInFlightBased := false
  normalPathTimeout := 10
  requestTimeout := 10
  reqData _ := []

/-- A client after its first request. -/
lemma run_submit (G : List ClientEvent → ClientTrace → ClientEvent → Prop)
    (hG : ∀ es t, G es t (.submit 0)) :
    Run (ClientTrace.system oneFaultClient) G [.submit 0]
      ⟨(({ clientId := 0 } : Client).submitRequest oneFaultClient 0).1, [],
        [.sendRequest { clientSeq := 1 }]⟩ := by
  have hstart : Run (ClientTrace.system oneFaultClient) G [] ⟨{ clientId := 0 }, [], []⟩ :=
    .start ⟨0, rfl⟩
  exact hstart.step (hG _ _) rfl

/-- A client that goes on with a message. -/
lemma run_receive {G : List ClientEvent → ClientTrace → ClientEvent → Prop}
    {es : List ClientEvent} {t : ClientTrace} (hrun : Run (ClientTrace.system oneFaultClient) G es t)
    (msg : Msg) (sig : Bytes) (hG : G es t (.receive 0 msg sig)) {c : Client}
    {actions : List ClientAction}
    (h : t.client.handleMessage oneFaultClient 0 msg sig = .ok (c, actions)) :
    Run (ClientTrace.system oneFaultClient) G (es ++ [.receive 0 msg sig])
      ⟨c, if t.client.accepts msg sig && t.client.counts msg then (msg, sig) :: t.counted
        else t.counted, actions ++ t.actions⟩ :=
  hrun.step hG ⟨c, actions, h, rfl⟩

/-- The claim of a replica to have committed the first request. -/
def committedReply (i : ℕ) : CommittedReply := { replicaId := i, clientSeq := 1 }

/-- Two replicas claim to have committed the request. -/
theorem client_commit_sound_two_claims : ∃ t : ClientTrace,
    .commitRequest 1 0 ∈ t.actions ∧ Justified .oneFault t.counted t.client.clientId 1 := by
  have hrun := run_submit (CountsSigners oneFaultClient) fun _ _ => trivial
  have hrun := run_receive hrun (.committedReply (committedReply 0)) [0] trivial rfl
  have hrun := run_receive hrun (.committedReply (committedReply 1)) [1] trivial rfl
  exact ⟨_, List.mem_cons_self, client_commit_sound hrun List.mem_cons_self⟩

/-- A summary of the replica `0` with two replies in the names of other replicas. -/
def forgedSummary : RepairSummary := { replies := [committedReply 1, committedReply 2] }

/-- One summary with two replies in the names of other replicas commits the request: no
replica has replied or acknowledged a certificate, and only the replica `0` has claimed to
have committed it. -/
theorem forged_summary_commits : ∃ (es : List ClientEvent) (t : ClientTrace),
    Run (ClientTrace.system oneFaultClient) anyStep es t ∧ .commitRequest 1 0 ∈ t.actions ∧
      ¬Justified .oneFault t.counted t.client.clientId 1 := by
  have hrun := run_submit anyStep fun _ _ => trivial
  have hrun := run_receive hrun (.repairSummary forgedSummary) [0] trivial rfl
  refine ⟨_, _, hrun, List.mem_cons_self, ?_⟩
  have honly : ∀ {i msg}, SignedBy [(.repairSummary forgedSummary, [0])] i msg →
      msg = .repairSummary forgedSummary := by
    rintro i msg ⟨sig, hmem, -⟩
    exact (Prod.mk.inj (List.mem_singleton.mp hmem)).1
  have hclaims : ∀ i, ClaimsCommitted [(.repairSummary forgedSummary, [0])] 0 1 i → i = 0 := by
    rintro i (⟨m, hm, -⟩ | ⟨m, hm, rfl, -⟩)
    · cases honly hm
    · cases honly hm
      rfl
  rintro (⟨S, hS, _, _, _, _, h⟩ | ⟨S, hS, _, _, h⟩ | ⟨S, hS, h⟩)
  · obtain ⟨i, hi⟩ := Finset.card_pos.mp (lt_of_lt_of_le (by decide) hS)
    obtain ⟨m, hm, -⟩ := h i hi
    cases honly hm
  · obtain ⟨i, hi⟩ := Finset.card_pos.mp (lt_of_lt_of_le (by decide) hS)
    obtain ⟨m, hm, -⟩ := h i hi
    cases honly hm
  · have hsub : S ⊆ {0} := fun i hi => Finset.mem_singleton.mpr (hclaims i (h i hi))
    exact absurd (hS.trans (Finset.card_le_card hsub)) (by decide)

end

end DomBft
