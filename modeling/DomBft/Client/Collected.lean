import DomBft.Client.Certificates
import DomBft.Client.Soundness

/-!
The collectors of a client that runs.

* `Holds`: every collector of the client is as a condition says; `Handled`: and a handler has sent
  the certificates of such collectors only.
* `collected_of_run`: in every run a collector is a fresh one after calls of `insertReply` with
  signed replies, so that what is shown of these calls holds of the client.
* `sent_certs_accepted`: **every certificate that a client sends is accepted by the replicas.**
-/

namespace DomBft

open Std (ExtTreeMap)
open Transition

namespace Client

variable {cfg : ClientConfig} {P : CertCollector → Prop} {c : Client} {st st' : RequestState}

/-! ### The handlers -/

/-- Every collector of the client is as `P` says. -/
def Holds (P : CertCollector → Prop) (c : Client) : Prop :=
  ∀ (clientSeq : UInt32) (st : RequestState),
    c.requestStates[clientSeq]? = some st → P st.collector

/-- So it is after a handler, which has sent certificates of such collectors only. -/
structure Handled (P : CertCollector → Prop) (res : Client × List ClientAction) : Prop where
  holds : res.1.Holds P
  certs : ∀ cert, .sendCert cert ∈ res.2 → ∃ coll, P coll ∧ coll.cert = some cert

lemma Holds.insert (h : c.Holds P) (clientSeq : UInt32) (st : RequestState)
    (hst : P st.collector) :
    Holds P { c with requestStates := c.requestStates.insert clientSeq st } := by
  intro clientSeq' st' hget
  rcases OrderedMap.getElem?_insert_cases hget with ⟨-, rfl⟩ | ⟨-, hget⟩
  · exact hst
  · exact h clientSeq' st' hget

lemma Holds.submitRequest (h : c.Holds P) (hnew : P {}) (cfg : ClientConfig) (now : ℕ) :
    Handled P (c.submitRequest cfg now) := by
  refine ⟨fun clientSeq st hget => ?_, by simp [Client.submitRequest]⟩
  rw [Client.submitRequest, ExtTreeMap.getElem?_insertIfNew] at hget
  split at hget
  · cases Option.some.inj hget
    exact hnew
  · exact h clientSeq st hget

lemma Holds.commitRequest (h : c.Holds P) (hnew : P {}) (now : ℕ) (clientSeq : UInt32)
    (replicaSeq : ℕ) : Handled P (c.commitRequest cfg now clientSeq replicaSeq) := by
  have herase : Holds P { c with requestStates := c.requestStates.erase clientSeq } := by
    intro clientSeq' st hget
    exact h clientSeq' st (OrderedMap.getElem?_erase_cases hget).2
  rw [Client.commitRequest]
  split
  · obtain ⟨hholds, hcerts⟩ := herase.submitRequest hnew cfg now
    exact ⟨hholds, by simpa using hcerts⟩
  · exact ⟨herase, by simp⟩

lemma tryCert_spec (cfg : ClientConfig) (st : RequestState) :
    (tryCert cfg st).1.collector = st.collector ∧
    ∀ cert, .sendCert cert ∈ (tryCert cfg st).2 → st.collector.cert = some cert := by
  rw [tryCert]
  split
  · simp
  · rename_i cert hcert
    split
    · exact ⟨rfl, by simp [hcert]⟩
    · simp

lemma tryTrigger_spec (cfg : ClientConfig) (now : ℕ) (reply : Reply) (st : RequestState) :
    (tryTrigger cfg now reply st).1.collector = st.collector ∧
      ∀ cert, .sendCert cert ∉ (tryTrigger cfg now reply st).2 := by
  rw [tryTrigger]
  split <;> simp

lemma checkTimeout_spec (now : ℕ) (st : RequestState) :
    (checkTimeout cfg now st).1.collector = st.collector ∧
      ∀ cert, .sendCert cert ∈ (checkTimeout cfg now st).2 → st.collector.cert = some cert := by
  have hresend : (checkTimeout.resend cfg now st).1.collector = st.collector ∧
      ∀ cert, .sendCert cert ∈ (checkTimeout.resend cfg now st).2 →
        st.collector.cert = some cert := by
    rw [checkTimeout.resend]
    split <;> simp
  rw [checkTimeout]
  split
  · rename_i cert hcert
    split
    · exact ⟨rfl, by simp [hcert]⟩
    · exact hresend
  · exact hresend

lemma Holds.checkTimeouts (h : c.Holds P) (now : ℕ) : Handled P (c.checkTimeouts cfg now) := by
  constructor
  · intro clientSeq st hget
    rw [Client.checkTimeouts, ExtTreeMap.getElem?_map, Option.map_eq_some_iff] at hget
    obtain ⟨st, hget, rfl⟩ := hget
    rw [(checkTimeout_spec now st).1]
    exact h clientSeq st hget
  · intro cert hcert
    obtain ⟨⟨clientSeq, st⟩, hst, hcert⟩ := List.mem_flatMap.mp hcert
    exact ⟨st.collector, h clientSeq st (ExtTreeMap.mem_toList_iff_getElem?_eq_some.mp hst),
      (checkTimeout_spec now st).2 cert hcert⟩

lemma Holds.handleReply (h : c.Holds P) (hnew : P {}) (now : ℕ) {reply : Reply} {sig : Bytes}
    (hreply : ∀ coll, P coll → P (coll.insertReply cfg.config reply sig)) :
    Handled P (c.handleReply cfg now reply sig) := by
  rw [Client.handleReply]
  split
  · exact ⟨h, by simp⟩
  · rename_i st hst
    have hcoll := hreply _ (h _ _ hst)
    dsimp only
    split
    · exact (h.insert _ _ hcoll).commitRequest hnew now _ _
    · generalize hst₁ : ({ st with
        quorumTime := _
        certTime := _
        collector := st.collector.insertReply cfg.config reply sig } : RequestState) = st₁
      have hcoll₁ : st₁.collector = st.collector.insertReply cfg.config reply sig := by rw [← hst₁]
      rw [← hcoll₁] at hcoll
      obtain ⟨htry, hcerts⟩ := tryCert_spec cfg st₁
      obtain ⟨htrigger, hno⟩ := tryTrigger_spec cfg now reply (tryCert cfg st₁).1
      refine ⟨h.insert _ _ (by rwa [htrigger, htry]), fun cert hcert => ?_⟩
      rcases List.mem_append.mp hcert with hcert | hcert
      · exact ⟨st₁.collector, hcoll, hcerts cert hcert⟩
      · exact absurd hcert (hno cert)

lemma Holds.handleCertReply (h : c.Holds P) (hnew : P {}) (now : ℕ) {m : CertReply}
    {res : Client × List ClientAction} (hres : c.handleCertReply cfg now m = .ok res) :
    Handled P res := by
  rw [Client.handleCertReply] at hres
  split at hres
  · cases hres
  split at hres
  · cases Except.ok.inj hres
    exact ⟨h, by simp⟩
  · rename_i st hst
    have hinsert := h.insert m.clientSeq
      { st with certReplies := st.certReplies.insert m.replicaId } (h _ st hst)
    dsimp only at hres
    split at hres
    · cases Except.ok.inj hres
      exact hinsert.commitRequest hnew now _ _
    · cases Except.ok.inj hres
      exact ⟨hinsert, by simp⟩

lemma Holds.handleCommittedReply (h : c.Holds P) (hnew : P {}) (cfg : ClientConfig) (now : ℕ)
    (m : CommittedReply) :
    Handled P (c.handleCommittedReply cfg now m) := by
  rw [Client.handleCommittedReply]
  split
  · exact ⟨h, by simp⟩
  split
  · exact ⟨h, by simp⟩
  · rename_i st hst
    have hinsert := h.insert m.clientSeq
      { st with repairReplies := st.repairReplies.insert m.replicaId } (h _ st hst)
    dsimp only
    split
    · exact hinsert.commitRequest hnew now _ _
    · exact ⟨hinsert, by simp⟩

lemma Holds.handleRepairSummary (h : c.Holds P) (hnew : P {}) (now : ℕ)
    (replies : List CommittedReply) : Handled P (Client.handleRepairSummary cfg now replies c) := by
  induction replies generalizing c with
  | nil => exact ⟨h, by simp [Client.handleRepairSummary]⟩
  | cons r rs ih =>
      rw [Client.handleRepairSummary]
      split
      · exact ih h
      · have hhead := h.handleCommittedReply hnew cfg now r
        have hrest := ih hhead.holds
        refine ⟨hrest.holds, fun cert hcert => ?_⟩
        rcases List.mem_append.mp hcert with hcert | hcert
        · exact hhead.certs cert hcert
        · exact hrest.certs cert hcert

variable [SignatureProvider]

/-- **Every handler** keeps what signed replies keep. -/
lemma Holds.handleMessage (h : c.Holds P) (hnew : P {})
    (hreply : ∀ coll (reply : Reply) sig, P coll →
      SignatureProvider.verify reply.replicaId (Msg.reply reply).body sig = true →
      P (coll.insertReply cfg.config reply sig))
    {now : ℕ} {msg : Msg} {sig : Bytes} {res : Client × List ClientAction}
    (hres : c.handleMessage cfg now msg sig = .ok res) : Handled P res := by
  unfold Client.handleMessage at hres
  by_cases haccepts : c.accepts msg sig = true
  · rw [if_neg (by rw [haccepts]; decide)] at hres
    cases msg with
    | reply m =>
        cases Except.ok.inj hres
        rw [Client.accepts, Bool.and_eq_true] at haccepts
        exact h.handleReply hnew now fun coll hcoll => hreply coll m sig hcoll haccepts.2
    | certReply m => exact h.handleCertReply hnew now hres
    | committedReply m =>
        cases Except.ok.inj hres
        exact h.handleCommittedReply hnew cfg now m
    | repairSummary m =>
        cases Except.ok.inj hres
        exact h.handleRepairSummary hnew now m.replies
    | _ => cases haccepts
  · rw [if_pos (by rw [Bool.eq_false_iff.mpr haccepts]; rfl)] at hres
    cases Except.ok.inj hres
    exact ⟨h, by simp⟩

end Client

/-! ### Every run -/

section

variable [SignatureProvider] {cfg : ClientConfig} {P : CertCollector → Prop}

open CertCollector

/-- What holds of a fresh collector and is kept by signed replies holds in every run, and of the
collectors whose certificates have been sent. -/
lemma ClientTrace.holds_of_run (hnew : P {})
    (hreply : ∀ coll (reply : Reply) sig, P coll →
      SignatureProvider.verify reply.replicaId (Msg.reply reply).body sig = true →
      P (coll.insertReply cfg.config reply sig))
    {es : List ClientEvent} {t : ClientTrace} (hrun : Run (system cfg) anyStep es t) :
    Client.Handled P (t.client, t.actions) := by
  refine hrun.invariant (P := fun _ t => Client.Handled P (t.client, t.actions)) ?_ ?_
  · rintro _ ⟨clientId, rfl⟩
    refine ⟨fun clientSeq st hget => ?_, by simp⟩
    cases ExtTreeMap.getElem?_empty.symm.trans hget
  · intro es t ev t' _ ht _ hstep
    have hafter : ∀ res : Client × List ClientAction, Client.Handled P res →
        Client.Handled P (res.1, res.2 ++ t.actions) := by
      refine fun res hres => ⟨hres.holds, fun cert hcert => ?_⟩
      rcases List.mem_append.mp hcert with hcert | hcert
      · exact hres.certs cert hcert
      · exact ht.certs cert hcert
    cases ev with
    | submit now =>
        cases hstep
        exact hafter _ (ht.holds.submitRequest hnew cfg now)
    | timeout now =>
        cases hstep
        exact hafter _ (ht.holds.checkTimeouts now)
    | receive now msg sig =>
        obtain ⟨c, actions, hhandle, rfl⟩ := hstep
        exact hafter (c, actions) (ht.holds.handleMessage hnew hreply hhandle)

/-- **The collectors of a client** are fresh ones after calls with signed replies. -/
theorem collected_of_run {es : List ClientEvent} {t : ClientTrace}
    (hrun : Run (ClientTrace.system cfg) anyStep es t) {clientSeq : UInt32} {st : RequestState}
    (hst : t.client.requestStates[clientSeq]? = some st) :
    ∃ calls, st.collector = collect cfg.config calls ∧
      ∀ x ∈ calls, SignatureProvider.verify x.1.replicaId (Msg.reply x.1).body x.2 = true := by
  have hhandled := ClientTrace.holds_of_run (P := fun coll => ∃ calls,
    coll = collect cfg.config calls ∧
      ∀ x ∈ calls, SignatureProvider.verify x.1.replicaId (Msg.reply x.1).body x.2 = true)
    ⟨[], rfl, by simp⟩ ?_ hrun
  · exact hhandled.holds clientSeq st hst
  · rintro _ reply sig ⟨calls, rfl, hsig⟩ hreply
    refine ⟨calls ++ [(reply, sig)], (collect_concat calls (reply, sig)).symm, fun x hx => ?_⟩
    rcases List.mem_append.mp hx with hx | hx
    · exact hsig x hx
    · rw [List.mem_singleton.mp hx]
      exact hreply

/-- **A certificate that a client sends** is accepted by the replicas. -/
theorem sent_certs_accepted {es : List ClientEvent} {t : ClientTrace}
    (hrun : Run (ClientTrace.system cfg) anyStep es t) {cert : Cert}
    (hcert : .sendCert cert ∈ t.actions) : verifyCert cfg.config cert = true := by
  obtain ⟨coll, hcoll, hcert⟩ := (ClientTrace.holds_of_run (P := Genuine cfg.config)
    genuine_empty (fun _ _ _ h => h.insertReply) hrun).certs cert hcert
  exact (hcoll.cert cert hcert).accepted

end

end DomBft
