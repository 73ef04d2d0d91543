import DomBft.CertCollector
import DomBft.Verify.Soundness

/-!
The certificates that a client makes of replies, and the check that the replicas make on them.

* `CertCollector.collect`: a fresh collector after a sequence of calls of `insertReply`.
* `CertRight`: what a certificate has to be, `verifyCert` of the replica included.
* `Genuine`, the invariant: every reply is stored under the replica that has signed it, and the
  certificate, if there is one, is right and of the round of the collector.
* `client_certs_verify`: **a client never makes a certificate that a replica rejects.**
-/

namespace DomBft

open Std (ExtTreeMap)

namespace CertCollector

/-! ### A collector after some calls -/

/-- A fresh collector after a sequence of calls of `insertReply`. -/
def collect (cfg : Config) (calls : List (Reply × Bytes)) : CertCollector :=
  calls.foldl (fun c x => c.insertReply cfg x.1 x.2) {}

variable {cfg : Config} {c : CertCollector}

lemma collect_append (calls calls' : List (Reply × Bytes)) :
    collect cfg (calls ++ calls') =
      calls'.foldl (fun c x => c.insertReply cfg x.1 x.2) (collect cfg calls) :=
  List.foldl_append

lemma collect_concat (calls : List (Reply × Bytes)) (x : Reply × Bytes) :
    collect cfg (calls ++ [x]) = (collect cfg calls).insertReply cfg x.1 x.2 :=
  collect_append calls [x]

/-- A call does not lower the round. -/
lemma le_insertReply_round (c : CertCollector) (reply : Reply) (sig : Bytes) :
    c.round ≤ (c.insertReply cfg reply sig).round :=
  ((advanceRound_le_iff cfg.f (c.replies.insert reply.replicaId reply).toList [] (c.round, c.cert)
    _).mp le_rfl).1

lemma le_foldl_round (c : CertCollector) (calls : List (Reply × Bytes)) :
    c.round ≤ (calls.foldl (fun c x => c.insertReply cfg x.1 x.2) c).round := by
  induction calls generalizing c with
  | nil => exact le_rfl
  | cons x calls ih => exact (le_insertReply_round c x.1 x.2).trans (ih _)

/-! ### Certificates -/

section

variable [SignatureProvider]

/-- What a certificate has to be: matching replies of a quorum of distinct replicas, with their
position and their round, which is the given one, and accepted by the replicas. -/
structure CertRight (cfg : Config) (round : ℕ) (cert : Cert) : Prop where
  quorum : cfg.quorumSize ≤ cert.replies.length
  distinct : (cert.replies.map (·.replicaId)).Nodup
  agree : ∃ key : ReplyKey, ∀ r ∈ cert.replies, r.key = key
  named : ∀ r ∈ cert.replies, r.seq = cert.seq ∧ r.round = cert.round
  current : cert.round = round
  accepted : verifyCert cfg cert = true

/-- The replies and the certificate of a collector are genuine. -/
structure Genuine (cfg : Config) (c : CertCollector) : Prop where
  replies : SignedMessages (·.replicaId) .reply c.replies c.signatures
  cert : ∀ cert ∈ c.cert, CertRight cfg c.round cert

/-- A certificate made of stored replies with one key is right. -/
lemma certRight_makeCert {replies : ExtTreeMap ℕ Reply compare}
    {sigs : ExtTreeMap ℕ Bytes compare} (hs : SignedMessages (·.replicaId) .reply replies sigs)
    {key : ReplyKey} {ms : List (ℕ × Reply)} (hq : cfg.quorumSize ≤ ms.length)
    (hsub : ms.Sublist replies.toList) (hkey : ∀ x ∈ ms, x.2.key = key) :
    CertRight cfg key.round (makeCert sigs key ms) := by
  have hnodup : ((ms.map (·.2)).map (·.replicaId)).Nodup := by
    rw [List.map_map]
    exact hs.nodup hsub
  have hagree : ∀ r ∈ ms.map (·.2), r.key = key := by
    intro r hr
    obtain ⟨x, hx, rfl⟩ := List.mem_map.mp hr
    exact hkey x hx
  -- all keys are the same, so that one at most is left without repetitions
  have hkeys : ((ms.map (·.2)).map Reply.key).dedup.length ≤ 1 := by
    rw [← List.card_toFinset, Finset.card_le_one]
    intro a ha b hb
    obtain ⟨r, hr, rfl⟩ := List.mem_map.mp (List.mem_toFinset.mp ha)
    obtain ⟨r', hr', rfl⟩ := List.mem_map.mp (List.mem_toFinset.mp hb)
    rw [hagree r hr, hagree r' hr']
  have hverify := hs.verifyAll fun x hx => hsub.subset hx
  refine ⟨by simpa [makeCert] using hq, hnodup, ⟨key, hagree⟩, fun r hr => ?_, rfl, ?_⟩
  · rw [← hagree r hr]
    exact ⟨rfl, rfl⟩
  · simp only [verifyCert, makeCert, hverify, hnodup.dedup, List.length_map, beq_self_eq_true,
      Bool.and_eq_true, decide_eq_true_eq, and_true, le_refl]
    exact ⟨(min_le_right _ _).trans hq, decide_eq_true hkeys⟩

/-- **One call** with a signed reply. -/
lemma Genuine.insertReply (h : c.Genuine cfg) {reply : Reply} {sig : Bytes}
    (hsig : SignatureProvider.verify reply.replicaId (Msg.reply reply).body sig = true) :
    (c.insertReply cfg reply sig).Genuine cfg := by
  have hs := h.replies.insert hsig
  refine ⟨hs, fun cert hcert => ?_⟩
  rcases matchReplies_cert cfg.quorumSize (c.insertReply cfg reply sig).round
      (c.signatures.insert reply.replicaId sig) (c.replies.insert reply.replicaId reply).toList []
      (c.maxMatchSize,
        (advanceRound cfg.f (c.replies.insert reply.replicaId reply).toList [] (c.round, c.cert)).2)
    with hkeep | ⟨key, ms, hmade, hround, hq, hsub, hkey⟩
  · -- the certificate is that of before, and then the round is, too
    have hcert : (advanceRound cfg.f (c.replies.insert reply.replicaId reply).toList []
        (c.round, c.cert)).2 = some cert := hkeep.symm.trans hcert
    rcases advanceRound_cases cfg.f (c.replies.insert reply.replicaId reply).toList []
        (c.round, c.cert) with heq | ⟨-, hnone⟩
    · have hround : (c.insertReply cfg reply sig).round = c.round := congrArg Prod.fst heq
      rw [heq] at hcert
      rw [hround]
      exact h.cert cert hcert
    · rw [hnone] at hcert
      cases hcert
  · cases Option.some.inj (hmade.symm.trans hcert)
    rw [← hround]
    exact certRight_makeCert hs hq hsub hkey

lemma genuine_empty : ({} : CertCollector).Genuine cfg :=
  ⟨.empty, nofun⟩

/-- The invariant after any calls with signed replies. -/
lemma genuine_collect {calls : List (Reply × Bytes)}
    (hsig : ∀ x ∈ calls, SignatureProvider.verify x.1.replicaId (Msg.reply x.1).body x.2 = true) :
    (collect cfg calls).Genuine cfg := by
  induction calls using List.reverseRecOn with
  | nil => exact genuine_empty
  | append_singleton calls x ih =>
      rw [collect_concat]
      refine (ih fun y hy => hsig y (List.mem_append_left _ hy)).insertReply (hsig x ?_)
      exact List.mem_append_right _ List.mem_cons_self

/-- **A certificate of a client is right**: after any calls of `insertReply` with signed replies
it is made of matching replies of a quorum in the round of the collector, and a replica accepts
it; and the round never decreases. -/
theorem client_certs_verify (cfg : Config) (calls : List (Reply × Bytes))
    (hsig : ∀ x ∈ calls, SignatureProvider.verify x.1.replicaId (Msg.reply x.1).body x.2 = true) :
    (∀ cert ∈ (collect cfg calls).cert, CertRight cfg (collect cfg calls).round cert) ∧
      ∀ calls', (collect cfg calls).round ≤ (collect cfg (calls ++ calls')).round := by
  refine ⟨(genuine_collect hsig).cert, fun calls' => ?_⟩
  rw [collect_append]
  exact le_foldl_round _ calls'

end

section

attribute [local instance] numberSignatures

/-- The replies of the first replicas to the first request, in a round. -/
def repliesOf (round n : ℕ) : List (Reply × Bytes) :=
  (List.range n).map fun i => ({ replicaId := i, round, clientSeq := 1 }, [UInt8.ofNat i])

/-- Three of four replicas make a certificate. -/
theorem client_certs_verify_three :
    (collect .oneFault (repliesOf 0 3)).cert.isSome ∧
      (∀ cert ∈ (collect .oneFault (repliesOf 0 3)).cert,
        CertRight .oneFault (collect .oneFault (repliesOf 0 3)).round cert) ∧
      ∀ calls', (collect .oneFault (repliesOf 0 3)).round ≤
        (collect .oneFault (repliesOf 0 3 ++ calls')).round :=
  ⟨by decide +kernel, client_certs_verify .oneFault (repliesOf 0 3) (by decide)⟩

end

end CertCollector

end DomBft
