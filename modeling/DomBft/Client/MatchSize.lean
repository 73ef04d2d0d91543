import DomBft.Client.Certificates
import DomBft.Client.Soundness

/-!
The number of matching replies that a client decides by.

`insertReply` returns the largest number of matching replies there has been after any call.  The
client takes it for the number of replicas that now agree in the round of the collector.

* `KeepsMatches`: whether a call keeps a set of matching replies as large as the largest before.
* `keepsMatches_iff`: the largest set does not shrink exactly with these calls.
* `MatchSizeRight`: what the client relies on in one call.  `match_size_current_iff`: **the number
  is that of the round after all calls exactly if each of them keeps the matching replies.**
* `match_size_outdated`: the replies of an earlier round make the client send a proof that its
  replies do not match, with replies that do.
-/

namespace DomBft

open Std (ExtTreeMap)
open Transition

namespace ClientTrace

variable [SignatureProvider] {cfg : ClientConfig}

/-- Executing an event. -/
def exec (cfg : ClientConfig) (t : ClientTrace) : ClientEvent → Except Fault ClientTrace
  | .submit now => .ok { t with
      client := (t.client.submitRequest cfg now).1
      actions := (t.client.submitRequest cfg now).2 ++ t.actions }
  | .timeout now => .ok { t with
      client := (t.client.checkTimeouts cfg now).1
      actions := (t.client.checkTimeouts cfg now).2 ++ t.actions }
  | .receive now msg sig => do
    let (c, actions) ← t.client.handleMessage cfg now msg sig
    return {
      client := c
      counted := if t.client.accepts msg sig && t.client.counts msg then (msg, sig) :: t.counted
        else t.counted
      actions := actions ++ t.actions }

lemma step_of_exec {t t' : ClientTrace} {ev : ClientEvent} (h : exec cfg t ev = .ok t') :
    Step cfg t ev t' := by
  cases ev with
  | submit now => exact (Except.ok.inj h).symm
  | timeout now => exact (Except.ok.inj h).symm
  | receive now msg sig =>
      obtain ⟨⟨c, actions⟩, hhandle, h⟩ := Fallible.bind_eq_ok.mp h
      exact ⟨c, actions, hhandle, (Fallible.pure_eq_ok.mp h).symm⟩

/-- Events that can be executed are a run. -/
lemma run_of_exec {es es' : List ClientEvent} {t t' : ClientTrace}
    (h : Run (system cfg) anyStep es t) (hexec : es'.foldlM (exec cfg) t = .ok t') :
    Run (system cfg) anyStep (es ++ es') t' :=
  h.of_foldlM (fun _ _ _ _ _ he => ⟨trivial, step_of_exec he⟩) hexec

end ClientTrace

namespace Client

variable {cfg : ClientConfig} {c : Client} {st : RequestState} {reply : Reply} {sig : Bytes}
  {now : ℕ} {m : RepairReplyProof}

/-! ### Sending a proof -/

/-- The difference of two counts as it is computed, if it is not negative. -/
lemma toNat_sub_le {a b : ℕ} (h : b ≤ a) : (UInt32.ofNat a - UInt32.ofNat b).toNat ≤ a - b := by
  simp only [UInt32.toNat_sub, UInt32.toNat_ofNat']
  omega

/-- A request that is committed sends no proof. -/
lemma sendProof_not_mem_commitRequest (clientSeq : UInt32) (replicaSeq : ℕ) :
    .sendProof m ∉ (c.commitRequest cfg now clientSeq replicaSeq).2 := by
  rw [commitRequest]
  split <;> simp [submitRequest]

lemma sendProof_not_mem_tryCert : .sendProof m ∉ (tryCert cfg st).2 := by
  rw [tryCert]
  split
  · simp
  · split <;> simp

lemma tryCert_collector : (tryCert cfg st).1.collector = st.collector := by
  rw [tryCert]
  split
  · rfl
  · split <;> rfl

/-- A proof is sent only where enough replies of the round are not counted as matching, as long
as no more are counted than there are. -/
lemma lt_of_sendProof_tryTrigger (hle : st.collector.maxMatchSize ≤ st.collector.numReceived)
    (hm : .sendProof m ∈ (tryTrigger cfg now reply st).2) :
    cfg.config.f < st.collector.numReceived - st.collector.maxMatchSize := by
  rw [tryTrigger] at hm
  split at hm
  · rename_i h
    exact h.2.2.1.trans_le (toNat_sub_le hle)
  · cases hm

lemma lt_of_sendProof (hst : c.requestStates[reply.clientSeq]? = some st)
    (hle : (st.collector.insertReply cfg.config reply sig).maxMatchSize ≤
      (st.collector.insertReply cfg.config reply sig).numReceived)
    (hm : .sendProof m ∈ (c.handleReply cfg now reply sig).2) :
    cfg.config.f < (st.collector.insertReply cfg.config reply sig).numReceived -
      (st.collector.insertReply cfg.config reply sig).maxMatchSize := by
  simp only [handleReply, hst] at hm
  split at hm
  · exact absurd hm (sendProof_not_mem_commitRequest _ _)
  · rcases List.mem_append.mp hm with hm | hm
    · exact absurd hm sendProof_not_mem_tryCert
    · have hlt := lt_of_sendProof_tryTrigger (by rwa [tryCert_collector]) hm
      rwa [tryCert_collector] at hlt

end Client

namespace CertCollector

variable {cfg : Config} {c : CertCollector} {reply : Reply} {sig : Bytes}

/-! ### The round after a call -/

/-- The collector with a reply recorded. -/
def recorded (c : CertCollector) (reply : Reply) : CertCollector :=
  { c with replies := c.replies.insert reply.replicaId reply }

/-- The number of replicas whose stored reply is of a round. -/
def replied (c : CertCollector) (round : ℕ) : ℕ := c.replies.toList.countP (·.2.round = round)

/-- With the replies that are stored, the round rises to `R`: that of `f + 1` replies, and the
highest one. -/
def Enters (cfg : Config) (c : CertCollector) (R : ℕ) : Prop :=
  c.round < R ∧ cfg.f + 1 ≤ c.replied R ∧ ∀ R', R < R' → c.replied R' ≤ cfg.f

lemma Enters.unique {R R' : ℕ} (h : c.Enters cfg R) (h' : c.Enters cfg R') : R = R' := by
  rcases Nat.lt_trichotomy R R' with hlt | heq | hlt
  · exact absurd (h'.2.1.trans (h.2.2 R' hlt)) (Nat.not_succ_le_self _)
  · exact heq
  · exact absurd (h.2.1.trans (h'.2.2 R hlt)) (Nat.not_succ_le_self _)

lemma insertReply_round_le_iff {R : ℕ} : (c.insertReply cfg reply sig).round ≤ R ↔
    c.round ≤ R ∧ ∀ R', cfg.f + 1 ≤ (c.recorded reply).replied R' → R' ≤ R := by
  have hcount : ∀ R', (((c.replies.insert reply.replicaId reply).toList.map
      fun x : ℕ × Reply => x.2.round) ++ []).count R' = (c.recorded reply).replied R' := by
    intro R'
    rw [List.append_nil, List.count, List.countP_map, replied, recorded]
    exact List.countP_congr fun x _ => by simp
  refine (advanceRound_le_iff cfg.f (c.replies.insert reply.replicaId reply).toList []
    (c.round, c.cert) R).trans (and_congr_right fun _ => ⟨fun h R' hR' => ?_, fun h R' _ hR' => ?_⟩)
  · rw [← hcount] at hR'
    have hmem := List.count_pos_iff.mp (Nat.zero_lt_of_lt hR')
    rw [List.append_nil] at hmem
    exact h R' hmem hR'
  · rw [hcount] at hR'
    exact h R' hR'

/-- After a call the round is that of before, or one that is entered. -/
lemma insertReply_round_cases (cfg : Config) (c : CertCollector) (reply : Reply) (sig : Bytes) :
    ((c.insertReply cfg reply sig).round = c.round ∧
        ∀ R, c.round < R → (c.recorded reply).replied R ≤ cfg.f) ∨
      (c.recorded reply).Enters cfg (c.insertReply cfg reply sig).round := by
  have hbounds := insertReply_round_le_iff.mp (le_refl (c.insertReply cfg reply sig).round)
  have habove : ∀ R, (c.insertReply cfg reply sig).round < R →
      (c.recorded reply).replied R ≤ cfg.f := fun R hR =>
    Nat.le_of_lt_succ (not_le.mp fun hf => absurd (hbounds.2 R hf) (not_le.mpr hR))
  rcases hbounds.1.eq_or_lt with heq | hlt
  · exact .inl ⟨heq.symm, by rwa [← heq] at habove⟩
  · refine .inr ⟨hlt, ?_, habove⟩
    -- were there fewer, the round would not be as high
    by_contra hf
    have hle : (c.insertReply cfg reply sig).round ≤ (c.insertReply cfg reply sig).round - 1 := by
      refine insertReply_round_le_iff.mpr ⟨Nat.le_sub_one_of_lt hlt, fun R' hR' => ?_⟩
      refine Nat.le_sub_one_of_lt ((hbounds.2 R' hR').lt_of_ne fun heq => hf ?_)
      rwa [heq] at hR'
    omega

/-! ### What a call keeps -/

/-- Whether a call keeps a set of matching replies that is as large as the largest before: a reply
of the round that is replaced by one with another key leaves a set no larger than some other set
of matching replies is then, and in a round that is entered as many replies match as before. -/
structure KeepsMatches (cfg : Config) (c : CertCollector) (reply : Reply) : Prop where
  stay : (∀ R, c.round < R → (c.recorded reply).replied R ≤ cfg.f) →
    ∀ old, c.replies[reply.replicaId]? = some old → old.round = c.round → old.key ≠ reply.key →
      ∃ key : ReplyKey, key ≠ old.key ∧ key.round = c.round ∧
        (c.matching old.key).card ≤ ((c.recorded reply).matching key).card
  enter : ∀ R, (c.recorded reply).Enters cfg R → ∀ key : ReplyKey, key.round = c.round →
    ∃ key' : ReplyKey, key'.round = R ∧
      (c.matching key).card ≤ ((c.recorded reply).matching key').card

lemma matching_insertReply (cfg : Config) (sig : Bytes) (key : ReplyKey) :
    (c.insertReply cfg reply sig).matching key = (c.recorded reply).matching key := rfl

lemma mem_matching_recorded {key : ReplyKey} {i : ℕ} : i ∈ (c.recorded reply).matching key ↔
    if reply.replicaId = i then reply.key = key else i ∈ c.matching key := by
  rw [mem_matching, recorded, ExtTreeMap.getElem?_insert]
  by_cases hi : reply.replicaId = i
  · simp [hi]
  · rw [if_neg hi, if_neg (mt Std.compare_eq_iff_eq.mp hi), mem_matching]

/-- Only the set that a replica leaves loses a member. -/
lemma matching_subset_recorded {key : ReplyKey}
    (h : reply.replicaId ∈ c.matching key → reply.key = key) :
    c.matching key ⊆ (c.recorded reply).matching key := by
  intro i hi
  rw [mem_matching_recorded]
  split
  · rename_i heq
    rw [← heq] at hi
    exact h hi
  · exact hi

lemma matching_recorded_ssubset {old : Reply} (hold : c.replies[reply.replicaId]? = some old)
    (hkey : old.key ≠ reply.key) : (c.recorded reply).matching old.key ⊂ c.matching old.key := by
  refine Finset.ssubset_iff_subset_ne.mpr ⟨fun i hi => ?_, fun heq => ?_⟩
  · rw [mem_matching_recorded] at hi
    split at hi
    · exact absurd hi.symm hkey
    · exact hi
  · have hmem : reply.replicaId ∈ c.matching old.key := mem_matching.mpr ⟨old, hold, rfl⟩
    rw [← heq, mem_matching_recorded, if_pos rfl] at hmem
    exact hkey hmem.symm

/-- The largest set does not shrink where the round stays. -/
lemma largestMatch_le_stay (h : KeepsMatches cfg c reply)
    (hround : (c.insertReply cfg reply sig).round = c.round)
    (hstay : ∀ R, c.round < R → (c.recorded reply).replied R ≤ cfg.f) :
    c.largestMatch ≤ (c.insertReply cfg reply sig).largestMatch := by
  obtain ⟨key, hkey, hcard⟩ := c.exists_card_matching
  rw [hcard]
  by_cases hleave : reply.replicaId ∈ c.matching key ∧ reply.key ≠ key
  · obtain ⟨old, hold, rfl⟩ := mem_matching.mp hleave.1
    obtain ⟨key', -, hkey', hle⟩ := h.stay hstay old hold hkey hleave.2.symm
    exact hle.trans (card_matching_le (hkey'.trans hround.symm))
  · have hsub := matching_subset_recorded fun hmem => not_not.mp fun hne => hleave ⟨hmem, hne⟩
    exact (Finset.card_le_card hsub).trans (card_matching_le (hkey.trans hround.symm))

/-- **The largest set of matching replies** does not shrink exactly with a call that keeps
them. -/
lemma keepsMatches_iff (sig : Bytes) : KeepsMatches cfg c reply ↔
    c.largestMatch ≤ (c.insertReply cfg reply sig).largestMatch := by
  obtain ⟨key', hkey', hcard'⟩ := (c.insertReply cfg reply sig).exists_card_matching
  rcases insertReply_round_cases cfg c reply sig with ⟨hround, hstay⟩ | henter
  · refine ⟨fun h => largestMatch_le_stay h hround hstay, fun h => ⟨?_, fun R hR => ?_⟩⟩
    · intro _ old hold hold' hne
      have hle := (card_matching_le (show old.key.round = c.round from hold')).trans h
      rw [hcard'] at hle
      refine ⟨key', fun heq => ?_, hkey'.trans hround, hle⟩
      have hlt := Finset.card_lt_card (matching_recorded_ssubset hold hne)
      rw [← heq, ← matching_insertReply cfg sig] at hlt
      rw [← heq] at hle
      exact absurd hle (not_le.mpr hlt)
    · exact absurd (hR.2.1.trans (hstay R hR.1)) (Nat.not_succ_le_self _)
  · constructor
    · intro h
      obtain ⟨key, hkey, hcard⟩ := c.exists_card_matching
      obtain ⟨key₁, hkey₁, hle⟩ := h.enter _ henter key hkey
      rw [hcard]
      exact hle.trans (card_matching_le (c := c.insertReply cfg reply sig) hkey₁)
    · refine fun h => ⟨fun hstay => ?_, fun R hR key hkey => ⟨key', ?_, ?_⟩⟩
      · exact absurd (henter.2.1.trans (hstay _ henter.1)) (Nat.not_succ_le_self _)
      · rw [hkey', henter.unique hR]
      · have hle := (card_matching_le hkey).trans h
        rwa [hcard'] at hle

/-! ### Calls in a row -/

/-- What the client relies on in a call: that the number returned is that of the largest set of
matching replies of the round.  Then its difference to the number of replies of the round does not
wrap around, and a proof is sent only where more than `f` of these are not in the largest set. -/
structure MatchSizeRight (cfg : Config) (c : CertCollector) (reply : Reply) (sig : Bytes) :
    Prop where
  returned : (c.insertReply cfg reply sig).maxMatchSize = (c.insertReply cfg reply sig).largestMatch
  noUnderflow :
    (c.insertReply cfg reply sig).maxMatchSize ≤ (c.insertReply cfg reply sig).numReceived
  proof : ∀ (ccfg : ClientConfig) (cl : Client) (st : RequestState) (now : ℕ), ccfg.config = cfg →
    cl.requestStates[reply.clientSeq]? = some st → st.collector = c →
    ∀ m, .sendProof m ∈ (cl.handleReply ccfg now reply sig).2 →
      cfg.f < (c.insertReply cfg reply sig).numReceived -
        (c.insertReply cfg reply sig).largestMatch

/-- Where the number returned is right, so is what the client does with it. -/
lemma matchSizeRight_of_returned (h : (c.insertReply cfg reply sig).maxMatchSize =
    (c.insertReply cfg reply sig).largestMatch) : MatchSizeRight cfg c reply sig := by
  have hle : (c.insertReply cfg reply sig).maxMatchSize ≤
      (c.insertReply cfg reply sig).numReceived := h.trans_le (largestMatch_le_numReceived _)
  refine ⟨h, hle, ?_⟩
  rintro ccfg cl st now rfl hst rfl m hm
  exact h ▸ Client.lt_of_sendProof hst hle hm

/-- The calls of `insertReply` on a fresh collector all have a property. -/
def Each (cfg : Config) (P : CertCollector → Reply → Bytes → Prop) (calls : List (Reply × Bytes)) :
    Prop :=
  ∀ (pre : List (Reply × Bytes)) (reply : Reply) (sig : Bytes),
    pre ++ [(reply, sig)] <+: calls → P (collect cfg pre) reply sig

lemma each_concat {P : CertCollector → Reply → Bytes → Prop} {calls : List (Reply × Bytes)} :
    Each cfg P (calls ++ [(reply, sig)]) ↔ Each cfg P calls ∧ P (collect cfg calls) reply sig := by
  constructor
  · exact fun h => ⟨fun pre r s hpre => h pre r s (hpre.trans (List.prefix_append _ _)),
      h calls reply sig (List.prefix_refl _)⟩
  · rintro ⟨h, hlast⟩ pre r s hpre
    rcases List.prefix_concat_iff.mp hpre with heq | hpre
    · obtain ⟨rfl, hx⟩ := List.append_inj' heq rfl
      cases hx
      exact hlast
    · exact h pre r s hpre

/-- After calls that have all returned the right number. -/
lemma collect_maxMatchSize {calls : List (Reply × Bytes)}
    (h : Each cfg (MatchSizeRight cfg) calls) :
    (collect cfg calls).maxMatchSize = (collect cfg calls).largestMatch := by
  rcases List.eq_nil_or_concat' calls with rfl | ⟨calls, x, rfl⟩
  · rfl
  · rw [collect_concat]
    exact (each_concat.mp h).2.returned

/-- **The number of matching replies is that of the round** after each of a sequence of calls,
and the client decides rightly by it, exactly if every call keeps the matching replies. -/
theorem match_size_current_iff (cfg : Config) (calls : List (Reply × Bytes)) :
    Each cfg (MatchSizeRight cfg) calls ↔
      Each cfg (fun c reply _ => KeepsMatches cfg c reply) calls := by
  induction calls using List.reverseRecOn with
  | nil =>
      have hnil : ∀ (pre : List (Reply × Bytes)) x, ¬pre ++ [x] <+: [] := fun pre x h => by
        simpa using List.prefix_nil.mp h
      exact ⟨fun _ pre r s h => absurd h (hnil pre _), fun _ pre r s h => absurd h (hnil pre _)⟩
  | append_singleton calls x ih =>
      obtain ⟨reply, sig⟩ := x
      rw [each_concat, each_concat, ← ih]
      refine and_congr_right fun h => ?_
      rw [keepsMatches_iff sig]
      have hmax := insertReply_maxMatchSize_eq cfg (collect cfg calls) reply sig
      rw [collect_maxMatchSize h] at hmax
      constructor
      · intro hright
        rw [hright.returned] at hmax
        exact max_eq_right_iff.mp hmax.symm
      · exact fun hle => matchSizeRight_of_returned (hmax.trans (max_eq_right hle))

/-! ### Replies of an earlier round -/

section

attribute [local instance] numberSignatures

/-- Three replies that match, and then two that match in the next round. -/
def overtakenReplies : List (Reply × Bytes) := repliesOf 0 3 ++ repliesOf 1 2

/-- A proof made of the last two. -/
def matchingProof : RepairReplyProof where
  round := 1
  replies := (repliesOf 1 2).map (·.1)
  signatures := [[0], [1]]

/-- **The replies of an earlier round** are still counted: the last of the calls returns the
number `3` with two replies of the round, which match, and a client sends a proof with these. -/
theorem match_size_outdated :
    ¬Each .oneFault (MatchSizeRight .oneFault) overtakenReplies ∧
      ∃ (es : List ClientEvent) (t : ClientTrace),
        Run (ClientTrace.system oneFaultClient) anyStep es t ∧
        .sendProof matchingProof ∈ t.actions ∧
        ∃ st ∈ t.client.requestStates[(1 : UInt32)]?, st.collector.maxMatchSize = 3 ∧
          st.collector.numReceived = 2 ∧ st.collector.largestMatch = 2 := by
  constructor
  · intro h
    have hreturned := (h (repliesOf 0 3 ++ repliesOf 1 1) _ _ (List.prefix_refl _)).returned
    exact absurd hreturned (by decide +kernel)
  · have hsubmit := run_submit anyStep fun _ _ => trivial
    obtain ⟨t, ht, hP⟩ : ∃ t, (overtakenReplies.map fun x : Reply × Bytes =>
        ClientEvent.receive 0 (.reply x.1) x.2).foldlM (ClientTrace.exec oneFaultClient)
        ⟨(({ clientId := 0 } : Client).submitRequest oneFaultClient 0).1, [],
          [.sendRequest { clientSeq := 1 }]⟩ = .ok t ∧
        ClientAction.sendProof matchingProof ∈ t.actions ∧
        ∃ st ∈ t.client.requestStates[(1 : UInt32)]?, st.collector.maxMatchSize = 3 ∧
          st.collector.numReceived = 2 ∧ st.collector.largestMatch = 2 := by
      decide +kernel
    exact ⟨_, t, ClientTrace.run_of_exec hsubmit ht, hP⟩

end

end CertCollector

end DomBft
