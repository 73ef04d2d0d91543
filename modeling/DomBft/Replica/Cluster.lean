import DomBft.Lib.Network
import DomBft.Lib.OrderedMap
import DomBft.Lib.Quorum
import DomBft.Replica.Views

/-!
The replicas of a deployment, some of them Byzantine, and what they know of each other's views.

* `Msg.signed`: what a message has a signature under, its own body and what it brings along.
* `network`: the replicas, over a network that delivers anything but made-up signatures.
* `Announced`: a replica has sent a message with its name, a view and a round.
* `Attested`: the condition on repair proofs under which `view_evidence_authentic` holds: the
  sender that they name, which no signature covers, has announced their view and round.
-/

namespace DomBft

open Fallible Transition

/-! ### Signatures -/

/-- The replies of a certificate. -/
def Cert.signed (c : Cert) : List (Signable × Bytes) :=
  (c.replies.map fun m => (Msg.reply m).body).zip c.signatures

/-- The commits of a checkpoint. -/
def LogCheckpointProto.signed (c : LogCheckpointProto) : List (Signable × Bytes) :=
  (c.commits.map fun m => (Msg.commit m).body).zip c.commitSigs ++
    (c.repairCommits.map fun m => (Msg.pbftCommit m).body).zip c.repairCommitSigs

/-- The messages inside a start message. -/
def RepairStart.signed (m : RepairStart) : List (Signable × Bytes) :=
  m.log.checkpoint.signed ++ m.log.cert.elim [] Cert.signed ++
    m.preparedHistory.elim [] fun h =>
      (h.prepares.map fun p => (Msg.prepare p).body).zip h.prepareSigs

/-- The messages inside a proposal. -/
def RepairProposal.signed (p : RepairProposal) : List (Signable × Bytes) :=
  (p.startMsgs.map fun m => (Msg.repairStart m).body).zip p.signatures ++
    p.startMsgs.flatMap RepairStart.signed

/-- The messages inside a message. -/
def Msg.inner : Msg → List (Signable × Bytes)
  | .cert m => m.signed
  | .snapshotReply m =>
    m.checkpoint.signed ++ m.snapshotCheckpoint.elim [] LogCheckpointProto.signed
  | .repairReplyProof m => (m.replies.map fun r => (Msg.reply r).body).zip m.signatures
  | .repairTimeoutProof m => (m.timeouts.map fun t => (Msg.repairTimeout t).body).zip m.signatures
  | .repairStart m => m.signed
  | .prePrepare m => m.proposal.signed
  | _ => []

/-- What a message has a signature under. -/
def Msg.signed (msg : Msg) (sig : Bytes) : List (Signable × Bytes) := (msg.body, sig) :: msg.inner

/-- The replica, view and round in a message. -/
def Msg.announces : Msg → Option (ℕ × ℕ × ℕ)
  | .repairTimeout m => some (m.replicaId, m.view, m.round)
  | .repairReplyProof m => some (m.replicaId, m.view, m.round)
  | .repairTimeoutProof m => some (m.replicaId, m.view, m.round)
  | .repairStart m => some (m.replicaId, m.pbftView, m.round)
  | .prePrepare m => some (m.primaryId, m.pbftView, m.round)
  | .prepare m => some (m.replicaId, m.pbftView, m.round)
  | .pbftCommit m => some (m.replicaId, m.pbftView, m.round)
  | .repairSummary m => some (m.replicaId, m.pbftView, m.round)
  | .viewUpdate m => some (m.replicaId, m.view, m.round)
  | _ => none

/-- The body of a message to update the view belongs to no other message. -/
lemma Msg.eq_of_body_viewUpdate {msg : Msg} {m : ViewUpdate}
    (h : msg.body = (Msg.viewUpdate m).body) : msg = .viewUpdate m := by
  cases msg with
  | pbftCommit m' => cases h
  | _ => exact h

namespace Replica

section

variable {A : Type}

/-- What a replica has signed. -/
def Signed (r : Replica A) (b : Signable) : Prop := ∃ x ∈ r.sent, x.2.body = b

/-- A replica has sent a message with a name, a view and a round. -/
def Announced (r : Replica A) (i v round : ℕ) : Prop :=
  ∃ x ∈ r.sent, x.2.announces = some (i, v, round)

lemma Announced.mono {r r' : Replica A} {i v round : ℕ} (h : r.Announced i v round)
    (hsent : r.sent <+: r'.sent) : r'.Announced i v round := by
  obtain ⟨x, hx, hann⟩ := h
  exact ⟨x, hsent.subset hx, hann⟩

/-- A repair proof names a faulty replica, or one that has announced its view and round. -/
def Attested (F : Finset ℕ) (s : ℕ → Replica A) : ReplicaEvent → Prop
  | .message _ (.repairReplyProof m) _ =>
    m.replicaId ∉ F → (s m.replicaId).Announced m.replicaId m.view m.round
  | .message _ (.repairTimeoutProof m) _ =>
    m.replicaId ∉ F → (s m.replicaId).Announced m.replicaId m.view m.round
  | _ => True

end

/-! ### The network -/

section

variable {A : Type} [Application A] [Sha256] [PaddedRequestData] [SignatureProvider]

/-- The replicas of a deployment. -/
def network (cfg : Config) (app : ℕ → A) : Network ℕ (Replica A) ReplicaEvent Signable where
  init i r := r = fresh i (app i)
  step i r e r' := i < cfg.numReplicas ∧ e.Verified cfg ∧ e.InRange ∧ r.handle cfg e = .ok r'
  signed := Signed
  carries e j b := match e with
    | .message _ msg sig =>
      ∃ x ∈ msg.signed sig, x.1 = b ∧ SignatureProvider.verify j x.1 x.2 = true
    | _ => False

variable {cfg : Config} {app : ℕ → A} {F : Finset ℕ} {s : ℕ → Replica A} {e : ReplicaEvent}

/-- What an event announces of a correct replica has been announced by it. -/
lemma announced_of_unforged (hver : e.Verified cfg) (hforged : (network cfg app).Unforged F s e)
    (hatt : Attested F s e) {j v round : ℕ} (hj : j ∉ F)
    (hann : e.announcement = some (j, v, round)) : (s j).Announced j v round := by
  cases e with
  | message now msg sig =>
      cases msg with
      | viewUpdate m =>
          cases hann
          have hsig : SignatureProvider.verify m.replicaId (Msg.viewUpdate m).body sig = true :=
            Except.ok.inj hver
          obtain ⟨x, hx, hbody⟩ := hforged m.replicaId hj (Msg.viewUpdate m).body
            ⟨_, List.mem_cons_self, rfl, hsig⟩
          exact ⟨x, hx, by rw [Msg.eq_of_body_viewUpdate hbody, Msg.announces]⟩
      | repairReplyProof m =>
          cases hann
          exact hatt hj
      | repairTimeoutProof m =>
          cases hann
          exact hatt hj
      | _ => cases hann
  | _ => cases hann

omit [Application A] [Sha256] [PaddedRequestData] [SignatureProvider] in
/-- Among more replicas than there are faulty ones, all with a higher view, is a correct one. -/
lemma exists_higher {r : Replica A} {views : Std.ExtTreeMap ℕ (ℕ × ℕ) compare}
    (h : F.card < (r.higherViews views).length) :
    ∃ j ∉ F, ∃ v round, views[j]? = some (v, round) ∧ r.pbftView < v := by
  let higher := OrderedMap.keysWhere views fun v => r.pbftView < v.1
  have hcard : higher.card = (r.higherViews views).length := by
    rw [OrderedMap.card_keysWhere, higherViews, List.filter_map, List.length_map]
    rfl
  obtain ⟨j, hj, hF⟩ := Quorum.exists_correct (hcard ▸ h)
  obtain ⟨⟨v, round⟩, hv, hlt⟩ := OrderedMap.mem_keysWhere.mp hj
  exact ⟨j, hF, v, round, hv, hlt⟩

end

/-! ### Runs -/

section

variable {A : Type} [Application A] [Sha256] [PaddedRequestData] {cfg : Config} {app : ℕ → A}
  {F : Finset ℕ}

/-- What the network may deliver to a replica, where the first four have a key. -/
def Deliverable (cfg : Config) (F : Finset ℕ) (s : ℕ → Replica A) (i : ℕ) (e : ReplicaEvent) :
    Prop :=
  i < cfg.numReplicas ∧ i ∉ F ∧ @ReplicaEvent.Verified fourKeys _ cfg e ∧ e.InRange ∧
    match e with
    | .message _ msg sig => ∀ x ∈ msg.signed sig, ∀ j < 4, j ∉ F → x.2 = [UInt8.ofNat j] →
      ∃ y ∈ (s j).sent, y.2.body = x.1
    | _ => True

instance : DecidableEq Signable := inferInstanceAs (DecidableEq Msg)

instance (s : ℕ → Replica A) (i : ℕ) (e : ReplicaEvent) : Decidable (Deliverable cfg F s i e) := by
  rcases e with _ | _ <;> unfold Deliverable <;> infer_instance

/-- One step of the network, under a condition. -/
def deliver (cfg : Config) (F : Finset ℕ) (P : (ℕ → Replica A) → ReplicaEvent → Prop)
    [∀ s e, Decidable (P s e)] (s : ℕ → Replica A) (x : ℕ × ReplicaEvent) :
    Except Fault (ℕ → Replica A) :=
  if Deliverable cfg F s x.1 x.2 ∧ P s x.2 then
    (fun t j => if j = x.1 then t else s j) <$> (s x.1).handle cfg x.2
  else .error .assertion

lemma Deliverable.unforged {s : ℕ → Replica A} {i : ℕ} {e : ReplicaEvent}
    (h : Deliverable cfg F s i e) : (@network A _ _ _ fourKeys cfg app).Unforged F s e := by
  obtain ⟨-, -, -, -, hsigs⟩ := h
  intro j hj b hcarries
  cases e with
  | message now msg sig =>
      obtain ⟨y, hy, rfl, hverify⟩ := hcarries
      obtain ⟨hlt, hsig⟩ := Bool.and_eq_true_iff.mp hverify
      exact hsigs y hy j (of_decide_eq_true hlt) hj (eq_of_beq hsig)
  | _ => exact hcarries.elim

lemma Deliverable.step {s : ℕ → Replica A} {x : ℕ × ReplicaEvent} {t : Replica A}
    (h : Deliverable cfg F s x.1 x.2) (ht : (s x.1).handle cfg x.2 = .ok t) :
    ((@network A _ _ _ fourKeys cfg app).system F).step s x
      (fun j => if j = x.1 then t else s j) := by
  refine ⟨h.2.1, h.unforged, t, ⟨h.1, h.2.2.1, h.2.2.2.1, ht⟩, ?_⟩
  funext j
  rw [Function.update_apply]

/-- A run of the network from a list of deliveries. -/
lemma run_of_deliver {P : (ℕ → Replica A) → ReplicaEvent → Prop} [∀ s e, Decidable (P s e)]
    {es es' : List (ℕ × ReplicaEvent)} {s s' : ℕ → Replica A}
    (hr : Run ((@network A _ _ _ fourKeys cfg app).system F) (fun _ s x => P s x.2) es s)
    (h : es'.foldlM (deliver cfg F P) s = .ok s') :
    Run ((@network A _ _ _ fourKeys cfg app).system F) (fun _ s x => P s x.2) (es ++ es') s' := by
  induction es' generalizing es s with
  | nil =>
      cases pure_eq_ok.mp h
      rwa [List.append_nil]
  | cons x es' ih =>
      obtain ⟨s₁, hdeliver, h⟩ := bind_eq_ok.mp (List.foldlM_cons.symm.trans h)
      rw [deliver] at hdeliver
      split_ifs at hdeliver with hok
      obtain ⟨t, hhandle, rfl⟩ := map_eq_ok.mp hdeliver
      have hrest := ih (hr.step hok.2 (hok.1.step hhandle)) h
      rwa [List.append_assoc] at hrest

instance (s : ℕ → Replica A) (e : ReplicaEvent) : Decidable (Attested F s e) := by
  rcases e with _ | ⟨_, _ | _, _⟩ | _ <;> unfold Attested Announced <;> infer_instance

end

section

attribute [local instance] prefixSha shortPaddedRequestData counterWire fourKeys

/-- A proof of two replies of one replica that do not match, with a sender and a view of its
own. -/
def replyProofOf (i v : ℕ) : ReplicaEvent :=
  .message 1 (.repairReplyProof {
    replicaId := i
    round := 1
    view := v
    replies := [{ round := 1, replicaId := 3 }, { round := 1, replicaId := 3, seq := 1 }]
    signatures := [[3], [3]] }) [3]

/-- Replica 3 makes a proof, replica 0 passes it on in its own name, and replica 1 learns the
view of replica 0 from that. -/
def attestedEvents : List (ℕ × ReplicaEvent) := [(0, replyProofOf 3 0), (1, replyProofOf 0 0)]

/-- What only replica 3 has signed can be delivered at any time. -/
lemma deliverable_of_signed {s : ℕ → Replica Counter} {now : ℕ} {msg : Msg} {sig : Bytes}
    (hver : (ReplicaEvent.message now msg sig).Verified .oneFault)
    (hrange : (ReplicaEvent.message now msg sig).InRange)
    (hsig : ∀ x ∈ msg.signed sig, x.2 = [3]) :
    Deliverable .oneFault {3} s 0 (.message now msg sig) := by
  refine ⟨by decide, by decide, hver, hrange, fun x hx j hj hF hj' => absurd ?_ hF⟩
  rw [hsig x hx] at hj'
  interval_cases j <;> revert hj' <;> decide

/-- A proof that replica 3 makes can be delivered at any time, whomever it names. -/
lemma deliverable_replyProofOf (s : ℕ → Replica Counter) {i : ℕ} (hi : i = 1 ∨ i = 2) :
    Deliverable .oneFault {3} s 0 (replyProofOf i 7) := by
  have hver : @ReplicaEvent.Verified fourKeys _ .oneFault (replyProofOf i 7) ∧
      (replyProofOf i 7).InRange := by
    rcases hi with rfl | rfl <;> decide
  refine deliverable_of_signed hver.1 hver.2 fun x hx => ?_
  simp only [Msg.signed, Msg.inner, List.mem_cons, List.map_cons, List.map_nil, List.zip_cons_cons,
    List.zip_nil_left, List.not_mem_nil, or_false] at hx
  rcases hx with rfl | rfl | rfl <;> rfl

end

end Replica

end DomBft
