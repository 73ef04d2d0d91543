import DomBft.Replica.Frame
import DomBft.Verify.Soundness

/-!
The proofs with which a replica starts a repair, and the checks that the others make on them.

* `ReplyCollector.addAndCheckReply_cases`, `CheckpointCollector.addAndCheckTimeout_cases`: the
  proofs that the collectors make.
* `verifyReplyProof_iff`, `verifyTimeoutProof_iff`: when the checks accept such a proof.
* `roundSystem`, `Collected`: one round of a replica, and what it has collected.
* `repair_proofs_accepted`: a proof that is broadcast is accepted exactly if it has `f + 1`
  messages, all of the current round.  `two_replies_rejected`: it need not have.
-/

namespace DomBft

open Std (ExtTreeMap)
open Transition Fallible

/-! ### The proofs that are made -/

namespace ReplyCollector

variable {cfg : Config} {c : ReplyCollector} {sigs : ExtTreeMap ℕ Bytes compare} {q id : ℕ}

/-- Where all replies have the same key, the largest number of matching replies is that of all. -/
lemma length_le_matchReplies {rs seen : List (ℕ × Reply)} {mm : ℕ} {cert : Option Cert}
    {ret : Bool} {k : ReplyKeyTuple} (hk : ∀ x ∈ seen ++ rs, x.2.keyTuple = k)
    (hmm : seen.length ≤ mm) :
    (seen ++ rs).length ≤ (matchReplies q id sigs rs seen (mm, cert, ret)).1 := by
  induction rs generalizing seen mm cert ret with
  | nil => rwa [List.append_nil]
  | cons x rs ih =>
      have happ : seen ++ x :: rs = (seen ++ [x]) ++ rs := by simp
      rw [happ] at hk ⊢
      refine ih hk ?_
      have hall : (seen ++ [x]).filter (fun y => y.2.keyTuple = x.2.keyTuple) = seen ++ [x] := by
        rw [List.filter_eq_self]
        intro y hy
        rw [hk y (List.mem_append_left _ hy), hk x (by simp), decide_eq_true rfl]
      rw [hall]
      exact le_max_right _ _

/-- A certificate takes as many matching replies as it has to. -/
lemma le_of_matchReplies {rs seen : List (ℕ × Reply)} {mm : ℕ} {cert : Option Cert} {ret : Bool}
    (hmm : ret = true → q ≤ mm)
    (h : (matchReplies q id sigs rs seen (mm, cert, ret)).2.2 = true) :
    q ≤ (matchReplies q id sigs rs seen (mm, cert, ret)).1 := by
  induction rs generalizing seen mm cert ret with
  | nil => exact hmm h
  | cons x rs ih =>
      rw [matchReplies] at h ⊢
      by_cases hq : q ≤ ((seen ++ [x]).filter fun y => y.2.keyTuple = x.2.keyTuple).length ∧
          id ∈ ((seen ++ [x]).filter fun y => y.2.keyTuple = x.2.keyTuple).map (·.1)
      · rw [if_pos hq] at h ⊢
        exact ih (fun _ => hq.1.trans (le_max_right _ _)) h
      · rw [if_neg hq] at h ⊢
        exact ih (fun hret => (hmm hret).trans (le_max_left _ _)) h

lemma length_le_matched {rs : List (ℕ × Reply)} {k : ReplyKeyTuple} (id : ℕ)
    (sigs : ExtTreeMap ℕ Bytes compare) (hk : ∀ x ∈ rs, x.2.keyTuple = k) :
    rs.length ≤ (matchReplies q id sigs rs [] (0, none, false)).1 :=
  @length_le_matchReplies sigs q id rs [] 0 none false k hk le_rfl

lemma le_matched {rs : List (ℕ × Reply)}
    (h : (matchReplies q id sigs rs [] (0, none, false)).2.2 = true) :
    q ≤ (matchReplies q id sigs rs [] (0, none, false)).1 :=
  le_of_matchReplies (fun h => by cases h) h

/-- **What a reply does to the collector**: it is stored, and the proof is made of all that are
stored where they do not match. -/
lemma addAndCheckReply_cases [SignatureProvider] (hcfg : cfg.WellFormed)
    (hkeys : ∀ i b sig, SignatureProvider.verify i b sig = true → i < cfg.numReplicas)
    (hc : SignedMessages (·.replicaId) .reply c.replies c.replySigs) {m : Reply} {sig : Bytes}
    (hm : SignatureProvider.verify m.replicaId (Msg.reply m).body sig = true) :
    let c' := (c.addAndCheckReply cfg m sig).1
    c'.replies = c.replies.insert m.replicaId m ∧
      SignedMessages (·.replicaId) .reply c'.replies c'.replySigs ∧
      (c'.repairReplyProof = c.repairReplyProof ∨
        (c.addAndCheckReply cfg m sig).2 = false ∧
          c'.repairReplyProof = some (makeProof c'.replies c'.replySigs) ∧
          ∀ k, ∃ x ∈ c'.replies.toList, x.2.keyTuple ≠ k) := by
  have hsigned := hc.insert hm
  have hsize := hsigned.size_le hkeys
  rw [addAndCheckReply]
  by_cases hkeep : (c.replies.insert m.replicaId m).size = c.replies.size ∨
      (c.hasOwnReply || m.replicaId == c.replicaId) = false ∨ c.cert.isSome = true
  · split_ifs
    · exact ⟨rfl, hsigned, .inl rfl⟩
    · exact ⟨rfl, hsigned, .inl rfl⟩
    · exact ⟨rfl, hsigned, .inl rfl⟩
    · simp_all
  · rw [not_or, not_or] at hkeep
    rw [if_neg hkeep.1, if_neg (by simpa using hkeep.2.1), if_neg hkeep.2.2]
    obtain ⟨⟨mm, cert, ret⟩, hres⟩ : ∃ res, matchReplies cfg.superQuorumSize c.replicaId
        (c.replySigs.insert m.replicaId sig) (c.replies.insert m.replicaId m).toList []
        (0, none, false) = res := ⟨_, rfl⟩
    simp only [hres]
    split_ifs with hshort
    · refine ⟨trivial, hsigned, .inr ⟨?_, rfl, fun k => ?_⟩⟩
      · rw [← Bool.not_eq_true]
        intro hret
        have hq := le_matched (by rw [hres]; exact hret)
        rw [hres] at hq
        dsimp only at hq
        omega
      · by_contra hall
        push Not at hall
        have hlen := length_le_matched (q := cfg.superQuorumSize) c.replicaId
          (c.replySigs.insert m.replicaId sig) hall
        rw [hres, ExtTreeMap.length_toList] at hlen
        simp only [Config.WellFormed, Config.superQuorumSize] at hcfg hshort
        omega
    · exact ⟨trivial, hsigned, .inl rfl⟩

end ReplyCollector

/-! ### The checks -/

section

variable [SignatureProvider] {cfg : Config}

omit [SignatureProvider] in
lemma dedup_length_ne_one {α : Type} [DecidableEq α] {l : List α} {a b : α} (ha : a ∈ l)
    (hb : b ∈ l) (hab : a ≠ b) : l.dedup.length ≠ 1 := by
  intro h
  obtain ⟨c, hc⟩ := List.length_eq_one_iff.mp h
  have hmem : ∀ x ∈ l, x = c := fun x hx => by
    have hx := List.mem_dedup.mpr hx
    rwa [hc, List.mem_singleton] at hx
  exact hab ((hmem a ha).trans (hmem b hb).symm)

/-- **A proof made of replies that do not match** is accepted exactly if there are `f + 1` of
them, all of the round of the proof. -/
lemma verifyReplyProof_iff {replies : ExtTreeMap ℕ Reply compare}
    {sigs : ExtTreeMap ℕ Bytes compare}
    (hs : SignedMessages (·.replicaId) .reply replies sigs)
    (hne : ∀ k, ∃ x ∈ replies.toList, x.2.keyTuple ≠ k) (replicaId round view : ℕ) :
    verifyRepairReplyProof cfg
        { ReplyCollector.makeProof replies sigs with replicaId, round, view } = true ↔
      cfg.f + 1 ≤ (replies.toList.map (·.2)).length ∧
        ∀ x ∈ replies.toList.map (·.2), x.round = round := by
  have hver := hs.verifyAll (l := replies.toList) fun _ => id
  obtain ⟨x, hx, -⟩ := hne ⟨[], 0, 0⟩
  obtain ⟨y, hy, hxy⟩ := hne x.2.keyTuple
  have hkey : y.2.key ≠ x.2.key := by
    intro h
    refine hxy ?_
    simp only [Reply.key, ReplyKey.mk.injEq] at h
    simp [Reply.keyTuple, h]
  have hdedup : ((replies.toList.map (·.2)).map Reply.key).dedup.length ≠ 1 :=
    dedup_length_ne_one (List.mem_map_of_mem (List.mem_map_of_mem hy))
      (List.mem_map_of_mem (List.mem_map_of_mem hx)) hkey
  have hnodup : ((replies.toList.map (·.2)).map fun r => (r.key, r.replicaId)).Nodup := by
    refine List.Nodup.of_map (·.2) ?_
    rw [List.map_map, List.map_map]
    exact hs.nodup (List.Sublist.refl _)
  simp only [verifyRepairReplyProof, ReplyCollector.makeProof, hver, hnodup.dedup,
    List.length_map, bne_iff_ne.mpr hdedup, beq_self_eq_true, Bool.and_true, le_refl, and_true,
    Bool.and_eq_true, decide_eq_true_eq, List.all_eq_true, beq_iff_eq]

/-- **A proof made of the timeouts of a round** is accepted exactly if there are `f + 1` of
them. -/
lemma verifyTimeoutProof_iff {timeouts : ExtTreeMap ℕ RepairTimeout compare}
    {sigs : ExtTreeMap ℕ Bytes compare}
    (hs : SignedMessages (·.replicaId) .repairTimeout timeouts sigs)
    (hsize : timeouts.size = cfg.f + 1) (replicaId round view : ℕ) :
    let own := timeouts.toList.filter (·.2.round = round)
    verifyRepairTimeoutProof cfg {
        replicaId, round, view
        timeouts := own.map (·.2)
        signatures := own.map fun (id, _) => (sigs[id]?).getD [] } = true ↔
      ∀ x ∈ timeouts.toList.map (·.2), x.round = round := by
  intro own
  have hver := hs.verifyAll (l := own) fun x hx => (List.mem_filter.mp hx).1
  have hnodup : ((own.map (·.2)).map (·.replicaId)).Nodup := by
    rw [List.map_map]
    exact hs.nodup List.filter_sublist
  have hround : (own.map (·.2)).all (·.round == round) = true := by
    rw [List.all_eq_true]
    intro x hx
    obtain ⟨y, hy, rfl⟩ := List.mem_map.mp hx
    simpa using (List.mem_filter.mp hy).2
  have hall : cfg.f + 1 ≤ own.length ↔ ∀ x ∈ timeouts.toList.map (·.2), x.round = round := by
    rw [← hsize, ← ExtTreeMap.length_toList]
    constructor
    · intro hle x hx
      obtain ⟨y, hy, rfl⟩ := List.mem_map.mp hx
      have heq := List.filter_sublist.eq_of_length_le hle
      have hy' : y ∈ own := by rw [show own = timeouts.toList from heq]; exact hy
      simpa using (List.mem_filter.mp hy').2
    · intro h
      have heq : own = timeouts.toList := by
        refine List.filter_eq_self.mpr fun y hy => ?_
        simpa using h y.2 (List.mem_map_of_mem hy)
      rw [heq]
  simp only [verifyRepairTimeoutProof, hver, hnodup, hround, List.length_map, beq_self_eq_true,
    Bool.and_true, decide_true, decide_eq_true_eq, hall]

end

/-! ### What a replica has collected -/

/-- The replies and the timeouts of a collector, and the proof made of the replies. -/
structure Gathered where
  replies : ExtTreeMap ℕ Reply compare := ∅
  replySigs : ExtTreeMap ℕ Bytes compare := ∅
  repairReplyProof : Option RepairReplyProof := none
  repairTimeouts : ExtTreeMap ℕ RepairTimeout compare := ∅
  repairTimeoutSigs : ExtTreeMap ℕ Bytes compare := ∅

/-- What a collector has gathered. -/
def CheckpointCollector.gathered (c : CheckpointCollector) : Gathered where
  replies := c.replyCollector.replies
  replySigs := c.replyCollector.replySigs
  repairReplyProof := c.replyCollector.repairReplyProof
  repairTimeouts := c.repairTimeouts
  repairTimeoutSigs := c.repairTimeoutSigs

lemma CheckpointCollector.addAndCheckReply_eq {cfg : Config} {now : ℕ}
    {c c' : CheckpointCollector} {m : Reply} {sig : Bytes} {ready : Bool}
    (h : c.addAndCheckReply cfg now m sig = (c', ready)) :
    c'.replyCollector = (c.replyCollector.addAndCheckReply cfg m sig).1 ∧
      ready = (c.replyCollector.addAndCheckReply cfg m sig).2 ∧ c'.round = c.round ∧
      c'.repairTimeouts = c.repairTimeouts ∧ c'.repairTimeoutSigs = c.repairTimeoutSigs := by
  rw [addAndCheckReply, Prod.mk.injEq] at h
  obtain ⟨rfl, rfl⟩ := h
  exact ⟨rfl, rfl, rfl, rfl, rfl⟩

/-- **What a timeout does to the collector**: it is stored, and with the `f + 1`-st one those of
the round are made a proof. -/
lemma CheckpointCollector.addAndCheckTimeout_cases {cfg : Config} {c c' : CheckpointCollector}
    {m : RepairTimeout} {sig : Bytes} {ready : Bool}
    (h : c.addAndCheckTimeout cfg m sig = (c', ready)) :
    c'.replyCollector = c.replyCollector ∧ c'.round = c.round ∧
      c'.repairTimeouts = c.repairTimeouts.insert m.replicaId m ∧
      c'.repairTimeoutSigs = c.repairTimeoutSigs.insert m.replicaId sig ∧
      (ready = true → c'.repairTimeouts.size = cfg.f + 1 ∧
        let own := c'.repairTimeouts.toList.filter (·.2.round = c.round)
        c'.repairTimeoutProof = some {
          timeouts := own.map (·.2)
          signatures := own.map fun (id, _) => (c'.repairTimeoutSigs[id]?).getD [] }) := by
  rw [addAndCheckTimeout] at h
  dsimp only at h
  split_ifs at h with hsize
  · cases h
    exact ⟨rfl, rfl, rfl, rfl, fun _ => ⟨hsize, rfl⟩⟩
  · cases h
    exact ⟨rfl, rfl, rfl, rfl, fun hr => by cases hr⟩

lemma CheckpointCollectorStore.initCollector_cases {s s' : CheckpointCollectorStore}
    {replicaId round seq : ℕ} {needsSnapshot ok : Bool}
    (h : s.initCollector replicaId round seq needsSnapshot = .ok (s', ok)) :
    s' = s ∨ s' = s.set round seq (.create replicaId round seq needsSnapshot) := by
  rw [initCollector] at h
  generalize (if needsSnapshot then s.stableSeq else s.committedSeq) = passed at h
  split_ifs at h
  · cases h
    exact .inl rfl
  · cases h
    exact .inr rfl

namespace Replica

variable {A : Type} {r r' : Replica A} {cfg : Config} {now : ℕ}

/-- What has been gathered for a position in the current round. -/
def gathered (r : Replica A) (seq : ℕ) : Gathered :=
  ((r.checkpointCollectors.collectors[(r.round, seq)]?).map (·.gathered)).getD {}

/-- Every collector knows its round. -/
def RoundsKnown (r : Replica A) : Prop :=
  ∀ (key : ℕ × ℕ) (coll : CheckpointCollector),
    r.checkpointCollectors.collectors[key]? = some coll → coll.round = key.1

/-- The round and what has been gathered for it stay as they are. -/
structure KeepsGathered (r r' : Replica A) : Prop where
  quiet : Quiet r r'
  gathered : ∀ seq, r'.gathered seq = r.gathered seq
  rounds : r.RoundsKnown → r'.RoundsKnown

namespace KeepsGathered

lemma refl (r : Replica A) : KeepsGathered r r := ⟨.refl r, fun _ => rfl, id⟩

lemma trans {r'' : Replica A} (h : KeepsGathered r r') (h' : KeepsGathered r' r'') :
    KeepsGathered r r'' :=
  ⟨h.quiet.trans h'.quiet, fun seq => (h'.gathered seq).trans (h.gathered seq),
    fun hr => h'.rounds (h.rounds hr)⟩

/-- Where the collectors stay, what they have gathered does. -/
lemma of_collectors (hq : Quiet r r') (hcc : r'.checkpointCollectors = r.checkpointCollectors) :
    KeepsGathered r r' := by
  have hround : r'.round = r.round := by rw [hq.eq]
  refine ⟨hq, fun seq => ?_, fun hr => ?_⟩
  · rw [Replica.gathered, Replica.gathered, hcc, hround]
  · rw [RoundsKnown, hcc]
    exact hr

end KeepsGathered

/-- A collector that is changed in place. -/
lemma gathered_setCollector (coll : CheckpointCollector) (seq seq' : ℕ) :
    (r.setCollector r.round seq coll).gathered seq' =
      if seq' = seq then coll.gathered else r.gathered seq' := by
  rw [gathered, gathered]
  simp only [setCollector, CheckpointCollectorStore.set, ExtTreeMap.getElem?_insert,
    Std.LawfulEqCmp.compare_eq_iff_eq, Prod.mk.injEq, true_and]
  by_cases h : seq = seq'
  · rw [if_pos h, if_pos h.symm]
    rfl
  · rw [if_neg h, if_neg (Ne.symm h)]

lemma roundsKnown_setCollector (hr : r.RoundsKnown) {coll : CheckpointCollector} {round seq : ℕ}
    (hc : coll.round = round) : (r.setCollector round seq coll).RoundsKnown := by
  intro key c hget
  rcases OrderedMap.getElem?_insert_cases hget with ⟨rfl, rfl⟩ | ⟨-, hget⟩
  · exact hc
  · exact hr key c hget

/-- A collector that is there for the current round. -/
lemma gathered_eq_of_get {seq : ℕ} {coll : CheckpointCollector}
    (h : r.checkpointCollectors.get r.round seq = .ok coll) :
    r.checkpointCollectors.collectors[(r.round, seq)]? = some coll ∧
      r.gathered seq = coll.gathered := by
  rw [CheckpointCollectorStore.get] at h
  split at h
  · cases h
  · rename_i c hget
    cases h
    exact ⟨hget, by rw [gathered, hget]; rfl⟩

/-- A new collector has gathered nothing. -/
lemma initCollector_keepsGathered {seq : ℕ} {needsSnapshot ok : Bool}
    (h : r.initCollector r.round seq needsSnapshot = .ok (r', ok)) : KeepsGathered r r' := by
  have hq := (initCollector_quiet h).1
  rw [initCollector] at h
  split_ifs at h with hhas
  · cases h
    exact .refl r
  obtain ⟨⟨cc, created⟩, hcc, h⟩ := bind_eq_ok.mp h
  cases h
  rcases CheckpointCollectorStore.initCollector_cases hcc with rfl | rfl
  · exact .of_collectors hq rfl
  · refine ⟨hq, fun seq' => (gathered_setCollector _ seq seq').trans ?_,
      fun hr => roundsKnown_setCollector hr rfl⟩
    split_ifs with hs
    · subst hs
      have hnone : r.checkpointCollectors.collectors[(r.round, seq')]? = none :=
        ExtTreeMap.getElem?_eq_none fun hmem => hhas (ExtTreeMap.contains_iff_mem.mpr hmem)
      rw [gathered, hnone]
      rfl
    · rfl

/-- The own state does not count as gathered. -/
lemma startCheckpoint_keepsGathered [Application A] {b : Bool}
    (h : r.startCheckpoint b = .ok r') : KeepsGathered r r' := by
  have h0 : KeepsGathered r (if b then r.takeSnapshot else r) := by
    cases b with
    | false => exact .refl r
    | true => exact .of_collectors (takeSnapshot_quiet r) rfl
  rw [startCheckpoint] at h
  obtain ⟨⟨r₁, ok⟩, h₁, h⟩ := bind_eq_ok.mp h
  have hk := h0.trans (initCollector_keepsGathered h₁)
  cases ok with
  | false =>
      cases h
      exact hk
  | true =>
      obtain ⟨coll, hget, h⟩ := bind_eq_ok.mp h
      obtain ⟨digest, -, h⟩ := bind_eq_ok.mp h
      obtain ⟨entry, -, h⟩ := bind_eq_ok.mp h
      cases h
      obtain ⟨hcoll, hgath⟩ := gathered_eq_of_get hget
      have hset : KeepsGathered r₁ (r₁.setCollector r₁.round (r.log.nextSeq - 1)
          (coll.addOwnState digest r₁.log.clientRecord)) := by
        refine ⟨.of_sent_eq rfl, fun seq => (gathered_setCollector _ _ seq).trans ?_,
          fun hr => roundsKnown_setCollector hr (hr _ _ hcoll)⟩
        split_ifs with hs
        · rw [hs, hgath]
          rfl
        · rfl
      exact (hk.trans hset).trans (.of_collectors (.send _ id) rfl)

lemma checkpointTimedOut_keepsGathered [Application A] {reply : Reply}
    (h : r.checkpointTimedOut cfg reply = .ok r') : KeepsGathered r r' := by
  rw [checkpointTimedOut] at h
  dsimp only at h
  split_ifs at h
  · have hk := startCheckpoint_keepsGathered h
    refine KeepsGathered.trans ?_ hk
    exact .of_collectors (.of_sent_eq rfl) rfl
  · cases h
    exact .refl r

/-! ### The steps of a round -/

/-- A message is broadcast in a step. -/
def Broadcasts (r r' : Replica A) (msg : Msg) : Prop :=
  (Dest.replicas, msg) ∈ r'.sent.drop r.sent.length

instance (r r' : Replica A) (msg : Msg) : Decidable (Broadcasts r r' msg) :=
  inferInstanceAs (Decidable (_ ∈ _))

lemma broadcasts_iff {ms : List (Dest × Msg)} (h : r'.sent = r.sent ++ ms) (msg : Msg) :
    Broadcasts r r' msg ↔ (Dest.replicas, msg) ∈ ms := by
  rw [Broadcasts, h, List.drop_left]

lemma Quiet.not_broadcasts (h : Quiet r r') {msg : Msg} (hm : IsRepair msg) :
    ¬Broadcasts r r' msg := by
  obtain ⟨ms, hms, hquiet⟩ := h.sent
  rw [broadcasts_iff hms]
  exact fun hmem => hquiet _ hmem hm

/-- A broadcast followed by the start of a repair. -/
lemma startRepair_broadcasts {r₁ : Replica A} {msg : Msg} [Sha256] (hq : Quiet r r₁)
    (h : (r₁.broadcastToReplicas msg).startRepair cfg = .ok r') {msg' : Msg} (hm : IsRepair msg')
    (hb : Broadcasts r r' msg') : msg' = msg := by
  obtain ⟨ms, hms, hquiet⟩ := hq.sent
  obtain ⟨-, m, -, -, -, -, rfl⟩ := startRepair_eq h
  have hsent : (send { r₁.broadcastToReplicas msg with repair := true, repairStart := some m }
      (.replica ((r₁.broadcastToReplicas msg).getPrimary cfg)) (.repairStart m)).sent =
      r.sent ++ (ms ++ [(.replicas, msg)] ++
        [(.replica ((r₁.broadcastToReplicas msg).getPrimary cfg), .repairStart m)]) := by
    simp [send, broadcastToReplicas, hms]
  rw [broadcasts_iff hsent, List.mem_append, List.mem_append] at hb
  rcases hb with (hb | hb) | hb
  · exact absurd hm (hquiet _ hb)
  · simpa using hb
  · simp at hb

/-- Everything gathered for the current round is signed, and no proof has been made of it outside
a repair. -/
structure Collected [SignatureProvider] (r : Replica A) : Prop where
  replies : ∀ seq, SignedMessages (·.replicaId) .reply (r.gathered seq).replies
    (r.gathered seq).replySigs
  timeouts : ∀ seq, SignedMessages (·.replicaId) .repairTimeout (r.gathered seq).repairTimeouts
    (r.gathered seq).repairTimeoutSigs
  noProof : r.repair = false → ∀ seq, (r.gathered seq).repairReplyProof = none
  rounds : r.RoundsKnown

namespace Collected

variable [SignatureProvider]

lemma keeps (h : Collected r) (hk : KeepsGathered r r') : Collected r' := by
  have hrep : r'.repair = r.repair := by rw [hk.quiet.eq]
  refine ⟨fun seq => ?_, fun seq => ?_, fun hr seq => ?_, hk.rounds h.rounds⟩
  · rw [hk.gathered]
    exact h.replies seq
  · rw [hk.gathered]
    exact h.timeouts seq
  · rw [hk.gathered]
    exact h.noProof (hrep ▸ hr) seq

/-- A collector of the current round that has been changed in place. -/
lemma setCollector (h : Collected r) {seq : ℕ} {coll : CheckpointCollector}
    (hround : coll.round = r.round)
    (hreplies : SignedMessages (·.replicaId) .reply coll.replyCollector.replies
      coll.replyCollector.replySigs)
    (htimeouts : SignedMessages (·.replicaId) .repairTimeout coll.repairTimeouts
      coll.repairTimeoutSigs)
    (hproof : r.repair = false → coll.replyCollector.repairReplyProof = none) :
    Collected (r.setCollector r.round seq coll) := by
  refine ⟨fun seq' => ?_, fun seq' => ?_, fun hr seq' => ?_,
    roundsKnown_setCollector h.rounds hround⟩
  · rw [gathered_setCollector]
    split_ifs
    · exact hreplies
    · exact h.replies seq'
  · rw [gathered_setCollector]
    split_ifs
    · exact htimeouts
    · exact h.timeouts seq'
  · rw [gathered_setCollector]
    split_ifs
    · exact hproof hr
    · exact h.noProof hr seq'

/-- With the start of a repair, proofs may have been made. -/
lemma startRepair [Sha256] {r₁ : Replica A} {msg : Msg} (h : Collected { r₁ with repair := true })
    (hs : (r₁.broadcastToReplicas msg).startRepair cfg = .ok r') : Collected r' := by
  obtain ⟨-, m, -, -, -, -, rfl⟩ := startRepair_eq hs
  exact ⟨h.replies, h.timeouts, fun hr => absurd hr (by simp [send]), h.rounds⟩

/-- A proof made of all replies that have been gathered for a position, with one more. -/
def IsProofOf (r : Replica A) (m : Reply) (p : RepairReplyProof) : Prop :=
  let replies := (r.gathered m.seq).replies.insert m.replicaId m
  ∃ sigs replicaId view, SignedMessages (·.replicaId) .reply replies sigs ∧
    (∀ k, ∃ x ∈ replies.toList, x.2.keyTuple ≠ k) ∧
    p = { ReplyCollector.makeProof replies sigs with replicaId, round := r.round, view }

/-- A reply at its collector. -/
lemma useReply [Sha256] {r₀ : Replica A} (hq₀ : Quiet r₀ r) (h : Collected r)
    (hrep : r.repair = false) (hcfg : cfg.WellFormed)
    (hkeys : ∀ i b sig, SignatureProvider.verify i b sig = true → i < cfg.numReplicas)
    {m : Reply} {sig : Bytes}
    (hm : SignatureProvider.verify m.replicaId (Msg.reply m).body sig = true)
    {coll coll' : CheckpointCollector} {ready : Bool}
    (hget : r.checkpointCollectors.get r.round m.seq = .ok coll)
    (hcoll : coll.addAndCheckReply cfg now m sig = (coll', ready))
    (hs : (if ready then (r.setCollector r.round m.seq coll').useCert cfg coll' m
      else (r.setCollector r.round m.seq coll').useConflictProof cfg coll') = .ok r') :
    r'.round = r.round ∧ Collected r' ∧
      ∀ p, Broadcasts r₀ r' (.repairReplyProof p) → IsProofOf r m p := by
  obtain ⟨hcoll₀, hgath⟩ := gathered_eq_of_get hget
  have hreplies := h.replies m.seq
  have htimeouts := h.timeouts m.seq
  have hproof := h.noProof hrep m.seq
  simp only [hgath, CheckpointCollector.gathered] at hreplies htimeouts hproof
  obtain ⟨hins, hsigned, hmade⟩ := ReplyCollector.addAndCheckReply_cases hcfg hkeys hreplies hm
  obtain ⟨hrc, hready, hround, hts, htsigs⟩ := CheckpointCollector.addAndCheckReply_eq hcoll
  rw [← hrc] at hins hsigned hmade
  rw [← hready] at hmade
  rw [← hts, ← htsigs] at htimeouts
  have hround' := hround.trans (h.rounds _ _ hcoll₀)
  have hquiet : Quiet r₀ (r.setCollector r.round m.seq coll') := hq₀.trans (.of_sent_eq rfl)
  split_ifs at hs with hr
  · obtain ⟨hq, -, hcc⟩ := useCert_quiet hs
    have hnone : coll'.replyCollector.repairReplyProof = none :=
      (hmade.resolve_right fun hx => by simp [hr] at hx).trans hproof
    exact ⟨by rw [hq.eq]; rfl, (h.setCollector hround' hsigned htimeouts fun _ => hnone).keeps
        (.of_collectors hq hcc),
      fun p hp => absurd hp ((hquiet.trans hq).not_broadcasts trivial)⟩
  · rcases useConflictProof_cases hs with ⟨hnone, rfl⟩ | ⟨proof, hproof', hs⟩
    · exact ⟨rfl, h.setCollector hround' hsigned htimeouts fun _ => hnone,
        fun p hp => absurd hp (hquiet.not_broadcasts trivial)⟩
    · have hrepair : Collected { r with repair := true } :=
        ⟨h.replies, h.timeouts, fun hr => absurd hr (by simp), h.rounds⟩
      refine ⟨?_, .startRepair (hrepair.setCollector hround' hsigned htimeouts
        fun hr => absurd hr (by simp)) hs, fun p hp => ?_⟩
      · obtain ⟨-, m, -, -, -, -, rfl⟩ := startRepair_eq hs
        rfl
      · have hp' := startRepair_broadcasts hquiet hs
          (show IsRepair (.repairReplyProof p) from trivial) hp
        cases Msg.repairReplyProof.inj hp'
        rcases hmade with hold | ⟨-, hnew, hne⟩
        · rw [hproof', hproof] at hold
          cases hold
        · rw [hproof', Option.some_inj, hins] at hnew
          rw [hins] at hsigned hne
          rw [IsProofOf, hgath, hnew]
          exact ⟨_, _, _, hsigned, hne, rfl⟩

/-- **What a reply does to what has been gathered**, and the proof that it may lead to. -/
lemma processReply [Application A] [Sha256] (h : Collected r) (hcfg : cfg.WellFormed)
    (hkeys : ∀ i b sig, SignatureProvider.verify i b sig = true → i < cfg.numReplicas)
    {m : Reply} {sig : Bytes}
    (hm : SignatureProvider.verify m.replicaId (Msg.reply m).body sig = true)
    (hs : r.processReply cfg now m sig = .ok r') :
    r'.round = r.round ∧ Collected r' ∧
      ∀ p, Broadcasts r r' (.repairReplyProof p) → IsProofOf r m p := by
  have hquiet : ∀ {r₁}, KeepsGathered r r₁ → r₁.round = r.round ∧ Collected r₁ ∧
      ∀ p, Broadcasts r r₁ (.repairReplyProof p) → IsProofOf r m p :=
    fun hk => ⟨by rw [hk.quiet.eq], h.keeps hk, fun p hp =>
      absurd hp (hk.quiet.not_broadcasts trivial)⟩
  rw [Replica.processReply] at hs
  split_ifs at hs with hrep
  · cases hs
    exact hquiet (.refl r)
  · cases hs
    exact hquiet (.refl r)
  obtain ⟨r₁, h₁, hs⟩ := bind_eq_ok.mp hs
  have hk₁ := checkpointTimedOut_keepsGathered h₁
  split_ifs at hs
  · cases hs
    exact hquiet hk₁
  obtain ⟨⟨r₂, ok⟩, h₂, hs⟩ := bind_eq_ok.mp hs
  have hk := hk₁.trans (initCollector_keepsGathered h₂)
  cases ok with
  | false =>
      cases hs
      exact hquiet hk
  | true =>
      obtain ⟨coll, hget, hs⟩ := bind_eq_ok.mp hs
      split_ifs at hs
      · cases hs
        exact hquiet hk
      have hround : r₂.round = r.round := by rw [hk.quiet.eq]
      have hrep₂ : r₂.repair = false := by rw [hk.quiet.eq]; simpa using hrep
      obtain ⟨hround', hc, hp⟩ := (h.keeps hk).useReply hk.quiet hrep₂ hcfg hkeys hm hget rfl hs
      refine ⟨hround'.trans hround, hc, fun p hb => ?_⟩
      have hproof := hp p hb
      rwa [IsProofOf, hk.gathered, hround] at hproof

/-- A proof made of the timeouts of the round that have been gathered for a position, with one
more. -/
def IsTimeoutProofOf (cfg : Config) (r : Replica A) (m : RepairTimeout) (p : RepairTimeoutProof) :
    Prop :=
  let timeouts := (r.gathered m.seq).repairTimeouts.insert m.replicaId m
  let own := timeouts.toList.filter (·.2.round = r.round)
  timeouts.size = cfg.f + 1 ∧
    ∃ sigs replicaId view, SignedMessages (·.replicaId) .repairTimeout timeouts sigs ∧
      p = { replicaId, round := r.round, view, timeouts := own.map (·.2)
            signatures := own.map fun (id, _) => (sigs[id]?).getD [] }

/-- **What a timeout does to what has been gathered**, and the proof that it may lead to. -/
lemma processRepairTimeout [Sha256] (h : Collected r) {m : RepairTimeout} {sig : Bytes}
    (hm : SignatureProvider.verify m.replicaId (Msg.repairTimeout m).body sig = true)
    (hs : r.processRepairTimeout cfg m sig = .ok r') :
    r'.round = r.round ∧ Collected r' ∧
      ∀ p, Broadcasts r r' (.repairTimeoutProof p) → IsTimeoutProofOf cfg r m p := by
  have hquiet : ∀ {r₁}, Quiet r r₁ → ∀ p, Broadcasts r r₁ (.repairTimeoutProof p) →
      IsTimeoutProofOf cfg r m p := fun hq p hp => absurd hp (hq.not_broadcasts trivial)
  rw [Replica.processRepairTimeout] at hs
  split_ifs at hs with hrep
  · cases hs
    exact ⟨rfl, h, hquiet (.refl r)⟩
  · cases hs
    exact ⟨rfl, h, hquiet (.refl r)⟩
  · cases hs
    exact ⟨rfl, h, hquiet (.refl r)⟩
  cases hget : r.checkpointCollectors.collectors[(r.round, m.seq)]? with
  | none =>
      rw [hget] at hs
      cases hs
      exact ⟨rfl, h, hquiet (.refl r)⟩
  | some coll =>
      rw [hget] at hs
      obtain ⟨⟨coll', ready⟩, hcoll⟩ : ∃ res, coll.addAndCheckTimeout cfg m sig = res := ⟨_, rfl⟩
      simp only [hcoll] at hs
      have hgath : r.gathered m.seq = coll.gathered := by rw [gathered, hget]; rfl
      have hreplies := h.replies m.seq
      have htimeouts := (h.timeouts m.seq).insert hm
      have hproof := h.noProof (by simpa using hrep) m.seq
      simp only [hgath, CheckpointCollector.gathered] at hreplies htimeouts hproof
      obtain ⟨hrc, hround, hts, htsigs, hmade⟩ :=
        CheckpointCollector.addAndCheckTimeout_cases hcoll
      rw [← hrc] at hreplies hproof
      rw [← hts, ← htsigs] at htimeouts
      have hcround := h.rounds _ _ hget
      have hc : ∀ r₁ : Replica A, r₁.Collected → r₁.round = r.round →
          (r₁.setCollector r₁.round m.seq coll').Collected := fun r₁ h₁ hr₁ =>
        h₁.setCollector ((hround.trans hcround).trans hr₁.symm) hreplies htimeouts fun _ => hproof
      have hq : Quiet r (r.setCollector r.round m.seq coll') := .of_sent_eq rfl
      cases ready with
      | false =>
          cases hs
          exact ⟨rfl, hc r h rfl, hquiet hq⟩
      | true =>
          obtain ⟨hsize, hp⟩ := hmade rfl
          rw [if_pos rfl, hp] at hs
          have hrepair : Collected { r with repair := true } :=
            ⟨h.replies, h.timeouts, fun hr => absurd hr (by simp), h.rounds⟩
          refine ⟨?_, .startRepair (hc _ hrepair rfl) hs, fun p hb => ?_⟩
          · obtain ⟨-, m, -, -, -, -, rfl⟩ := startRepair_eq hs
            rfl
          · have hp' := startRepair_broadcasts hq hs
              (show IsRepair (.repairTimeoutProof p) from trivial) hb
            cases Msg.repairTimeoutProof.inj hp'
            rw [IsTimeoutProofOf, hgath]
            rw [hts] at hsize htimeouts
            refine ⟨hsize, coll'.repairTimeoutSigs, r.replicaId, r.pbftView, htimeouts, ?_⟩
            rw [hts, hcround]
            rfl

end Collected

/-! ### Runs -/

section

variable [SignatureProvider] [Application A] [Sha256] [PaddedRequestData]

/-- A round begins: nothing has been gathered for it. -/
structure RoundBegins (r : Replica A) : Prop where
  gathered : ∀ seq, r.gathered seq = {}
  rounds : r.RoundsKnown

/-- The replies and timeouts of the other replicas. -/
def IsReplyOrTimeout : ReplicaEvent → Prop
  | .message _ (.reply _) _ | .message _ (.repairTimeout _) _ => True
  | _ => False

/-- One round of a replica, on the replies and timeouts that have been verified. -/
def roundSystem (cfg : Config) : System (Replica A) ReplicaEvent where
  init := RoundBegins
  step r e r' := IsReplyOrTimeout e ∧ e.Verified cfg ∧ r.handle cfg e = .ok r'

/-- The replies that have been gathered for the position of a reply, with that reply. -/
def repliesWith (r : Replica A) (m : Reply) : List Reply :=
  ((r.gathered m.seq).replies.insert m.replicaId m).toList.map (·.2)

/-- The timeouts that have been gathered for the position of a timeout, with that timeout. -/
def timeoutsWith (r : Replica A) (m : RepairTimeout) : List RepairTimeout :=
  ((r.gathered m.seq).repairTimeouts.insert m.replicaId m).toList.map (·.2)

/-- **What is gathered in every run** is signed. -/
lemma Collected.of_run (hcfg : cfg.WellFormed)
    (hkeys : ∀ i b sig, SignatureProvider.verify i b sig = true → i < cfg.numReplicas)
    {es : List ReplicaEvent} (h : Run (roundSystem cfg) anyStep es r) : r.Collected := by
  refine h.invariant (P := fun _ r => r.Collected) ?_ fun es r e r' _ hc _ hs => ?_
  · intro r hb
    refine ⟨fun seq => ?_, fun seq => ?_, fun _ seq => ?_, hb.rounds⟩
    · rw [hb.gathered]
      exact .empty
    · rw [hb.gathered]
      exact .empty
    · rw [hb.gathered]
  · obtain ⟨he, hver, hs⟩ := hs
    match e, he with
    | .message now (.reply m) sig, _ =>
        exact (hc.processReply hcfg hkeys (Except.ok.inj hver) hs).2.1
    | .message now (.repairTimeout m) sig, _ =>
        exact (hc.processRepairTimeout (Except.ok.inj hver) hs).2.1

/-- **Repair proofs are accepted**: a proof that is broadcast after a reply is accepted exactly if
`f + 1` replies have been gathered for its position, all of the current round, and a proof that is
broadcast after a timeout exactly if all timeouts gathered for its position are of the current
round. -/
theorem repair_proofs_accepted (hcfg : cfg.WellFormed)
    (hkeys : ∀ i b sig, SignatureProvider.verify i b sig = true → i < cfg.numReplicas)
    {es : List ReplicaEvent} (hrun : Run (roundSystem cfg) anyStep es r) :
    (∀ {now m sig p}, (ReplicaEvent.message now (.reply m) sig).Verified cfg →
        r.processReply cfg now m sig = .ok r' → Broadcasts r r' (.repairReplyProof p) →
        (verifyRepairReplyProof cfg p = true ↔
          cfg.f + 1 ≤ (r.repliesWith m).length ∧ ∀ x ∈ r.repliesWith m, x.round = r.round)) ∧
      ∀ {m sig p}, (ReplicaEvent.message 0 (.repairTimeout m) sig).Verified cfg →
        r.processRepairTimeout cfg m sig = .ok r' → Broadcasts r r' (.repairTimeoutProof p) →
        (verifyRepairTimeoutProof cfg p = true ↔ ∀ x ∈ r.timeoutsWith m, x.round = r.round) := by
  have hc := Collected.of_run hcfg hkeys hrun
  constructor
  · intro now m sig p hver hs hb
    obtain ⟨-, -, hp⟩ := hc.processReply hcfg hkeys (Except.ok.inj hver) hs
    obtain ⟨sigs, replicaId, view, hsigned, hne, rfl⟩ := hp p hb
    exact verifyReplyProof_iff hsigned hne replicaId r.round view
  · intro m sig p hver hs hb
    obtain ⟨-, -, hp⟩ := hc.processRepairTimeout (Except.ok.inj hver) hs
    obtain ⟨hsize, sigs, replicaId, view, hsigned, rfl⟩ := hp p hb
    exact verifyTimeoutProof_iff hsigned hsize replicaId r.round view

end

end Replica

namespace Replica

/-- A reply for the first checkpoint, with the number of its replica for a digest. -/
def firstReply (i : ℕ) : Reply :=
  { replicaId := i, round := 1, seq := 10, digest := [UInt8.ofNat i] }

/-- The proof that the replies of replicas `0` and `1` do not match. -/
def twoReplies : RepairReplyProof where
  round := 1
  replies := [firstReply 0, firstReply 1]
  signatures := [[0], [1]]

lemma roundBegins_fresh (i : ℕ) : (fresh i ({} : Counter)).RoundBegins where
  gathered seq := by
    rw [gathered, fresh, ExtTreeMap.getElem?_empty]
    rfl
  rounds key coll h := by
    rw [fresh, ExtTreeMap.getElem?_empty] at h
    cases h

section

attribute [local instance] prefixSha shortPaddedRequestData counterWire

/-- A round with the own reply. -/
lemma run_firstReply [SignatureProvider] {cfg : Config} {r : Replica Counter}
    (hver : verifyMessage cfg (.reply (firstReply 0)) [0] = .ok true)
    (h : (fresh 0 ({} : Counter)).processReply cfg 1 (firstReply 0) [0] = .ok r) :
    Run (roundSystem cfg) anyStep [.message 1 (.reply (firstReply 0)) [0]] r :=
  Run.step (s := fresh 0 ({} : Counter)) (.start (roundBegins_fresh 0)) trivial ⟨trivial, hver, h⟩
attribute [local instance] fourKeys

/-- With one faulty replica, two replies are enough. -/
theorem repair_proofs_accepted_two_replies :
    ∃ r r' : Replica Counter,
      Run (roundSystem .oneFault) anyStep [.message 1 (.reply (firstReply 0)) [0]] r ∧
      r.processReply .oneFault 1 (firstReply 1) [1] = .ok r' ∧
      Broadcasts r r' (.repairReplyProof twoReplies) ∧
      verifyRepairReplyProof .oneFault twoReplies = true := by
  obtain ⟨r, hrun, r', hs, hb, hlen, hround⟩ : ∃ r : Replica Counter,
      Run (roundSystem .oneFault) anyStep [.message 1 (.reply (firstReply 0)) [0]] r ∧
      ∃ r', r.processReply .oneFault 1 (firstReply 1) [1] = .ok r' ∧
        Broadcasts r r' (.repairReplyProof twoReplies) ∧
        2 ≤ (r.repliesWith (firstReply 1)).length ∧
        ∀ x ∈ r.repliesWith (firstReply 1), x.round = r.round :=
    ⟨_, run_firstReply rfl (Eq.refl (Except.ok _)), _, Eq.refl (Except.ok _), by decide, by decide,
      by decide⟩
  have hkeys : ∀ i b sig, fourKeys.verify i b sig = true → i < Config.oneFault.numReplicas :=
    fun i b sig h => of_decide_eq_true (Bool.and_eq_true_iff.mp h).1
  have hwf : Config.oneFault.WellFormed := rfl
  have hver : (ReplicaEvent.message 1 (.reply (firstReply 1)) [1]).Verified .oneFault := rfl
  have haccepted := (repair_proofs_accepted hwf hkeys hrun).1 hver hs hb
  exact ⟨r, r', hrun, hs, hb, haccepted.mpr ⟨hlen, hround⟩⟩

end

section

attribute [local instance] prefixSha shortPaddedRequestData counterWire

/-- Seven replicas of which two may be faulty. -/
def twoFaults : Config := { Config.oneFault with f := 2, numReplicas := 7 }

/-- Seven replicas with a key each. -/
abbrev sevenKeys : SignatureProvider := numberSignaturesBelow 7

attribute [local instance] sevenKeys

/-- **A proof that is rejected**: with two faulty replicas, two replies that do not match already
rule out a certificate, and three are asked for. -/
theorem two_replies_rejected :
    ∃ r r' : Replica Counter,
      Run (roundSystem twoFaults) anyStep [.message 1 (.reply (firstReply 0)) [0]] r ∧
      (ReplicaEvent.message 1 (.reply (firstReply 1)) [1]).Verified twoFaults ∧
      r.processReply twoFaults 1 (firstReply 1) [1] = .ok r' ∧
      Broadcasts r r' (.repairReplyProof twoReplies) ∧
      verifyRepairReplyProof twoFaults twoReplies = false := by
  have hrun : Run (roundSystem twoFaults) anyStep [.message 1 (.reply (firstReply 0)) [0]] _ :=
    run_firstReply rfl (Eq.refl (Except.ok _))
  exact ⟨_, _, hrun, rfl, Eq.refl (Except.ok _), by decide, by decide⟩

end

end Replica

end DomBft
