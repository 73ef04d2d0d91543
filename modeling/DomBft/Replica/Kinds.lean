import DomBft.Replica.Stable

/-!
The two kinds of collectors: those that wait for a snapshot of the application, and those that do
not.

* `ByInterval`: the collectors that wait are those at the multiples of the snapshot interval.
* `KindFits`, `KindsFit`: a collector that is created is of the kind of its position; the
  condition on the events that create collectors, one for each place that does.
* `KeepsKinds`: whatever else happens, the kinds stay; one lemma for each handler.
* `collector_kind_of_key`: under the condition **the kind does not depend on the order** of the
  events.
-/

namespace DomBft

open Std (ExtTreeMap)
open Fallible Transition

namespace Replica

variable {A : Type} {r r' r'' r₁ : Replica A} {cfg : Config} {now : ℕ}

/-! ### The kind of a collector -/

/-- The collectors that wait for a snapshot are those at the multiples of the interval. -/
def ByInterval (cfg : Config) (r : Replica A) : Prop :=
  ∀ (key : ℕ × ℕ) (coll : CheckpointCollector),
    r.checkpointCollectors.collectors[key]? = some coll →
    coll.needsSnapshot = (key.2 % cfg.replicaSnapshotInterval == 0)

/-- `initCollector` with this flag creates no collector of another kind than that of its position:
the flag is that of the position, or the collector is there, or the position has been passed. -/
def KindFits (cfg : Config) (r : Replica A) (round seq : ℕ) (needsSnapshot : Bool) : Prop :=
  needsSnapshot = (seq % cfg.replicaSnapshotInterval == 0) ∨
    r.checkpointCollectors.hasCollector round seq = true ∨
    seq ≤ if needsSnapshot then r.checkpointCollectors.stableSeq
      else r.checkpointCollectors.committedSeq

instance (cfg : Config) (r : Replica A) (round seq : ℕ) (needsSnapshot : Bool) :
    Decidable (r.KindFits cfg round seq needsSnapshot) :=
  inferInstanceAs (Decidable (_ ∨ _ ∨ _))

/-- The collectors that have been there are of the same kind, and the new ones of that of their
position. -/
def KeepsKinds (cfg : Config) (r r' : Replica A) : Prop :=
  ∀ (key : ℕ × ℕ) (coll' : CheckpointCollector),
    r'.checkpointCollectors.collectors[key]? = some coll' →
    coll'.needsSnapshot = (key.2 % cfg.replicaSnapshotInterval == 0) ∨
      ∃ coll, r.checkpointCollectors.collectors[key]? = some coll ∧
        coll.needsSnapshot = coll'.needsSnapshot

lemma ByInterval.keeps (h : r.ByInterval cfg) (hk : KeepsKinds cfg r r') : r'.ByInterval cfg := by
  intro key coll' hcoll'
  rcases hk key coll' hcoll' with heq | ⟨coll, hcoll, heq⟩
  · exact heq
  · rw [← heq]
    exact h key coll hcoll

namespace KeepsKinds

lemma refl (cfg : Config) (r : Replica A) : KeepsKinds cfg r r :=
  fun _ coll hcoll => .inr ⟨coll, hcoll, rfl⟩

lemma trans (h : KeepsKinds cfg r r') (h' : KeepsKinds cfg r' r'') : KeepsKinds cfg r r'' := by
  intro key coll'' hcoll''
  rcases h' key coll'' hcoll'' with heq | ⟨coll', hcoll', heq'⟩
  · exact .inl heq
  · rcases h key coll' hcoll' with heq | ⟨coll, hcoll, heq⟩
    · exact .inl (heq' ▸ heq)
    · exact .inr ⟨coll, hcoll, heq.trans heq'⟩

lemma of_eq (h : r'.checkpointCollectors = r.checkpointCollectors) : KeepsKinds cfg r r' := by
  intro key coll hcoll
  rw [h] at hcoll
  exact .inr ⟨coll, hcoll, rfl⟩

lemma of_ledger (h : r'.ledger = r.ledger) : KeepsKinds cfg r r' :=
  .of_eq (congrArg Ledger.checkpointCollectors h)

lemma setLog (log : Log A) : KeepsKinds cfg r { r with log } := .of_eq rfl

/-- A collector is changed in place, but for its kind. -/
lemma setCollector {round seq : ℕ} {coll coll' : CheckpointCollector}
    (hcoll : r.checkpointCollectors.collectors[(round, seq)]? = some coll)
    (hkind : coll.needsSnapshot = coll'.needsSnapshot) :
    KeepsKinds cfg r (r.setCollector round seq coll') := by
  intro key coll'' hcoll''
  rcases OrderedMap.getElem?_insert_cases hcoll'' with ⟨rfl, rfl⟩ | ⟨-, hold⟩
  · exact .inr ⟨coll, hcoll, hkind⟩
  · exact .inr ⟨coll'', hold, rfl⟩

end KeepsKinds

/-! ### Replies -/

/-- **The places that create a collector.** -/
lemma initCollector_kinds {round seq : ℕ} {needsSnapshot ok : Bool}
    (hfit : r.KindFits cfg round seq needsSnapshot)
    (h : r.initCollector round seq needsSnapshot = .ok (r', ok)) : KeepsKinds cfg r r' := by
  rw [initCollector] at h
  split_ifs at h with hhas
  · cases h
    exact .refl cfg r
  · obtain ⟨⟨store, created⟩, hstore, h⟩ := bind_eq_ok.mp h
    cases pure_eq_ok.mp h
    rw [CheckpointCollectorStore.initCollector] at hstore
    by_cases hpassed : seq ≤ if needsSnapshot then r.checkpointCollectors.stableSeq
        else r.checkpointCollectors.committedSeq
    · rw [if_pos hpassed] at hstore
      cases hstore
      exact .of_eq rfl
    · rw [if_neg hpassed, if_neg hhas] at hstore
      cases hstore
      intro key coll hcoll
      rcases OrderedMap.getElem?_insert_cases hcoll with ⟨rfl, rfl⟩ | ⟨-, hold⟩
      · rcases hfit with heq | hhas' | hle
        · exact .inl heq
        · exact absurd hhas' hhas
        · exact absurd hle hpassed
      · exact .inr ⟨coll, hold, rfl⟩

section

variable [Application A]

lemma startCheckpoint_kinds {b : Bool} (hfit : r.KindFits cfg r.round (r.log.nextSeq - 1) b)
    (h : r.startCheckpoint b = .ok r') : KeepsKinds cfg r r' := by
  obtain ⟨⟨r₁, ok⟩, hinit, h⟩ := bind_eq_ok.mp h
  have htaken : (if b then r.takeSnapshot else r).checkpointCollectors =
      r.checkpointCollectors := by cases b <;> rfl
  have hround : (if b then r.takeSnapshot else r).round = r.round := by cases b <;> rfl
  have hfit' : (if b then r.takeSnapshot else r).KindFits cfg r.round (r.log.nextSeq - 1) b := by
    rw [KindFits, htaken]
    exact hfit
  rw [hround] at hinit
  have h₁ : KeepsKinds cfg r r₁ :=
    KeepsKinds.trans (.of_eq htaken) (initCollector_kinds hfit' hinit)
  cases ok with
  | false =>
      cases h
      exact h₁
  | true =>
      obtain ⟨coll, hget, h⟩ := bind_eq_ok.mp h
      obtain ⟨digest, -, h⟩ := bind_eq_ok.mp h
      obtain ⟨entry, -, h⟩ := bind_eq_ok.mp h
      cases pure_eq_ok.mp h
      have hset : KeepsKinds cfg r₁ (r₁.setCollector r₁.round (r.log.nextSeq - 1)
          (coll.addOwnState digest r₁.log.clientRecord)) :=
        .setCollector (CheckpointCollectorStore.get_eq hget) rfl
      exact (h₁.trans hset).trans (.of_eq rfl)

lemma checkpointAt_kinds (h : r.checkpointAt cfg now (r.log.nextSeq - 1) = .ok r') :
    KeepsKinds cfg r r' := by
  have hend : ∀ r₁ : Replica A, KeepsKinds cfg r₁
      (if r.log.nextSeq - 1 = 1 then r₁.restartTimer now else r₁) := by
    intro r₁
    split_ifs
    · exact .of_eq rfl
    · exact .refl cfg r₁
  rw [checkpointAt] at h
  by_cases hdue : (r.log.nextSeq - 1) % cfg.replicaCheckpointInterval = 0
  · rw [if_pos hdue] at h
    obtain ⟨r₁, hstart, h⟩ := bind_eq_ok.mp h
    obtain ⟨r₂, hr₂, rfl⟩ := map_eq_ok.mp hstart
    cases pure_eq_ok.mp h
    have htimer : KeepsKinds cfg r₂ (r₂.restartTimer now) := .of_eq rfl
    exact ((startCheckpoint_kinds (.inl rfl) hr₂).trans htimer).trans (hend _)
  · rw [if_neg hdue] at h
    cases pure_eq_ok.mp h
    exact hend r

end

lemma sendToClient_kinds {c : UInt32} {msg : Msg} (h : r.sendToClient cfg c msg = .ok r') :
    KeepsKinds cfg r r' := by
  rw [sendToClient_eq h]
  exact .of_eq rfl

lemma sendToReplica_kinds {i : ℕ} {msg : Msg} (h : r.sendToReplica cfg i msg = .ok r') :
    KeepsKinds cfg r r' := by
  rw [(sendToReplica_eq h).2]
  exact .of_eq rfl

open KeepsKinds in
lemma processCert_kinds {cert : Cert} (h : r.processCert cfg cert = .ok r') :
    KeepsKinds cfg r r' := by
  rw [processCert] at h
  split at h
  · cases h
  split_ifs at h
  · cases h
    exact .refl cfg r
  · cases h
    exact .refl cfg r
  · obtain ⟨⟨log, ok⟩, hadd, h⟩ := bind_eq_ok.mp h
    cases ok with
    | false =>
        cases h
        exact .of_eq rfl
    | true => exact (setLog log).trans (sendToClient_kinds h)

section

variable [Sha256]

lemma sendOwnCommit_kinds {coll : CheckpointCollector} (h : r.sendOwnCommit coll = .ok r') :
    KeepsKinds cfg r r' := by
  rw [sendOwnCommit] at h
  split_ifs at h
  · obtain ⟨commit, -, h⟩ := bind_eq_ok.mp h
    cases pure_eq_ok.mp h
    exact .of_eq rfl
  · cases h
    exact .refl cfg r

open KeepsKinds in
lemma useCert_kinds {coll : CheckpointCollector} {reply : Reply}
    (h : r.useCert cfg coll reply = .ok r') : KeepsKinds cfg r r' := by
  rw [useCert] at h
  split_ifs at h
  · split at h
    · cases h
    · obtain ⟨⟨log, ok⟩, hadd, h⟩ := bind_eq_ok.mp h
      cases ok with
      | false =>
          cases h
          exact .of_eq rfl
      | true => exact (setLog log).trans (sendOwnCommit_kinds h)
  · exact sendOwnCommit_kinds h

lemma useConflictProof_kinds {coll : CheckpointCollector}
    (h : r.useConflictProof cfg coll = .ok r') : KeepsKinds cfg r r' := by
  rcases useConflictProof_cases h with ⟨-, rfl⟩ | ⟨proof, -, h⟩
  · exact .refl cfg _
  · have hrepair := startRepair_ledger h
    exact .of_ledger hrepair

omit [Sha256] in
/-- `processReply` starts the own checkpoint: the reply is outside the interval, and new. -/
def TimesOut (cfg : Config) (r : Replica A) (reply : Reply) : Prop :=
  let last := (r.checkpointTimeoutSeqs[reply.replicaId]?).getD (0, 0)
  reply.seq % cfg.replicaCheckpointInterval ≠ 0 ∧
    r.checkpointCollectors.hasCollector r.round reply.seq = false ∧
    r.log.committedCheckpoint.seq < reply.seq ∧
    ¬(last.2 ≠ 0 ∧ last.1 = r.round ∧
      reply.seq / cfg.replicaCheckpointInterval = last.2 / cfg.replicaCheckpointInterval)

variable [Application A]

omit [Sha256] in
/-- The replica that sends a reply has timed out, and the own checkpoint is started. -/
lemma checkpointTimedOut_kinds {reply : Reply}
    (hfit : r.TimesOut cfg reply → r.KindFits cfg r.round (r.log.nextSeq - 1) false)
    (h : r.checkpointTimedOut cfg reply = .ok r') : KeepsKinds cfg r r' := by
  rw [checkpointTimedOut] at h
  dsimp only at h
  split_ifs at h with hdue
  · have htimes : r.TimesOut cfg reply := by
      refine ⟨hdue.1, by simpa using hdue.2.1, by simpa using hdue.2.2.1, fun htried => ?_⟩
      have hnot := hdue.2.2.2
      rw [decide_eq_true htried] at hnot
      cases hnot
    refine KeepsKinds.trans (.of_eq ?_) (startCheckpoint_kinds ?_ h)
    · rfl
    · exact hfit htimes
  · cases h
    exact .refl cfg r

lemma processReply_kinds {m : Reply} {sig : Bytes}
    (hfit : r.repair = false → r.round ≤ m.round → r.TimesOut cfg m →
      r.KindFits cfg r.round (r.log.nextSeq - 1) false)
    (h : r.processReply cfg now m sig = .ok r') : KeepsKinds cfg r r' := by
  rw [processReply] at h
  split_ifs at h with hrepair hround
  · cases h
    exact .refl cfg r
  · cases h
    exact .refl cfg r
  obtain ⟨r₁, h₁, h⟩ := bind_eq_ok.mp h
  have hr₁ := checkpointTimedOut_kinds (hfit (Bool.eq_false_iff.mpr hrepair) (not_lt.mp hround)) h₁
  split_ifs at h
  · cases h
    exact hr₁
  obtain ⟨⟨r₂, ok⟩, h₂, h⟩ := bind_eq_ok.mp h
  have hr₂ := hr₁.trans (initCollector_kinds (.inl rfl) h₂)
  cases ok with
  | false =>
      cases h
      exact hr₂
  | true =>
      obtain ⟨coll, hget, h⟩ := bind_eq_ok.mp h
      split_ifs at h
      · cases h
        exact hr₂
      have hr₃ : KeepsKinds cfg r (r₂.setCollector r₂.round m.seq
          (coll.addAndCheckReply cfg now m sig).1) :=
        hr₂.trans (.setCollector (CheckpointCollectorStore.get_eq hget) rfl)
      dsimp only at h
      split_ifs at h
      · exact hr₃.trans (useCert_kinds h)
      · exact hr₃.trans (useConflictProof_kinds h)

variable [PaddedRequestData]

lemma processClientRequest_kinds {m : ClientRequestProto} {queued : Bool}
    (h : r.processClientRequest cfg now m queued = .ok r') : KeepsKinds cfg r r' := by
  rw [processClientRequest] at h
  split_ifs at h
  · cases h
    exact .refl cfg r
  · exact sendToClient_kinds h
  · obtain ⟨⟨log, res⟩, hadd, h⟩ := bind_eq_ok.mp h
    cases res with
    | none =>
        cases h
        exact .setLog log
    | some result =>
        obtain ⟨log', hset, h⟩ := bind_eq_ok.mp h
        obtain ⟨r₂, hsend, h⟩ := bind_eq_ok.mp h
        have hlog : r₂.log.nextSeq = log.nextSeq := by
          rw [sendToClient_eq hsend]
          obtain ⟨_, rfl⟩ := Log.setDeadline_eq hset
          rfl
        rw [← hlog] at h
        have h₂ : KeepsKinds cfg r { r with log := log' } := .setLog log'
        exact (h₂.trans (sendToClient_kinds hsend)).trans (checkpointAt_kinds h)

/-! ### Commits and timers -/

omit [Application A] [PaddedRequestData] in
lemma processSnapshot_kinds {snapshot : AppSnapshot} {round : ℕ}
    (h : r.processSnapshot snapshot round = .ok r') : KeepsKinds cfg r r' := by
  rw [processSnapshot] at h
  split at h
  · cases h
    exact .refl cfg r
  · rename_i coll hcoll
    have hset : KeepsKinds cfg r
        (r.setCollector round snapshot.seq (coll.addOwnSnapshot snapshot)) :=
      .setCollector hcoll rfl
    exact hset.trans (sendOwnCommit_kinds h)

omit [Application A] [Sha256] [PaddedRequestData] in
lemma cleanStaleCollectors_kinds (h : r.cleanStaleCollectors = .ok r') : KeepsKinds cfg r r' := by
  obtain ⟨store, hstore, h⟩ := bind_eq_ok.mp h
  cases pure_eq_ok.mp h
  rw [CheckpointCollectorStore.cleanStaleCollectors] at hstore
  split_ifs at hstore
  cases hstore
  intro key coll hcoll
  dsimp only at hcoll
  rw [ExtTreeMap.getElem?_filter', Option.filter_eq_some_iff] at hcoll
  exact .inr ⟨coll, hcoll.1, rfl⟩

omit [Application A] [Sha256] [PaddedRequestData] in
lemma requestCheckpoint_kinds {cp : LogCheckpoint}
    (h : r.requestCheckpoint cfg now cp = .ok r') : KeepsKinds cfg r r' := by
  rw [requestCheckpoint] at h
  split at h
  · cases h
  split_ifs at h
  · cases h
    exact .refl cfg r
  · obtain ⟨r₁, hsend, h⟩ := bind_eq_ok.mp h
    cases pure_eq_ok.mp h
    have hset : KeepsKinds cfg r₁ { r₁ with checkpointSnapshotRequested := true } := .of_eq rfl
    exact (sendToReplica_kinds hsend).trans hset
  · obtain ⟨r₁, hsend, h⟩ := bind_eq_ok.mp h
    cases pure_eq_ok.mp h
    cases hsend
    exact .of_eq rfl

omit [PaddedRequestData] in
lemma processCommit_kinds {commit : Commit} {sig : Bytes}
    (hfit : r.KindFits cfg commit.round commit.seq
      (commit.seq % cfg.replicaSnapshotInterval == 0 || commit.appDigest.isSome))
    (h : r.processCommit cfg now commit sig = .ok r') : KeepsKinds cfg r r' := by
  obtain ⟨⟨r₀, ok⟩, hinit, h⟩ := bind_eq_ok.mp h
  have h₀ := initCollector_kinds hfit hinit
  cases ok with
  | false =>
      cases h
      exact h₀
  | true =>
  obtain ⟨coll, hget, h⟩ := bind_eq_ok.mp h
  have h₁ : KeepsKinds cfg r (r₀.setCollector commit.round commit.seq
      (coll.addAndCheckCommit cfg commit sig).1) :=
    h₀.trans (.setCollector (CheckpointCollectorStore.get_eq hget) rfl)
  dsimp only at h
  by_cases hready : (coll.addAndCheckCommit cfg commit sig).2 = true
  · rw [if_pos hready] at h
    obtain ⟨cp, hcp, h⟩ := bind_eq_ok.mp h
    split at h
    · exact h₁.trans (requestCheckpoint_kinds h)
    obtain ⟨digest, hdigest, h⟩ := bind_eq_ok.mp h
    split_ifs at h
    · exact h₁.trans (requestCheckpoint_kinds h)
    · obtain ⟨log, hset, hclean⟩ := bind_eq_ok.mp h
      exact (h₁.trans (.setLog log)).trans (cleanStaleCollectors_kinds hclean)
    · cases pure_eq_ok.mp h
      exact h₁
  · rw [if_neg hready] at h
    cases pure_eq_ok.mp h
    exact h₁

omit [Application A] [PaddedRequestData] in
lemma processRepairTimeout_kinds {m : RepairTimeout} {sig : Bytes}
    (h : r.processRepairTimeout cfg m sig = .ok r') : KeepsKinds cfg r r' := by
  have hset : ∀ coll, r.checkpointCollectors.collectors[(r.round, m.seq)]? = some coll →
      KeepsKinds cfg r (r.setCollector r.round m.seq (coll.addAndCheckTimeout cfg m sig).1) := by
    refine fun coll hcoll => .setCollector hcoll ?_
    rw [CheckpointCollector.addAndCheckTimeout]
    dsimp only
    split_ifs
    · rfl
    · rfl
  rcases processRepairTimeout_cases h with rfl | ⟨coll, hcoll, rfl | ⟨proof, hstart⟩⟩
  · exact .refl cfg _
  · exact hset coll hcoll
  · have hrepair := startRepair_ledger hstart
    exact (hset coll hcoll).trans (.of_ledger hrepair)

omit [Application A] [Sha256] [PaddedRequestData] in
/-- The loop over the collectors of `checkTimeouts` changes them in place. -/
lemma foldl_checkCollector_kinds {xs : List ((ℕ × ℕ) × CheckpointCollector)}
    (hxs : ∀ x ∈ xs, ∃ coll, r.checkpointCollectors.collectors[x.1]? = some coll ∧
      coll.needsSnapshot = x.2.needsSnapshot) :
    KeepsKinds cfg r (xs.foldl (fun r (key, coll) => r.checkCollector cfg now key coll) r) := by
  induction xs generalizing r with
  | nil => exact .refl cfg r
  | cons x xs ih =>
      obtain ⟨key, coll⟩ := x
      obtain ⟨coll₀, hcoll₀, hkind₀⟩ := hxs (key, coll) List.mem_cons_self
      have hself : (coll.checkSelfTimeout now cfg.replicaCheckpointTimeout).1.needsSnapshot =
          coll.needsSnapshot := by
        rw [CheckpointCollector.checkSelfTimeout]
        split_ifs <;> rfl
      have hstore : (r.checkCollector cfg now key coll).checkpointCollectors =
          (r.setCollector key.1 key.2
            (coll.checkSelfTimeout now cfg.replicaCheckpointTimeout).1).checkpointCollectors := by
        rw [checkCollector]
        dsimp only
        split_ifs <;> rfl
      have hone : KeepsKinds cfg r (r.checkCollector cfg now key coll) :=
        KeepsKinds.trans (.setCollector hcoll₀ (hkind₀.trans hself.symm)) (.of_eq hstore)
      refine hone.trans (ih fun y hy => ?_)
      obtain ⟨colly, hcolly, hkindy⟩ := hxs y (List.mem_cons_of_mem _ hy)
      rw [hstore]
      by_cases hkey : y.1 = key
      · rw [hkey, hcoll₀] at hcolly
        cases hcolly
        refine ⟨(coll.checkSelfTimeout now cfg.replicaCheckpointTimeout).1, ?_,
          (hself.trans hkind₀.symm).trans hkindy⟩
        rw [hkey]
        exact ExtTreeMap.getElem?_insert_self
      · refine ⟨colly, ?_, hkindy⟩
        rw [← hcolly]
        exact OrderedMap.getElem?_insert_of_ne hkey

omit [Application A] [Sha256] [PaddedRequestData] in
/-- It changes nothing else but what has been sent. -/
lemma foldl_checkCollector_eq (cfg : Config) (now : ℕ)
    (xs : List ((ℕ × ℕ) × CheckpointCollector)) (r : Replica A) :
    ∃ collectors sent, xs.foldl (fun r (key, coll) => r.checkCollector cfg now key coll) r =
      { r with checkpointCollectors := { r.checkpointCollectors with collectors }, sent } := by
  induction xs generalizing r with
  | nil => exact ⟨r.checkpointCollectors.collectors, r.sent, rfl⟩
  | cons x xs ih =>
      obtain ⟨collectors, sent, heq⟩ := ih (r.checkCollector cfg now x.1 x.2)
      rw [List.foldl_cons, heq, checkCollector]
      dsimp only
      split_ifs <;> exact ⟨_, _, rfl⟩

omit [Application A] [Sha256] [PaddedRequestData] in
lemma foldl_checkCollector_has (cfg : Config) (now : ℕ) {round seq : ℕ}
    (xs : List ((ℕ × ℕ) × CheckpointCollector))
    (hhas : r.checkpointCollectors.hasCollector round seq = true) :
    (xs.foldl (fun r (key, coll) => r.checkCollector cfg now key coll)
      r).checkpointCollectors.hasCollector round seq = true := by
  induction xs generalizing r with
  | nil => exact hhas
  | cons x xs ih =>
      obtain ⟨key, coll⟩ := x
      refine ih ?_
      have hset : (r.setCollector key.1 key.2
          (coll.checkSelfTimeout now cfg.replicaCheckpointTimeout).1
          ).checkpointCollectors.hasCollector round seq = true := by
        rw [CheckpointCollectorStore.hasCollector] at hhas ⊢
        exact ExtTreeMap.contains_insert.trans (by rw [hhas, Bool.or_true])
      dsimp only
      rw [checkCollector]
      dsimp only
      split_ifs
      · exact hset
      · exact hset

omit [Application A] [Sha256] [PaddedRequestData] in
/-- The timer for the checkpoint at the end of the log has run out. -/
def CheckpointDue (cfg : Config) (now : ℕ) (r : Replica A) : Prop :=
  r.checkpointTimeoutStart ≠ 0 ∧ cfg.replicaCheckpointTimeout < now - r.checkpointTimeoutStart

omit [PaddedRequestData] in
lemma checkTimeouts_kinds
    (hfit : r.CheckpointDue cfg now → r.KindFits cfg r.round (r.log.nextSeq - 1) false)
    (h : r.checkTimeouts cfg now = .ok r') : KeepsKinds cfg r r' := by
  obtain ⟨r₁, htimeout, -, -, hend⟩ := checkTimeouts_cases h
  have hfold : KeepsKinds cfg r (r.checkpointCollectors.collectors.toList.foldl
      (fun r (key, coll) => r.checkCollector cfg now key coll) r) :=
    foldl_checkCollector_kinds fun x hx =>
      ⟨x.2, ExtTreeMap.mem_toList_iff_getElem?_eq_some.mp hx, rfl⟩
  have hhas : r.checkpointCollectors.hasCollector r.round (r.log.nextSeq - 1) = true → _ :=
    foldl_checkCollector_has cfg now r.checkpointCollectors.collectors.toList
  obtain ⟨collectors, sent, heq⟩ :=
    foldl_checkCollector_eq cfg now r.checkpointCollectors.collectors.toList r
  rw [heq] at htimeout hfold hhas
  have hcheckpoint : KeepsKinds cfg r r₁ := by
    refine hfold.trans ?_
    rw [checkCheckpointTimeout] at htimeout
    split_ifs at htimeout with hdue
    · obtain ⟨r₂, hstart, htimeout⟩ := bind_eq_ok.mp htimeout
      cases pure_eq_ok.mp htimeout
      refine KeepsKinds.trans (startCheckpoint_kinds ?_ hstart) (.of_eq rfl)
      rcases hfit ⟨hdue.1, hdue.2.1⟩ with hseq | hcoll | hpassed
      · exact .inl hseq
      · exact .inr (.inl (hhas hcoll))
      · exact .inr (.inr hpassed)
    · cases htimeout
      exact .refl cfg _
  rcases hend with rfl | ⟨-, hview⟩
  · exact hcheckpoint
  · have hledger := startViewChange_ledger hview
    exact hcheckpoint.trans (.of_ledger hledger)

/-! ### Repairs -/

omit [PaddedRequestData] in
lemma commitWithSnapshot_kinds {seq : ℕ} (hfit : r.KindFits cfg r.round seq true)
    (h : r.commitWithSnapshot seq = .ok r') : KeepsKinds cfg r r' := by
  obtain ⟨digest, -, h⟩ := bind_eq_ok.mp h
  obtain ⟨⟨r₁, ok⟩, hinit, h⟩ := bind_eq_ok.mp h
  cases pure_eq_ok.mp h
  exact (initCollector_kinds hfit hinit).trans (.of_eq rfl)

omit [Sha256] [PaddedRequestData] in
lemma commitRepair_kinds {seq : ℕ} (h : r.commitRepair seq = .ok r') : KeepsKinds cfg r r' := by
  obtain ⟨digest, -, h⟩ := bind_eq_ok.mp h
  split at h
  · cases h
  split_ifs at h
  · cases h
    exact .refl cfg r
  · obtain ⟨log, -, h⟩ := bind_eq_ok.mp h
    cases pure_eq_ok.mp h
    exact .setLog log

omit [Application A] [PaddedRequestData] in
/-- At the end of a repair the replica commits with a snapshot, for a position above the last
checkpoint that lies in a later interval than the checkpoint of the suffix. -/
def CommitsSnapshot (cfg : Config) (r : Replica A) : Prop :=
  ∃ suffix, (r.getRepairLogSuffix cfg).map Prod.snd = .ok suffix ∧
    r.log.committedCheckpoint.seq < r.log.nextSeq - 1 ∧
    suffix.checkpoint.seq / cfg.replicaSnapshotInterval <
      (r.log.nextSeq - 1) / cfg.replicaSnapshotInterval

omit [PaddedRequestData] in
lemma checkpointRepair_kinds
    (hfit : r.CommitsSnapshot cfg → r.KindFits cfg r.round (r.log.nextSeq - 1) true)
    (h : r.checkpointRepair cfg = .ok r') : KeepsKinds cfg r r' := by
  obtain ⟨⟨r₁, suffix⟩, hsuffix, h⟩ := bind_eq_ok.mp h
  obtain ⟨rfl, -⟩ := getRepairLogSuffix_cases hsuffix
  have hset : KeepsKinds cfg r { r with repairProposalLogSuffix := some suffix } := .of_eq rfl
  dsimp only at h
  split_ifs at h with hpassed hlater
  · cases pure_eq_ok.mp h
    exact hset
  · have hcommits : r.CommitsSnapshot cfg :=
      ⟨suffix, map_eq_ok.mpr ⟨_, hsuffix, rfl⟩, not_le.mp hpassed, hlater⟩
    have hfit' : { r with repairProposalLogSuffix := some suffix }.KindFits cfg r.round
        (r.log.nextSeq - 1) true := hfit hcommits
    exact hset.trans (commitWithSnapshot_kinds hfit' h)
  · exact hset.trans (commitRepair_kinds h)

omit [Application A] [PaddedRequestData] in
/-- What has been sent has no influence on the suffix. -/
lemma getRepairLogSuffix_setSent (sent : List (Dest × Msg)) :
    ({ r with sent }.getRepairLogSuffix cfg).map Prod.snd =
      (r.getRepairLogSuffix cfg).map Prod.snd := by
  rw [getRepairLogSuffix, getRepairLogSuffix]
  cases hs : r.repairProposalLogSuffix with
  | none =>
      cases hp : r.repairProposal with
      | none => rfl
      | some proposal =>
          cases hs' : getLogSuffixFromProposal cfg proposal <;> simp only [hs'] <;> rfl
  | some suffix =>
      dsimp only
      split_ifs
      · rfl
      · cases hp : r.repairProposal with
        | none => rfl
        | some proposal =>
            cases hs' : getLogSuffixFromProposal cfg proposal <;> simp only [hs'] <;> rfl

omit [Sha256] [Application A] [PaddedRequestData] in
/-- The summaries are sent, and nothing else. -/
lemma sendRepairSummaryToClients_eq (h : r.sendRepairSummaryToClients cfg = .ok r') :
    ∃ sent, r' = { r with sent } := by
  obtain ⟨entries, -, h⟩ := bind_eq_ok.mp h
  refine foldlM_rel (P := fun r r' : Replica A => ∃ sent, r' = { r with sent })
    (fun r => ⟨r.sent, rfl⟩) ?_ ?_ h
  · rintro r r₁ r₂ ⟨sent, rfl⟩ ⟨sent', rfl⟩
    exact ⟨sent', rfl⟩
  · intro r c r₁ _ hsend
    exact ⟨_, sendToClient_eq hsend⟩

/-- The round that `finishRepair` enters. -/
def nextRound (r : Replica A) : Replica A :=
  { r with
    round := (r.round + 1) % 2 ^ 32
    numConsecutiveViewChanges := 0 }

/-- A repair that is finished in this state creates no collector of another kind than that of its
position. -/
def RepairFits (cfg : Config) (r : Replica A) : Prop :=
  r.nextRound.CommitsSnapshot cfg →
    r.nextRound.KindFits cfg r.nextRound.round (r.log.nextSeq - 1) true

lemma finishRepair_kinds {aborted : List ClientRequestProto} (hfit : r.RepairFits cfg)
    (h : r.finishRepair cfg now aborted = .ok r') : KeepsKinds cfg r r' := by
  rw [finishRepair] at h
  dsimp only at h
  obtain ⟨r₁, hsummary, h⟩ := bind_eq_ok.mp h
  obtain ⟨r₂, hcheckpoint, h⟩ := bind_eq_ok.mp h
  obtain ⟨r₃, hqueued, h⟩ := bind_eq_ok.mp h
  obtain ⟨r₄, hfold, hqueued⟩ := bind_eq_ok.mp hqueued
  cases pure_eq_ok.mp hqueued
  have hsummary' : r.nextRound.sendRepairSummaryToClients cfg = .ok r₁ := hsummary
  obtain ⟨sent, hsent⟩ := sendRepairSummaryToClients_eq hsummary'
  have h₁ : KeepsKinds cfg r r₁ := .of_eq (by rw [hsent]; rfl)
  have h₂ : KeepsKinds cfg r₁ r₂ := by
    refine checkpointRepair_kinds ?_ hcheckpoint
    rw [hsent]
    rintro ⟨suffix, hsuffix, hcommits⟩
    rw [getRepairLogSuffix_setSent] at hsuffix
    exact hfit ⟨suffix, hsuffix, hcommits⟩
  have hend : KeepsKinds cfg r₂ (r₂.endRepair aborted) := .of_eq rfl
  have hrequests := foldlM_rel (P := KeepsKinds cfg) (.refl cfg) (fun _ _ _ => .trans)
    (fun _ _ _ _ hreq => processClientRequest_kinds hreq) hfold
  have h₄ : KeepsKinds cfg r r₄ := ((h₁.trans h₂).trans hend).trans hrequests
  split_ifs at h
  · have hpending : KeepsKinds cfg r₄ { r₄ with
        repairQueuedReqs := ∅, checkpointTimeoutStart := now, pendingRepair := false } :=
      .of_eq rfl
    have hrepair := startRepair_ledger h
    exact (h₄.trans hpending).trans (.of_ledger hrepair)
  · cases pure_eq_ok.mp h
    exact h₄.trans (.of_eq rfl)

lemma applyProposal_kinds {suffix : LogSuffix}
    {available : RequestMap Bytes} {aborted : List ClientRequestProto}
    {res : Option (List ClientRequestProto)}
    (h : r.applyProposal suffix available aborted = .ok (r', res)) : KeepsKinds cfg r r' := by
  obtain ⟨log, missing, -, hcases⟩ := applyProposal_cases h
  have h₁ : KeepsKinds cfg r { r with log } := .setLog log
  obtain ⟨-, rfl, -⟩ | ⟨ids, -, rfl, -⟩ := hcases
  · exact h₁
  · refine h₁.trans ?_
    rw [sendMissingRequestFetch]
    split_ifs
    · exact .refl cfg _
    · exact .of_eq rfl

lemma tryApply_kinds {res : Option (List ClientRequestProto)}
    (h : r.tryApply cfg = .ok (r', res)) : KeepsKinds cfg r r' := by
  obtain ⟨suffix, proposal, -, -, ⟨-, aborted, -, rfl, -⟩ | ⟨-, hrest⟩⟩ := tryApply_cases h
  · exact .of_eq rfl
  · rcases hrest with ⟨aborted, -, -, hproposal⟩ | ⟨-, -, sent, -, rfl⟩
    · have h₀ : KeepsKinds cfg r { r with
          repairProposalLogSuffix := some suffix, round := proposal.round, repairViewStart := 0 } :=
        .of_eq rfl
      exact h₀.trans (applyProposal_kinds hproposal)
    · exact .of_eq rfl

lemma tryFinishRepair_kinds
    (hfit : ∀ r₂ aborted, r.tryApply cfg = .ok (r₂, some aborted) → r₂.RepairFits cfg)
    (h : r.tryFinishRepair cfg now = .ok r') : KeepsKinds cfg r r' := by
  obtain ⟨⟨r₁, res⟩, happly, h⟩ := bind_eq_ok.mp h
  have h₁ : KeepsKinds cfg r r₁ := tryApply_kinds happly
  cases res with
  | none =>
      cases pure_eq_ok.mp h
      exact h₁
  | some aborted => exact h₁.trans (finishRepair_kinds (hfit r₁ aborted happly) h)

/-! ### Snapshot replies -/

lemma applySnapshot_kinds {reply : SnapshotReply} {res : Option (List ClientRequestProto)}
    (h : r.applySnapshot cfg reply = .ok (r', res)) : KeepsKinds cfg r r' := by
  rcases applySnapshot_cases h with ⟨-, rfl⟩ | ⟨-, -, suffix, -, ⟨-, -, rfl⟩ |
      ⟨-, aborted, available, log, r₁, -, -, hclean, happly⟩⟩
  · exact .refl cfg r'
  · exact .of_eq rfl
  · have hlog : KeepsKinds cfg r { r with repairProposalLogSuffix := some suffix, log } :=
      .of_eq rfl
    exact (hlog.trans (cleanStaleCollectors_kinds hclean)).trans (applyProposal_kinds happly)

lemma alignLog_kinds {reply : SnapshotReply}
    (h : r.alignLog cfg reply = .ok r') : KeepsKinds cfg r r' := by
  obtain ⟨log, r₁, ms, -, hclean, -, rfl⟩ := alignLog_cases h
  have hlog : KeepsKinds cfg r { r with log, round := max r.round reply.round } := .of_eq rfl
  exact (hlog.trans (cleanStaleCollectors_kinds hclean)).trans (.of_eq rfl)

lemma processSnapshotReply_kinds {reply : SnapshotReply} (sig : Bytes)
    (hfit : ∀ r₂ aborted, r.CallsFinish cfg (.message now (.snapshotReply reply) sig) r₂ aborted →
      r₂.RepairFits cfg)
    (h : r.processSnapshotReply cfg now reply = .ok r') : KeepsKinds cfg r r' := by
  rcases processSnapshotReply_cases h with rfl | ⟨hround, hseq, ⟨hrep, happly |
      ⟨r₁, r₂, aborted, happly, hfinish, rfl⟩⟩ | ⟨-, -, r₁, halign, rfl⟩⟩
  · exact .of_eq rfl
  · exact applySnapshot_kinds happly
  · have hcalls : r.CallsFinish cfg (.message now (.snapshotReply reply) sig) r₁ aborted :=
      .snapshot hround hseq hrep happly
    have hkinds := (applySnapshot_kinds happly).trans
      (finishRepair_kinds (hfit r₁ aborted hcalls) hfinish)
    exact hkinds.trans (.of_eq rfl)
  · exact (alignLog_kinds halign).trans (.of_eq rfl)

/-! ### Every event -/

variable {e : ReplicaEvent}

/-- The collectors that an event creates are of the kind of their position, at each of the places
where the kind is computed from something else. -/
structure KindsFit (cfg : Config) (r : Replica A) (e : ReplicaEvent) : Prop where
  commit : ∀ now m sig, e = .message now (.commit m) sig →
    r.KindFits cfg m.round m.seq (m.seq % cfg.replicaSnapshotInterval == 0 || m.appDigest.isSome)
  reply : ∀ now m sig, e = .message now (.reply m) sig →
    r.repair = false → r.round ≤ m.round → r.TimesOut cfg m →
      r.KindFits cfg r.round (r.log.nextSeq - 1) false
  timeouts : ∀ now, e = .timeouts now →
    r.CheckpointDue cfg now → r.KindFits cfg r.round (r.log.nextSeq - 1) false
  finish : ∀ r₂ aborted, r.CallsFinish cfg e r₂ aborted → r₂.RepairFits cfg

lemma callsTryFinish_kinds (hcall : r.CallsTryFinish cfg e r₁) (hfit : r.KindsFit cfg e)
    (h : r₁.tryFinishRepair cfg now = .ok r') : KeepsKinds cfg r r' := by
  have h₁ : KeepsKinds cfg r r₁ := .of_ledger hcall.same.2.2.1
  exact h₁.trans (tryFinishRepair_kinds
    (fun r₂ aborted happly => hfit.finish r₂ aborted (.tried hcall happly)) h)

/-- **What an event does** to the kinds. -/
lemma handle_kinds (hfit : r.KindsFit cfg e) (h : r.handle cfg e = .ok r') :
    KeepsKinds cfg r r' := by
  replace h := handle_ledger h
  cases h with
  | same hledger => exact .of_ledger hledger
  | clientRequest h => exact processClientRequest_kinds h
  | @snapshot round snapshot queue _ h =>
      have hpop : KeepsKinds cfg r { r with snapshotQueue := queue } := .of_eq rfl
      exact hpop.trans (processSnapshot_kinds h)
  | timeouts h => exact checkTimeouts_kinds (hfit.timeouts _ rfl) h
  | cert h => exact processCert_kinds h
  | reply h => exact processReply_kinds (hfit.reply _ _ _ rfl) h
  | commit h => exact processCommit_kinds (hfit.commit _ _ _ rfl) h
  | @snapshotReply now m sig h => exact processSnapshotReply_kinds sig hfit.finish h
  | repairTimeout h => exact processRepairTimeout_kinds h
  | finish hcall h => exact callsTryFinish_kinds hcall hfit h

/-! ### Any two orders -/

variable [SignatureProvider] {i : ℕ} {app : A} {es es' : List ReplicaEvent}

lemma byInterval_of_run (h : Run (system cfg i app) (fun _ r e => r.KindsFit cfg e) es r) :
    r.ByInterval cfg :=
  h.invariant (P := fun _ r => r.ByInterval cfg)
    (by
      rintro _ rfl key coll hcoll
      cases ExtTreeMap.getElem?_empty.symm.trans hcoll)
    fun _ _ _ _ _ hinv hfit ⟨_, _, hhandle⟩ => hinv.keeps (handle_kinds hfit hhandle)

/-- **The kind of a collector does not depend on the order** of the events, as long as those that
create one create it of the kind of its position. -/
theorem collector_kind_of_key
    (h : Run (system cfg i app) (fun _ r e => r.KindsFit cfg e) es r)
    (h' : Run (system cfg i app) (fun _ r e => r.KindsFit cfg e) es' r')
    {round seq : ℕ} {coll coll' : CheckpointCollector}
    (hcoll : r.checkpointCollectors.collectors[(round, seq)]? = some coll)
    (hcoll' : r'.checkpointCollectors.collectors[(round, seq)]? = some coll') :
    coll.needsSnapshot = coll'.needsSnapshot := by
  rw [byInterval_of_run h _ _ hcoll, byInterval_of_run h' _ _ hcoll']

end

end Replica

namespace Replica

section

attribute [local instance] prefixSha shortPaddedRequestData counterWire fourKeys

/-- Four replicas with a checkpoint after every request and a snapshot after every second one. -/
def everySecond : Config := { Config.oneFault with
  replicaCheckpointInterval := 1, replicaSnapshotInterval := 2 }

/-- The reply of a replica to the request at this position. -/
def replyAt (i seq : ℕ) : ReplicaEvent :=
  .message 1 (.reply { clientSeq := 1, round := 1, seq, replicaId := i }) [UInt8.ofNat i]

/-- The commit of a replica at this position, with the digest of an application state. -/
def snapshotCommit (i seq : ℕ) : ReplicaEvent :=
  .message 1 (.commit { replicaId := i, round := 1, seq, appDigest := some [] }) [UInt8.ofNat i]

/-- `KindsFit` on replies and commits, where it can be checked. -/
def MessageFits (cfg : Config) (r : Replica A) : ReplicaEvent → Prop
  | .message _ (.commit m) _ => r.KindFits cfg m.round m.seq
      (m.seq % cfg.replicaSnapshotInterval == 0 || m.appDigest.isSome)
  | .message _ (.reply m) _ => m.seq % cfg.replicaCheckpointInterval = 0
  | _ => False

instance (cfg : Config) (r : Replica A) (e : ReplicaEvent) : Decidable (r.MessageFits cfg e) := by
  rcases e with _ | ⟨_, _ | _, _⟩ | _ <;> unfold MessageFits <;> infer_instance

lemma MessageFits.kindsFit {r : Replica Counter} {cfg : Config} {e : ReplicaEvent}
    (h : r.MessageFits cfg e) : r.KindsFit cfg e := by
  refine ⟨?_, ?_, ?_, ?_⟩
  · rintro now m sig rfl
    exact h
  · rintro now m sig rfl - - htimes
    exact absurd h htimes.1
  · rintro now rfl
    exact absurd h id
  · intro r₂ aborted hcall
    cases hcall with
    | tried hcall _ => cases hcall <;> exact absurd h id
    | snapshot => exact absurd h id

/-- **At the second position** the collector waits for a snapshot, whichever message is first. -/
theorem second_position_any_order : ∃ (r r' : Replica Counter) (coll coll' : CheckpointCollector),
    Run (system everySecond 0 {}) (fun _ r e => r.KindsFit everySecond e)
      [replyAt 1 2, snapshotCommit 3 2] r ∧
    Run (system everySecond 0 {}) (fun _ r e => r.KindsFit everySecond e)
      [snapshotCommit 3 2, replyAt 1 2] r' ∧
    r.checkpointCollectors.collectors[(1, 2)]? = some coll ∧
    r'.checkpointCollectors.collectors[(1, 2)]? = some coll' ∧
    coll.needsSnapshot = coll'.needsSnapshot := by
  have hsome : ∀ es ∈ [[replyAt 1 2, snapshotCommit 3 2], [snapshotCommit 3 2, replyAt 1 2]],
      ∃ r, es.foldlM (fun (r : Replica Counter) e => if r.MessageFits everySecond e
          then r.handle everySecond e else .error .assertion) (fresh 0 {}) = .ok r ∧
        (r.checkpointCollectors.collectors[(1, 2)]?).isSome := by
    decide +kernel
  obtain ⟨r, hfold, hr⟩ := hsome _ List.mem_cons_self
  obtain ⟨r', hfold', hr'⟩ := hsome _ (List.mem_cons_of_mem _ List.mem_cons_self)
  have hrun : Run (system everySecond 0 ({} : Counter)) (fun _ r e => r.KindsFit everySecond e)
      ([] ++ [replyAt 1 2, snapshotCommit 3 2]) r :=
    run_of_foldlM (.start rfl) (by decide +kernel) (fun _ _ _ h => h.kindsFit) hfold
  have hrun' : Run (system everySecond 0 ({} : Counter)) (fun _ r e => r.KindsFit everySecond e)
      ([] ++ [snapshotCommit 3 2, replyAt 1 2]) r' :=
    run_of_foldlM (.start rfl) (by decide +kernel) (fun _ _ _ h => h.kindsFit) hfold'
  obtain ⟨coll, hcoll⟩ := Option.isSome_iff_exists.mp hr
  obtain ⟨coll', hcoll'⟩ := Option.isSome_iff_exists.mp hr'
  exact ⟨r, r', coll, coll', hrun, hrun', hcoll, hcoll',
    collector_kind_of_key hrun hrun' hcoll hcoll'⟩

/-- **One commit of a faulty replica decides the kind**: with the digest of an application state,
at a position that is not a multiple of the interval, it does if it is there before the reply. -/
theorem commit_before_reply_decides_kind :
    ∃ (es es' : List ReplicaEvent) (r r' : Replica Counter) (coll coll' : CheckpointCollector),
      es.Perm es' ∧ Run (system everySecond 0 {}) anyStep es r ∧
        Run (system everySecond 0 {}) anyStep es' r' ∧
        r.checkpointCollectors.collectors[(1, 1)]? = some coll ∧
        r'.checkpointCollectors.collectors[(1, 1)]? = some coll' ∧
        coll.needsSnapshot = false ∧ coll'.needsSnapshot = true := by
  have hsome : ∀ x ∈ [([replyAt 1 1, snapshotCommit 3 1], false),
        ([snapshotCommit 3 1, replyAt 1 1], true)],
      ∃ r, x.1.foldlM (fun (r : Replica Counter) e => if True
          then r.handle everySecond e else .error .assertion) (fresh 0 {}) = .ok r ∧
        (r.checkpointCollectors.collectors[(1, 1)]?).map (·.needsSnapshot) = some x.2 := by
    decide +kernel
  obtain ⟨r, hfold, hr⟩ := hsome _ List.mem_cons_self
  obtain ⟨r', hfold', hr'⟩ := hsome _ (List.mem_cons_of_mem _ List.mem_cons_self)
  have hrun : Run (system everySecond 0 ({} : Counter)) anyStep
      ([] ++ [replyAt 1 1, snapshotCommit 3 1]) r :=
    run_of_foldlM (.start rfl) (by decide +kernel) (fun _ _ _ _ => trivial) hfold
  have hrun' : Run (system everySecond 0 ({} : Counter)) anyStep
      ([] ++ [snapshotCommit 3 1, replyAt 1 1]) r' :=
    run_of_foldlM (.start rfl) (by decide +kernel) (fun _ _ _ _ => trivial) hfold'
  obtain ⟨coll, hcoll, hkind⟩ := Option.map_eq_some_iff.mp hr
  obtain ⟨coll', hcoll', hkind'⟩ := Option.map_eq_some_iff.mp hr'
  exact ⟨_, _, r, r', coll, coll', .swap _ _ _, hrun, hrun', hcoll, hcoll', hkind, hkind'⟩

end

end Replica

end DomBft
