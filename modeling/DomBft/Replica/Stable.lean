import DomBft.Replica.CheckpointPath
import DomBft.Replica.LogSteps

/-!
Whether the stable checkpoint of a replica can be served.

* `Log.Servable`: the stable checkpoint is there with a snapshot, of which it has the digest.
* `Kept`: where the snapshots of a replica come from.
* `Stays`: the stable checkpoint stays, and so does that; one lemma for each handler.
* `StaleSnapshot`, `BringsSnapshot`: the messages after which the checkpoint cannot be served.
* `stable_checkpoint_served`: without them it can be in every run.
-/

namespace DomBft

open Std (ExtTreeMap)
open Fallible Transition

/-! ### The stable checkpoint -/

namespace Log

variable {A : Type} [Application A] {l l' : Log A}

/-- The stable checkpoint, if there is one, has a snapshot of the application, and its digest. -/
def Servable (l : Log A) : Prop :=
  0 < l.stableCheckpoint.seq → ∃ a : A,
    l.stableCheckpoint.snapshot = some (Application.takeSnapshot a).snapshot ∧
      l.stableCheckpoint.appDigest = (Application.takeSnapshot a).digest

/-- `setCheckpoint` makes a checkpoint stable only together with its snapshot. -/
lemma setCheckpoint_stable {cp : LogCheckpoint} (h : l.setCheckpoint cp = .ok l') :
    l'.stableCheckpoint = l.stableCheckpoint ∨
      cp.appDigest ≠ [] ∧ l.stableCheckpoint.seq < cp.seq ∧ cp.snapshot ≠ none ∧
        l'.stableCheckpoint = cp := by
  obtain ⟨l₁, hcommit, h⟩ := bind_eq_ok.mp h
  have hl₁ : l₁.stableCheckpoint = l.stableCheckpoint := by
    rw [commitCheckpoint] at hcommit
    split_ifs at hcommit
    · obtain ⟨app, -, hcommit⟩ := bind_eq_ok.mp hcommit
      cases pure_eq_ok.mp hcommit
      rfl
    · cases Except.ok.inj hcommit
      rfl
  rw [stabilizeCheckpoint] at h
  by_cases hstab : cp.appDigest ≠ [] ∧ l₁.stableCheckpoint.seq < cp.seq
  · rw [if_pos hstab] at h
    obtain ⟨log, -, h⟩ := bind_eq_ok.mp h
    split_ifs at h with hsnap
    cases pure_eq_ok.mp h
    exact .inr ⟨hstab.1, hl₁ ▸ hstab.2, hsnap, rfl⟩
  · rw [if_neg hstab] at h
    cases Except.ok.inj h
    exact .inl hl₁

variable [Sha256] [PaddedRequestData]

omit [Sha256] [PaddedRequestData] in
lemma startSnapshot_stable {reply : SnapshotReply} {cp : LogCheckpoint} {startSeq : ℕ}
    (h : l.startSnapshot reply cp = .ok (some (l', startSeq))) :
    l'.stableCheckpoint = l.stableCheckpoint ∨
      ∃ p ∈ reply.snapshotCheckpoint, reply.snapshot.isSome ∧
        l'.stableCheckpoint.seq = p.seq := by
  rw [startSnapshot] at h
  cases hsnap : reply.snapshot with
  | some snapshot =>
      rw [hsnap] at h
      cases hp : reply.snapshotCheckpoint with
      | none =>
          rw [hp] at h
          cases h
      | some p =>
          rw [hp] at h
          obtain ⟨scp, hofp, h⟩ := bind_eq_ok.mp h
          obtain ⟨app?, -, h⟩ := bind_eq_ok.mp h
          cases app? with
          | none => cases pure_eq_ok.mp h
          | some app =>
              cases pure_eq_ok.mp h
              exact .inr ⟨p, rfl, rfl, (LogCheckpoint.ofProto_eq hofp).1⟩
  | none =>
      rw [hsnap] at h
      obtain ⟨l₁, habort, h⟩ := bind_eq_ok.mp h
      cases pure_eq_ok.mp h
      exact .inl (abort_nextSeq habort).2.1

/-- **A reset replaces the stable checkpoint** by that of an application snapshot only. -/
lemma resetToSnapshot_stable {reply : SnapshotReply}
    (h : l.resetToSnapshot reply = .ok (l', true)) :
    l'.stableCheckpoint = l.stableCheckpoint ∨
      ∃ p ∈ reply.snapshotCheckpoint, reply.snapshot.isSome ∧
        l'.stableCheckpoint.seq = p.seq := by
  obtain ⟨cp, -, h⟩ := bind_eq_ok.mp h
  obtain ⟨start, hstart, h⟩ := bind_eq_ok.mp h
  cases start with
  | none => cases pure_eq_ok.mp h
  | some start =>
      obtain ⟨⟨l₂, ok⟩, hadd, h⟩ := bind_eq_ok.mp h
      cases ok with
      | false => cases pure_eq_ok.mp h
      | true =>
          obtain ⟨-, -, rfl⟩ := finishSnapshot_eq h
          have hstable := (addEntries_checkpoints hadd).1
          dsimp only
          rw [hstable]
          exact startSnapshot_stable hstart

lemma applySnapshotModifyLog_stable {reply : SnapshotReply}
    (h : l.applySnapshotModifyLog reply = .ok (l', true)) :
    l'.stableCheckpoint = l.stableCheckpoint ∨
      ∃ p ∈ reply.snapshotCheckpoint, reply.snapshot.isSome ∧
        l'.stableCheckpoint.seq = p.seq := by
  obtain ⟨cp, -, h⟩ := bind_eq_ok.mp h
  obtain ⟨⟨l₁, ok⟩, hreset, h⟩ := bind_eq_ok.mp h
  cases ok with
  | false => cases pure_eq_ok.mp h
  | true =>
      obtain ⟨l₂, hreapply, h⟩ := bind_eq_ok.mp h
      cases pure_eq_ok.mp h
      rw [(reapply_checkpoints hreapply).1]
      exact resetToSnapshot_stable hreset

end Log

/-! ### Where the snapshots come from -/

/-- A collector has the position of its key, and its snapshot, if any, is one of the application. -/
structure CheckpointCollector.Kept (A : Type) [Application A] (key : ℕ × ℕ)
    (coll : CheckpointCollector) : Prop where
  position : coll.commitCollector.seq = key.2
  taken : ∀ s ∈ coll.snapshot, ∃ a : A, s = Application.takeSnapshot a

namespace Replica

variable {A : Type} [Application A] {r r' r'' r₁ : Replica A} {cfg : Config} {now : ℕ}

/-- The snapshots that wait and those in the collectors have been taken of the application. -/
structure Kept (r : Replica A) : Prop where
  queue : ∀ x ∈ r.snapshotQueue, ∃ a : A, x.2 = Application.takeSnapshot a
  collectors : ∀ (key : ℕ × ℕ) (coll : CheckpointCollector),
    r.checkpointCollectors.collectors[key]? = some coll → coll.Kept A key

/-- The stable checkpoint stays, and the snapshots are kept. -/
structure Stays (r r' : Replica A) : Prop where
  stable : r'.log.stableCheckpoint = r.log.stableCheckpoint
  kept : r.Kept → r'.Kept

lemma Kept.fresh (i : ℕ) (app : A) : (Replica.fresh i app).Kept where
  queue := by simp [Replica.fresh]
  collectors key coll h := by
    rw [Replica.fresh, ExtTreeMap.getElem?_empty] at h
    cases h

lemma Kept.setCollector (h : r.Kept) {round seq : ℕ} {coll : CheckpointCollector}
    (hcoll : coll.Kept A (round, seq)) : (r.setCollector round seq coll).Kept where
  queue := h.queue
  collectors key coll' hcoll' := by
    rcases OrderedMap.getElem?_insert_cases hcoll' with ⟨rfl, rfl⟩ | ⟨-, hold⟩
    · exact hcoll
    · exact h.collectors key coll' hold

namespace Stays

lemma refl (r : Replica A) : Stays r r := ⟨rfl, id⟩

lemma trans (h : Stays r r') (h' : Stays r' r'') : Stays r r'' :=
  ⟨h'.stable.trans h.stable, fun hk => h'.kept (h.kept hk)⟩

lemma of_ledger (h : r'.ledger = r.ledger) : Stays r r' := by
  obtain ⟨hlog, hqueue, hcollectors⟩ := Ledger.mk.inj h
  refine ⟨congrArg Log.stableCheckpoint hlog, fun hk => ⟨?_, ?_⟩⟩
  · rw [hqueue]
    exact hk.queue
  · rw [hcollectors]
    exact hk.collectors

/-- The log may change as long as the stable checkpoint stays. -/
lemma setLog {log : Log A} (h : log.stableCheckpoint = r.log.stableCheckpoint) :
    Stays r { r with log } :=
  ⟨h, fun hk => ⟨hk.queue, hk.collectors⟩⟩

/-- A collector is changed in place, but for its position and its snapshot. -/
lemma setCollector {round seq : ℕ} {coll coll' : CheckpointCollector}
    (hget : r.checkpointCollectors.get round seq = .ok coll)
    (hposition : coll'.commitCollector.seq = coll.commitCollector.seq)
    (hsnapshot : coll'.snapshot = coll.snapshot) : Stays r (r.setCollector round seq coll') := by
  refine ⟨rfl, fun hk => hk.setCollector ?_⟩
  have hcoll := hk.collectors _ _ (CheckpointCollectorStore.get_eq hget)
  exact ⟨hposition.trans hcoll.position, hsnapshot ▸ hcoll.taken⟩

end Stays

/-! ### Requests and replies -/

lemma initCollector_stays {round seq : ℕ} {needsSnapshot ok : Bool}
    (h : r.initCollector round seq needsSnapshot = .ok (r', ok)) : Stays r r' := by
  rw [initCollector] at h
  split_ifs at h
  · cases h
    exact .refl r
  · obtain ⟨⟨store, created⟩, hstore, h⟩ := bind_eq_ok.mp h
    cases pure_eq_ok.mp h
    rcases CheckpointCollectorStore.initCollector_cases hstore with rfl | rfl
    · exact .of_ledger rfl
    · exact ⟨rfl, fun hk => hk.setCollector ⟨rfl, fun _ h => by cases h⟩⟩

lemma takeSnapshot_stays (r : Replica A) : Stays r r.takeSnapshot := by
  refine ⟨rfl, fun hk => ⟨fun x hx => ?_, hk.collectors⟩⟩
  rcases List.mem_append.mp hx with hx | hx
  · exact hk.queue x hx
  · rw [List.mem_singleton.mp hx]
    exact ⟨r.log.app, rfl⟩

lemma startCheckpoint_stays {b : Bool} (h : r.startCheckpoint b = .ok r') : Stays r r' := by
  have h0 : Stays r (if b then r.takeSnapshot else r) := by
    cases b with
    | false => exact .refl r
    | true => exact takeSnapshot_stays r
  obtain ⟨⟨r₁, ok⟩, hinit, h⟩ := bind_eq_ok.mp h
  have h₁ := h0.trans (initCollector_stays hinit)
  cases ok with
  | false =>
      cases h
      exact h₁
  | true =>
      obtain ⟨coll, hget, h⟩ := bind_eq_ok.mp h
      obtain ⟨digest, -, h⟩ := bind_eq_ok.mp h
      obtain ⟨entry, -, h⟩ := bind_eq_ok.mp h
      cases pure_eq_ok.mp h
      have hset : Stays r₁ (r₁.setCollector r₁.round (r.log.nextSeq - 1)
          (coll.addOwnState digest r₁.log.clientRecord)) := .setCollector hget rfl rfl
      exact (h₁.trans hset).trans (.of_ledger rfl)

lemma checkpointAt_stays {seq : ℕ} (h : r.checkpointAt cfg now seq = .ok r') : Stays r r' := by
  have hend : ∀ r₁ : Replica A, Stays r₁ (if seq = 1 then r₁.restartTimer now else r₁) := by
    intro r₁
    split_ifs
    · exact .of_ledger rfl
    · exact .refl r₁
  rw [checkpointAt] at h
  by_cases hdue : seq % cfg.replicaCheckpointInterval = 0
  · rw [if_pos hdue] at h
    obtain ⟨r₁, hstart, h⟩ := bind_eq_ok.mp h
    obtain ⟨r₂, hr₂, rfl⟩ := map_eq_ok.mp hstart
    cases pure_eq_ok.mp h
    have htimer : Stays r₂ (r₂.restartTimer now) := .of_ledger rfl
    exact ((startCheckpoint_stays hr₂).trans htimer).trans (hend _)
  · rw [if_neg hdue] at h
    cases pure_eq_ok.mp h
    exact hend r

lemma sendToClient_stays {c : UInt32} {msg : Msg} (h : r.sendToClient cfg c msg = .ok r') :
    Stays r r' := by
  rw [sendToClient_eq h]
  exact .of_ledger rfl

lemma sendToReplica_stays {i : ℕ} {msg : Msg} (h : r.sendToReplica cfg i msg = .ok r') :
    Stays r r' := by
  rw [(sendToReplica_eq h).2]
  exact .of_ledger rfl

lemma addCert_stays {log : Log A} {seq : ℕ} {cert : Cert} {ok : Bool}
    (h : r.log.addCert seq cert = .ok (log, ok)) : Stays r { r with log } :=
  .setLog (Log.addCert_checkpoints h).1

lemma processCert_stays {cert : Cert} (h : r.processCert cfg cert = .ok r') : Stays r r' := by
  rw [processCert] at h
  split at h
  · cases h
  split_ifs at h
  · cases h
    exact .refl r
  · cases h
    exact .refl r
  · obtain ⟨⟨log, ok⟩, hadd, h⟩ := bind_eq_ok.mp h
    cases ok with
    | false =>
        cases h
        exact addCert_stays hadd
    | true => exact (addCert_stays hadd).trans (sendToClient_stays h)

variable [Sha256]

lemma sendOwnCommit_stays {coll : CheckpointCollector} (h : r.sendOwnCommit coll = .ok r') :
    Stays r r' := by
  rw [sendOwnCommit] at h
  split_ifs at h
  · obtain ⟨commit, -, h⟩ := bind_eq_ok.mp h
    cases pure_eq_ok.mp h
    exact .of_ledger rfl
  · cases h
    exact .refl r

lemma startRepair_stays (h : r.startRepair cfg = .ok r') : Stays r r' :=
  .of_ledger (startRepair_ledger h)

omit [Sha256] in
lemma checkpointTimedOut_stays {reply : Reply} (h : r.checkpointTimedOut cfg reply = .ok r') :
    Stays r r' := by
  rw [checkpointTimedOut] at h
  dsimp only at h
  split_ifs at h
  · have hseqs : Stays r { r with checkpointTimeoutSeqs :=
        r.checkpointTimeoutSeqs.insert reply.replicaId (r.round, reply.seq) } := .of_ledger rfl
    exact hseqs.trans (startCheckpoint_stays h)
  · cases h
    exact .refl r

lemma useCert_stays {coll : CheckpointCollector} {reply : Reply}
    (h : r.useCert cfg coll reply = .ok r') : Stays r r' := by
  rw [useCert] at h
  split_ifs at h
  · split at h
    · cases h
    · obtain ⟨⟨log, ok⟩, hadd, h⟩ := bind_eq_ok.mp h
      cases ok with
      | false =>
          cases h
          exact addCert_stays hadd
      | true => exact (addCert_stays hadd).trans (sendOwnCommit_stays h)
  · exact sendOwnCommit_stays h

lemma useConflictProof_stays {coll : CheckpointCollector}
    (h : r.useConflictProof cfg coll = .ok r') : Stays r r' := by
  rcases useConflictProof_cases h with ⟨-, rfl⟩ | ⟨proof, -, h⟩
  · exact .refl _
  · have hsend : ∀ msg, Stays r (r.broadcastToReplicas msg) := fun _ => .of_ledger rfl
    exact (hsend _).trans (startRepair_stays h)

lemma processReply_stays {m : Reply} {sig : Bytes} (h : r.processReply cfg now m sig = .ok r') :
    Stays r r' := by
  rw [processReply] at h
  split_ifs at h
  · cases h
    exact .refl r
  · cases h
    exact .refl r
  obtain ⟨r₁, h₁, h⟩ := bind_eq_ok.mp h
  have hr₁ := checkpointTimedOut_stays h₁
  split_ifs at h
  · cases h
    exact hr₁
  obtain ⟨⟨r₂, ok⟩, h₂, h⟩ := bind_eq_ok.mp h
  have hr₂ := hr₁.trans (initCollector_stays h₂)
  cases ok with
  | false =>
      cases h
      exact hr₂
  | true =>
      obtain ⟨coll, hget, h⟩ := bind_eq_ok.mp h
      split_ifs at h
      · cases h
        exact hr₂
      have hr₃ : Stays r (r₂.setCollector r₂.round m.seq
          (coll.addAndCheckReply cfg now m sig).1) := hr₂.trans (.setCollector hget rfl rfl)
      dsimp only at h
      split_ifs at h
      · exact hr₃.trans (useCert_stays h)
      · exact hr₃.trans (useConflictProof_stays h)

variable [PaddedRequestData]

lemma processClientRequest_stays {m : ClientRequestProto} {queued : Bool}
    (h : r.processClientRequest cfg now m queued = .ok r') : Stays r r' := by
  rw [processClientRequest] at h
  split_ifs at h
  · cases h
    exact .refl r
  · exact sendToClient_stays h
  · obtain ⟨⟨log, res⟩, hadd, h⟩ := bind_eq_ok.mp h
    have h₁ : Stays r { r with log } := .setLog (Log.addEntry_checkpoints hadd).1
    cases res with
    | none =>
        cases h
        exact h₁
    | some result =>
        obtain ⟨log', hset, h⟩ := bind_eq_ok.mp h
        obtain ⟨r₂, hsend, h⟩ := bind_eq_ok.mp h
        have h₂ : Stays r { r with log := log' } := .setLog
          ((Log.setDeadline_checkpoints hset).1.trans (Log.addEntry_checkpoints hadd).1)
        exact (h₂.trans (sendToClient_stays hsend)).trans (checkpointAt_stays h)

/-! ### Commits and timers -/

omit [PaddedRequestData] in
lemma processSnapshot_kept {snapshot : AppSnapshot} {round : ℕ} {a : A}
    (hsnap : snapshot = Application.takeSnapshot a)
    (h : r.processSnapshot snapshot round = .ok r') : Stays r r' := by
  rw [processSnapshot] at h
  split at h
  · cases h
    exact .refl r
  · rename_i coll hcoll
    have hset : Stays r (r.setCollector round snapshot.seq (coll.addOwnSnapshot snapshot)) := by
      refine ⟨rfl, fun hk => hk.setCollector ⟨(hk.collectors _ _ hcoll).position, ?_⟩⟩
      rintro s ⟨⟩
      exact ⟨a, hsnap⟩
    exact hset.trans (sendOwnCommit_stays h)

omit [Sha256] [PaddedRequestData] in
lemma cleanStaleCollectors_stays (h : r.cleanStaleCollectors = .ok r') : Stays r r' := by
  obtain ⟨store, hstore, h⟩ := bind_eq_ok.mp h
  cases pure_eq_ok.mp h
  rw [CheckpointCollectorStore.cleanStaleCollectors] at hstore
  split_ifs at hstore
  cases hstore
  refine ⟨rfl, fun hk => ⟨hk.queue, fun key coll hcoll => hk.collectors key coll ?_⟩⟩
  have hcoll' := hcoll
  rw [ExtTreeMap.getElem?_filter', Option.filter_eq_some_iff] at hcoll'
  exact hcoll'.1

omit [Sha256] [PaddedRequestData] in
lemma requestCheckpoint_stays {cp : LogCheckpoint}
    (h : r.requestCheckpoint cfg now cp = .ok r') : Stays r r' := by
  rw [requestCheckpoint] at h
  split at h
  · cases h
  split_ifs at h
  · cases h
    exact .refl r
  · obtain ⟨r₁, hsend, h⟩ := bind_eq_ok.mp h
    cases pure_eq_ok.mp h
    have hset : Stays r₁ { r₁ with checkpointSnapshotRequested := true } := .of_ledger rfl
    exact (sendToReplica_stays hsend).trans hset
  · obtain ⟨r₁, hsend, h⟩ := bind_eq_ok.mp h
    cases pure_eq_ok.mp h
    cases hsend
    exact .of_ledger rfl

/-- `processCommit` makes a checkpoint stable: it calls `useCheckpoint`, and the log takes the
checkpoint over with its snapshot. -/
def Stabilizes (cfg : Config) (r : Replica A) (commit : Commit) (sig : Bytes) (cp : LogCheckpoint) :
    Prop :=
  ∃ r₁ coll, CallsUseCheckpoint cfg r commit sig r₁ coll ∧ coll.getCheckpoint = .ok cp ∧
    cp.seq < r₁.log.nextSeq ∧ r₁.log.getDigestAt cp.seq = .ok cp.logDigest ∧ cp.appDigest ≠ [] ∧
      r₁.log.stableCheckpoint.seq < cp.seq ∧ cp.snapshot ≠ none

omit [PaddedRequestData] in
lemma processCommit_stable {commit : Commit} {sig : Bytes}
    (h : r.processCommit cfg now commit sig = .ok r') :
    Stays r r' ∨ (r.Kept → r'.Kept) ∧
      ∃ cp, Stabilizes cfg r commit sig cp ∧ r'.log.stableCheckpoint = cp := by
  obtain ⟨⟨r₀, ok⟩, hinit, h⟩ := bind_eq_ok.mp h
  have h₀ := initCollector_stays hinit
  cases ok with
  | false =>
      cases h
      exact .inl h₀
  | true =>
  obtain ⟨coll, hget, h⟩ := bind_eq_ok.mp h
  obtain ⟨⟨coll', ready⟩, hadd⟩ : ∃ x, coll.addAndCheckCommit cfg commit sig = x := ⟨_, rfl⟩
  rw [hadd] at h
  have hsame : coll'.commitCollector.seq = coll.commitCollector.seq ∧
      coll'.snapshot = coll.snapshot := by
    obtain ⟨⟨c', ok⟩, hc⟩ : ∃ x, coll.commitCollector.addAndCheckCommit cfg commit sig = x :=
      ⟨_, rfl⟩
    rw [CheckpointCollector.addAndCheckCommit, hc] at hadd
    obtain ⟨rfl, rfl⟩ := Prod.mk.inj hadd
    rcases CommitCollector.addAndCheckCommit_cases hc with ⟨rfl, -⟩ | ⟨-, -, hseq, -⟩
    · exact ⟨rfl, rfl⟩
    · exact ⟨hseq, rfl⟩
  have h₁ : Stays r (r₀.setCollector commit.round commit.seq coll') :=
    h₀.trans (.setCollector hget hsame.1 hsame.2)
  dsimp only at h
  split_ifs at h with hready
  · subst hready
    have hcall : CallsUseCheckpoint cfg r commit sig
        (r₀.setCollector commit.round commit.seq coll') coll' := ⟨r₀, coll, hinit, hget, hadd, rfl⟩
    obtain ⟨cp, hcp, h⟩ := bind_eq_ok.mp h
    by_cases hnext : (r₀.setCollector commit.round commit.seq coll').log.nextSeq ≤ cp.seq
    · rw [if_pos hnext] at h
      exact .inl (h₁.trans (requestCheckpoint_stays h))
    rw [if_neg hnext] at h
    obtain ⟨digest, hdigest, h⟩ := bind_eq_ok.mp h
    split_ifs at h with hother hsnap
    · exact .inl (h₁.trans (requestCheckpoint_stays h))
    · obtain ⟨log, hset, hclean⟩ := bind_eq_ok.mp h
      have h₂ := cleanStaleCollectors_stays hclean
      rcases Log.setCheckpoint_stable hset with hkeep | ⟨happ, hlt, hsnapshot, hstable⟩
      · exact .inl (h₁.trans (.trans (.setLog hkeep) h₂))
      · rw [not_not.mp hother] at hdigest
        exact .inr ⟨fun hk => h₂.kept ⟨(h₁.kept hk).queue, (h₁.kept hk).collectors⟩, cp,
          ⟨_, coll', hcall, hcp, not_le.mp hnext, hdigest, happ, hlt, hsnapshot⟩,
          h₂.stable.trans hstable⟩
    · cases pure_eq_ok.mp h
      exact .inl h₁
  · cases pure_eq_ok.mp h
    exact .inl h₁

omit [Application A] [PaddedRequestData] in
lemma processRepairTimeout_stays [Application A] {m : RepairTimeout} {sig : Bytes}
    (h : r.processRepairTimeout cfg m sig = .ok r') : Stays r r' := by
  have hset : ∀ coll, r.checkpointCollectors.collectors[(r.round, m.seq)]? = some coll →
      Stays r (r.setCollector r.round m.seq (coll.addAndCheckTimeout cfg m sig).1) := by
    refine fun coll hcoll => ⟨rfl, fun hk => hk.setCollector ?_⟩
    have hkept := hk.collectors _ _ hcoll
    rw [CheckpointCollector.addAndCheckTimeout]
    dsimp only
    split_ifs
    · exact ⟨hkept.position, hkept.taken⟩
    · exact ⟨hkept.position, hkept.taken⟩
  rcases processRepairTimeout_cases h with rfl | ⟨coll, hcoll, rfl | ⟨proof, hstart⟩⟩
  · exact .refl _
  · exact hset coll hcoll
  · have hsend : ∀ (x : Replica A) msg, Stays x (x.broadcastToReplicas msg) :=
      fun _ _ => .of_ledger rfl
    exact ((hset coll hcoll).trans (hsend _ _)).trans (startRepair_stays hstart)

omit [Sha256] [PaddedRequestData] in
lemma foldl_checkCollector_kept {xs : List ((ℕ × ℕ) × CheckpointCollector)}
    (hxs : ∀ x ∈ xs, x.2.Kept A x.1) (hk : r.Kept) :
    (xs.foldl (fun r (key, coll) => r.checkCollector cfg now key coll) r).Kept := by
  induction xs generalizing r with
  | nil => exact hk
  | cons x xs ih =>
      refine ih (fun y hy => hxs y (List.mem_cons_of_mem _ hy)) ?_
      obtain ⟨key, coll⟩ := x
      have hcoll : coll.Kept A key := hxs (key, coll) List.mem_cons_self
      have hself : (coll.checkSelfTimeout now cfg.replicaCheckpointTimeout).1.Kept A key := by
        rw [CheckpointCollector.checkSelfTimeout]
        split_ifs
        · exact hcoll
        · exact ⟨hcoll.position, hcoll.taken⟩
        · exact hcoll
      have hset := hk.setCollector hself
      show (r.checkCollector cfg now key coll).Kept
      rw [checkCollector]
      dsimp only
      split_ifs
      · exact ⟨hset.queue, hset.collectors⟩
      · exact hset

omit [PaddedRequestData] in
lemma checkTimeouts_stays (h : r.checkTimeouts cfg now = .ok r') : Stays r r' := by
  obtain ⟨r₁, htimeout, -, -, hend⟩ := checkTimeouts_cases h
  have hfold : Stays r (r.checkpointCollectors.collectors.toList.foldl
      (fun r (key, coll) => r.checkCollector cfg now key coll) r) := by
    refine ⟨congrArg Log.stableCheckpoint (foldl_checkCollector_quiet cfg now _ r).2, fun hk => ?_⟩
    exact foldl_checkCollector_kept (fun x hx => hk.collectors x.1 x.2
      (ExtTreeMap.mem_toList_iff_getElem?_eq_some.mp hx)) hk
  have hcheckpoint : Stays r r₁ := by
    refine hfold.trans ?_
    rw [checkCheckpointTimeout] at htimeout
    split_ifs at htimeout
    · obtain ⟨r₂, hstart, htimeout⟩ := bind_eq_ok.mp htimeout
      cases pure_eq_ok.mp htimeout
      have hreset : Stays r₂ { r₂ with checkpointTimeoutStart := 0 } := .of_ledger rfl
      exact (startCheckpoint_stays hstart).trans hreset
    · cases htimeout
      exact .refl _
  rcases hend with rfl | ⟨-, hview⟩
  · exact hcheckpoint
  · have hledger := startViewChange_ledger hview
    exact hcheckpoint.trans (.of_ledger hledger)

/-! ### Repairs -/

omit [PaddedRequestData] in
lemma commitWithSnapshot_stays {seq : ℕ} (h : r.commitWithSnapshot seq = .ok r') : Stays r r' := by
  obtain ⟨digest, -, h⟩ := bind_eq_ok.mp h
  obtain ⟨⟨r₁, ok⟩, hinit, h⟩ := bind_eq_ok.mp h
  cases pure_eq_ok.mp h
  have hsend : ∀ (x : Replica A) msg, Stays x (x.broadcastToReplicas msg) :=
    fun _ _ => .of_ledger rfl
  exact ((initCollector_stays hinit).trans (takeSnapshot_stays r₁)).trans (hsend _ _)

omit [Sha256] [PaddedRequestData] in
/-- The checkpoint at the end of a repair has no digest of an application state. -/
lemma commitRepair_stays {seq : ℕ} (h : r.commitRepair seq = .ok r') : Stays r r' := by
  obtain ⟨digest, -, h⟩ := bind_eq_ok.mp h
  split at h
  · cases h
  split_ifs at h
  · cases h
    exact .refl r
  · obtain ⟨log, hset, h⟩ := bind_eq_ok.mp h
    cases pure_eq_ok.mp h
    rcases Log.setCheckpoint_stable hset with hkeep | ⟨happ, -⟩
    · exact .setLog hkeep
    · exact absurd rfl happ

omit [PaddedRequestData] in
lemma checkpointRepair_stays (h : r.checkpointRepair cfg = .ok r') : Stays r r' := by
  obtain ⟨⟨r₁, suffix⟩, hsuffix, h⟩ := bind_eq_ok.mp h
  have h₁ : Stays r r₁ := .of_ledger (getRepairLogSuffix_ledger hsuffix)
  dsimp only at h
  split_ifs at h
  · cases pure_eq_ok.mp h
    exact h₁
  · exact h₁.trans (commitWithSnapshot_stays h)
  · exact h₁.trans (commitRepair_stays h)

omit [Sha256] [PaddedRequestData] in
lemma sendRepairSummaryToClients_stays (h : r.sendRepairSummaryToClients cfg = .ok r') :
    Stays r r' := by
  obtain ⟨entries, -, h⟩ := bind_eq_ok.mp h
  exact foldlM_rel (P := Stays) .refl (fun _ _ _ => .trans)
    (fun _ _ _ _ hsend => sendToClient_stays hsend) h

lemma finishRepair_stays {aborted : List ClientRequestProto}
    (h : r.finishRepair cfg now aborted = .ok r') : Stays r r' := by
  rw [finishRepair] at h
  dsimp only at h
  obtain ⟨r₁, hsummary, h⟩ := bind_eq_ok.mp h
  obtain ⟨r₂, hcheckpoint, h⟩ := bind_eq_ok.mp h
  obtain ⟨r₃, hqueued, h⟩ := bind_eq_ok.mp h
  obtain ⟨r₄, hfold, hqueued⟩ := bind_eq_ok.mp hqueued
  cases pure_eq_ok.mp hqueued
  have hround : Stays r { r with
      round := (r.round + 1) % 2 ^ 32, numConsecutiveViewChanges := 0 } := .of_ledger rfl
  have hend : Stays r₂ (r₂.endRepair aborted) := .of_ledger rfl
  have hrequests := foldlM_rel (P := Stays) .refl (fun _ _ _ => .trans)
    (fun _ _ _ _ hreq => processClientRequest_stays hreq) hfold
  have h₄ : Stays r r₄ := (((hround.trans (sendRepairSummaryToClients_stays hsummary)).trans
    (checkpointRepair_stays hcheckpoint)).trans hend).trans hrequests
  split_ifs at h
  · have hpending : Stays r₄ { r₄ with
        repairQueuedReqs := ∅, checkpointTimeoutStart := now, pendingRepair := false } :=
      .of_ledger rfl
    exact (h₄.trans hpending).trans (startRepair_stays h)
  · cases pure_eq_ok.mp h
    exact h₄.trans (.of_ledger rfl)

lemma applyProposal_stays {suffix : LogSuffix} {available : RequestMap Bytes}
    {aborted : List ClientRequestProto} {res : Option (List ClientRequestProto)}
    (h : r.applyProposal suffix available aborted = .ok (r', res)) : Stays r r' := by
  obtain ⟨log, missing, happly, hcases⟩ := applyProposal_cases h
  have h₁ : Stays r { r with log } := .setLog (applySuffix_checkpoints happly).1
  obtain ⟨-, rfl, -⟩ | ⟨ids, -, rfl, -⟩ := hcases
  · exact h₁
  · refine h₁.trans ?_
    rw [sendMissingRequestFetch]
    split_ifs
    · exact .refl _
    · exact .of_ledger rfl

lemma tryFinishRepair_stays (h : r.tryFinishRepair cfg now = .ok r') : Stays r r' := by
  obtain ⟨⟨r₁, res⟩, happly, h⟩ := bind_eq_ok.mp h
  have h₁ : Stays r r₁ := by
    obtain ⟨suffix, proposal, -, -, ⟨-, aborted, -, rfl, -⟩ | ⟨-, hrest⟩⟩ := tryApply_cases happly
    · exact .of_ledger rfl
    · rcases hrest with ⟨aborted, -, -, hproposal⟩ | ⟨-, -, sent, -, rfl⟩
      · have h₀ : Stays r { r with
            repairProposalLogSuffix := some suffix
            round := proposal.round
            repairViewStart := 0 } :=
          .of_ledger rfl
        exact h₀.trans (applyProposal_stays hproposal)
      · exact .of_ledger rfl
  cases res with
  | none =>
      cases pure_eq_ok.mp h
      exact h₁
  | some aborted => exact h₁.trans (finishRepair_stays h)

omit [Sha256] [PaddedRequestData] in
lemma callsTryFinish_stays [Sha256] {e : ReplicaEvent} (h : r.CallsTryFinish cfg e r₁) :
    Stays r r₁ :=
  .of_ledger h.same.2.2.1

/-! ### Snapshot replies -/

/-- A snapshot reply brings a snapshot of the application for a position above the first. -/
def BringsSnapshot (reply : SnapshotReply) : Prop :=
  reply.snapshot.isSome ∧ ∃ p ∈ reply.snapshotCheckpoint, 0 < p.seq

/-- The log may have been reset to a snapshot reply: its stable checkpoint stays, or it is that of
an application snapshot. -/
structure Resets (reply : SnapshotReply) (r r' : Replica A) : Prop where
  stable : r'.log.stableCheckpoint = r.log.stableCheckpoint ∨
    ∃ p ∈ reply.snapshotCheckpoint, reply.snapshot.isSome ∧
      r'.log.stableCheckpoint.seq = p.seq
  kept : r.Kept → r'.Kept

omit [Sha256] [PaddedRequestData] in
lemma Stays.resets (h : Stays r r') (reply : SnapshotReply) : Resets reply r r' :=
  ⟨.inl h.stable, h.kept⟩

omit [Sha256] [PaddedRequestData] in
lemma Resets.stays {reply : SnapshotReply} (h : Resets reply r r') (h' : Stays r' r'') :
    Resets reply r r'' := by
  refine ⟨?_, fun hk => h'.kept (h.kept hk)⟩
  rw [h'.stable]
  exact h.stable

lemma applySnapshot_resets {reply : SnapshotReply} {res : Option (List ClientRequestProto)}
    (h : r.applySnapshot cfg reply = .ok (r', res)) : Resets reply r r' := by
  rcases applySnapshot_cases h with ⟨-, rfl⟩ | ⟨-, -, suffix, -, ⟨-, -, rfl⟩ |
      ⟨-, aborted, available, log, r₁, -, hreset, hclean, happly⟩⟩
  · exact (Stays.refl _).resets reply
  · have hsuffix : Stays r { r with repairProposalLogSuffix := some suffix } := .of_ledger rfl
    exact hsuffix.resets reply
  · have hlog : Resets reply r { r with repairProposalLogSuffix := some suffix, log } :=
      ⟨Log.resetToSnapshot_stable hreset, fun hk => ⟨hk.queue, hk.collectors⟩⟩
    exact (hlog.stays (cleanStaleCollectors_stays hclean)).stays (applyProposal_stays happly)

lemma alignLog_resets {reply : SnapshotReply} (h : r.alignLog cfg reply = .ok r') :
    Resets reply r r' := by
  obtain ⟨log, r₁, ms, hmodify, hclean, -, rfl⟩ := alignLog_cases h
  have hlog : Resets reply r { r with log, round := max r.round reply.round } :=
    ⟨Log.applySnapshotModifyLog_stable hmodify, fun hk => ⟨hk.queue, hk.collectors⟩⟩
  exact (hlog.stays (cleanStaleCollectors_stays hclean)).stays (.of_ledger rfl)

/-- **What a snapshot reply does** to the stable checkpoint: only one that is used replaces it. -/
lemma processSnapshotReply_stable {reply : SnapshotReply}
    (h : r.processSnapshotReply cfg now reply = .ok r') :
    Resets reply r r' ∧ (Stays r r' ∨ r.UsesSnapshot cfg reply) := by
  have hclear : ∀ x : Replica A, Stays x x.clearSnapshotRequested := fun _ => .of_ledger rfl
  have hrest : ∀ {r₁ : Replica A} {res}, r.round ≤ reply.round →
      r.log.committedCheckpoint.seq < reply.seq → r.repair = true →
      r.applySnapshot cfg reply = .ok (r₁, res) → Stays r₁ r' →
        Resets reply r r' ∧ (Stays r r' ∨ r.UsesSnapshot cfg reply) := by
    intro r₁ res hround hseq hrep happly h₁
    refine ⟨(applySnapshot_resets happly).stays h₁, ?_⟩
    rcases applySnapshot_cases happly with ⟨-, rfl⟩ | ⟨hwanted, -, suffix, hsuffix, ⟨-, -, rfl⟩ |
        ⟨hreach, -⟩⟩
    · exact .inl h₁
    · have hsuffix' : Stays r { r with repairProposalLogSuffix := some suffix } := .of_ledger rfl
      exact .inl (hsuffix'.trans h₁)
    · exact .inr ⟨hround, hseq, .inl ⟨hrep, hwanted, _, suffix, hsuffix, hreach⟩⟩
  rcases processSnapshotReply_cases h with rfl | ⟨hround, hseq, ⟨hrep, happly |
      ⟨r₁, r₂, aborted, happly, hfinish, rfl⟩⟩ | ⟨hrep, hskip, r₁, halign, rfl⟩⟩
  · exact ⟨(hclear r).resets reply, .inl (hclear r)⟩
  · exact hrest hround hseq hrep happly (.refl _)
  · exact hrest hround hseq hrep happly ((finishRepair_stays hfinish).trans (.of_ledger rfl))
  · exact ⟨(alignLog_resets halign).stays (hclear r₁),
      .inr ⟨hround, hseq, .inr ⟨hrep, hskip⟩⟩⟩

/-! ### Every event -/

/-- A commit completes matching ones with the digest of an application state, for a position of
the log above the stable one, and the collector keeps a snapshot of another digest. -/
def StaleSnapshot (cfg : Config) (r : Replica A) (commit : Commit) : Prop :=
  (ClientRecord.ofProto commit.clientRecord).digest = commit.clientRecord.digest ∧
    r.log.stableCheckpoint.seq < commit.seq ∧ commit.seq < r.log.nextSeq ∧
      ∃ coll ∈ r.checkpointCollectors.collectors[(commit.round, commit.seq)]?,
        coll.needsSnapshot = true ∧ ∃ s ∈ coll.snapshot,
          ∃ x ∈ CommitCollector.matchCommits cfg.f
              (coll.commitCollector.commits.insert commit.replicaId commit).toList [],
            x.1.appDigest.getD [] ≠ [] ∧
              (r.log.getDigestAt commit.seq).toOption = some x.1.logDigest ∧
                s.digest ≠ x.1.appDigest.getD []

instance (cfg : Config) (r : Replica A) (commit : Commit) :
    Decidable (r.StaleSnapshot cfg commit) :=
  inferInstanceAs (Decidable (_ ∧ _ ∧ _ ∧ ∃ coll ∈ _, _ ∧ ∃ s ∈ _, ∃ x ∈ _, _ ∧ _))

/-- No commit makes a checkpoint stable with a snapshot of another digest, and no snapshot reply
that is used brings an application snapshot. -/
def KeepsSnapshots (cfg : Config) (r : Replica A) : ReplicaEvent → Prop
  | .message _ (.commit m) _ => ¬r.StaleSnapshot cfg m
  | .message _ (.snapshotReply m) _ => ¬(r.UsesSnapshot cfg m ∧ BringsSnapshot m)
  | _ => True

omit [PaddedRequestData] in
/-- A checkpoint that becomes stable has the snapshot of the collector that has been there. -/
lemma Stabilizes.servable {commit : Commit} {sig : Bytes} {cp : LogCheckpoint} (hk : r.Kept)
    (hstale : ¬r.StaleSnapshot cfg commit) (h : Stabilizes cfg r commit sig cp) :
    ∃ a : A, cp.snapshot = some (Application.takeSnapshot a).snapshot ∧
      cp.appDigest = (Application.takeSnapshot a).digest := by
  obtain ⟨r₁, coll, ⟨r₀, coll₀, hinit, hget, hadd, rfl⟩, hcp, hnext, hdigest, happ, hlt, hsnap⟩ := h
  obtain ⟨hchecked, -, hsame, hseq, hsnapshot, x, hmatch, hlog, happ'⟩ :=
    CheckpointCollector.getCheckpoint_of_ready hadd hcp
  rw [hsnapshot] at hsnap
  have hneeds : coll₀.needsSnapshot = true := by
    by_contra hno
    rw [if_neg hno] at hsnap
    exact hsnap rfl
  rw [if_pos hneeds] at hsnap hsnapshot
  obtain ⟨s, hs⟩ : ∃ s, coll₀.snapshot = some s := by
    cases hs : coll₀.snapshot with
    | none =>
        rw [hs] at hsnap
        exact absurd rfl hsnap
    | some s => exact ⟨s, rfl⟩
  have hk₀ := (initCollector_stays hinit).kept hk
  have hkept := hk₀.collectors _ _ (CheckpointCollectorStore.get_eq hget)
  obtain ⟨a, rfl⟩ := hkept.taken s hs
  refine ⟨a, by rw [hsnapshot, hs]; rfl, ?_⟩
  by_contra hne
  rw [happ'] at hne happ
  have hlog₀ : (r₀.setCollector commit.round commit.seq coll).log = r.log :=
    (initCollector_quiet hinit).2
  rw [hlog₀, hseq, hsame, hkept.position] at hnext hlt hdigest
  -- a collector that has just been created has no snapshot
  rw [initCollector] at hinit
  split_ifs at hinit
  · cases hinit
    exact hstale ⟨hchecked, hlt, hnext, coll₀, CheckpointCollectorStore.get_eq hget, hneeds, _, hs,
      x, hmatch, happ, by rw [hdigest, hlog]; rfl, Ne.symm hne⟩
  · obtain ⟨⟨store, created⟩, hstore, hinit⟩ := bind_eq_ok.mp hinit
    cases pure_eq_ok.mp hinit
    obtain rfl := CheckpointCollectorStore.initCollector_created hstore
    obtain ⟨-, rfl⟩ | ⟨hother, -⟩ := OrderedMap.getElem?_insert_cases
      (CheckpointCollectorStore.get_eq hget)
    · cases hs
    · exact absurd rfl hother

variable {e : ReplicaEvent}

omit [Sha256] [PaddedRequestData] in
lemma Resets.servable {reply : SnapshotReply} (h : Resets reply r r') (hs : r.log.Servable)
    (hbrings : ¬BringsSnapshot reply) : r'.log.Servable := by
  rcases h.stable with hsame | ⟨p, hp, hsnap, hseq⟩
  · rw [Log.Servable, hsame]
    exact hs
  · intro hpos
    rw [hseq] at hpos
    exact absurd ⟨hsnap, p, hp, hpos⟩ hbrings

omit [Sha256] [PaddedRequestData] in
lemma Stays.servable (h : Stays r r') (hs : r.log.Servable) : r'.log.Servable := by
  rw [Log.Servable, h.stable]
  exact hs

/-- An event that is neither a commit nor a snapshot reply leaves the stable checkpoint alone. -/
lemma handle_stays (h : r.handle cfg e = .ok r') (hk : r.Kept)
    (hcommit : ∀ now m sig, e ≠ .message now (.commit m) sig)
    (hreply : ∀ now m sig, e ≠ .message now (.snapshotReply m) sig) : Stays r r' := by
  replace h := handle_ledger h
  cases h with
  | same hledger => exact .of_ledger hledger
  | clientRequest h => exact processClientRequest_stays h
  | @snapshot round snapshot queue hqueue h =>
      obtain ⟨a, ha⟩ := hk.queue (round, snapshot) (hqueue ▸ List.mem_cons_self)
      have hpop : Stays r { r with snapshotQueue := queue } := by
        refine ⟨rfl, fun hk => ⟨fun x hx => hk.queue x ?_, hk.collectors⟩⟩
        rw [hqueue]
        exact List.mem_cons_of_mem _ hx
      exact hpop.trans (processSnapshot_kept ha h)
  | timeouts h => exact checkTimeouts_stays h
  | cert h => exact processCert_stays h
  | reply h => exact processReply_stays h
  | commit => exact absurd rfl (hcommit _ _ _)
  | snapshotReply => exact absurd rfl (hreply _ _ _)
  | repairTimeout h => exact processRepairTimeout_stays h
  | finish hcall h => exact (callsTryFinish_stays hcall).trans (tryFinishRepair_stays h)

/-- Every event keeps the stable checkpoint servable, as long as no snapshot is lost. -/
lemma handle_servable (h : r.handle cfg e = .ok r') (hkeep : r.KeepsSnapshots cfg e)
    (hk : r.Kept) (hs : r.log.Servable) : r'.Kept ∧ r'.log.Servable := by
  by_cases hcommit : ∃ now m sig, e = .message now (.commit m) sig
  · obtain ⟨now, m, sig, rfl⟩ := hcommit
    rcases processCommit_stable h with hstays | ⟨hkept, cp, hcp, hstable⟩
    · exact ⟨hstays.kept hk, hstays.servable hs⟩
    · refine ⟨hkept hk, fun _ => ?_⟩
      rw [hstable]
      exact hcp.servable hk hkeep
  by_cases hreply : ∃ now m sig, e = .message now (.snapshotReply m) sig
  · obtain ⟨now, m, sig, rfl⟩ := hreply
    obtain ⟨hresets, hstays | huse⟩ := processSnapshotReply_stable h
    · exact ⟨hresets.kept hk, hstays.servable hs⟩
    · exact ⟨hresets.kept hk, hresets.servable hs fun hbrings => hkeep ⟨huse, hbrings⟩⟩
  have hstays := handle_stays h hk (fun now m sig he => hcommit ⟨now, m, sig, he⟩)
    (fun now m sig he => hreply ⟨now, m, sig, he⟩)
  exact ⟨hstays.kept hk, hstays.servable hs⟩

variable [SignatureProvider] {i : ℕ} {app : A} {es : List ReplicaEvent}

/-- **A stable checkpoint can always be served**, as long as no snapshot reply that is used brings
an application snapshot and no commit meets a snapshot of another digest: it has a snapshot, with
its digest, and the assertion of `processSnapshotRequest` holds for every request. -/
theorem stable_checkpoint_served
    (h : Run (system cfg i app) (fun _ r e => r.KeepsSnapshots cfg e) es r) :
    r.log.Servable ∧ ∀ request : SnapshotRequest,
      request.lastCheckpointSeq < r.log.stableCheckpoint.seq →
        r.log.stableCheckpoint.snapshot ≠ none := by
  have hinv : r.Kept ∧ r.log.Servable := h.invariant (P := fun _ r => r.Kept ∧ r.log.Servable)
    (by
      rintro _ rfl
      exact ⟨.fresh i app, nofun⟩)
    fun _ _ _ _ _ ⟨hk, hs⟩ hkeep ⟨_, _, hhandle⟩ => handle_servable hhandle hkeep hk hs
  refine ⟨hinv.2, fun request hlt hnone => ?_⟩
  obtain ⟨a, ha, -⟩ := hinv.2 (Nat.zero_lt_of_lt hlt)
  rw [hnone] at ha
  cases ha

/-! ### Runs -/

section

/-- A condition that can be checked, under which no snapshot is lost: no snapshot reply arrives. -/
def MeetsOwnSnapshots (cfg : Config) (r : Replica A) : ReplicaEvent → Prop
  | .message _ (.commit m) _ => ¬r.StaleSnapshot cfg m
  | .message _ (.snapshotReply _) _ => False
  | _ => True

instance (cfg : Config) (r : Replica A) (e : ReplicaEvent) :
    Decidable (r.MeetsOwnSnapshots cfg e) := by
  rcases e with _ | ⟨_, _ | _, _⟩ | _ <;> unfold MeetsOwnSnapshots <;> infer_instance

omit [Application A] [PaddedRequestData] [SignatureProvider] in
lemma MeetsOwnSnapshots.keeps (h : r.MeetsOwnSnapshots cfg e) :
    r.KeepsSnapshots cfg e := by
  cases e with
  | message now msg sig =>
      cases msg with
      | commit m => exact h
      | snapshotReply m => exact absurd h id
      | _ => trivial
  | _ => trivial

end

end Replica

namespace Replica

section

attribute [local instance] prefixSha shortPaddedRequestData counterWire fourKeys

/-- Four replicas with a checkpoint, and a snapshot, after every request. -/
def everyRequest : Config := { Config.oneFault with
  replicaCheckpointInterval := 1, replicaSnapshotInterval := 1 }

/-- The commit of a replica after the first request, with the snapshot of the counter. -/
def firstCommit (i : ℕ) : ReplicaEvent :=
  .message 1 (.commit {
    replicaId := i
    round := 1
    seq := 1
    logDigest := firstDigest
    appDigest := some (Application.takeSnapshot ({ values := .ofList [(1, 1)] } : Counter)).digest
    clientRecord := (({} : ClientRecord).update 0 1).1.toProto }) [UInt8.ofNat i]

/-- The first request becomes a stable checkpoint. -/
def stableEvents : List ReplicaEvent :=
  [.request 1 1 { clientSeq := 1 }, .snapshot, firstCommit 2, firstCommit 3]

/-- **The first stable checkpoint** can be served. -/
theorem first_checkpoint_served : ∃ r : Replica Counter,
    Run (system everyRequest 1 {}) (fun _ r e => r.KeepsSnapshots everyRequest e) stableEvents r ∧
    r.log.stableCheckpoint.seq = 1 ∧ r.log.Servable := by
  have hsome : ∃ r, stableEvents.foldlM
        (fun (r : Replica Counter) e => if r.MeetsOwnSnapshots everyRequest e
          then r.handle everyRequest e else .error .assertion) (fresh 1 {}) = .ok r ∧
      r.log.stableCheckpoint.seq = 1 := by
    decide +kernel
  obtain ⟨r, hfold, hseq⟩ := hsome
  have hrun : Run (system everyRequest 1 ({} : Counter))
      (fun _ r e => r.KeepsSnapshots everyRequest e) ([] ++ stableEvents) r :=
    run_of_foldlM (.start rfl) (by decide +kernel) (fun _ _ _ h => h.keeps) hfold
  exact ⟨r, hrun, hseq, (stable_checkpoint_served hrun).1⟩

/-- The snapshot replies that a replica has sent to the first one. -/
def repliesSent {A : Type} (r : Replica A) : List SnapshotReply :=
  r.sent.filterMap fun x => match x with
    | (.replica 0, .snapshotReply m) => some m
    | _ => none

lemma mem_repliesSent {A : Type} {r : Replica A} {m : SnapshotReply} (h : m ∈ r.repliesSent) :
    (.replica 0, .snapshotReply m) ∈ r.sent := by
  obtain ⟨x, hx, hm⟩ := List.mem_filterMap.mp h
  split at hm
  · cases hm
    exact hx
  · cases hm

/-- A replica asks for the first checkpoint. -/
def firstSnapshotRequest (i : ℕ) : SnapshotRequest := { replicaId := i, seq := 1, round := 1 }

/-- What the server does: its first checkpoint becomes stable, and a replica asks for it. -/
def serverEvents : List ReplicaEvent :=
  stableEvents ++ [.message 1 (.snapshotRequest (firstSnapshotRequest 0)) [0]]

/-- Without its snapshot, a stable checkpoint is not sent. -/
lemma processSnapshotRequest_none {r : Replica Counter} {request : SnapshotRequest}
    (hseq : request.seq ≤ r.log.committedCheckpoint.seq)
    (hlast : request.lastCheckpointSeq < r.log.stableCheckpoint.seq)
    (hnone : r.log.stableCheckpoint.snapshot = none) :
    r.processSnapshotRequest everyRequest request = .error .assertion := by
  have hreply : r.log.snapshotReply r.round r.replicaId request.lastCheckpointSeq =
      .error .assertion := if_pos ⟨hlast, hnone⟩
  rw [processSnapshotRequest, if_neg (by omega), hreply]
  rfl

/-- **A stable checkpoint that cannot be served**: a replica has applied the snapshot that another
one has sent it, and has no snapshot itself when it is asked for one. -/
theorem applied_snapshot_lost : ∃ (r r' : Replica Counter) (reply : SnapshotReply),
    Run (system everyRequest 1 {}) anyStep serverEvents r ∧
    (.replica 0, .snapshotReply reply) ∈ r.sent ∧
    Run (system everyRequest 0 {}) anyStep [.message 1 (.snapshotReply reply) [1]] r' ∧
    ¬r'.log.Servable ∧
    r'.processSnapshotRequest everyRequest (firstSnapshotRequest 2) = .error .assertion := by
  have hsome : ∃ r, serverEvents.foldlM
        (fun (r : Replica Counter) e => if r.MeetsOwnSnapshots everyRequest e
          then r.handle everyRequest e else .error .assertion) (fresh 1 {}) = .ok r ∧
      ∃ m ∈ r.repliesSent, ((ReplicaEvent.message 1 (.snapshotReply m) [1]).Verified
          everyRequest ∧ (ReplicaEvent.message 1 (.snapshotReply m) [1]).InRange) ∧
        ∃ r', (fresh 0 ({} : Counter)).handle everyRequest
            (.message 1 (.snapshotReply m) [1]) = .ok r' ∧
          1 ≤ r'.log.committedCheckpoint.seq ∧ r'.log.stableCheckpoint.seq = 1 ∧
            r'.log.stableCheckpoint.snapshot = none := by
    decide +kernel
  obtain ⟨r, hfold, reply, hmem, hvalid, r', hhandle, hcommitted, hseq, hnone⟩ := hsome
  have hrun : Run (system everyRequest 1 ({} : Counter)) anyStep ([] ++ serverEvents) r :=
    run_of_foldlM (.start rfl) (by decide +kernel) (fun _ _ _ _ => trivial) hfold
  refine ⟨r, r', reply, hrun, mem_repliesSent hmem, ?_, ?_, ?_⟩
  · exact .step (.start rfl) trivial ⟨hvalid.1, hvalid.2, hhandle⟩
  · intro hs
    obtain ⟨a, ha, -⟩ := hs (by omega)
    rw [hnone] at ha
    cases ha
  · exact processSnapshotRequest_none hcommitted hseq.ge hnone

end

end Replica

end DomBft
