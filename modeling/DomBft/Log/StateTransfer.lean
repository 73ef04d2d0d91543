import DomBft.Log.Transfer
import DomBft.Rollback.Transfer

/-!
State transfer between the logs of correct replicas: whether a log that has fallen behind can
be reset to the reply of another one.

* `LogOperation`, `SpeculativeLogs.transferSystem`: every operation on the logs.
* `Decoding`: the payloads parse, and the snapshots give back the state they were taken of.
* `Digested`: a stable checkpoint has the digest of its snapshot.
* `KVStore.Ready`: where a store can follow.
* `state_transfer_iff`: **an honest transfer succeeds** on the counter, and on the store if and
  only if it is ready.
-/

namespace DomBft

open Fallible Transition

variable {A : Type}

/-- The operations on the logs: those of the speculation, and what else a replica changes in its
log.  `applySnapshotModifyLog` is a reset and the entries that are added again. -/
inductive LogOperation where
  | speculate (op : SpeculationOp)
  | addCert (i seq : ℕ) (cert : Cert)
  | setDeadline (i seq deadline : ℕ)
  | setClientRecord (i : ℕ) (record : ClientRecord)

/-- An application that can do what it has done, and can be replaced at any time. -/
structure Rollback.Ready [Application A] (R : Rollback A) : Prop where
  canAbort : ∀ {a a' : A} {p : ℕ}, Application.abort a p = .ok a' → R.CanAbort a
  canReplace : ∀ a, R.CanReplace a

lemma KVStore.indexed_ready [KVCodec] [Sha256] [UnorderedWalk] (numKeys : ℕ) :
    (KVStore.indexed numKeys).Ready := ⟨KVStore.abort_requests, fun _ => trivial⟩

lemma Counter.transfer_ready [CounterCodec] : Counter.transfer.Ready :=
  ⟨fun _ => trivial, fun _ => trivial⟩

namespace SpeculativeLogs

variable [Sha256] [PaddedRequestData] [Application A]

/-- One operation on one log. -/
def TransferStep (t : SpeculativeLogs A) (op : LogOperation) (t' : SpeculativeLogs A) : Prop :=
  match op with
  | .speculate op => Step t op t'
  | .addCert i seq cert =>
    ∃ l ok, (t.logs i).addCert seq cert = .ok (l, ok) ∧ t' = t.set i l (t.histories i)
  | .setDeadline i seq deadline =>
    ∃ l, (t.logs i).setDeadline seq deadline = .ok l ∧ t' = t.set i l (t.histories i)
  | .setClientRecord i record =>
    t' = t.set i { t.logs i with clientRecord := record } (t.histories i)

/-- All sequences of operations, from fresh logs over fresh applications. -/
def transferSystem (R : Rollback A) : System (SpeculativeLogs A) LogOperation where
  init := (system R).init
  step := TransferStep

/-- The payloads parse, and a snapshot is taken where it gives back the state. -/
def Decoding (R : Rollback A) : List LogOperation → SpeculativeLogs A → LogOperation → Prop
  | _, t, .speculate op => PayloadsParse [] t op ∧
    match op with
    | .takeSnapshot i => R.CanSnapshot (t.logs i).app
    | _ => True
  | _, _, _ => True

variable {R : Rollback A} {t t' : SpeculativeLogs A}

/-- Where an operation succeeds, the application could do what it was asked for. -/
lemma guarded_of_step (hR : R.Ready) (ht : t.Consistent R) {op : SpeculationOp}
    (hdec : Decoding R [] t (.speculate op)) (hstep : Step t op t') : Guarded R [] t op := by
  obtain ⟨hparse, hsnap⟩ := hdec
  refine ⟨hparse, ?_⟩
  cases op with
  | abort i seq =>
      obtain ⟨-, hle, l, habort, -⟩ := hstep
      rcases Log.abort_app habort with ⟨hge, -⟩ | ⟨-, happ⟩
      · exact .inl (hle.antisymm hge)
      · exact .inr (hR.canAbort happ)
  | takeSnapshot i => exact hsnap
  | resetToSnapshot i lastSeq reply history =>
      obtain ⟨-, -, -, l, ok, hreset, -⟩ := hstep
      dsimp only
      split
      · exact hR.canReplace _
      · rename_i hnone
        obtain ⟨cp, -, hreset⟩ := bind_eq_ok.mp hreset
        obtain ⟨res, hstart, -⟩ := bind_eq_ok.mp hreset
        rw [Bool.not_eq_true, Option.isSome_eq_false_iff, Option.isNone_iff_eq_none] at hnone
        rw [Log.startSnapshot, hnone] at hstart
        obtain ⟨l₀, habort, -⟩ := bind_eq_ok.mp hstart
        rcases Log.abort_app habort with ⟨hge, -⟩ | ⟨-, happ⟩
        · exact .inl (Nat.le_antisymm (ht.logs i).parsed.1.committed_lt hge)
        · exact .inr (hR.canAbort happ)
  | _ => trivial

end SpeculativeLogs

/-! ### The digest of a stable checkpoint -/

section

variable [Sha256] [PaddedRequestData] [Application A] {R : Rollback A} {l l' : Log A}

/-- The stable checkpoint of a log has the digest of its snapshot. -/
def Log.Digested (l : Log A) : Prop :=
  ∀ s, l.stableCheckpoint.snapshot = some s → ∃ a : A, s = (Application.takeSnapshot a).snapshot ∧
    l.stableCheckpoint.appDigest = (Application.takeSnapshot a).digest

omit [Sha256] [PaddedRequestData] in
lemma Log.Digested.congr (hl : l.Digested) (h : l'.stableCheckpoint = l.stableCheckpoint) :
    l'.Digested := by
  rw [Log.Digested, h]
  exact hl

/-- A reset keeps the stable checkpoint, or replaces it by one without a snapshot. -/
lemma Log.Digested.resetToSnapshot (hl : l.Digested) {h h' : List Request}
    (hparsed : LogCluster.HoldsParsed l h) {lastSeq : ℕ} {reply : SnapshotReply}
    (hreply : LogCluster.Carries lastSeq reply h') (hlast : lastSeq ≤ l.committedCheckpoint.seq)
    (hahead : l.committedCheckpoint.seq < reply.seq) {ok : Bool}
    (hreset : l.resetToSnapshot reply = .ok (l', ok)) : l'.Digested := by
  rcases hparsed.resetToSnapshot hreply hlast hahead hreset with ⟨-, rfl⟩ | ⟨rfl, -⟩
  · exact hl
  obtain ⟨-, -, -, -, -, -, -, hcases⟩ := Log.resetToSnapshot_cases hparsed.1.toWellFormed hreset
  rcases hcases with ⟨_, p, scp, -, -, hscp, hstable, -⟩ | ⟨-, hstable, -⟩
  · intro s hs
    rw [hstable, (LogCheckpoint.ofProto_eq hscp).2.2.2.2] at hs
    cases hs
  · exact hl.congr hstable

/-- Other certificates, deadlines and client records. -/
lemma Tracks.congr {h : List Request} (hl : Tracks R l h) (hparsed : LogCluster.HoldsParsed l' h)
    (happ : l'.app = l.app) (hstable : l'.stableCheckpoint = l.stableCheckpoint)
    (hcommitted : l'.committedCheckpoint = l.committedCheckpoint) : Tracks R l' h where
  parsed := hparsed
  app := by
    rw [happ, hcommitted]
    exact hl.app
  stable := by
    rw [hstable]
    exact hl.stable

/-! ### Every log in a run -/

namespace SpeculativeLogs

/-- Every snapshot that is taken or stable comes with its digest. -/
structure Digested (t : SpeculativeLogs A) : Prop where
  logs : ∀ i, (t.logs i).Digested
  snapshots : ∀ i, ∀ x ∈ t.snapshots i, ∃ a : A, x.snapshot = Application.takeSnapshot a

variable {t t' : SpeculativeLogs A}

omit [Sha256] [PaddedRequestData] in
lemma Digested.set (ht : t.Digested) {i : ℕ} {h : List Request} (hl : l.Digested) :
    (t.set i l h).Digested where
  logs j := by
    show (Function.update t.logs i l j).Digested
    by_cases hj : j = i
    · subst hj
      rwa [Function.update_self]
    · rw [Function.update_of_ne hj]
      exact ht.logs j
  snapshots := ht.snapshots

lemma Digested.step (hd : t.Digested) (ht : t.Consistent R) {op : SpeculationOp}
    (hstep : Step t op t') : t'.Digested := by
  cases op with
  | addEntry i clientId clientSeq req checkDup =>
      obtain ⟨l, res, hadd, rfl⟩ := hstep
      exact hd.set ((hd.logs i).congr (Log.addEntry_checkpoints hadd).1)
  | abort i seq =>
      obtain ⟨-, -, l, habort, rfl⟩ := hstep
      exact hd.set ((hd.logs i).congr (Log.abort_nextSeq habort).2.1)
  | takeSnapshot i =>
      cases hstep
      refine ⟨hd.logs, fun j x hx => ?_⟩
      change x ∈ Function.update t.snapshots i _ j at hx
      by_cases hj : j = i
      · subst hj
        rw [Function.update_self] at hx
        rcases List.mem_cons.mp hx with rfl | hx
        · exact ⟨_, rfl⟩
        · exact hd.snapshots j x hx
      · rw [Function.update_of_ne hj] at hx
        exact hd.snapshots j x hx
  | setCheckpoint i cp =>
      obtain ⟨-, -, hsnap, l, hset, rfl⟩ := hstep
      refine hd.set ?_
      rcases (Log.setCheckpoint_app hset).2 with hsame | ⟨hdig, hnew⟩
      · exact (hd.logs i).congr hsame
      · obtain ⟨x, hx, -, -, hdigest, hcp⟩ := hsnap hdig
        obtain ⟨a, ha⟩ := hd.snapshots i x hx
        intro s hs
        rw [hnew, hcp] at hs
        cases hs
        exact ⟨a, by rw [ha], by rw [hnew, ← hdigest, ha]⟩
  | serveSnapshot i round lastSeq =>
      obtain ⟨reply, -, rfl⟩ := hstep
      exact ⟨hd.logs, hd.snapshots⟩
  | resetToSnapshot i lastSeq reply history =>
      obtain ⟨hmem, hlast, hahead, l, ok, hreset, rfl⟩ := hstep
      exact hd.set ((hd.logs i).resetToSnapshot (ht.logs i).parsed (ht.replies _ hmem).1 hlast
        hahead hreset)

/-- **Every operation keeps the logs correct**, if the payloads parse and the snapshots give back
the state. -/
lemma transfer_step (hc : CollisionFree) (hR : R.Ready) (ht : t.Consistent R) (hd : t.Digested)
    {ops : List LogOperation} {op : LogOperation} (hdec : Decoding R ops t op)
    (hstep : TransferStep t op t') : t'.Consistent R ∧ t'.Digested := by
  cases op with
  | speculate op =>
      exact ⟨ht.step hc (guarded_of_step hR ht hdec hstep) hstep, hd.step ht hstep⟩
  | addCert i seq cert =>
      obtain ⟨l, ok, hadd, rfl⟩ := hstep
      have hl := ht.logs i
      have hstable : l.stableCheckpoint = (t.logs i).stableCheckpoint := by
        rcases Log.addCert_cases hadd with rfl | rfl <;> rfl
      refine ⟨ht.set ?_, hd.set ((hd.logs i).congr hstable)⟩
      rcases Log.addCert_cases hadd with rfl | rfl
      · exact hl
      · exact hl.congr ⟨hl.parsed.1.congr rfl rfl rfl rfl, hl.parsed.2⟩ rfl rfl rfl
  | setDeadline i seq deadline =>
      obtain ⟨l, hset, rfl⟩ := hstep
      have hparsed := (ht.logs i).parsed.setDeadline hset
      obtain ⟨_, rfl⟩ := Log.setDeadline_eq hset
      exact ⟨ht.set ((ht.logs i).congr hparsed rfl rfl rfl), hd.set ((hd.logs i).congr rfl)⟩
  | setClientRecord i record =>
      cases hstep
      have hl := ht.logs i
      exact ⟨ht.set (hl.congr ⟨hl.parsed.1.congr rfl rfl rfl rfl, hl.parsed.2⟩ rfl rfl rfl),
        hd.set ((hd.logs i).congr rfl)⟩

/-- **Every log in a run** follows its application, and its snapshots have their digests. -/
lemma correct_of_run (hc : CollisionFree) (hR : R.Ready) {ops : List LogOperation}
    (hrun : Run (transferSystem R) (Decoding R) ops t) : t.Consistent R ∧ t.Digested := by
  refine hrun.invariant (P := fun _ t => t.Consistent R ∧ t.Digested) ?_ ?_
  · intro t hinit
    have hstart : Run (system R) (Guarded R) [] t := .start hinit
    refine ⟨consistent hc hstart, ?_⟩
    obtain ⟨hlogs, -, hsnaps, -⟩ := hinit
    refine ⟨fun i s hs => ?_, by simp [hsnaps]⟩
    obtain ⟨app, -, hlog⟩ := hlogs i
    rw [hlog] at hs
    cases hs
  · intro ops t op t' _ ⟨ht, hd⟩ hdec hstep
    exact transfer_step hc hR ht hd hdec hstep

end SpeculativeLogs

end

/-! ### The transfer -/

namespace Log

variable [Sha256] [PaddedRequestData] {h h' : List Request} {lastSeq : ℕ}

omit [PaddedRequestData] in
/-- Above the committed position the log goes back exactly if the application does. -/
lemma WellFormed.abort_iff [Application A] {b : Log A} (hb : b.WellFormed) {p : ℕ}
    (hc : b.committedCheckpoint.seq < p) (hp : p < b.nextSeq) {P : A → Prop} :
    (∃ b₀, b.abort p = .ok b₀ ∧ P b₀.app) ↔ ∃ a, Application.abort b.app p = .ok a ∧ P a := by
  have hstable := hb.stable_le
  rw [abort, if_neg hp.not_ge, if_neg hc.not_ge, hb.eraseFrom (by omega) hp.le, ok_bind]
  constructor
  · rintro ⟨b₀, habort, hP⟩
    obtain ⟨a, ha, habort⟩ := bind_eq_ok.mp habort
    cases pure_eq_ok.mp habort
    exact ⟨a, ha, hP⟩
  · rintro ⟨a, ha, hP⟩
    rw [ha]
    exact ⟨_, rfl, hP⟩

/-- A store can follow: it gets a snapshot; or nothing is cut from its log, and its index is below
the positions of the requests it gets and keeps; or it keeps a request to go back from. -/
def Ready [KVCodec] (a : Log KVStore) (h : List Request) (b : Log KVStore) (lastSeq : ℕ) : Prop :=
  let k := b.committedCheckpoint.seq
  lastSeq < a.stableCheckpoint.seq ∨
    b.nextSeq = k + 1 ∧ (∀ r ∈ KVStore.recorded k (a.payloadsFrom h k), b.app.dataIdx < r.idx) ∨
    b.nextSeq ≠ k + 1 ∧ b.app.requests ≠ []

/-- **A store can follow if and only if it is ready.** -/
lemma canFollow_store [KVCodec] [UnorderedWalk] {numKeys : ℕ} {a b : Log KVStore}
    (hlag : Lags a h b h' lastSeq) (ha : a.Digested)
    (hb : Tracks (KVStore.indexed numKeys) b h') :
    CanFollow a h b lastSeq ↔ Ready a h b lastSeq := by
  rw [CanFollow, Ready]
  by_cases hlt : lastSeq < a.stableCheckpoint.seq
  · rw [if_pos hlt]
    refine iff_of_true ?_ (.inl hlt)
    obtain ⟨s, hs⟩ := Option.ne_none_iff_exists'.mp (hlag.served hlt)
    obtain ⟨x, rfl, hdigest⟩ := ha s hs
    obtain ⟨y, hy, hidx⟩ := KVStore.applySnapshot_isOk b.app x a.stableCheckpoint.seq
    refine ⟨_, y, hs, by rw [hdigest]; exact hy, KVStore.executeAll_isOk.mpr fun r hr => ?_⟩
    rw [hidx]
    exact (KVStore.recorded_mem hr).1
  rw [if_neg hlt, or_iff_right hlt]
  obtain ⟨c, hc, hindexed⟩ := hb.app
  have hnext := hb.nextSeq_eq
  by_cases hcut : b.nextSeq = b.committedCheckpoint.seq + 1
  · have habort : b.abort (b.committedCheckpoint.seq + 1) =
        .ok { b with nextSeq := b.committedCheckpoint.seq + 1 } := by
      rw [abort, if_pos hcut.le]
    rw [habort]
    constructor
    · rintro ⟨b₀, hb₀, hexec⟩
      cases hb₀
      exact .inl ⟨hcut, KVStore.executeAll_isOk.mp hexec⟩
    · rintro (⟨-, hidx⟩ | ⟨hno, -⟩)
      · exact ⟨_, rfl, KVStore.executeAll_isOk.mpr hidx⟩
      · exact absurd hcut hno
  · have hcommitted := hb.parsed.1.committed_lt
    rw [hb.parsed.1.toWellFormed.abort_iff (Nat.lt_add_one _) (by omega)
      (P := fun app => ∃ app', executeAll app b.committedCheckpoint.seq
        (a.payloadsFrom h b.committedCheckpoint.seq) = .ok app')]
    constructor
    · rintro ⟨app, habort, -⟩
      exact .inr ⟨hcut, KVStore.abort_requests habort⟩
    · rintro (⟨heq, -⟩ | ⟨-, hne⟩)
      · exact absurd heq hcut
      · obtain ⟨app, habort, -, hidx⟩ := KVStore.Indexed.abort hindexed
          (by omega : c < b.committedCheckpoint.seq + 1) (by omega) hne
        refine ⟨app, habort, KVStore.executeAll_isOk.mpr fun r hr => ?_⟩
        exact (Nat.le_of_lt_succ hidx).trans_lt (KVStore.recorded_mem hr).1

/-- **A counter can follow.** -/
lemma canFollow_counter [CounterCodec] {a b : Log Counter} (hlag : Lags a h b h' lastSeq)
    (ha : Tracks Counter.transfer a h) (hb : Tracks Counter.transfer b h') :
    CanFollow a h b lastSeq := by
  obtain ⟨k, -, happ⟩ := ha.app
  have happ : Counter.HoldsOperations a.app k (h.map Request.payload) := happ
  have hbehind := hlag.behind
  have hstable := ha.parsed.1.stable_le
  have hcommitted := ha.parsed.1.committed_le
  -- the requests behind a position are operations, and keep the counter in range
  have hexec : ∀ {x : Counter} {c p : ℕ}, p ≤ a.committedCheckpoint.seq →
      Counter.HoldsAt x c ((h.take p).map Request.payload) →
      ∃ x', executeAll x p (a.payloadsFrom h p) = .ok x' := by
    intro x c p hp hx
    have hlen : ((h.take p).map Request.payload).length = p := by
      rw [List.length_map, List.length_take]
      omega
    have hall : (h.take p).map Request.payload ++ a.payloadsFrom h p =
        (h.map Request.payload).take a.committedCheckpoint.seq := by
      rw [payloadsFrom, ← List.map_append, ← List.map_take]
      conv_rhs => rw [← List.take_append_drop p (h.take a.committedCheckpoint.seq),
        List.take_take, Nat.min_eq_left hp]
    rw [← hlen]
    refine Counter.executeAll_isOk hx (fun d hd => ?_) fun k => ?_
    · rw [hlen] at hd
      refine happ.operations d (List.mem_of_mem_take (i := a.committedCheckpoint.seq) ?_)
      rw [← hall]
      exact List.mem_append_right _ hd
    · rw [hlen, hall, List.take_take]
      exact happ.inRange _
  rw [CanFollow]
  split
  · rename_i hlt
    obtain ⟨s, hs⟩ := Option.ne_none_iff_exists'.mp (hlag.served hlt)
    obtain ⟨x, c, hx, hdec, hsnap⟩ := ha.stable s hs
    have hlen : ((h.take a.stableCheckpoint.seq).map Request.payload).length =
        a.stableCheckpoint.seq := by
      rw [List.length_map, List.length_take]
      omega
    have hseq : x.takeSnapshot.seq = a.stableCheckpoint.seq :=
      (Counter.HoldsAt.takeSnapshot_seq hx.toHoldsAt).trans hlen
    obtain ⟨y, hy, hvalue⟩ := id hdec
    rw [hseq] at hy
    have hholds := Counter.HoldsOperations.applySnapshot hx hdec (by rw [hlen]; exact hy)
    refine ⟨s, y, hs, ?_, hexec hstable hholds.toHoldsAt⟩
    rw [← hsnap]
    exact bind_eq_ok.mpr ⟨y, hy, rfl⟩
  · obtain ⟨b₀, habort⟩ := hb.exists_abort (Nat.lt_add_one _) hb.parsed.1.committed_lt
      (.inr trivial)
    obtain ⟨c, -, hb₀⟩ := (hb.abort (Nat.lt_add_one _) hb.parsed.1.committed_lt (.inr trivial)
      habort).app
    rw [Nat.add_sub_cancel, hlag.agree] at hb₀
    exact ⟨b₀, habort, hexec hbehind.le hb₀.toHoldsAt⟩

end Log

/-- **An honest state transfer succeeds**: a log in a run that has fallen behind another one, in
the same or in another run, is reset to the reply of that, over the counter always, and over the
key-value store if and only if the store is ready. -/
theorem state_transfer_iff [Sha256] [PaddedRequestData] [CounterCodec] [KVCodec] [UnorderedWalk]
    (hc : CollisionFree) (round a b lastSeq : ℕ) (ops ops' : List LogOperation) :
    (∀ numKeys (t t' : SpeculativeLogs KVStore),
      Run (SpeculativeLogs.transferSystem (KVStore.indexed numKeys))
        (SpeculativeLogs.Decoding (KVStore.indexed numKeys)) ops t →
      Run (SpeculativeLogs.transferSystem (KVStore.indexed numKeys))
        (SpeculativeLogs.Decoding (KVStore.indexed numKeys)) ops' t' →
      Log.Lags (t.logs a) (t.histories a) (t'.logs b) (t'.histories b) lastSeq →
      (Log.Transfers (t.logs a) (t.histories a) (t'.logs b) round a lastSeq ↔
        Log.Ready (t.logs a) (t.histories a) (t'.logs b) lastSeq)) ∧
    ∀ t t' : SpeculativeLogs Counter,
      Run (SpeculativeLogs.transferSystem Counter.transfer)
        (SpeculativeLogs.Decoding Counter.transfer) ops t →
      Run (SpeculativeLogs.transferSystem Counter.transfer)
        (SpeculativeLogs.Decoding Counter.transfer) ops' t' →
      Log.Lags (t.logs a) (t.histories a) (t'.logs b) (t'.histories b) lastSeq →
      Log.Transfers (t.logs a) (t.histories a) (t'.logs b) round a lastSeq := by
  constructor
  · intro numKeys t t' hrun hrun' hlag
    obtain ⟨hcons, hdigested⟩ :=
      SpeculativeLogs.correct_of_run hc (KVStore.indexed_ready numKeys) hrun
    obtain ⟨hcons', -⟩ := SpeculativeLogs.correct_of_run hc (KVStore.indexed_ready numKeys) hrun'
    rw [hlag.transfers_iff (hcons.logs a).parsed (hcons'.logs b).parsed,
      Log.canFollow_store hlag (hdigested.logs a) (hcons'.logs b)]
  · intro t t' hrun hrun' hlag
    obtain ⟨hcons, -⟩ := SpeculativeLogs.correct_of_run hc Counter.transfer_ready hrun
    obtain ⟨hcons', -⟩ := SpeculativeLogs.correct_of_run hc Counter.transfer_ready hrun'
    rw [hlag.transfers_iff (hcons.logs a).parsed (hcons'.logs b).parsed]
    exact Log.canFollow_counter hlag (hcons.logs a) (hcons'.logs b)

/-! ### Runs -/

section

attribute [local instance] prefixSha shortPaddedRequestData counterWire kvWire sortedWalk

/-- Runs of the logs over stores with one key. -/
abbrev TransferRun (t : SpeculativeLogs KVStore) : Prop :=
  ∃ ops, Run (SpeculativeLogs.transferSystem (KVStore.indexed 1))
    (SpeculativeLogs.Decoding (KVStore.indexed 1)) ops t

/-- A replica adds a request to its log. -/
def playAdd (i : ℕ) (req : Bytes) (t : SpeculativeLogs KVStore) :
    Except Fault (SpeculativeLogs KVStore) := do
  match ← (t.logs i).addEntry 0 1 req with
  | (_, none) => .error .assertion
  | (l, some _) => return t.set i l (t.histories i ++ [⟨0, 1, req⟩])

/-- A replica commits its log. -/
def playCommit (i : ℕ) (t : SpeculativeLogs KVStore) :
    Except Fault (SpeculativeLogs KVStore) := do
  let l := t.logs i
  let cp : LogCheckpoint := { seq := l.nextSeq - 1, logDigest := l.getDigest }
  let digest ← l.getDigestAt cp.seq
  if cp.seq < l.nextSeq ∧ digest = cp.logDigest then
    return t.set i (← l.setCheckpoint cp) (t.histories i)
  else .error .assertion

lemma transferRun_freshStores : TransferRun freshStores :=
  ⟨[], .start ⟨fun _ => ⟨_, ⟨0, rfl⟩, rfl⟩, fun _ => rfl, fun _ => rfl, rfl⟩⟩

lemma playAdd_run {i : ℕ} {req : Bytes} {t t' : SpeculativeLogs KVStore} (ht : TransferRun t)
    (hparses : (reqData req).isSome) (h : playAdd i req t = .ok t') : TransferRun t' := by
  obtain ⟨ops, hrun⟩ := ht
  obtain ⟨⟨l, res⟩, hadd, h⟩ := bind_eq_ok.mp h
  cases res with
  | none => cases h
  | some res =>
      cases pure_eq_ok.mp h
      exact ⟨_, hrun.step (e := LogOperation.speculate (.addEntry i 0 1 req true))
        ⟨.inr hparses, trivial⟩ ⟨l, some res, hadd, rfl⟩⟩

lemma playCommit_run {i : ℕ} {t t' : SpeculativeLogs KVStore} (ht : TransferRun t)
    (h : playCommit i t = .ok t') : TransferRun t' := by
  obtain ⟨ops, hrun⟩ := ht
  obtain ⟨digest, hdigest, h⟩ := bind_eq_ok.mp h
  split_ifs at h with hcp
  obtain ⟨l, hset, h⟩ := bind_eq_ok.mp h
  cases pure_eq_ok.mp h
  obtain ⟨hlt, rfl⟩ := hcp
  exact ⟨_, hrun.step (e := LogOperation.speculate (.setCheckpoint i _)) ⟨trivial, trivial⟩
    ⟨hlt, hdigest, fun hno => absurd rfl hno, l, hset, rfl⟩⟩

/-- A replica has set its key and committed that. -/
def aheadStores : Except Fault (SpeculativeLogs KVStore) := do
  playCommit 1 (← playAdd 1 (setRequest 48 49) freshStores)

lemma aheadStores_run {t : SpeculativeLogs KVStore} (h : aheadStores = .ok t) :
    TransferRun t := by
  obtain ⟨t₁, h₁, h⟩ := bind_eq_ok.mp h
  exact playCommit_run (playAdd_run transferRun_freshStores rfl h₁) h

/-- A log that has nothing committed lags behind one that has, but no stable checkpoint. -/
lemma lags_of_seq {a b : Log KVStore} {h h' : List Request}
    (ha : a.committedCheckpoint.seq = 1) (hs : a.stableCheckpoint.seq = 0)
    (hb : b.committedCheckpoint.seq = 0) : Log.Lags a h b h' 0 where
  behind := by omega
  agree := by rw [hb]; rfl
  asked := Nat.zero_le _
  served hlt := by omega

/-- A replica that has set its key to another value gets the committed one. -/
theorem state_transfer_set : ∃ t t' : SpeculativeLogs KVStore, TransferRun t ∧ TransferRun t' ∧
    Log.Transfers (t.logs 1) (t.histories 1) (t'.logs 0) 0 1 0 := by
  have heval : ∃ t, aheadStores = .ok t ∧ ∃ t', playAdd 0 (setRequest 48 50) freshStores = .ok t' ∧
      ((t.logs 1).committedCheckpoint.seq = 1 ∧ (t.logs 1).stableCheckpoint.seq = 0 ∧
        (t'.logs 0).committedCheckpoint.seq = 0 ∧ (t'.logs 0).nextSeq ≠ 1 ∧
        (t'.logs 0).app.requests ≠ []) := by
    decide +kernel
  obtain ⟨t, ht, t', ht', ha, hs, hb, hnext, hrequests⟩ := heval
  obtain ⟨ops, hrun⟩ := aheadStores_run ht
  obtain ⟨ops', hrun'⟩ := playAdd_run transferRun_freshStores rfl ht'
  refine ⟨t, t', ⟨ops, hrun⟩, ⟨ops', hrun'⟩, ?_⟩
  refine ((state_transfer_iff prefixSha_collisionFree 0 1 0 0 ops ops').1 1 t t' hrun hrun'
    (lags_of_seq ha hs hb)).mpr (.inr (.inr ⟨?_, hrequests⟩))
  rwa [hb]

/-- A request of a type that a store does not know, and does not keep. -/
def unknownRequest : Bytes := [10, 8, 8, 3, 18, 1, 48, 26, 1, 49]

/-- **A transfer that fails**: a replica that has executed nothing but a request of an unknown
type cannot be reset, since `abort` reads the last of the requests that its store keeps. -/
theorem unknown_request_fails : ∃ (t t' : SpeculativeLogs KVStore) (reply : SnapshotReply),
    TransferRun t ∧ TransferRun t' ∧
    Log.Lags (t.logs 1) (t.histories 1) (t'.logs 0) (t'.histories 0) 0 ∧
    (t.logs 1).snapshotReply 0 1 0 = .ok reply ∧
    (t'.logs 0).resetToSnapshot reply = .error .undefined ∧
    ¬Log.Transfers (t.logs 1) (t.histories 1) (t'.logs 0) 0 1 0 := by
  have heval : ∃ t, aheadStores = .ok t ∧ ∃ t', playAdd 0 unknownRequest freshStores = .ok t' ∧
      ∃ reply, (t.logs 1).snapshotReply 0 1 0 = .ok reply ∧
        ((t.logs 1).committedCheckpoint.seq = 1 ∧ (t.logs 1).stableCheckpoint.seq = 0 ∧
          (t'.logs 0).committedCheckpoint.seq = 0 ∧
          (match (t'.logs 0).resetToSnapshot reply with
            | .error fault => fault == .undefined
            | .ok _ => false) = true) := by
    decide +kernel
  obtain ⟨t, ht, t', ht', reply, hreply, ha, hs, hb, hreset⟩ := heval
  have hreset : (t'.logs 0).resetToSnapshot reply = .error .undefined := by
    split at hreset
    · rename_i fault hfault
      rw [hfault, eq_of_beq hreset]
    · cases hreset
  refine ⟨t, t', reply, aheadStores_run ht, playAdd_run transferRun_freshStores rfl ht',
    lags_of_seq ha hs hb, hreply, hreset, ?_⟩
  rintro ⟨reply', b', hreply', hreset', -⟩
  rw [hreply] at hreply'
  cases hreply'
  rw [hreset] at hreset'
  cases hreset'

end

end DomBft
