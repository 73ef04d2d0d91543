import DomBft.Log.Speculation
import DomBft.Repair.Apply

/-!
The snapshot thread of the key-value store, next to the log that goes on executing, committing
and aborting.

* `ThreadedLog`, `ThreadOp`, `ThreadedLog.system`: a log over the store, the thread, and what its
  callback has been given, as a transition system.  The thread copies the committed data in a
  step of its own, at any time after the call.
* `foldl_write_again`: requests that are executed again, together with those that followed them,
  have no further effect.
* `ThreadedLog.Timely`: the condition on the steps; `snapshots_right`: **every snapshot has the
  position and the data of the log at the call**.
-/

namespace DomBft

open Fallible Transition

/-- The checkpoints do not move the next position. -/
lemma Log.setCheckpoint_nextSeq {A : Type} [Application A] {l l' : Log A} {cp : LogCheckpoint}
    (h : l.setCheckpoint cp = .ok l') : l'.nextSeq = l.nextSeq := by
  obtain ⟨l₁, hcommit, h⟩ := bind_eq_ok.mp h
  have hnext : l₁.nextSeq = l.nextSeq := by
    rw [commitCheckpoint] at hcommit
    split_ifs at hcommit
    · obtain ⟨app, -, hcommit⟩ := bind_eq_ok.mp hcommit
      cases pure_eq_ok.mp hcommit
      rfl
    · cases Except.ok.inj hcommit
      rfl
  rw [stabilizeCheckpoint] at h
  by_cases hstable : cp.appDigest ≠ [] ∧ l₁.stableCheckpoint.seq < cp.seq
  · rw [if_pos hstable] at h
    obtain ⟨log, -, h⟩ := bind_eq_ok.mp h
    split_ifs at h
    cases pure_eq_ok.mp h
    exact hnext
  · rw [if_neg hstable] at h
    cases Except.ok.inj h
    exact hnext

/-! ### Requests that are executed again -/

namespace KVStore

/-- A request writes a key. -/
def Writes (r : KVStoreRequest) (key : Bytes) : Prop :=
  r.key = key ∧ (r.type = .set ∨ r.type = .delete)

lemma getElem?_write_of_not {r : KVStoreRequest} {key : Bytes} (h : ¬Writes r key) (data : KVData) :
    (KVStoreRequest.write data r)[key]? = data[key]? := by
  rw [KVStoreRequest.write]
  cases htype : r.type with
  | get => rfl
  | other => rfl
  | set =>
      have hne : key ≠ r.key := fun hkey => h ⟨hkey.symm, .inl htype⟩
      exact OrderedMap.getElem?_insert_of_ne hne
  | delete =>
      have hne : key ≠ r.key := fun hkey => h ⟨hkey.symm, .inr htype⟩
      exact OrderedMap.getElem?_erase_of_ne hne

lemma getElem?_write_of_writes {r : KVStoreRequest} {key : Bytes} (h : Writes r key)
    (data data' : KVData) :
    (KVStoreRequest.write data r)[key]? = (KVStoreRequest.write data' r)[key]? := by
  obtain ⟨rfl, htype | htype⟩ := h
  · simp [KVStoreRequest.write, htype, KVRequestType.write]
  · simp [KVStoreRequest.write, htype, KVRequestType.write]

/-- What some requests leave under a key that one of them writes does not depend on what was
there before. -/
lemma getElem?_foldl_of_writes {rs : List KVStoreRequest} {key : Bytes}
    (h : ∃ r ∈ rs, Writes r key) (data data' : KVData) :
    (rs.foldl KVStoreRequest.write data)[key]? = (rs.foldl KVStoreRequest.write data')[key]? := by
  induction rs using List.reverseRecOn with
  | nil =>
      obtain ⟨r, hr, -⟩ := h
      cases hr
  | append_singleton rs r ih =>
      simp only [List.foldl_append, List.foldl_cons, List.foldl_nil]
      by_cases hr : Writes r key
      · exact getElem?_write_of_writes hr _ _
      · rw [getElem?_write_of_not hr, getElem?_write_of_not hr]
        obtain ⟨r', hr', hwrites⟩ := h
        rcases List.mem_append.mp hr' with hr' | hr'
        · exact ih ⟨r', hr', hwrites⟩
        · rw [List.mem_singleton.mp hr'] at hwrites
          exact absurd hwrites hr

lemma getElem?_foldl_of_not {rs : List KVStoreRequest} {key : Bytes}
    (h : ∀ r ∈ rs, ¬Writes r key) (data : KVData) :
    (rs.foldl KVStoreRequest.write data)[key]? = data[key]? := by
  induction rs generalizing data with
  | nil => rfl
  | cons r rs ih =>
      rw [List.foldl_cons, ih fun r' hr' => h r' (List.mem_cons_of_mem _ hr'),
        getElem?_write_of_not (h r List.mem_cons_self)]

/-- **Requests that are executed a second time** have no further effect. -/
lemma foldl_write_again (rs : List KVStoreRequest) (data : KVData) :
    rs.foldl KVStoreRequest.write (rs.foldl KVStoreRequest.write data) =
      rs.foldl KVStoreRequest.write data := by
  refine Std.ExtTreeMap.ext_getElem? fun key => ?_
  by_cases h : ∃ r ∈ rs, Writes r key
  · exact getElem?_foldl_of_writes h _ _
  · exact getElem?_foldl_of_not (fun r hr hw => h ⟨r, hr, hw⟩) _

/-- The requests kept above one position, executed on the data of a later one, give the data of
the last one. -/
lemma foldl_recorded_of_le [KVCodec] {numKeys c c' : ℕ} {ds : List Bytes} (hc : c ≤ c')
    (hc' : c' ≤ ds.length) :
    (recorded c (ds.drop c)).foldl KVStoreRequest.write (dataOf numKeys (ds.take c')) =
      dataOf numKeys ds := by
  have hsplit : recorded c (ds.drop c) =
      recorded c ((ds.take c').drop c) ++ recorded c' (ds.drop c') := by
    obtain ⟨htake, hdrop⟩ := recorded_cut ds hc hc'
    rw [← htake, ← hdrop, List.takeWhile_append_dropWhile]
  have hbefore : (ds.take c').take c = ds.take c := by
    rw [List.take_take, Nat.min_eq_left hc]
  have hmiddle : dataOf numKeys (ds.take c') =
      (recorded c ((ds.take c').drop c)).foldl KVStoreRequest.write (dataOf numKeys (ds.take c)) := by
    rw [foldl_recorded, ← hbefore, ← List.foldl_append, List.take_append_drop]
  rw [hsplit, List.foldl_append, hmiddle, foldl_write_again, ← hmiddle, foldl_recorded,
    ← List.foldl_append, List.take_append_drop]

end KVStore

/-! ### The thread -/

/-- What the snapshot thread works with: the copies made at the call, and where the log stood
then. -/
structure SnapshotThread where
  requestsCopy : List KVStoreRequest
  idx : ℕ
  /-- the last position of the log at the call -/
  seq : ℕ
  /-- the requests at the positions up to that one -/
  executed : List Request

/-- The body of the thread, with the committed data that it finds. -/
def SnapshotThread.run [Sha256] [UnorderedWalk] (th : SnapshotThread) (committedData : KVData) :
    AppSnapshot :=
  let snapshot := serializeData (th.requestsCopy.foldl KVStoreRequest.write committedData)
  { seq := th.idx, snapshot, digest := sha256 snapshot }

/-- What the callback is given, and where the log stood at the call. -/
structure DeliveredSnapshot where
  seq : ℕ
  executed : List Request
  snapshot : AppSnapshot

/-- A log over the store and the snapshot thread, if one is running.  The requests at the
positions of the log, the position of its last cut and the snapshots so far are recorded. -/
structure ThreadedLog where
  log : Log KVStore
  history : List Request := []
  cut : ℕ := 0
  thread : Option SnapshotThread := none
  delivered : List DeliveredSnapshot := []

/-- The operations on the log, the call of `takeSnapshot`, and the thread. -/
inductive ThreadOp where
  | addEntry (clientId clientSeq : UInt32) (req : Bytes) (checkDup : Bool)
  | abort (seq : ℕ)
  | setCheckpoint (cp : LogCheckpoint)
  | takeSnapshot
  | runThread

namespace ThreadedLog

section

variable [Sha256] [PaddedRequestData] [KVCodec] [UnorderedWalk]

/-- The call of `takeSnapshot`, which has waited for the thread before. -/
def takeSnapshot (t : ThreadedLog) : ThreadedLog :=
  { t with thread := some {
      requestsCopy := t.log.app.requests
      idx := t.log.app.dataIdx
      seq := t.log.nextSeq - 1
      executed := t.history } }

/-- One operation.  `abort` and `setCheckpoint` are not called outside the range the replica
calls them in, and `takeSnapshot` waits for a thread that is running. -/
def step (t : ThreadedLog) : ThreadOp → Except Fault ThreadedLog
  | .addEntry clientId clientSeq req checkDup => do
    let (log, res) ← t.log.addEntry clientId clientSeq req checkDup
    return { t with
      log
      history := if res.isSome then t.history ++ [⟨clientId, clientSeq, req⟩] else t.history }
  | .abort seq =>
    if t.log.committedCheckpoint.seq < seq ∧ seq ≤ t.log.nextSeq then do
      let log ← t.log.abort seq
      return { t with
        log
        history := t.history.take (seq - 1)
        cut := if seq < t.log.nextSeq then seq - 1 else t.cut }
    else .error .assertion
  | .setCheckpoint cp =>
    if cp.seq < t.log.nextSeq then do
      let log ← t.log.setCheckpoint cp
      return { t with log }
    else .error .assertion
  | .takeSnapshot => if t.thread.isNone then .ok t.takeSnapshot else .error .assertion
  | .runThread =>
    match t.thread with
    | none => .error .assertion
    | some th => .ok { t with
        thread := none
        delivered := ⟨th.seq, th.executed, th.run t.log.app.committedData⟩ :: t.delivered }

/-- All sequences of operations, from a fresh log over a fresh store. -/
def system (numKeys : ℕ) : System ThreadedLog ThreadOp where
  init t := ∃ dataIdx, t = { log := Log.fresh (KVStore.create numKeys dataIdx) }
  step t op t' := t.step op = .ok t'

/-- The last operation that has moved the index of the store is the execution of the request at
the last position of the log. -/
def Settled (t : ThreadedLog) : Prop :=
  t.cut < t.history.length ∧
    ∃ a ∈ t.history.getLast?, KVStore.record t.history.length a.payload ≠ []

instance (t : ThreadedLog) : Decidable t.Settled := inferInstanceAs (Decidable (_ ∧ _))

/-- A snapshot is taken after the execution of a well formed request that has not been followed
by a cut of the log; and while the thread has not run, only requests that the log held at the
call are committed. -/
def Timely : List ThreadOp → ThreadedLog → ThreadOp → Prop
  | _, t, .takeSnapshot => t.Settled
  | _, t, .setCheckpoint cp =>
    t.log.committedCheckpoint.seq < cp.seq → ∀ th ∈ t.thread,
      cp.seq ≤ th.seq ∧ t.history.take cp.seq = th.executed.take cp.seq
  | _, _, _ => True

instance (ops : List ThreadOp) (t : ThreadedLog) : ∀ op, Decidable (Timely ops t op)
  | .takeSnapshot => inferInstanceAs (Decidable t.Settled)
  | .setCheckpoint _ => inferInstanceAs (Decidable (_ → _))
  | .addEntry .. | .abort _ | .runThread => .isTrue trivial

/-- A snapshot has the position and the data of the log at the call. -/
structure Right (numKeys : ℕ) (d : DeliveredSnapshot) : Prop where
  seq_eq : d.snapshot.seq = d.seq
  length_eq : d.executed.length = d.seq
  snapshot_eq : d.snapshot.snapshot =
    serializeData (KVStore.dataOf numKeys (d.executed.map Request.payload))
  digest_eq : d.snapshot.digest = sha256 d.snapshot.snapshot

/-! ### The invariant -/

/-- What a running thread works with: the requests kept at the call, of which some have been
committed since. -/
structure ThreadOk (numKeys : ℕ) (t : ThreadedLog) (th : SnapshotThread) : Prop where
  idx_eq : th.idx = th.seq
  length_eq : th.executed.length = th.seq
  committed_le : t.log.committedCheckpoint.seq ≤ th.seq
  requestsCopy : ∃ c ≤ t.log.committedCheckpoint.seq,
    th.requestsCopy = KVStore.recorded c ((th.executed.map Request.payload).drop c)
  committedData : t.log.app.committedData =
    KVStore.dataOf numKeys ((th.executed.map Request.payload).take t.log.committedCheckpoint.seq)

/-- The store holds the requests of the log, its index is the last position where the log is
settled, and the thread and the snapshots are right. -/
structure Inv (numKeys : ℕ) (t : ThreadedLog) : Prop where
  holds : KVStore.HoldsAt numKeys t.log.app t.log.committedCheckpoint.seq
    (t.history.map Request.payload)
  nextSeq_eq : t.log.nextSeq = t.history.length + 1
  dataIdx_eq : t.Settled → t.log.app.dataIdx = t.history.length
  thread : ∀ th, t.thread = some th → ThreadOk numKeys t th
  delivered : ∀ d ∈ t.delivered, Right numKeys d

omit [Sha256] [UnorderedWalk] in
/-- A thread goes on with what it has while the committed position and the committed data stay
as they are. -/
lemma ThreadOk.of_eq {numKeys : ℕ} {t t' : ThreadedLog} {th : SnapshotThread}
    (h : ThreadOk numKeys t th)
    (hseq : t'.log.committedCheckpoint.seq = t.log.committedCheckpoint.seq)
    (hdata : t'.log.app.committedData = t.log.app.committedData) : ThreadOk numKeys t' th where
  idx_eq := h.idx_eq
  length_eq := h.length_eq
  committed_le := hseq ▸ h.committed_le
  requestsCopy := hseq ▸ h.requestsCopy
  committedData := by rw [hdata, hseq, h.committedData]

namespace Inv

variable {numKeys : ℕ} {t t' : ThreadedLog}

lemma init (h : (system numKeys).init t) : Inv numKeys t := by
  obtain ⟨dataIdx, rfl⟩ := h
  refine ⟨⟨le_rfl, rfl, rfl, rfl, rfl⟩, rfl, fun hs => ?_, fun th hth => ?_, fun d hd => ?_⟩
  · exact absurd hs.1 (Nat.lt_irrefl 0)
  · cases hth
  · cases hd

lemma addEntry (h : Inv numKeys t) {c s : UInt32} {req : Bytes} {checkDup : Bool}
    (hstep : t.step (.addEntry c s req checkDup) = .ok t') : Inv numKeys t' := by
  obtain ⟨⟨log, res⟩, hadd, hstep⟩ := bind_eq_ok.mp hstep
  cases pure_eq_ok.mp hstep
  obtain ⟨-, hcommitted⟩ := Log.addEntry_checkpoints hadd
  have hnext := addEntry_nextSeq hadd
  rcases Log.addEntry_app hadd with ⟨rfl, happ⟩ | ⟨r, rfl, -, hexec⟩
  · simp only [Option.isSome_none, Bool.false_eq_true, if_false] at hnext ⊢
    refine ⟨?_, hnext.trans h.nextSeq_eq, fun hs => ?_, fun th hth => ?_, h.delivered⟩
    · show KVStore.HoldsAt numKeys log.app log.committedCheckpoint.seq _
      rw [happ, hcommitted]
      exact h.holds
    · exact (congrArg KVStore.dataIdx happ).trans (h.dataIdx_eq hs)
    · exact (h.thread th hth).of_eq (congrArg _ hcommitted) (congrArg _ happ)
  · simp only [Option.isSome_some, if_true] at hnext ⊢
    have hexec' : t.log.app.execute (Request.payload ⟨c, s, req⟩) t.log.nextSeq =
        .ok (log.app, r) := hexec
    obtain ⟨-, hdata, -, -, -, hidx⟩ := KVStore.execute_effect hexec'
    rw [h.nextSeq_eq] at hexec' hidx hnext
    refine ⟨?_, ?_, fun hs => ?_, fun th hth => ?_, h.delivered⟩
    · show KVStore.HoldsAt numKeys log.app log.committedCheckpoint.seq _
      rw [hcommitted, List.map_append]
      exact h.holds.execute (by rwa [List.length_map])
    · rw [List.length_append]
      exact hnext
    · obtain ⟨-, a, ha, hrecord⟩ := hs
      simp only [List.getLast?_concat, Option.mem_def, Option.some.injEq] at ha
      subst ha
      simp only [List.length_append, List.length_singleton] at hrecord ⊢
      exact hidx hrecord
    · exact (h.thread th hth).of_eq (congrArg _ hcommitted) hdata

lemma abort (h : Inv numKeys t) {p : ℕ} (hstep : t.step (.abort p) = .ok t') :
    Inv numKeys t' := by
  rw [step] at hstep
  by_cases hrange : t.log.committedCheckpoint.seq < p ∧ p ≤ t.log.nextSeq
  swap
  · rw [if_neg hrange] at hstep
    cases hstep
  rw [if_pos hrange] at hstep
  obtain ⟨hlt, hle⟩ := hrange
  obtain ⟨log, habort, hstep⟩ := bind_eq_ok.mp hstep
  cases pure_eq_ok.mp hstep
  obtain ⟨hnext, -, hcommitted⟩ := Log.abort_nextSeq habort
  have hlen := h.nextSeq_eq
  have htake : (t.history.take (p - 1)).length = p - 1 := by
    rw [List.length_take]
    omega
  rcases Log.abort_app habort with ⟨hlast, happ⟩ | ⟨hbefore, happ⟩
  · have hall : t.history.take (p - 1) = t.history := List.take_of_length_le (by omega)
    rw [hall, if_neg (Nat.not_lt.mpr hlast)]
    refine ⟨?_, ?_, fun hs => ?_, fun th hth => ?_, h.delivered⟩
    · show KVStore.HoldsAt numKeys log.app log.committedCheckpoint.seq _
      rw [happ, hcommitted]
      exact h.holds
    · show log.nextSeq = t.history.length + 1
      omega
    · exact (congrArg KVStore.dataIdx happ).trans (h.dataIdx_eq hs)
    · exact (h.thread th hth).of_eq (congrArg _ hcommitted) (congrArg _ happ)
  · have happ' : t.log.app.abort p = .ok log.app := happ
    have hcan : t.log.app.requests ≠ [] := fun hnil => by
      rw [KVStore.abort, hnil] at happ'
      cases happ'
    obtain ⟨a', ha', hholds⟩ := h.holds.abort hlt (by rw [List.length_map]; omega) hcan
    cases happ'.symm.trans ha'
    have hdata : log.app.committedData = t.log.app.committedData := by
      rw [hholds.committedData, h.holds.committedData, List.take_take, Nat.min_eq_left (by omega)]
    rw [if_pos hbefore]
    refine ⟨?_, ?_, fun hs => ?_, fun th hth => ?_, h.delivered⟩
    · show KVStore.HoldsAt numKeys log.app log.committedCheckpoint.seq _
      rw [hcommitted, List.map_take]
      exact hholds
    · show log.nextSeq = (t.history.take (p - 1)).length + 1
      omega
    · -- nothing has been executed since the cut
      have hcut : p - 1 < (t.history.take (p - 1)).length := hs.1
      omega
    · exact (h.thread th hth).of_eq (congrArg _ hcommitted) hdata

lemma setCheckpoint (h : Inv numKeys t) {ops : List ThreadOp} {cp : LogCheckpoint}
    (htimely : Timely ops t (.setCheckpoint cp)) (hstep : t.step (.setCheckpoint cp) = .ok t') :
    Inv numKeys t' := by
  rw [step] at hstep
  split_ifs at hstep with hlt
  obtain ⟨log, hset, hstep⟩ := bind_eq_ok.mp hstep
  cases pure_eq_ok.mp hstep
  have hnext := Log.setCheckpoint_nextSeq hset
  have hlen := h.nextSeq_eq
  rcases (Log.setCheckpoint_app hset).1 with ⟨-, happ, hcommitted⟩ | ⟨hahead, hcommit, hcommitted⟩
  · refine ⟨?_, hnext.trans hlen, fun hs => ?_, fun th hth => ?_, h.delivered⟩
    · show KVStore.HoldsAt numKeys log.app log.committedCheckpoint.seq _
      rw [happ, hcommitted]
      exact h.holds
    · exact (congrArg KVStore.dataIdx happ).trans (h.dataIdx_eq hs)
    · exact (h.thread th hth).of_eq (congrArg _ hcommitted) (congrArg _ happ)
  · have happ : log.app = t.log.app.commit cp.seq := (Except.ok.inj hcommit).symm
    have hholds := h.holds.commit hahead (by rw [List.length_map]; omega)
    refine ⟨?_, hnext.trans hlen, fun hs => ?_, fun th hth => ?_, h.delivered⟩
    · show KVStore.HoldsAt numKeys log.app log.committedCheckpoint.seq _
      rw [happ, hcommitted]
      exact hholds
    · exact (congrArg KVStore.dataIdx happ).trans (h.dataIdx_eq hs)
    · obtain ⟨hle, hprefix⟩ := htimely hahead th hth
      have hth := h.thread th hth
      obtain ⟨c, hc, hcopy⟩ := hth.requestsCopy
      refine ⟨hth.idx_eq, hth.length_eq, ?_, ⟨c, ?_, hcopy⟩, ?_⟩
      · show log.committedCheckpoint.seq ≤ th.seq
        rwa [hcommitted]
      · show c ≤ log.committedCheckpoint.seq
        rw [hcommitted]
        omega
      · show log.app.committedData = KVStore.dataOf numKeys
          ((th.executed.map Request.payload).take log.committedCheckpoint.seq)
        rw [happ, hcommitted, hholds.committedData, ← List.map_take, ← List.map_take, hprefix]

lemma takeSnapshot (h : Inv numKeys t) {ops : List ThreadOp} (htimely : Timely ops t .takeSnapshot)
    (hstep : t.step .takeSnapshot = .ok t') : Inv numKeys t' := by
  rw [step] at hstep
  split_ifs at hstep
  cases Except.ok.inj hstep
  have hlen := h.nextSeq_eq
  refine ⟨h.holds, h.nextSeq_eq, h.dataIdx_eq, fun th hth => ?_, h.delivered⟩
  cases hth
  have hle := h.holds.committed_le
  rw [List.length_map] at hle
  refine ⟨?_, ?_, ?_, ⟨_, le_rfl, h.holds.requests⟩, h.holds.committedData⟩
  · show t.log.app.dataIdx = t.log.nextSeq - 1
    rw [h.dataIdx_eq htimely, hlen, Nat.add_sub_cancel]
  · show t.history.length = t.log.nextSeq - 1
    omega
  · show t.log.committedCheckpoint.seq ≤ t.log.nextSeq - 1
    omega

lemma runThread (h : Inv numKeys t) (hstep : t.step .runThread = .ok t') : Inv numKeys t' := by
  rw [step] at hstep
  split at hstep
  · cases hstep
  rename_i th hth
  cases Except.ok.inj hstep
  refine ⟨h.holds, h.nextSeq_eq, h.dataIdx_eq, fun th' hth' => ?_, fun d hd => ?_⟩
  · cases hth'
  · rcases List.mem_cons.mp hd with rfl | hd
    · have hok := h.thread th hth
      obtain ⟨c, hc, hcopy⟩ := hok.requestsCopy
      refine ⟨hok.idx_eq, hok.length_eq, ?_, rfl⟩
      show serializeData (th.requestsCopy.foldl KVStoreRequest.write t.log.app.committedData) = _
      rw [hcopy, hok.committedData, KVStore.foldl_recorded_of_le hc]
      rw [List.length_map, hok.length_eq]
      exact hok.committed_le
    · exact h.delivered d hd

end Inv

/-- **Every snapshot has the position and the data of the log at the call**, in every order of
the steps of the log and of the thread: if it is taken after the execution of a well formed
request that no cut has followed, and only requests that the log held at the call are committed
before the thread has copied the committed data. -/
theorem snapshots_right {numKeys : ℕ} {ops : List ThreadOp} {t : ThreadedLog}
    (h : Run (system numKeys) Timely ops t) : ∀ d ∈ t.delivered, Right numKeys d := by
  have hinv : Inv numKeys t := by
    refine h.invariant (P := fun _ t => Inv numKeys t) (fun t ht => .init ht) ?_
    intro ops t op t' _ hinv htimely hstep
    cases op with
    | addEntry c s req checkDup => exact hinv.addEntry hstep
    | abort p => exact hinv.abort hstep
    | setCheckpoint cp => exact hinv.setCheckpoint htimely hstep
    | takeSnapshot => exact hinv.takeSnapshot htimely hstep
    | runThread => exact hinv.runThread hstep
  exact hinv.delivered

end

section

attribute [local instance] prefixSha shortPaddedRequestData kvWire sortedWalk

/-- A fresh log over a store without keys. -/
def freshLog : ThreadedLog := { log := Log.fresh (KVStore.create 0 0) }

/-- `SET` with key and value of one letter each, number `seq` of client `0`. -/
def addSet (seq : UInt32) (key value : UInt8) : ThreadOp :=
  .addEntry 0 seq (setRequest key value) true

/-- Operations that can be executed are a run. -/
lemma run_of_foldlM {G : List ThreadOp → ThreadedLog → ThreadOp → Prop}
    {P : ThreadedLog → ThreadOp → Prop} [∀ t op, Decidable (P t op)] {ops : List ThreadOp}
    {t : ThreadedLog} (hG : ∀ ops t op, P t op → G ops t op)
    (h : ops.foldlM (fun t op => if P t op then t.step op else .error .assertion) freshLog = .ok t) :
    Run (system 0) G ops t := by
  have hstart : Run (system 0) G [] freshLog := .start ⟨0, rfl⟩
  refine hstart.of_foldlM (fun es t op t' _ hstep => ?_) h
  split_ifs at hstep with hP
  exact ⟨hG es t op hP, hstep⟩

/-- The snapshot of two requests is right, though the first of them has been committed and a third
one executed before the thread runs. -/
theorem timely_snapshot_right :
    ∃ t : ThreadedLog, Run (system 0) Timely
        [addSet 1 97 98, addSet 2 99 100, .takeSnapshot, addSet 3 97 101, .setCheckpoint { seq := 1 },
          .runThread] t ∧
      t.delivered.map (·.seq) = [2] ∧ ∀ d ∈ t.delivered, Right 0 d := by
  obtain ⟨t, ht, hseq⟩ : ∃ t : ThreadedLog,
      [addSet 1 97 98, addSet 2 99 100, .takeSnapshot, addSet 3 97 101, .setCheckpoint { seq := 1 },
          .runThread].foldlM
        (fun t op => if Timely [] t op then t.step op else .error .assertion) freshLog = .ok t ∧
      t.delivered.map (·.seq) = [2] := by
    decide +kernel
  have hrun : Run (system 0) Timely _ t :=
    run_of_foldlM (fun _ _ op h => by cases op <;> exact h) ht
  exact ⟨t, hrun, hseq, snapshots_right hrun⟩

/-- A snapshot after a malformed request has the position before it; a snapshot after a cut that
keeps requests has the committed position; and a request that has been committed before the
thread runs is in the snapshot of an earlier position. -/
theorem snapshots_wrong :
    (∃ t, Run (system 0) anyStep
        [addSet 1 97 98, .addEntry 0 2 [10, 1, 255] true, .takeSnapshot, .runThread] t ∧
      t.delivered.map (fun d => (d.seq, d.snapshot.seq)) = [(2, 1)]) ∧
    (∃ t, Run (system 0) anyStep
        [addSet 1 97 98, addSet 2 99 100, .abort 2, .takeSnapshot, .runThread] t ∧
      t.delivered.map (fun d => (d.seq, d.snapshot.seq)) = [(1, 0)]) ∧
    ∃ t, Run (system 0) anyStep
        [addSet 1 97 98, .takeSnapshot, addSet 2 99 100, .setCheckpoint { seq := 2 }, .runThread] t ∧
      t.delivered.map (fun d => (d.seq, d.snapshot.seq)) = [(1, 1)] ∧
      ∀ d ∈ t.delivered, d.snapshot.snapshot ≠
        serializeData (KVStore.dataOf 0 (d.executed.map Request.payload)) := by
  have hrun : ∀ {ops : List ThreadOp} {t : ThreadedLog},
      ops.foldlM (fun t op => if True then t.step op else .error .assertion) freshLog = .ok t →
        Run (system 0) anyStep ops t := fun h =>
    run_of_foldlM (P := fun _ _ => True) (fun _ _ _ _ => trivial) h
  refine ⟨?_, ?_, ?_⟩
  · obtain ⟨t, ht, hlabel⟩ : ∃ t : ThreadedLog,
        [addSet 1 97 98, .addEntry 0 2 [10, 1, 255] true, .takeSnapshot, .runThread].foldlM
          (fun t op => if True then t.step op else .error .assertion) freshLog = .ok t ∧
        t.delivered.map (fun d => (d.seq, d.snapshot.seq)) = [(2, 1)] := by
      decide +kernel
    exact ⟨t, hrun ht, hlabel⟩
  · obtain ⟨t, ht, hlabel⟩ : ∃ t : ThreadedLog,
        [addSet 1 97 98, addSet 2 99 100, .abort 2, .takeSnapshot, .runThread].foldlM
          (fun t op => if True then t.step op else .error .assertion) freshLog = .ok t ∧
        t.delivered.map (fun d => (d.seq, d.snapshot.seq)) = [(1, 0)] := by
      decide +kernel
    exact ⟨t, hrun ht, hlabel⟩
  · obtain ⟨t, ht, hlabel, hdata⟩ : ∃ t : ThreadedLog,
        [addSet 1 97 98, .takeSnapshot, addSet 2 99 100, .setCheckpoint { seq := 2 },
            .runThread].foldlM
          (fun t op => if True then t.step op else .error .assertion) freshLog = .ok t ∧
        t.delivered.map (fun d => (d.seq, d.snapshot.seq)) = [(1, 1)] ∧
        ∀ d ∈ t.delivered, d.snapshot.snapshot ≠
          serializeData (KVStore.dataOf 0 (d.executed.map Request.payload)) := by
      decide +kernel
    exact ⟨t, hrun ht, hlabel, hdata⟩

end

end ThreadedLog

end DomBft
