import DomBft.Log.Cluster
import DomBft.Log.Committed
import DomBft.Rollback.Counter
import DomBft.Rollback.KVStore

/-!
The log and its application under speculation: entries are executed as they are added, and
taken back when the log is cut.

* `SpeculativeLogs`, `SpeculationOp`, `SpeculativeLogs.system`: the logs of the correct
  replicas, each with the requests executed at its positions.
* `Guarded`: the payloads parse, and the application is asked for what it can do.
* `Tracks`, the invariant of one log: its application has executed the requests of its
  history, and its stable snapshot was taken after the first of them.
* `speculation_consistent`: **the application follows the log**, in every run of guarded
  operations, for both applications.
-/

namespace DomBft

open Fallible Transition

variable {A : Type}

/-- A snapshot with the position and the log digest at which it was taken. -/
structure TakenSnapshot where
  seq : ℕ
  logDigest : Bytes
  snapshot : AppSnapshot

/-- The logs of the correct replicas, the requests at the positions of each, the snapshots each
has taken, and the snapshot replies in flight, with the position they answer to and the
requests that they stand for. -/
structure SpeculativeLogs (A : Type) where
  logs : ℕ → Log A
  histories : ℕ → List Request
  snapshots : ℕ → List TakenSnapshot
  replies : List (ℕ × SnapshotReply × List Request)

/-- The operations on the logs; the first number says on which one. -/
inductive SpeculationOp where
  | addEntry (i : ℕ) (clientId clientSeq : UInt32) (req : Bytes) (checkDup : Bool)
  | abort (i seq : ℕ)
  | takeSnapshot (i : ℕ)
  | setCheckpoint (i : ℕ) (cp : LogCheckpoint)
  | serveSnapshot (i round lastSeq : ℕ)
  | resetToSnapshot (i lastSeq : ℕ) (reply : SnapshotReply) (history : List Request)

/-- The payload that the application gets of a request. -/
def Request.payload [PaddedRequestData] (a : Request) : Bytes := (reqData a.request).getD []

namespace SpeculativeLogs

/-- Another log at one replica, with its requests. -/
def set (t : SpeculativeLogs A) (i : ℕ) (l : Log A) (h : List Request) : SpeculativeLogs A :=
  { t with
    logs := Function.update t.logs i l
    histories := Function.update t.histories i h }

/-- A snapshot is taken at one replica. -/
def takeSnapshot [Application A] (t : SpeculativeLogs A) (i : ℕ) : SpeculativeLogs A :=
  let l := t.logs i
  { t with
    snapshots := Function.update t.snapshots i
      (⟨l.nextSeq - 1, l.getDigest, Application.takeSnapshot l.app⟩ :: t.snapshots i) }

variable [Sha256] [PaddedRequestData] [Application A]

/-- One operation.  A checkpoint with an application digest comes with the own snapshot of the
same digest, taken at the same log; a snapshot reply is used where it answers a request with
a checkpoint position that the log has already committed, and is itself ahead of the log. -/
def Step (t : SpeculativeLogs A) (op : SpeculationOp) (t' : SpeculativeLogs A) : Prop :=
  match op with
  | .addEntry i clientId clientSeq req checkDup =>
    ∃ l res, (t.logs i).addEntry clientId clientSeq req checkDup = .ok (l, res) ∧
      t' = t.set i l (if res.isSome then t.histories i ++ [⟨clientId, clientSeq, req⟩]
        else t.histories i)
  | .abort i seq =>
    (t.logs i).committedCheckpoint.seq < seq ∧ seq ≤ (t.logs i).nextSeq ∧
      ∃ l, (t.logs i).abort seq = .ok l ∧ t' = t.set i l ((t.histories i).take (seq - 1))
  | .takeSnapshot i => t' = t.takeSnapshot i
  | .setCheckpoint i cp =>
    cp.seq < (t.logs i).nextSeq ∧ (t.logs i).getDigestAt cp.seq = .ok cp.logDigest ∧
      (cp.appDigest ≠ [] → ∃ x ∈ t.snapshots i, x.seq = cp.seq ∧ x.logDigest = cp.logDigest ∧
        x.snapshot.digest = cp.appDigest ∧ cp.snapshot = some x.snapshot.snapshot) ∧
      ∃ l, (t.logs i).setCheckpoint cp = .ok l ∧ t' = t.set i l (t.histories i)
  | .serveSnapshot i round lastSeq =>
    ∃ reply, (t.logs i).snapshotReply round i lastSeq = .ok reply ∧
      t' = { t with replies :=
        (lastSeq, reply, (t.histories i).take (t.logs i).committedCheckpoint.seq) :: t.replies }
  | .resetToSnapshot i lastSeq reply history =>
    (lastSeq, reply, history) ∈ t.replies ∧ lastSeq ≤ (t.logs i).committedCheckpoint.seq ∧
      (t.logs i).committedCheckpoint.seq < reply.seq ∧
      ∃ l ok, (t.logs i).resetToSnapshot reply = .ok (l, ok) ∧
        t' = t.set i l (if ok then
          LogCluster.resetHistory (t.logs i) (t.histories i) reply history else t.histories i)

/-- All sequences of operations, from fresh logs over fresh applications. -/
def system (R : Rollback A) : System (SpeculativeLogs A) SpeculationOp where
  init t := (∀ i, ∃ app, R.Initial app ∧ t.logs i = Log.fresh app) ∧ (∀ i, t.histories i = []) ∧
    (∀ i, t.snapshots i = []) ∧ t.replies = []
  step := Step

/-- The payloads parse, unless the request is a duplicate. -/
def PayloadsParse : List SpeculationOp → SpeculativeLogs A → SpeculationOp → Prop
  | _, t, .addEntry i clientId clientSeq req checkDup =>
    (checkDup = true ∧ ((t.logs i).clientRecord.update clientId clientSeq).2 = false) ∨
      Request.Parses ⟨clientId, clientSeq, req⟩
  | _, _, _ => True

/-- The payloads parse, and the application can do what it is asked for: to go back, to take a
snapshot, and to be replaced by one. -/
def Guarded (R : Rollback A) (ops : List SpeculationOp) (t : SpeculativeLogs A)
    (op : SpeculationOp) : Prop :=
  PayloadsParse ops t op ∧
    match op with
    | .abort i seq => seq = (t.logs i).nextSeq ∨ R.CanAbort (t.logs i).app
    | .takeSnapshot i => R.CanSnapshot (t.logs i).app
    | .resetToSnapshot i _ reply _ =>
      if reply.snapshot.isSome then R.CanReplace (t.logs i).app
      else (t.logs i).committedCheckpoint.seq + 1 = (t.logs i).nextSeq ∨
        R.CanAbort (t.logs i).app
    | _ => True

end SpeculativeLogs

/-! ### The application in an operation of the log -/

namespace Log

variable {l l' : Log A} [Application A]

section
variable [Sha256] [PaddedRequestData]

/-- An entry that is added is executed. -/
lemma append_app {c s : UInt32} {req : Bytes} {res : Option Bytes}
    (h : l.append c s req = .ok (l', res)) :
    res = none ∧ l'.app = l.app ∨
      ∃ r, res = some r ∧ l'.nextSeq = l.nextSeq + 1 ∧
        Application.execute l.app (Request.payload ⟨c, s, req⟩) l.nextSeq = .ok (l'.app, r) := by
  obtain ⟨d, -, h⟩ := bind_eq_ok.mp h
  rw [Request.payload]
  cases hreq : reqData req with
  | none =>
      rw [hreq] at h
      cases pure_eq_ok.mp h
      exact .inl ⟨rfl, rfl⟩
  | some data =>
      rw [hreq] at h
      obtain ⟨⟨app, r⟩, hexec, h⟩ := bind_eq_ok.mp h
      cases pure_eq_ok.mp h
      exact .inr ⟨r, rfl, rfl, hexec⟩

lemma addEntry_app {c s : UInt32} {req : Bytes} {checkDup : Bool} {res : Option Bytes}
    (h : l.addEntry c s req checkDup = .ok (l', res)) :
    res = none ∧ l'.app = l.app ∨
      ∃ r, res = some r ∧ l'.nextSeq = l.nextSeq + 1 ∧
        Application.execute l.app (Request.payload ⟨c, s, req⟩) l.nextSeq = .ok (l'.app, r) := by
  rw [addEntry] at h
  split_ifs at h with hdup
  · dsimp only at h
    split_ifs at h with hnew
    · have happend := append_app h
      exact happend
    · cases h
      exact .inl ⟨rfl, rfl⟩
  · exact append_app h

/-- The entries of a reply are executed one after the other. -/
lemma addEntries_app (R : Rollback A) {start c : ℕ} {ds : List Bytes} {es : List LogEntryProto}
    (hl : R.Holds l.app c ds) (hnext : l.nextSeq = ds.length + 1)
    (h : addEntries start l es = .ok (l', true)) :
    R.Holds l'.app c (ds ++ (es.filter (start ≤ ·.seq)).map (·.toRequest.payload)) := by
  induction es generalizing l ds with
  | nil =>
      cases Except.ok.inj h
      rwa [List.filter_nil, List.map_nil, List.append_nil]
  | cons e es ih =>
      rw [addEntries] at h
      split_ifs at h with hlt
      · rw [List.filter_cons_of_neg (by simpa using hlt)]
        exact ih hl hnext h
      · obtain ⟨⟨l₁, res⟩, hadd, h⟩ := bind_eq_ok.mp h
        rcases addEntry_app hadd with ⟨rfl, -⟩ | ⟨r, rfl, hnext₁, hexec⟩
        · cases pure_eq_ok.mp h
        · rw [hnext] at hexec
          have hl₁ := ih (R.execute hl hexec)
            (by rw [hnext₁, hnext, List.length_append, List.length_singleton]) h
          rw [List.append_assoc] at hl₁
          rw [List.filter_cons_of_pos (by simpa using hlt)]
          exact hl₁

end

/-- Where the log is cut, the application goes back. -/
lemma abort_app {p : ℕ} (h : l.abort p = .ok l') :
    l.nextSeq ≤ p ∧ l'.app = l.app ∨
      p < l.nextSeq ∧ Application.abort l.app p = .ok l'.app := by
  rw [abort] at h
  split_ifs at h with hlast hcommitted
  · cases h
    exact .inl ⟨hlast, rfl⟩
  · obtain ⟨log, -, h⟩ := bind_eq_ok.mp h
    obtain ⟨app, happ, h⟩ := bind_eq_ok.mp h
    cases pure_eq_ok.mp h
    exact .inr ⟨Nat.lt_of_not_le hlast, happ⟩

/-- At the start of a reset the application is replaced, or goes back to the committed
position. -/
lemma startSnapshot_app {reply : SnapshotReply} {cp : LogCheckpoint} {start : ℕ}
    (h : l.startSnapshot reply cp = .ok (some (l', start))) :
    l'.nextSeq = start ∧
      ((∃ snapshot p, reply.snapshot = some snapshot ∧ reply.snapshotCheckpoint = some p ∧
        start = p.seq + 1 ∧
        Application.applySnapshot l.app snapshot p.appDigest p.seq = .ok (some l'.app)) ∨
      (reply.snapshot = none ∧ start = l.committedCheckpoint.seq + 1 ∧
        ∃ l₀, l.abort start = .ok l₀ ∧ l'.app = l₀.app)) := by
  rw [startSnapshot] at h
  split at h
  · rename_i snapshot hsnap
    split at h
    · cases h
    rename_i p hp
    obtain ⟨scp, hscp, h⟩ := bind_eq_ok.mp h
    obtain ⟨hseq, -, happ, -, -⟩ := LogCheckpoint.ofProto_eq hscp
    obtain ⟨res, happly, h⟩ := bind_eq_ok.mp h
    cases res with
    | none => cases pure_eq_ok.mp h
    | some app =>
        cases pure_eq_ok.mp h
        rw [hseq, happ] at happly
        exact ⟨rfl, .inl ⟨snapshot, p, hsnap, hp, by rw [hseq], happly⟩⟩
  · rename_i hsnap
    obtain ⟨l₀, habort, h⟩ := bind_eq_ok.mp h
    cases pure_eq_ok.mp h
    exact ⟨(abort_nextSeq habort).1, .inr ⟨hsnap, rfl, l₀, habort, rfl⟩⟩

/-- A reset starts the log again and adds the entries of the reply. -/
lemma resetToSnapshot_app [Sha256] [PaddedRequestData] {reply : SnapshotReply}
    (h : l.resetToSnapshot reply = .ok (l', true)) :
    ∃ cp l₁ l₂ start, l.startSnapshot reply cp = .ok (some (l₁, start)) ∧
      addEntries start l₁ reply.logEntries = .ok (l₂, true) ∧ l'.app = l₂.app := by
  obtain ⟨cp, -, h⟩ := bind_eq_ok.mp h
  obtain ⟨res, hstart, h⟩ := bind_eq_ok.mp h
  cases res with
  | none => cases pure_eq_ok.mp h
  | some res =>
      obtain ⟨⟨l₂, ok⟩, hadd, h⟩ := bind_eq_ok.mp h
      cases ok with
      | false => cases pure_eq_ok.mp h
      | true =>
          obtain ⟨-, -, rfl⟩ := finishSnapshot_eq h
          exact ⟨cp, res.1, l₂, res.2, hstart, hadd, rfl⟩

/-- A checkpoint ahead of the committed one is committed. -/
lemma setCheckpoint_app {cp : LogCheckpoint} (h : l.setCheckpoint cp = .ok l') :
    (cp.seq ≤ l.committedCheckpoint.seq ∧ l'.app = l.app ∧
        l'.committedCheckpoint = l.committedCheckpoint ∨
      l.committedCheckpoint.seq < cp.seq ∧ Application.commit l.app cp.seq = .ok l'.app ∧
        l'.committedCheckpoint = cp) ∧
      (l'.stableCheckpoint = l.stableCheckpoint ∨
        cp.appDigest ≠ [] ∧ l'.stableCheckpoint = cp) := by
  obtain ⟨l₁, hcommit, h⟩ := bind_eq_ok.mp h
  have hstable : l'.app = l₁.app ∧ l'.committedCheckpoint = l₁.committedCheckpoint ∧
      (l'.stableCheckpoint = l₁.stableCheckpoint ∨
        cp.appDigest ≠ [] ∧ l'.stableCheckpoint = cp) := by
    rw [stabilizeCheckpoint] at h
    split at h
    · rename_i hahead
      obtain ⟨log, -, h⟩ := bind_eq_ok.mp h
      split at h
      · cases h
      cases pure_eq_ok.mp h
      exact ⟨rfl, rfl, .inr ⟨hahead.1, rfl⟩⟩
    · cases h
      exact ⟨rfl, rfl, .inl rfl⟩
  obtain ⟨happ, hcommitted, hstable⟩ := hstable
  rw [commitCheckpoint] at hcommit
  split_ifs at hcommit with hlt
  · obtain ⟨app, hc, hcommit⟩ := bind_eq_ok.mp hcommit
    cases pure_eq_ok.mp hcommit
    exact ⟨.inr ⟨hlt, by rw [happ]; exact hc, hcommitted⟩, hstable⟩
  · cases hcommit
    exact ⟨.inl ⟨Nat.le_of_not_lt hlt, happ, hcommitted⟩, hstable⟩

end Log

/-! ### The invariant of one log -/

section

variable [Sha256] [PaddedRequestData] [Application A] {R : Rollback A}

/-- A snapshot taken of an application that has executed the requests `h`. -/
def SnapshotOf (R : Rollback A) (snapshot : Bytes) (h : List Request) : Prop :=
  ∃ app c, R.Holds app c (h.map Request.payload) ∧ R.CanSnapshot app ∧
    (Application.takeSnapshot app).snapshot = snapshot

/-- The application of a log has executed the requests of its history; no more than the
committed ones are committed in it, and the stable snapshot was taken after the first. -/
structure Tracks (R : Rollback A) (l : Log A) (h : List Request) : Prop where
  parsed : LogCluster.HoldsParsed l h
  app : ∃ c ≤ l.committedCheckpoint.seq, R.Holds l.app c (h.map Request.payload)
  stable : ∀ s, l.stableCheckpoint.snapshot = some s →
    SnapshotOf R s (h.take l.stableCheckpoint.seq)

namespace Tracks

variable {l l' : Log A} {h h' : List Request}

omit [Sha256] in
lemma fresh [Sha256] {app : A} (happ : R.Initial app) : Tracks R (Log.fresh app) [] where
  parsed := ⟨Log.represents_fresh app, by simp [Log.fresh]⟩
  app := ⟨0, le_rfl, R.holds_initial happ⟩
  stable _ hs := by cases hs

lemma nextSeq_eq (hl : Tracks R l h) : l.nextSeq = (h.map Request.payload).length + 1 := by
  rw [List.length_map]
  exact hl.parsed.1.nextSeq_history

/-- Adding an entry. -/
lemma addEntry (hl : Tracks R l h) {c s : UInt32} {req : Bytes} {checkDup : Bool}
    {res : Option Bytes} (hadd : l.addEntry c s req checkDup = .ok (l', res))
    (hp : checkDup = true ∧ (l.clientRecord.update c s).2 = false ∨
      Request.Parses ⟨c, s, req⟩) :
    Tracks R l' (if res.isSome then h ++ [⟨c, s, req⟩] else h) := by
  obtain ⟨hstable, hcommitted⟩ := Log.addEntry_checkpoints hadd
  obtain ⟨k, hk, happ⟩ := hl.app
  have hparsed := hl.parsed.addEntry hadd hp
  rcases Log.addEntry_app hadd with ⟨rfl, heq⟩ | ⟨r, rfl, -, hexec⟩
  · refine ⟨hparsed, ⟨k, by rwa [hcommitted], by rw [heq]; exact happ⟩, fun s hs => ?_⟩
    rw [hstable] at hs ⊢
    exact hl.stable s hs
  · rw [hl.nextSeq_eq] at hexec
    have happ' := R.execute happ hexec
    rw [if_pos (by rfl)] at hparsed ⊢
    refine ⟨hparsed, ⟨k, by rwa [hcommitted], ?_⟩, fun s hs => ?_⟩
    · rw [List.map_append]
      exact happ'
    · rw [hstable] at hs ⊢
      rw [List.take_append_of_le_length hl.parsed.1.stable_le_length]
      exact hl.stable s hs

/-- What the application can be asked for above the committed position: the log goes back to
every position. -/
lemma exists_abort (hl : Tracks R l h) {p : ℕ} (hc : l.committedCheckpoint.seq < p)
    (hp : p ≤ l.nextSeq) (hcan : p = l.nextSeq ∨ R.CanAbort l.app) : ∃ l', l.abort p = .ok l' := by
  obtain ⟨k, hk, happ⟩ := hl.app
  have hnext := hl.nextSeq_eq
  cases habort : l.abort p with
  | ok l' => exact ⟨l', rfl⟩
  | error fault =>
      rcases hl.parsed.1.toWellFormed.abort_error habort with ⟨hle, -⟩ | herr
      · omega
      · exfalso
        rcases hcan with rfl | hcan
        · rw [Log.abort, if_pos le_rfl] at habort
          cases habort
        · by_cases hlast : p = l.nextSeq
          · rw [Log.abort, if_pos hlast.ge] at habort
            cases habort
          · obtain ⟨a', ha', -⟩ := R.abort happ (by omega : k < p) (by omega) hcan
            rw [herr] at ha'
            cases ha'

/-- Going back to a position. -/
lemma abort (hl : Tracks R l h) {p : ℕ} (hc : l.committedCheckpoint.seq < p)
    (hp : p ≤ l.nextSeq) (hcan : p = l.nextSeq ∨ R.CanAbort l.app) (habort : l.abort p = .ok l') :
    Tracks R l' (h.take (p - 1)) := by
  obtain ⟨k, hk, happ⟩ := hl.app
  have hnext := hl.nextSeq_eq
  obtain ⟨-, hstable, hcommitted⟩ := Log.abort_nextSeq habort
  have hparsed : LogCluster.HoldsParsed l' (h.take (p - 1)) := by
    obtain ⟨app, rfl⟩ := hl.parsed.1.abort_eq hc hp habort
    exact ⟨hl.parsed.1.take hc hp app, fun e he => hl.parsed.2 e (List.mem_of_mem_take he)⟩
  refine ⟨hparsed, ⟨k, by rwa [hcommitted], ?_⟩, fun s hs => ?_⟩
  · rw [List.map_take]
    rcases Log.abort_app habort with ⟨hlast, heq⟩ | ⟨hlt, happ'⟩
    · rw [heq, List.take_of_length_le (by omega)]
      exact happ
    · obtain ⟨a', ha', hholds⟩ := R.abort happ (by omega : k < p) (by omega)
        (hcan.resolve_left (by omega))
      rw [happ'] at ha'
      rwa [Except.ok.inj ha']
  · have hle := hl.parsed.1.stable_le
    rw [hstable] at hs ⊢
    rw [List.take_take, Nat.min_eq_left (by omega)]
    exact hl.stable s hs

/-- Moving the checkpoints; the snapshot of a new stable one was taken after its requests. -/
lemma setCheckpoint (hl : Tracks R l h) {cp : LogCheckpoint} (hlt : cp.seq < l.nextSeq)
    (hdigest : l.getDigestAt cp.seq = .ok cp.logDigest)
    (hsnap : cp.appDigest ≠ [] → ∀ s, cp.snapshot = some s → SnapshotOf R s (h.take cp.seq))
    (hset : l.setCheckpoint cp = .ok l') : Tracks R l' h := by
  obtain ⟨k, hk, happ⟩ := hl.app
  have hnext := hl.nextSeq_eq
  have hparsed : LogCluster.HoldsParsed l' h := by
    refine ⟨hl.parsed.1.setCheckpoint hlt hdigest hset, fun e he => hl.parsed.2 e ?_⟩
    obtain ⟨_, _, _, _, rfl, -, ⟨-, rfl⟩ | ⟨-, -, -, rfl⟩⟩ :=
      Log.setCheckpoint_cases hl.parsed.1.toWellFormed hlt hset
    · exact he
    · exact List.mem_of_mem_drop he
  obtain ⟨hcommit, hstable⟩ := Log.setCheckpoint_app hset
  refine ⟨hparsed, ?_, fun s hs => ?_⟩
  · rcases hcommit with ⟨-, heq, hcommitted⟩ | ⟨hahead, hcommit, hcommitted⟩
    · exact ⟨k, by rwa [hcommitted], by rw [heq]; exact happ⟩
    · obtain ⟨a', ha', hholds⟩ := R.commit happ (by omega : k < cp.seq) (by omega)
      rw [hcommit] at ha'
      exact ⟨cp.seq, by rw [hcommitted], by rwa [Except.ok.inj ha']⟩
  · rcases hstable with hsame | ⟨hdig, hnew⟩
    · rw [hsame] at hs ⊢
      exact hl.stable s hs
    · rw [hnew] at hs ⊢
      exact hsnap hdig s hs

/-- A reset by a reply that carries the history `h'`. -/
lemma resetToSnapshot (hl : Tracks R l h) {lastSeq : ℕ} {reply : SnapshotReply}
    (hreply : LogCluster.Carries lastSeq reply h')
    (hsnap : ∀ s p, reply.snapshot = some s → reply.snapshotCheckpoint = some p →
      SnapshotOf R s (h'.take p.seq))
    (hlast : lastSeq ≤ l.committedCheckpoint.seq) (hahead : l.committedCheckpoint.seq < reply.seq)
    (hcan : if reply.snapshot.isSome then R.CanReplace l.app
      else l.committedCheckpoint.seq + 1 = l.nextSeq ∨ R.CanAbort l.app)
    {ok : Bool} (hreset : l.resetToSnapshot reply = .ok (l', ok)) :
    Tracks R l' (if ok then LogCluster.resetHistory l h reply h' else h) := by
  rcases hl.parsed.resetToSnapshot hreply hlast hahead hreset with ⟨rfl, rfl⟩ | ⟨rfl, hparsed⟩
  · rw [if_neg (by decide)]
    exact hl
  obtain ⟨cp', hcp, hcommitted, -, -, -, -, hcases⟩ :=
    Log.resetToSnapshot_cases hl.parsed.1.toWellFormed hreset
  have hseq : l'.committedCheckpoint.seq = reply.seq := by
    rw [hcommitted, (LogCheckpoint.ofProto_eq hcp).1, hreply.checkpoint_seq]
  obtain ⟨cp, l₁, l₂, start, hstart, hadd, happ₂⟩ := Log.resetToSnapshot_app hreset
  obtain ⟨hnext₁, hstart⟩ := Log.startSnapshot_app hstart
  rw [if_pos rfl]
  rw [LogCluster.resetHistory] at hparsed ⊢
  rcases hstart with ⟨snapshot, p, hsome, hp, rfl, happly⟩ | ⟨hnone, rfl, l₀, habort, happ₁⟩
  · -- the application is replaced, and executes the entries above the snapshot
    rw [if_pos (by rw [hsome]; rfl)] at hparsed hcan ⊢
    obtain ⟨a, c, ha, hcana, htake⟩ := hsnap _ _ hsome hp
    obtain ⟨hple, -⟩ := hreply.snapshotCheckpoint p hp
    have hlen : ((h'.take p.seq).map Request.payload).length = p.seq := by
      rw [List.length_map, List.length_take, hreply.length_eq, Nat.min_eq_left hple]
    rw [← htake, ← hlen] at happly
    have happ := R.applySnapshot ha hcana hcan happly
    rw [hlen] at happ
    have happ := Log.addEntries_app R happ (by rw [hnext₁, hlen]) hadd
    have hentries := hreply.entries p.seq (by simp [hsome]) (by rw [hp]; rintro _ ⟨⟩; rfl) hple
    have hdrop : (reply.logEntries.filter (p.seq + 1 ≤ ·.seq)).map (·.toRequest.payload) =
        (h'.drop p.seq).map Request.payload := by
      rw [← hentries, Log.requestsFrom, List.map_map]
      rfl
    rw [hdrop, ← List.map_append, List.take_append_drop] at happ
    refine ⟨hparsed, ⟨p.seq, by rwa [hseq], by rwa [happ₂]⟩, fun s hs => ?_⟩
    rcases hcases with ⟨_, _, scp, -, -, hscp, hstable, -⟩ | ⟨hnone, -⟩
    · rw [hstable, (LogCheckpoint.ofProto_eq hscp).2.2.2.2] at hs
      cases hs
    · rw [hsome] at hnone
      cases hnone
  · -- the application goes back to the committed position, and executes what is above it
    rw [if_neg (by rw [hnone]; decide)] at hparsed hcan ⊢
    have hl₀ := hl.abort (p := l.committedCheckpoint.seq + 1) (Nat.lt_succ_self _)
      hl.parsed.1.committed_lt hcan habort
    rw [Nat.add_sub_cancel] at hl₀
    obtain ⟨k, hk, happ⟩ := hl₀.app
    rw [(Log.abort_nextSeq habort).2.2] at hk
    have hnext₀ := hl₀.nextSeq_eq
    rw [(Log.abort_nextSeq habort).1] at hnext₀
    rw [← happ₁] at happ
    have happ := Log.addEntries_app R happ (by rw [hnext₁, hnext₀]) hadd
    have hentries := hreply.entries l.committedCheckpoint.seq (fun _ => hlast)
      (by rw [hreply.checkpoint_of_snapshot hnone]; rintro _ ⟨⟩) hahead.le
    have hdrop : (reply.logEntries.filter (l.committedCheckpoint.seq + 1 ≤ ·.seq)).map
        (·.toRequest.payload) = (h'.drop l.committedCheckpoint.seq).map Request.payload := by
      rw [← hentries, Log.requestsFrom, List.map_map]
      rfl
    rw [hdrop, ← List.map_append] at happ
    refine ⟨hparsed, ⟨k, by omega, by rwa [happ₂]⟩, fun s hs => ?_⟩
    rcases hcases with ⟨snapshot, _, _, hsome, -⟩ | ⟨-, hstable, -⟩
    · rw [hsome] at hnone
      cases hnone
    · have hle := hl.parsed.1.stable_le
      rw [hstable] at hs ⊢
      have hcommitted_le := hl.parsed.1.committed_le
      rw [List.take_append_of_le_length (by rw [List.length_take]; omega), List.take_take,
        Nat.min_eq_left hle]
      exact hl.stable s hs

/-- A snapshot reply carries the stable snapshot of the log, taken after its requests. -/
lemma snapshotReply (hl : Tracks R l h) {round i lastSeq : ℕ} {reply : SnapshotReply}
    (hserve : l.snapshotReply round i lastSeq = .ok reply) :
    LogCluster.Carries lastSeq reply (h.take l.committedCheckpoint.seq) ∧
      ∀ s p, reply.snapshot = some s → reply.snapshotCheckpoint = some p →
        SnapshotOf R s ((h.take l.committedCheckpoint.seq).take p.seq) := by
  refine ⟨hl.parsed.carries hserve, fun s p hs hp => ?_⟩
  rw [Log.snapshotReply] at hserve
  split at hserve
  · cases hserve
  obtain ⟨es, -, hserve⟩ := bind_eq_ok.mp hserve
  cases pure_eq_ok.mp hserve
  dsimp only at hs hp
  split_ifs at hs hp with hlt
  obtain rfl := Option.some.inj hp
  have hseq : l.stableCheckpoint.toProto.seq = l.stableCheckpoint.seq := by
    rw [LogCheckpoint.toProto, if_pos (by omega)]
  rw [hseq, List.take_take, Nat.min_eq_left hl.parsed.1.stable_le]
  exact hl.stable s hs

end Tracks

/-! ### The invariant of all logs -/

namespace SpeculativeLogs

/-- The applications follow their logs, and every snapshot taken or sent is one of the
requests it is said to stand for. -/
structure Consistent (R : Rollback A) (t : SpeculativeLogs A) : Prop where
  logs : ∀ i, Tracks R (t.logs i) (t.histories i)
  snapshots : ∀ i, ∀ x ∈ t.snapshots i, ∃ h : List Request, h.length = x.seq ∧
    logDigest h = x.logDigest ∧ SnapshotOf R x.snapshot.snapshot h
  replies : ∀ r ∈ t.replies, LogCluster.Carries r.1 r.2.1 r.2.2 ∧
    ∀ s p, r.2.1.snapshot = some s → r.2.1.snapshotCheckpoint = some p →
      SnapshotOf R s (r.2.2.take p.seq)

variable {t t' : SpeculativeLogs A}

omit [Sha256] in
lemma Consistent.set [Sha256] (ht : t.Consistent R) {i : ℕ} {l : Log A} {h : List Request}
    (hl : Tracks R l h) : (t.set i l h).Consistent R where
  logs j := by
    show Tracks R (Function.update t.logs i l j) (Function.update t.histories i h j)
    by_cases hj : j = i
    · subst hj
      rw [Function.update_self, Function.update_self]
      exact hl
    · rw [Function.update_of_ne hj, Function.update_of_ne hj]
      exact ht.logs j
  snapshots := ht.snapshots
  replies := ht.replies

/-- **Every operation keeps the invariant**, if it is guarded. -/
theorem Consistent.step (hc : CollisionFree) {ops : List SpeculationOp} {op : SpeculationOp}
    (ht : t.Consistent R) (hg : Guarded R ops t op) (hstep : Step t op t') : t'.Consistent R := by
  obtain ⟨hparse, hcan⟩ := hg
  cases op with
  | addEntry i clientId clientSeq req checkDup =>
      obtain ⟨l, res, hadd, rfl⟩ := hstep
      exact ht.set ((ht.logs i).addEntry hadd hparse)
  | abort i seq =>
      obtain ⟨hcommitted, hle, l, habort, rfl⟩ := hstep
      exact ht.set ((ht.logs i).abort hcommitted hle hcan habort)
  | takeSnapshot i =>
      cases hstep
      obtain ⟨k, hk, happ⟩ := (ht.logs i).app
      refine ⟨ht.logs, fun j x hx => ?_, ht.replies⟩
      change x ∈ Function.update t.snapshots i _ j at hx
      by_cases hj : j = i
      · subst hj
        rw [Function.update_self] at hx
        rcases List.mem_cons.mp hx with rfl | hx
        · have hnext := (ht.logs j).parsed.1.nextSeq_history
          exact ⟨t.histories j, by dsimp only; omega, (ht.logs j).parsed.1.getDigest_eq.symm,
            _, k, happ, hcan, rfl⟩
        · exact ht.snapshots j x hx
      · rw [Function.update_of_ne hj] at hx
        exact ht.snapshots j x hx
  | setCheckpoint i cp =>
      obtain ⟨hlt, hdigest, hsnap, l, hset, rfl⟩ := hstep
      have hl := ht.logs i
      have hnext := hl.parsed.1.nextSeq_history
      refine ht.set (hl.setCheckpoint hlt hdigest (fun hdig s hs => ?_) hset)
      obtain ⟨x, hx, hseq, hlog, -, hcp⟩ := hsnap hdig
      obtain ⟨h, hlen, hd, hof⟩ := ht.snapshots i x hx
      obtain rfl := Option.some.inj (hcp.symm.trans hs)
      -- the digests of the logs at the snapshot and at the checkpoint are equal
      have hstable : (t.logs i).stableCheckpoint.seq ≤ cp.seq := by
        rcases hl.parsed.1.getDigestAt cp.seq with ⟨hs, -, -⟩ | ⟨-, herr⟩
        · exact hs
        · rw [hdigest] at herr
          cases herr
      rw [hl.parsed.1.getDigestAt_eq hstable (by omega)] at hdigest
      have heq : h = (t.histories i).take cp.seq := by
        refine logDigest_inj_of_length hc ?_ ?_
        · rw [hlen, hseq, List.length_take]
          omega
        · rw [hd, hlog, Except.ok.inj hdigest]
      rwa [heq] at hof
  | serveSnapshot i round lastSeq =>
      obtain ⟨reply, hserve, rfl⟩ := hstep
      refine ⟨ht.logs, ht.snapshots, fun r hr => ?_⟩
      rcases List.mem_cons.mp hr with rfl | hr
      · exact (ht.logs i).snapshotReply hserve
      · exact ht.replies r hr
  | resetToSnapshot i lastSeq reply history =>
      obtain ⟨hmem, hlast, hahead, l, ok, hreset, rfl⟩ := hstep
      obtain ⟨hcarries, hsnap⟩ := ht.replies _ hmem
      exact ht.set ((ht.logs i).resetToSnapshot hcarries hsnap hlast hahead hcan hreset)

/-- **In every run** of guarded operations the applications follow their logs. -/
theorem consistent (hc : CollisionFree) {ops : List SpeculationOp}
    (hrun : Run (system R) (Guarded R) ops t) : t.Consistent R := by
  refine hrun.invariant (P := fun _ t => t.Consistent R) ?_ ?_
  · rintro t ⟨hlogs, hhist, hsnaps, hreplies⟩
    refine ⟨fun i => ?_, by simp [hsnaps], by simp [hreplies]⟩
    obtain ⟨app, happ, hlog⟩ := hlogs i
    rw [hlog, hhist]
    exact .fresh happ
  · intro ops t op t' _ ht hg hstep
    exact ht.step hc hg hstep

end SpeculativeLogs

end

/-! ### The application follows the log -/

/-- A log over an application that goes back, with the requests executed at its positions: the
state is that after these requests, every position above the committed one can be gone back
to, which restores the state before it, and can be committed. -/
structure Follows [Sha256] [PaddedRequestData] [Application A] (R : Rollback A) (l : Log A)
    (h : List Request) : Prop where
  represents : l.Represents h
  state_eq : R.state l.app = R.replay (h.map Request.payload)
  abort : ∀ p, l.committedCheckpoint.seq < p → p ≤ l.nextSeq →
    (p = l.nextSeq ∨ R.CanAbort l.app) →
    ∃ l', l.abort p = .ok l' ∧ R.state l'.app = R.replay ((h.take (p - 1)).map Request.payload)
  commit : ∀ p, l.committedCheckpoint.seq < p → p < l.nextSeq →
    ∃ app, Application.commit l.app p = .ok app

lemma Tracks.follows [Sha256] [PaddedRequestData] [Application A] {R : Rollback A} {l : Log A}
    {h : List Request} (hl : Tracks R l h) : Follows R l h where
  represents := hl.parsed.1
  state_eq := by
    obtain ⟨k, -, happ⟩ := hl.app
    exact R.state_eq happ
  abort p hc hp hcan := by
    obtain ⟨l', habort⟩ := hl.exists_abort hc hp hcan
    obtain ⟨k, -, happ⟩ := (hl.abort hc hp hcan habort).app
    exact ⟨l', habort, R.state_eq happ⟩
  commit p hc hp := by
    obtain ⟨k, hk, happ⟩ := hl.app
    have hnext := hl.nextSeq_eq
    obtain ⟨a', ha', -⟩ := R.commit happ (by omega : k < p) (by omega)
    exact ⟨a', ha'⟩

section

attribute [local instance] prefixSha shortPaddedRequestData counterWire kvWire sortedWalk

/-- The padded request that sets a key of one byte to a value of one byte. -/
def setRequest (key value : UInt8) : Bytes := [10, 8, 8, 1, 18, 1, key, 26, 1, value]

/-- Fresh logs over stores with one key. -/
def freshStores : SpeculativeLogs KVStore where
  logs _ := Log.fresh (KVStore.create 1 0)
  histories _ := []
  snapshots _ := []
  replies := []

/-- Runs in which the payloads parse, of logs over stores with one key. -/
abbrev StoreRun (t : SpeculativeLogs KVStore) : Prop :=
  ∃ ops, Run (SpeculativeLogs.system (KVStore.rollback 1)) SpeculativeLogs.PayloadsParse ops t

lemma storeRun_freshStores : StoreRun freshStores :=
  ⟨[], .start ⟨fun _ => ⟨_, ⟨0, rfl⟩, rfl⟩, fun _ => rfl, fun _ => rfl, rfl⟩⟩

/-- A replica sets a key. -/
def playSet (i : ℕ) (s : UInt32) (key value : UInt8) (t : SpeculativeLogs KVStore) :
    Except Fault (SpeculativeLogs KVStore) := do
  match ← (t.logs i).addEntry 0 s (setRequest key value) with
  | (_, none) => .error .assertion
  | (l, some _) => return t.set i l (t.histories i ++ [⟨0, s, setRequest key value⟩])

/-- A replica takes a snapshot and makes it its stable checkpoint. -/
def playCheckpoint (i : ℕ) (t : SpeculativeLogs KVStore) :
    Except Fault (SpeculativeLogs KVStore) := do
  let l := t.logs i
  let cp : LogCheckpoint := {
    seq := l.nextSeq - 1
    logDigest := l.getDigest
    appDigest := l.app.takeSnapshot.digest
    snapshot := some l.app.takeSnapshot.snapshot }
  let digest ← l.getDigestAt cp.seq
  if cp.seq < l.nextSeq ∧ digest = cp.logDigest then
    return (t.takeSnapshot i).set i (← l.setCheckpoint cp) (t.histories i)
  else .error .assertion

/-- A replica answers the snapshot request of another one, which has nothing committed yet. -/
def playReset (i j : ℕ) (t : SpeculativeLogs KVStore) :
    Except Fault (SpeculativeLogs KVStore) := do
  let reply ← (t.logs j).snapshotReply 0 j 0
  let history := (t.histories j).take (t.logs j).committedCheckpoint.seq
  let t := { t with replies := (0, reply, history) :: t.replies }
  if (t.logs i).committedCheckpoint.seq < reply.seq then
    let (l, ok) ← (t.logs i).resetToSnapshot reply
    return t.set i l (if ok then
      LogCluster.resetHistory (t.logs i) (t.histories i) reply history else t.histories i)
  else .error .assertion

/-- A replica goes back to a position. -/
def playAbort (i p : ℕ) (t : SpeculativeLogs KVStore) : Except Fault (SpeculativeLogs KVStore) := do
  if (t.logs i).committedCheckpoint.seq < p ∧ p ≤ (t.logs i).nextSeq then
    return t.set i (← (t.logs i).abort p) ((t.histories i).take (p - 1))
  else .error .assertion

lemma playSet_run {i : ℕ} {s : UInt32} {key value : UInt8} {t t' : SpeculativeLogs KVStore}
    (ht : StoreRun t) (hparses : (reqData (setRequest key value)).isSome)
    (h : playSet i s key value t = .ok t') : StoreRun t' := by
  obtain ⟨ops, hrun⟩ := ht
  obtain ⟨⟨l, res⟩, hadd, h⟩ := bind_eq_ok.mp h
  cases res with
  | none => cases h
  | some res =>
      cases pure_eq_ok.mp h
      exact ⟨_, hrun.step (e := SpeculationOp.addEntry i 0 s (setRequest key value) true)
        (.inr hparses) ⟨l, some res, hadd, rfl⟩⟩

lemma playCheckpoint_run {i : ℕ} {t t' : SpeculativeLogs KVStore} (ht : StoreRun t)
    (h : playCheckpoint i t = .ok t') : StoreRun t' := by
  obtain ⟨ops, hrun⟩ := ht
  obtain ⟨digest, hdigest, h⟩ := bind_eq_ok.mp h
  split_ifs at h with hcp
  obtain ⟨l, hset, h⟩ := bind_eq_ok.mp h
  cases pure_eq_ok.mp h
  have hrun := hrun.step (e := SpeculationOp.takeSnapshot i) trivial rfl
  obtain ⟨hlt, rfl⟩ := hcp
  have hmem : (⟨(t.logs i).nextSeq - 1, (t.logs i).getDigest,
      Application.takeSnapshot (t.logs i).app⟩ : TakenSnapshot) ∈
        (t.takeSnapshot i).snapshots i := by
    simp [SpeculativeLogs.takeSnapshot]
  exact ⟨_, hrun.step (e := SpeculationOp.setCheckpoint i _) trivial
    ⟨hlt, hdigest, fun _ => ⟨_, hmem, rfl, rfl, rfl, rfl⟩, l, hset, rfl⟩⟩

lemma playReset_run {i j : ℕ} {t t' : SpeculativeLogs KVStore} (ht : StoreRun t)
    (h : playReset i j t = .ok t') : StoreRun t' := by
  obtain ⟨ops, hrun⟩ := ht
  obtain ⟨reply, hserve, h⟩ := bind_eq_ok.mp h
  dsimp only at h
  split_ifs at h with hahead
  obtain ⟨⟨l, ok⟩, hreset, h⟩ := bind_eq_ok.mp h
  cases pure_eq_ok.mp h
  have hrun := hrun.step (e := SpeculationOp.serveSnapshot j 0 0) trivial ⟨reply, hserve, rfl⟩
  exact ⟨_, hrun.step (e := SpeculationOp.resetToSnapshot i 0 reply _) trivial
    ⟨List.mem_cons_self, Nat.zero_le _, hahead, l, ok, hreset, rfl⟩⟩

lemma playAbort_run {i p : ℕ} {t t' : SpeculativeLogs KVStore} (ht : StoreRun t)
    (h : playAbort i p t = .ok t') : StoreRun t' := by
  obtain ⟨ops, hrun⟩ := ht
  rw [playAbort] at h
  split_ifs at h with hrange
  obtain ⟨l, habort, h⟩ := bind_eq_ok.mp h
  cases pure_eq_ok.mp h
  exact ⟨_, hrun.step (e := SpeculationOp.abort i p) trivial ⟨hrange.1, hrange.2, l, habort, rfl⟩⟩

/-- One replica sets its key to `1` and to `2` and takes a checkpoint; another one has set the
key to `1` only, applies the snapshot, sets another key, and takes that back. -/
def staleScenario : Except Fault (SpeculativeLogs KVStore) := do
  let t ← playSet 1 1 48 49 freshStores
  let t ← playSet 1 2 48 50 t
  let t ← playCheckpoint 1 t
  let t ← playSet 0 1 48 49 t
  let t ← playReset 0 1 t
  let t ← playSet 0 3 49 49 t
  playAbort 0 3 t

lemma staleScenario_run {t : SpeculativeLogs KVStore} (h : staleScenario = .ok t) :
    StoreRun t := by
  obtain ⟨t₁, h₁, h⟩ := bind_eq_ok.mp h
  obtain ⟨t₂, h₂, h⟩ := bind_eq_ok.mp h
  obtain ⟨t₃, h₃, h⟩ := bind_eq_ok.mp h
  obtain ⟨t₄, h₄, h⟩ := bind_eq_ok.mp h
  obtain ⟨t₅, h₅, h⟩ := bind_eq_ok.mp h
  obtain ⟨t₆, h₆, h⟩ := bind_eq_ok.mp h
  have hrun := playSet_run (playSet_run storeRun_freshStores rfl h₁) rfl h₂
  have hrun := playSet_run (playCheckpoint_run hrun h₃) rfl h₄
  exact playAbort_run (playSet_run (playReset_run hrun h₅) rfl h₆) h

end

end DomBft
