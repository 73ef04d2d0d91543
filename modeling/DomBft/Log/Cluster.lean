import DomBft.Log.History
import DomBft.Lib.Run

/-!
The logs of the correct replicas under every sequence of operations, snapshots included: a
reply that resets one log has been built from another one, earlier in the run.

* `LogCluster`, `LogOp`, `LogCluster.system`: the logs, the operations on them and the
  snapshot replies in flight, as a transition system.
* `PayloadsParse`: the condition that every payload handed to `addEntry` parses.
* `LogCluster.Consistent`, the invariant: every log represents a history, and every reply
  the part of one up to its position.
* `RepresentationInvariant`, `AssertionsHold`: what the invariant says about one log;
  `log_representation_invariant` is **the representation invariant over every run**.
-/

namespace DomBft

open Fallible Transition

variable {A : Type}

/-- The logs of the correct replicas, and the snapshot replies these have built, each with
the checkpoint position in the request that it answers. -/
structure LogCluster (A : Type) where
  logs : ℕ → Log A
  replies : List (ℕ × SnapshotReply)

/-- The operations on the logs; the first number says on which one. -/
inductive LogOp where
  | addEntry (i : ℕ) (clientId clientSeq : UInt32) (req : Bytes) (checkDup : Bool)
  | addCert (i seq : ℕ) (cert : Cert)
  | setDeadline (i seq deadline : ℕ)
  | abort (i seq : ℕ)
  | setCheckpoint (i : ℕ) (cp : LogCheckpoint)
  | serveSnapshot (i round lastSeq : ℕ)
  | resetToSnapshot (i lastSeq : ℕ) (reply : SnapshotReply)
  | applySnapshotModifyLog (i lastSeq : ℕ) (reply : SnapshotReply)

namespace LogCluster

/-- The cluster with another log at one replica. -/
def set (c : LogCluster A) (i : ℕ) (l : Log A) : LogCluster A :=
  { c with logs := Function.update c.logs i l }

variable [Sha256] [PaddedRequestData] [Application A]

/-- One operation.  `abort` and `setCheckpoint` are called in the range the replica calls
them in; a snapshot reply is used where it answers a request with a checkpoint position that
the log has already committed, and is itself ahead of the log. -/
def Step (c : LogCluster A) (op : LogOp) (c' : LogCluster A) : Prop :=
  match op with
  | .addEntry i clientId clientSeq req checkDup =>
    ∃ l res, (c.logs i).addEntry clientId clientSeq req checkDup = .ok (l, res) ∧ c' = c.set i l
  | .addCert i seq cert => ∃ l ok, (c.logs i).addCert seq cert = .ok (l, ok) ∧ c' = c.set i l
  | .setDeadline i seq deadline =>
    ∃ l, (c.logs i).setDeadline seq deadline = .ok l ∧ c' = c.set i l
  | .abort i seq =>
    (c.logs i).committedCheckpoint.seq < seq ∧ seq ≤ (c.logs i).nextSeq ∧
      ∃ l, (c.logs i).abort seq = .ok l ∧ c' = c.set i l
  | .setCheckpoint i cp =>
    cp.seq < (c.logs i).nextSeq ∧ (c.logs i).getDigestAt cp.seq = .ok cp.logDigest ∧
      ∃ l, (c.logs i).setCheckpoint cp = .ok l ∧ c' = c.set i l
  | .serveSnapshot i round lastSeq =>
    ∃ reply, (c.logs i).snapshotReply round i lastSeq = .ok reply ∧
      c' = { c with replies := (lastSeq, reply) :: c.replies }
  | .resetToSnapshot i lastSeq reply =>
    (lastSeq, reply) ∈ c.replies ∧ lastSeq ≤ (c.logs i).committedCheckpoint.seq ∧
      (c.logs i).committedCheckpoint.seq < reply.seq ∧
      ∃ l ok, (c.logs i).resetToSnapshot reply = .ok (l, ok) ∧ c' = c.set i l
  | .applySnapshotModifyLog i lastSeq reply =>
    (lastSeq, reply) ∈ c.replies ∧ lastSeq ≤ (c.logs i).committedCheckpoint.seq ∧
      (c.logs i).committedCheckpoint.seq < reply.seq ∧
      ∃ l ok, (c.logs i).applySnapshotModifyLog reply = .ok (l, ok) ∧ c' = c.set i l

/-- All sequences of operations, from fresh logs. -/
def system (A : Type) [Application A] : System (LogCluster A) LogOp where
  init c := (∀ i, ∃ app, c.logs i = Log.fresh app) ∧ c.replies = []
  step := Step

/-- The payload of an entry parses, unless the request is a duplicate. -/
def PayloadsParse : List LogOp → LogCluster A → LogOp → Prop
  | _, c, .addEntry i clientId clientSeq req checkDup =>
    (checkDup = true ∧ ((c.logs i).clientRecord.update clientId clientSeq).2 = false) ∨
      Request.Parses ⟨clientId, clientSeq, req⟩
  | _, _, _ => True

/-! ### The invariant -/

/-- A log that holds a history whose requests parse, as far as they are kept. -/
def HoldsParsed (l : Log A) (h : List Request) : Prop :=
  l.Represents h ∧ ∀ e ∈ l.log, e.toRequest.Parses

/-- A reply to a request with checkpoint position `lastSeq` carries a history up to its own
position: the entries above `lastSeq`, or an application snapshot and the entries above
it. -/
structure Carries (lastSeq : ℕ) (reply : SnapshotReply) (h : List Request) : Prop where
  length_eq : h.length = reply.seq
  checkpoint_seq : reply.checkpoint.seq = reply.seq
  entries : ∀ start, (reply.snapshot = none → lastSeq ≤ start) →
    (∀ p, reply.snapshotCheckpoint = some p → p.seq ≤ start) → start ≤ reply.seq →
    Log.requestsFrom (start + 1) reply = h.drop start
  snapshotCheckpoint : ∀ p, reply.snapshotCheckpoint = some p → p.seq ≤ reply.seq ∧
    p.logDigest = logDigest (h.take p.seq)
  checkpoint_of_snapshot : reply.snapshot = none → reply.snapshotCheckpoint = none
  parses : ∀ e ∈ reply.logEntries, e.toRequest.Parses

/-- Every log holds a history, and every reply carries one. -/
structure Consistent (c : LogCluster A) : Prop where
  logs : ∀ i, ∃ h, HoldsParsed (c.logs i) h
  replies : ∀ r ∈ c.replies, ∃ h, Carries r.1 r.2 h

/-! ### Snapshot replies -/

omit [PaddedRequestData] [Application A] in
/-- The entries that are read from a log at consecutive positions. -/
lemma getEntries_eq {l : Log A} {h : List Request} (hr : l.Represents h) {a n : ℕ}
    {es : List LogEntry} (hs : l.stableCheckpoint.seq ≤ a) (hn : n = 0 ∨ a + n ≤ h.length)
    (hes : List.Forall₂ (fun p e => l.getEntry p = .ok e) (List.range' (a + 1) n) es) :
    es.map LogEntry.seq = List.range' (a + 1) n ∧
      es.map LogEntry.toRequest = (h.drop a).take n ∧ ∀ e ∈ es, e ∈ l.log := by
  induction n generalizing a es with
  | zero =>
      cases hes
      simp
  | succ n ih =>
      cases hes with
      | cons he hes =>
          obtain ⟨hseqs, hreqs, hmem⟩ := ih (by omega) (by omega) hes
          obtain ⟨e', hmem', hget, hseq, hreq, -⟩ := hr.getEntry_eq (p := a + 1) (by omega)
            (by omega)
          rw [hget] at he
          cases Except.ok.inj he
          rw [Nat.add_sub_cancel] at hreq
          obtain ⟨hlt, hreq⟩ := List.getElem?_eq_some_iff.mp hreq
          refine ⟨?_, ?_, fun e he => ?_⟩
          · rw [List.map_cons, hseqs, hseq]
            rfl
          · rw [List.map_cons, hreqs, List.drop_eq_getElem_cons hlt, hreq, List.take_succ_cons]
          · rcases List.mem_cons.mp he with rfl | he
            · exact hmem'
            · exact hmem e he

omit [Application A] in
/-- **A snapshot reply carries the committed part of the history it is built from.** -/
lemma HoldsParsed.carries {l : Log A} {h : List Request} (hl : HoldsParsed l h)
    {round i lastSeq : ℕ} {reply : SnapshotReply}
    (hreply : l.snapshotReply round i lastSeq = .ok reply) :
    Carries lastSeq reply (h.take l.committedCheckpoint.seq) := by
  obtain ⟨hr, hparses⟩ := hl
  have hstable := hr.stable_le
  have hcommitted := hr.committed_le
  rw [Log.snapshotReply] at hreply
  split at hreply
  · cases hreply
  rename_i hsnap
  obtain ⟨es, hes, hreply⟩ := bind_eq_ok.mp hreply
  cases pure_eq_ok.mp hreply
  rw [mapM_eq_ok, Nat.add_sub_add_right] at hes
  have hlen : (h.take l.committedCheckpoint.seq).length = l.committedCheckpoint.seq := by
    rw [List.length_take, Nat.min_eq_left hcommitted]
  refine ⟨hlen, ?_, ?_, ?_, ?_, ?_⟩
  · show l.committedCheckpoint.toProto.seq = l.committedCheckpoint.seq
    rw [LogCheckpoint.toProto]
    split
    · rfl
    · exact (by omega : (0 : ℕ) = l.committedCheckpoint.seq)
  · intro start hlast hscp hstart
    have hmax : max lastSeq l.stableCheckpoint.seq ≤ start := by
      by_cases hlt : lastSeq < l.stableCheckpoint.seq
      · have hle := hscp l.stableCheckpoint.toProto (if_pos hlt)
        rw [LogCheckpoint.toProto, if_pos (by omega)] at hle
        exact Nat.max_le.mpr ⟨(hlt.trans_le hle).le, hle⟩
      · have hle := hlast (if_neg hlt)
        exact Nat.max_le.mpr ⟨hle, (not_lt.mp hlt).trans hle⟩
    have hle : start ≤ l.committedCheckpoint.seq := hstart
    obtain ⟨hseqs, hreqs, -⟩ := getEntries_eq hr (le_max_right _ _) (by omega) hes
    rw [Log.requestsFrom, List.filter_map, List.map_map]
    show (es.filter (start + 1 ≤ ·.seq)).map LogEntry.toRequest = _
    rw [Log.filter_seq_eq_drop hseqs, List.map_drop, hreqs, ← List.drop_take, List.drop_drop]
    congr 1
    omega
  · intro p hp
    by_cases hlt : lastSeq < l.stableCheckpoint.seq
    · cases (if_pos hlt).symm.trans hp
      rw [LogCheckpoint.toProto, if_pos (by omega)]
      refine ⟨hstable, ?_⟩
      rw [List.take_take, Nat.min_eq_left hstable]
      exact hr.stable_digest
    · cases (if_neg hlt).symm.trans hp
  · intro hnone
    by_cases hlt : lastSeq < l.stableCheckpoint.seq
    · exact absurd ⟨hlt, (if_pos hlt).symm.trans hnone⟩ hsnap
    · exact if_neg hlt
  · intro e he
    obtain ⟨e, hes', rfl⟩ := List.mem_map.mp he
    exact hparses e ((getEntries_eq hr (le_max_right _ _) (by omega) hes).2.2 e hes')

/-! ### Every operation keeps the invariant -/

omit [Application A] in
lemma Consistent.set {c : LogCluster A} (hc : c.Consistent) {i : ℕ} {l : Log A}
    (hl : ∃ h, HoldsParsed l h) : (c.set i l).Consistent where
  logs j := by
    show ∃ h, HoldsParsed (Function.update c.logs i l j) h
    by_cases hj : j = i
    · subst hj
      rw [Function.update_self]
      exact hl
    · rw [Function.update_of_ne hj]
      exact hc.logs j
  replies := hc.replies

omit [Application A] in
/-- Adding entries whose requests parse. -/
lemma HoldsParsed.extend {l l' : Log A} {h rs : List Request} (hl : HoldsParsed l h)
    (hext : Log.Extends l l' rs) (hrs : ∀ a ∈ rs, a.Parses) : HoldsParsed l' (h ++ rs) := by
  refine ⟨hl.1.extend hext, fun e he => ?_⟩
  obtain ⟨new, hnew, rfl⟩ := hext.log_eq
  rw [hnew, List.mem_append] at he
  rcases he with he | he
  · exact hl.2 e he
  · exact hrs _ (List.mem_map_of_mem he)

omit [Application A] in
lemma HoldsParsed.setDeadline {l l' : Log A} {h : List Request} (hl : HoldsParsed l h)
    {seq deadline : ℕ} (hset : l.setDeadline seq deadline = .ok l') : HoldsParsed l' h := by
  refine ⟨hl.1.setDeadline hset, fun e he => ?_⟩
  have hmem := List.mem_map_of_mem (f := LogEntry.toRequest) he
  rw [Log.setDeadline_requests hset] at hmem
  obtain ⟨e', he', heq⟩ := List.mem_map.mp hmem
  rw [← heq]
  exact hl.2 e' he'

/-- An entry is added, unless the request is a duplicate. -/
lemma HoldsParsed.addEntry {l l' : Log A} {h : List Request} (hl : HoldsParsed l h)
    {c s : UInt32} {req : Bytes} {checkDup : Bool} {res : Option Bytes}
    (hadd : l.addEntry c s req checkDup = .ok (l', res))
    (hp : checkDup = true ∧ (l.clientRecord.update c s).2 = false ∨
      Request.Parses ⟨c, s, req⟩) :
    HoldsParsed l' (if res.isSome then h ++ [⟨c, s, req⟩] else h) := by
  cases checkDup with
  | false =>
      have hp : Request.Parses ⟨c, s, req⟩ := by
        rcases hp with ⟨hfalse, -⟩ | hp
        · cases hfalse
        · exact hp
      rcases Log.append_cases hl.1.toLinked hadd with ⟨hno, -⟩ | ⟨-, hsome, hext, -⟩
      · exact absurd hp hno
      · rw [if_pos hsome]
        exact hl.extend hext (by simpa using hp)
  | true =>
      rcases Log.addEntry_cases hl.1.toLinked hadd with
        ⟨-, rfl, rfl⟩ | ⟨hnew, hno, -⟩ | ⟨-, hparses, hsome, hext, -⟩
      · exact ⟨hl.1.congr rfl rfl rfl rfl, hl.2⟩
      · rcases hp with ⟨-, hdup⟩ | hp
        · rw [hnew] at hdup
          cases hdup
        · exact absurd hp hno
      · rw [if_pos hsome]
        exact hl.extend hext (by simpa using hparses)

omit [Application A] [PaddedRequestData] in
/-- A linked log over a history, whose committed checkpoint is its last position. -/
lemma represents_of_reset {l : Log A} {h : List Request} (hlinked : l.Linked)
    (hlog : l.log.map LogEntry.toRequest = h.drop l.stableCheckpoint.seq)
    (hstable : l.stableCheckpoint.seq ≤ h.length)
    (hstableDigest : l.stableCheckpoint.logDigest = logDigest (h.take l.stableCheckpoint.seq))
    (hseq : l.committedCheckpoint.seq = h.length)
    (hdigest : l.getDigest = l.committedCheckpoint.logDigest) : l.Represents h := by
  have hlen := congrArg List.length hlog
  rw [List.length_map, List.length_drop] at hlen
  have hnext := hlinked.nextSeq_eq
  have hrec : l.Records h := ⟨hlinked, by omega, hlog, hstableDigest⟩
  refine ⟨⟨hlinked, by omega, by omega⟩, hrec.nextSeq_history, hlog, hstableDigest, ?_⟩
  rw [← hdigest, hrec.getDigest_eq, hseq, List.take_length]

/-- The history of a log after a reset by a reply that carries the history `h'`. -/
def resetHistory (l : Log A) (h : List Request) (reply : SnapshotReply) (h' : List Request) :
    List Request :=
  if reply.snapshot.isSome then h'
  else h.take l.committedCheckpoint.seq ++ h'.drop l.committedCheckpoint.seq

/-- **A reset by a reply that carries a history** leaves a log that holds one. -/
lemma HoldsParsed.resetToSnapshot {l l' : Log A} {h h' : List Request} (hl : HoldsParsed l h)
    {lastSeq : ℕ} {reply : SnapshotReply} (hreply : Carries lastSeq reply h')
    (hlast : lastSeq ≤ l.committedCheckpoint.seq) (hahead : l.committedCheckpoint.seq < reply.seq)
    {ok : Bool} (hreset : l.resetToSnapshot reply = .ok (l', ok)) :
    ok = false ∧ l' = l ∨ ok = true ∧ HoldsParsed l' (resetHistory l h reply h') := by
  cases ok with
  | false =>
      rcases Log.resetToSnapshot_false hl.1.toWellFormed hreset with rfl | ⟨e, he, hbad⟩
      · exact .inl ⟨rfl, rfl⟩
      · exact absurd (hreply.parses e he) hbad
  | true =>
      obtain ⟨cp, hcp, hcommitted, -, hdigest, -, hlinked, hcases⟩ :=
        Log.resetToSnapshot_cases hl.1.toWellFormed hreset
      obtain ⟨hcpseq, -, -, -, -⟩ := LogCheckpoint.ofProto_eq hcp
      have hseq : l'.committedCheckpoint.seq = reply.seq := by
        rw [hcommitted, hcpseq, hreply.checkpoint_seq]
      have hfrom : ∀ {s}, ∀ a ∈ Log.requestsFrom s reply, a.Parses := by
        intro s a ha
        obtain ⟨e, he, rfl⟩ := List.mem_map.mp ha
        exact hreply.parses e (List.mem_filter.mp he).1
      rcases hcases with ⟨snapshot, p, scp, hsnap, hp, hofp, hstable, hlog⟩ |
        ⟨hsnap, hstable, hlog⟩
      · obtain ⟨hscpseq, hscpdigest, -, -, -⟩ := LogCheckpoint.ofProto_eq hofp
        obtain ⟨hple, hpdigest⟩ := hreply.snapshotCheckpoint p hp
        have hentries := hreply.entries scp.seq (by simp [hsnap])
          (by rw [hp]; rintro _ ⟨⟩; exact hscpseq.ge) (hscpseq.le.trans hple)
        rw [hentries] at hlog
        refine .inr ⟨rfl, ?_⟩
        rw [resetHistory, if_pos (by rw [hsnap]; rfl)]
        refine ⟨represents_of_reset hlinked (by rw [hlog, hstable])
          (by rw [hstable, hscpseq, hreply.length_eq]; exact hple)
          (by rw [hstable, hscpdigest, hpdigest, hscpseq])
          (hseq.trans hreply.length_eq.symm) (by rw [hdigest, hcommitted]), fun e he => ?_⟩
        refine hfrom (s := scp.seq + 1) _ ?_
        rw [hentries, ← hlog]
        exact List.mem_map_of_mem he
      · have hstable_le := hl.1.stable_le
        have hcommitted_le := hl.1.committed_le
        have hentries := hreply.entries l.committedCheckpoint.seq (fun _ => hlast)
          (by rw [hreply.checkpoint_of_snapshot hsnap]; rintro _ ⟨⟩) hahead.le
        have hlen : (h.take l.committedCheckpoint.seq).length = l.committedCheckpoint.seq := by
          rw [List.length_take, Nat.min_eq_left hcommitted_le]
        rw [List.map_take, hl.1.requests, ← List.drop_take] at hlog
        refine .inr ⟨rfl, ?_⟩
        rw [resetHistory, if_neg (by rw [hsnap]; decide)]
        refine ⟨represents_of_reset hlinked ?_ ?_ ?_ ?_ (by rw [hdigest, hcommitted]),
          fun e he => ?_⟩
        · rw [hlog, hentries, hstable, List.drop_append_of_le_length (hstable_le.trans hlen.ge)]
        · rw [hstable, List.length_append]
          omega
        · rw [hstable, List.take_append_of_le_length (hstable_le.trans hlen.ge), List.take_take,
            Nat.min_eq_left hstable_le]
          exact hl.1.stable_digest
        · rw [hseq, List.length_append, List.length_drop, hlen, hreply.length_eq]
          omega
        · have hmem := List.mem_map_of_mem (f := LogEntry.toRequest) he
          rw [hlog, List.mem_append] at hmem
          rcases hmem with hmem | hmem
          · rw [List.drop_take, ← hl.1.requests] at hmem
            obtain ⟨e', he', heq⟩ := List.mem_map.mp (List.mem_of_mem_take hmem)
            rw [← heq]
            exact hl.2 e' he'
          · exact hfrom _ hmem

/-- A modified log that is reset and gets entries again. -/
lemma HoldsParsed.applySnapshotModifyLog {l l' : Log A} {h h' : List Request}
    (hl : HoldsParsed l h) {lastSeq : ℕ} {reply : SnapshotReply}
    (hreply : Carries lastSeq reply h') (hlast : lastSeq ≤ l.committedCheckpoint.seq)
    (hahead : l.committedCheckpoint.seq < reply.seq) {ok : Bool}
    (happly : l.applySnapshotModifyLog reply = .ok (l', ok)) : ∃ h'', HoldsParsed l' h'' := by
  obtain ⟨cp, -, happly⟩ := bind_eq_ok.mp happly
  obtain ⟨⟨l₁, ok₁⟩, hreset, happly⟩ := bind_eq_ok.mp happly
  rcases hl.resetToSnapshot hreply hlast hahead hreset with ⟨rfl, rfl⟩ | ⟨rfl, hl₁⟩
  · cases pure_eq_ok.mp happly
    exact ⟨h, hl⟩
  · obtain ⟨l₂, hreapply, happly⟩ := bind_eq_ok.mp happly
    cases pure_eq_ok.mp happly
    have hparses : ∀ e ∈ l.toReapply cp, e.toRequest.Parses := fun e he =>
      hl.2 e (List.mem_filter.mp he).1
    obtain ⟨rs, hsub, hext⟩ := Log.reapply_extends hl₁.1.toLinked hreapply hparses
    refine ⟨_, hl₁.extend hext fun a ha => ?_⟩
    obtain ⟨e, he, rfl⟩ := List.mem_map.mp (hsub.subset ha)
    exact hparses e he

/-- **Every operation keeps the invariant**, if the payloads parse. -/
theorem Consistent.step {ops : List LogOp} {c c' : LogCluster A} {op : LogOp}
    (hc : c.Consistent) (hp : PayloadsParse ops c op) (hstep : Step c op c') : c'.Consistent := by
  cases op with
  | addEntry i clientId clientSeq req checkDup =>
      obtain ⟨l, res, hadd, rfl⟩ := hstep
      obtain ⟨h, hl⟩ := hc.logs i
      exact hc.set ⟨_, hl.addEntry hadd hp⟩
  | addCert i seq cert =>
      obtain ⟨l, ok, hadd, rfl⟩ := hstep
      obtain ⟨h, hl⟩ := hc.logs i
      rcases Log.addCert_cases hadd with rfl | rfl
      · exact hc.set ⟨h, hl⟩
      · exact hc.set ⟨h, hl.1.congr rfl rfl rfl rfl, hl.2⟩
  | setDeadline i seq deadline =>
      obtain ⟨l, hset, rfl⟩ := hstep
      obtain ⟨h, hl⟩ := hc.logs i
      exact hc.set ⟨h, hl.setDeadline hset⟩
  | abort i seq =>
      obtain ⟨hcommitted, hle, l, habort, rfl⟩ := hstep
      obtain ⟨h, hl⟩ := hc.logs i
      obtain ⟨app, rfl⟩ := hl.1.abort_eq hcommitted hle habort
      exact hc.set ⟨_, hl.1.take hcommitted hle app, fun e he => hl.2 e (List.mem_of_mem_take he)⟩
  | setCheckpoint i cp =>
      obtain ⟨hlt, hdigest, l, hset, rfl⟩ := hstep
      obtain ⟨h, hl⟩ := hc.logs i
      refine hc.set ⟨h, hl.1.setCheckpoint hlt hdigest hset, fun e he => hl.2 e ?_⟩
      obtain ⟨_, _, _, _, rfl, -, ⟨-, rfl⟩ | ⟨-, -, -, rfl⟩⟩ :=
        Log.setCheckpoint_cases hl.1.toWellFormed hlt hset
      · exact he
      · exact List.mem_of_mem_drop he
  | serveSnapshot i round lastSeq =>
      obtain ⟨reply, hserve, rfl⟩ := hstep
      obtain ⟨h, hl⟩ := hc.logs i
      refine ⟨hc.logs, fun r hr => ?_⟩
      rcases List.mem_cons.mp hr with rfl | hr
      · exact ⟨_, hl.carries hserve⟩
      · exact hc.replies r hr
  | resetToSnapshot i lastSeq reply =>
      obtain ⟨hmem, hlast, hahead, l, ok, hreset, rfl⟩ := hstep
      obtain ⟨h, hl⟩ := hc.logs i
      obtain ⟨h', hreply⟩ := hc.replies _ hmem
      rcases hl.resetToSnapshot hreply hlast hahead hreset with ⟨-, rfl⟩ | ⟨-, hl'⟩
      · exact hc.set ⟨h, hl⟩
      · exact hc.set ⟨_, hl'⟩
  | applySnapshotModifyLog i lastSeq reply =>
      obtain ⟨hmem, hlast, hahead, l, ok, happly, rfl⟩ := hstep
      obtain ⟨h, hl⟩ := hc.logs i
      obtain ⟨h', hreply⟩ := hc.replies _ hmem
      exact hc.set (hl.applySnapshotModifyLog hreply hlast hahead happly)

/-- **In every run** whose payloads parse, every log holds a history. -/
theorem consistent {ops : List LogOp} {c : LogCluster A}
    (hrun : Run (system A) PayloadsParse ops c) : c.Consistent := by
  refine hrun.invariant (P := fun _ c => c.Consistent) ?_ ?_
  · rintro c ⟨hlogs, hreplies⟩
    refine ⟨fun i => ?_, by simp [hreplies]⟩
    obtain ⟨app, happ⟩ := hlogs i
    rw [happ]
    exact ⟨[], Log.represents_fresh app, by simp [Log.fresh]⟩
  · intro ops c op c' _ hc hp hstep
    exact hc.step hp hstep

end LogCluster

/-! ### The representation invariant -/

namespace Log

variable [Sha256] [Application A]

/-- The positions are in order, the log holds exactly the entries from the stable checkpoint
to the next free position, and every digest is chained to the one before it. -/
structure RepresentationInvariant (l : Log A) : Prop where
  stable_le : l.stableCheckpoint.seq ≤ l.committedCheckpoint.seq
  committed_lt : l.committedCheckpoint.seq < l.nextSeq
  length_eq : l.log.length = l.nextSeq - 1 - l.stableCheckpoint.seq
  seq_eq : ∀ i e, l.log[i]? = some e → e.seq = l.stableCheckpoint.seq + 1 + i
  first_digest : ∀ e, l.log[0]? = some e →
    e.digest = entryDigest e.seq l.stableCheckpoint.logDigest e.toRequest
  next_digest : ∀ i e e', l.log[i]? = some e → l.log[i + 1]? = some e' →
    e'.digest = entryDigest e'.seq e.digest e'.toRequest

/-- Where `getDigest` and `getEntry` stop the process, they throw because the position is out
of range; `abort` throws at a committed position, or the application stops. -/
structure AssertionsHold (l : Log A) : Prop where
  getDigestAt : ∀ seq fault, l.getDigestAt seq = .error fault → fault = .runtimeError
  getEntry : ∀ seq fault, l.getEntry seq = .error fault → fault = .runtimeError
  abort : ∀ seq fault, l.abort seq = .error fault →
    seq ≤ l.committedCheckpoint.seq ∧ fault = .runtimeError ∨
      Application.abort l.app seq = .error fault

omit [Application A] in
lemma WellFormed.representationInvariant {l : Log A} (hl : l.WellFormed) :
    l.RepresentationInvariant where
  stable_le := hl.stable_le
  committed_lt := hl.committed_lt
  length_eq := by
    have hnext := hl.nextSeq_eq
    omega
  seq_eq _ _ he := hl.segment.seq_getElem? he
  first_digest _ he := hl.segment.digest_getElem? he
  next_digest i e e' he he' := by
    rw [hl.segment.digest_getElem? he', lastDigest_take_succ he]

lemma WellFormed.assertionsHold {l : Log A} (hl : l.WellFormed) : l.AssertionsHold where
  getDigestAt p fault h := by
    rcases hl.getDigestAt p with ⟨-, -, hok⟩ | ⟨-, herr⟩
    · rw [hok] at h
      cases h
    · rw [herr] at h
      exact (Except.error.inj h).symm
  getEntry p fault h := by
    rcases hl.getEntry p with ⟨e, -, -, hok⟩ | ⟨-, herr⟩
    · rw [hok] at h
      cases h
    · rw [herr] at h
      exact (Except.error.inj h).symm
  abort _ _ h := hl.abort_error h

end Log

/-- **The representation invariant over every run**: as long as the payloads parse, every
log keeps it, and no assertion on the index arithmetic fails. -/
theorem log_representation_invariant [Sha256] [PaddedRequestData] [Application A]
    {ops : List LogOp} {c : LogCluster A}
    (hrun : Run (LogCluster.system A) LogCluster.PayloadsParse ops c) (i : ℕ) :
    (c.logs i).RepresentationInvariant ∧ (c.logs i).AssertionsHold := by
  obtain ⟨h, hl⟩ := (LogCluster.consistent hrun).logs i
  exact ⟨hl.1.representationInvariant, hl.1.assertionsHold⟩

section

attribute [local instance] prefixSha shortPaddedRequestData counterWire

/-- A run of one operation, on fresh logs of counters. -/
lemma run_addEntry (req : Bytes) (G : List LogOp → LogCluster Counter → LogOp → Prop)
    {l : Log Counter} {res : Option Bytes}
    (hadd : (Log.fresh ({} : Counter)).addEntry 1 1 req = .ok (l, res))
    (hG : G [] ⟨fun _ => Log.fresh {}, []⟩ (.addEntry 0 1 1 req true)) :
    Run (LogCluster.system Counter) G [.addEntry 0 1 1 req true]
      (LogCluster.set ⟨fun _ => Log.fresh {}, []⟩ 0 l) := by
  have hstart : Run (LogCluster.system Counter) G [] ⟨fun _ => Log.fresh {}, []⟩ :=
    .start ⟨fun _ => ⟨{}, rfl⟩, rfl⟩
  exact hstart.step hG ⟨l, res, hadd, rfl⟩

/-- The counter log after one increment. -/
theorem log_representation_invariant_increment :
    ∃ c : LogCluster Counter,
      Run (LogCluster.system Counter) LogCluster.PayloadsParse [.addEntry 0 1 1 [] true] c ∧
      (c.logs 0).RepresentationInvariant ∧ (c.logs 0).AssertionsHold := by
  have hrun := run_addEntry [] LogCluster.PayloadsParse rfl (.inr rfl)
  exact ⟨_, hrun, log_representation_invariant hrun 0⟩

/-- A payload that does not parse leaves an entry behind at a position that is not counted:
the log has one entry, and the next free position is still `1`. -/
theorem addEntry_unparsable_breaks_invariant :
    ∃ c : LogCluster Counter,
      Run (LogCluster.system Counter) anyStep [.addEntry 0 1 1 [255] true] c ∧
      ¬(c.logs 0).RepresentationInvariant := by
  refine ⟨_, run_addEntry [255] anyStep rfl trivial, fun hinv => ?_⟩
  exact absurd hinv.length_eq (by decide)

end

end DomBft
