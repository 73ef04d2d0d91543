import DomBft.Log.Operations

/-!
The log as a history: what a well formed log stands for is the list of all requests from
position `1` on, whose part below the stable checkpoint is known by its digest only.

* `Records l h`: the entries of `l` record the history `h`.  `Records.getDigestAt_eq`,
  `Records.getDigest_eq` and `Records.getEntry_eq` read digests and entries back as digests
  and requests of the history.
* `Represents l h`: moreover the committed checkpoint is a point of `h`, with one lemma for
  each way in which an operation changes the log.
-/

namespace DomBft

open Fallible

variable [Sha256]

/-- A segment ends with the digest of its requests. -/
lemma IsSegment.lastDigest_eq {s : ℕ} {d : Bytes} {es : List LogEntry} (h : IsSegment s d es) :
    lastDigest d es = HashChain.chainFrom entryDigest (s + 1) d (es.map LogEntry.toRequest) := by
  induction es generalizing s d with
  | nil => rfl
  | cons e es ih => rw [lastDigest_cons, ih h.2.2, List.map_cons, HashChain.chainFrom, ← h.2.1]

namespace Log

variable {A : Type} {l l' : Log A} {h : List Request}

/-- The entries of the log `l` record the history `h` above its stable checkpoint. -/
structure Records (l : Log A) (h : List Request) : Prop extends l.Linked where
  nextSeq_history : l.nextSeq = h.length + 1
  requests : l.log.map LogEntry.toRequest = h.drop l.stableCheckpoint.seq
  stable_digest : l.stableCheckpoint.logDigest = logDigest (h.take l.stableCheckpoint.seq)

namespace Records

variable (hr : l.Records h)
include hr

lemma stable_le_length : l.stableCheckpoint.seq ≤ h.length := by
  have h1 := hr.nextSeq_eq
  have h2 := hr.nextSeq_history
  omega

/-- The digest after the first `k` entries of the log. -/
lemma lastDigest_take (k : ℕ) :
    lastDigest l.stableCheckpoint.logDigest (l.log.take k) =
      logDigest (h.take (l.stableCheckpoint.seq + k)) := by
  have hlen : (h.take l.stableCheckpoint.seq).length = l.stableCheckpoint.seq := by
    rw [List.length_take, Nat.min_eq_left hr.stable_le_length]
  rw [(hr.segment.take k).lastDigest_eq, List.map_take, hr.requests, hr.stable_digest,
    List.take_add, logDigest_append, hlen]

/-- **The digest of a position is the digest of the history up to it.** -/
lemma getDigestAt_eq {p : ℕ} (hs : l.stableCheckpoint.seq ≤ p) (hp : p ≤ h.length) :
    l.getDigestAt p = .ok (logDigest (h.take p)) := by
  have hnext := hr.nextSeq_history
  rcases hr.getDigestAt p with ⟨-, -, hd⟩ | ⟨hno, -⟩
  · rw [hd, hr.lastDigest_take, Nat.add_sub_cancel' hs]
  · exact absurd ⟨hs, by omega⟩ hno

/-- **The digest of the log is the digest of its history.** -/
lemma getDigest_eq : l.getDigest = logDigest h := by
  have hstable := hr.stable_le_length
  have hlast := hr.lastDigest_take l.log.length
  have hlen := congrArg List.length hr.requests
  rw [List.length_map, List.length_drop] at hlen
  rw [List.take_length, hlen, List.take_of_length_le (by omega)] at hlast
  rw [Log.getDigest_eq, hlast]

/-- The entry of a position holds the request of the history there, and the digest after
it. -/
lemma entry {i : ℕ} {e : LogEntry} (he : l.log[i]? = some e) :
    e.seq = l.stableCheckpoint.seq + i + 1 ∧
      h[l.stableCheckpoint.seq + i]? = some e.toRequest ∧
      e.digest = logDigest (h.take (l.stableCheckpoint.seq + i + 1)) := by
  refine ⟨?_, ?_, ?_⟩
  · rw [hr.segment.seq_getElem? he]
    omega
  · rw [← List.getElem?_drop, ← hr.requests, List.getElem?_map, he]
    rfl
  · rw [← lastDigest_take_succ (d := l.stableCheckpoint.logDigest) he, hr.lastDigest_take,
      Nat.add_assoc]

/-- The positions of the entries. -/
lemma seqs_eq : l.log.map LogEntry.seq =
    List.range' (l.stableCheckpoint.seq + 1) (h.length - l.stableCheckpoint.seq) := by
  have hlen := congrArg List.length hr.requests
  rw [List.length_map, List.length_drop] at hlen
  refine List.ext_getElem? fun i => ?_
  rw [List.getElem?_map]
  cases he : l.log[i]? with
  | none =>
      rw [List.getElem?_eq_none_iff] at he
      rw [List.getElem?_eq_none (by rw [List.length_range']; omega)]
      rfl
  | some e =>
      have hlt := (List.getElem?_eq_some_iff.mp he).1
      rw [List.getElem?_range' (by omega), Option.map_some, (hr.entry he).1]
      congr 1
      omega

/-- `getEntry` reads the history. -/
lemma getEntry_eq {p : ℕ} (hs : l.stableCheckpoint.seq < p) (hp : p ≤ h.length) :
    ∃ e ∈ l.log, l.getEntry p = .ok e ∧ e.seq = p ∧ h[p - 1]? = some e.toRequest ∧
      e.digest = logDigest (h.take p) := by
  have hnext := hr.nextSeq_history
  rcases hr.getEntry p with ⟨e, he, hseq, hget⟩ | ⟨hno, -⟩
  · obtain ⟨-, hreq, hd⟩ := hr.entry he
    rw [show l.stableCheckpoint.seq + (p - l.stableCheckpoint.seq - 1) = p - 1 by omega] at hreq hd
    rw [show p - 1 + 1 = p by omega] at hd
    exact ⟨e, List.mem_of_getElem? he, hget, hseq, hreq, hd⟩
  · exact absurd ⟨hs, by omega⟩ hno

end Records

/-- The log `l` stands for the history `h`: it records `h`, and its committed checkpoint is
a point of `h`. -/
structure Represents (l : Log A) (h : List Request) : Prop extends
    l.WellFormed, l.Records h where
  committed_digest : l.committedCheckpoint.logDigest = logDigest (h.take l.committedCheckpoint.seq)

lemma represents_fresh (app : A) : (fresh app).Represents [] :=
  { wellFormed_fresh app with
    nextSeq_history := rfl, requests := rfl, stable_digest := rfl, committed_digest := rfl }

namespace Represents

variable (hr : l.Represents h)
include hr

/-- The committed position lies inside the history. -/
lemma committed_le : l.committedCheckpoint.seq ≤ h.length := by
  have h1 := hr.committed_lt
  have h2 := hr.nextSeq_history
  omega

/-- Entries behind the log are requests behind its history. -/
lemma extend {rs : List Request} (hext : Extends l l' rs) : l'.Represents (h ++ rs) :=
  { hext.wellFormed hr.toWellFormed with
    nextSeq_history := by
      rw [hext.nextSeq_eq hr.toLinked, hr.nextSeq_history, List.length_append]
      omega
    requests := by
      rw [hext.requests_eq, hext.stable_eq, hr.requests,
        List.drop_append_of_le_length hr.stable_le_length]
    stable_digest := by
      rw [hext.stable_eq, List.take_append_of_le_length hr.stable_le_length]
      exact hr.stable_digest
    committed_digest := by
      rw [hext.committed_eq, List.take_append_of_le_length hr.committed_le]
      exact hr.committed_digest }

/-- Cutting the log cuts its history. -/
lemma take {p : ℕ} (hc : l.committedCheckpoint.seq < p) (hp : p ≤ l.nextSeq) (app : A) :
    Represents { l with
      log := l.log.take (p - 1 - l.stableCheckpoint.seq), app, nextSeq := p }
      (h.take (p - 1)) := by
  have hstable := hr.stable_le
  have hnext := hr.nextSeq_history
  have hlinked := hr.toLinked.take (p := p) (by omega) hp app
  refine ⟨⟨hlinked, hr.stable_le, hc⟩, ?_, ?_, ?_, ?_⟩
  · rw [List.length_take]
    exact (by omega : p = min (p - 1) h.length + 1)
  · rw [List.map_take, hr.requests, List.drop_take]
  · rw [List.take_take, Nat.min_eq_left (show l.stableCheckpoint.seq ≤ p - 1 by omega)]
    exact hr.stable_digest
  · rw [List.take_take, Nat.min_eq_left (show l.committedCheckpoint.seq ≤ p - 1 by omega)]
    exact hr.committed_digest

/-- Aborting above the committed position cuts the history. -/
lemma abort [Application A] {p : ℕ} (hc : l.committedCheckpoint.seq < p) (hp : p ≤ l.nextSeq)
    (h' : l.abort p = .ok l') :
    l'.Represents (h.take (p - 1)) ∧ l'.nextSeq = p ∧ l'.clientRecord = l.clientRecord ∧
      l'.committedCheckpoint = l.committedCheckpoint := by
  obtain ⟨app, rfl⟩ := hr.toWellFormed.abort_eq hc hp h'
  exact ⟨hr.take hc hp app, rfl, rfl, rfl⟩

/-- A checkpoint with the digest of its position does not change the history. -/
lemma setCheckpoint [Application A] {cp : LogCheckpoint} (hp : cp.seq < l.nextSeq)
    (hd : l.getDigestAt cp.seq = .ok cp.logDigest) (hset : l.setCheckpoint cp = .ok l') :
    l'.Represents h := by
  have hnext := hr.nextSeq_history
  have hwf := hr.toWellFormed.setCheckpoint hp hd hset
  have hcp : cp.logDigest = logDigest (h.take cp.seq) := by
    rcases hr.getDigestAt cp.seq with ⟨hs, hlt, -⟩ | ⟨-, herr⟩
    · rw [hr.getDigestAt_eq hs (by omega)] at hd
      exact (Except.ok.inj hd).symm
    · rw [hd] at herr
      cases herr
  obtain ⟨committed, stable, log, app, rfl, hcom, hstab⟩ :=
    setCheckpoint_cases hr.toWellFormed hp hset
  refine ⟨hwf, hnext, ?_, ?_, ?_⟩
  · rcases hstab with ⟨rfl, rfl⟩ | ⟨-, hlt, rfl, rfl⟩
    · exact hr.requests
    · rw [List.map_drop, hr.requests, List.drop_drop, Nat.add_sub_cancel' hlt.le]
  · rcases hstab with ⟨rfl, rfl⟩ | ⟨-, -, rfl, rfl⟩
    · exact hr.stable_digest
    · exact hcp
  · rcases hcom with ⟨-, rfl⟩ | ⟨-, rfl⟩
    · exact hcp
    · exact hr.committed_digest

lemma setDeadline {seq deadline : ℕ} (hset : l.setDeadline seq deadline = .ok l') :
    l'.Represents h := by
  have hwf := hr.toWellFormed.setDeadline hset
  have hreqs := setDeadline_requests hset
  obtain ⟨i, rfl⟩ := setDeadline_eq hset
  exact ⟨hwf, hr.nextSeq_history, hreqs.trans hr.requests, hr.stable_digest,
    hr.committed_digest⟩

/-- What is not part of the representation may change. -/
lemma congr (hlog : l'.log = l.log) (hnext : l'.nextSeq = l.nextSeq)
    (hstable : l'.stableCheckpoint = l.stableCheckpoint)
    (hcommitted : l'.committedCheckpoint = l.committedCheckpoint) : l'.Represents h := by
  have hlinked : l'.Linked := ⟨by rw [hnext, hstable, hlog]; exact hr.nextSeq_eq,
    by rw [hstable, hlog]; exact hr.segment⟩
  refine ⟨⟨hlinked, ?_, ?_⟩, ?_, ?_, ?_, ?_⟩
  · rw [hstable, hcommitted]
    exact hr.stable_le
  · rw [hcommitted, hnext]
    exact hr.committed_lt
  · rw [hnext]
    exact hr.nextSeq_history
  · rw [hlog, hstable]
    exact hr.requests
  · rw [hstable]
    exact hr.stable_digest
  · rw [hcommitted]
    exact hr.committed_digest

end Represents

/-! ### The log of a history -/

/-- The entries of a history whose first request stands at position `p`. -/
def entriesFrom (p : ℕ) (d : Bytes) : List Request → List LogEntry
  | [] => []
  | a :: as =>
    let e := LogEntry.create p a.clientId a.clientSeq a.request d
    e :: entriesFrom (p + 1) e.digest as

/-- A log with nothing committed that holds a history. -/
def ofHistory (app : A) (h : List Request) : Log A :=
  { log := entriesFrom 1 [] h, nextSeq := h.length + 1, app }

lemma isSegment_entriesFrom (s : ℕ) (d : Bytes) (as : List Request) :
    IsSegment s d (entriesFrom (s + 1) d as) := by
  induction as generalizing s d with
  | nil => trivial
  | cons a as ih => exact ⟨rfl, rfl, ih (s + 1) _⟩

lemma map_toRequest_entriesFrom (p : ℕ) (d : Bytes) (as : List Request) :
    (entriesFrom p d as).map LogEntry.toRequest = as := by
  induction as generalizing p d with
  | nil => rfl
  | cons a as ih => rw [entriesFrom, List.map_cons, ih]; rfl

lemma length_entriesFrom (p : ℕ) (d : Bytes) (as : List Request) :
    (entriesFrom p d as).length = as.length := by
  rw [← List.length_map (f := LogEntry.toRequest), map_toRequest_entriesFrom]

/-- Every history is that of a log. -/
lemma represents_ofHistory (app : A) (h : List Request) : (ofHistory app h).Represents h where
  nextSeq_eq := by
    rw [ofHistory, length_entriesFrom]
    exact (by omega : h.length + 1 = 0 + h.length + 1)
  segment := isSegment_entriesFrom 0 [] h
  stable_le := le_rfl
  committed_lt := Nat.succ_pos _
  nextSeq_history := rfl
  requests := map_toRequest_entriesFrom 1 [] h
  stable_digest := rfl
  committed_digest := rfl

end Log

end DomBft
