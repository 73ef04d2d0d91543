import DomBft.Log.WellFormed

/-!
What each operation of the log can do to a linked log, said once; later modules use these
lemmas and never unfold an operation.

* `Extends l l' rs`: `l'` is `l` with entries for the requests `rs` behind it.
* `addEntry_cases`, `addEntries_cases`, `reapply_extends`: adding entries.
* `WellFormed.abort_eq`, `setCheckpoint_cases`, `addCert_cases`, `setDeadline_eq`.
* `resetToSnapshot_cases`, `resetToSnapshot_false`: the log after a reset.
-/

namespace DomBft

open Fallible

/-- The request of an entry in a message. -/
def LogEntryProto.toRequest (e : LogEntryProto) : Request :=
  ⟨e.clientId, e.clientSeq, e.request.getD []⟩

/-- The request parses, so that the log can execute it. -/
def Request.Parses [PaddedRequestData] (a : Request) : Prop := (reqData a.request).isSome

instance [PaddedRequestData] (a : Request) : Decidable a.Parses :=
  inferInstanceAs (Decidable (_ = true))

namespace Log

variable {A : Type} [Sha256] {l l' l'' : Log A}

/-! ### Adding entries -/

/-- `l'` is `l` with entries for the requests `rs` behind it. -/
structure Extends (l l' : Log A) (rs : List Request) : Prop where
  linked : l'.Linked
  log_eq : ∃ new, l'.log = l.log ++ new ∧ new.map LogEntry.toRequest = rs
  stable_eq : l'.stableCheckpoint = l.stableCheckpoint
  committed_eq : l'.committedCheckpoint = l.committedCheckpoint
  latestCert_eq : l'.latestCert = l.latestCert

namespace Extends

variable {rs rs' : List Request}

lemma refl (hl : l.Linked) : Extends l l [] := ⟨hl, ⟨[], by simp, rfl⟩, rfl, rfl, rfl⟩

lemma trans (h : Extends l l' rs) (h' : Extends l' l'' rs') : Extends l l'' (rs ++ rs') := by
  obtain ⟨new, hnew, hrs⟩ := h.log_eq
  obtain ⟨new', hnew', hrs'⟩ := h'.log_eq
  refine ⟨h'.linked, ⟨new ++ new', ?_, ?_⟩, h'.stable_eq.trans h.stable_eq,
    h'.committed_eq.trans h.committed_eq, h'.latestCert_eq.trans h.latestCert_eq⟩
  · rw [hnew', hnew, List.append_assoc]
  · rw [List.map_append, hrs, hrs']

lemma requests_eq (h : Extends l l' rs) :
    l'.log.map LogEntry.toRequest = l.log.map LogEntry.toRequest ++ rs := by
  obtain ⟨new, hnew, hrs⟩ := h.log_eq
  rw [hnew, List.map_append, hrs]

lemma nextSeq_eq (h : Extends l l' rs) (hl : l.Linked) : l'.nextSeq = l.nextSeq + rs.length := by
  have hlen := congrArg List.length h.requests_eq
  rw [List.length_append, List.length_map, List.length_map] at hlen
  rw [h.linked.nextSeq_eq, hl.nextSeq_eq, h.stable_eq]
  omega

/-- A log with more entries stays well formed. -/
lemma wellFormed (h : Extends l l' rs) (hl : l.WellFormed) : l'.WellFormed where
  toLinked := h.linked
  stable_le := by
    rw [h.stable_eq, h.committed_eq]
    exact hl.stable_le
  committed_lt := by
    rw [h.nextSeq_eq hl.toLinked, h.committed_eq]
    exact Nat.lt_add_right _ hl.committed_lt

end Extends

lemma Linked.setClientRecord (hl : l.Linked) (r : ClientRecord) :
    Linked { l with clientRecord := r } := ⟨hl.nextSeq_eq, hl.segment⟩

section
variable [Application A] [PaddedRequestData]

/-- What `addEntry` does after the duplicate check: a payload that does not parse leaves its
entry behind, any other one extends the log. -/
lemma append_cases (hl : l.Linked) {c s : UInt32} {req : Bytes} {res : Option Bytes}
    (h : l.append c s req = .ok (l', res)) :
    (¬Request.Parses ⟨c, s, req⟩ ∧ res = none ∧
        l' = { l with log := l.log ++ [LogEntry.create l.nextSeq c s req l.getDigest] }) ∨
      (Request.Parses ⟨c, s, req⟩ ∧ res.isSome ∧ Extends l l' [⟨c, s, req⟩] ∧
        l'.clientRecord = l.clientRecord) := by
  rw [append, hl.prevDigest_eq, ok_bind] at h
  cases hreq : reqData req with
  | none =>
      rw [hreq] at h
      cases pure_eq_ok.mp h
      exact .inl ⟨by simp [Request.Parses, hreq], rfl, rfl⟩
  | some data =>
      rw [hreq] at h
      obtain ⟨⟨app, r⟩, -, h⟩ := bind_eq_ok.mp h
      cases pure_eq_ok.mp h
      refine .inr ⟨by simp [Request.Parses, hreq], rfl, ⟨?_, ⟨_, rfl, rfl⟩, rfl, rfl, rfl⟩, rfl⟩
      exact hl.concat (e := { LogEntry.create l.nextSeq c s req l.getDigest with result := r })
        rfl rfl app

/-- What `addEntry` does: nothing but an update of the record for a duplicate, a stray entry
for a payload that does not parse, a longer log otherwise. -/
lemma addEntry_cases (hl : l.Linked) {c s : UInt32} {req : Bytes} {res : Option Bytes}
    (h : l.addEntry c s req = .ok (l', res)) :
    ((l.clientRecord.update c s).2 = false ∧ res = none ∧
        l' = { l with clientRecord := (l.clientRecord.update c s).1 }) ∨
      ((l.clientRecord.update c s).2 = true ∧ ¬Request.Parses ⟨c, s, req⟩ ∧ res = none ∧
        l' = { l with
          clientRecord := (l.clientRecord.update c s).1
          log := l.log ++ [LogEntry.create l.nextSeq c s req l.getDigest] }) ∨
      ((l.clientRecord.update c s).2 = true ∧ Request.Parses ⟨c, s, req⟩ ∧ res.isSome ∧
        Extends l l' [⟨c, s, req⟩] ∧
        l'.clientRecord = (l.clientRecord.update c s).1) := by
  simp only [addEntry, if_true] at h
  cases hnew : (l.clientRecord.update c s).2 with
  | false =>
      rw [hnew, if_neg (by simp)] at h
      cases Except.ok.inj h
      exact .inl ⟨rfl, rfl, rfl⟩
  | true =>
      rw [hnew, if_pos rfl] at h
      rcases append_cases (hl.setClientRecord _) h with ⟨hp, hres, hl'⟩ | ⟨hp, hres, hext, hrec⟩
      · exact .inr (.inl ⟨rfl, hp, hres, hl'⟩)
      · exact .inr (.inr ⟨rfl, hp, hres,
          ⟨hext.linked, hext.log_eq, hext.stable_eq, hext.committed_eq, hext.latestCert_eq⟩,
          hrec⟩)

/-- Where the payload parses or the request is a duplicate, `addEntry` keeps the log linked
and adds at most its request. -/
lemma addEntry_extends (hl : l.Linked) {c s : UInt32} {req : Bytes} {res : Option Bytes}
    (h : l.addEntry c s req = .ok (l', res))
    (hp : (l.clientRecord.update c s).2 = true → Request.Parses ⟨c, s, req⟩) :
    l'.clientRecord = (l.clientRecord.update c s).1 ∧
      Extends l l' (if (l.clientRecord.update c s).2 then [⟨c, s, req⟩] else []) := by
  rcases addEntry_cases hl h with ⟨hnew, -, rfl⟩ | ⟨hnew, hno, -⟩ | ⟨hnew, -, -, hext, hrec⟩
  · rw [hnew, if_neg (by simp)]
    exact ⟨rfl, hl.setClientRecord _, ⟨[], by simp, rfl⟩, rfl, rfl, rfl⟩
  · exact absurd (hp hnew) hno
  · rw [hnew, if_pos rfl]
    exact ⟨hrec, hext⟩

/-- The loop of `resetToSnapshot`: a successful one adds the entries from `startSeq` on. -/
lemma addEntries_cases {startSeq : ℕ} {es : List LogEntryProto} {ok : Bool} (hl : l.Linked)
    (h : addEntries startSeq l es = .ok (l', ok)) :
    (ok = false ∧ ∃ e ∈ es, startSeq ≤ e.seq ∧ ¬e.toRequest.Parses) ∨
      (ok = true ∧ (∀ e ∈ es, startSeq ≤ e.seq → e.toRequest.Parses) ∧
        l'.clientRecord = l.clientRecord ∧
        Extends l l' ((es.filter (startSeq ≤ ·.seq)).map LogEntryProto.toRequest)) := by
  induction es generalizing l with
  | nil =>
      cases Except.ok.inj h
      exact .inr ⟨rfl, by simp, rfl, .refl hl⟩
  | cons e es ih =>
      rw [addEntries] at h
      by_cases hseq : e.seq < startSeq
      · rw [if_pos hseq] at h
        rw [List.filter_cons_of_neg (by simpa using hseq)]
        rcases ih hl h with ⟨hok, e', he', hbad⟩ | ⟨hok, hall, hrec, hext⟩
        · exact .inl ⟨hok, e', List.mem_cons_of_mem _ he', hbad⟩
        · refine .inr ⟨hok, fun e' he' hs => ?_, hrec, hext⟩
          rcases List.mem_cons.mp he' with rfl | he'
          · omega
          · exact hall e' he' hs
      · rw [if_neg hseq] at h
        obtain ⟨⟨l₁, res⟩, hadd, h⟩ := bind_eq_ok.mp h
        rw [List.filter_cons_of_pos (by simpa using hseq), List.map_cons]
        rcases append_cases hl hadd with ⟨hbad, rfl, rfl⟩ | ⟨hp, hres, hext₁, hrec₁⟩
        · cases pure_eq_ok.mp h
          exact .inl ⟨rfl, e, List.mem_cons_self, not_lt.mp hseq, hbad⟩
        · obtain ⟨r, rfl⟩ := Option.isSome_iff_exists.mp hres
          rcases ih hext₁.linked h with ⟨hok, e', he', hbad⟩ | ⟨hok, hall, hrec, hext⟩
          · exact .inl ⟨hok, e', List.mem_cons_of_mem _ he', hbad⟩
          · refine .inr ⟨hok, fun e' he' hs => ?_, hrec.trans hrec₁, hext₁.trans hext⟩
            rcases List.mem_cons.mp he' with rfl | he'
            · exact hp
            · exact hall e' he' hs

/-- The last loop of `applySnapshotModifyLog`: where the payloads parse it adds some of the
entries, in order. -/
lemma reapply_extends {es : List LogEntry} (hl : l.Linked) (h : reapply l es = .ok l')
    (hp : ∀ e ∈ es, e.toRequest.Parses) :
    ∃ rs, rs.Sublist (es.map LogEntry.toRequest) ∧ Extends l l' rs := by
  induction es generalizing l with
  | nil =>
      cases Except.ok.inj h
      exact ⟨[], List.Sublist.refl _, .refl hl⟩
  | cons e es ih =>
      obtain ⟨⟨l₁, res⟩, hadd, h⟩ := bind_eq_ok.mp h
      obtain ⟨-, hext₁⟩ := addEntry_extends hl hadd fun _ => hp e List.mem_cons_self
      obtain ⟨rs, hsub, hext⟩ := ih hext₁.linked h fun e' he' => hp e' (List.mem_cons_of_mem _ he')
      refine ⟨_, ?_, hext₁.trans hext⟩
      rw [List.map_cons]
      split
      · exact hsub.cons_cons _
      · exact hsub.cons _

end

/-! ### Cutting the log -/

section
variable [Application A]

/-- `abort` above the committed position cuts the log there. -/
lemma WellFormed.abort_eq (hl : l.WellFormed) {p : ℕ} (hc : l.committedCheckpoint.seq < p)
    (hp : p ≤ l.nextSeq) (h : l.abort p = .ok l') :
    ∃ app, l' = { l with
      log := l.log.take (p - 1 - l.stableCheckpoint.seq), app, nextSeq := p } := by
  have hnext := hl.nextSeq_eq
  have hstable := hl.stable_le
  rw [abort] at h
  by_cases hlast : l.nextSeq ≤ p
  · rw [if_pos hlast] at h
    cases Except.ok.inj h
    refine ⟨l.app, ?_⟩
    rw [List.take_of_length_le (by omega)]
  · rw [if_neg hlast, if_neg (by omega), hl.eraseFrom (by omega) hp, ok_bind] at h
    obtain ⟨app, -, h⟩ := bind_eq_ok.mp h
    exact ⟨app, (pure_eq_ok.mp h).symm⟩

/-- `abort` stops the process only where the application does, or at a committed
position. -/
lemma WellFormed.abort_error (hl : l.WellFormed) {p : ℕ} {fault : Fault}
    (h : l.abort p = .error fault) :
    (p ≤ l.committedCheckpoint.seq ∧ fault = .runtimeError) ∨
      Application.abort l.app p = .error fault := by
  have hstable := hl.stable_le
  rw [abort] at h
  by_cases hlast : l.nextSeq ≤ p
  · rw [if_pos hlast] at h
    cases h
  · by_cases hc : p ≤ l.committedCheckpoint.seq
    · rw [if_neg hlast, if_pos hc] at h
      exact .inl ⟨hc, (Except.error.inj h).symm⟩
    · rw [if_neg hlast, if_neg hc, hl.eraseFrom (by omega) (by omega), ok_bind] at h
      rcases bind_eq_error.mp h with h | ⟨_, -, h⟩
      · exact .inr h
      · cases h

/-- `setCheckpoint` at a position below the next free one: the committed checkpoint moves
forward, and a checkpoint with an application digest becomes stable. -/
lemma setCheckpoint_cases (hl : l.WellFormed) {cp : LogCheckpoint} (hp : cp.seq < l.nextSeq)
    (h : l.setCheckpoint cp = .ok l') :
    ∃ committed stable log app,
      l' = { l with committedCheckpoint := committed, stableCheckpoint := stable, log, app } ∧
      (l.committedCheckpoint.seq < cp.seq ∧ committed = cp ∨
        cp.seq ≤ l.committedCheckpoint.seq ∧ committed = l.committedCheckpoint) ∧
      (stable = l.stableCheckpoint ∧ log = l.log ∨
        cp.appDigest ≠ [] ∧ l.stableCheckpoint.seq < cp.seq ∧ stable = cp ∧
          log = l.log.drop (cp.seq - l.stableCheckpoint.seq)) := by
  obtain ⟨l₁, hcommit, h⟩ := bind_eq_ok.mp h
  have hl₁ : ∃ committed app, l₁ = { l with committedCheckpoint := committed, app } ∧
      (l.committedCheckpoint.seq < cp.seq ∧ committed = cp ∨
        cp.seq ≤ l.committedCheckpoint.seq ∧ committed = l.committedCheckpoint) := by
    rw [commitCheckpoint] at hcommit
    by_cases hlt : l.committedCheckpoint.seq < cp.seq
    · rw [if_pos hlt] at hcommit
      obtain ⟨app, -, hcommit⟩ := bind_eq_ok.mp hcommit
      exact ⟨cp, app, (pure_eq_ok.mp hcommit).symm, .inl ⟨hlt, rfl⟩⟩
    · rw [if_neg hlt] at hcommit
      cases Except.ok.inj hcommit
      exact ⟨l.committedCheckpoint, l.app, rfl, .inr ⟨not_lt.mp hlt, rfl⟩⟩
  obtain ⟨committed, app, rfl, hcommitted⟩ := hl₁
  rw [stabilizeCheckpoint] at h
  by_cases hstab : cp.appDigest ≠ [] ∧ l.stableCheckpoint.seq < cp.seq
  · rw [if_pos hstab] at h
    have hlinked : Linked { l with committedCheckpoint := committed, app } :=
      ⟨hl.nextSeq_eq, hl.segment⟩
    rw [hlinked.eraseUpTo hstab.2.le hp, ok_bind] at h
    split at h
    · cases h
    · cases pure_eq_ok.mp h
      exact ⟨_, _, _, _, rfl, hcommitted, .inr ⟨hstab.1, hstab.2, rfl, rfl⟩⟩
  · rw [if_neg hstab] at h
    cases Except.ok.inj h
    exact ⟨_, _, _, _, rfl, hcommitted, .inl ⟨rfl, rfl⟩⟩

/-- `setCheckpoint` with a matching digest keeps the log well formed. -/
lemma WellFormed.setCheckpoint (hl : l.WellFormed) {cp : LogCheckpoint} (hp : cp.seq < l.nextSeq)
    (hd : l.getDigestAt cp.seq = .ok cp.logDigest) (h : l.setCheckpoint cp = .ok l') :
    l'.WellFormed := by
  have hstable := hl.stable_le
  have hcommit := hl.committed_lt
  obtain ⟨committed, stable, log, app, rfl, hcom, hstab⟩ := setCheckpoint_cases hl hp h
  have hcommitted : l.committedCheckpoint.seq ≤ committed.seq ∧ cp.seq ≤ committed.seq ∧
      committed.seq < l.nextSeq := by
    rcases hcom with ⟨hlt, rfl⟩ | ⟨hle, rfl⟩
    · exact ⟨hlt.le, le_rfl, hp⟩
    · exact ⟨le_rfl, hle, hcommit⟩
  rcases hstab with ⟨rfl, rfl⟩ | ⟨-, hlt, rfl, rfl⟩
  · exact ⟨⟨hl.nextSeq_eq, hl.segment⟩, hstable.trans hcommitted.1, hcommitted.2.2⟩
  · have hdrop := hl.toLinked.drop hlt.le hp hd
    exact ⟨⟨hdrop.nextSeq_eq, hdrop.segment⟩, hcommitted.2.1, hcommitted.2.2⟩

end

/-! ### Certificates and deadlines -/

omit [Sha256] in
/-- `addCert` changes the latest certificate only. -/
lemma addCert_cases {seq : ℕ} {cert : Cert} {ok : Bool} (h : l.addCert seq cert = .ok (l', ok)) :
    l' = l ∨ l' = { l with latestCert := some cert, latestCertSeq := seq } := by
  rw [addCert] at h
  split at h
  · cases h
  split at h
  · cases Except.ok.inj h
    exact .inl rfl
  split at h
  · cases Except.ok.inj h
    exact .inl rfl
  obtain ⟨entry, -, h⟩ := bind_eq_ok.mp h
  split at h
  · cases pure_eq_ok.mp h
    exact .inl rfl
  split at h
  · cases pure_eq_ok.mp h
    exact .inr rfl
  · cases pure_eq_ok.mp h
    exact .inl rfl

omit [Sha256] in
lemma setDeadline_eq {seq deadline : ℕ} (h : l.setDeadline seq deadline = .ok l') :
    ∃ i, l' = { l with log := l.log.modify i fun e => { e with deadline } } := by
  obtain ⟨_, -, h⟩ := bind_eq_ok.mp h
  exact ⟨_, (pure_eq_ok.mp h).symm⟩

omit [Sha256] in
/-- A deadline is not part of a request. -/
lemma setDeadline_requests {seq deadline : ℕ} (h : l.setDeadline seq deadline = .ok l') :
    l'.log.map LogEntry.toRequest = l.log.map LogEntry.toRequest := by
  obtain ⟨i, rfl⟩ := setDeadline_eq h
  refine List.ext_getElem? fun j => ?_
  rw [List.getElem?_map, List.getElem?_map, List.getElem?_modify]
  cases l.log[j]? with
  | none => rfl
  | some e => by_cases hij : i = j <;> simp [hij, LogEntry.toRequest]

lemma WellFormed.setDeadline (hl : l.WellFormed) {seq deadline : ℕ}
    (h : l.setDeadline seq deadline = .ok l') : l'.WellFormed := by
  obtain ⟨i, rfl⟩ := setDeadline_eq h
  refine ⟨⟨?_, hl.segment.congr (f := fun e => { e with deadline }) (fun _ => rfl) (fun _ => rfl)
    (fun _ => rfl) i⟩, hl.stable_le, hl.committed_lt⟩
  rw [List.length_modify]
  exact hl.nextSeq_eq

/-! ### Snapshots -/

variable [Application A] [PaddedRequestData]

/-- The requests of a snapshot reply from a position on. -/
def requestsFrom (startSeq : ℕ) (reply : SnapshotReply) : List Request :=
  (reply.logEntries.filter (startSeq ≤ ·.seq)).map LogEntryProto.toRequest

omit [Sha256] [Application A] [PaddedRequestData] in
lemma finishSnapshot_eq {cp : LogCheckpoint} {ok : Bool}
    (h : l.finishSnapshot cp = .ok (l', ok)) :
    ok = true ∧ lastDigest l.stableCheckpoint.logDigest l.log = cp.logDigest ∧
      l' = { l with
        clientRecord := cp.clientRecord, latestCert := none, latestCertSeq := 0 } := by
  rw [finishSnapshot, getDigest_eq] at h
  split at h
  · cases h
  · rename_i hdigest
    cases Except.ok.inj h
    exact ⟨rfl, not_not.mp hdigest, rfl⟩

omit [PaddedRequestData] in
/-- The log that the entries of a snapshot reply are added to: empty above the application
snapshot of the reply, or cut at its own committed position. -/
lemma startSnapshot_cases (hl : l.WellFormed) {reply : SnapshotReply} {cp : LogCheckpoint}
    {startSeq : ℕ} (h : l.startSnapshot reply cp = .ok (some (l', startSeq))) :
    l'.Linked ∧ l'.committedCheckpoint = cp ∧
      ((∃ snapshot p scp, reply.snapshot = some snapshot ∧ reply.snapshotCheckpoint = some p ∧
          LogCheckpoint.ofProto p = .ok scp ∧ l'.stableCheckpoint = scp ∧ l'.log = [] ∧
          startSeq = scp.seq + 1) ∨
        (reply.snapshot = none ∧ l'.stableCheckpoint = l.stableCheckpoint ∧
          l'.log = l.log.take (l.committedCheckpoint.seq - l.stableCheckpoint.seq) ∧
          startSeq = l.committedCheckpoint.seq + 1)) := by
  rw [startSnapshot] at h
  cases hsnap : reply.snapshot with
  | some snapshot =>
      rw [hsnap] at h
      cases hscp : reply.snapshotCheckpoint with
      | none =>
          rw [hscp] at h
          cases h
      | some p =>
          rw [hscp] at h
          obtain ⟨scp, hofp, h⟩ := bind_eq_ok.mp h
          obtain ⟨app?, -, h⟩ := bind_eq_ok.mp h
          cases app? with
          | none => cases pure_eq_ok.mp h
          | some app =>
              cases pure_eq_ok.mp h
              exact ⟨⟨rfl, trivial⟩, rfl, .inl ⟨snapshot, p, scp, rfl, rfl, hofp, rfl, rfl, rfl⟩⟩
  | none =>
      rw [hsnap] at h
      obtain ⟨l₁, habort, h⟩ := bind_eq_ok.mp h
      cases pure_eq_ok.mp h
      have hcommit := hl.committed_lt
      have hstable := hl.stable_le
      obtain ⟨app, rfl⟩ := hl.abort_eq (Nat.lt_succ_self _) hcommit habort
      have htake := hl.toLinked.take (p := l.committedCheckpoint.seq + 1) (by omega) hcommit app
      exact ⟨⟨htake.nextSeq_eq, htake.segment⟩, rfl, .inr ⟨rfl, rfl, rfl, rfl⟩⟩

/-- The log after `resetToSnapshot` with the result `true`: at the application snapshot of
the reply, or cut at its own committed position, with the entries of the reply from there
on; its digest is the one of the checkpoint, which it takes over. -/
lemma resetToSnapshot_cases (hl : l.WellFormed) {reply : SnapshotReply}
    (h : l.resetToSnapshot reply = .ok (l', true)) :
    ∃ cp, LogCheckpoint.ofProto reply.checkpoint = .ok cp ∧ l'.committedCheckpoint = cp ∧
      l'.clientRecord = cp.clientRecord ∧ l'.getDigest = cp.logDigest ∧ l'.latestCert = none ∧
      l'.Linked ∧
      ((∃ snapshot p scp, reply.snapshot = some snapshot ∧ reply.snapshotCheckpoint = some p ∧
          LogCheckpoint.ofProto p = .ok scp ∧ l'.stableCheckpoint = scp ∧
          l'.log.map LogEntry.toRequest = requestsFrom (scp.seq + 1) reply) ∨
        (reply.snapshot = none ∧ l'.stableCheckpoint = l.stableCheckpoint ∧
          l'.log.map LogEntry.toRequest =
            (l.log.take (l.committedCheckpoint.seq - l.stableCheckpoint.seq)).map
              LogEntry.toRequest ++ requestsFrom (l.committedCheckpoint.seq + 1) reply)) := by
  obtain ⟨cp, hcp, h⟩ := bind_eq_ok.mp h
  obtain ⟨start, hstart, h⟩ := bind_eq_ok.mp h
  cases start with
  | none => cases pure_eq_ok.mp h
  | some start =>
  obtain ⟨l₁, startSeq⟩ := start
  obtain ⟨⟨l₂, ok⟩, hadd, h⟩ := bind_eq_ok.mp h
  cases ok with
  | false => cases pure_eq_ok.mp h
  | true =>
  obtain ⟨-, hdigest, rfl⟩ := finishSnapshot_eq h
  obtain ⟨hlinked, hcommitted, hcases⟩ := startSnapshot_cases hl hstart
  rcases addEntries_cases hlinked hadd with ⟨hok, -⟩ | ⟨-, -, -, hext⟩
  · cases hok
  refine ⟨cp, hcp, hext.committed_eq.trans hcommitted, rfl, ?_, rfl,
    ⟨hext.linked.nextSeq_eq, hext.linked.segment⟩, ?_⟩
  · rw [getDigest_eq]
    exact hdigest
  · rcases hcases with ⟨snapshot, p, scp, hsnap, hp, hofp, hstable, hlog, rfl⟩ |
      ⟨hsnap, hstable, hlog, rfl⟩
    · refine .inl ⟨snapshot, p, scp, hsnap, hp, hofp, hext.stable_eq.trans hstable, ?_⟩
      rw [hext.requests_eq, hlog]
      rfl
    · refine .inr ⟨hsnap, hext.stable_eq.trans hstable, ?_⟩
      rw [hext.requests_eq, hlog]
      rfl

/-- Where `resetToSnapshot` returns `false`, the application has refused the snapshot and
nothing has happened, or a payload of the reply does not parse. -/
lemma resetToSnapshot_false (hl : l.WellFormed) {reply : SnapshotReply}
    (h : l.resetToSnapshot reply = .ok (l', false)) :
    l' = l ∨ ∃ e ∈ reply.logEntries, ¬e.toRequest.Parses := by
  obtain ⟨cp, -, h⟩ := bind_eq_ok.mp h
  obtain ⟨start, hstart, h⟩ := bind_eq_ok.mp h
  cases start with
  | none =>
      cases pure_eq_ok.mp h
      exact .inl rfl
  | some start =>
      obtain ⟨l₁, startSeq⟩ := start
      obtain ⟨⟨l₂, ok⟩, hadd, h⟩ := bind_eq_ok.mp h
      cases ok with
      | false =>
          rcases addEntries_cases (startSnapshot_cases hl hstart).1 hadd with
            ⟨-, e, he, -, hbad⟩ | ⟨hok, -⟩
          · exact .inr ⟨e, he, hbad⟩
          · cases hok
      | true =>
          exact absurd (finishSnapshot_eq h).1 (by simp)

end Log

end DomBft
