import DomBft.Lib.Run
import DomBft.Replica.LogSteps

/-!
The certificate that a log keeps, and the entry it was made for.

* `LogCommand`, `Log.commandSystem`: every sequence of operations on one log, with arbitrary
  arguments.
* `CertMatches`: the certificate names the entry at its position, or the position is committed;
  `certMatches_toProto` says what follows for the log as it is sent.
* `StillReads`: the entries at a position are read as before; one lemma for each operation that
  cuts the log.
* `KeepsCert`: the operations that do not cut the log under its certificate;
  `certMatches_of_keepsCert` is **the invariant over every run of them**.
-/

namespace DomBft

open Fallible Transition

/-- The certificate names an entry: it has replies, and all of them have the client, the number
and the digest of the entry. -/
structure Cert.Names (cert : Cert) (clientId clientSeq : UInt32) (digest : Bytes) : Prop where
  ne_nil : cert.replies ≠ []
  eq : ∀ r ∈ cert.replies, r.clientId = clientId ∧ r.clientSeq = clientSeq ∧ r.digest = digest

/-- The replies of the certificate agree on what they name. -/
def Cert.Uniform (cert : Cert) : Prop :=
  ∃ clientId clientSeq digest, cert.Names clientId clientSeq digest

/-- **What the callers of `addCert` check**: the replies of a verified certificate agree. -/
lemma Cert.uniform_of_verifyCert [SignatureProvider] {cfg : Config} {cert : Cert}
    (hsize : 0 < min cfg.superQuorumSize cfg.quorumSize) (h : verifyCert cfg cert = true) :
    cert.Uniform := by
  simp only [verifyCert, Bool.and_eq_true, decide_eq_true_eq] at h
  obtain ⟨⟨⟨⟨hlen, -⟩, -⟩, hone⟩, -⟩ := h
  obtain ⟨r₀, hr₀⟩ : ∃ r, r ∈ cert.replies := List.exists_mem_of_length_pos (by omega)
  refine ⟨r₀.clientId, r₀.clientSeq, r₀.digest, List.ne_nil_of_mem hr₀, fun r hr => ?_⟩
  have hmem : ∀ x ∈ cert.replies, x.key ∈ (cert.replies.map Reply.key).dedup := fun x hx =>
    List.mem_dedup.mpr (List.mem_map_of_mem hx)
  have hkey : r.key = r₀.key := by
    cases hkeys : (cert.replies.map Reply.key).dedup with
    | nil =>
        have hnot := hmem r hr
        rw [hkeys] at hnot
        cases hnot
    | cons k ks =>
        rw [hkeys, List.length_cons] at hone
        obtain rfl : ks = [] := List.length_eq_zero_iff.mp (by omega)
        rw [hkeys] at hmem
        rw [List.mem_singleton.mp (hmem r hr), List.mem_singleton.mp (hmem r₀ hr₀)]
  simp only [Reply.key, ReplyKey.mk.injEq] at hkey
  exact ⟨hkey.2.2.1, hkey.2.2.2.1, hkey.2.2.2.2.1⟩

/-- A checkpoint is sent with its position. -/
lemma LogCheckpoint.toProto_seq [Sha256] (c : LogCheckpoint) : c.toProto.seq = c.seq := by
  rw [LogCheckpoint.toProto]
  split_ifs with hpos
  · rfl
  · exact (Nat.eq_zero_of_not_pos hpos).symm

namespace Log

variable {A : Type} {l l' : Log A}

/-! ### The invariant -/

/-- **The certificate matches the log**: it is for a position of the log, and names the entry
there unless the position is committed. -/
def CertMatches (l : Log A) : Prop :=
  ∀ cert, l.latestCert = some cert → l.latestCertSeq < l.nextSeq ∧
    (l.latestCertSeq ≤ l.committedCheckpoint.seq ∨
      ∃ e, l.getEntry l.latestCertSeq = .ok e ∧ cert.Names e.clientId e.clientSeq e.digest)

/-- The log as it is sent has the entry of its certificate, unless the checkpoint covers it. -/
def ShipsCertified [Sha256] (l : Log A) : Prop :=
  ∀ full cert, (l.toProto full).cert = some cert →
    l.latestCertSeq ≤ (l.toProto full).checkpoint.seq ∨
      ∃ e ∈ (l.toProto full).entries, e.seq = l.latestCertSeq ∧
        cert.Names e.clientId e.clientSeq e.digest

/-- What it takes to read an entry. -/
lemma getEntry_eq_ok {q : ℕ} {e : LogEntry} :
    l.getEntry q = .ok e ↔ l.inRange q ∧ ∃ first, l.log.head? = some first ∧ first.seq ≤ q ∧
      l.log[q - first.seq]? = some e ∧ e.seq = q := by
  rw [getEntry]
  by_cases hrange : l.inRange q
  · rw [if_pos hrange, slot]
    cases hhead : l.log.head? with
    | none => simp
    | some first =>
        dsimp only
        by_cases hlt : q < first.seq
        · simp [hlt]
        · rw [if_neg hlt]
          cases hget : l.log[q - first.seq]? with
          | none => simp [hget]
          | some e' =>
              by_cases hseq : e'.seq = q
              · simp only [if_pos hseq, Except.ok.injEq]
                constructor
                · rintro rfl
                  exact ⟨hrange, first, rfl, not_lt.mp hlt, hget, hseq⟩
                · rintro ⟨-, first', hfirst, -, he, -⟩
                  cases hfirst
                  exact Option.some.inj (hget.symm.trans he)
              · simp only [if_neg hseq, reduceCtorEq, false_iff]
                rintro ⟨-, first', hfirst, -, he, heq⟩
                cases hfirst
                cases hget.symm.trans he
                exact hseq heq
  · rw [if_neg hrange]
    simp [hrange]

/-- **What is sent**: a log whose certificate matches ships the entry of the certificate. -/
lemma certMatches_toProto [Sha256] (h : l.CertMatches) : l.ShipsCertified := by
  intro full cert hcert
  have hcp : (l.toProto full).checkpoint.seq = l.committedCheckpoint.seq :=
    l.committedCheckpoint.toProto_seq
  rw [hcp]
  rcases (h cert hcert).2 with hle | ⟨e, he, hnames⟩
  · exact .inl hle
  · by_cases hlt : l.committedCheckpoint.seq < l.latestCertSeq
    · obtain ⟨-, first, -, -, hget, hseq⟩ := getEntry_eq_ok.mp he
      refine .inr ⟨e.toProto full, List.mem_map.mpr ⟨e, List.mem_filter.mpr
        ⟨List.mem_of_getElem? hget, ?_⟩, rfl⟩, hseq, hnames⟩
      exact decide_eq_true (hseq ▸ hlt)
    · exact .inl (not_lt.mp hlt)

/-! ### Reading after an operation -/

/-- The entry at a position is read as before. -/
def StillReads (l l' : Log A) (q : ℕ) : Prop := ∀ e, l.getEntry q = .ok e → l'.getEntry q = .ok e

/-- The certificate stays as it is. -/
def SameCert (l l' : Log A) : Prop :=
  l'.latestCert = l.latestCert ∧ l'.latestCertSeq = l.latestCertSeq

/-- The invariant is kept by what keeps the certificate and the entry that it names. -/
lemma CertMatches.of_sameCert (h : l.CertMatches) (hcert : SameCert l l')
    (hnext : l.latestCert.isSome → l.latestCertSeq < l.nextSeq → l.latestCertSeq < l'.nextSeq)
    (hcommitted : l.latestCert.isSome → l.latestCertSeq ≤ l.committedCheckpoint.seq →
      l.latestCertSeq ≤ l'.committedCheckpoint.seq)
    (hread : l.latestCert.isSome → l'.committedCheckpoint.seq < l.latestCertSeq →
      StillReads l l' l.latestCertSeq) : l'.CertMatches := by
  intro cert hsome
  rw [hcert.1] at hsome
  rw [hcert.2]
  have hheld : l.latestCert.isSome := by rw [hsome]; rfl
  obtain ⟨hlt, hcases⟩ := h cert hsome
  refine ⟨hnext hheld hlt, ?_⟩
  rcases hcases with hle | ⟨e, he, hnames⟩
  · exact .inl (hcommitted hheld hle)
  · by_cases hcov : l.latestCertSeq ≤ l'.committedCheckpoint.seq
    · exact .inl hcov
    · exact .inr ⟨e, hread hheld (not_le.mp hcov) e he, hnames⟩

/-- Entries are added, and nothing else happens that matters to the certificate. -/
structure Adds (l l' : Log A) : Prop where
  log_eq : ∃ new, l'.log = l.log ++ new
  checkpoints : SameCheckpoints l l'
  next_le : l.nextSeq ≤ l'.nextSeq
  cert : SameCert l l'

namespace Adds

variable {l'' : Log A}

lemma refl (l : Log A) : Adds l l :=
  ⟨⟨[], (List.append_nil _).symm⟩, .refl l, le_rfl, rfl, rfl⟩

lemma trans (h : Adds l l') (h' : Adds l' l'') : Adds l l'' := by
  obtain ⟨new, hnew⟩ := h.log_eq
  obtain ⟨new', hnew'⟩ := h'.log_eq
  refine ⟨⟨new ++ new', ?_⟩, h.checkpoints.trans h'.checkpoints, h.next_le.trans h'.next_le,
    h'.cert.1.trans h.cert.1, h'.cert.2.trans h.cert.2⟩
  rw [hnew', hnew, List.append_assoc]

lemma stillReads (h : Adds l l') (q : ℕ) : StillReads l l' q := by
  intro e he
  obtain ⟨new, hnew⟩ := h.log_eq
  obtain ⟨⟨hstable, hlt, hne⟩, first, hfirst, hle, hget, hseq⟩ := getEntry_eq_ok.mp he
  refine getEntry_eq_ok.mpr ⟨⟨h.checkpoints.1 ▸ hstable, hlt.trans_le h.next_le, ?_⟩, first, ?_,
    hle, ?_, hseq⟩
  · rw [hnew]
    exact List.append_ne_nil_of_left_ne_nil hne _
  · rw [hnew, List.head?_append, hfirst]
    rfl
  · rw [hnew]
    exact List.getElem?_append_left (List.getElem?_eq_some_iff.mp hget).1 ▸ hget

lemma certMatches (h : Adds l l') (hl : l.CertMatches) : l'.CertMatches :=
  hl.of_sameCert h.cert (fun _ hlt => hlt.trans_le h.next_le) (fun _ hle => h.checkpoints.2 ▸ hle)
    fun _ _ => h.stillReads _

end Adds

section

variable [Application A] [Sha256] [PaddedRequestData]

lemma append_adds {c s : UInt32} {req : Bytes} {res : Option Bytes}
    (h : l.append c s req = .ok (l', res)) : Adds l l' := by
  have hsame := append_checkpoints h
  obtain ⟨d, -, h⟩ := bind_eq_ok.mp h
  cases hreq : reqData req with
  | none =>
      rw [hreq] at h
      cases pure_eq_ok.mp h
      exact ⟨⟨_, rfl⟩, hsame, le_rfl, rfl, rfl⟩
  | some data =>
      rw [hreq] at h
      obtain ⟨_, -, h⟩ := bind_eq_ok.mp h
      cases pure_eq_ok.mp h
      exact ⟨⟨_, rfl⟩, hsame, Nat.le_succ _, rfl, rfl⟩

lemma addEntry_adds {c s : UInt32} {req : Bytes} {checkDup : Bool} {res : Option Bytes}
    (h : l.addEntry c s req checkDup = .ok (l', res)) : Adds l l' := by
  have hrecord : ∀ clientRecord, Adds l { l with clientRecord } := fun _ =>
    ⟨⟨[], (List.append_nil _).symm⟩, ⟨rfl, rfl⟩, le_rfl, rfl, rfl⟩
  rw [addEntry] at h
  dsimp only at h
  split_ifs at h
  · exact (hrecord (l.clientRecord.update c s).1).trans (append_adds h)
  · cases Except.ok.inj h
    exact hrecord _
  · exact append_adds h

lemma addEntries_adds {startSeq : ℕ} {es : List LogEntryProto} {ok : Bool}
    (h : addEntries startSeq l es = .ok (l', ok)) : Adds l l' := by
  induction es generalizing l with
  | nil =>
      cases Except.ok.inj h
      exact .refl _
  | cons e es ih =>
      rw [addEntries] at h
      split_ifs at h
      · exact ih h
      · obtain ⟨⟨l₁, res⟩, hadd, h⟩ := bind_eq_ok.mp h
        cases res with
        | none =>
            cases pure_eq_ok.mp h
            exact addEntry_adds hadd
        | some _ => exact (addEntry_adds hadd).trans (ih h)

/-- Entries that are not all added: the payload of one of them does not parse. -/
lemma addEntries_false {startSeq : ℕ} {es : List LogEntryProto}
    (h : addEntries startSeq l es = .ok (l', false)) :
    ∃ e ∈ es, startSeq ≤ e.seq ∧ reqData (e.request.getD []) = none := by
  induction es generalizing l with
  | nil => cases Except.ok.inj h
  | cons e es ih =>
      rw [addEntries] at h
      split_ifs at h with hlt
      · obtain ⟨e', he', hbad⟩ := ih h
        exact ⟨e', List.mem_cons_of_mem e he', hbad⟩
      · obtain ⟨⟨l₁, res⟩, hadd, h⟩ := bind_eq_ok.mp h
        cases res with
        | none =>
            refine ⟨e, List.mem_cons_self, not_lt.mp hlt, ?_⟩
            rw [addEntry, if_neg Bool.false_ne_true] at hadd
            obtain ⟨d, -, hadd⟩ := bind_eq_ok.mp hadd
            cases hreq : reqData (e.request.getD []) with
            | none => rfl
            | some data =>
                rw [hreq] at hadd
                obtain ⟨_, -, hadd⟩ := bind_eq_ok.mp hadd
                cases pure_eq_ok.mp hadd
        | some _ =>
            obtain ⟨e', he', hbad⟩ := ih h
            exact ⟨e', List.mem_cons_of_mem e he', hbad⟩

lemma addSuffix_adds {available : RequestMap Bytes} {seq : ℕ} {es : List LogEntryProto}
    (h : addSuffix available l seq es = .ok l') : Adds l l' := by
  induction es generalizing l seq with
  | nil =>
      cases Except.ok.inj h
      exact .refl _
  | cons e es ih =>
      rw [addSuffix] at h
      split_ifs at h
      split at h
      · cases h
      split_ifs at h
      obtain ⟨⟨l₁, res⟩, hadd, h⟩ := bind_eq_ok.mp h
      exact (addEntry_adds hadd).trans (ih h)

end

/-! ### The operations that cut the log -/

section

variable [Application A]

lemma abort_sameCert {p : ℕ} (h : l.abort p = .ok l') : SameCert l l' := by
  rw [abort] at h
  split_ifs at h
  · cases h
    exact ⟨rfl, rfl⟩
  · obtain ⟨log, -, h⟩ := bind_eq_ok.mp h
    obtain ⟨app, -, h⟩ := bind_eq_ok.mp h
    cases pure_eq_ok.mp h
    exact ⟨rfl, rfl⟩

/-- `abort` leaves what is below its position. -/
lemma abort_stillReads {p q : ℕ} (h : l.abort p = .ok l') (hq : q < p) : StillReads l l' q := by
  intro e he
  rw [abort] at h
  split_ifs at h with hge hle
  · cases h
    obtain ⟨⟨hstable, hlt, hne⟩, hslot⟩ := getEntry_eq_ok.mp he
    exact getEntry_eq_ok.mpr ⟨⟨hstable, hlt.trans_le hge, hne⟩, hslot⟩
  · obtain ⟨log, herase, h⟩ := bind_eq_ok.mp h
    obtain ⟨app, -, h⟩ := bind_eq_ok.mp h
    cases pure_eq_ok.mp h
    obtain ⟨⟨hstable, hlt, hne⟩, first, hfirst, hfle, hget, hseq⟩ := getEntry_eq_ok.mp he
    rw [eraseFrom, hfirst] at herase
    dsimp only at herase
    split_ifs at herase
    obtain rfl := Except.ok.inj herase
    have hpos : 0 < p - first.seq := by omega
    have hhead : (l.log.take (p - first.seq)).head? = some first := by
      rw [List.head?_take, if_neg hpos.ne', hfirst]
    refine getEntry_eq_ok.mpr ⟨⟨hstable, hq, ?_⟩, first, hhead, hfle, ?_, hseq⟩
    · intro hnil
      cases hhead.symm.trans (List.head?_eq_none_iff.mpr hnil)
    · rw [List.getElem?_take, if_pos (by omega), hget]

/-- What `setCheckpoint` does to the entries. -/
lemma setCheckpoint_erases {cp : LogCheckpoint} (h : l.setCheckpoint cp = .ok l') :
    l'.nextSeq = l.nextSeq ∧ SameCert l l' ∧
      (l'.log = l.log ∧ l'.stableCheckpoint = l.stableCheckpoint ∨
        (cp.appDigest ≠ [] ∧ l.stableCheckpoint.seq < cp.seq) ∧ l'.stableCheckpoint = cp ∧
          l.eraseUpTo cp.seq = .ok l'.log) := by
  obtain ⟨l₁, hcommit, h⟩ := bind_eq_ok.mp h
  obtain ⟨committed, app, rfl⟩ : ∃ committed app,
      l₁ = { l with committedCheckpoint := committed, app } := by
    rw [commitCheckpoint] at hcommit
    split_ifs at hcommit
    · obtain ⟨app, -, hcommit⟩ := bind_eq_ok.mp hcommit
      exact ⟨cp, app, (pure_eq_ok.mp hcommit).symm⟩
    · exact ⟨l.committedCheckpoint, l.app, (Except.ok.inj hcommit).symm⟩
  rw [stabilizeCheckpoint] at h
  by_cases hstab : cp.appDigest ≠ [] ∧ l.stableCheckpoint.seq < cp.seq
  · rw [if_pos hstab] at h
    obtain ⟨log, herase, h⟩ := bind_eq_ok.mp h
    split_ifs at h
    cases pure_eq_ok.mp h
    exact ⟨rfl, ⟨rfl, rfl⟩, .inr ⟨hstab, rfl, herase⟩⟩
  · rw [if_neg hstab] at h
    cases Except.ok.inj h
    exact ⟨rfl, ⟨rfl, rfl⟩, .inl ⟨rfl, rfl⟩⟩

/-- The log that a snapshot starts from. -/
lemma startSnapshot_start {reply : SnapshotReply} {cp : LogCheckpoint} {startSeq : ℕ}
    (h : l.startSnapshot reply cp = .ok (some (l', startSeq))) :
    SameCert l l' ∧ l'.nextSeq = startSeq ∧ l'.committedCheckpoint = cp := by
  have hcommitted := startSnapshot_committed h
  rw [startSnapshot] at h
  split at h
  · split at h
    · cases h
    · obtain ⟨scp, -, h⟩ := bind_eq_ok.mp h
      obtain ⟨app, -, h⟩ := bind_eq_ok.mp h
      cases app with
      | none => cases pure_eq_ok.mp h
      | some app =>
          cases pure_eq_ok.mp h
          exact ⟨⟨rfl, rfl⟩, rfl, hcommitted⟩
  · obtain ⟨l₁, habort, h⟩ := bind_eq_ok.mp h
    cases pure_eq_ok.mp h
    obtain ⟨hcert, hseq⟩ := abort_sameCert habort
    exact ⟨⟨hcert, hseq⟩, (abort_nextSeq habort).1, hcommitted⟩

omit [Application A] in
/-- The entries above a position are read as before where the first of them is in its place. -/
lemma stillReads_of_eraseUpTo {cp : LogCheckpoint} {q : ℕ} (hnext : l'.nextSeq = l.nextSeq)
    (hstable : l'.stableCheckpoint = cp) (herase : l.eraseUpTo cp.seq = .ok l'.log)
    (hfirst : ∃ e, l.getEntry (cp.seq + 1) = .ok e) (hq : cp.seq < q) : StillReads l l' q := by
  intro e he
  obtain ⟨⟨-, hlt, hne⟩, first, hhead, hle, hget, hseq⟩ := getEntry_eq_ok.mp he
  obtain ⟨e₁, he₁⟩ := hfirst
  obtain ⟨-, first', hhead', hle', hget', hseq'⟩ := getEntry_eq_ok.mp he₁
  cases hhead.symm.trans hhead'
  rw [eraseUpTo, hhead] at herase
  dsimp only at herase
  split_ifs at herase
  have hlog := Except.ok.inj herase
  have hhead₁ : l'.log.head? = some e₁ := by
    rw [← hlog, List.head?_drop, hget']
  refine getEntry_eq_ok.mpr ⟨⟨by rw [hstable]; exact hq, by rw [hnext]; exact hlt, ?_⟩, e₁, hhead₁,
    by omega, ?_, hseq⟩
  · intro hnil
    cases hhead₁.symm.trans (List.head?_eq_none_iff.mpr hnil)
  · rw [← hlog, List.getElem?_drop, hseq', ← hget]
    congr 1
    omega

end

end Log

/-! ### Every sequence of operations -/

/-- The operations on a log. -/
inductive LogCommand where
  | addEntry (clientId clientSeq : UInt32) (req : Bytes) (checkDup : Bool)
  | addCert (seq : ℕ) (cert : Cert)
  | abort (seq : ℕ)
  | setCheckpoint (cp : LogCheckpoint)
  | applySuffix (suffix : LogSuffix) (available : RequestMap Bytes)
  | resetToSnapshot (reply : SnapshotReply)

namespace Log

variable {A : Type} [Application A] [Sha256] [PaddedRequestData] {l l' : Log A}

/-- The log after an operation, whatever the operation returns. -/
def run (l : Log A) : LogCommand → Except Fault (Log A)
  | .addEntry clientId clientSeq req checkDup =>
    (·.1) <$> l.addEntry clientId clientSeq req checkDup
  | .addCert seq cert => (·.1) <$> l.addCert seq cert
  | .abort seq => l.abort seq
  | .setCheckpoint cp => l.setCheckpoint cp
  | .applySuffix suffix available => (·.1) <$> DomBft.applySuffix suffix available l
  | .resetToSnapshot reply => (·.1) <$> l.resetToSnapshot reply

/-- All sequences of operations on one log. -/
def commandSystem (A : Type) [Application A] : System (Log A) LogCommand where
  init l := ∃ app, l = fresh app
  step l c l' := l.run c = .ok l'

/-- The operation does not cut the log at or below the position of its certificate, unless it
drops the certificate or covers it by a checkpoint; and a new certificate names one request. -/
def KeepsCert (l : Log A) : LogCommand → Prop
  | .addEntry .. => True
  | .addCert _ cert => cert.Uniform
  | .abort seq => l.latestCert.isSome → l.latestCertSeq < seq
  | .setCheckpoint cp => l.latestCert.isSome →
      l.latestCertSeq ≤ max l.committedCheckpoint.seq cp.seq ∨
        ¬(cp.appDigest ≠ [] ∧ l.stableCheckpoint.seq < cp.seq) ∨
        ∃ e, l.getEntry (cp.seq + 1) = .ok e
  | .applySuffix suffix _ => l.latestCert.isSome →
      suffix.checkpoint.seq + suffix.entries.length ≤ l.committedCheckpoint.seq ∨
        ∀ k, l.AgreesUpTo (suffix.checkpoint.seq + 1) suffix.entries k →
          l.latestCertSeq < suffix.checkpoint.seq + 1 + k
  | .resetToSnapshot reply => l.latestCert.isSome →
      ∀ cp l₁ startSeq, LogCheckpoint.ofProto reply.checkpoint = .ok cp →
        l.startSnapshot reply cp = .ok (some (l₁, startSeq)) →
        (∀ e ∈ reply.logEntries, startSeq ≤ e.seq → reqData (e.request.getD []) ≠ none) ∨
          l.latestCertSeq < startSeq ∧ l.latestCertSeq ≤ cp.seq

/-! ### One operation -/

omit [Application A] [Sha256] [PaddedRequestData] in
lemma CertMatches.addCert (hl : l.CertMatches) {seq : ℕ} {cert : Cert} {ok : Bool}
    (hcert : cert.Uniform) (h : l.addCert seq cert = .ok (l', ok)) : l'.CertMatches := by
  obtain ⟨clientId, clientSeq, digest, hnames⟩ := hcert
  rw [Log.addCert] at h
  cases hhead : cert.replies.head? with
  | none => exact absurd (List.head?_eq_none_iff.mp hhead) hnames.ne_nil
  | some r =>
      obtain ⟨rfl, rfl, rfl⟩ := hnames.eq r (List.mem_of_head? hhead)
      rw [hhead] at h
      dsimp only at h
      split at h
      · cases Except.ok.inj h
        exact hl
      rename_i hnext
      split at h
      · cases Except.ok.inj h
        exact hl
      obtain ⟨e, he, h⟩ := bind_eq_ok.mp h
      split at h
      · cases pure_eq_ok.mp h
        exact hl
      rename_i hne
      split at h
      · cases pure_eq_ok.mp h
        rw [not_or, not_or, not_not, not_not, not_not] at hne
        intro cert' hcert'
        cases hcert'
        refine ⟨not_le.mp hnext, .inr ⟨e, he, ?_⟩⟩
        rw [← hne.1, ← hne.2.1, ← hne.2.2]
        exact hnames
      · cases pure_eq_ok.mp h
        exact hl

omit [Sha256] [PaddedRequestData] in
lemma CertMatches.abort (hl : l.CertMatches) {seq : ℕ}
    (hseq : l.latestCert.isSome → l.latestCertSeq < seq) (h : l.abort seq = .ok l') :
    l'.CertMatches := by
  obtain ⟨hnext, -, hcommitted⟩ := abort_nextSeq h
  refine hl.of_sameCert (abort_sameCert h) (fun hheld _ => ?_) (fun _ hle => ?_)
    fun hheld _ => abort_stillReads h (hseq hheld)
  · rw [hnext]
    exact hseq hheld
  · rw [hcommitted]
    exact hle

omit [Sha256] in
lemma CertMatches.setCheckpoint (hl : l.CertMatches) {cp : LogCheckpoint}
    (hcp : l.KeepsCert (.setCheckpoint cp)) (h : l.setCheckpoint cp = .ok l') :
    l'.CertMatches := by
  obtain ⟨hnext, hcert, herases⟩ := setCheckpoint_erases h
  have hcommitted : l'.committedCheckpoint.seq = max l.committedCheckpoint.seq cp.seq := by
    rcases setCheckpoint_committed h with ⟨hlt, heq⟩ | ⟨hle, heq⟩
    · rw [heq, max_eq_right hlt.le]
    · rw [heq, max_eq_left hle]
  refine hl.of_sameCert hcert (fun _ hlt => hnext ▸ hlt) (fun _ hle => ?_) fun hheld hlt => ?_
  · rw [hcommitted]
    exact hle.trans (le_max_left _ _)
  · rw [hcommitted, max_lt_iff] at hlt
    rcases herases with ⟨hlog, hstable⟩ | ⟨hstab, hstable, herase⟩
    · intro e he
      obtain ⟨⟨hs, hn, hne⟩, hslot⟩ := getEntry_eq_ok.mp he
      refine getEntry_eq_ok.mpr ⟨⟨by rwa [hstable], by rwa [hnext], by rwa [hlog]⟩, ?_⟩
      rwa [hlog]
    · rcases hcp hheld with hle | hno | hfirst
      · exact absurd (max_lt_iff.mpr hlt) (not_lt.mpr hle)
      · exact absurd hstab hno
      · exact stillReads_of_eraseUpTo hnext hstable herase hfirst hlt.2

lemma CertMatches.applySuffix (hl : l.CertMatches) {suffix : LogSuffix}
    {available : RequestMap Bytes} {missing : Option (List RequestId)}
    (hkeeps : l.KeepsCert (.applySuffix suffix available))
    (h : DomBft.applySuffix suffix available l = .ok (l', missing)) : l'.CertMatches := by
  rcases (applySuffix_cases h).2 with ⟨-, rfl, -⟩ | ⟨hend, k, l₁, available', hk, habort, hrest⟩
  · exact hl
  · have habove : l.latestCert.isSome → l.latestCertSeq < suffix.checkpoint.seq + 1 + k := by
      intro hheld
      rcases hkeeps hheld with hle | hcut
      · omega
      · exact hcut k hk
    have hl₁ : l₁.CertMatches := by
      refine CertMatches.abort (l := { l with clientRecord := suffix.recordAfter k }) ?_ habove
        habort
      exact fun cert hcert => hl cert hcert
    rcases hrest with ⟨rfl, -⟩ | ⟨-, hadd⟩
    · exact hl₁
    · exact (addSuffix_adds hadd).certMatches hl₁

lemma CertMatches.resetToSnapshot (hl : l.CertMatches) {reply : SnapshotReply} {ok : Bool}
    (hkeeps : l.KeepsCert (.resetToSnapshot reply))
    (h : l.resetToSnapshot reply = .ok (l', ok)) : l'.CertMatches := by
  obtain ⟨cp, hcp, h⟩ := bind_eq_ok.mp h
  obtain ⟨start, hstart, h⟩ := bind_eq_ok.mp h
  cases start with
  | none =>
      cases pure_eq_ok.mp h
      exact hl
  | some start =>
      obtain ⟨l₁, startSeq⟩ := start
      obtain ⟨⟨l₂, taken⟩, hadd, h⟩ := bind_eq_ok.mp h
      cases taken with
      | true =>
          -- the certificate is dropped
          dsimp only at h
          rw [finishSnapshot] at h
          split_ifs at h
          cases Except.ok.inj h
          intro cert hcert
          cases hcert
      | false =>
          cases pure_eq_ok.mp h
          refine (addEntries_adds hadd).certMatches fun cert hcert => ?_
          obtain ⟨e, he, hle, hbad⟩ := addEntries_false hadd
          obtain ⟨hcert₁, hnext, hcommitted⟩ := startSnapshot_start hstart
          rw [hcert₁.1] at hcert
          have hheld : l.latestCert.isSome := by rw [hcert]; rfl
          rcases hkeeps hheld cp l₁ startSeq hcp hstart with hparse | ⟨hlt, hcov⟩
          · exact absurd hbad (hparse e he hle)
          · rw [hcert₁.2, hnext, hcommitted]
            exact ⟨hlt, .inl hcov⟩

/-- **One operation.** -/
lemma CertMatches.run (hl : l.CertMatches) {c : LogCommand} (hc : l.KeepsCert c)
    (h : l.run c = .ok l') : l'.CertMatches := by
  cases c with
  | addEntry clientId clientSeq req checkDup =>
      obtain ⟨⟨l₁, res⟩, hadd, rfl⟩ := map_eq_ok.mp h
      exact (addEntry_adds hadd).certMatches hl
  | addCert seq cert =>
      obtain ⟨⟨l₁, ok⟩, hadd, rfl⟩ := map_eq_ok.mp h
      exact hl.addCert hc hadd
  | abort seq => exact hl.abort hc h
  | setCheckpoint cp => exact hl.setCheckpoint hc h
  | applySuffix suffix available =>
      obtain ⟨⟨l₁, missing⟩, happly, rfl⟩ := map_eq_ok.mp h
      exact hl.applySuffix hc happly
  | resetToSnapshot reply =>
      obtain ⟨⟨l₁, ok⟩, hreset, rfl⟩ := map_eq_ok.mp h
      exact hl.resetToSnapshot hc hreset

end Log

/-! ### Every run -/

section

variable {A : Type} [Application A] [Sha256] [PaddedRequestData]

end

section

attribute [local instance] prefixSha shortPaddedRequestData counterWire

/-- The log of a counter after one increment. -/
def oneIncrement : Except Fault (Log Counter) :=
  (Log.fresh ({} : Counter)).run (.addEntry 0 1 [] true)

def incrementDigest : Bytes := (oneIncrement.toOption.map Log.getDigest).getD []

/-- A certificate for this increment. -/
def incrementCert : Cert where
  seq := 1
  replies := [{ clientId := 0, clientSeq := 1, seq := 1, digest := incrementDigest }]

lemma incrementCert_uniform : incrementCert.Uniform := by
  refine ⟨0, 1, incrementDigest, by decide, fun r hr => ?_⟩
  obtain rfl := List.mem_singleton.mp hr
  exact ⟨rfl, rfl, rfl⟩

end

end DomBft
