import DomBft.ClientRecord.Digest
import DomBft.Log.Speculation

/-!
The transfer of the log from one replica to another: what a snapshot reply holds, and when
the log that it is meant for can be reset to it.

* `addEntries_isOk`: the entries of a reply are added if the application executes them.
* `Lags`: a log that asks another one for what it has not committed yet.
* `TakesOver`: what it has afterwards.
* `transfers_iff`: **the transfer succeeds if the application can follow**.
-/

namespace DomBft

open Fallible

variable {A : Type} [Application A]

namespace Log

section

variable {l l' : Log A} [Sha256] [PaddedRequestData]

/-! ### The entries of a reply -/

/-- A request that parses is added if the application executes it. -/
lemma append_isOk (hl : l.Linked) {c s : UInt32} {req : Bytes} {a : A} {res : Bytes}
    (hp : Request.Parses ⟨c, s, req⟩)
    (hexec : Application.execute l.app (Request.payload ⟨c, s, req⟩) l.nextSeq = .ok (a, res)) :
    ∃ l', l.append c s req = .ok (l', some res) ∧ l'.app = a ∧ l'.nextSeq = l.nextSeq + 1 := by
  obtain ⟨data, hdata⟩ := Option.isSome_iff_exists.mp hp
  rw [Request.payload, hdata, Option.getD_some] at hexec
  rw [append, hl.prevDigest_eq, ok_bind, hdata]
  dsimp only
  rw [hexec, ok_bind]
  exact ⟨_, rfl, rfl, rfl⟩

/-- **The entries of a reply are added** exactly if the application executes their requests. -/
lemma addEntries_isOk (hl : l.Linked) {start p : ℕ} {es : List LogEntryProto}
    (hnext : l.nextSeq = p + 1) (hp : ∀ e ∈ es, e.toRequest.Parses) :
    (∃ l', addEntries start l es = .ok (l', true)) ↔
      ∃ a, executeAll l.app p ((es.filter (start ≤ ·.seq)).map (·.toRequest.payload)) =
        .ok a := by
  induction es generalizing l p with
  | nil => simp [addEntries, executeAll]
  | cons e es ih =>
      have hrest : ∀ e ∈ es, e.toRequest.Parses := fun e' he' => hp e' (List.mem_cons_of_mem _ he')
      by_cases hseq : e.seq < start
      · rw [addEntries, if_pos hseq, List.filter_cons_of_neg (by simpa using hseq)]
        exact ih hl hnext hrest
      · rw [addEntries, if_neg hseq, List.filter_cons_of_pos (by simpa using hseq), List.map_cons,
          executeAll, ← hnext]
        constructor
        · rintro ⟨l', h⟩
          obtain ⟨⟨l₁, res⟩, hadd, h⟩ := bind_eq_ok.mp h
          rcases append_app hadd with ⟨rfl, -⟩ | ⟨r, rfl, hnext₁, hexec⟩
          · cases pure_eq_ok.mp h
          · rcases append_cases hl hadd with ⟨-, hno, -⟩ | ⟨-, -, hext, -⟩
            · cases hno
            obtain ⟨a, ha⟩ := (ih hext.linked hnext₁ hrest).mp ⟨l', h⟩
            exact ⟨a, bind_eq_ok.mpr ⟨_, hexec, ha⟩⟩
        · rintro ⟨a, h⟩
          obtain ⟨⟨a₁, res⟩, hexec, h⟩ := bind_eq_ok.mp h
          obtain ⟨l₁, hadd, rfl, hnext₁⟩ := append_isOk hl (hp e List.mem_cons_self) hexec
          rcases append_cases hl hadd with ⟨-, hno, -⟩ | ⟨-, -, hext, -⟩
          · cases hno
          obtain ⟨l', h'⟩ := (ih hext.linked hnext₁ hrest).mpr ⟨a, h⟩
          exact ⟨l', bind_eq_ok.mpr ⟨_, hadd, h'⟩⟩

end

end Log

/-! ### The reply -/

/-- A checkpoint is read back from its message. -/
lemma LogCheckpoint.ofProto_toProto [Sha256] {c : LogCheckpoint} (h : 0 < c.seq) :
    ∃ c', ofProto c.toProto = .ok c' ∧ c'.seq = c.seq ∧ c'.logDigest = c.logDigest ∧
      c'.appDigest = c.appDigest ∧ c'.clientRecord = c.clientRecord := by
  rw [toProto, if_pos h]
  exact ⟨_, rfl, rfl, rfl, rfl, ClientRecord.ofProto_toProto _⟩

namespace Log

section

variable {l : Log A} [Sha256] {h : List Request} {round i lastSeq : ℕ}

omit [Application A] in
/-- A reply is built from a log whose entries are in their places. -/
lemma snapshotReply_isOk (hr : l.Represents h) (round i : ℕ)
    (hsnap : lastSeq < l.stableCheckpoint.seq → l.stableCheckpoint.snapshot ≠ none) :
    ∃ reply, l.snapshotReply round i lastSeq = .ok reply := by
  have hcommitted := hr.committed_le
  have hentries : ∀ seqs : List ℕ,
      (∀ p ∈ seqs, l.stableCheckpoint.seq < p ∧ p ≤ l.committedCheckpoint.seq) →
      ∃ es, seqs.mapM l.getEntry = .ok es := by
    intro seqs hseqs
    induction seqs with
    | nil => exact ⟨[], rfl⟩
    | cons p seqs ih =>
        obtain ⟨hlo, hhi⟩ := hseqs p List.mem_cons_self
        obtain ⟨e, -, he, -⟩ := hr.getEntry_eq hlo (hhi.trans hcommitted)
        obtain ⟨es, hes⟩ := ih fun q hq => hseqs q (List.mem_cons_of_mem _ hq)
        exact ⟨e :: es, by rw [List.mapM_cons, he, hes]; rfl⟩
  obtain ⟨es, hes⟩ := hentries
    (List.range' (max lastSeq l.stableCheckpoint.seq + 1)
      (l.committedCheckpoint.seq + 1 - (max lastSeq l.stableCheckpoint.seq + 1))) fun p hp => by
    rw [List.mem_range'_1] at hp
    omega
  rw [snapshotReply, if_neg fun hno => hsnap hno.1 hno.2]
  dsimp only
  rw [hes, ok_bind]
  exact ⟨_, rfl⟩

omit [Application A] in
/-- The checkpoints of a reply. -/
lemma snapshotReply_eq {reply : SnapshotReply} (h : l.snapshotReply round i lastSeq = .ok reply) :
    reply.seq = l.committedCheckpoint.seq ∧ reply.checkpoint = l.committedCheckpoint.toProto ∧
      (lastSeq < l.stableCheckpoint.seq ∧ reply.snapshot = l.stableCheckpoint.snapshot ∧
          reply.snapshotCheckpoint = some l.stableCheckpoint.toProto ∨
        l.stableCheckpoint.seq ≤ lastSeq ∧ reply.snapshot = none ∧
          reply.snapshotCheckpoint = none) := by
  rw [snapshotReply] at h
  split at h
  · cases h
  obtain ⟨es, -, h⟩ := bind_eq_ok.mp h
  cases pure_eq_ok.mp h
  refine ⟨rfl, rfl, ?_⟩
  by_cases hlt : lastSeq < l.stableCheckpoint.seq
  · exact .inl ⟨hlt, if_pos hlt, if_pos hlt⟩
  · exact .inr ⟨not_lt.mp hlt, if_neg hlt, if_neg hlt⟩

end

/-! ### The log that is reset -/

section

variable {l l₁ l₂ : Log A} [Sha256] [PaddedRequestData] {h h' : List Request}

omit [Application A] [PaddedRequestData] in
/-- A linked log records the history whose end its entries hold. -/
lemma Linked.records (hl : l.Linked)
    (hlog : l.log.map LogEntry.toRequest = h.drop l.stableCheckpoint.seq)
    (hle : l.stableCheckpoint.seq ≤ h.length)
    (hdigest : l.stableCheckpoint.logDigest = logDigest (h.take l.stableCheckpoint.seq)) :
    l.Records h := by
  have hlen := congrArg List.length hlog
  rw [List.length_map, List.length_drop] at hlen
  have hnext := hl.nextSeq_eq
  exact ⟨hl, by omega, hlog, hdigest⟩

/-- With the entries of a reply that agrees with it up to its committed position, the log
records the history of the reply. -/
lemma records_of_start (hl : LogCluster.HoldsParsed l h) {lastSeq start : ℕ}
    {reply : SnapshotReply} {cp : LogCheckpoint} (hreply : LogCluster.Carries lastSeq reply h')
    (hlast : lastSeq ≤ l.committedCheckpoint.seq) (hahead : l.committedCheckpoint.seq < reply.seq)
    (hagree : h.take l.committedCheckpoint.seq = h'.take l.committedCheckpoint.seq)
    (hstart : l.startSnapshot reply cp = .ok (some (l₁, start)))
    (hadd : addEntries start l₁ reply.logEntries = .ok (l₂, true)) : l₂.Records h' := by
  obtain ⟨hlinked, -, hcases⟩ := startSnapshot_cases hl.1.toWellFormed hstart
  rcases addEntries_cases hlinked hadd with ⟨hok, -⟩ | ⟨-, -, -, hext⟩
  · cases hok
  have hlog := hext.requests_eq
  change _ = _ ++ requestsFrom start reply at hlog
  have hstable := hl.1.stable_le
  rcases hcases with ⟨snapshot, p, scp, hsnap, hp, hofp, hs, hnil, rfl⟩ | ⟨hsnap, hs, htake, rfl⟩
  · obtain ⟨hscpseq, hscpdigest, -, -, -⟩ := LogCheckpoint.ofProto_eq hofp
    obtain ⟨hple, hpdigest⟩ := hreply.snapshotCheckpoint p hp
    have hentries := hreply.entries scp.seq (by simp [hsnap])
      (by rw [hp]; rintro _ ⟨⟩; exact hscpseq.ge) (hscpseq.le.trans hple)
    rw [hnil, hentries] at hlog
    refine hext.linked.records ?_ ?_ ?_
    · rw [hlog, hext.stable_eq, hs]
      rfl
    · rw [hext.stable_eq, hs, hscpseq, hreply.length_eq]
      exact hple
    · rw [hext.stable_eq, hs, hscpdigest, hpdigest, hscpseq]
  · have hentries := hreply.entries l.committedCheckpoint.seq (fun _ => hlast)
      (by rw [hreply.checkpoint_of_snapshot hsnap]; rintro _ ⟨⟩) hahead.le
    have hlen : l.committedCheckpoint.seq ≤ h'.length := by
      rw [hreply.length_eq]
      exact hahead.le
    rw [htake, hentries, List.map_take, hl.1.requests, ← List.drop_take, hagree,
      ← List.drop_append_of_le_length (by rw [List.length_take]; omega),
      List.take_append_drop] at hlog
    refine hext.linked.records ?_ ?_ ?_
    · rw [hlog, hext.stable_eq, hs]
    · rw [hext.stable_eq, hs]
      exact hstable.trans hlen
    · have hprefix := congrArg (List.take l.stableCheckpoint.seq) hagree
      rw [List.take_take, List.take_take, Nat.min_eq_left hstable] at hprefix
      rw [hext.stable_eq, hs, hl.1.stable_digest, hprefix]

/-- The log `b` over the history `h'` asks the log `a` over the history `h` for what it has not
committed: they agree up to there, and its request is not newer. -/
structure Lags (a : Log A) (h : List Request) (b : Log A) (h' : List Request) (lastSeq : ℕ) :
    Prop where
  behind : b.committedCheckpoint.seq < a.committedCheckpoint.seq
  agree : h'.take b.committedCheckpoint.seq = h.take b.committedCheckpoint.seq
  asked : lastSeq ≤ b.committedCheckpoint.seq
  served : lastSeq < a.stableCheckpoint.seq → a.stableCheckpoint.snapshot ≠ none

/-- The log `b` is at the committed checkpoint of the log `a` over the history `h`, and its
entries hold the requests of that. -/
structure TakesOver (a : Log A) (h : List Request) (b : Log A) : Prop where
  committed : b.committedCheckpoint.seq = a.committedCheckpoint.seq
  committedDigest : b.committedCheckpoint.logDigest = a.committedCheckpoint.logDigest
  digest : b.getDigest = a.committedCheckpoint.logDigest
  clientRecord : b.clientRecord = a.committedCheckpoint.clientRecord
  nextSeq : b.nextSeq = a.committedCheckpoint.seq + 1
  records : b.Records (h.take a.committedCheckpoint.seq)
  entries : ∀ p, b.stableCheckpoint.seq < p → p ≤ a.committedCheckpoint.seq →
    ∃ e, b.getEntry p = .ok e ∧ h[p - 1]? = some e.toRequest

/-- **The transfer succeeds**: the log `a` builds a reply, and `resetToSnapshot` with it returns
`true` on the log `b`, which takes over what `a` has committed. -/
def Transfers (a : Log A) (h : List Request) (b : Log A) (round i lastSeq : ℕ) : Prop :=
  ∃ reply b', a.snapshotReply round i lastSeq = .ok reply ∧
    b.resetToSnapshot reply = .ok (b', true) ∧ TakesOver a h b'

/-- The requests that a log committed up to `k` gets from the log `a`. -/
def payloadsFrom (a : Log A) (h : List Request) (k : ℕ) : List Bytes :=
  ((h.take a.committedCheckpoint.seq).drop k).map Request.payload

/-- What a transfer asks of the application of the log `b`: to apply the snapshot, or to go back
to the committed position, and to execute the requests from there on. -/
def CanFollow (a : Log A) (h : List Request) (b : Log A) (lastSeq : ℕ) : Prop :=
  if lastSeq < a.stableCheckpoint.seq then
    ∃ s app, a.stableCheckpoint.snapshot = some s ∧
      Application.applySnapshot b.app s a.stableCheckpoint.appDigest a.stableCheckpoint.seq =
        .ok (some app) ∧
      ∃ app', executeAll app a.stableCheckpoint.seq (a.payloadsFrom h a.stableCheckpoint.seq) =
        .ok app'
  else
    ∃ b₀, b.abort (b.committedCheckpoint.seq + 1) = .ok b₀ ∧
      ∃ app', executeAll b₀.app b.committedCheckpoint.seq
        (a.payloadsFrom h b.committedCheckpoint.seq) = .ok app'

variable {a b b' : Log A} {round i lastSeq : ℕ} {reply : SnapshotReply}

omit [Application A] [Sha256] [PaddedRequestData] in
/-- The history of a reply to a log that lags behind. -/
lemma Lags.agree_take (hlag : Lags a h b h' lastSeq) : h'.take b.committedCheckpoint.seq =
    (h.take a.committedCheckpoint.seq).take b.committedCheckpoint.seq := by
  rw [List.take_take, Nat.min_eq_left hlag.behind.le]
  exact hlag.agree

/-- What `resetToSnapshot` does where it returns `true`. -/
lemma resetToSnapshot_iff : b.resetToSnapshot reply = .ok (b', true) ↔
    ∃ cp l₁ start l₂, LogCheckpoint.ofProto reply.checkpoint = .ok cp ∧
      b.startSnapshot reply cp = .ok (some (l₁, start)) ∧
      addEntries start l₁ reply.logEntries = .ok (l₂, true) ∧ l₂.getDigest = cp.logDigest ∧
      b' = { l₂ with
        clientRecord := cp.clientRecord, latestCert := none, latestCertSeq := 0 } := by
  constructor
  · intro hreset
    obtain ⟨cp, hcp, hreset⟩ := bind_eq_ok.mp hreset
    obtain ⟨res, hstart, hreset⟩ := bind_eq_ok.mp hreset
    cases res with
    | none => cases pure_eq_ok.mp hreset
    | some res =>
        obtain ⟨⟨l₂, ok⟩, hadd, hreset⟩ := bind_eq_ok.mp hreset
        cases ok with
        | false => cases pure_eq_ok.mp hreset
        | true =>
            obtain ⟨-, hdigest, rfl⟩ := finishSnapshot_eq hreset
            exact ⟨cp, res.1, res.2, l₂, hcp, hstart, hadd, by rw [getDigest_eq, hdigest], rfl⟩
  · rintro ⟨cp, l₁, start, l₂, hcp, hstart, hadd, hdigest, rfl⟩
    rw [resetToSnapshot, hcp, ok_bind, hstart, ok_bind]
    dsimp only
    rw [hadd, ok_bind]
    exact if_neg (not_not.mpr hdigest)

/-- A reset to the reply of another log takes over what that has committed. -/
lemma Lags.takesOver (hlag : Lags a h b h' lastSeq) (ha : LogCluster.HoldsParsed a h)
    (hb : LogCluster.HoldsParsed b h') (hreply : a.snapshotReply round i lastSeq = .ok reply)
    (hreset : b.resetToSnapshot reply = .ok (b', true)) : TakesOver a h b' := by
  obtain ⟨hseq, hcheckpoint, -⟩ := snapshotReply_eq hreply
  have hbehind := hlag.behind
  obtain ⟨cp, l₁, start, l₂, hcp, hstart, hadd, hdigest, rfl⟩ := resetToSnapshot_iff.mp hreset
  have hrec := records_of_start hb (ha.carries hreply) hlag.asked (hseq ▸ hbehind)
    hlag.agree_take hstart hadd
  obtain ⟨c, hc, hcseq, hclog, -, hcrecord⟩ :=
    LogCheckpoint.ofProto_toProto (c := a.committedCheckpoint) (by omega)
  rw [hcheckpoint, hc] at hcp
  obtain rfl := Except.ok.inj hcp
  obtain ⟨hlinked, hcommitted, -⟩ := startSnapshot_cases hb.1.toWellFormed hstart
  rcases addEntries_cases hlinked hadd with ⟨hok, -⟩ | ⟨-, -, -, hext⟩
  · cases hok
  have hlen : (h.take a.committedCheckpoint.seq).length = a.committedCheckpoint.seq := by
    rw [List.length_take, Nat.min_eq_left ha.1.committed_le]
  have hcom : l₂.committedCheckpoint = c := hext.committed_eq.trans hcommitted
  have hrec' : Records { l₂ with
      clientRecord := c.clientRecord, latestCert := none, latestCertSeq := 0 }
      (h.take a.committedCheckpoint.seq) :=
    ⟨⟨hrec.nextSeq_eq, hrec.segment⟩, hrec.nextSeq_history, hrec.requests, hrec.stable_digest⟩
  refine ⟨?_, ?_, ?_, hcrecord, ?_, hrec', fun p hs hp => ?_⟩
  · show l₂.committedCheckpoint.seq = _
    rw [hcom, hcseq]
  · show l₂.committedCheckpoint.logDigest = _
    rw [hcom, hclog]
  · exact hdigest.trans hclog
  · show l₂.nextSeq = _
    rw [hrec.nextSeq_history, hlen]
  · obtain ⟨e, -, he, -, hreq, -⟩ := hrec'.getEntry_eq hs (by omega)
    have hpos : 0 < p := Nat.zero_lt_of_lt hs
    rw [List.getElem?_take_of_lt (by omega)] at hreq
    exact ⟨e, he, hreq⟩

/-- The entries of a reply are executed exactly if the requests of its history are. -/
lemma addEntries_iff (hl : l₁.Linked) {start : ℕ} (hreply : LogCluster.Carries lastSeq reply h)
    (hstart : l₁.nextSeq = start + 1) (hle : start ≤ reply.seq)
    (hlast : reply.snapshot = none → lastSeq ≤ start)
    (hsnap : ∀ p, reply.snapshotCheckpoint = some p → p.seq ≤ start) :
    (∃ l₂, addEntries (start + 1) l₁ reply.logEntries = .ok (l₂, true)) ↔
      ∃ app, executeAll l₁.app start ((h.drop start).map Request.payload) = .ok app := by
  rw [addEntries_isOk hl hstart hreply.parses, ← hreply.entries start hlast hsnap hle,
    requestsFrom, List.map_map]
  rfl

/-- A log that lags behind is reset exactly if its application starts again at the reply, and
executes the requests from there on. -/
lemma Lags.reset_iff (hlag : Lags a h b h' lastSeq) (ha : LogCluster.HoldsParsed a h)
    (hb : LogCluster.HoldsParsed b h') (hreply : a.snapshotReply round i lastSeq = .ok reply)
    {cp : LogCheckpoint} (hcp : LogCheckpoint.ofProto reply.checkpoint = .ok cp)
    (hdigest : cp.logDigest = a.committedCheckpoint.logDigest) :
    (∃ b', b.resetToSnapshot reply = .ok (b', true)) ↔
      ∃ l₁ start, b.startSnapshot reply cp = .ok (some (l₁, start + 1)) ∧
        ∃ app, executeAll l₁.app start (a.payloadsFrom h start) = .ok app := by
  obtain ⟨hseq, -, hsnapshot⟩ := snapshotReply_eq hreply
  have hbehind := hlag.behind
  have hasked := hlag.asked
  have hcarries := ha.carries hreply
  have hpositive : ∀ {l₁ start}, b.startSnapshot reply cp = .ok (some (l₁, start)) →
      ∃ p, start = p + 1 ∧ l₁.Linked ∧ l₁.nextSeq = p + 1 ∧ p ≤ reply.seq ∧
        (reply.snapshot = none → lastSeq ≤ p) ∧
        ∀ q, reply.snapshotCheckpoint = some q → q.seq ≤ p := by
    intro l₁ start hstart
    have hlinked := (startSnapshot_cases hb.1.toWellFormed hstart).1
    obtain ⟨hnext, hcases⟩ := startSnapshot_app hstart
    rcases hcases with ⟨s, p, hs, hp, rfl, -⟩ | ⟨hnone, rfl, -⟩
    · refine ⟨p.seq, rfl, hlinked, hnext, (hcarries.snapshotCheckpoint p hp).1, ?_, ?_⟩
      · rw [hs]
        exact nofun
      · intro q hq
        rw [hp] at hq
        cases hq
        exact le_rfl
    · refine ⟨_, rfl, hlinked, hnext, by omega, fun _ => hasked, fun q hq => ?_⟩
      rw [hcarries.checkpoint_of_snapshot hnone] at hq
      cases hq
  constructor
  · rintro ⟨b', hreset⟩
    obtain ⟨cp', l₁, start, l₂, hcp', hstart, hadd, -, -⟩ := resetToSnapshot_iff.mp hreset
    rw [hcp] at hcp'
    obtain rfl := Except.ok.inj hcp'
    obtain ⟨p, rfl, hlinked, hnext, hle, hlast, hsnap⟩ := hpositive hstart
    exact ⟨l₁, p, hstart, (addEntries_iff hlinked hcarries hnext hle hlast hsnap).mp ⟨l₂, hadd⟩⟩
  · rintro ⟨l₁, p, hstart, happ⟩
    obtain ⟨p', hp', hlinked, hnext, hle, hlast, hsnap⟩ := hpositive hstart
    obtain rfl := Nat.succ.inj hp'
    obtain ⟨l₂, hadd⟩ := (addEntries_iff hlinked hcarries hnext hle hlast hsnap).mpr happ
    have hrec := records_of_start hb hcarries hasked (hseq ▸ hbehind) hlag.agree_take hstart hadd
    exact ⟨_, resetToSnapshot_iff.mpr ⟨cp, l₁, p + 1, l₂, hcp, hstart, hadd, by
      rw [hrec.getDigest_eq, hdigest, ha.1.committed_digest], rfl⟩⟩

/-- **A log that lags behind is transferred** exactly if its application can follow. -/
lemma Lags.transfers_iff (hlag : Lags a h b h' lastSeq) (ha : LogCluster.HoldsParsed a h)
    (hb : LogCluster.HoldsParsed b h') (round i : ℕ) :
    Transfers a h b round i lastSeq ↔ CanFollow a h b lastSeq := by
  obtain ⟨reply, hreply⟩ := snapshotReply_isOk ha.1 round i hlag.served
  have hbehind := hlag.behind
  obtain ⟨-, hcheckpoint, hsnapshot⟩ := snapshotReply_eq hreply
  obtain ⟨cp, hcp, -, hdigest, -, -⟩ :=
    LogCheckpoint.ofProto_toProto (c := a.committedCheckpoint) (by omega)
  rw [← hcheckpoint] at hcp
  have htransfers : Transfers a h b round i lastSeq ↔
      ∃ b', b.resetToSnapshot reply = .ok (b', true) := by
    constructor
    · rintro ⟨reply', b', hreply', hreset, -⟩
      rw [hreply] at hreply'
      cases hreply'
      exact ⟨b', hreset⟩
    · rintro ⟨b', hreset⟩
      exact ⟨reply, b', hreply, hreset, hlag.takesOver ha hb hreply hreset⟩
  rw [htransfers, hlag.reset_iff ha hb hreply hcp hdigest, CanFollow]
  rcases hsnapshot with ⟨hlt, hs, hp⟩ | ⟨hle, hs, hp⟩
  · -- with the snapshot of the application
    obtain ⟨c, hc, hcseq, -, hcapp, -⟩ :=
      LogCheckpoint.ofProto_toProto (c := a.stableCheckpoint) (by omega)
    obtain ⟨s, hsome⟩ := Option.ne_none_iff_exists'.mp (hlag.served hlt)
    rw [if_pos hlt]
    simp only [startSnapshot, hs, hp, hsome, hc, ok_bind, hcseq, hcapp]
    constructor
    · rintro ⟨l₁, start, hstart, happ⟩
      obtain ⟨res, happly, hstart⟩ := bind_eq_ok.mp hstart
      cases res with
      | none => cases pure_eq_ok.mp hstart
      | some app =>
          cases pure_eq_ok.mp hstart
          exact ⟨s, app, rfl, happly, happ⟩
    · rintro ⟨s', app, hs', happly, happ⟩
      cases hs'
      rw [happly]
      exact ⟨_, a.stableCheckpoint.seq, rfl, happ⟩
  · -- with the entries above the committed position only
    rw [if_neg hle.not_gt]
    simp only [startSnapshot, hs]
    constructor
    · rintro ⟨l₁, start, hstart, happ⟩
      obtain ⟨b₀, habort, hstart⟩ := bind_eq_ok.mp hstart
      cases pure_eq_ok.mp hstart
      exact ⟨b₀, habort, happ⟩
    · rintro ⟨b₀, habort, happ⟩
      rw [habort]
      exact ⟨_, _, rfl, happ⟩

end

end Log

end DomBft
