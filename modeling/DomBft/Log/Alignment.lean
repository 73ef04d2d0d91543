import DomBft.ClientRecord.Digest
import DomBft.ClientRecord.Missing
import DomBft.Log.Transfer

/-!
The alignment of a log with the snapshot of another replica: which of the local requests are in
the log afterwards.

* `taken`: the requests that `addEntry` takes one after the other; `taken_eq_filter_iff` says when
  these are all that the record does not contain.
* `LogCluster.recordSystem`, `RecordsKept`: the operations on the logs, also those of a repair that
  replaces the client record, with records that updates can make.
* `KeepsLocal`: the local requests that the checkpoint does not contain are above it afterwards;
  `alignment_keeps_local_iff`: **when they are**.
-/

namespace DomBft

open Fallible Transition

/-! ### The requests that a record takes -/

namespace ClientRecord

/-- The requests that are new to the record when their turn comes. -/
def taken : ClientRecord → List Request → List Request
  | _, [] => []
  | r, a :: as =>
    if (r.update a.clientId a.clientSeq).2 then
      a :: taken (r.update a.clientId a.clientSeq).1 as
    else taken (r.update a.clientId a.clientSeq).1 as

/-- The requests that the record does not contain. -/
def uncontained (r : ClientRecord) (as : List Request) : List Request :=
  as.filter fun a => !r.contains a.clientId a.clientSeq

variable {r : ClientRecord} {a : Request} {as : List Request}

lemma mem_uncontained : a ∈ r.uncontained as ↔
    a ∈ as ∧ r.contains a.clientId a.clientSeq = false := by
  rw [uncontained, List.mem_filter, Bool.not_eq_true']

/-- What a record contains it contains after an update. -/
lemma contains_update_mono (hr : r.WellFormed) {c x c' y : UInt32} (h : r.contains c' y = true) :
    (r.update c x).1.contains c' y = true := by
  rw [contains] at h
  cases hs : r.sequences[c']? with
  | none =>
      rw [hs] at h
      cases h
  | some s =>
      rw [hs] at h
      rw [contains, update, Std.ExtTreeMap.getElem?_insert]
      split_ifs with hcc
      · obtain rfl := Std.compare_eq_iff_eq.mp hcc
        rw [hs]
        exact (ClientSequence.contains_update (hr _ s hs)).mpr (.inl h)
      · rw [hs]
        exact h

/-- What is new has a positive number and is not contained. -/
lemma pos_of_isNew (hr : r.WellFormed) {c x : UInt32} (h : (r.update c x).2 = true) :
    0 < x ∧ r.contains c x = false := by
  have hx : 0 < x := by
    by_contra hzero
    obtain rfl : x = 0 := by grind
    rw [update_zero hr] at h
    cases h
  exact ⟨hx, (update_isNew r c hx).mp h⟩

/-- What is taken is not contained, in the same order. -/
lemma taken_sublist (hr : r.WellFormed) (as : List Request) :
    (r.taken as).Sublist (r.uncontained as) := by
  induction as generalizing r with
  | nil => exact List.Sublist.refl _
  | cons a as ih =>
      have hrest : ((r.update a.clientId a.clientSeq).1.taken as).Sublist (r.uncontained as) := by
        refine (ih (hr.update _ _)).trans (List.monotone_filter_right as fun b hb => ?_)
        rw [Bool.not_eq_true'] at hb ⊢
        rw [← Bool.not_eq_true] at hb ⊢
        exact fun hcontains => hb (contains_update_mono hr hcontains)
      rw [taken]
      split_ifs with hnew
      · rw [uncontained, List.filter_cons_of_pos (by rw [(pos_of_isNew hr hnew).2]; rfl)]
        exact hrest.cons_cons a
      · exact hrest.trans ((List.sublist_cons_self a as).filter _)

/-- What is taken is taken once, and has positive numbers. -/
lemma taken_distinct (hr : r.WellFormed) (as : List Request) :
    ((r.taken as).map Request.id).Nodup ∧ ∀ a ∈ r.taken as, 0 < a.clientSeq := by
  induction as generalizing r with
  | nil => exact ⟨List.nodup_nil, nofun⟩
  | cons a as ih =>
      obtain ⟨hnodup, hpos⟩ := ih (hr.update a.clientId a.clientSeq)
      rw [taken]
      split_ifs with hnew
      · obtain ⟨ha, -⟩ := pos_of_isNew hr hnew
        refine ⟨List.nodup_cons.mpr ⟨fun hmem => ?_, hnodup⟩, fun b hb => ?_⟩
        · obtain ⟨b, hb, hid⟩ := List.mem_map.mp hmem
          have hnot := (mem_uncontained.mp ((taken_sublist (hr.update _ _) as).subset hb)).2
          have hcontains : (r.update a.clientId a.clientSeq).1.contains b.clientId b.clientSeq :=
            (contains_update hr (hpos b hb)).mpr (.inr hid)
          rw [hcontains] at hnot
          cases hnot
        · rcases List.mem_cons.mp hb with rfl | hb
          · exact ha
          · exact hpos b hb
      · exact ⟨hnodup, hpos⟩

/-- **All that is not contained is taken**, if it is without repetitions and numbered from `1`. -/
lemma taken_eq_uncontained (hr : r.WellFormed) (hnodup : ((r.uncontained as).map Request.id).Nodup)
    (hpos : ∀ a ∈ r.uncontained as, 0 < a.clientSeq) : r.taken as = r.uncontained as := by
  induction as generalizing r with
  | nil => rfl
  | cons a as ih =>
      set r' := (r.update a.clientId a.clientSeq).1 with hr'
      -- whether the record contains another request does not change
      have hother : (∀ b ∈ as, r.contains b.clientId b.clientSeq = false → b.id ≠ a.id) →
          (∀ b ∈ as, r.contains b.clientId b.clientSeq = false → 0 < b.clientSeq) →
          r'.uncontained as = r.uncontained as := by
        intro hne hposas
        refine List.filter_congr fun b hb => congrArg _ (Bool.eq_iff_iff.mpr ⟨fun h => ?_, fun h =>
          contains_update_mono hr h⟩)
        by_contra hno
        rw [Bool.not_eq_true] at hno
        rcases (contains_update hr (hposas b hb hno)).mp h with hcontains | hid
        · rw [hno] at hcontains
          cases hcontains
        · exact hne b hb hno hid
      by_cases hcontains : r.contains a.clientId a.clientSeq = true
      · have huncontained : r.uncontained (a :: as) = r.uncontained as :=
          List.filter_cons_of_neg (by rw [hcontains]; decide)
        rw [huncontained] at hnodup hpos ⊢
        have hsame := hother (fun b hb hno hid => by
          rw [Request.id, Request.id, Prod.mk.injEq] at hid
          rw [hid.1, hid.2, hcontains] at hno
          cases hno) fun b hb hno => hpos b (mem_uncontained.mpr ⟨hb, hno⟩)
        have hnew : (r.update a.clientId a.clientSeq).2 = false := by
          by_contra hnew
          rw [Bool.not_eq_false] at hnew
          rw [(pos_of_isNew hr hnew).2] at hcontains
          cases hcontains
        rw [taken, hnew, if_neg Bool.false_ne_true, ← hr',
          ih (hr.update _ _) (hsame ▸ hnodup) (hsame ▸ hpos), hsame]
      · rw [Bool.not_eq_true] at hcontains
        have huncontained : r.uncontained (a :: as) = a :: r.uncontained as :=
          List.filter_cons_of_pos (by rw [hcontains]; rfl)
        rw [huncontained] at hnodup hpos ⊢
        rw [List.map_cons, List.nodup_cons] at hnodup
        have hsame := hother (fun b hb hno hid => hnodup.1 (hid ▸ List.mem_map_of_mem
          (mem_uncontained.mpr ⟨hb, hno⟩))) fun b hb hno =>
            hpos b (List.mem_cons_of_mem a (mem_uncontained.mpr ⟨hb, hno⟩))
        have hnew : (r.update a.clientId a.clientSeq).2 = true :=
          (update_isNew r _ (hpos a List.mem_cons_self)).mpr hcontains
        rw [taken, hnew, if_pos rfl, ← hr', ih (hr.update _ _) (hsame ▸ hnodup.2)
          (hsame ▸ fun b hb => hpos b (List.mem_cons_of_mem a hb)), hsame]

end ClientRecord

variable {A : Type}

/-! ### Records along runs -/

/-- The operations on the logs, and the replacement of a client record in a repair. -/
inductive RecordOp where
  | log (op : LogOp)
  | setClientRecord (i : ℕ) (record : ClientRecord)

/-- The records of a log are such as updates make. -/
structure Log.Recorded (l : Log A) : Prop where
  clientRecord : l.clientRecord.WellFormed
  committed : l.committedCheckpoint.clientRecord.WellFormed

section

variable [Sha256] [PaddedRequestData] [Application A]

namespace Log

variable {l l' : Log A}

lemma addEntry_clientRecord {c s : UInt32} {req : Bytes} {checkDup : Bool} {res : Option Bytes}
    (h : l.addEntry c s req checkDup = .ok (l', res)) :
    l'.clientRecord = if checkDup then (l.clientRecord.update c s).1 else l.clientRecord := by
  have happend : ∀ {l₁ : Log A}, l₁.append c s req = .ok (l', res) →
      l'.clientRecord = l₁.clientRecord := by
    intro l₁ h
    obtain ⟨d, -, h⟩ := bind_eq_ok.mp h
    cases hreq : reqData req with
    | none =>
        rw [hreq] at h
        cases pure_eq_ok.mp h
        rfl
    | some data =>
        rw [hreq] at h
        obtain ⟨_, -, h⟩ := bind_eq_ok.mp h
        cases pure_eq_ok.mp h
        rfl
  rw [addEntry] at h
  cases checkDup with
  | false => exact happend h
  | true =>
      dsimp only at h
      rw [if_pos rfl] at h ⊢
      split_ifs at h
      · exact happend h
      · cases Except.ok.inj h
        rfl

/-- **The last loop** takes what is new to the record when its turn comes. -/
lemma reapply_taken {es : List LogEntry} (hl : l.Linked) (h : reapply l es = .ok l')
    (hp : ∀ e ∈ es, e.toRequest.Parses) :
    Extends l l' (l.clientRecord.taken (es.map LogEntry.toRequest)) ∧
      l'.clientRecord = l.clientRecord.addAll ((es.map LogEntry.toRequest).map Request.id) := by
  induction es generalizing l with
  | nil =>
      cases Except.ok.inj h
      exact ⟨.refl hl, rfl⟩
  | cons e es ih =>
      obtain ⟨⟨l₁, res⟩, hadd, h⟩ := bind_eq_ok.mp h
      obtain ⟨hrec, hext₁⟩ := addEntry_extends hl hadd fun _ => hp e List.mem_cons_self
      obtain ⟨hext, hrec'⟩ := ih hext₁.linked h fun e' he' => hp e' (List.mem_cons_of_mem _ he')
      rw [hrec] at hext hrec'
      refine ⟨?_, hrec'⟩
      have hboth := hext₁.trans hext
      show Extends l l' (if (l.clientRecord.update e.clientId e.clientSeq).2 then
        e.toRequest :: (l.clientRecord.update e.clientId e.clientSeq).1.taken
          (es.map LogEntry.toRequest) else _)
      split_ifs at hboth ⊢ <;> exact hboth

end Log

namespace LogCluster

/-- All sequences of operations, from fresh logs. -/
def recordSystem (A : Type) [Application A] : System (LogCluster A) RecordOp where
  init := (system A).init
  step c op c' :=
    match op with
    | .log op => Step c op c'
    | .setClientRecord i record => c' = c.set i { c.logs i with clientRecord := record }

/-- The payloads parse, and the records are such as updates make. -/
def RecordsKept : List RecordOp → LogCluster A → RecordOp → Prop
  | _, c, .log op => PayloadsParse [] c op ∧
    match op with
    | .setCheckpoint _ cp => cp.clientRecord.WellFormed
    | _ => True
  | _, _, .setClientRecord _ record => record.WellFormed

/-- The records of all logs and replies are such as updates make. -/
structure Recorded (c : LogCluster A) : Prop where
  logs : ∀ i, (c.logs i).Recorded
  replies : ∀ x ∈ c.replies, (ClientRecord.ofProto x.2.checkpoint.clientRecord).WellFormed

variable {c c' : LogCluster A} {l l' : Log A}

omit [Sha256] [PaddedRequestData] [Application A] in
lemma Recorded.set (hc : c.Recorded) {i : ℕ} (hl : l.Recorded) : (c.set i l).Recorded where
  logs j := by
    show (Function.update c.logs i l j).Recorded
    by_cases hj : j = i
    · subst hj
      rwa [Function.update_self]
    · rw [Function.update_of_ne hj]
      exact hc.logs j
  replies := hc.replies

/-- The records after a reset are those of the reply. -/
lemma recorded_of_reset {h h' : List Request} (hl : HoldsParsed l h) (hrec : l.Recorded)
    {lastSeq : ℕ} {reply : SnapshotReply} (hreply : Carries lastSeq reply h')
    (hlast : lastSeq ≤ l.committedCheckpoint.seq) (hahead : l.committedCheckpoint.seq < reply.seq)
    (hrecord : (ClientRecord.ofProto reply.checkpoint.clientRecord).WellFormed) {ok : Bool}
    (hreset : l.resetToSnapshot reply = .ok (l', ok)) : l'.Recorded := by
  rcases hl.resetToSnapshot hreply hlast hahead hreset with ⟨-, rfl⟩ | ⟨rfl, -⟩
  · exact hrec
  · obtain ⟨cp, hcp, hcommitted, hclient, -⟩ :=
      Log.resetToSnapshot_cases hl.1.toWellFormed hreset
    have hcprec := (LogCheckpoint.ofProto_eq hcp).2.2.2.1
    exact ⟨by rw [hclient, hcprec]; exact hrecord, by rw [hcommitted, hcprec]; exact hrecord⟩

/-- **Every operation keeps the records.** -/
lemma Recorded.step (hr : c.Recorded) (hc : c.Consistent) {op : LogOp}
    (hop : RecordsKept [] c (.log op)) (hstep : Step c op c') : c'.Recorded := by
  cases op with
  | addEntry i clientId clientSeq req checkDup =>
      obtain ⟨l, res, hadd, rfl⟩ := hstep
      have hl := hr.logs i
      refine hr.set ⟨?_, ?_⟩
      · rw [Log.addEntry_clientRecord hadd]
        split_ifs
        · exact hl.clientRecord.update _ _
        · exact hl.clientRecord
      · rw [(Log.addEntry_checkpoints hadd).2]
        exact hl.committed
  | addCert i seq cert =>
      obtain ⟨l, ok, hadd, rfl⟩ := hstep
      have hl := hr.logs i
      rcases Log.addCert_cases hadd with rfl | rfl
      · exact hr.set hl
      · exact hr.set ⟨hl.clientRecord, hl.committed⟩
  | setDeadline i seq deadline =>
      obtain ⟨l, hset, rfl⟩ := hstep
      have hl := hr.logs i
      obtain ⟨_, rfl⟩ := Log.setDeadline_eq hset
      exact hr.set ⟨hl.clientRecord, hl.committed⟩
  | abort i seq =>
      obtain ⟨hcommitted, hle, l, habort, rfl⟩ := hstep
      have hl := hr.logs i
      obtain ⟨h, hparsed⟩ := hc.logs i
      obtain ⟨app, rfl⟩ := hparsed.1.abort_eq hcommitted hle habort
      exact hr.set ⟨hl.clientRecord, hl.committed⟩
  | setCheckpoint i cp =>
      obtain ⟨hlt, -, l, hset, rfl⟩ := hstep
      have hl := hr.logs i
      obtain ⟨h, hparsed⟩ := hc.logs i
      obtain ⟨committed, _, _, _, rfl, hcases, -⟩ :=
        Log.setCheckpoint_cases hparsed.1.toWellFormed hlt hset
      refine hr.set ⟨hl.clientRecord, ?_⟩
      rcases hcases with ⟨-, rfl⟩ | ⟨-, rfl⟩
      · exact hop.2
      · exact hl.committed
  | serveSnapshot i round lastSeq =>
      obtain ⟨reply, hserve, rfl⟩ := hstep
      refine ⟨hr.logs, fun x hx => ?_⟩
      rcases List.mem_cons.mp hx with rfl | hx
      · rw [(Log.snapshotReply_eq hserve).2.1, LogCheckpoint.toProto]
        split_ifs <;> rw [ClientRecord.ofProto_toProto] <;> exact (hr.logs i).committed
      · exact hr.replies x hx
  | resetToSnapshot i lastSeq reply =>
      obtain ⟨hmem, hlast, hahead, l, ok, hreset, rfl⟩ := hstep
      obtain ⟨h, hparsed⟩ := hc.logs i
      obtain ⟨h', hreply⟩ := hc.replies _ hmem
      exact hr.set (recorded_of_reset hparsed (hr.logs i) hreply hlast hahead (hr.replies _ hmem)
        hreset)
  | applySnapshotModifyLog i lastSeq reply =>
      obtain ⟨hmem, hlast, hahead, l, ok, happly, rfl⟩ := hstep
      obtain ⟨h, hparsed⟩ := hc.logs i
      obtain ⟨h', hreply⟩ := hc.replies _ hmem
      obtain ⟨cp, -, happly⟩ := bind_eq_ok.mp happly
      obtain ⟨⟨l₁, ok₁⟩, hreset, happly⟩ := bind_eq_ok.mp happly
      have hl₁ := recorded_of_reset hparsed (hr.logs i) hreply hlast hahead (hr.replies _ hmem)
        hreset
      cases ok₁ with
      | false =>
          cases pure_eq_ok.mp happly
          exact hr.set hl₁
      | true =>
          obtain ⟨l₂, hreapply, happly⟩ := bind_eq_ok.mp happly
          cases pure_eq_ok.mp happly
          rcases hparsed.resetToSnapshot hreply hlast hahead hreset with ⟨hok, -⟩ | ⟨-, hparsed₁⟩
          · cases hok
          obtain ⟨hext, hrecord⟩ := Log.reapply_taken hparsed₁.1.toLinked hreapply fun e he =>
            hparsed.2 e (List.mem_filter.mp he).1
          refine hr.set ⟨?_, ?_⟩
          · rw [hrecord]
            exact hl₁.clientRecord.addAll _
          · rw [hext.committed_eq]
            exact hl₁.committed

omit [Application A] in
/-- Replacing the record. -/
lemma Consistent.setClientRecord (hc : c.Consistent) (i : ℕ) (record : ClientRecord) :
    (c.set i { c.logs i with clientRecord := record }).Consistent := by
  obtain ⟨h, hl⟩ := hc.logs i
  exact hc.set ⟨h, hl.1.congr rfl rfl rfl rfl, hl.2⟩

/-- **In every run** all logs hold a history, and the records are such as updates make. -/
lemma recorded_of_run {ops : List RecordOp} (hrun : Run (recordSystem A) RecordsKept ops c) :
    c.Consistent ∧ c.Recorded := by
  refine hrun.invariant (P := fun _ c => c.Consistent ∧ c.Recorded) ?_ ?_
  · intro c hinit
    have hstart : Run (system A) PayloadsParse [] c := .start hinit
    obtain ⟨hlogs, hreplies⟩ := hinit
    refine ⟨consistent hstart, fun i => ?_, by simp [hreplies]⟩
    obtain ⟨app, happ⟩ := hlogs i
    rw [happ]
    exact ⟨ClientRecord.wellFormed_empty, ClientRecord.wellFormed_empty⟩
  · intro ops c op c' _ ⟨hc, hr⟩ hop hstep
    cases op with
    | log op => exact ⟨hc.step hop.1 hstep, hr.step hc hop hstep⟩
    | setClientRecord i record =>
        cases hstep
        exact ⟨hc.setClientRecord i record, hr.set ⟨hop, (hr.logs i).committed⟩⟩

omit [Application A] in
lemma resetHistory_length {h h' : List Request} (hl : HoldsParsed l h) {lastSeq : ℕ}
    {reply : SnapshotReply} (hreply : Carries lastSeq reply h')
    (hahead : l.committedCheckpoint.seq < reply.seq) :
    (resetHistory l h reply h').length = reply.seq := by
  have hcommitted := hl.1.committed_le
  have hlen := hreply.length_eq
  rw [resetHistory]
  split_ifs
  · exact hlen
  · rw [List.length_append, List.length_take, List.length_drop]
    omega

end LogCluster

/-! ### What is kept -/

namespace Log

variable {l l' : Log A}

/-- The requests of the log above a position. -/
def requestsAbove (l : Log A) (seq : ℕ) : List Request :=
  (l.log.filter (seq < ·.seq)).map LogEntry.toRequest

/-- **The local requests are kept**: those that the record of the checkpoint does not contain are
above the checkpoint in the new log, in their order, and the shift is not below zero. -/
structure KeepsLocal (l l' : Log A) (cp : LogCheckpointProto) : Prop where
  kept : ((ClientRecord.ofProto cp.clientRecord).uncontained
    (l.log.map LogEntry.toRequest)).Sublist (l'.requestsAbove cp.seq)
  shift : (l.clientRecord.numMissing (.ofProto cp.clientRecord)).toNat ≤ cp.seq

/-- The requests of the record that the log is missing, and the gaps of the record behind the last
requests here, as a `uint32_t`. -/
noncomputable def behind (l : Log A) (cp : LogCheckpointProto) : ℕ :=
  ((l.clientRecord.missing (.ofProto cp.clientRecord)).ncard +
    (l.clientRecord.overcounted (.ofProto cp.clientRecord)).ncard) % 2 ^ 32

/-- Where the log lies as the shift supposes. -/
structure Aligned (l : Log A) (cp : LogCheckpointProto) : Prop where
  behind_le : l.behind cp ≤ cp.seq
  /-- what the shift leaves out is in the checkpoint -/
  covered : ∀ e ∈ l.log, e.seq + l.behind cp ≤ cp.seq →
    (ClientRecord.ofProto cp.clientRecord).contains e.clientId e.clientSeq = true
  /-- the requests that are not, are such as the duplicate check of `addEntry` lets in -/
  distinct : (((ClientRecord.ofProto cp.clientRecord).uncontained
    (l.log.map LogEntry.toRequest)).map Request.id).Nodup
  positive : ∀ a ∈ (ClientRecord.ofProto cp.clientRecord).uncontained
    (l.log.map LogEntry.toRequest), 0 < a.clientSeq

omit [PaddedRequestData] [Application A] in
/-- The requests behind a history. -/
lemma Represents.requestsAbove_eq {h rs : List Request} (hl : l.Represents (h ++ rs))
    (hstable : l.stableCheckpoint.seq ≤ h.length) : l.requestsAbove h.length = rs := by
  have hdrop : l.log.filter (h.length < ·.seq) =
      l.log.drop (h.length + 1 - (l.stableCheckpoint.seq + 1)) :=
    filter_seq_eq_drop hl.seqs_eq (h.length + 1)
  rw [requestsAbove, hdrop, List.map_drop, hl.requests, List.drop_drop,
    show l.stableCheckpoint.seq + (h.length + 1 - (l.stableCheckpoint.seq + 1)) = h.length by omega,
    List.drop_left]

/-- **What the alignment leaves above the checkpoint**: the entries above the shift, as far as the
record takes them. -/
lemma requestsAbove_of_align {h h' : List Request} (hl : LogCluster.HoldsParsed l h) {lastSeq : ℕ}
    {reply : SnapshotReply} (hreply : LogCluster.Carries lastSeq reply h')
    (hlast : lastSeq ≤ l.committedCheckpoint.seq) (hahead : l.committedCheckpoint.seq < reply.seq)
    (happly : l.applySnapshotModifyLog reply = .ok (l', true)) :
    l'.requestsAbove reply.checkpoint.seq =
      (ClientRecord.ofProto reply.checkpoint.clientRecord).taken
        ((l.log.filter fun e => (UInt32.ofNat reply.checkpoint.seq -
          l.clientRecord.numMissing (.ofProto reply.checkpoint.clientRecord)).toNat < e.seq).map
            LogEntry.toRequest) := by
  obtain ⟨cp, hcp, happly⟩ := bind_eq_ok.mp happly
  obtain ⟨⟨l₁, ok₁⟩, hreset, happly⟩ := bind_eq_ok.mp happly
  rcases hl.resetToSnapshot hreply hlast hahead hreset with ⟨rfl, -⟩ | ⟨rfl, hl₁⟩
  · cases pure_eq_ok.mp happly
  obtain ⟨l₂, hreapply, happly⟩ := bind_eq_ok.mp happly
  cases pure_eq_ok.mp happly
  have hparses : ∀ e ∈ l.toReapply cp, e.toRequest.Parses := fun e he =>
    hl.2 e (List.mem_filter.mp he).1
  obtain ⟨hext, -⟩ := reapply_taken hl₁.1.toLinked hreapply hparses
  obtain ⟨cp', hcp', hcommitted, hclient, -⟩ := resetToSnapshot_cases hl.1.toWellFormed hreset
  obtain rfl := Except.ok.inj (hcp.symm.trans hcp')
  obtain ⟨hseq, -, -, hrecord, -⟩ := LogCheckpoint.ofProto_eq hcp
  have hlen := LogCluster.resetHistory_length hl hreply hahead
  have hstable : l'.stableCheckpoint.seq ≤ (LogCluster.resetHistory l h reply h').length := by
    rw [hext.stable_eq]
    exact hl₁.1.stable_le.trans hl₁.1.committed_le
  have habove := (hl₁.1.extend hext).requestsAbove_eq hstable
  rw [hlen, ← hreply.checkpoint_seq] at habove
  rw [habove, hclient, hrecord, toReapply, hseq, hrecord]

omit [Sha256] [PaddedRequestData] [Application A] in
/-- The entries above a shift bring back all requests that are not contained, exactly if none of
these is below it, and they are without repetitions and numbered from `1`. -/
lemma uncontained_sublist_taken_iff {r : ClientRecord} (hr : r.WellFormed) (es : List LogEntry)
    (p : LogEntry → Bool) :
    (r.uncontained (es.map LogEntry.toRequest)).Sublist
        (r.taken ((es.filter p).map LogEntry.toRequest)) ↔
      (∀ e ∈ es, r.contains e.clientId e.clientSeq = false → p e = true) ∧
        ((r.uncontained (es.map LogEntry.toRequest)).map Request.id).Nodup ∧
        ∀ a ∈ r.uncontained (es.map LogEntry.toRequest), 0 < a.clientSeq := by
  have hmap : ∀ es : List LogEntry, r.uncontained (es.map LogEntry.toRequest) =
      (es.filter fun e => !r.contains e.clientId e.clientSeq).map LogEntry.toRequest := fun es => by
    rw [ClientRecord.uncontained, List.filter_map]
    rfl
  -- what is above the shift, among what is not contained
  have habove : r.uncontained ((es.filter p).map LogEntry.toRequest) =
      ((es.filter fun e => !r.contains e.clientId e.clientSeq).filter p).map LogEntry.toRequest := by
    rw [hmap, List.filter_comm]
  have htaken := ClientRecord.taken_sublist hr ((es.filter p).map LogEntry.toRequest)
  constructor
  · intro hsub
    have hlen := (hsub.trans htaken).length_le
    rw [habove, hmap, List.length_map, List.length_map] at hlen
    have hall : ∀ e ∈ es.filter fun e => !r.contains e.clientId e.clientSeq, p e = true :=
      List.length_filter_eq_length_iff.mp (le_antisymm (List.length_filter_le _ _) hlen)
    rw [habove, List.filter_eq_self.mpr hall, ← hmap] at htaken
    have heq := hsub.antisymm htaken
    obtain ⟨hnodup, hpos⟩ := ClientRecord.taken_distinct hr ((es.filter p).map LogEntry.toRequest)
    refine ⟨fun e he hno => hall e (List.mem_filter.mpr ⟨he, by rw [hno]; rfl⟩), ?_, ?_⟩
    · rw [heq]
      exact hnodup
    · rw [heq]
      exact hpos
  · rintro ⟨hall, hnodup, hpos⟩
    have hsame : r.uncontained ((es.filter p).map LogEntry.toRequest) =
        r.uncontained (es.map LogEntry.toRequest) := by
      rw [habove, List.filter_eq_self.mpr fun e he => ?_, ← hmap]
      obtain ⟨he, hno⟩ := List.mem_filter.mp he
      rw [Bool.not_eq_true'] at hno
      exact hall e he hno
    rw [ClientRecord.taken_eq_uncontained hr (hsame ▸ hnodup) (hsame ▸ hpos), hsame]

end Log

/-- **When the alignment keeps the local requests**: a log in a run is aligned with the reply of a
correct replica for a higher committed position, and keeps its requests exactly if it lies as the
shift supposes. -/
theorem alignment_keeps_local_iff {ops : List RecordOp} {c : LogCluster A}
    (hrun : Run (LogCluster.recordSystem A) LogCluster.RecordsKept ops c) {i lastSeq : ℕ}
    {reply : SnapshotReply} (hreply : (lastSeq, reply) ∈ c.replies)
    (hlast : lastSeq ≤ (c.logs i).committedCheckpoint.seq)
    (hahead : (c.logs i).committedCheckpoint.seq < reply.seq) (hrange : reply.seq < 2 ^ 32)
    {l' : Log A} (happly : (c.logs i).applySnapshotModifyLog reply = .ok (l', true)) :
    (c.logs i).KeepsLocal l' reply.checkpoint ↔ (c.logs i).Aligned reply.checkpoint := by
  obtain ⟨hcons, hrec⟩ := LogCluster.recorded_of_run hrun
  obtain ⟨h, hl⟩ := hcons.logs i
  obtain ⟨h', hcarries⟩ := hcons.replies _ hreply
  have habove := Log.requestsAbove_of_align hl hcarries hlast hahead happly
  have hrecord := hrec.replies _ hreply
  have hmissing : ((c.logs i).clientRecord.numMissing
      (.ofProto reply.checkpoint.clientRecord)).toNat = (c.logs i).behind reply.checkpoint := by
    rw [ClientRecord.numMissing_eq (hrec.logs i).clientRecord hrecord, UInt32.toNat_ofNat']
    rfl
  have hseq : reply.checkpoint.seq < 2 ^ 32 := hcarries.checkpoint_seq ▸ hrange
  -- the shift as a number, if it is not below zero
  have hshift : (c.logs i).behind reply.checkpoint ≤ reply.checkpoint.seq →
      (UInt32.ofNat reply.checkpoint.seq - (c.logs i).clientRecord.numMissing
        (.ofProto reply.checkpoint.clientRecord)).toNat =
      reply.checkpoint.seq - (c.logs i).behind reply.checkpoint := by
    intro hle
    have hcast : (UInt32.ofNat reply.checkpoint.seq).toNat = reply.checkpoint.seq :=
      UInt32.toNat_ofNat_of_lt' hseq
    rw [UInt32.toNat_sub_of_le _ _ (UInt32.le_iff_toNat_le.mpr (by rw [hmissing, hcast]; exact hle)),
      hmissing, hcast]
  have hiff := Log.uncontained_sublist_taken_iff hrecord (c.logs i).log fun e =>
    (UInt32.ofNat reply.checkpoint.seq - (c.logs i).clientRecord.numMissing
      (.ofProto reply.checkpoint.clientRecord)).toNat < e.seq
  rw [← habove] at hiff
  constructor
  · rintro ⟨hkept, hle⟩
    rw [hmissing] at hle
    obtain ⟨hcovered, hnodup, hpos⟩ := hiff.mp hkept
    refine ⟨hle, fun e he hbelow => ?_, hnodup, hpos⟩
    by_contra hno
    have habove := of_decide_eq_true (hcovered e he (Bool.eq_false_iff.mpr hno))
    rw [hshift hle] at habove
    omega
  · rintro ⟨hle, hcovered, hnodup, hpos⟩
    refine ⟨hiff.mpr ⟨fun e he hno => decide_eq_true ?_, hnodup, hpos⟩, by rwa [hmissing]⟩
    rw [hshift hle]
    by_contra hbelow
    rw [hcovered e he (by omega)] at hno
    cases hno

end

/-! ### Runs -/

section

attribute [local instance] prefixSha shortPaddedRequestData counterWire

/-- Runs of the logs over counters. -/
abbrev AlignRun (c : LogCluster Counter) : Prop :=
  ∃ ops, Run (LogCluster.recordSystem Counter) LogCluster.RecordsKept ops c

/-- The logs of fresh counters. -/
def freshCounters : LogCluster Counter := ⟨fun _ => Log.fresh {}, []⟩

/-- A replica adds increments to its log. -/
def increments (i : ℕ) (ids : List RequestId) (c : LogCluster Counter) :
    Except Fault (LogCluster Counter) :=
  ids.foldlM (fun c id => do return c.set i (← (c.logs i).addEntry id.1 id.2 []).1) c

/-- A replica commits its log, and serves it to another one that has nothing committed. -/
def commitAndServe (i : ℕ) (c : LogCluster Counter) :
    Except Fault (LogCluster Counter × SnapshotReply) := do
  let l := c.logs i
  let cp : LogCheckpoint :=
    { seq := l.nextSeq - 1, logDigest := l.getDigest, clientRecord := l.clientRecord }
  let digest ← l.getDigestAt cp.seq
  if cp.seq < l.nextSeq ∧ digest = cp.logDigest then
    let c := c.set i (← l.setCheckpoint cp)
    let reply ← (c.logs i).snapshotReply 0 i 0
    return ({ c with replies := (0, reply) :: c.replies }, reply)
  else .error .assertion

lemma alignRun_freshCounters : AlignRun freshCounters :=
  ⟨[], .start ⟨fun _ => ⟨{}, rfl⟩, rfl⟩⟩

lemma increments_run {i : ℕ} {ids : List RequestId} {c c' : LogCluster Counter} (hc : AlignRun c)
    (h : increments i ids c = .ok c') : AlignRun c' := by
  induction ids generalizing c with
  | nil =>
      cases pure_eq_ok.mp h
      exact hc
  | cons id ids ih =>
      obtain ⟨c₁, hone, h⟩ := bind_eq_ok.mp (List.foldlM_cons.symm.trans h)
      obtain ⟨⟨l, res⟩, hadd, hset⟩ := bind_eq_ok.mp hone
      cases pure_eq_ok.mp hset
      obtain ⟨ops, hrun⟩ := hc
      exact ih ⟨_, hrun.step (e := RecordOp.log (.addEntry i id.1 id.2 [] true))
        ⟨.inr rfl, trivial⟩ ⟨l, res, hadd, rfl⟩⟩ h

lemma commitAndServe_run {i : ℕ} {c c' : LogCluster Counter} {reply : SnapshotReply}
    (hc : AlignRun c) (h : commitAndServe i c = .ok (c', reply)) :
    AlignRun c' ∧ (0, reply) ∈ c'.replies := by
  obtain ⟨ops, hrun⟩ := hc
  obtain ⟨digest, hdigest, h⟩ := bind_eq_ok.mp h
  split_ifs at h with hcp
  obtain ⟨l, hset, h⟩ := bind_eq_ok.mp h
  obtain ⟨reply', hserve, h⟩ := bind_eq_ok.mp h
  obtain ⟨rfl, rfl⟩ := Prod.mk.inj (pure_eq_ok.mp h)
  obtain ⟨hlt, rfl⟩ := hcp
  have hrecorded := ((LogCluster.recorded_of_run hrun).2.logs i).clientRecord
  have hcommit := hrun.step (e := RecordOp.log (.setCheckpoint i _)) ⟨trivial, hrecorded⟩
    ⟨hlt, hdigest, l, hset, rfl⟩
  exact ⟨⟨_, hcommit.step (e := RecordOp.log (.serveSnapshot i 0 0)) ⟨trivial, trivial⟩
    ⟨reply', hserve, rfl⟩⟩, List.mem_cons_self⟩

/-- Two replicas with increments of their own, one of which serves its log to the other. -/
def twoLogs (ids ids' : List RequestId) : Except Fault (LogCluster Counter × SnapshotReply) := do
  commitAndServe 0 (← increments 1 ids' (← increments 0 ids freshCounters))

lemma twoLogs_run {ids ids' : List RequestId} {x : LogCluster Counter × SnapshotReply}
    (h : twoLogs ids ids' = .ok x) : AlignRun x.1 ∧ (0, x.2) ∈ x.1.replies := by
  obtain ⟨c₁, h₁, h⟩ := bind_eq_ok.mp h
  obtain ⟨c₂, h₂, h⟩ := bind_eq_ok.mp h
  exact commitAndServe_run (increments_run (increments_run alignRun_freshCounters h₁) h₂) h

/-- A replica that has missed the second request keeps the one it has in its place. -/
theorem alignment_keeps_missed : ∃ (c : LogCluster Counter) (reply : SnapshotReply)
    (l' : Log Counter), AlignRun c ∧ (0, reply) ∈ c.replies ∧
    (c.logs 1).applySnapshotModifyLog reply = .ok (l', true) ∧
    (c.logs 1).KeepsLocal l' reply.checkpoint ∧ (c.logs 1).Aligned reply.checkpoint := by
  have heval : ∃ x, twoLogs [(0, 1), (0, 2)] [(0, 1), (1, 1)] = .ok x ∧
      ∃ y, (x.1.logs 1).applySnapshotModifyLog x.2 = .ok y ∧ y.2 = true ∧
        (x.1.logs 1).committedCheckpoint.seq = 0 ∧ x.2.seq = 2 ∧
        ((ClientRecord.ofProto x.2.checkpoint.clientRecord).uncontained
          ((x.1.logs 1).log.map LogEntry.toRequest) = y.1.requestsAbove x.2.checkpoint.seq ∧
        ((x.1.logs 1).clientRecord.numMissing
          (.ofProto x.2.checkpoint.clientRecord)).toNat ≤ x.2.checkpoint.seq) := by
    decide +kernel
  obtain ⟨⟨c, reply⟩, htwo, ⟨l', ok⟩, happly, rfl, hcommitted, hseq, hkept, hshift⟩ := heval
  obtain ⟨⟨ops, hrun⟩, hmem⟩ := twoLogs_run htwo
  have hkeeps : (c.logs 1).KeepsLocal l' reply.checkpoint :=
    ⟨hkept ▸ List.Sublist.refl _, hshift⟩
  refine ⟨c, reply, l', ⟨ops, hrun⟩, hmem, happly, hkeeps, ?_⟩
  exact (alignment_keeps_local_iff hrun hmem (by omega) (by omega) (by omega) happly).mp hkeeps

/-- **A request is lost**: a replica has the committed requests behind one of its own, which is at
a position of the checkpoint and is not added again. -/
theorem extra_request_lost : ∃ (c : LogCluster Counter) (reply : SnapshotReply)
    (l' : Log Counter), AlignRun c ∧ (0, reply) ∈ c.replies ∧
    0 ≤ (c.logs 1).committedCheckpoint.seq ∧ (c.logs 1).committedCheckpoint.seq < reply.seq ∧
    (c.logs 1).applySnapshotModifyLog reply = .ok (l', true) ∧
    ¬(c.logs 1).KeepsLocal l' reply.checkpoint := by
  have heval : ∃ x, twoLogs [(0, 1), (0, 2)] [(1, 1), (0, 1), (0, 2)] = .ok x ∧
      ∃ y, (x.1.logs 1).applySnapshotModifyLog x.2 = .ok y ∧ y.2 = true ∧
        (x.1.logs 1).committedCheckpoint.seq < x.2.seq ∧
        (ClientRecord.ofProto x.2.checkpoint.clientRecord).uncontained
          ((x.1.logs 1).log.map LogEntry.toRequest) = [⟨1, 1, []⟩] ∧
        y.1.requestsAbove x.2.checkpoint.seq = [] := by
    decide +kernel
  obtain ⟨⟨c, reply⟩, htwo, ⟨l', ok⟩, happly, rfl, hahead, hlocal, hnone⟩ := heval
  obtain ⟨hrun, hmem⟩ := twoLogs_run htwo
  refine ⟨c, reply, l', hrun, hmem, Nat.zero_le _, hahead, happly, fun hkeeps => ?_⟩
  have hsub := hkeeps.kept
  rw [hlocal, hnone] at hsub
  cases List.sublist_nil.mp hsub

end

end DomBft
