import DomBft.Log.Committed

/-!
The positions of a log, whether its payloads parse or not.

* `Climbs`: positions that go up by one at most, so that none is left out.
* `Placed`: the entries lie without a gap above the stable position, up to the next one.
* `Bounded`: moreover the stable, the committed and the next position are in order; one lemma for
  each operation.  `getDigestAt_inRange` and `getEntry_inRange` are what follows for reading.
* `Fits`: the snapshot replies that keep the positions in order.
-/

namespace DomBft.Log

open Fallible

/-! ### Positions -/

/-- Positions that go up by one at most. -/
def Climbs (s : List ℕ) : Prop := s.IsChain fun a b => b ≤ a + 1

namespace Climbs

variable {s : List ℕ} {p q : ℕ}

/-- A position is not further than its place. -/
lemma getElem?_le (h : Climbs s) (hhead : s.head? = some p) {i : ℕ} (hi : s[i]? = some q) :
    q ≤ p + i := by
  induction i generalizing q with
  | zero =>
      rw [← List.head?_eq_getElem?, hhead] at hi
      exact (Option.some.inj hi).ge
  | succ i ih =>
      obtain ⟨hlt, rfl⟩ := List.getElem?_eq_some_iff.mp hi
      have hprev := ih (List.getElem?_eq_getElem (Nat.lt_of_succ_lt hlt))
      have hstep := List.IsChain.getElem h i hlt
      omega

lemma concat (h : Climbs s) (hlast : ∀ q, s.getLast? = some q → p ≤ q + 1) : Climbs (s ++ [p]) := by
  refine List.isChain_append.mpr ⟨h, List.isChain_singleton p, fun a ha b hb => ?_⟩
  cases Option.some.inj hb
  exact hlast a ha

end Climbs

variable {A : Type} {l l' : Log A}

/-- The positions of the entries. -/
def seqs (l : Log A) : List ℕ := l.log.map (·.seq)

/-- The entries lie without a gap above the stable position, up to the next one. -/
structure Placed (l : Log A) : Prop where
  empty : l.seqs = [] → l.nextSeq ≤ l.stableCheckpoint.seq + 1
  head : ∀ p, l.seqs.head? = some p → p ≤ l.stableCheckpoint.seq + 1
  last : ∀ p, l.seqs.getLast? = some p → l.nextSeq ≤ p + 1
  climbs : Climbs l.seqs

/-- Moreover, the stable, the committed and the next position are in order. -/
structure Bounded (l : Log A) : Prop extends l.Placed where
  stable_le : l.stableCheckpoint.seq ≤ l.committedCheckpoint.seq
  committed_lt : l.committedCheckpoint.seq < l.nextSeq

lemma bounded_fresh (app : A) : (fresh app).Bounded where
  empty _ := le_rfl
  head _ h := nomatch h
  last _ h := nomatch h
  climbs := List.isChain_nil
  stable_le := le_rfl
  committed_lt := Nat.one_pos

/-- An entry at the next position. -/
lemma Placed.concat (hl : l.Placed) {e : LogEntry} (he : e.seq = l.nextSeq)
    (hlog : l'.log = l.log ++ [e]) (hstable : l'.stableCheckpoint = l.stableCheckpoint)
    (hnext : l'.nextSeq ≤ l.nextSeq + 1) : l'.Placed := by
  have hseqs : l'.seqs = l.seqs ++ [l.nextSeq] := by
    rw [seqs, hlog, List.map_append, List.map_singleton, he]
    rfl
  refine ⟨fun hnil => ?_, fun p hp => ?_, fun p hp => ?_, ?_⟩
  · rw [hseqs] at hnil
    exact absurd hnil (by simp)
  · rw [hseqs, List.head?_append] at hp
    rw [hstable]
    cases hhead : l.seqs.head? with
    | none =>
        rw [hhead] at hp
        cases Option.some.inj hp
        exact hl.empty (List.head?_eq_none_iff.mp hhead)
    | some q =>
        rw [hhead] at hp
        cases Option.some.inj hp
        exact hl.head _ hhead
  · rw [hseqs, List.getLast?_concat] at hp
    cases Option.some.inj hp
    exact hnext
  · rw [hseqs]
    exact hl.climbs.concat hl.last

/-! ### Reading -/

/-- A log with positions to read from is not empty. -/
lemma Placed.inRange (hl : l.Placed) {p : ℕ} (hs : l.stableCheckpoint.seq < p)
    (hp : p < l.nextSeq) : l.inRange p := by
  refine ⟨hs, hp, fun hnil => ?_⟩
  have hempty := hl.empty (by rw [seqs, hnil, List.map_nil])
  omega

lemma slot_ne_runtimeError (p : ℕ) : l.slot p ≠ .error .runtimeError := by
  rw [slot]
  split
  · simp
  split_ifs
  · simp
  split
  · simp
  split_ifs <;> simp

/-- **Reading an entry does not throw** between the stable and the next position. -/
lemma Placed.getEntry_ne (hl : l.Placed) {p : ℕ} (hs : l.stableCheckpoint.seq < p)
    (hp : p < l.nextSeq) : l.getEntry p ≠ .error .runtimeError := by
  rw [getEntry, if_pos (hl.inRange hs hp)]
  exact slot_ne_runtimeError p

/-- **Reading a digest does not throw** from the stable position on. -/
lemma Placed.getDigestAt_ne (hl : l.Placed) {p : ℕ} (hs : l.stableCheckpoint.seq ≤ p)
    (hp : p < l.nextSeq) : l.getDigestAt p ≠ .error .runtimeError := by
  rw [getDigestAt]
  split_ifs with hstable hrange
  · simp
  · intro h
    cases hslot : l.slot p with
    | ok e =>
        rw [hslot] at h
        cases h
    | error fault =>
        rw [hslot] at h
        obtain rfl : fault = .runtimeError := Except.error.inj h
        exact slot_ne_runtimeError p hslot
  · exact absurd (hl.inRange (by omega) hp) hrange

/-- An entry whose digest can be read is in its place. -/
lemma getElem?_of_getDigestAt {p : ℕ} (hp : p ≠ l.stableCheckpoint.seq) {first : LogEntry}
    (hfirst : l.log.head? = some first) (h : (l.getDigestAt p).isOk = true) :
    ∃ e, l.log[p - first.seq]? = some e ∧ e.seq = p := by
  rw [getDigestAt, if_neg hp] at h
  split_ifs at h with hrange
  · rw [slot, hfirst] at h
    dsimp only at h
    split_ifs at h
    · cases h
    · split at h
      · cases h
      · rename_i e he
        split_ifs at h with hseq
        · exact ⟨e, he, hseq⟩
        · cases h
  · cases h

/-! ### The operations -/

lemma Bounded.setDeadline (hl : l.Bounded) {seq deadline : ℕ}
    (h : l.setDeadline seq deadline = .ok l') : l'.Bounded := by
  obtain ⟨i, rfl⟩ := setDeadline_eq h
  have hseqs : ({ l with log := l.log.modify i fun e => { e with deadline } } : Log A).seqs =
      l.seqs := by
    refine List.ext_getElem? fun j => ?_
    rw [seqs, seqs, List.getElem?_map, List.getElem?_map, List.getElem?_modify]
    cases l.log[j]? with
    | none => rfl
    | some e => by_cases hij : i = j <;> simp [hij]
  refine ⟨⟨?_, ?_, ?_, ?_⟩, hl.stable_le, hl.committed_lt⟩
  · rw [hseqs]
    exact hl.empty
  · rw [hseqs]
    exact hl.head
  · rw [hseqs]
    exact hl.last
  · rw [hseqs]
    exact hl.climbs

lemma Bounded.addCert (hl : l.Bounded) {seq : ℕ} {cert : Cert} {ok : Bool}
    (h : l.addCert seq cert = .ok (l', ok)) : l'.Bounded := by
  rcases addCert_cases h with rfl | rfl
  · exact hl
  · exact ⟨⟨hl.empty, hl.head, hl.last, hl.climbs⟩, hl.stable_le, hl.committed_lt⟩

section

variable [Application A] [Sha256] [PaddedRequestData]

lemma Placed.append (hl : l.Placed) {c s : UInt32} {req : Bytes} {res : Option Bytes}
    (h : l.append c s req = .ok (l', res)) :
    l'.Placed ∧ l.nextSeq ≤ l'.nextSeq ∧ (res.isSome → l'.nextSeq = l.nextSeq + 1) := by
  obtain ⟨d, -, h⟩ := bind_eq_ok.mp h
  cases hreq : reqData req with
  | none =>
      rw [hreq] at h
      cases pure_eq_ok.mp h
      exact ⟨hl.concat rfl rfl rfl (Nat.le_succ _), le_rfl, nofun⟩
  | some data =>
      rw [hreq] at h
      obtain ⟨_, -, h⟩ := bind_eq_ok.mp h
      cases pure_eq_ok.mp h
      exact ⟨hl.concat rfl rfl rfl le_rfl, Nat.le_succ _, fun _ => rfl⟩

lemma Placed.addEntry (hl : l.Placed) {c s : UInt32} {req : Bytes} {checkDup : Bool}
    {res : Option Bytes} (h : l.addEntry c s req checkDup = .ok (l', res)) :
    l'.Placed ∧ l.nextSeq ≤ l'.nextSeq ∧ (res.isSome → l'.nextSeq = l.nextSeq + 1) := by
  have hrecord : ∀ clientRecord, ({ l with clientRecord } : Log A).Placed := fun _ =>
    ⟨hl.empty, hl.head, hl.last, hl.climbs⟩
  rw [Log.addEntry] at h
  dsimp only at h
  split_ifs at h
  · exact (hrecord (l.clientRecord.update c s).1).append h
  · cases Except.ok.inj h
    exact ⟨hrecord _, le_rfl, fun h => by cases h⟩
  · exact hl.append h

lemma Bounded.addEntry (hl : l.Bounded) {c s : UInt32} {req : Bytes} {checkDup : Bool}
    {res : Option Bytes} (h : l.addEntry c s req checkDup = .ok (l', res)) : l'.Bounded := by
  obtain ⟨hplaced, hnext, -⟩ := hl.toPlaced.addEntry h
  obtain ⟨hstable, hcommitted⟩ := addEntry_checkpoints h
  refine ⟨hplaced, ?_, ?_⟩
  · rw [hstable, hcommitted]
    exact hl.stable_le
  · rw [hcommitted]
    exact hl.committed_lt.trans_le hnext

lemma Bounded.reapply {es : List LogEntry} (hl : l.Bounded) (h : reapply l es = .ok l') :
    l'.Bounded := by
  induction es generalizing l with
  | nil =>
      cases Except.ok.inj h
      exact hl
  | cons e es ih =>
      obtain ⟨⟨l₁, res⟩, hadd, h⟩ := bind_eq_ok.mp h
      exact ih (hl.addEntry hadd) h

/-- The entries of a reply, all of them added. -/
lemma Placed.addEntries {startSeq : ℕ} {es : List LogEntryProto} (hl : l.Placed)
    (h : addEntries startSeq l es = .ok (l', true)) :
    l'.Placed ∧ l'.nextSeq = l.nextSeq + (es.filter (startSeq ≤ ·.seq)).length := by
  induction es generalizing l with
  | nil =>
      cases Except.ok.inj h
      exact ⟨hl, rfl⟩
  | cons e es ih =>
      rw [Log.addEntries] at h
      by_cases he : e.seq < startSeq
      · rw [if_pos he] at h
        rw [List.filter_cons_of_neg (by simpa using he)]
        exact ih hl h
      · rw [if_neg he] at h
        obtain ⟨⟨l₁, res⟩, hadd, h⟩ := bind_eq_ok.mp h
        obtain ⟨hplaced, -, hnext⟩ := hl.addEntry hadd
        cases res with
        | none => cases pure_eq_ok.mp h
        | some _ =>
            obtain ⟨hplaced', hnext'⟩ := ih hplaced h
            rw [List.filter_cons_of_pos (by simpa using not_lt.mp he), List.length_cons]
            refine ⟨hplaced', ?_⟩
            rw [hnext', hnext rfl]
            omega

end

/-! ### Checkpoints -/

section

variable [Application A]

omit [Application A] in
/-- The entries above a position that the log has reached. -/
lemma Placed.drop (hl : l.Placed) {first : LogEntry} (hfirst : l.log.head? = some first)
    {cp : LogCheckpoint} (hseq : first.seq ≤ cp.seq + 1)
    (hlog : l'.log = l.log.drop (cp.seq + 1 - first.seq)) (hnext : l'.nextSeq = l.nextSeq)
    (hstable : l'.stableCheckpoint = cp) : l'.Placed := by
  have hseqs : l'.seqs = l.seqs.drop (cp.seq + 1 - first.seq) := by
    rw [seqs, hlog, List.map_drop]
    rfl
  have hhead : l.seqs.head? = some first.seq := by rw [seqs, List.head?_map, hfirst]; rfl
  refine ⟨fun hnil => ?_, fun p hp => ?_, fun p hp => ?_, ?_⟩
  · -- all entries are gone, so that the last one is not above the position
    rw [hseqs, List.drop_eq_nil_iff] at hnil
    obtain ⟨q, hq⟩ : ∃ q, l.seqs.getLast? = some q := by
      cases hlast : l.seqs.getLast? with
      | none =>
          rw [List.getLast?_eq_none_iff.mp hlast] at hhead
          cases hhead
      | some q => exact ⟨q, rfl⟩
    have hlast := hl.last q hq
    rw [List.getLast?_eq_getElem?] at hq
    have hle := hl.climbs.getElem?_le hhead hq
    have hpos : 0 < l.seqs.length := List.length_pos_of_mem (List.mem_of_getElem? hq)
    rw [hnext, hstable]
    omega
  · rw [hseqs, List.head?_drop] at hp
    have hle := hl.climbs.getElem?_le hhead hp
    rw [hstable]
    omega
  · rw [hseqs, List.getLast?_drop] at hp
    split_ifs at hp
    rw [hnext]
    exact hl.last p hp
  · rw [hseqs]
    exact hl.climbs.drop _

omit [Application A] in
/-- **The assertions of `setCheckpoint` hold** for a checkpoint that is kept with its snapshot. -/
lemma Placed.stabilizeCheckpoint_ne (hl : l.Placed) {cp : LogCheckpoint}
    (hsnap : cp.appDigest ≠ [] → cp.snapshot ≠ none) :
    l.stabilizeCheckpoint cp ≠ .error .assertion := by
  rw [stabilizeCheckpoint]
  by_cases hstab : cp.appDigest ≠ [] ∧ l.stableCheckpoint.seq < cp.seq
  · have herase : l.eraseUpTo cp.seq ≠ .error .assertion := by
      rw [eraseUpTo]
      split
      · simp
      · rename_i first hfirst
        have hle := hl.head first.seq (by rw [seqs, List.head?_map, hfirst]; rfl)
        rw [if_neg (by omega)]
        split_ifs <;> simp
    rw [if_pos hstab]
    intro h
    rcases bind_eq_error.mp h with herror | ⟨log, -, h⟩
    · exact herase herror
    · rw [if_neg (hsnap hstab.1)] at h
      cases h
  · rw [if_neg hstab]
    simp

lemma Bounded.commitCheckpoint (hl : l.Bounded) {cp : LogCheckpoint} (hp : cp.seq < l.nextSeq)
    (h : l.commitCheckpoint cp = .ok l') :
    l'.Bounded ∧ cp.seq ≤ l'.committedCheckpoint.seq := by
  rw [Log.commitCheckpoint] at h
  split_ifs at h with hlt
  · obtain ⟨app, -, h⟩ := bind_eq_ok.mp h
    cases pure_eq_ok.mp h
    exact ⟨⟨⟨hl.empty, hl.head, hl.last, hl.climbs⟩, hl.stable_le.trans hlt.le, hp⟩, le_rfl⟩
  · cases Except.ok.inj h
    exact ⟨hl, not_lt.mp hlt⟩

lemma Bounded.setCheckpoint (hl : l.Bounded) {cp : LogCheckpoint} (hp : cp.seq < l.nextSeq)
    (h : l.setCheckpoint cp = .ok l') : l'.Bounded := by
  obtain ⟨l₁, hcommit, h⟩ := bind_eq_ok.mp h
  obtain ⟨hl₁, hcp⟩ := hl.commitCheckpoint hp hcommit
  rw [stabilizeCheckpoint] at h
  by_cases hstab : cp.appDigest ≠ [] ∧ l₁.stableCheckpoint.seq < cp.seq
  · rw [if_pos hstab] at h
    obtain ⟨log, herase, h⟩ := bind_eq_ok.mp h
    split_ifs at h
    cases pure_eq_ok.mp h
    rw [eraseUpTo] at herase
    split at herase
    · rename_i hnone
      cases Except.ok.inj herase
      have hnil : l₁.seqs = [] := by rw [seqs, List.head?_eq_none_iff.mp hnone, List.map_nil]
      have hempty := hl₁.empty hnil
      have hcommitted := hl₁.committed_lt
      omega
    · rename_i first hfirst
      split_ifs at herase with hbefore hshort
      cases Except.ok.inj herase
      exact ⟨hl₁.toPlaced.drop hfirst (by omega) rfl rfl rfl, hcp, hl₁.committed_lt⟩
  · rw [if_neg hstab] at h
    cases Except.ok.inj h
    exact hl₁

end

/-! ### Snapshots -/

section

variable [Application A] [Sha256] [PaddedRequestData]

/-- The checkpoint of a snapshot reply lies among the positions that the log gets from it: above
the application snapshot, or above the committed position, which the log has to hold. -/
def Fits (l : Log A) (reply : SnapshotReply) : Prop :=
  match reply.snapshot with
  | some _ => ∀ p ∈ reply.snapshotCheckpoint, p.seq ≤ reply.checkpoint.seq ∧
      reply.checkpoint.seq ≤ p.seq + (requestsFrom (p.seq + 1) reply).length
  | none => l.stableCheckpoint.seq ≤ reply.checkpoint.seq ∧
      reply.checkpoint.seq ≤ l.committedCheckpoint.seq +
        (requestsFrom (l.committedCheckpoint.seq + 1) reply).length ∧
      (l.getDigestAt l.committedCheckpoint.seq).isOk = true

instance (l : Log A) (reply : SnapshotReply) : Decidable (l.Fits reply) := by
  unfold Fits
  split <;> infer_instance

omit [Sha256] [PaddedRequestData] in
/-- The log cut at its committed position. -/
lemma Bounded.abort (hl : l.Bounded) (hd : (l.getDigestAt l.committedCheckpoint.seq).isOk = true)
    (h : l.abort (l.committedCheckpoint.seq + 1) = .ok l') :
    l'.Placed ∧ l'.nextSeq = l.committedCheckpoint.seq + 1 ∧
      l'.stableCheckpoint = l.stableCheckpoint := by
  have hstable := hl.stable_le
  rw [Log.abort] at h
  split_ifs at h with hnext
  · cases Except.ok.inj h
    exact ⟨⟨fun hnil => (Nat.le_of_eq (le_antisymm hl.committed_lt hnext)).trans (hl.empty hnil),
      hl.head, fun p hp => (Nat.le_of_eq (le_antisymm hl.committed_lt hnext)).trans (hl.last p hp),
      hl.climbs⟩, rfl, rfl⟩
  · obtain ⟨log, herase, h⟩ := bind_eq_ok.mp h
    obtain ⟨app, -, h⟩ := bind_eq_ok.mp h
    cases pure_eq_ok.mp h
    refine ⟨?_, rfl, rfl⟩
    rw [eraseFrom] at herase
    split at herase
    · rename_i hnone
      have hempty := hl.empty (by rw [seqs, List.head?_eq_none_iff.mp hnone, List.map_nil])
      omega
    · rename_i first hfirst
      split_ifs at herase with hbefore hshort
      cases Except.ok.inj herase
      rw [not_not] at hbefore
      have hhead : l.seqs.head? = some first.seq := by rw [seqs, List.head?_map, hfirst]; rfl
      have hseqs : ({ l with
          log := l.log.take (l.committedCheckpoint.seq + 1 - first.seq)
          app
          nextSeq := l.committedCheckpoint.seq + 1 } : Log A).seqs =
            l.seqs.take (l.committedCheckpoint.seq + 1 - first.seq) := List.map_take
      refine ⟨fun hnil => ?_, fun p hp => ?_, fun p hp => ?_, ?_⟩
      · -- nothing is left only where the committed position is the stable one
        rw [hseqs, List.take_eq_nil_iff] at hnil
        rcases hnil with hzero | hnil
        · show l.committedCheckpoint.seq + 1 ≤ l.stableCheckpoint.seq + 1
          omega
        · rw [hnil] at hhead
          cases hhead
      · rw [hseqs, List.head?_take] at hp
        split_ifs at hp
        exact hl.head p hp
      · rw [hseqs] at hp
        show l.committedCheckpoint.seq + 1 ≤ p + 1
        by_cases hsame : l.committedCheckpoint.seq = l.stableCheckpoint.seq
        · rw [show l.committedCheckpoint.seq + 1 - first.seq = 0 by omega, List.take_zero] at hp
          cases hp
        · obtain ⟨e, he, heseq⟩ := getElem?_of_getDigestAt hsame hfirst hd
          have hlast : l.seqs[l.committedCheckpoint.seq - first.seq]? = some e.seq := by
            rw [seqs, List.getElem?_map, he]
            rfl
          rw [List.getLast?_take, if_neg (by omega),
            show l.committedCheckpoint.seq + 1 - first.seq - 1 =
              l.committedCheckpoint.seq - first.seq by omega, hlast] at hp
          cases Option.some.inj hp
          rw [heseq]
      · rw [hseqs]
        exact hl.climbs.take _

/-- **A snapshot reply that fits** keeps the positions in order. -/
lemma Bounded.resetToSnapshot (hl : l.Bounded) {reply : SnapshotReply} (hfits : l.Fits reply)
    (h : l.resetToSnapshot reply = .ok (l', true)) : l'.Bounded := by
  obtain ⟨cp, hcp, h⟩ := bind_eq_ok.mp h
  obtain ⟨hcpseq, -⟩ := LogCheckpoint.ofProto_eq hcp
  obtain ⟨start, hstart, h⟩ := bind_eq_ok.mp h
  cases start with
  | none => cases pure_eq_ok.mp h
  | some start =>
  obtain ⟨l₁, startSeq⟩ := start
  obtain ⟨⟨l₂, ok⟩, hadd, h⟩ := bind_eq_ok.mp h
  cases ok with
  | false => cases pure_eq_ok.mp h
  | true =>
  obtain ⟨-, -, rfl⟩ := finishSnapshot_eq h
  have hlength : ∀ p, (requestsFrom p reply).length =
      (reply.logEntries.filter (p ≤ ·.seq)).length := fun p => List.length_map _
  -- the log that the entries are added to
  have hl₁ : l₁.Placed ∧ l₁.stableCheckpoint.seq ≤ cp.seq ∧ l₁.committedCheckpoint = cp ∧
      cp.seq < l₁.nextSeq + (reply.logEntries.filter (startSeq ≤ ·.seq)).length := by
    rw [Fits] at hfits
    rw [startSnapshot] at hstart
    cases hsnap : reply.snapshot with
    | some snapshot =>
        rw [hsnap] at hstart hfits
        cases hp : reply.snapshotCheckpoint with
        | none =>
            rw [hp] at hstart
            cases hstart
        | some p =>
            rw [hp] at hstart hfits
            obtain ⟨scp, hofp, hstart⟩ := bind_eq_ok.mp hstart
            obtain ⟨app?, -, hstart⟩ := bind_eq_ok.mp hstart
            obtain ⟨hscpseq, -⟩ := LogCheckpoint.ofProto_eq hofp
            cases app? with
            | none => cases pure_eq_ok.mp hstart
            | some app =>
                cases pure_eq_ok.mp hstart
                obtain ⟨hle, hlt⟩ := hfits p rfl
                rw [hlength, ← hscpseq, ← hcpseq] at hlt
                refine ⟨⟨fun _ => le_rfl, fun _ h => (by cases h), fun _ h => (by cases h),
                  List.isChain_nil⟩, ?_, rfl, ?_⟩
                · show scp.seq ≤ cp.seq
                  omega
                · show cp.seq < scp.seq + 1 + _
                  omega
    | none =>
        rw [hsnap] at hstart hfits
        obtain ⟨l₃, habort, hstart⟩ := bind_eq_ok.mp hstart
        cases pure_eq_ok.mp hstart
        obtain ⟨hle, hlt, hd⟩ := hfits
        obtain ⟨hplaced, hnext, hstable⟩ := hl.abort hd habort
        rw [hlength, ← hcpseq] at hlt
        refine ⟨⟨hplaced.empty, hplaced.head, hplaced.last, hplaced.climbs⟩, ?_, rfl, ?_⟩
        · show l₃.stableCheckpoint.seq ≤ cp.seq
          rw [hstable]
          omega
        · show cp.seq < l₃.nextSeq + _
          omega
  obtain ⟨hplaced, hstable, hcommitted, hlt⟩ := hl₁
  obtain ⟨hplaced₂, hnext₂⟩ := hplaced.addEntries hadd
  obtain ⟨hstable₂, hsame₂⟩ := addEntries_checkpoints hadd
  have hcommitted₂ : l₂.committedCheckpoint = cp := hsame₂.trans hcommitted
  refine ⟨⟨hplaced₂.empty, hplaced₂.head, hplaced₂.last, hplaced₂.climbs⟩, ?_, ?_⟩
  · show l₂.stableCheckpoint.seq ≤ l₂.committedCheckpoint.seq
    rw [hstable₂, hcommitted₂]
    exact hstable
  · show l₂.committedCheckpoint.seq < l₂.nextSeq
    rw [hnext₂, hcommitted₂]
    exact hlt

lemma Bounded.applySnapshotModifyLog (hl : l.Bounded) {reply : SnapshotReply}
    (hfits : l.Fits reply) (h : l.applySnapshotModifyLog reply = .ok (l', true)) :
    l'.Bounded := by
  obtain ⟨cp, -, h⟩ := bind_eq_ok.mp h
  obtain ⟨⟨l₁, ok⟩, hreset, h⟩ := bind_eq_ok.mp h
  cases ok with
  | false => cases pure_eq_ok.mp h
  | true =>
      obtain ⟨l₂, hreapply, h⟩ := bind_eq_ok.mp h
      cases pure_eq_ok.mp h
      exact (hl.resetToSnapshot hfits hreset).reapply hreapply

end

end DomBft.Log
