import DomBft.Repair.Logs
import DomBft.Repair.Selection

/-!
What `applySuffix` does to a log, for arbitrary suffixes.

* `AgreesUpTo`: how far the log agrees with the entries of the suffix; `skipEntries_cases`
  says that the first loop finds this position.
* `AllNew`: the requests that `addEntry` takes one after the other; `addSuffix_cases` says
  that the last loop adds all of the suffix exactly if its requests are such.
* `applySuffix_cases`: the early return, the missing requests, and the suffix that has been
  added.
-/

namespace DomBft

open Fallible

/-! ### The part of the suffix that the log has -/

section

variable {A : Type} {l : Log A}

/-- The log agrees with an entry of a suffix at a position: the position is committed, or
the digests are equal. -/
def Log.AgreesAt (l : Log A) (seq : ℕ) (e : LogEntryProto) : Prop :=
  seq < l.nextSeq ∧ (seq ≤ l.committedCheckpoint.seq ∨ l.getDigestAt seq = .ok e.digest)

/-- The log agrees with exactly the first `k` entries, which stand at the positions from
`seq` on. -/
structure Log.AgreesUpTo (l : Log A) (seq : ℕ) (es : List LogEntryProto) (k : ℕ) : Prop where
  le : k ≤ es.length
  agrees : ∀ i e, i < k → es[i]? = some e → l.AgreesAt (seq + i) e
  stop : ∀ e, es[k]? = some e → ¬l.AgreesAt (seq + k) e

namespace Log.AgreesUpTo

variable {seq k k' : ℕ} {e : LogEntryProto} {es : List LogEntryProto}

lemma zero (h : ∀ e, es[0]? = some e → ¬l.AgreesAt seq e) : l.AgreesUpTo seq es 0 :=
  ⟨Nat.zero_le _, fun _ _ hi => absurd hi (Nat.not_lt_zero _), h⟩

lemma cons (he : l.AgreesAt seq e) (h : l.AgreesUpTo (seq + 1) es k) :
    l.AgreesUpTo seq (e :: es) (k + 1) where
  le := Nat.succ_le_succ h.le
  agrees i e' hi he' := by
    cases i with
    | zero =>
        cases Option.some.inj he'
        exact he
    | succ i =>
        rw [← Nat.add_assoc, Nat.add_right_comm]
        exact h.agrees i e' (by omega) he'
  stop e' he' := by
    rw [← Nat.add_assoc, Nat.add_right_comm]
    exact h.stop e' he'

lemma unique (h : l.AgreesUpTo seq es k) (h' : l.AgreesUpTo seq es k') : k = k' := by
  rcases Nat.lt_trichotomy k k' with hlt | heq | hlt
  · obtain ⟨e, he⟩ : ∃ e, es[k]? = some e := ⟨_, List.getElem?_eq_getElem (hlt.trans_le h'.le)⟩
    exact absurd (h'.agrees k e hlt he) (h.stop e he)
  · exact heq
  · obtain ⟨e, he⟩ : ∃ e, es[k']? = some e := ⟨_, List.getElem?_eq_getElem (hlt.trans_le h.le)⟩
    exact absurd (h.agrees k' e hlt he) (h'.stop e he)

/-- Where a log stops to agree with a suffix is at most at its end, and behind its committed
position if the end of the suffix is. -/
lemma bounds [Sha256] (hl : l.WellFormed) (h : l.AgreesUpTo seq es k) (hseq : seq ≤ l.nextSeq)
    (hend : l.committedCheckpoint.seq < seq + es.length) :
    l.committedCheckpoint.seq < seq + k ∧ seq + k ≤ l.nextSeq := by
  have hcommitted := hl.committed_lt
  have hle : seq + k ≤ l.nextSeq := by
    cases k with
    | zero => exact hseq
    | succ k =>
        have hagree := h.agrees k _ (Nat.lt_succ_self k) (List.getElem?_eq_getElem h.le)
        have := hagree.1
        omega
  refine ⟨?_, hle⟩
  rcases h.le.eq_or_lt with rfl | hlt
  · exact hend
  · have hstop := h.stop _ (List.getElem?_eq_getElem hlt)
    rw [Log.AgreesAt, not_and, not_or] at hstop
    by_cases hin : seq + k < l.nextSeq
    · exact not_le.mp (hstop hin).1
    · omega

end Log.AgreesUpTo

/-- **The first loop** skips what the log has, and updates the record with it. -/
lemma skipEntries_cases {seq : ℕ} {r : ClientRecord} {es : List LogEntryProto}
    {res : ℕ × ClientRecord × List LogEntryProto} (h : skipEntries l seq r es = .ok res) :
    ∃ k, l.AgreesUpTo seq es k ∧
      res = (seq + k, r.addAll ((es.take k).map LogEntryProto.id), es.drop k) := by
  induction es generalizing seq r with
  | nil =>
      cases Except.ok.inj h
      exact ⟨0, .zero (by simp), rfl⟩
  | cons e es ih =>
      have hstop : ¬l.AgreesAt seq e → res = (seq, r, e :: es) →
          ∃ k, l.AgreesUpTo seq (e :: es) k ∧
            res = (seq + k, r.addAll (((e :: es).take k).map LogEntryProto.id), (e :: es).drop k) := by
        rintro hno rfl
        refine ⟨0, .zero fun e' he' => ?_, rfl⟩
        cases Option.some.inj he'
        exact hno
      have hskip : l.AgreesAt seq e →
          skipEntries l (seq + 1) (r.update e.clientId e.clientSeq).1 es = .ok res →
          ∃ k, l.AgreesUpTo seq (e :: es) k ∧
            res = (seq + k, r.addAll (((e :: es).take k).map LogEntryProto.id), (e :: es).drop k) := by
        intro hag h
        obtain ⟨k, hk, rfl⟩ := ih h
        exact ⟨k + 1, hk.cons hag, by rw [Nat.add_right_comm, Nat.add_assoc]; rfl⟩
      rw [skipEntries] at h
      split at h
      · rename_i hnext
        exact hstop (fun hag => absurd hag.1 (by omega)) (Except.ok.inj h).symm
      rename_i hnext
      split at h
      · rename_i hcommitted
        exact hskip ⟨by omega, .inl hcommitted⟩ h
      rename_i hcommitted
      obtain ⟨digest, hdigest, h⟩ := bind_eq_ok.mp h
      split at h
      · rename_i hne
        refine hstop (fun hag => ?_) (pure_eq_ok.mp h).symm
        rcases hag.2 with hle | heq
        · exact hcommitted hle
        · exact hne (Except.ok.inj (hdigest.symm.trans heq))
      · rename_i heq
        exact hskip ⟨by omega, .inr (by rw [hdigest, not_not.mp heq])⟩ h

end

/-! ### The part that is added -/

section

variable [Sha256] [PaddedRequestData]

/-- Every request is new to the client record when its turn comes, and parses: `addEntry`
takes all of them. -/
def AllNew : ClientRecord → List Request → Prop
  | _, [] => True
  | r, a :: as =>
    (r.update a.clientId a.clientSeq).2 = true ∧ a.Parses ∧
      AllNew (r.update a.clientId a.clientSeq).1 as

/-- The entry names the request: its key, and the digest of its payload. -/
structure LogEntryProto.Names (e : LogEntryProto) (a : Request) : Prop where
  id_eq : e.id = a.id
  requestDigest_eq : e.requestDigest = sha256 a.request

variable {A : Type} [Application A] {l l' : Log A}

/-- Adding an entry moves the next free position by one, or not at all. -/
lemma addEntry_nextSeq {c s : UInt32} {req : Bytes} {checkDup : Bool} {res : Option Bytes}
    (h : l.addEntry c s req checkDup = .ok (l', res)) :
    l'.nextSeq = if res.isSome then l.nextSeq + 1 else l.nextSeq := by
  have happend : ∀ {l₁ : Log A}, l₁.append c s req = .ok (l', res) → l₁.nextSeq = l.nextSeq →
      l'.nextSeq = if res.isSome then l.nextSeq + 1 else l.nextSeq := by
    intro l₁ h hnext
    obtain ⟨d, -, h⟩ := bind_eq_ok.mp h
    cases hreq : reqData req with
    | none =>
        rw [hreq] at h
        cases pure_eq_ok.mp h
        exact hnext
    | some data =>
        rw [hreq] at h
        obtain ⟨_, -, h⟩ := bind_eq_ok.mp h
        cases pure_eq_ok.mp h
        exact congrArg (· + 1) hnext
  rw [Log.addEntry] at h
  split at h
  · simp only at h
    split at h
    · exact happend h rfl
    · cases Except.ok.inj h
      rfl
  · exact happend h rfl

lemma addSuffix_nextSeq_le {available : RequestMap Bytes} {seq : ℕ} {es : List LogEntryProto}
    (h : addSuffix available l seq es = .ok l') : l'.nextSeq ≤ l.nextSeq + es.length := by
  induction es generalizing l seq with
  | nil =>
      cases Except.ok.inj h
      exact le_rfl
  | cons e es ih =>
      rw [addSuffix] at h
      split at h
      · cases h
      split at h
      · cases h
      split at h
      · cases h
      obtain ⟨⟨l₁, res⟩, hadd, h⟩ := bind_eq_ok.mp h
      have hnext := addEntry_nextSeq hadd
      have hle := ih h
      rw [List.length_cons]
      split at hnext <;> omega

/-- **The last loop** adds the whole suffix exactly if all of its requests are new; then the
log is longer by these requests, and the client record has been updated with them. -/
lemma addSuffix_cases (hc : CollisionFree) {available : RequestMap Bytes} {seq : ℕ}
    {es : List LogEntryProto} {rs : List Request} (hl : l.Linked)
    (hrs : List.Forall₂ LogEntryProto.Names es rs) (h : addSuffix available l seq es = .ok l') :
    (l'.nextSeq = l.nextSeq + es.length ↔ AllNew l.clientRecord rs) ∧
      (AllNew l.clientRecord rs → Log.Extends l l' rs ∧
        l'.clientRecord = l.clientRecord.addAll (rs.map Request.id)) := by
  induction hrs generalizing l seq with
  | nil =>
      cases Except.ok.inj h
      exact ⟨⟨fun _ => trivial, fun _ => rfl⟩, fun _ => ⟨.refl hl, rfl⟩⟩
  | @cons e a es as hname hrs ih =>
      rw [addSuffix] at h
      split at h
      · cases h
      split at h
      · cases h
      rename_i request hrequest
      split at h
      · cases h
      rename_i hdigest
      obtain ⟨⟨l₁, res⟩, hadd, hrest⟩ := bind_eq_ok.mp h
      obtain rfl : request = a.request :=
        hc.injective ((not_not.mp hdigest).trans hname.requestDigest_eq)
      obtain ⟨hclient, hseq⟩ := Prod.mk.inj hname.id_eq
      rw [hclient, hseq] at hadd
      have hshort : res = none → l'.nextSeq ≠ l.nextSeq + (e :: es).length := by
        rintro rfl hlen
        have hnext := addEntry_nextSeq hadd
        have hle := addSuffix_nextSeq_le hrest
        simp only [Option.isSome_none, Bool.false_eq_true, if_false] at hnext
        rw [List.length_cons] at hlen
        omega
      rcases Log.addEntry_cases hl hadd with ⟨hdup, hres, -⟩ | ⟨-, hparse, hres, -⟩ |
        ⟨hnew, hparse, -, hext, hrec⟩
      · have hno : ¬AllNew l.clientRecord (a :: as) := fun hall => by
          rw [AllNew, hdup] at hall
          exact absurd hall.1 (by simp)
        exact ⟨iff_of_false (hshort hres) hno, fun hall => absurd hall hno⟩
      · have hno : ¬AllNew l.clientRecord (a :: as) := fun hall => hparse hall.2.1
        exact ⟨iff_of_false (hshort hres) hno, fun hall => absurd hall hno⟩
      · obtain ⟨hlen, hall⟩ := ih hext.linked hrest
        have hnext := hext.nextSeq_eq hl
        rw [List.length_singleton] at hnext
        have hiff : AllNew l.clientRecord (a :: as) ↔ AllNew l₁.clientRecord as := by
          rw [AllNew, hrec]
          exact ⟨fun h => h.2.2, fun h => ⟨hnew, hparse, h⟩⟩
        rw [hiff, List.length_cons]
        refine ⟨by rw [← hlen]; omega, fun hnews => ?_⟩
        obtain ⟨hext', hrec'⟩ := hall hnews
        exact ⟨hext.trans hext', by rw [hrec', hrec]; rfl⟩

/-! ### The whole function -/

/-- The client record of the checkpoint, updated with the first `k` entries. -/
def LogSuffix.recordAfter (s : LogSuffix) (k : ℕ) : ClientRecord :=
  (ClientRecord.ofProto s.checkpoint.clientRecord).addAll
    ((s.entries.take k).map LogEntryProto.id)

/-- The local log has the checkpoint of the suffix, as `tryFinishRepair` checks before it calls
`applySuffix`. -/
def LogSuffix.CheckpointHeld (s : LogSuffix) (l : Log A) : Prop :=
  s.checkpoint.seq ≤ l.committedCheckpoint.seq ∨
    s.checkpoint.seq < l.nextSeq ∧ l.getDigestAt s.checkpoint.seq = .ok s.checkpoint.logDigest

/-- **What `applySuffix` does.**  It returns at once where the committed checkpoint is not
before the end of the suffix.  Otherwise it cuts the log where it stops to agree with the
suffix, with the record of what is left, and adds the rest, unless a request is missing. -/
theorem applySuffix_cases {s : LogSuffix} {available : RequestMap Bytes}
    {missing : Option (List RequestId)} (h : applySuffix s available l = .ok (l', missing)) :
    (s.checkpoint.seq ≤ l.committedCheckpoint.seq ∨
        l.getDigestAt s.checkpoint.seq = .ok s.checkpoint.logDigest) ∧
      (s.checkpoint.seq + s.entries.length ≤ l.committedCheckpoint.seq ∧ l' = l ∧
          missing = none ∨
        l.committedCheckpoint.seq < s.checkpoint.seq + s.entries.length ∧
          ∃ k l₁ available', l.AgreesUpTo (s.checkpoint.seq + 1) s.entries k ∧
            Log.abort { l with clientRecord := s.recordAfter k } (s.checkpoint.seq + 1 + k) =
              .ok l₁ ∧
            (l' = l₁ ∧ missing.isSome ∨
              missing = none ∧ addSuffix available' l₁ (s.checkpoint.seq + 1 + k)
                (s.entries.drop k) = .ok l')) := by
  obtain ⟨⟨⟩, hck, h⟩ := bind_eq_ok.mp h
  have hcheck : s.checkpoint.seq ≤ l.committedCheckpoint.seq ∨
      l.getDigestAt s.checkpoint.seq = .ok s.checkpoint.logDigest := by
    rw [checkCheckpoint] at hck
    split at hck
    · exact .inl (by assumption)
    · obtain ⟨digest, hdigest, hck⟩ := bind_eq_ok.mp hck
      split at hck
      · rename_i heq
        exact .inr (by rw [hdigest, heq])
      · cases hck
  refine ⟨hcheck, ?_⟩
  split at h
  · rename_i hend
    cases Except.ok.inj h
    exact .inl ⟨hend, rfl, rfl⟩
  rename_i hend
  refine .inr ⟨by omega, ?_⟩
  obtain ⟨res, hskip, h⟩ := bind_eq_ok.mp h
  obtain ⟨k, hk, rfl⟩ := skipEntries_cases hskip
  obtain ⟨available₁, -, h⟩ := bind_eq_ok.mp h
  obtain ⟨l₁, habort, h⟩ := bind_eq_ok.mp h
  refine ⟨k, l₁, (addFullRequests (s.entries.drop k) available₁).1, hk, habort, ?_⟩
  simp only at h
  split at h
  · cases Except.ok.inj h
    exact .inl ⟨rfl, rfl⟩
  · obtain ⟨l₂, hadd, h⟩ := bind_eq_ok.mp h
    cases pure_eq_ok.mp h
    exact .inr ⟨rfl, hadd⟩

end

end DomBft
