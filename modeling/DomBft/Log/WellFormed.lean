import DomBft.Log
import DomBft.Lib.Fallible

/-!
The representation of the log: consecutive entries above the stable checkpoint, each one
chained to the digest before it.

* `IsSegment`: consecutive chained entries, with what appending, taking and dropping do.
* `Linked`: the log is such a segment and ends at the next free position.  `Linked.getEntry`,
  `Linked.getDigestAt` and `Linked.eraseFrom` say that no assertion on the index arithmetic
  fails; `Linked.take`, `Linked.drop` and `Linked.concat` are the ways in which operations
  change the log.
* `WellFormed`: moreover the committed position lies between the stable one and the next
  free one.
-/

namespace DomBft

open Fallible

/-! ### Segments -/

/-- The digest a segment ends with. -/
def lastDigest (d : Bytes) (es : List LogEntry) : Bytes := (es.getLast?.map (·.digest)).getD d

@[simp] lemma lastDigest_nil (d : Bytes) : lastDigest d [] = d := rfl

@[simp] lemma lastDigest_cons (d : Bytes) (e : LogEntry) (es : List LogEntry) :
    lastDigest d (e :: es) = lastDigest e.digest es := by
  rw [lastDigest, lastDigest, List.getLast?_cons]
  cases es.getLast? <;> rfl

lemma lastDigest_take_succ {d : Bytes} {es : List LogEntry} {i : ℕ} {e : LogEntry}
    (he : es[i]? = some e) : lastDigest d (es.take (i + 1)) = e.digest := by
  rw [List.take_add_one, he]
  simp [lastDigest]

lemma Log.getDigest_eq {A : Type} (l : Log A) :
    l.getDigest = lastDigest l.stableCheckpoint.logDigest l.log := by
  rw [Log.getDigest, lastDigest]
  cases l.log.getLast? <;> rfl

variable [Sha256]

/-- Entries at the positions from `s + 1` on, the first one chained to the digest `d`. -/
def IsSegment : ℕ → Bytes → List LogEntry → Prop
  | _, _, [] => True
  | s, d, e :: es =>
    e.seq = s + 1 ∧ e.digest = entryDigest (s + 1) d e.toRequest ∧ IsSegment (s + 1) e.digest es

namespace IsSegment

variable {s : ℕ} {d : Bytes} {es es' : List LogEntry}

lemma append_iff : IsSegment s d (es ++ es') ↔
    IsSegment s d es ∧ IsSegment (s + es.length) (lastDigest d es) es' := by
  induction es generalizing s d with
  | nil => simp [IsSegment]
  | cons e es ih =>
      rw [List.cons_append, IsSegment, IsSegment, ih, List.length_cons, lastDigest_cons,
        show s + 1 + es.length = s + (es.length + 1) by omega]
      tauto

/-- The part of a segment before a position. -/
lemma take (h : IsSegment s d es) (k : ℕ) : IsSegment s d (es.take k) := by
  rw [← List.take_append_drop k es, append_iff] at h
  exact h.1

/-- The part of a segment after a position. -/
lemma drop (h : IsSegment s d es) {k : ℕ} (hk : k ≤ es.length) :
    IsSegment (s + k) (lastDigest d (es.take k)) (es.drop k) := by
  rw [← List.take_append_drop k es, append_iff, List.length_take, Nat.min_eq_left hk] at h
  exact h.2

/-- A segment with one more entry. -/
lemma concat (h : IsSegment s d es) {e : LogEntry} (hseq : e.seq = s + es.length + 1)
    (hd : e.digest = entryDigest (s + es.length + 1) (lastDigest d es) e.toRequest) :
    IsSegment s d (es ++ [e]) :=
  append_iff.mpr ⟨h, hseq, hd, trivial⟩

/-- Positions inside a segment. -/
lemma seq_getElem? (h : IsSegment s d es) {i : ℕ} {e : LogEntry} (he : es[i]? = some e) :
    e.seq = s + 1 + i := by
  induction es generalizing s d i with
  | nil => simp at he
  | cons a es ih =>
      cases i with
      | zero =>
          cases Option.some.inj he
          exact h.1
      | succ i =>
          rw [ih h.2.2 he]
          omega

/-- Digests inside a segment. -/
lemma digest_getElem? (h : IsSegment s d es) {i : ℕ} {e : LogEntry} (he : es[i]? = some e) :
    e.digest = entryDigest e.seq (lastDigest d (es.take i)) e.toRequest := by
  induction es generalizing s d i with
  | nil => simp at he
  | cons a es ih =>
      cases i with
      | zero =>
          cases Option.some.inj he
          rw [h.1]
          exact h.2.1
      | succ i =>
          rw [List.take_succ_cons, lastDigest_cons]
          exact ih h.2.2 he

/-- Changing what is not hashed keeps a segment. -/
lemma congr {f : LogEntry → LogEntry} (hseq : ∀ e, (f e).seq = e.seq)
    (hdigest : ∀ e, (f e).digest = e.digest) (hreq : ∀ e, (f e).toRequest = e.toRequest)
    (h : IsSegment s d es) (i : ℕ) : IsSegment s d (es.modify i f) := by
  induction es generalizing s d i with
  | nil => simp [IsSegment]
  | cons a es ih =>
      cases i with
      | zero =>
          rw [List.modify_zero_cons]
          exact ⟨by rw [hseq]; exact h.1, by rw [hdigest, hreq]; exact h.2.1,
            by rw [hdigest]; exact h.2.2⟩
      | succ i =>
          rw [List.modify_succ_cons]
          exact ⟨h.1, h.2.1, ih h.2.2 i⟩

end IsSegment

namespace Log

variable {A : Type} {l l' : Log A}

/-! ### Linked logs -/

omit [Sha256] in
/-- Among consecutive positions, those from `b` on are the ones behind the first `b - a`. -/
lemma filter_seq_eq_drop {es : List LogEntry} {a n : ℕ}
    (h : es.map LogEntry.seq = List.range' a n) (b : ℕ) :
    es.filter (b ≤ ·.seq) = es.drop (b - a) := by
  induction es generalizing a n with
  | nil => simp
  | cons e es ih =>
      cases n with
      | zero => simp at h
      | succ n =>
          rw [List.map_cons, List.range'_succ, List.cons.injEq] at h
          obtain ⟨hseq, h⟩ := h
          by_cases hb : b ≤ e.seq
          · rw [List.filter_cons_of_pos (by simpa using hb), ih h,
              show b - (a + 1) = 0 by omega, show b - a = 0 by omega, List.drop_zero,
              List.drop_zero]
          · rw [List.filter_cons_of_neg (by simpa using hb), ih h,
              show b - a = b - (a + 1) + 1 by omega, List.drop_succ_cons]

/-- The log holds consecutive chained entries, from its stable checkpoint to the next free
position. -/
structure Linked (l : Log A) : Prop where
  nextSeq_eq : l.nextSeq = l.stableCheckpoint.seq + l.log.length + 1
  segment : IsSegment l.stableCheckpoint.seq l.stableCheckpoint.logDigest l.log

namespace Linked

variable (hl : l.Linked)
include hl

/-- Every position between the stable one and the next free one has its entry. -/
lemma exists_entry {p : ℕ} (hs : l.stableCheckpoint.seq < p) (hp : p < l.nextSeq) :
    ∃ e, l.log[p - l.stableCheckpoint.seq - 1]? = some e ∧ e.seq = p := by
  have hnext := hl.nextSeq_eq
  have hlt : p - l.stableCheckpoint.seq - 1 < l.log.length := by omega
  refine ⟨_, List.getElem?_eq_getElem hlt, ?_⟩
  rw [hl.segment.seq_getElem? (List.getElem?_eq_getElem hlt)]
  omega

/-- The first entry lies right above the stable checkpoint. -/
lemma head_seq {first : LogEntry} (h : l.log.head? = some first) :
    first.seq = l.stableCheckpoint.seq + 1 := by
  rw [List.head?_eq_getElem?] at h
  exact hl.segment.seq_getElem? h

lemma inRange_iff {p : ℕ} :
    l.inRange p ↔ l.stableCheckpoint.seq < p ∧ p < l.nextSeq := by
  have hnext := hl.nextSeq_eq
  rw [inRange]
  constructor
  · exact fun h => ⟨h.1, h.2.1⟩
  · rintro ⟨h1, h2⟩
    refine ⟨h1, h2, fun hnil => ?_⟩
    rw [hnil, List.length_nil] at hnext
    omega

/-- The index arithmetic of the log finds the entry of a position. -/
lemma slot_eq {p : ℕ} (hs : l.stableCheckpoint.seq < p) {e : LogEntry}
    (he : l.log[p - l.stableCheckpoint.seq - 1]? = some e) : l.slot p = .ok e := by
  rw [slot]
  cases hfirst : l.log.head? with
  | none =>
      rw [List.head?_eq_none_iff] at hfirst
      rw [hfirst] at he
      cases he
  | some first =>
      have hseq := hl.head_seq hfirst
      have hidx : p - first.seq = p - l.stableCheckpoint.seq - 1 := by omega
      have heseq := hl.segment.seq_getElem? he
      have hlt : ¬p < first.seq := by omega
      have hp : e.seq = p := by omega
      simp only [if_neg hlt, hidx, he, if_pos hp]

lemma getEntry_eq {p : ℕ} (hs : l.stableCheckpoint.seq < p) {e : LogEntry}
    (he : l.log[p - l.stableCheckpoint.seq - 1]? = some e) : l.getEntry p = .ok e := by
  have hnext := hl.nextSeq_eq
  have hlt := (List.getElem?_eq_some_iff.mp he).1
  rw [getEntry, if_pos (hl.inRange_iff.mpr ⟨hs, by omega⟩), hl.slot_eq hs he]

/-- **`getEntry` fails only outside the range of the log.** -/
lemma getEntry (p : ℕ) :
    (∃ e, l.log[p - l.stableCheckpoint.seq - 1]? = some e ∧ e.seq = p ∧ l.getEntry p = .ok e) ∨
      ¬(l.stableCheckpoint.seq < p ∧ p < l.nextSeq) ∧ l.getEntry p = .error .runtimeError := by
  by_cases h : l.stableCheckpoint.seq < p ∧ p < l.nextSeq
  · obtain ⟨e, he, hp⟩ := hl.exists_entry h.1 h.2
    exact .inl ⟨e, he, hp, hl.getEntry_eq h.1 he⟩
  · refine .inr ⟨h, ?_⟩
    rw [Log.getEntry, if_neg fun hr => h (hl.inRange_iff.mp hr)]

/-- **`getDigest` fails only outside the range of the log**, and gives the digest after a
position. -/
lemma getDigestAt (p : ℕ) :
    l.stableCheckpoint.seq ≤ p ∧ p < l.nextSeq ∧ l.getDigestAt p =
        .ok (lastDigest l.stableCheckpoint.logDigest (l.log.take (p - l.stableCheckpoint.seq))) ∨
      ¬(l.stableCheckpoint.seq ≤ p ∧ p < l.nextSeq) ∧
        l.getDigestAt p = .error .runtimeError := by
  have hnext := hl.nextSeq_eq
  rw [Log.getDigestAt]
  by_cases hp : p = l.stableCheckpoint.seq
  · refine .inl ⟨hp.ge, by omega, ?_⟩
    rw [if_pos hp, hp, Nat.sub_self, List.take_zero, lastDigest_nil]
  · rw [if_neg hp]
    by_cases h : l.stableCheckpoint.seq < p ∧ p < l.nextSeq
    · obtain ⟨e, he, -⟩ := hl.exists_entry h.1 h.2
      refine .inl ⟨h.1.le, h.2, ?_⟩
      rw [if_pos (hl.inRange_iff.mpr h), hl.slot_eq h.1 he,
        show p - l.stableCheckpoint.seq = p - l.stableCheckpoint.seq - 1 + 1 by omega,
        lastDigest_take_succ he]
      rfl
    · refine .inr ⟨by omega, ?_⟩
      rw [if_neg fun hr => h (hl.inRange_iff.mp hr)]

/-- The digest the next entry is chained to is the digest of the log. -/
lemma prevDigest_eq : l.prevDigest = .ok l.getDigest := by
  have hnext := hl.nextSeq_eq
  rw [prevDigest, Log.getDigest]
  cases hlast : l.log.getLast? with
  | none =>
      rw [List.getLast?_eq_none_iff] at hlast
      rw [hlast, List.length_nil] at hnext
      rw [if_pos (by omega)]
  | some e =>
      have hne : l.log ≠ [] := by
        rintro hnil
        rw [hnil] at hlast
        cases hlast
      have hpos := List.length_pos_iff.mpr hne
      rw [if_neg (by omega)]

/-- **The assertions of `abort` never fail.** -/
lemma eraseFrom {p : ℕ} (hs : l.stableCheckpoint.seq < p) (hp : p ≤ l.nextSeq) :
    l.eraseFrom p = .ok (l.log.take (p - 1 - l.stableCheckpoint.seq)) := by
  have hnext := hl.nextSeq_eq
  rw [Log.eraseFrom]
  cases hfirst : l.log.head? with
  | none =>
      rw [List.head?_eq_none_iff] at hfirst
      rw [hfirst, List.take_nil]
  | some first =>
      have hseq := hl.head_seq hfirst
      simp only [hseq, ne_eq, not_true_eq_false, if_false]
      rw [if_neg (by omega), show p - (l.stableCheckpoint.seq + 1) =
        p - 1 - l.stableCheckpoint.seq by omega]

/-- Cutting the log above the stable position keeps it linked. -/
lemma take {p : ℕ} (hs : l.stableCheckpoint.seq < p) (hp : p ≤ l.nextSeq) (app : A) :
    Linked { l with
      log := l.log.take (p - 1 - l.stableCheckpoint.seq), app, nextSeq := p } where
  nextSeq_eq := by
    have hnext := hl.nextSeq_eq
    rw [List.length_take, Nat.min_eq_left (by omega)]
    exact (by omega : p = l.stableCheckpoint.seq + (p - 1 - l.stableCheckpoint.seq) + 1)
  segment := hl.segment.take _

/-- The entries that `setCheckpoint` keeps. -/
lemma eraseUpTo {p : ℕ} (hs : l.stableCheckpoint.seq ≤ p) (hp : p < l.nextSeq) :
    l.eraseUpTo p = .ok (l.log.drop (p - l.stableCheckpoint.seq)) := by
  have hnext := hl.nextSeq_eq
  rw [Log.eraseUpTo]
  cases hfirst : l.log.head? with
  | none =>
      rw [List.head?_eq_none_iff] at hfirst
      rw [hfirst, List.drop_nil]
  | some first =>
      have hseq := hl.head_seq hfirst
      simp only [hseq]
      rw [if_neg (by omega), if_neg (by omega),
        show p + 1 - (l.stableCheckpoint.seq + 1) = p - l.stableCheckpoint.seq by omega]

/-- Truncating the log at a checkpoint that matches it keeps it linked. -/
lemma drop {cp : LogCheckpoint} (hs : l.stableCheckpoint.seq ≤ cp.seq) (hp : cp.seq < l.nextSeq)
    (hd : l.getDigestAt cp.seq = .ok cp.logDigest) :
    Linked { l with
      stableCheckpoint := cp, log := l.log.drop (cp.seq - l.stableCheckpoint.seq) } where
  nextSeq_eq := by
    have hnext := hl.nextSeq_eq
    rw [List.length_drop]
    exact (by omega :
      l.nextSeq = cp.seq + (l.log.length - (cp.seq - l.stableCheckpoint.seq)) + 1)
  segment := by
    have hnext := hl.nextSeq_eq
    have hdrop := hl.segment.drop (k := cp.seq - l.stableCheckpoint.seq) (by omega)
    rcases hl.getDigestAt cp.seq with ⟨-, -, h⟩ | ⟨hno, -⟩
    · rw [hd] at h
      rw [← Except.ok.inj h, show l.stableCheckpoint.seq + (cp.seq - l.stableCheckpoint.seq) =
        cp.seq by omega] at hdrop
      exact hdrop
    · exact absurd ⟨hs, hp⟩ hno

/-- One more entry keeps the log linked. -/
lemma concat {e : LogEntry} (hseq : e.seq = l.nextSeq)
    (hd : e.digest = entryDigest l.nextSeq l.getDigest e.toRequest) (app : A) :
    Linked { l with log := l.log ++ [e], app, nextSeq := l.nextSeq + 1 } where
  nextSeq_eq := by
    have hnext := hl.nextSeq_eq
    rw [List.length_append, List.length_singleton]
    exact (by omega : l.nextSeq + 1 = l.stableCheckpoint.seq + (l.log.length + 1) + 1)
  segment := by
    rw [hl.nextSeq_eq] at hseq hd
    rw [getDigest_eq] at hd
    exact hl.segment.concat hseq hd

end Linked

/-! ### Well formed logs -/

/-- A linked log whose committed position lies between the stable one and the next free
one. -/
structure WellFormed (l : Log A) : Prop extends l.Linked where
  stable_le : l.stableCheckpoint.seq ≤ l.committedCheckpoint.seq
  committed_lt : l.committedCheckpoint.seq < l.nextSeq

lemma wellFormed_fresh (app : A) : (fresh app).WellFormed :=
  { nextSeq_eq := rfl, segment := trivial, stable_le := le_rfl, committed_lt := Nat.zero_lt_one }

end Log

end DomBft
