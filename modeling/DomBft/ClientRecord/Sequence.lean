import DomBft.ClientRecord.Missing

/-!
A client's sequence as a set of request numbers.

* `insertMissed`: the loop of `ClientSequence::update` in `uint32_t` arithmetic, which goes
  through the numbers that `update` names.
* `seen`: the requests of a sequence; `seen_update` and `size_toNat` say what `update` adds and
  what `size` counts.
* `sequence_is_set`: **what a list of updates leaves**.
-/

namespace DomBft.ClientSequence

open Std (ExtTreeSet)

/-! ### The loop in machine arithmetic -/

/-- The loop of `ClientSequence::update`, with the counter at `i`. -/
def insertMissed (i newSeq : UInt32) (missedSeqs : ExtTreeSet UInt32 compare) :
    ExtTreeSet UInt32 compare :=
  if i < newSeq then insertMissed (i + 1) newSeq (missedSeqs.insert i) else missedSeqs
termination_by newSeq.toNat - i.toNat
decreasing_by
  have hlt := UInt32.lt_iff_toNat_lt.mp ‹i < newSeq›
  have hsize := newSeq.toNat_lt
  rw [UInt32.toNat_add, UInt32.toNat_one, Nat.mod_eq_of_lt (by omega)]
  omega

/-- The counter does not wrap below the largest number. -/
lemma toNat_succ {i x : UInt32} (h : i < x) : (i + 1).toNat = i.toNat + 1 := by
  have hlt := UInt32.lt_iff_toNat_lt.mp h
  have hsize := x.toNat_lt
  rw [UInt32.toNat_add, UInt32.toNat_one, Nat.mod_eq_of_lt (by omega)]

lemma insertMissed_range {i x : UInt32} {n : ℕ} (hn : i.toNat + n = x.toNat)
    (m : ExtTreeSet UInt32 compare) :
    insertMissed i x m = ((List.range' i.toNat n).map UInt32.ofNat).foldl (·.insert ·) m := by
  induction n generalizing i m with
  | zero =>
      have hle : ¬i < x := by
        rw [UInt32.lt_iff_toNat_lt]
        omega
      rw [insertMissed, if_neg hle]
      rfl
  | succ n ih =>
      have hlt : i < x := by
        rw [UInt32.lt_iff_toNat_lt]
        omega
      have hsucc := toNat_succ hlt
      rw [insertMissed, if_pos hlt, ih (by omega), hsucc, List.range'_succ, List.map_cons,
        List.foldl_cons, UInt32.ofNat_toNat]

/-- The loop inserts the numbers between the last one and the new one. -/
lemma insertMissed_eq {lo hi : UInt32} (h : lo < hi) (m : ExtTreeSet UInt32 compare) :
    insertMissed (lo + 1) hi m = (between lo hi).foldl (·.insert ·) m := by
  have hsucc := toNat_succ h
  have hlt := UInt32.lt_iff_toNat_lt.mp h
  rw [insertMissed_range (n := hi.toNat - lo.toNat - 1) (by omega), hsucc, between]

/-! ### The requests of a sequence -/

/-- The requests of a sequence; `0` is not one. -/
def seen (s : ClientSequence) : Set UInt32 := {x | 0 < x ∧ s.contains x = true}

lemma WellFormed.contains_zero {s : ClientSequence} (h : s.WellFormed) :
    s.contains 0 = true :=
  contains_iff.mpr ⟨UInt32.zero_le, fun hm => absurd (h 0 hm).1 (by decide)⟩

/-- The missing numbers and the requests lie up to the last number. -/
lemma missed_add_seen {s : ClientSequence} (h : s.WellFormed) :
    s.missedSeqs.size + s.seen.ncard = s.lastSeq.toNat := by
  have hinterval := ncard_interval 0 s.lastSeq
  have hsplit : {x : UInt32 | 0 < x ∧ x ≤ s.lastSeq} = {x | x ∈ s.missedSeqs} ∪ s.seen := by
    ext x
    simp only [seen, contains_iff, Set.mem_ofPred_eq, Set.mem_union]
    have hgap : x ∈ s.missedSeqs → 0 < x ∧ x < s.lastSeq := h x
    grind
  have hgaps : {x | x ∈ s.missedSeqs}.ncard = s.missedSeqs.size := by
    rw [← ExtTreeSet.length_toList, ← ncard_mem_list (nodup_toList _)]
    simp
  have hdisj : Disjoint {x | x ∈ s.missedSeqs} s.seen :=
    Set.disjoint_right.mpr fun x hx => (contains_iff.mp hx.2).2
  rw [hsplit, Set.ncard_union_eq hdisj, hgaps] at hinterval
  simpa using hinterval

/-- The subtraction of `size` is exact. -/
lemma size_toNat {s : ClientSequence} (h : s.WellFormed) : s.size.toNat = s.seen.ncard := by
  have hsum := missed_add_seen h
  have hlast := s.lastSeq.toNat_lt
  rw [size_eq h, UInt32.toNat_ofNat_of_lt']
  · rfl
  · change s.seen.ncard < 2 ^ 32
    omega

lemma seen_update {s : ClientSequence} (h : s.WellFormed) (x : UInt32) :
    (s.update x).1.seen = if (s.update x).2 then insert x s.seen else s.seen := by
  ext y
  by_cases hnew : (s.update x).2 = true
  · have hx : x ≠ 0 := by
      rintro rfl
      rw [update_zero h] at hnew
      cases hnew
    rw [if_pos hnew]
    simp only [seen, Set.mem_ofPred_eq, Set.mem_insert_iff, contains_update h]
    grind
  · have hold : s.contains x = true := by
      rw [update_isNew, Bool.not_eq_false] at hnew
      exact hnew
    rw [if_neg hnew]
    simp only [seen, Set.mem_ofPred_eq, contains_update h]
    grind

/-- Only a request that is reported as new is counted. -/
lemma ncard_seen_update {s : ClientSequence} (h : s.WellFormed) (x : UInt32) :
    (s.update x).1.seen.ncard = s.seen.ncard + if (s.update x).2 then 1 else 0 := by
  rw [seen_update h]
  by_cases hnew : (s.update x).2 = true
  · have hx : x ∉ s.seen := fun hx => by
      rw [update_isNew, hx.2] at hnew
      cases hnew
    rw [if_pos hnew, if_pos hnew, Set.ncard_insert_of_notMem hx]
  · rw [if_neg hnew, if_neg hnew, Nat.add_zero]

/-! ### A list of updates -/

/-- The sequence after a list of updates, with the flags they return. -/
def updateAll (s : ClientSequence) : List UInt32 → ClientSequence × List Bool
  | [] => (s, [])
  | x :: xs =>
      let rest := (s.update x).1.updateAll xs
      (rest.1, (s.update x).2 :: rest.2)

/-- The flag of one more update. -/
lemma updateAll_concat (s : ClientSequence) (l : List UInt32) (x : UInt32) :
    (s.updateAll (l ++ [x])).2 = (s.updateAll l).2 ++ [((s.updateAll l).1.update x).2] := by
  induction l generalizing s with
  | nil => rfl
  | cons y l ih => exact congrArg ((s.update y).2 :: ·) (ih (s.update y).1)

lemma WellFormed.updateAll {s : ClientSequence} (h : s.WellFormed) (l : List UInt32) :
    (s.updateAll l).1.WellFormed := by
  induction l generalizing s with
  | nil => exact h
  | cons x l ih => exact ih (h.update x)

lemma contains_updateAll {s : ClientSequence} (h : s.WellFormed) (l : List UInt32) (y : UInt32) :
    (s.updateAll l).1.contains y = true ↔ s.contains y = true ∨ y ∈ l := by
  induction l generalizing s with
  | nil => simp [updateAll]
  | cons x l ih =>
      rw [updateAll]
      dsimp only
      rw [ih (h.update x), contains_update h, List.mem_cons, or_assoc]

lemma ncard_seen_updateAll {s : ClientSequence} (h : s.WellFormed) (l : List UInt32) :
    (s.updateAll l).1.seen.ncard = s.seen.ncard + (s.updateAll l).2.count true := by
  induction l generalizing s with
  | nil => rfl
  | cons x l ih =>
      have hx := ncard_seen_update h x
      rw [updateAll]
      dsimp only
      rw [ih (h.update x), hx, List.count_cons, Nat.add_assoc, Nat.add_comm (List.count _ _)]
      cases (s.update x).2 <;> rfl

lemma contains_default {y : UInt32} : contains {} y = true ↔ y = 0 := by
  constructor
  · intro hy
    have hle : y ≤ 0 := (contains_iff.mp hy).1
    grind
  · rintro rfl
    exact wellFormed_default.contains_zero

/-- **A sequence is a set of request numbers**, whatever the updates are: it contains `0` and the
arguments of the updates, an update tells whether its argument is new, the missing numbers are
inside, and `size` counts the updates that were new.  The sums and the difference that the code
computes are exact: the loop counter of an update starts and ends below `2 ^ 32`, and there are
not more missing numbers than the last one. -/
theorem sequence_is_set (l : List UInt32) :
    (∀ y, (updateAll {} l).1.contains y = true ↔ y = 0 ∨ y ∈ l) ∧
      (∀ x, (updateAll {} (l ++ [x])).2 =
        (updateAll {} l).2 ++ [!(updateAll {} l).1.contains x]) ∧
      (∀ m ∈ (updateAll {} l).1.missedSeqs, 0 < m ∧ m < (updateAll {} l).1.lastSeq) ∧
      (updateAll {} l).1.size.toNat = (updateAll {} l).2.count true ∧
      (∀ x, (updateAll {} l).1.lastSeq < x →
        ((updateAll {} l).1.update x).1.missedSeqs =
            insertMissed ((updateAll {} l).1.lastSeq + 1) x (updateAll {} l).1.missedSeqs ∧
          ∀ i, (updateAll {} l).1.lastSeq ≤ i → i < x → (i + 1).toNat = i.toNat + 1) ∧
      (updateAll {} l).1.missedSeqs.size ≤ (updateAll {} l).1.lastSeq.toNat := by
  have hwf := wellFormed_default.updateAll l
  refine ⟨fun y => ?_, fun x => ?_, hwf, ?_, fun x hx => ⟨?_, fun i _ hi => toNat_succ hi⟩, ?_⟩
  · rw [contains_updateAll wellFormed_default, contains_default]
  · have hnew := update_isNew (s := (updateAll {} l).1) x
    rw [updateAll_concat, Bool.eq_iff_iff.mpr (hnew.trans (Iff.of_eq (Bool.not_eq_true' _).symm))]
  · have hnone : seen {} = ∅ := by
      ext y
      simp only [seen, contains_default, Set.mem_ofPred_eq, Set.mem_empty_iff_false]
      grind
    rw [size_toNat hwf, ncard_seen_updateAll wellFormed_default, hnone, Set.ncard_empty,
      Nat.zero_add]
  · rw [insertMissed_eq hx, update, if_pos hx]
  · have hsum := missed_add_seen hwf
    omega

/-- Requests `5`, `2`, `5`: the second one is late, the third one is not new. -/
theorem three_updates_counted :
    (updateAll {} [5, 2, 5]).1.size.toNat = [true, true, false].count true ∧
      ∀ m ∈ (updateAll {} [5, 2, 5]).1.missedSeqs, 0 < m ∧ m < 5 := by
  have hset := sequence_is_set [5, 2, 5]
  have hlast : (updateAll {} [5, 2, 5]).1.lastSeq = 5 := by decide +kernel
  have hflags : (updateAll {} [5, 2, 5]).2 = [true, true, false] := by decide +kernel
  rw [hlast, hflags] at hset
  exact ⟨hset.2.2.2.1, hset.2.2.1⟩

end DomBft.ClientSequence
