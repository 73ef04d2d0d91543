import Mathlib.Data.Set.Card
import DomBft.Lib.OrderedMap
import DomBft.Lib.Tally
import DomBft.ClientRecord

/-!
What `numMissing` counts.

* `missing`: the requests of a record that are missing in another one.
* `overcounted`: what is counted besides, numbers that both records miss, behind the last request
  of the client here.
* `numMissing_eq`: the count is that of both; `num_missing_exact_iff`: **when it is exact**.
-/

namespace DomBft

open Std (ExtTreeMap ExtTreeSet)

instance finite_uint32 : Finite UInt32 :=
  Finite.of_injective UInt32.toFin fun _ _ h => UInt32.toFin_inj.mp h

/-- The numbers of an interval. -/
lemma ncard_interval (lo hi : UInt32) :
    {x : UInt32 | lo < x ∧ x ≤ hi}.ncard = hi.toNat - lo.toNat := by
  have himage : UInt32.toNat '' {x | lo < x ∧ x ≤ hi} = Finset.Ioc lo.toNat hi.toNat := by
    ext n
    simp only [Set.mem_image, Set.mem_ofPred_eq, Finset.coe_Ioc, Set.mem_Ioc,
      UInt32.lt_iff_toNat_lt, UInt32.le_iff_toNat_le]
    constructor
    · rintro ⟨x, hx, rfl⟩
      exact hx
    · intro hn
      have hsize : n < UInt32.size := lt_of_le_of_lt hn.2 hi.toNat_lt
      have hback : (UInt32.ofNat n).toNat = n := UInt32.toNat_ofNat_of_lt' hsize
      exact ⟨UInt32.ofNat n, by rwa [hback], hback⟩
  rw [← Set.ncard_image_of_injective _ fun _ _ h => UInt32.toNat_inj.mp h, himage,
    Set.ncard_coe_finset, Nat.card_Ioc]

/-- The elements of a list without repetitions. -/
lemma ncard_mem_list {α : Type} {l : List α} (h : l.Nodup) : {x | x ∈ l}.ncard = l.length := by
  classical
  have hset : {x | x ∈ l} = (l.toFinset : Set α) := by
    ext x
    simp
  rw [hset, Set.ncard_coe_finset, List.toFinset_card_of_nodup h]

lemma nodup_toList (m : ExtTreeSet UInt32 compare) : m.toList.Nodup :=
  ExtTreeSet.distinct_toList.imp fun hab heq => hab (Std.compare_eq_iff_eq.mpr heq)

namespace ClientSequence

/-- The requests of the reference that are missing here. -/
def missing (s ref : ClientSequence) : Set UInt32 :=
  {x | 0 < x ∧ ref.contains x = true ∧ s.contains x = false}

/-- The numbers behind the last request here that the reference misses. -/
def overcounted (s ref : ClientSequence) : Set UInt32 :=
  {x | s.lastSeq < x ∧ x ∈ ref.missedSeqs}

/-- A number is missing if it is a gap here, or lies behind the last request. -/
lemma mem_missing {s ref : ClientSequence} {x : UInt32} : x ∈ s.missing ref ↔
    0 < x ∧ x ≤ ref.lastSeq ∧ x ∉ ref.missedSeqs ∧ (x ∈ s.missedSeqs ∨ s.lastSeq < x) := by
  simp only [missing, Set.mem_ofPred_eq, contains_iff, ← Bool.not_eq_true, not_and, not_not]
  grind

/-- **What the sequence of one client counts.** -/
lemma numMissing_eq {s ref : ClientSequence} (hs : s.WellFormed) (href : ref.WellFormed) :
    s.numMissing ref =
      UInt32.ofNat ((s.missing ref).ncard + (s.overcounted ref).ncard) := by
  have hgaps : ((s.missedSeqs.toList.filter fun i => !ref.missedSeqs.contains i).filter
      (· ≤ ref.lastSeq)).length =
      {x | x ∈ s.missedSeqs ∧ x ∉ ref.missedSeqs ∧ x ≤ ref.lastSeq}.ncard := by
    rw [← ncard_mem_list (((nodup_toList _).filter _).filter _)]
    congr 1
    ext x
    simp only [List.mem_filter, ExtTreeSet.mem_toList, Bool.not_eq_true', ← Bool.not_eq_true,
      ExtTreeSet.contains_iff_mem, decide_eq_true_eq, Set.mem_ofPred_eq, and_assoc]
  rw [numMissing, hgaps]
  by_cases hlt : s.lastSeq < ref.lastSeq
  · rw [if_pos hlt]
    have hinterval := ncard_interval s.lastSeq ref.lastSeq
    -- the numbers behind the last request: those of the reference, and its gaps
    have hsplit : {x : UInt32 | s.lastSeq < x ∧ x ≤ ref.lastSeq} =
        {x | s.lastSeq < x ∧ x ≤ ref.lastSeq ∧ x ∉ ref.missedSeqs} ∪ s.overcounted ref := by
      ext x
      simp only [overcounted, Set.mem_ofPred_eq, Set.mem_union]
      have hgap : x ∈ ref.missedSeqs → x < ref.lastSeq := fun hx => (href x hx).2
      grind
    have hmissing : s.missing ref = {x | x ∈ s.missedSeqs ∧ x ∉ ref.missedSeqs ∧ x ≤ ref.lastSeq} ∪
        {x | s.lastSeq < x ∧ x ≤ ref.lastSeq ∧ x ∉ ref.missedSeqs} := by
      ext x
      simp only [mem_missing, Set.mem_ofPred_eq, Set.mem_union]
      have hgap : x ∈ s.missedSeqs → 0 < x := fun hx => (hs x hx).1
      grind
    rw [hsplit, Set.ncard_union_eq
      (Set.disjoint_left.mpr fun x hx hx' => hx.2.2 hx'.2)] at hinterval
    rw [hmissing, Set.ncard_union_eq (Set.disjoint_left.mpr fun x hx hx' =>
      absurd (hs x hx.1).2 (UInt32.lt_asymm hx'.1)), Nat.add_assoc, hinterval, UInt32.ofNat_add]
    congr 1
    rw [← UInt32.toNat_inj, UInt32.toNat_sub_of_le _ _ (UInt32.le_of_lt hlt),
      UInt32.toNat_ofNat_of_lt']
    exact lt_of_le_of_lt (Nat.sub_le _ _) ref.lastSeq.toNat_lt
  · rw [if_neg hlt]
    have hover : s.overcounted ref = ∅ := by
      ext x
      simp only [overcounted, Set.mem_ofPred_eq, Set.mem_empty_iff_false, iff_false]
      have hgap : x ∈ ref.missedSeqs → x < ref.lastSeq := fun hx => (href x hx).2
      grind
    have hmissing : s.missing ref =
        {x | x ∈ s.missedSeqs ∧ x ∉ ref.missedSeqs ∧ x ≤ ref.lastSeq} := by
      ext x
      simp only [mem_missing, Set.mem_ofPred_eq]
      have hgap : x ∈ s.missedSeqs → 0 < x := fun hx => (hs x hx).1
      grind
    rw [hover, hmissing, Set.ncard_empty, Nat.add_zero]

/-- The size of a sequence is the number of its requests. -/
lemma size_eq {ref : ClientSequence} (href : ref.WellFormed) :
    ref.size = UInt32.ofNat {x | 0 < x ∧ ref.contains x = true}.ncard := by
  have hinterval := ncard_interval 0 ref.lastSeq
  have hsplit : {x : UInt32 | 0 < x ∧ x ≤ ref.lastSeq} =
      {x | 0 < x ∧ ref.contains x = true} ∪ {x | x ∈ ref.missedSeqs} := by
    ext x
    simp only [contains_iff, Set.mem_ofPred_eq, Set.mem_union]
    have hgap : x ∈ ref.missedSeqs → 0 < x ∧ x < ref.lastSeq := href x
    grind
  have hgaps : {x | x ∈ ref.missedSeqs}.ncard = ref.missedSeqs.size := by
    rw [← ExtTreeSet.length_toList, ← ncard_mem_list (nodup_toList _)]
    congr 1
    ext x
    simp
  have hdisj : Disjoint {x : UInt32 | 0 < x ∧ ref.contains x = true} {x | x ∈ ref.missedSeqs} :=
    Set.disjoint_left.mpr fun x hx => (contains_iff.mp hx.2).2
  rw [hsplit, Set.ncard_union_eq hdisj, hgaps] at hinterval
  have hlast : ref.lastSeq = UInt32.ofNat ({x | 0 < x ∧ ref.contains x = true}.ncard +
      ref.missedSeqs.size) := by
    rw [hinterval]
    simp
  rw [size, hlast, UInt32.ofNat_add, UInt32.add_sub_cancel]

end ClientSequence

namespace ClientRecord

/-- The requests of the reference that are missing here. -/
def missing (r ref : ClientRecord) : Set (UInt32 × UInt32) :=
  {x | 0 < x.2 ∧ ref.contains x.1 x.2 = true ∧ r.contains x.1 x.2 = false}

/-- The numbers behind the last request of a client here that the reference misses. -/
def overcounted (r ref : ClientRecord) : Set (UInt32 × UInt32) :=
  {x | ∃ s sref, r.sequences[x.1]? = some s ∧ ref.sequences[x.1]? = some sref ∧
    x.2 ∈ s.overcounted sref}

/-- What `numMissing` adds for one client of the reference. -/
def clientMissing (r : ClientRecord) (x : UInt32 × ClientSequence) : UInt32 :=
  match r.sequences[x.1]? with
  | none => x.2.size
  | some s => s.numMissing x.2

lemma clientMissing_eq {r ref : ClientRecord} (hr : r.WellFormed) (href : ref.WellFormed)
    {x : UInt32 × ClientSequence} (hx : ref.sequences[x.1]? = some x.2) :
    r.clientMissing x = UInt32.ofNat ({y | (x.1, y) ∈ r.missing ref}.ncard +
      {y | (x.1, y) ∈ r.overcounted ref}.ncard) := by
  cases hs : r.sequences[x.1]? with
  | none =>
      have hmissing : {y | (x.1, y) ∈ r.missing ref} = {y | 0 < y ∧ x.2.contains y = true} := by
        ext y
        simp [missing, contains, hx, hs]
      have hover : {y | (x.1, y) ∈ r.overcounted ref} = ∅ := by
        ext y
        simp [overcounted, hs]
      rw [clientMissing, hs, hmissing, hover, Set.ncard_empty, Nat.add_zero]
      exact ClientSequence.size_eq (href _ _ hx)
  | some s =>
      have hmissing : {y | (x.1, y) ∈ r.missing ref} = s.missing x.2 := by
        ext y
        simp [missing, ClientSequence.missing, contains, hx, hs]
      have hover : {y | (x.1, y) ∈ r.overcounted ref} = s.overcounted x.2 := by
        ext y
        simp [overcounted, hx, hs]
      rw [clientMissing, hs, hmissing, hover]
      exact ClientSequence.numMissing_eq (hr _ _ hs) (href _ _ hx)

lemma foldl_clientMissing {r : ClientRecord} {l : List (UInt32 × ClientSequence)} {n : ℕ}
    {f : UInt32 → ℕ} (hl : ∀ x ∈ l, r.clientMissing x = UInt32.ofNat (f x.1)) :
    l.foldl (fun ret (id, refSequence) =>
      match r.sequences[id]? with
      | none => ret + refSequence.size
      | some mySequence => ret + mySequence.numMissing refSequence) (UInt32.ofNat n) =
    UInt32.ofNat (n + (l.map fun x => f x.1).sum) := by
  induction l generalizing n with
  | nil => rfl
  | cons x l ih =>
      have hx := hl x List.mem_cons_self
      have hstep : (match r.sequences[x.1]? with
          | none => UInt32.ofNat n + x.2.size
          | some mySequence => UInt32.ofNat n + mySequence.numMissing x.2) =
          UInt32.ofNat (n + f x.1) := by
        rw [UInt32.ofNat_add, ← hx, clientMissing]
        cases r.sequences[x.1]? <;> rfl
      rw [List.foldl_cons, List.map_cons, List.sum_cons, ← Nat.add_assoc]
      exact (congrArg (List.foldl _ · l) hstep).trans
        (ih fun y hy => hl y (List.mem_cons_of_mem _ hy))

/-- **What `numMissing` counts**: the missing requests, and the gaps of the reference behind the
last requests here. -/
lemma numMissing_eq {r ref : ClientRecord} (hr : r.WellFormed) (href : ref.WellFormed) :
    r.numMissing ref = UInt32.ofNat ((r.missing ref).ncard + (r.overcounted ref).ncard) := by
  have hclient : ∀ x ∈ ref.sequences.toList, r.clientMissing x = UInt32.ofNat
      ({y | (x.1, y) ∈ r.missing ref}.ncard + {y | (x.1, y) ∈ r.overcounted ref}.ncard) :=
    fun x hx => clientMissing_eq hr href (ExtTreeMap.mem_toList_iff_getElem?_eq_some.mp hx)
  have hids : (ref.sequences.toList.map (·.1)).Nodup := OrderedMap.nodup_map_fst_toList _
  have hknown : ∀ c s, ref.sequences[c]? = some s → c ∈ ref.sequences.toList.map (·.1) :=
    fun c s hs => List.mem_map.mpr ⟨(c, s), ExtTreeMap.mem_toList_iff_getElem?_eq_some.mpr hs, rfl⟩
  have hmissing := Tally.sum_ncard_sections (S := r.missing ref) hids fun x hx => by
    cases hs : ref.sequences[x.1]? with
    | none =>
        have hcontains := hx.2.1
        rw [contains, hs] at hcontains
        cases hcontains
    | some s => exact hknown _ _ hs
  have hover := Tally.sum_ncard_sections (S := r.overcounted ref) hids fun x hx => by
    obtain ⟨_, _, _, hs, _⟩ := hx
    exact hknown _ _ hs
  have hfold := foldl_clientMissing (n := 0) (f := fun c => {y | (c, y) ∈ r.missing ref}.ncard +
    {y | (c, y) ∈ r.overcounted ref}.ncard) hclient
  rw [numMissing]
  refine hfold.trans ?_
  rw [Nat.zero_add, List.sum_map_add, ← hmissing, ← hover, List.map_map, List.map_map]
  rfl

/-- The `int` that `numMissing` returns. -/
def numMissingInt (r ref : ClientRecord) : ℤ := (r.numMissing ref).toBitVec.toInt

/-- The requests of a record. -/
def requests (r : ClientRecord) : Set (UInt32 × UInt32) :=
  {x | 0 < x.2 ∧ r.contains x.1 x.2 = true}

/-- **When `numMissing` is exact**: the count fits into an `int`, and the reference has no gaps
behind the last requests here (or a multiple of `2 ^ 32` of them). -/
theorem num_missing_exact_iff (l l' : List (UInt32 × UInt32)) :
    ((addAll {} l).numMissingInt (addAll {} l') = ((addAll {} l).missing (addAll {} l')).ncard ∧
      (addAll {} l).numMissingInt (addAll {} l') ≤ ((addAll {} l').requests).ncard) ↔
    ((addAll {} l).missing (addAll {} l')).ncard < 2 ^ 31 ∧
      2 ^ 32 ∣ ((addAll {} l).overcounted (addAll {} l')).ncard := by
  have hle : ((addAll {} l).missing (addAll {} l')).ncard ≤ ((addAll {} l').requests).ncard :=
    Set.ncard_le_ncard fun x hx => ⟨hx.1, hx.2.1⟩
  have heq := numMissing_eq (wellFormed_empty.addAll l) (wellFormed_empty.addAll l')
  rw [numMissingInt, heq, BitVec.toInt_eq_toNat_cond, UInt32.toNat_toBitVec, UInt32.toNat_ofNat']
  generalize ((addAll {} l).missing (addAll {} l')).ncard = a at *
  generalize ((addAll {} l).overcounted (addAll {} l')).ncard = b at *
  generalize ((addAll {} l').requests).ncard = c at *
  split_ifs with hsmall
  · omega
  · omega

/-- **A count that is too large**: here a client's first request, in the reference the fifth. -/
theorem fifth_request_overcounted : ¬∀ l l' : List (UInt32 × UInt32),
    (addAll {} l).numMissingInt (addAll {} l') = ((addAll {} l).missing (addAll {} l')).ncard ∧
      (addAll {} l).numMissingInt (addAll {} l') ≤ ((addAll {} l').requests).ncard := by
  intro hexact
  have hsub : ((addAll {} [(0, 5)]).requests) ⊆ {((0 : UInt32), (5 : UInt32))} := by
    rintro ⟨c, y⟩ ⟨hy, hx⟩
    rcases (contains_addAll wellFormed_empty _ hy).mp hx with hnone | hmem
    · cases hnone
    · exact List.mem_singleton.mp hmem
  have hcard := (Set.ncard_le_ncard hsub).trans_eq (Set.ncard_singleton _)
  have hcount : (addAll {} [(0, 1)]).numMissingInt (addAll {} [(0, 5)]) = 4 := by decide +kernel
  have hle := (hexact [(0, 1)] [(0, 5)]).2
  omega

end ClientRecord

end DomBft
