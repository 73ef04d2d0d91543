import DomBft.Basic

/-!
`client_record.h`, `client_record.cc`: which requests of which clients have been seen.

* `ClientSequence`: the requests of one client, as the largest number seen and the set of
  smaller ones still missing; `contains_update` is the law of `update`, and
  `update_isNew` says when it reports a new request.
* `ClientRecord`: one `ClientSequence` per client, with `contains_update` and
  `update_isNew` lifted to it, and `addAll`, the record after a list of requests.
* `digest`, `toProto`, `ofProto`, `numMissing`: the record as it is hashed, sent and
  compared.
-/

namespace DomBft

open Std

/-- `proto::ClientSequence` -/
structure ClientSequenceProto where
  clientId : UInt32 := 0
  lastSeq : UInt32 := 0
  missedSeqs : List UInt32 := []
deriving DecidableEq, Repr, Inhabited

/-- `proto::ClientRecord` -/
structure ClientRecordProto where
  digest : Bytes := []
  sequences : List ClientSequenceProto := []
deriving DecidableEq, Repr, Inhabited

/-- `struct ClientSequence` -/
structure ClientSequence where
  lastSeq : UInt32 := 0
  missedSeqs : ExtTreeSet UInt32 compare := ∅
deriving Inhabited

namespace ClientSequence

/-- `ClientSequence(const proto::ClientSequence &)` -/
def ofProto (p : ClientSequenceProto) : ClientSequence where
  lastSeq := p.lastSeq
  missedSeqs := p.missedSeqs.foldl (·.insert ·) ∅

/-- `ClientSequence::contains` -/
def contains (s : ClientSequence) (seq : UInt32) : Bool :=
  decide (seq ≤ s.lastSeq) && !s.missedSeqs.contains seq

/-- The numbers strictly between two `uint32_t`, in order: the range of the loop of
`ClientSequence::update`. -/
def between (lo hi : UInt32) : List UInt32 :=
  (List.range' (lo.toNat + 1) (hi.toNat - lo.toNat - 1)).map UInt32.ofNat

/-- `ClientSequence::update`, with the returned flag. -/
def update (s : ClientSequence) (newSeq : UInt32) : ClientSequence × Bool :=
  if s.lastSeq < newSeq then
    ({ lastSeq := newSeq
       missedSeqs := (between s.lastSeq newSeq).foldl (·.insert ·) s.missedSeqs }, true)
  else if s.missedSeqs.contains newSeq then
    ({ s with missedSeqs := s.missedSeqs.erase newSeq }, true)
  else
    (s, false)

/-- `ClientSequence::size` -/
def size (s : ClientSequence) : UInt32 := s.lastSeq - UInt32.ofNat s.missedSeqs.size

/-- `ClientSequence::numMissing`: how many requests of the reference are missing here. -/
def numMissing (s ref : ClientSequence) : UInt32 :=
  let myMissed := s.missedSeqs.toList.filter fun i => !ref.missedSeqs.contains i
  let ret := UInt32.ofNat (myMissed.filter (· ≤ ref.lastSeq)).length
  if s.lastSeq < ref.lastSeq then ret + (ref.lastSeq - s.lastSeq) else ret

/-- Every missing number lies strictly between `0` and the largest number seen.  Updates
keep this; a record parsed from a message need not have it. -/
def WellFormed (s : ClientSequence) : Prop := ∀ m ∈ s.missedSeqs, 0 < m ∧ m < s.lastSeq

lemma mem_between {lo hi x : UInt32} : x ∈ between lo hi ↔ lo < x ∧ x < hi := by
  have hx := x.toNat_lt
  have hhi := hi.toNat_lt
  simp only [between, List.mem_map, List.mem_range'_1, UInt32.lt_iff_toNat_lt]
  constructor
  · rintro ⟨k, hk, rfl⟩
    rw [UInt32.toNat_ofNat_of_lt' (Nat.lt_of_lt_of_le (m := hi.toNat) (by omega) hhi.le)]
    omega
  · intro h
    exact ⟨x.toNat, by omega, UInt32.ofNat_toNat⟩

lemma mem_foldl_insert (l : List UInt32) (m : ExtTreeSet UInt32 compare) (x : UInt32) :
    x ∈ l.foldl (·.insert ·) m ↔ x ∈ l ∨ x ∈ m := by
  induction l generalizing m with
  | nil => simp
  | cons a l ih =>
      rw [List.foldl_cons, ih, ExtTreeSet.mem_insert, List.mem_cons, Std.compare_eq_iff_eq]
      tauto

lemma contains_iff {s : ClientSequence} {x : UInt32} :
    s.contains x = true ↔ x ≤ s.lastSeq ∧ x ∉ s.missedSeqs := by
  simp [contains, ← ExtTreeSet.contains_iff_mem]

lemma wellFormed_default : WellFormed {} := fun m hm => by
  rw [← ExtTreeSet.contains_iff_mem, ExtTreeSet.contains_empty] at hm
  cases hm

lemma WellFormed.update {s : ClientSequence} (h : s.WellFormed) (x : UInt32) :
    (s.update x).1.WellFormed := by
  rw [ClientSequence.update]
  split_ifs with hlt hmem
  · intro m hm
    rw [mem_foldl_insert, mem_between] at hm
    rcases hm with hm | hm
    · exact ⟨UInt32.lt_of_le_of_lt UInt32.zero_le hm.1, hm.2⟩
    · exact ⟨(h m hm).1, UInt32.lt_trans (h m hm).2 hlt⟩
  · intro m hm
    exact h m (ExtTreeSet.mem_of_mem_erase hm)
  · exact h

/-- **The law of `update`**: it adds its argument and nothing else. -/
lemma contains_update {s : ClientSequence} (h : s.WellFormed) {x y : UInt32} :
    (s.update x).1.contains y = true ↔ s.contains y = true ∨ y = x := by
  rw [update]
  split_ifs with hlt hmem
  · have hmiss : y ∈ s.missedSeqs → y < s.lastSeq := fun hm => (h y hm).2
    rw [contains_iff, contains_iff, mem_foldl_insert, mem_between]
    grind
  · rw [contains_iff, contains_iff, ExtTreeSet.mem_erase, ne_eq, Std.compare_eq_iff_eq]
    rw [ExtTreeSet.contains_iff_mem] at hmem
    have hxl := (h x hmem).2
    grind
  · rw [ExtTreeSet.contains_iff_mem] at hmem
    rw [contains_iff]
    grind

/-- `update` reports a request as new exactly if it had not been seen. -/
lemma update_isNew {s : ClientSequence} (x : UInt32) :
    (s.update x).2 = true ↔ s.contains x = false := by
  rw [← Bool.not_eq_true, contains_iff, update]
  split_ifs with hlt hmem
  · grind
  · rw [ExtTreeSet.contains_iff_mem] at hmem
    grind
  · rw [ExtTreeSet.contains_iff_mem] at hmem
    grind

/-- The number `0` is never new. -/
lemma update_zero {s : ClientSequence} (h : s.WellFormed) : s.update 0 = (s, false) := by
  rw [update, if_neg (by grind), if_neg]
  intro hc
  have hpos := (h 0 (ExtTreeSet.contains_iff_mem.mp hc)).1
  grind

end ClientSequence

/-- `class ClientRecord` -/
structure ClientRecord where
  sequences : ExtTreeMap UInt32 ClientSequence compare := ∅
deriving Inhabited

namespace ClientRecord

/-- `ClientRecord(const proto::ClientRecord &)` -/
def ofProto (p : ClientRecordProto) : ClientRecord where
  sequences := p.sequences.foldl (fun m s =>
    let old := (m[s.clientId]?).getD {}
    m.insert s.clientId
      { lastSeq := s.lastSeq, missedSeqs := s.missedSeqs.foldl (·.insert ·) old.missedSeqs }) ∅

/-- `ClientRecord::contains` -/
def contains (r : ClientRecord) (clientId seq : UInt32) : Bool :=
  match r.sequences[clientId]? with
  | some s => s.contains seq
  | none => false

/-- `ClientRecord::update`, with the returned flag: whether the request is new. -/
def update (r : ClientRecord) (clientId seq : UInt32) : ClientRecord × Bool :=
  let s := ((r.sequences[clientId]?).getD {}).update seq
  (⟨r.sequences.insert clientId s.1⟩, s.2)

/-- The bytes `ClientRecord::digest` feeds to the hash. -/
def digestInput (r : ClientRecord) : Bytes :=
  r.sequences.toList.flatMap fun (id, s) =>
    le32 id ++ le32 s.lastSeq ++ s.missedSeqs.toList.flatMap le32

/-- `ClientRecord::digest` -/
def digest [Sha256] (r : ClientRecord) : Bytes := sha256 r.digestInput

/-- `ClientRecord::toProto` -/
def toProto [Sha256] (r : ClientRecord) : ClientRecordProto where
  digest := r.digest
  sequences := r.sequences.toList.map fun (id, s) => ⟨id, s.lastSeq, s.missedSeqs.toList⟩

/-- `ClientRecord::toProtoSingleClient` -/
def toProtoSingleClient (r : ClientRecord) (clientId : UInt32) : ClientSequenceProto :=
  match r.sequences[clientId]? with
  | some s => ⟨clientId, s.lastSeq, s.missedSeqs.toList⟩
  | none => {}

/-- `ClientRecord::numMissing`: how many requests of the reference are missing here. -/
def numMissing (r ref : ClientRecord) : UInt32 :=
  ref.sequences.toList.foldl (fun ret (id, refSequence) =>
    match r.sequences[id]? with
    | none => ret + refSequence.size
    | some mySequence => ret + mySequence.numMissing refSequence) 0

/-- The record after a list of requests. -/
def addAll (r : ClientRecord) (l : List (UInt32 × UInt32)) : ClientRecord :=
  l.foldl (fun r x => (r.update x.1 x.2).1) r

/-- Every client's sequence is well formed. -/
def WellFormed (r : ClientRecord) : Prop :=
  ∀ (c : UInt32) (s : ClientSequence), r.sequences[c]? = some s → s.WellFormed

@[simp] lemma addAll_nil (r : ClientRecord) : r.addAll [] = r := rfl

@[simp] lemma addAll_cons (r : ClientRecord) (x : UInt32 × UInt32) (l : List (UInt32 × UInt32)) :
    r.addAll (x :: l) = (r.update x.1 x.2).1.addAll l := rfl

lemma addAll_append (r : ClientRecord) (l l' : List (UInt32 × UInt32)) :
    r.addAll (l ++ l') = (r.addAll l).addAll l' := List.foldl_append

lemma wellFormed_empty : WellFormed {} := fun c s h => by
  rw [ExtTreeMap.getElem?_empty] at h
  cases h

lemma WellFormed.getD {r : ClientRecord} (h : r.WellFormed) (c : UInt32) :
    ((r.sequences[c]?).getD {}).WellFormed := by
  cases hc : r.sequences[c]? with
  | none => exact ClientSequence.wellFormed_default
  | some s => exact h c s hc

lemma WellFormed.update {r : ClientRecord} (h : r.WellFormed) (c x : UInt32) :
    (r.update c x).1.WellFormed := by
  intro c' s hs
  rw [ClientRecord.update, ExtTreeMap.getElem?_insert] at hs
  split_ifs at hs with hcc
  · cases hs
    exact (h.getD c).update x
  · exact h c' s hs

lemma WellFormed.addAll {r : ClientRecord} (h : r.WellFormed) (l : List (UInt32 × UInt32)) :
    (r.addAll l).WellFormed := by
  induction l generalizing r with
  | nil => exact h
  | cons x l ih => exact ih (h.update x.1 x.2)

lemma contains_eq_getD (r : ClientRecord) (c : UInt32) {y : UInt32} (hy : 0 < y) :
    r.contains c y = ((r.sequences[c]?).getD {}).contains y := by
  rw [contains]
  cases r.sequences[c]? with
  | none =>
      have hle : ¬y ≤ 0 := by grind
      simp [ClientSequence.contains, hle]
  | some s => rfl

/-- **The law of `update`**: it adds its argument and nothing else. -/
lemma contains_update {r : ClientRecord} (h : r.WellFormed) {c x c' y : UInt32} (hy : 0 < y) :
    (r.update c x).1.contains c' y = true ↔
      r.contains c' y = true ∨ (c', y) = (c, x) := by
  rw [contains_eq_getD _ _ hy, contains_eq_getD _ _ hy, update, ExtTreeMap.getElem?_insert]
  split_ifs with hcc
  · have hcc := Std.compare_eq_iff_eq.mp hcc
    subst hcc
    rw [Option.getD_some, ClientSequence.contains_update (h.getD c)]
    simp
  · have hne : c ≠ c' := fun hcc' => hcc (Std.compare_eq_iff_eq.mpr hcc')
    simp [hne.symm]

/-- `update` reports a request as new exactly if it had not been seen. -/
lemma update_isNew (r : ClientRecord) (c : UInt32) {x : UInt32} (hx : 0 < x) :
    (r.update c x).2 = true ↔ r.contains c x = false := by
  rw [contains_eq_getD _ _ hx, update]
  exact ClientSequence.update_isNew x

/-- A request with number `0` is never new. -/
lemma update_zero {r : ClientRecord} (h : r.WellFormed) (c : UInt32) :
    (r.update c 0).2 = false := by
  rw [update, ClientSequence.update_zero (h.getD c)]

/-- The record after a list of requests contains these and the old ones. -/
lemma contains_addAll {r : ClientRecord} (h : r.WellFormed) (l : List (UInt32 × UInt32))
    {c y : UInt32} (hy : 0 < y) :
    (r.addAll l).contains c y = true ↔ r.contains c y = true ∨ (c, y) ∈ l := by
  induction l generalizing r with
  | nil => simp
  | cons x l ih =>
      rw [addAll_cons, ih (h.update x.1 x.2), contains_update h hy, List.mem_cons, or_assoc]

end ClientRecord

end DomBft
