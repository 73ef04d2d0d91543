import DomBft.Lib.Blocks
import DomBft.Lib.OrderedMap
import DomBft.ClientRecord

/-!
What the digest of a client record says about it, and its message.

* `blocks`: the record as `ClientRecord::digest` goes through it.
* `Clashes`: a client of one record is a request number that the other one misses.
* `digestInput_inj_iff`: records with the same hashed bytes are equal unless they clash.
* `ofProto_toProto`: a record is read back from its message; `contains_toProtoSingleClient`: and
  the requests of one client from theirs.
-/

namespace DomBft.ClientRecord

open Std (ExtTreeMap ExtTreeSet)

/-- What is hashed of a record: one block of words for each client. -/
def blocks (r : ClientRecord) : List (UInt32 × UInt32 × List UInt32) :=
  r.sequences.toList.map fun (id, s) => (id, s.lastSeq, s.missedSeqs.toList)

/-- A client of `r` is a number that `r'` misses of an earlier client, and `r` does not. -/
def Clashes (r r' : ClientRecord) : Prop :=
  ∃ c d, c < d ∧ d ∈ r.sequences ∧ ∃ s s', r.sequences[c]? = some s ∧
    r'.sequences[c]? = some s' ∧ d ∈ s'.missedSeqs ∧ d ∉ s.missedSeqs

lemma not_clashes_self (r : ClientRecord) : ¬r.Clashes r := by
  rintro ⟨c, d, -, -, s, s', hs, hs', hd, hd'⟩
  rw [hs] at hs'
  cases hs'
  exact hd' hd

lemma blocks_injective : Function.Injective blocks := by
  intro r r' h
  have hinj : Function.Injective fun x : UInt32 × ClientSequence =>
      (x.1, x.2.lastSeq, x.2.missedSeqs.toList) := by
    rintro ⟨c, s⟩ ⟨c', s'⟩ heq
    obtain ⟨hc, hrest⟩ := Prod.mk.inj heq
    obtain ⟨hlast, hmissed⟩ := Prod.mk.inj hrest
    have hset := ExtTreeSet.toList_inj.mp hmissed
    cases s
    cases s'
    simp_all
  have hlist := List.map_injective_iff.mpr hinj h
  have hmap := ExtTreeMap.toList_inj.mp hlist
  cases r
  cases r'
  exact congrArg mk hmap

lemma mem_blocks {r : ClientRecord} {c x : UInt32} {ws : List UInt32} :
    (c, x, ws) ∈ r.blocks ↔
      ∃ s, r.sequences[c]? = some s ∧ s.lastSeq = x ∧ s.missedSeqs.toList = ws := by
  rw [blocks, List.mem_map]
  constructor
  · rintro ⟨⟨c', s⟩, hmem, heq⟩
    cases heq
    exact ⟨s, ExtTreeMap.mem_toList_iff_getElem?_eq_some.mp hmem, rfl, rfl⟩
  · rintro ⟨s, hs, rfl, rfl⟩
    exact ⟨(c, s), ExtTreeMap.mem_toList_iff_getElem?_eq_some.mpr hs, rfl⟩

lemma nodup_of_mem_blocks {r : ClientRecord} : ∀ b ∈ r.blocks, b.2.2.Nodup := by
  rintro ⟨c, x, ws⟩ hb
  obtain ⟨s, -, -, rfl⟩ := mem_blocks.mp hb
  refine ExtTreeSet.distinct_toList.imp fun {a b} hab heq => hab ?_
  exact Std.LawfulEqCmp.compare_eq_iff_eq.mpr heq

/-- A block of one record overruns the other record only where they clash. -/
lemma clashes_of_overruns {r r' : ClientRecord} (h : Blocks.Overruns r.blocks r'.blocks) :
    r.Clashes r' := by
  obtain ⟨c, x, ws, ws', d, y, vs, hsub, hmem, hd, hd'⟩ := h
  have hlt : c < d := by
    have hsorted : r.blocks.Pairwise fun a b => a.1 < b.1 := by
      rw [blocks, List.pairwise_map]
      exact ExtTreeMap.ordered_keys_toList.imp fun {a b} hab => Std.compare_eq_lt.mp hab
    exact List.rel_of_pairwise_cons (hsorted.sublist hsub) List.mem_cons_self
  obtain ⟨s, hs, -, rfl⟩ := mem_blocks.mp (hsub.subset List.mem_cons_self)
  obtain ⟨t, ht, -, -⟩ := mem_blocks.mp (hsub.subset (List.mem_cons_of_mem _ List.mem_cons_self))
  obtain ⟨s', hs', -, rfl⟩ := mem_blocks.mp hmem
  refine ⟨c, d, hlt, ?_, s, s', hs, hs', ExtTreeSet.mem_toList.mp hd,
    fun hmem => hd' (ExtTreeSet.mem_toList.mpr hmem)⟩
  rw [ExtTreeMap.mem_iff_isSome_getElem?, ht]
  rfl

lemma digestInput_eq (r : ClientRecord) :
    r.digestInput = (Blocks.flatten r.blocks).flatMap le32 := by
  rw [digestInput, blocks]
  induction r.sequences.toList with
  | nil => rfl
  | cons a l ih =>
      rw [List.flatMap_cons, ih, List.map_cons, Blocks.flatten, List.flatMap_cons,
        List.flatMap_cons, List.flatMap_append]
      simp only [List.append_assoc]

/-- **Records with the same hashed bytes** are equal if and only if they do not clash. -/
lemma digestInput_inj_iff {r r' : ClientRecord} (h : r.digestInput = r'.digestInput) :
    r = r' ↔ ¬r.Clashes r' ∧ ¬r'.Clashes r := by
  constructor
  · rintro rfl
    exact ⟨r.not_clashes_self, r.not_clashes_self⟩
  · rintro ⟨hno, hno'⟩
    rw [digestInput_eq, digestInput_eq] at h
    have hwords := Blocks.flatMap_inj_of_length (by decide : 0 < 4) le32_length le32_injective h
    rcases Blocks.eq_or_overruns nodup_of_mem_blocks nodup_of_mem_blocks hwords with
      heq | hover | hover
    · exact blocks_injective heq
    · exact absurd (clashes_of_overruns hover) hno
    · exact absurd (clashes_of_overruns hover) hno'

/-! ### The message -/

lemma foldl_insert_missed (s : ExtTreeSet UInt32 compare) :
    s.toList.foldl (·.insert ·) (∅ : ExtTreeSet UInt32 compare) = s := by
  refine ExtTreeSet.ext_mem fun x => ?_
  rw [ClientSequence.mem_foldl_insert, ExtTreeSet.mem_toList]
  simp

/-- The loop of `ofProto` over clients that are not in the record yet. -/
lemma foldl_ofProto {l : List (UInt32 × ClientSequence)}
    {m : ExtTreeMap UInt32 ClientSequence compare} (hnodup : (l.map (·.1)).Nodup)
    (hfresh : ∀ c ∈ l.map (·.1), m[c]? = none) :
    (l.map fun x => (⟨x.1, x.2.lastSeq, x.2.missedSeqs.toList⟩ : ClientSequenceProto)).foldl
        (fun m s =>
          let old := (m[s.clientId]?).getD {}
          m.insert s.clientId
            { lastSeq := s.lastSeq, missedSeqs := s.missedSeqs.foldl (·.insert ·) old.missedSeqs })
        m =
      l.foldl (fun m x => m.insert x.1 x.2) m := by
  induction l generalizing m with
  | nil => rfl
  | cons x l ih =>
      rw [List.map_cons, List.nodup_cons] at hnodup
      have hx := hfresh x.1 (by simp)
      rw [List.map_cons, List.foldl_cons, List.foldl_cons, ← ih hnodup.2 fun c hc => ?_]
      · dsimp only
        rw [hx, Option.getD_none, foldl_insert_missed]
      · have hne : c ≠ x.1 := by
          rintro rfl
          exact hnodup.1 hc
        rw [OrderedMap.getElem?_insert_of_ne hne]
        exact hfresh c (List.mem_cons_of_mem _ hc)

/-- **A record is read back** from its message. -/
lemma ofProto_toProto [Sha256] (r : ClientRecord) : ofProto r.toProto = r := by
  have hfold := foldl_ofProto (OrderedMap.nodup_map_fst_toList r.sequences)
    (fun c _ => ExtTreeMap.getElem?_empty)
  rw [OrderedMap.foldl_insert_of_perm (.refl _)] at hfold
  exact congrArg mk hfold

/-- A client's sequence is read back from its own message, at the numbers of requests; a client
that the record does not know has none. -/
lemma contains_toProtoSingleClient (r : ClientRecord) (c : UInt32) {x : UInt32} (hx : 0 < x) :
    (ClientSequence.ofProto (r.toProtoSingleClient c)).contains x = r.contains c x := by
  rw [toProtoSingleClient, contains]
  cases r.sequences[c]? with
  | none =>
      have hle : ¬x ≤ 0 := by grind
      simp [ClientSequence.ofProto, ClientSequence.contains, hle]
  | some s =>
      dsimp only
      rw [ClientSequence.ofProto, foldl_insert_missed]

end DomBft.ClientRecord
