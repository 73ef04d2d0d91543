import Mathlib.Tactic

/-!
Quorums among finitely many processes, some of them faulty.

`exists_common` is quorum intersection: two sets of processes whose sizes sum to more than
the number of processes plus the number of faulty ones share a process that is not faulty.
`card_add_card_le` is the counting step below it, and `exists_correct` the case of one set
larger than the set of faulty processes.
-/

namespace Quorum

variable {α : Type*} [DecidableEq α] {U A B F : Finset α}

/-- Two sets inside `U` overlap in what their sizes exceed `U` by. -/
lemma card_add_card_le (hA : A ⊆ U) (hB : B ⊆ U) : A.card + B.card ≤ U.card + (A ∩ B).card := by
  have hunion : (A ∪ B).card ≤ U.card := Finset.card_le_card (Finset.union_subset hA hB)
  have hsum := Finset.card_union_add_card_inter A B
  omega

/-- A set larger than the set of faulty processes has a correct member. -/
lemma exists_correct (h : F.card < A.card) : ∃ i ∈ A, i ∉ F := by
  by_contra hno
  push Not at hno
  exact absurd (Finset.card_le_card hno) (by omega)

/-- **Quorum intersection**: two large sets share a process that is not faulty. -/
lemma exists_common (hA : A ⊆ U) (hB : B ⊆ U) (h : U.card + F.card < A.card + B.card) :
    ∃ i, i ∈ A ∧ i ∈ B ∧ i ∉ F := by
  have hcard := card_add_card_le hA hB
  obtain ⟨i, hi, hiF⟩ := exists_correct (A := A ∩ B) (F := F) (by omega)
  obtain ⟨hiA, hiB⟩ := Finset.mem_inter.mp hi
  exact ⟨i, hiA, hiB, hiF⟩

end Quorum
