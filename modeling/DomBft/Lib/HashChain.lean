import Mathlib.Tactic

/-!
Hash chains: every element of a history is digested together with its position and the
digest of what precedes it.

* `chainFrom`, `chain`: the digest of a history, counted from an arbitrary position and
  from the first one; `chain_concat` and `chain_append` say how histories compose.
* `Binding`: what a digest function must do for a chain to determine its history.  The
  digests that can occur at a position are named by a predicate, so that two inputs need
  to be told apart only where both can occur.
* `Binding.chain_inj`: **equal digests, equal histories**; `Binding.length_eq` and
  `Binding.take_eq` are the forms used on prefixes.
* `chain_inj_of_length`: among histories of equal length, of any number of elements.
* `Continues`: a history with one digest can be continued to one with another digest.
-/

namespace HashChain

variable {α D : Type*}

/-- The digest of a history whose first element stands at position `k`, after a history
with digest `d`. -/
def chainFrom (step : ℕ → D → α → D) : ℕ → D → List α → D
  | _, d, [] => d
  | k, d, a :: l => chainFrom step (k + 1) (step k d a) l

/-- The digest of a history whose first element stands at position `1`. -/
def chain (step : ℕ → D → α → D) (base : D) (l : List α) : D := chainFrom step 1 base l

variable {step : ℕ → D → α → D} {base : D}

@[simp] lemma chainFrom_nil (k : ℕ) (d : D) : chainFrom step k d [] = d := rfl

@[simp] lemma chain_nil : chain step base [] = base := rfl

lemma chainFrom_append (l l' : List α) : ∀ (k : ℕ) (d : D),
    chainFrom step k d (l ++ l') = chainFrom step (k + l.length) (chainFrom step k d l) l' := by
  induction l with
  | nil => intro k d; rfl
  | cons a l ih =>
      intro k d
      rw [List.cons_append, chainFrom, ih, chainFrom, List.length_cons,
        Nat.add_right_comm, Nat.add_assoc]

/-- A history followed by another one. -/
lemma chain_append (l l' : List α) :
    chain step base (l ++ l') = chainFrom step (l.length + 1) (chain step base l) l' := by
  rw [chain, chainFrom_append, Nat.add_comm 1, chain]

/-- A history with one more element. -/
lemma chain_concat (l : List α) (a : α) :
    chain step base (l ++ [a]) = step (l.length + 1) (chain step base l) a := by
  rw [chain_append]
  rfl

/-- A history with the digest `d` after `p` elements can be continued to one with the digest `d'`
after `q` elements. -/
def Continues (step : ℕ → D → α → D) (p : ℕ) (d : D) (q : ℕ) (d' : D) : Prop :=
  ∃ l : List α, p + l.length = q ∧ chainFrom step (p + 1) d l = d'

namespace Continues

variable {p q r : ℕ} {d d' d'' : D}

lemma refl (step : ℕ → D → α → D) (p : ℕ) (d : D) : Continues step p d p d := ⟨[], rfl, rfl⟩

lemma le (h : Continues step p d q d') : p ≤ q := by
  obtain ⟨l, hlen, -⟩ := h
  omega

/-- There is nothing between a position and itself. -/
lemma digest_eq (h : Continues step p d q d') (hpos : q ≤ p) : d' = d := by
  obtain ⟨l, hlen, hchain⟩ := h
  have hnil : l = [] := List.length_eq_zero_iff.mp (by omega)
  rw [← hchain, hnil, chainFrom_nil]

lemma trans (h : Continues step p d q d') (h' : Continues step q d' r d'') :
    Continues step p d r d'' := by
  obtain ⟨l, rfl, rfl⟩ := h
  obtain ⟨l', rfl, rfl⟩ := h'
  refine ⟨l ++ l', by rw [List.length_append, Nat.add_assoc], ?_⟩
  rw [chainFrom_append, Nat.add_right_comm]

/-- One more element. -/
lemma concat (h : Continues step p d q d') (a : α) :
    Continues step p d (q + 1) (step (q + 1) d' a) :=
  h.trans ⟨[a], rfl, rfl⟩

/-- Where digests determine the histories of a length, what a history is continued to begins with
it. -/
lemma isPrefix (hinj : ∀ l l' : List α, l.length = l'.length →
      chain step base l = chain step base l' → l = l') {l l' : List α}
    (h : Continues step l.length (chain step base l) l'.length (chain step base l')) :
    l <+: l' := by
  obtain ⟨rest, hlen, hchain⟩ := h
  refine ⟨rest, hinj _ _ (by rw [List.length_append, hlen]) ?_⟩
  rw [chain_append, hchain]

end Continues

/-- **Equal digests, equal histories**, among those of equal length: it is enough that the
digests at one position tell their inputs apart. -/
theorem chain_inj_of_length {V : ℕ → D → Prop} (hmem : ∀ l, V l.length (chain step base l))
    (hinj : ∀ k d d' a a', V k d → V k d' → step (k + 1) d a = step (k + 1) d' a' →
      d = d' ∧ a = a') {l l' : List α} (hlen : l.length = l'.length)
    (h : chain step base l = chain step base l') : l = l' := by
  induction l using List.reverseRecOn generalizing l' with
  | nil => exact (List.length_eq_zero_iff.mp hlen.symm).symm
  | append_singleton l a ih =>
      cases l' using List.reverseRecOn with
      | nil => simp at hlen
      | append_singleton l' a' =>
          have hlen : l.length = l'.length := by simpa using hlen
          rw [chain_concat, chain_concat, hlen] at h
          obtain ⟨hd, ha⟩ := hinj _ _ _ _ _ (hlen ▸ hmem l) (hmem l') h
          rw [ih hlen hd, ha]

/-- A chained digest function binds histories of fewer than `N` elements: `V k` holds of
the digests that can occur at position `k`, and among these a digest determines its
position, its predecessor and its element. -/
structure Binding (step : ℕ → D → α → D) (base : D) (N : ℕ) (V : ℕ → D → Prop) : Prop where
  base_mem : V 0 base
  step_mem : ∀ k d a, V k d → V (k + 1) (step (k + 1) d a)
  step_ne : ∀ k d a, step (k + 1) d a ≠ base
  inj : ∀ k k' d d' a a', k + 1 < N → k' + 1 < N → V k d → V k' d' →
    step (k + 1) d a = step (k' + 1) d' a' → k = k' ∧ d = d' ∧ a = a'

namespace Binding

variable {N : ℕ} {V : ℕ → D → Prop}

/-- The digest of a history can occur at its last position. -/
lemma chain_mem (B : Binding step base N V) (l : List α) : V l.length (chain step base l) := by
  induction l using List.reverseRecOn with
  | nil => exact B.base_mem
  | append_singleton l a ih =>
      rw [chain_concat, List.length_append]
      exact B.step_mem _ _ _ ih

/-- **Equal digests, equal histories.** -/
theorem chain_inj (B : Binding step base N V) {l l' : List α} (hl : l.length < N)
    (hl' : l'.length < N) (h : chain step base l = chain step base l') : l = l' := by
  induction l using List.reverseRecOn generalizing l' with
  | nil =>
      cases l' using List.reverseRecOn with
      | nil => rfl
      | append_singleton l' a' =>
          rw [chain_concat, chain_nil] at h
          exact absurd h.symm (B.step_ne _ _ _)
  | append_singleton l a ih =>
      cases l' using List.reverseRecOn with
      | nil =>
          rw [chain_concat, chain_nil] at h
          exact absurd h (B.step_ne _ _ _)
      | append_singleton l' a' =>
          rw [chain_concat, chain_concat] at h
          rw [List.length_append, List.length_singleton] at hl hl'
          obtain ⟨-, hd, ha⟩ := B.inj _ _ _ _ _ _ hl hl' (B.chain_mem l) (B.chain_mem l') h
          rw [ih (by omega) (by omega) hd, ha]

/-- Prefixes with equal digests end at the same position and agree up to it. -/
lemma take_eq (B : Binding step base N V) {l l' : List α} {p q : ℕ} (hl : l.length < N)
    (hl' : l'.length < N) (hp : p ≤ l.length) (hq : q ≤ l'.length)
    (h : chain step base (l.take p) = chain step base (l'.take q)) :
    p = q ∧ l.take p = l'.take q := by
  have heq : l.take p = l'.take q :=
    B.chain_inj (by rw [List.length_take]; omega) (by rw [List.length_take]; omega) h
  have hlen := congrArg List.length heq
  rw [List.length_take, List.length_take, Nat.min_eq_left hp, Nat.min_eq_left hq] at hlen
  exact ⟨hlen, heq⟩

end Binding

end HashChain
