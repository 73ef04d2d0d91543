import Mathlib.Data.Set.Card
import Mathlib.Tactic

/-!
Counting keys along a list, and the last element at which a count reaches a threshold.

* `lastAt`: the last element of a list with which the number of elements of its key becomes
  `t`; `lastAt_cases` says where it lies, and that every key that reaches the threshold at
  all has reached it there.
* `count_flatten`: in a concatenation of lists without repetitions, a key is counted once for
  each list that has it; `count_le_of_prefix_flatten` compares two keys in what has been
  scanned of such a concatenation; `count_flatMap_le` bounds the count by the number of lists
  that may have the key.
* `sum_ncard_sections`: a set of pairs has as many elements as its sections together.
* `le_getElem_iff_countP_lt`: a place in a sorted list and the number of elements below a value.
* `exists_mem_of_lt_countP`: among more elements than there are exceptions one is none.
-/

namespace Tally

variable {α β κ : Type*} [BEq κ]

/-- The last element with which the count of its key becomes `t`, where the keys in `seen`
have been counted before; `best` if there is none. -/
def lastAt (key : α → κ) (t : ℕ) : List α → List κ → Option α → Option α
  | [], _, best => best
  | a :: l, seen, best =>
    lastAt key t l (key a :: seen) (if (key a :: seen).count (key a) = t then some a else best)

variable [LawfulBEq κ]

/-- **Where a count last becomes `t`.**  Either no count does, or the element lies behind
`t - 1` others of its key, and every key that reaches `t` in the whole list does so up to
this element. -/
theorem lastAt_cases (key : α → κ) (t : ℕ) (l : List α) (seen : List κ) (best : Option α) :
    (lastAt key t l seen best = best ∧
        ∀ k, t ≤ (l.map key).count k + seen.count k → t ≤ seen.count k) ∨
      ∃ pre x post, l = pre ++ x :: post ∧ lastAt key t l seen best = some x ∧
        (pre.map key).count (key x) + seen.count (key x) + 1 = t ∧
        ∀ k, t ≤ (l.map key).count k + seen.count k →
          t ≤ ((pre ++ [x]).map key).count k + seen.count k := by
  induction l generalizing seen best with
  | nil => exact .inl ⟨rfl, fun k hk => by simpa using hk⟩
  | cons a l ih =>
      have hcons : ∀ k, ((a :: l).map key).count k + seen.count k =
          (l.map key).count k + (key a :: seen).count k := by
        intro k
        rw [List.map_cons, List.count_cons, List.count_cons]
        omega
      rw [lastAt]
      rcases ih (key a :: seen) (if (key a :: seen).count (key a) = t then some a else best) with
        ⟨hres, hreach⟩ | ⟨pre, x, post, rfl, hres, hcount, hreach⟩
      · by_cases hhit : (key a :: seen).count (key a) = t
        · rw [if_pos hhit] at hres
          refine .inr ⟨[], a, l, rfl, by rw [if_pos hhit, hres], ?_, fun k hk => ?_⟩
          · rw [List.count_cons_self] at hhit
            simpa using hhit
          · have hk' := hreach k (by rw [← hcons]; exact hk)
            rw [List.count_cons] at hk'
            rw [List.nil_append, List.map_singleton, List.count_singleton]
            omega
        · rw [if_neg hhit] at hres
          refine .inl ⟨by rw [if_neg hhit, hres], fun k hk => ?_⟩
          have hk' := hreach k (by rw [← hcons]; exact hk)
          by_cases hka : key a = k
          · subst hka
            rw [List.count_cons_self] at hhit hk'
            omega
          · rw [List.count_cons_of_ne hka] at hk'
            exact hk'
      · refine .inr ⟨a :: pre, x, post, rfl, hres, ?_, fun k hk => ?_⟩
        · rw [List.map_cons, List.count_cons]
          rw [List.count_cons] at hcount
          omega
        · have hk' := hreach k (by rw [← hcons]; exact hk)
          rw [List.count_cons] at hk'
          rw [List.cons_append, List.map_cons, List.count_cons]
          omega

/-- The element `x` is the one with which a count last becomes `t`. -/
def IsLast (key : α → κ) (t : ℕ) (l : List α) (x : α) : Prop :=
  ∃ pre post, l = pre ++ x :: post ∧ ((pre ++ [x]).map key).count (key x) = t ∧
    ∀ k, t ≤ (l.map key).count k → t ≤ ((pre ++ [x]).map key).count k

lemma not_isLast_of_split {key : α → κ} {t : ℕ} {l pre mid post : List α} {x y : α}
    (hl : l = pre ++ x :: mid ++ y :: post)
    (hx : ∀ k, t ≤ (l.map key).count k → t ≤ ((pre ++ [x]).map key).count k)
    (hy : ((pre ++ x :: mid ++ [y]).map key).count (key y) = t) : False := by
  have htotal : t ≤ (l.map key).count (key y) := by
    rw [← hy, hl, List.append_cons (pre ++ x :: mid) y post]
    exact ((List.sublist_append_left _ post).map key).count_le _
  have hpre := hx (key y) htotal
  have hle : ((pre ++ [x]).map key).count (key y) ≤ ((pre ++ x :: mid).map key).count (key y) :=
    (((List.singleton_sublist.mpr List.mem_cons_self).append_left pre).map key).count_le _
  rw [List.map_append, List.map_singleton, List.count_append, List.count_singleton_self] at hy
  omega

/-- Only one element is the last one. -/
lemma IsLast.unique {key : α → κ} {t : ℕ} {l : List α} {x y : α} (hx : IsLast key t l x)
    (hy : IsLast key t l y) : x = y := by
  obtain ⟨pre, post, hl, hcount, hreach⟩ := hx
  obtain ⟨pre', post', hl', hcount', hreach'⟩ := hy
  rcases List.append_eq_append_iff.mp (hl.symm.trans hl') with ⟨as, hpre, has⟩ | ⟨as, hpre, has⟩
  · cases as with
    | nil => exact (List.cons.inj has).1
    | cons a as =>
        obtain ⟨rfl, -⟩ := List.cons.inj has
        subst hpre
        exact (not_isLast_of_split hl' hreach hcount').elim
  · cases as with
    | nil => exact (List.cons.inj has).1.symm
    | cons a as =>
        obtain ⟨rfl, -⟩ := List.cons.inj has
        subst hpre
        exact (not_isLast_of_split hl hreach' hcount).elim

/-- `lastAt` finds the last element. -/
lemma lastAt_eq_some_iff {key : α → κ} {t : ℕ} (ht : 0 < t) {l : List α} {x : α} :
    lastAt key t l [] none = some x ↔ IsLast key t l x := by
  rcases lastAt_cases key t l [] none with ⟨hres, hreach⟩ | ⟨pre, y, post, hl, hres, hcount, hreach⟩
  · refine ⟨fun h => (by simp [hres] at h), fun ⟨pre, post, hl, hcount, _⟩ => ?_⟩
    have htotal : t ≤ (l.map key).count (key x) := by
      rw [← hcount, hl, List.append_cons pre x post]
      exact ((List.sublist_append_left _ post).map key).count_le _
    have hzero := hreach (key x) (by simpa using htotal)
    simp only [List.count_nil] at hzero
    omega
  · have hy : IsLast key t l y := by
      refine ⟨pre, post, hl, ?_, by simpa using hreach⟩
      rw [List.map_append, List.map_singleton, List.count_append, List.count_singleton_self]
      simpa using hcount
    rw [hres]
    refine ⟨fun h => ?_, fun h => congrArg some (hy.unique h)⟩
    cases Option.some.inj h
    exact hy

/-- In a concatenation of lists without repetitions, a key is counted once for each list
that has it. -/
lemma count_flatten {ls : List (List κ)} (h : ∀ l ∈ ls, l.Nodup) (k : κ) :
    ls.flatten.count k = ls.countP (·.contains k) := by
  induction ls with
  | nil => rfl
  | cons l ls ih =>
      rw [List.flatten_cons, List.count_append, ih fun l' hl' => h l' (List.mem_cons_of_mem _ hl'),
        List.countP_cons]
      by_cases hk : k ∈ l
      · rw [List.count_eq_one_of_mem (h l List.mem_cons_self) hk, if_pos (by simpa using hk),
          Nat.add_comm]
      · rw [List.count_eq_zero_of_not_mem hk, if_neg (by simpa using hk), Nat.zero_add,
          Nat.add_zero]

omit [LawfulBEq κ] in
/-- If in every initial part of each list the key `k'` occurs at least as often as `k`, then
also in every initial part of their concatenation. -/
lemma count_le_of_prefix_flatten {ls : List (List κ)} {k k' : κ}
    (h : ∀ l ∈ ls, ∀ p, p <+: l → p.count k ≤ p.count k') {p : List κ} (hp : p <+: ls.flatten) :
    p.count k ≤ p.count k' := by
  induction ls generalizing p with
  | nil =>
      rw [List.flatten_nil, List.prefix_nil] at hp
      rw [hp]
      exact le_rfl
  | cons l ls ih =>
      rw [List.flatten_cons] at hp
      rcases List.prefix_or_prefix_of_prefix hp (List.prefix_append l ls.flatten) with
        hpl | ⟨q, rfl⟩
      · exact h l List.mem_cons_self p hpl
      · have hq := (List.prefix_append_right_inj l).mp hp
        rw [List.count_append, List.count_append]
        exact Nat.add_le_add (h l List.mem_cons_self l List.prefix_rfl)
          (ih (fun l' hl' => h l' (List.mem_cons_of_mem _ hl')) hq)

/-- A key is counted at most once for each element that may have it. -/
lemma count_flatMap_le {l : List β} {g : β → List κ} {k : κ} {P : β → Prop} [DecidablePred P]
    (hno : ∀ b ∈ l, ¬P b → k ∉ g b) (hone : ∀ b ∈ l, P b → (g b).count k ≤ 1) :
    (l.flatMap g).count k ≤ l.countP (P ·) := by
  induction l with
  | nil => exact Nat.zero_le _
  | cons b l ih =>
      have htail := ih (fun b' hb' => hno b' (List.mem_cons_of_mem b hb'))
        (fun b' hb' => hone b' (List.mem_cons_of_mem b hb'))
      rw [List.flatMap_cons, List.count_append, List.countP_cons]
      by_cases hb : P b
      · have hle := hone b List.mem_cons_self hb
        rw [if_pos (by simpa using hb)]
        omega
      · rw [List.count_eq_zero_of_not_mem (hno b List.mem_cons_self hb),
          if_neg (by simpa using hb)]
        omega

/-- Among more elements with a property than there are exceptions, one is no exception. -/
lemma exists_mem_of_lt_countP {l : List β} {P Q : β → Prop} [DecidablePred P] [DecidablePred Q]
    (h : l.countP (fun b => ¬Q b) < l.countP (P ·)) : ∃ b ∈ l, P b ∧ Q b := by
  by_contra hno
  push Not at hno
  refine absurd (List.countP_mono_left (l := l) (p := (P ·)) (q := fun b => ¬Q b) ?_) (by omega)
  intro b hb hP
  simpa using hno b hb (by simpa using hP)

/-- A set of pairs, counted by the first components. -/
lemma sum_ncard_sections [Finite α] [Finite β] {S : Set (α × β)} {l : List α} (hl : l.Nodup)
    (hS : ∀ x ∈ S, x.1 ∈ l) : (l.map fun a => {b | (a, b) ∈ S}.ncard).sum = S.ncard := by
  induction l generalizing S with
  | nil =>
      have hempty : S = ∅ := Set.eq_empty_of_forall_notMem fun x hx => List.not_mem_nil (hS x hx)
      rw [hempty, Set.ncard_empty, List.map_nil, List.sum_nil]
  | cons a l ih =>
      obtain ⟨ha, hl⟩ := List.nodup_cons.mp hl
      -- the pairs that start with `a`, and the others
      have hsplit : S = Prod.mk a '' {b | (a, b) ∈ S} ∪ {x ∈ S | x.1 ≠ a} := by
        ext ⟨c, b⟩
        by_cases hc : c = a
        · subst hc
          simp
        · simp [hc, Ne.symm hc]
      have hdisj : Disjoint (Prod.mk a '' {b | (a, b) ∈ S}) {x ∈ S | x.1 ≠ a} := by
        refine Set.disjoint_left.mpr ?_
        rintro x ⟨b, -, rfl⟩ hx
        exact hx.2 rfl
      have hrest := ih hl (S := {x ∈ S | x.1 ≠ a}) fun x hx =>
        (List.mem_cons.mp (hS x hx.1)).resolve_left hx.2
      have hsections : (l.map fun c => {b | (c, b) ∈ {x ∈ S | x.1 ≠ a}}.ncard) =
          l.map fun c => {b | (c, b) ∈ S}.ncard := by
        refine List.map_congr_left fun c hc => ?_
        have hne : c ≠ a := fun h => ha (h ▸ hc)
        simp [hne]
      rw [hsections] at hrest
      conv_rhs => rw [hsplit]
      rw [Set.ncard_union_eq hdisj, Set.ncard_image_of_injective _ (Prod.mk_right_injective a),
        List.map_cons, List.sum_cons, hrest]

/-- **Where a value stands in a sorted list**: what stands at a place is at least the value exactly
if no more than that many elements are below it. -/
lemma le_getElem_iff_countP_lt {γ : Type*} [LinearOrder γ] {l : List γ}
    (hl : l.Pairwise (· ≤ ·)) {i : ℕ} (hi : i < l.length) (v : γ) :
    v ≤ l[i] ↔ l.countP (· < v) ≤ i := by
  induction l generalizing i with
  | nil => cases hi
  | cons a l ih =>
      obtain ⟨hfirst, hrest⟩ := List.pairwise_cons.mp hl
      by_cases ha : a < v
      · rw [List.countP_cons_of_pos (by simpa using ha)]
        cases i with
        | zero => simpa using ha
        | succ i =>
            rw [List.getElem_cons_succ, ih hrest, Nat.add_le_add_iff_right]
      · -- nothing is below `v`
        have hnone : (a :: l).countP (· < v) = 0 := by
          rw [List.countP_eq_zero]
          intro b hb
          rcases List.mem_cons.mp hb with rfl | hb
          · simpa using ha
          · simpa using (not_lt.mp ha).trans (hfirst b hb)
        have hle : v ≤ (a :: l)[i] := by
          rcases List.mem_cons.mp (List.getElem_mem hi) with heq | hmem
          · rw [heq]
            exact not_lt.mp ha
          · exact (not_lt.mp ha).trans (hfirst _ hmem)
        rw [hnone]
        exact iff_of_true hle (Nat.zero_le i)

end Tally
