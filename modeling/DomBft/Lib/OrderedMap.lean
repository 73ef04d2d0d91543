import Mathlib.Tactic

/-!
Facts on the ordered maps of the standard library, over an arbitrary key type.

* `getElem?_foldl_erase`, `getElem?_foldl_insert`: the map after the keys of a list have been
  erased, or set.
* `nodup_map_fst_toList`, `nodup_map_fst_of_sublist`, `getElem?_insert_cases`, `getElem?_erase_cases`: the entries of a map;
  `getElem?_insert_of_ne`, `getElem?_erase_of_ne`: those under other keys; `keysWhere`: the keys
  of those that meet a condition.
* `toList_erase_first`, `toList_foldl_erase_first`: the map without its first keys.
* `toList_ofList`, `toList_insert_last`: maps as the ordered lists of their entries.
* `foldl_insert_of_perm`: a map is made of its entries in any order.
* `takeWhile_eq_filter`: on a list along which a predicate can only turn false, the longest
  prefix that meets it is the list of all elements that do; `takeWhile_cut`, `dropWhile_cut`
  cut a list at the place where it does.
-/

namespace OrderedMap

open Std (ExtTreeMap)

variable {α β γ : Type*} {cmp : α → α → Ordering} [Std.TransCmp cmp] [Std.LawfulEqCmp cmp]

/-- Erasing the keys of a list, one after the other. -/
lemma getElem?_foldl_erase [DecidableEq α] (m : ExtTreeMap α β cmp) (l : List γ) (key : γ → α)
    (k : α) :
    (l.foldl (fun m x => m.erase (key x)) m)[k]? = if k ∈ l.map key then none else m[k]? := by
  induction l generalizing m with
  | nil => simp
  | cons x l ih =>
      rw [List.foldl_cons, ih, ExtTreeMap.getElem?_erase, List.map_cons]
      by_cases hk : k ∈ l.map key
      · rw [if_pos hk, if_pos (List.mem_cons_of_mem _ hk)]
      · rw [if_neg hk]
        by_cases hx : key x = k
        · rw [if_pos (Std.LawfulEqCmp.compare_eq_iff_eq.mpr hx), if_pos (hx ▸ List.mem_cons_self)]
        · rw [if_neg fun h => hx (Std.LawfulEqCmp.compare_eq_iff_eq.mp h), if_neg]
          simp [hk, Ne.symm hx]

/-- Setting the keys of a list, each to a value that depends on the key only. -/
lemma getElem?_foldl_insert (m : ExtTreeMap α β cmp) (l : List γ) (key : γ → α) (val : α → β)
    {k : α} (h : k ∈ l.map key ∨ m[k]? = some (val k)) :
    (l.foldl (fun m x => m.insert (key x) (val (key x))) m)[k]? = some (val k) := by
  induction l generalizing m with
  | nil => exact h.resolve_left List.not_mem_nil
  | cons x l ih =>
      rw [List.foldl_cons]
      refine ih _ ?_
      rw [ExtTreeMap.getElem?_insert]
      by_cases hx : key x = k
      · exact .inr (by rw [if_pos (Std.LawfulEqCmp.compare_eq_iff_eq.mpr hx), hx])
      · rw [if_neg fun heq => hx (Std.LawfulEqCmp.compare_eq_iff_eq.mp heq)]
        exact h.imp_left fun hmem => (List.mem_cons.mp hmem).resolve_left (Ne.symm hx)

omit [Std.LawfulEqCmp cmp] in
/-- The keys of a map are distinct. -/
lemma nodup_map_fst_toList (m : ExtTreeMap α β cmp) :
    (m.toList.map (·.1)).Nodup := by
  rw [ExtTreeMap.map_fst_toList_eq_keys]
  exact ExtTreeMap.nodup_keys

omit [Std.LawfulEqCmp cmp] in
/-- So are those of a selection of its entries. -/
lemma nodup_map_fst_of_sublist {m : ExtTreeMap α β cmp} {l : List (α × β)}
    (h : l.Sublist m.toList) : (l.map (·.1)).Nodup :=
  (nodup_map_fst_toList m).sublist (h.map _)

/-- The keys whose values meet a condition. -/
def keysWhere [DecidableEq α] (m : ExtTreeMap α β cmp) (p : β → Prop) [DecidablePred p] :
    Finset α :=
  ((m.toList.filter fun x => p x.2).map (·.1)).toFinset

lemma mem_keysWhere [DecidableEq α] {m : ExtTreeMap α β cmp} {p : β → Prop} [DecidablePred p]
    {k : α} : k ∈ keysWhere m p ↔ ∃ v, m[k]? = some v ∧ p v := by
  simp only [keysWhere, List.mem_toFinset, List.mem_map, List.mem_filter, decide_eq_true_eq]
  constructor
  · rintro ⟨⟨k, v⟩, ⟨hv, hp⟩, rfl⟩
    exact ⟨v, ExtTreeMap.mem_toList_iff_getElem?_eq_some.mp hv, hp⟩
  · rintro ⟨v, hv, hp⟩
    exact ⟨(k, v), ⟨ExtTreeMap.mem_toList_iff_getElem?_eq_some.mpr hv, hp⟩, rfl⟩

omit [Std.LawfulEqCmp cmp] in
lemma card_keysWhere [DecidableEq α] (m : ExtTreeMap α β cmp) (p : β → Prop) [DecidablePred p] :
    (keysWhere m p).card = (m.toList.filter fun x => p x.2).length := by
  rw [keysWhere, List.toFinset_card_of_nodup, List.length_map]
  exact nodup_map_fst_of_sublist List.filter_sublist

/-- The keys, after one has been set. -/
lemma keysWhere_insert_subset [DecidableEq α] (m : ExtTreeMap α β cmp) (k : α) (v : β)
    (p : β → Prop) [DecidablePred p] : keysWhere (m.insert k v) p ⊆ insert k (keysWhere m p) := by
  intro k' hk'
  obtain ⟨v', hv', hp⟩ := mem_keysWhere.mp hk'
  rw [ExtTreeMap.getElem?_insert] at hv'
  split_ifs at hv' with hk
  · exact Finset.mem_insert.mpr (.inl (Std.LawfulEqCmp.compare_eq_iff_eq.mp hk).symm)
  · exact Finset.mem_insert.mpr (.inr (mem_keysWhere.mpr ⟨v', hv', hp⟩))

/-- No key is added for a value that does not meet the condition. -/
lemma keysWhere_insert_subset_of_not [DecidableEq α] (m : ExtTreeMap α β cmp) (k : α) {v : β}
    {p : β → Prop} [DecidablePred p] (h : ¬p v) : keysWhere (m.insert k v) p ⊆ keysWhere m p := by
  intro k' hk'
  obtain ⟨v', hv', hp⟩ := mem_keysWhere.mp hk'
  rw [ExtTreeMap.getElem?_insert] at hv'
  split_ifs at hv' with hk
  · exact absurd (Option.some.inj hv' ▸ hp) h
  · exact mem_keysWhere.mpr ⟨v', hv', hp⟩

/-- An entry of a map after one key has been set. -/
lemma getElem?_insert_cases {m : ExtTreeMap α β cmp} {k k' : α} {v v' : β}
    (h : (m.insert k v)[k']? = some v') : k' = k ∧ v' = v ∨ k' ≠ k ∧ m[k']? = some v' := by
  rw [ExtTreeMap.getElem?_insert] at h
  split_ifs at h with hk
  · exact .inl ⟨(Std.LawfulEqCmp.compare_eq_iff_eq.mp hk).symm, (Option.some.inj h).symm⟩
  · exact .inr ⟨fun hkk => hk (Std.LawfulEqCmp.compare_eq_iff_eq.mpr hkk.symm), h⟩

/-- A key other than the one that is set. -/
lemma getElem?_insert_of_ne {m : ExtTreeMap α β cmp} {k k' : α} {v : β} (h : k' ≠ k) :
    (m.insert k v)[k']? = m[k']? := by
  rw [ExtTreeMap.getElem?_insert, if_neg]
  exact fun hk => h (Std.LawfulEqCmp.compare_eq_iff_eq.mp hk).symm

/-- A key other than the one that is erased. -/
lemma getElem?_erase_of_ne {m : ExtTreeMap α β cmp} {k k' : α} (h : k' ≠ k) :
    (m.erase k)[k']? = m[k']? := by
  rw [ExtTreeMap.getElem?_erase, if_neg]
  exact fun hk => h (Std.LawfulEqCmp.compare_eq_iff_eq.mp hk).symm

/-- An entry of a map after one key has been erased. -/
lemma getElem?_erase_cases {m : ExtTreeMap α β cmp} {k k' : α} {v : β}
    (h : (m.erase k)[k']? = some v) : k' ≠ k ∧ m[k']? = some v := by
  rw [ExtTreeMap.getElem?_erase] at h
  split_ifs at h with hk
  exact ⟨fun hkk => hk (Std.LawfulEqCmp.compare_eq_iff_eq.mpr hkk.symm), h⟩

/-- Setting a key to the value it has changes nothing. -/
lemma insert_of_getElem? {m : ExtTreeMap α β cmp} {k : α} {v : β} (h : m[k]? = some v) :
    m.insert k v = m := by
  refine ExtTreeMap.ext_getElem? fun k' => ?_
  rw [ExtTreeMap.getElem?_insert]
  split_ifs with hk
  · rw [← Std.LawfulEqCmp.compare_eq_iff_eq.mp hk, h]
  · rfl

/-- Strictly ordered lists with the same entries are equal. -/
lemma eq_of_mem_iff {l l' : List (α × β)} (h : l.Pairwise fun a b => cmp a.1 b.1 = .lt)
    (h' : l'.Pairwise fun a b => cmp a.1 b.1 = .lt) (hmem : ∀ e, e ∈ l ↔ e ∈ l') : l = l' := by
  have hanti : Std.Antisymm fun a b : α × β => cmp a.1 b.1 = .lt := by
    refine ⟨fun a b hab hba => ?_⟩
    rw [Std.OrientedCmp.gt_of_lt hab] at hba
    cases hba
  have hirrefl : Std.Irrefl fun a b : α × β => cmp a.1 b.1 = .lt := by
    refine ⟨fun a haa => ?_⟩
    have hself : cmp a.1 a.1 = .eq := Std.ReflCmp.compare_self
    rw [hself] at haa
    cases haa
  exact h.eq_of_mem_iff h' fun {e} => hmem e

/-- The entries of a map without the first key. -/
lemma toList_erase_first {m : ExtTreeMap α β cmp} {k : α} {v : β} {l : List (α × β)}
    (h : m.toList = (k, v) :: l) : (m.erase k).toList = l := by
  have hordered := h ▸ ExtTreeMap.ordered_keys_toList (t := m)
  obtain ⟨hfirst, hrest⟩ := List.pairwise_cons.mp hordered
  refine eq_of_mem_iff ExtTreeMap.ordered_keys_toList hrest fun ⟨k', v'⟩ => ?_
  have hmem : m[k']? = some v' ↔ (k', v') = (k, v) ∨ (k', v') ∈ l := by
    rw [← ExtTreeMap.mem_toList_iff_getElem?_eq_some, h, List.mem_cons]
  rw [ExtTreeMap.mem_toList_iff_getElem?_eq_some, ExtTreeMap.getElem?_erase]
  split_ifs with hk
  · obtain rfl := Std.LawfulEqCmp.compare_eq_iff_eq.mp hk
    refine iff_of_false (by simp) fun hl => ?_
    have hlt := hfirst _ hl
    rw [hk] at hlt
    cases hlt
  · rw [hmem]
    refine or_iff_right fun heq => hk ?_
    cases heq
    exact Std.ReflCmp.compare_self

/-- The entries of a map without its first keys. -/
lemma toList_foldl_erase_first {m : ExtTreeMap α β cmp} {l l' : List (α × β)}
    (h : m.toList = l ++ l') : (l.foldl (fun m e => m.erase e.1) m).toList = l' := by
  induction l generalizing m with
  | nil => exact h
  | cons e l ih => exact ih (toList_erase_first h)

/-- The entries of a map that is made of an ordered list. -/
lemma toList_ofList {l : List (α × β)} (h : l.Pairwise fun a b => cmp a.1 b.1 = .lt) :
    (ExtTreeMap.ofList l cmp).toList = l := by
  classical
  have hne : l.Pairwise fun a b => ¬cmp a.1 b.1 = .eq := h.imp fun hab => by rw [hab]; decide
  have hget : ∀ {k v}, (k, v) ∈ l → (ExtTreeMap.ofList l cmp)[k]? = some v := fun hmem =>
    ExtTreeMap.getElem?_ofList_of_mem Std.ReflCmp.compare_self hne hmem
  refine eq_of_mem_iff ExtTreeMap.ordered_keys_toList h fun ⟨k, v⟩ => ?_
  rw [ExtTreeMap.mem_toList_iff_getElem?_eq_some]
  refine ⟨fun hk => ?_, hget⟩
  have hmem : k ∈ ExtTreeMap.ofList l cmp := by
    rw [ExtTreeMap.mem_iff_isSome_getElem?, hk]
    rfl
  rw [ExtTreeMap.mem_ofList, List.contains_iff_mem, List.mem_map] at hmem
  obtain ⟨⟨k, v'⟩, hmem, rfl⟩ := hmem
  rw [hget hmem] at hk
  rwa [← Option.some.inj hk]

/-- Setting a key behind all others adds an entry at the end. -/
lemma toList_insert_last {m : ExtTreeMap α β cmp} {k : α} {v : β}
    (h : ∀ e ∈ m.toList, cmp e.1 k = .lt) : (m.insert k v).toList = m.toList ++ [(k, v)] := by
  refine eq_of_mem_iff ExtTreeMap.ordered_keys_toList (List.pairwise_append.mpr
    ⟨ExtTreeMap.ordered_keys_toList, List.pairwise_singleton _ _, fun a ha b hb => ?_⟩)
    fun ⟨k', v'⟩ => ?_
  · rw [List.mem_singleton.mp hb]
    exact h a ha
  · rw [ExtTreeMap.mem_toList_iff_getElem?_eq_some, ExtTreeMap.getElem?_insert, List.mem_append,
      ExtTreeMap.mem_toList_iff_getElem?_eq_some, List.mem_singleton, Prod.mk.injEq]
    split_ifs with hk
    · obtain rfl := Std.LawfulEqCmp.compare_eq_iff_eq.mp hk
      have hnone : m[k]? ≠ some v' := fun hget => by
        have hlt := h (k, v') (ExtTreeMap.mem_toList_iff_getElem?_eq_some.mpr hget)
        rw [hk] at hlt
        cases hlt
      simp [hnone, eq_comm]
    · have hne : k' ≠ k := fun hkk => hk (Std.LawfulEqCmp.compare_eq_iff_eq.mpr hkk.symm)
      simp [hne]

omit [Std.LawfulEqCmp cmp] in
lemma foldl_insert_eq (m : ExtTreeMap α β cmp) (l : List (α × β)) :
    l.foldl (fun m e => m.insert e.1 e.2) m = m.insertMany l := by
  induction l generalizing m with
  | nil => rw [List.foldl_nil, ExtTreeMap.insertMany_nil]
  | cons e l ih => rw [List.foldl_cons, ih, ExtTreeMap.insertMany_cons]

/-- The entries of a map after a new key has been set. -/
lemma toList_insert_perm {m : ExtTreeMap α β cmp} {k : α} {v : β} (h : m[k]? = none) :
    (m.insert k v).toList.Perm ((k, v) :: m.toList) := by
  have hnodup : ∀ m : ExtTreeMap α β cmp, m.toList.Nodup := fun m =>
    (nodup_map_fst_toList m).of_map
  have hnew : (k, v) ∉ m.toList := fun hmem => by
    rw [ExtTreeMap.mem_toList_iff_getElem?_eq_some, h] at hmem
    cases hmem
  refine (List.perm_ext_iff_of_nodup (hnodup _) ((hnodup m).cons hnew)).mpr fun ⟨k', v'⟩ => ?_
  rw [ExtTreeMap.mem_toList_iff_getElem?_eq_some, List.mem_cons,
    ExtTreeMap.mem_toList_iff_getElem?_eq_some, ExtTreeMap.getElem?_insert, Prod.mk.injEq]
  split_ifs with hk
  · have hkk := Std.LawfulEqCmp.compare_eq_iff_eq.mp hk
    subst hkk
    simp [h, eq_comm]
  · have hne : k' ≠ k := fun hkk => hk (Std.LawfulEqCmp.compare_eq_iff_eq.mpr hkk.symm)
    simp [hne]

/-- Inserting the entries of a map one after the other, in any order, makes the map. -/
lemma foldl_insert_of_perm {m : ExtTreeMap α β cmp} {l : List (α × β)} (h : l.Perm m.toList) :
    l.foldl (fun m e => m.insert e.1 e.2) ∅ = m := by
  classical
  have hne : l.Pairwise fun a b => ¬cmp a.1 b.1 = .eq := by
    refine h.symm.pairwise ExtTreeMap.distinct_keys_toList fun {a b} hab hba => hab ?_
    exact Std.OrientedCmp.eq_symm hba
  rw [foldl_insert_eq, ← ExtTreeMap.ofList_eq_insertMany_empty]
  refine ExtTreeMap.ext_getElem? fun k => ?_
  cases hk : m[k]? with
  | some v =>
      refine ExtTreeMap.getElem?_ofList_of_mem Std.ReflCmp.compare_self hne (h.mem_iff.mpr ?_)
      exact ExtTreeMap.mem_toList_iff_getElem?_eq_some.mpr hk
  | none =>
      refine ExtTreeMap.getElem?_ofList_of_contains_eq_false ?_
      rw [Bool.eq_false_iff, Ne, List.contains_iff_mem, List.mem_map]
      rintro ⟨⟨k, v⟩, hmem, rfl⟩
      rw [ExtTreeMap.mem_toList_iff_getElem?_eq_some.mp (h.mem_iff.mp hmem)] at hk
      cases hk

/-- A predicate that can only turn false along the list holds on a prefix of it. -/
lemma takeWhile_eq_filter {p : γ → Bool} {l : List γ}
    (h : l.Pairwise fun a b => p b → p a) : l.takeWhile p = l.filter p := by
  induction l with
  | nil => rfl
  | cons a l ih =>
      obtain ⟨ha, hl⟩ := List.pairwise_cons.mp h
      cases hp : p a with
      | true => rw [List.takeWhile_cons_of_pos hp, List.filter_cons_of_pos hp, ih hl]
      | false =>
          rw [List.takeWhile_cons_of_neg (by simp [hp]), List.filter_cons_of_neg (by simp [hp])]
          refine (List.filter_eq_nil_iff.mpr fun b hb hpb => ?_).symm
          rw [ha b hb hpb] at hp
          cases hp

/-- The prefix that meets a predicate, where the list is cut behind it. -/
lemma takeWhile_cut {p : γ → Bool} {l l' : List γ} (h : ∀ a ∈ l, p a) (h' : ∀ a ∈ l', ¬p a) :
    (l ++ l').takeWhile p = l := by
  rw [List.takeWhile_append_of_pos h]
  cases l' with
  | nil => rw [List.takeWhile_nil, List.append_nil]
  | cons a l' => rw [List.takeWhile_cons_of_neg (h' a List.mem_cons_self), List.append_nil]

/-- What is left behind the prefix that meets a predicate. -/
lemma dropWhile_cut {p : γ → Bool} {l l' : List γ} (h : ∀ a ∈ l, p a) (h' : ∀ a ∈ l', ¬p a) :
    (l ++ l').dropWhile p = l' := by
  rw [List.dropWhile_append_of_pos h]
  cases l' with
  | nil => rfl
  | cons a l' => rw [List.dropWhile_cons_of_neg (h' a List.mem_cons_self)]

end OrderedMap
