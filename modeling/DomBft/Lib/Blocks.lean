import Mathlib.Tactic

/-!
Blocks that are written one after the other without their lengths: a key, a value, and a list of
distinct further words.

* `flatten`: the words of a list of blocks.
* `Overruns`: in one list a block goes on with the key of what is a block of its own in the
  other one.
* `eq_or_overruns`: **this is the only way in which two lists can have the same words.**
* `flatMap_inj_of_length`: words of equal length can be told apart.
-/

namespace Blocks

variable {α β : Type*}

/-- The words of a list of blocks. -/
def flatten : List (α × α × List α) → List α
  | [] => []
  | (c, x, ws) :: bs => c :: x :: (ws ++ flatten bs)

/-- A block of `bs'` has among its words the key of a later block of `bs`, where `bs` has a
block with the same key and value and without this word. -/
def Overruns (bs bs' : List (α × α × List α)) : Prop :=
  ∃ c x ws ws' d y vs, [(c, x, ws), (d, y, vs)].Sublist bs ∧ (c, x, ws') ∈ bs' ∧ d ∈ ws' ∧ d ∉ ws

lemma Overruns.cons {bs bs' : List (α × α × List α)} (h : Overruns bs bs')
    (b b' : α × α × List α) : Overruns (b :: bs) (b' :: bs') := by
  obtain ⟨c, x, ws, ws', d, y, vs, hsub, hmem, hd, hd'⟩ := h
  exact ⟨c, x, ws, ws', d, y, vs, hsub.cons b, List.mem_cons_of_mem b' hmem, hd, hd'⟩

/-- The words of the first block are a proper prefix of those of the other one. -/
lemma overruns_of_tail {c x : α} {ws rest : List α} {bs bs' : List (α × α × List α)}
    (hnodup : (ws ++ rest).Nodup) (hne : rest ≠ []) {tail : List α}
    (h : flatten bs = rest ++ tail) :
    Overruns ((c, x, ws) :: bs) ((c, x, ws ++ rest) :: bs') := by
  obtain ⟨d, rest, rfl⟩ := List.exists_cons_of_ne_nil hne
  cases bs with
  | nil => cases h
  | cons b bs =>
      obtain ⟨d', y, vs⟩ := b
      obtain ⟨rfl, -⟩ := List.cons.inj h
      refine ⟨c, x, ws, ws ++ d' :: rest, d', y, vs, ?_, List.mem_cons_self, by simp, fun hd => ?_⟩
      · exact (List.singleton_sublist.mpr List.mem_cons_self).cons_cons _
      · exact (List.nodup_append.mp hnodup).2.2 d' hd d' List.mem_cons_self rfl

/-- **Blocks with the same words are equal**, unless a block of one list overruns the end of the
block in the other. -/
theorem eq_or_overruns {bs bs' : List (α × α × List α)} (hbs : ∀ b ∈ bs, b.2.2.Nodup)
    (hbs' : ∀ b ∈ bs', b.2.2.Nodup) (h : flatten bs = flatten bs') :
    bs = bs' ∨ Overruns bs bs' ∨ Overruns bs' bs := by
  induction bs generalizing bs' with
  | nil =>
      cases bs' with
      | nil => exact .inl rfl
      | cons b' bs' => cases h
  | cons b bs ih =>
      cases bs' with
      | nil => cases h
      | cons b' bs' =>
          obtain ⟨c, x, ws⟩ := b
          obtain ⟨c', x', ws'⟩ := b'
          obtain ⟨hc, hrest⟩ := List.cons.inj h
          obtain ⟨hx, hwords⟩ := List.cons.inj hrest
          subst hc hx
          have hws : ws.Nodup := hbs _ List.mem_cons_self
          have hws' : ws'.Nodup := hbs' _ List.mem_cons_self
          rcases List.append_eq_append_iff.mp hwords with ⟨rest, rfl, htail⟩ | ⟨rest, rfl, htail⟩
          · by_cases hnil : rest = []
            · subst hnil
              rw [List.append_nil]
              rcases ih (fun b hb => hbs b (List.mem_cons_of_mem _ hb))
                (fun b hb => hbs' b (List.mem_cons_of_mem _ hb)) htail with rfl | hover | hover
              · exact .inl rfl
              · exact .inr (.inl (hover.cons _ _))
              · exact .inr (.inr (hover.cons _ _))
            · exact .inr (.inl (overruns_of_tail hws' hnil htail))
          · by_cases hnil : rest = []
            · subst hnil
              rw [List.append_nil]
              rcases ih (fun b hb => hbs b (List.mem_cons_of_mem _ hb))
                (fun b hb => hbs' b (List.mem_cons_of_mem _ hb)) htail.symm with rfl | hover | hover
              · exact .inl rfl
              · exact .inr (.inl (hover.cons _ _))
              · exact .inr (.inr (hover.cons _ _))
            · exact .inr (.inr (overruns_of_tail hws hnil htail))

/-- Lists of words that are written with the same length each. -/
lemma flatMap_inj_of_length {f : α → List β} {n : ℕ} (hn : 0 < n) (hlen : ∀ a, (f a).length = n)
    (hinj : Function.Injective f) : ∀ {l l' : List α}, l.flatMap f = l'.flatMap f → l = l'
  | [], [], _ => rfl
  | [], a :: l, h => by
      have h0 := congrArg List.length h
      rw [List.flatMap_cons, List.length_append, hlen, List.flatMap_nil, List.length_nil] at h0
      omega
  | a :: l, [], h => by
      have h0 := congrArg List.length h
      rw [List.flatMap_cons, List.length_append, hlen, List.flatMap_nil, List.length_nil] at h0
      omega
  | a :: l, a' :: l', h => by
      rw [List.flatMap_cons, List.flatMap_cons] at h
      obtain ⟨ha, hl⟩ := List.append_inj h ((hlen a).trans (hlen a').symm)
      rw [hinj ha, flatMap_inj_of_length hn hlen hinj hl]

end Blocks
