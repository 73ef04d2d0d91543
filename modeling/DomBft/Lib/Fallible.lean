import Mathlib.Tactic

/-!
Computations that can fail, as `Except ε`: what it means that one of them returns a value.

`bind_eq_ok` and `mapM_eq_ok` take a successful computation apart; the small lemmas before
them say which of the basic computations succeed.  `foldlM_rel` is the rule for loops: what a
preorder relates at every step it relates from start to end.  `decidableOk` runs a computation.
-/

universe u

namespace Fallible

variable {ε γ : Type*} {α β : Type u}

@[simp] lemma ok_bind (a : α) (f : α → Except ε β) : (Except.ok a >>= f) = f a := rfl

@[simp] lemma error_bind (e : ε) (f : α → Except ε β) : (Except.error e >>= f) = .error e := rfl

@[simp] lemma pure_eq_ok {a b : α} : (pure a : Except ε α) = .ok b ↔ a = b := by
  simp [pure, Except.pure]

@[simp] lemma throw_ne_ok {e : ε} {b : α} : (throw e : Except ε α) ≠ .ok b := by
  simp [throw, throwThe, MonadExceptOf.throw]

/-- A sequence of two computations succeeds exactly if both do. -/
lemma bind_eq_ok {x : Except ε α} {f : α → Except ε β} {b : β} :
    (x >>= f) = .ok b ↔ ∃ a, x = .ok a ∧ f a = .ok b := by
  cases x with
  | error e => simp
  | ok a => simp

/-- A sequence of two computations fails exactly if one of them does. -/
lemma bind_eq_error {x : Except ε α} {f : α → Except ε β} {e : ε} :
    (x >>= f) = .error e ↔ x = .error e ∨ ∃ a, x = .ok a ∧ f a = .error e := by
  cases x with
  | error e' => simp
  | ok a => simp

lemma map_eq_ok {f : α → β} {x : Except ε α} {b : β} :
    f <$> x = .ok b ↔ ∃ a, x = .ok a ∧ f a = b := by
  cases x with
  | error e => simp [Functor.map, Except.map]
  | ok a => simp [Functor.map, Except.map]

/-- Computations run over a list succeed exactly if each of them does. -/
lemma mapM_eq_ok {f : α → Except ε β} {l : List α} {l' : List β} :
    l.mapM f = .ok l' ↔ List.Forall₂ (fun a b => f a = .ok b) l l' := by
  induction l generalizing l' with
  | nil => rw [List.mapM_nil, pure_eq_ok, List.forall₂_nil_left_iff, eq_comm]
  | cons a l ih =>
      rw [List.mapM_cons, bind_eq_ok]
      constructor
      · rintro ⟨b, hb, h⟩
        obtain ⟨bs, hbs, h⟩ := bind_eq_ok.mp h
        cases pure_eq_ok.mp h
        exact .cons hb (ih.mp hbs)
      · intro h
        cases h with
        | cons hb hbs => exact ⟨_, hb, bind_eq_ok.mpr ⟨_, ih.mpr hbs, rfl⟩⟩

/-- A loop whose every step relates the old value to the new one relates the first value to the
last one. -/
lemma foldlM_rel {P : β → β → Prop} (hrefl : ∀ b, P b b) (htrans : ∀ a b c, P a b → P b c → P a c)
    {f : β → γ → Except ε β} {l : List γ}
    (hf : ∀ b c b', c ∈ l → f b c = .ok b' → P b b') {b b' : β} (h : l.foldlM f b = .ok b') :
    P b b' := by
  induction l generalizing b with
  | nil =>
      rw [List.foldlM_nil, pure_eq_ok] at h
      subst h
      exact hrefl b
  | cons c l ih =>
      rw [List.foldlM_cons, bind_eq_ok] at h
      obtain ⟨b₁, h₁, h⟩ := h
      exact htrans _ _ _ (hf b c b₁ List.mem_cons_self h₁)
        (ih (fun b c b' hc => hf b c b' (List.mem_cons_of_mem _ hc)) h)

/-- Whether a computation returns a value with a property can be decided by running it. -/
instance decidableOk {x : Except ε γ} {P : γ → Prop} [DecidablePred P] :
    Decidable (∃ c, x = .ok c ∧ P c) :=
  match x with
  | .ok c => decidable_of_iff (P c) (by simp)
  | .error _ => .isFalse (by simp)

end Fallible
