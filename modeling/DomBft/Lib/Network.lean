import DomBft.Lib.Run

/-!
Networks of processes that sign what they say, some of the processes faulty.

* `Network`, `system`: each process has a state and takes local steps on events.  The network
  delivers what it likes, in whatever order; all it cannot do is make up a signature of a
  process that is not faulty (`Unforged`).  The faulty processes have no state of interest.
* `pairwise`: what the state of one process says of the state of another one, if the other one
  does not undo it and the signatures that an event carries establish it.
-/

namespace Transition

variable {ι σ ε β : Type*}

/-- Processes `ι` with states `σ` that take events `ε` and sign statements `β`. -/
structure Network (ι σ ε β : Type*) where
  init : ι → σ → Prop
  step : ι → σ → ε → σ → Prop
  /-- what a process has signed so far -/
  signed : σ → β → Prop
  /-- an event has a signature of the process under the statement -/
  carries : ε → ι → β → Prop

namespace Network

variable (N : Network ι σ ε β) (F : Finset ι)

/-- No signature of a process outside `F` is made up. -/
def Unforged (s : ι → σ) (e : ε) : Prop :=
  ∀ j ∉ F, ∀ b, N.carries e j b → N.signed (s j) b

variable [DecidableEq ι]

/-- The runs of the network with the faulty processes `F`. -/
def system : System (ι → σ) (ι × ε) where
  init s := ∀ i, N.init i (s i)
  step s x s' := x.1 ∉ F ∧ N.Unforged F s x.2 ∧
    ∃ t, N.step x.1 (s x.1) x.2 t ∧ s' = Function.update s x.1 t

variable {N F} {G : List (ι × ε) → (ι → σ) → ι × ε → Prop} {es : List (ι × ε)} {s : ι → σ}

/-- What the state of one process says of the state of another one. -/
lemma pairwise {P : ι → σ → σ → Prop} (h : Run (N.system F) G es s)
    (hinit : ∀ i j t u, j ∉ F → N.init i t → N.init j u → P j t u)
    (hmono : ∀ j t u e u', P j t u → N.step j u e u' → P j t u')
    (hstep : ∀ es s i e t, G es s (i, e) → N.Unforged F s e → N.step i (s i) e t →
      (∀ j ∉ F, P j (s i) (s j)) → ∀ j ∉ F, P j t (s j))
    (i : ι) {j : ι} (hj : j ∉ F) : P j (s i) (s j) := by
  refine h.invariant (P := fun _ s => ∀ i, ∀ j ∉ F, P j (s i) (s j))
    (fun s hs i j hj => hinit i j _ _ hj (hs i) (hs j)) ?_ i j hj
  rintro es s ⟨k, e⟩ s' - ih hG ⟨-, hunforged, t, ht, rfl⟩ i j hj
  dsimp only at hunforged ht ⊢
  -- first the process that learns, then the one that it learns of
  have hlearn : P j (Function.update s k t i) (s j) := by
    by_cases hi : i = k
    · subst hi
      rw [Function.update_self]
      exact hstep es s i e t hG hunforged ht (ih i) j hj
    · rw [Function.update_of_ne hi]
      exact ih i j hj
  by_cases hjk : j = k
  · subst hjk
    rw [Function.update_self j t s]
    exact hmono j _ _ e t hlearn ht
  · rw [Function.update_of_ne hjk]
    exact hlearn

end Network

end Transition
