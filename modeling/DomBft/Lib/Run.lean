import DomBft.Lib.Fallible

/-!
Labelled transition systems and the runs whose steps meet a condition.

* `System`, `Run`: initial states and a labelled step relation; a run is recorded by the
  list of its labels, oldest first, and every step of it meets a condition `G` that may
  look at the labels so far, the state and the label.
* `Run.mono`: a stronger condition has fewer runs; `Run.reachable` forgets the condition.
* `Run.invariant`: what holds initially and is preserved by every step that meets the
  condition holds at the end of every run; the step may use that the run so far exists.
* `Run.of_foldlM`: a list of labels that can be executed is a run.
* `Later`: a second point of the same run, with `Later.invariant` for what a step cannot undo.
-/

namespace Transition

variable {σ ε : Type*}

/-- A labelled transition system: its initial states and its steps. -/
structure System (σ ε : Type*) where
  init : σ → Prop
  step : σ → ε → σ → Prop

/-- The runs of a system whose steps all meet the condition `G`, by their labels and
their last state. -/
inductive Run (S : System σ ε) (G : List ε → σ → ε → Prop) : List ε → σ → Prop
  | start {s : σ} : S.init s → Run S G [] s
  | step {es : List ε} {s s' : σ} {e : ε} :
      Run S G es s → G es s e → S.step s e s' → Run S G (es ++ [e]) s'

/-- The condition every step meets. -/
def anyStep : List ε → σ → ε → Prop := fun _ _ _ => True

/-- The later points `(es', s')` of a run that stands at `(es, s)`. -/
inductive Later (S : System σ ε) (G : List ε → σ → ε → Prop) (es : List ε) (s : σ) :
    List ε → σ → Prop
  | refl : Later S G es s es s
  | step {es' : List ε} {s' s'' : σ} {e : ε} :
      Later S G es s es' s' → G es' s' e → S.step s' e s'' → Later S G es s (es' ++ [e]) s''

variable {S : System σ ε} {G G' : List ε → σ → ε → Prop}

namespace Run

/-- The rule of invariants along runs. -/
lemma invariant {P : List ε → σ → Prop} {es : List ε} {s : σ} (h : Run S G es s)
    (hinit : ∀ s, S.init s → P [] s)
    (hstep : ∀ es s e s', Run S G es s → P es s → G es s e → S.step s e s' →
      P (es ++ [e]) s') : P es s := by
  induction h with
  | start h0 => exact hinit _ h0
  | step hr hg hs ih => exact hstep _ _ _ _ hr ih hg hs

/-- A run under a condition is a run under every weaker one. -/
lemma mono (hG : ∀ es s e, G es s e → G' es s e) {es : List ε} {s : σ} (h : Run S G es s) :
    Run S G' es s := by
  induction h with
  | start h0 => exact .start h0
  | step _ hg hs ih => exact .step ih (hG _ _ _ hg) hs

/-- A condition may also be weaker on the steps there are only. -/
lemma mono_of_step (hG : ∀ es s e s', G es s e → S.step s e s' → G' es s e) {es : List ε} {s : σ}
    (h : Run S G es s) : Run S G' es s := by
  induction h with
  | start h0 => exact .start h0
  | step _ hg hs ih => exact .step ih (hG _ _ _ _ hg hs) hs

/-- A run under a condition is a run. -/
lemma reachable {es : List ε} {s : σ} (h : Run S G es s) : Run S anyStep es s :=
  h.mono fun _ _ _ _ => trivial

/-- A list of labels, executed one after the other, is a run if every execution of one of them
is a step that meets the condition. -/
lemma of_foldlM {κ : Type*} {f : σ → ε → Except κ σ} {es es' : List ε} {s s' : σ}
    (h : Run S G es s)
    (hstep : ∀ es s e s', e ∈ es' → f s e = .ok s' → G es s e ∧ S.step s e s')
    (hf : es'.foldlM f s = .ok s') : Run S G (es ++ es') s' := by
  induction es' generalizing es s with
  | nil =>
      cases Fallible.pure_eq_ok.mp hf
      rwa [List.append_nil]
  | cons e es' ih =>
      obtain ⟨s₁, he, hf⟩ := Fallible.bind_eq_ok.mp (List.foldlM_cons.symm.trans hf)
      obtain ⟨hg, hs⟩ := hstep es s e s₁ List.mem_cons_self he
      have hrest := ih (h.step hg hs) (fun es s e s' hmem => hstep es s e s'
        (List.mem_cons_of_mem _ hmem)) hf
      rwa [List.append_assoc] at hrest

/-- A run goes on to its later points. -/
lemma later {es es' : List ε} {s s' : σ} (h : Run S G es s) (hl : Later S G es s es' s') :
    Run S G es' s' := by
  induction hl with
  | refl => exact h
  | step _ hg hs ih => exact .step ih hg hs

end Run

/-- What one step of a run cannot undo still holds at every later point. -/
lemma Later.invariant {P : σ → Prop} {es es' : List ε} {s s' : σ} (hl : Later S G es s es' s')
    (hP : P s) (hstep : ∀ s e s', P s → S.step s e s' → P s') : P s' := by
  induction hl with
  | refl => exact hP
  | step _ _ hs ih => exact hstep _ _ _ ih hs

end Transition
