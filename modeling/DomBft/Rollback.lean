import DomBft.Application

/-!
What the log needs of an application: it can go back to every position above the committed
one.

* `Rollback`: an abstract state, the effect of a request on it, and the relation `Holds`
  between an application, its committed position and the requests executed so far, which
  every operation of the application keeps.
* `Rollback.replay`: the state after a list of requests.
* `executeAll`: a list of requests executed one after the other.

An application may refuse to do so in some states; these are the complements of `CanAbort`,
`CanSnapshot` and `CanReplace`.
-/

namespace DomBft

/-- An application whose operations follow the list of the requests executed so far. -/
structure Rollback (A : Type) [Application A] where
  State : Type
  state : A → State
  start : State
  /-- what a request does -/
  effect : State → Bytes → State
  /-- the application as it is constructed -/
  Initial : A → Prop
  /-- where `abort` may be called -/
  CanAbort : A → Prop
  /-- where a snapshot may be taken -/
  CanSnapshot : A → Prop
  /-- where a snapshot may be applied -/
  CanReplace : A → Prop
  /-- the requests at the positions from `1` on have been executed and those up to the given
  position have been committed -/
  Holds : A → ℕ → List Bytes → Prop
  holds_initial {a : A} : Initial a → Holds a 0 []
  committed_le {a : A} {c : ℕ} {ds : List Bytes} : Holds a c ds → c ≤ ds.length
  state_eq {a : A} {c : ℕ} {ds : List Bytes} : Holds a c ds → state a = ds.foldl effect start
  execute {a a' : A} {c : ℕ} {ds : List Bytes} {d res : Bytes} : Holds a c ds →
    Application.execute a d (ds.length + 1) = .ok (a', res) → Holds a' c (ds ++ [d])
  commit {a : A} {c i : ℕ} {ds : List Bytes} : Holds a c ds → c < i → i ≤ ds.length →
    ∃ a', Application.commit a i = .ok a' ∧ Holds a' i ds
  abort {a : A} {c p : ℕ} {ds : List Bytes} : Holds a c ds → c < p → p ≤ ds.length →
    CanAbort a → ∃ a', Application.abort a p = .ok a' ∧ Holds a' c (ds.take (p - 1))
  applySnapshot {a b b' : A} {c : ℕ} {ds : List Bytes} {digest : Bytes} : Holds a c ds →
    CanSnapshot a → CanReplace b →
    Application.applySnapshot b (Application.takeSnapshot a).snapshot digest ds.length =
      .ok (some b') → Holds b' ds.length ds

namespace Rollback

variable {A : Type} [Application A] (R : Rollback A)

/-- The state after some requests. -/
def replay (ds : List Bytes) : R.State := ds.foldl R.effect R.start

end Rollback

/-- An application executes requests at the positions from `p + 1` on. -/
def executeAll {A : Type} [Application A] (a : A) (p : ℕ) : List Bytes → Except Fault A
  | [] => .ok a
  | d :: ds => do
    let (a, _) ← Application.execute a d (p + 1)
    executeAll a (p + 1) ds

end DomBft
