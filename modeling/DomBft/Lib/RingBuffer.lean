import Mathlib.Tactic

/-!
Ring buffers: an array that is never empty, and the place where the next value goes.

* `push` overwrites the oldest value and moves on, around the end of the array.
* `window` are the values with the oldest one first; `window_push` says what `push` does to them,
  and `window_pushAll` what a list of values leaves: the last ones of all that there were.
-/

/-- A ring buffer. -/
structure RingBuffer (α : Type*) where
  cells : List α
  next : ℕ
  next_lt : next < cells.length

namespace RingBuffer

variable {α : Type*}

/-- The ring whose cells all hold one value. -/
def replicate (n : ℕ) (a : α) (hn : 0 < n) : RingBuffer α where
  cells := List.replicate n a
  next := 0
  next_lt := by rwa [List.length_replicate]

/-- The next value in place of the oldest one. -/
def push (r : RingBuffer α) (a : α) : RingBuffer α where
  cells := r.cells.set r.next a
  next := (r.next + 1) % r.cells.length
  next_lt := by
    rw [List.length_set]
    exact Nat.mod_lt _ (Nat.zero_lt_of_lt r.next_lt)

/-- A list of values, one after the other. -/
def pushAll (r : RingBuffer α) (l : List α) : RingBuffer α := l.foldl push r

/-- The values, the oldest one first. -/
def window (r : RingBuffer α) : List α := r.cells.drop r.next ++ r.cells.take r.next

lemma next_push (r : RingBuffer α) (a : α) :
    (r.push a).next = (r.next + 1) % r.cells.length := rfl

lemma cells_push (r : RingBuffer α) (a : α) : (r.push a).cells = r.cells.set r.next a := rfl

@[simp] lemma length_push (r : RingBuffer α) (a : α) : (r.push a).cells.length = r.cells.length :=
  List.length_set

@[simp] lemma pushAll_nil (r : RingBuffer α) : r.pushAll [] = r := rfl

@[simp] lemma pushAll_cons (r : RingBuffer α) (a : α) (l : List α) :
    r.pushAll (a :: l) = (r.push a).pushAll l := rfl

lemma pushAll_concat (r : RingBuffer α) (l : List α) (a : α) :
    r.pushAll (l ++ [a]) = (r.pushAll l).push a := by
  rw [pushAll, List.foldl_append]
  rfl

@[simp] lemma length_pushAll (r : RingBuffer α) (l : List α) :
    (r.pushAll l).cells.length = r.cells.length := by
  induction l generalizing r with
  | nil => rfl
  | cons a l ih => rw [pushAll_cons, ih, length_push]

lemma window_replicate {n : ℕ} (a : α) (hn : 0 < n) :
    (replicate n a hn).window = List.replicate n a := by
  simp [window, replicate]

/-- The cells hold the values of the window, in another order. -/
lemma cells_perm_window (r : RingBuffer α) : r.cells.Perm r.window := by
  have hsplit := (List.take_append_drop r.next r.cells).symm
  exact (List.Perm.of_eq hsplit).trans List.perm_append_comm

@[simp] lemma length_window (r : RingBuffer α) : r.window.length = r.cells.length :=
  r.cells_perm_window.length_eq.symm

/-- The oldest value leaves the window, the new one enters it. -/
lemma window_push (r : RingBuffer α) (a : α) : (r.push a).window = r.window.tail ++ [a] := by
  have hlt := r.next_lt
  have hdrop : r.cells.drop r.next ≠ [] := by simpa using hlt
  have htail : r.window.tail = r.cells.drop (r.next + 1) ++ r.cells.take r.next := by
    rw [window, List.tail_append_of_ne_nil hdrop, List.tail_drop]
  by_cases hend : r.next + 1 = r.cells.length
  · -- the last cell is overwritten, and the next place is the first one
    have hdone : r.cells.drop (r.next + 1) = [] := by rw [hend, List.drop_length]
    rw [htail, hdone, List.nil_append, window, push]
    dsimp only
    rw [hend, Nat.mod_self, List.drop_zero, List.take_zero, List.append_nil,
      List.set_eq_take_append_cons_drop, if_pos hlt, hdone]
  · have hmod : (r.next + 1) % r.cells.length = r.next + 1 := Nat.mod_eq_of_lt (by omega)
    rw [htail, window, push]
    dsimp only
    rw [hmod, List.drop_set_of_lt (by omega), List.append_assoc, List.take_set,
      List.take_succ_eq_append_getElem hlt, List.set_append_right _ _ (by simp)]
    simp [hlt.le]

/-- **What a list of values leaves**: as many of the last values as there are cells. -/
theorem window_pushAll (r : RingBuffer α) (l : List α) :
    (r.pushAll l).window = (r.window ++ l).drop l.length := by
  induction l generalizing r with
  | nil => simp
  | cons a l ih =>
      have hpos : 0 < r.window.length := by
        rw [length_window]
        exact Nat.zero_lt_of_lt r.next_lt
      obtain ⟨b, w, hw⟩ := List.exists_cons_of_length_pos hpos
      rw [pushAll_cons, ih, window_push, hw, List.tail_cons, List.append_assoc,
        List.singleton_append, List.length_cons, List.cons_append, List.drop_succ_cons]

end RingBuffer
