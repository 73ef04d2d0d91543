import Mathlib.Data.List.TakeWhile
import DomBft.Lib.Fallible
import DomBft.Lib.OrderedMap
import DomBft.Rollback

/-!
The counter goes back through its values by position: `Counter.rollback`.

* `stoull_digits`, `stoi_signedDigits`: a number is read back as it was written.
* `numbered`: the counter after every request of a list, by position.
* `ValuesOf`: the entries of `values` are those of the uncommitted requests, and possibly
  that of the last committed one.
* `HoldsAt`: what every operation of the counter keeps.

The counter may be negative in a snapshot only where no value by position is left: these
are written as `uint64_t`, and `std::stoi` does not read them back.
-/

namespace DomBft.Counter

open Fallible OrderedMap Std

/-! ### Numbers -/

lemma toSigned_toUnsigned {v : ℤ} (h : InRange v) : toSigned (toUnsigned v) = v := by
  obtain ⟨hlo, hhi⟩ := h
  have hcast : ((v % 2 ^ 64).toNat : ℤ) = v % 2 ^ 64 :=
    Int.toNat_of_nonneg (Int.emod_nonneg _ (by decide))
  have hmod : (v % 2 ^ 64).bmod (2 ^ 32) = v.bmod (2 ^ 32) := by
    rw [Int.bmod_eq_emod, Int.bmod_eq_emod, Int.emod_emod_of_dvd v (by norm_num)]
  unfold toSigned toUnsigned
  simp only [hcast, hmod]
  exact Int.bmod_eq_of_le_mul_two (by omega) (by omega)

lemma toUnsigned_of_nonneg {v : ℤ} (h : InRange v) (hv : 0 ≤ v) : (toUnsigned v : ℤ) = v := by
  obtain ⟨hlo, hhi⟩ := h
  have hmod : v % 2 ^ 64 = v := Int.emod_eq_of_lt hv (by omega)
  unfold toUnsigned
  simp only [hmod, Int.toNat_of_nonneg hv]

/-- A digit is a byte of its own. -/
lemma digit_toNat {c : Char} (h : c.isDigit) :
    (UInt8.ofNat c.toNat).toNat = c.toNat ∧ 48 ≤ c.toNat ∧ c.toNat ≤ 57 := by
  have hc : 48 ≤ c.toNat ∧ c.toNat ≤ 57 := by
    simpa [Char.isDigit, UInt32.le_iff_toNat_le] using h
  exact ⟨by rw [UInt8.toNat_ofNat', Nat.mod_eq_of_lt (by omega)], hc⟩

/-- A number is written in digits. -/
lemma digits_mem {n : ℕ} {b : UInt8} (h : b ∈ digits n) : 48 ≤ b.toNat ∧ b.toNat ≤ 57 := by
  obtain ⟨c, hc, rfl⟩ := List.mem_map.mp h
  obtain ⟨heq, hrange⟩ := digit_toNat (Nat.isDigit_of_mem_toDigits (by norm_num) (by norm_num) hc)
  rwa [heq]

lemma digits_ne_nil (n : ℕ) : digits n ≠ [] := by
  rw [digits, Ne, List.map_eq_nil_iff]
  exact Nat.toDigits_ne_nil

/-- The number that the digits of a number spell. -/
lemma spelled_digits (n : ℕ) : spelled (digits n) = .ok n := by
  have htake : ((digits n).takeWhile fun b => 48 ≤ b && b ≤ 57) = digits n := by
    rw [List.takeWhile_eq_self_iff]
    intro b hb
    simpa [UInt8.le_iff_toNat_le] using digits_mem hb
  have hfold : (digits n).foldl (fun (n : ℕ) (b : UInt8) => 10 * n + (b.toNat - 48)) 0 = n := by
    conv_rhs => rw [← Nat.ofDigitChars_ten_toDigits (n := n)]
    rw [digits, List.foldl_map, Nat.ofDigitChars_eq_foldl]
    refine List.foldl_ext _ _ _ fun k c hc => ?_
    rw [(digit_toNat (Nat.isDigit_of_mem_toDigits (by norm_num) (by norm_num) hc)).1]
    rfl
  rw [spelled, htake]
  cases hd : digits n with
  | nil => exact absurd hd (digits_ne_nil n)
  | cons b bs =>
      rw [hd] at hfold
      exact congrArg Except.ok hfold

/-- Digits are read without a sign. -/
lemma scanned_digits (n : ℕ) : scanned (digits n) = .ok (false, n) := by
  cases hd : digits n with
  | nil => exact absurd hd (digits_ne_nil n)
  | cons b bs =>
      have hb : 48 ≤ b.toNat ∧ b.toNat ≤ 57 := digits_mem (hd ▸ List.mem_cons_self)
      have hspace : (decide (b = 32) || (decide (9 ≤ b) && decide (b ≤ 13))) = false := by
        simp only [Bool.or_eq_false_iff, Bool.and_eq_false_iff, decide_eq_false_iff_not,
          UInt8.le_iff_toNat_le, ← UInt8.toNat_inj, UInt8.reduceToNat]
        omega
      rw [scanned, List.dropWhile_cons_of_neg (by rw [hspace]; decide)]
      split
      · rename_i heq
        cases heq
        exact absurd hb.1 (by decide)
      · rename_i heq
        cases heq
        exact absurd hb.1 (by decide)
      · rw [← hd, spelled_digits]
        rfl

lemma stoull_digits {n m : ℕ} (h : stoull (digits n) = .ok m) : m = n := by
  rw [stoull, scanned_digits, ok_bind] at h
  dsimp only at h
  split at h
  · cases h
  · exact (pure_eq_ok.mp h).symm

/-- A nonnegative number is read as an `int`, if it fits. -/
lemma stoi_digits {n : ℕ} (h : InRange n) : stoi (digits n) = .ok n := by
  rw [stoi, scanned_digits, ok_bind]
  exact if_pos h

/-- Digits are read as the number they spell. -/
lemma stoi_digits_ok {n : ℕ} {v : ℤ} (h : stoi (digits n) = .ok v) : (n : ℤ) = v := by
  rw [stoi, scanned_digits, ok_bind] at h
  by_cases hrange : InRange (n : ℤ)
  · exact Except.ok.inj ((if_pos hrange).symm.trans h)
  · cases (if_neg hrange).symm.trans h

/-- Every `int` is read back. -/
lemma stoi_signedDigits {v : ℤ} (h : InRange v) : stoi (signedDigits v) = .ok v := by
  cases v with
  | ofNat n => exact stoi_digits h
  | negSucc n =>
      have hscan : scanned (signedDigits (.negSucc n)) = .ok (true, n + 1) := by
        show (true, ·) <$> spelled (digits (n + 1)) = _
        rw [spelled_digits]
        rfl
      rw [stoi, hscan, ok_bind]
      exact if_pos h

lemma stoull_digits_eq {n : ℕ} (h : n < 2 ^ 64) : stoull (digits n) = .ok n := by
  rw [stoull, scanned_digits, ok_bind]
  dsimp only
  rw [if_neg (Nat.not_le.mpr h)]
  rfl

/-- A snapshot is a position and a value. -/
lemma applySnapshot_text (n idx : ℕ) (text : Bytes) :
    applySnapshot (digits n ++ 44 :: text) idx = (do
      let committedIdx ← stoull (digits n)
      let committedValue ← stoi text
      if committedIdx % 2 ^ 32 ≠ idx then .error .assertion
      else return { counter := committedValue, committedValue, committedIdx := idx }) := by
  have hdigits : ∀ b ∈ digits n, (b != 44) = true := by
    intro b hb
    have hlo := (digits_mem hb).1
    rw [bne_iff_ne]
    rintro rfl
    exact absurd hlo (by decide)
  have hmem : (44 : UInt8) ∈ digits n ++ 44 :: text := by simp
  have htake : (digits n ++ 44 :: text).takeWhile (· != 44) = digits n := by
    rw [List.takeWhile_append_of_pos hdigits, List.takeWhile_cons_of_neg (by decide),
      List.append_nil]
  have hdrop : (digits n ++ 44 :: text).dropWhile (· != 44) = 44 :: text := by
    rw [List.dropWhile_append_of_pos hdigits, List.dropWhile_cons_of_neg (by decide)]
  rw [applySnapshot, if_pos hmem, htake, hdrop, List.tail_cons]

/-! ### The values by position -/

attribute [local irreducible] toSigned toUnsigned

variable [CounterCodec]

/-- What a request does to the counter. -/
def effect (v : ℤ) (d : Bytes) : ℤ :=
  match CounterCodec.parseRequest d with
  | none => v
  | some op => op.apply v

/-- The counter after every request of a list, from position `p + 1` on. -/
def numbered (p : ℕ) (v : ℤ) : List Bytes → List (ℕ × ℕ)
  | [] => []
  | d :: ds => (p + 1, toUnsigned (effect v d)) :: numbered (p + 1) (effect v d) ds

lemma numbered_append (p : ℕ) (v : ℤ) (ds ds' : List Bytes) :
    numbered p v (ds ++ ds') =
      numbered p v ds ++ numbered (p + ds.length) (ds.foldl effect v) ds' := by
  induction ds generalizing p v with
  | nil => rfl
  | cons d ds ih =>
      rw [List.cons_append, numbered, ih, numbered, List.cons_append, List.foldl_cons,
        List.length_cons, show p + 1 + ds.length = p + (ds.length + 1) by omega]

/-- The positions of the values. -/
lemma numbered_mem {p : ℕ} {v : ℤ} {ds : List Bytes} {e : ℕ × ℕ} (h : e ∈ numbered p v ds) :
    p < e.1 ∧ e.1 ≤ p + ds.length := by
  induction ds generalizing p v with
  | nil => cases h
  | cons d ds ih =>
      rw [List.length_cons]
      rcases List.mem_cons.mp h with rfl | h
      · exact ⟨Nat.lt_succ_self p, by show p + 1 ≤ _; omega⟩
      · have := ih h
        omega

/-- The values are ordered by position. -/
lemma numbered_sorted (p : ℕ) (v : ℤ) (ds : List Bytes) :
    (numbered p v ds).Pairwise fun a b => compare a.1 b.1 = .lt := by
  induction ds generalizing p v with
  | nil => exact .nil
  | cons d ds ih =>
      refine .cons (fun e he => ?_) (ih _ _)
      exact Nat.compare_eq_lt.mpr (numbered_mem he).1

/-- The last value is the counter. -/
lemma getLast?_numbered (p : ℕ) (v : ℤ) {ds : List Bytes} (h : ds ≠ []) :
    (numbered p v ds).getLast? = some (p + ds.length, toUnsigned (ds.foldl effect v)) := by
  induction ds generalizing p v with
  | nil => exact absurd rfl h
  | cons d ds ih =>
      rw [numbered, List.getLast?_cons, List.foldl_cons, List.length_cons]
      by_cases hds : ds = []
      · subst hds
        rfl
      · rw [ih _ _ hds, show p + 1 + ds.length = p + (ds.length + 1) by omega]
        rfl

/-- The counter after some requests. -/
abbrev valueOf (ds : List Bytes) : ℤ := ds.foldl effect 0

lemma valueOf_concat (ds : List Bytes) (d : Bytes) :
    valueOf (ds ++ [d]) = effect (valueOf ds) d := by
  rw [valueOf, List.foldl_append]
  rfl

/-- The entries of `values` after the requests `ds`, of which `c` are committed. -/
def ValuesOf (c : ℕ) (ds : List Bytes) (l : List (ℕ × ℕ)) : Prop :=
  l = numbered c (valueOf (ds.take c)) (ds.drop c) ∨
    l = (c, toUnsigned (valueOf (ds.take c))) :: numbered c (valueOf (ds.take c)) (ds.drop c)

omit [CounterCodec] in
lemma take_take_of_le {c p : ℕ} (ds : List Bytes) (h : c ≤ p) :
    (ds.take p).take c = ds.take c := by
  rw [List.take_take, Nat.min_eq_left h]

/-- The values are cut behind a position. -/
lemma numbered_cut {c p : ℕ} (ds : List Bytes) (hc : c ≤ p) (hp : p ≤ ds.length) :
    numbered c (valueOf (ds.take c)) (ds.drop c) =
      numbered c (valueOf (ds.take c)) ((ds.take p).drop c) ++
        numbered p (valueOf (ds.take p)) (ds.drop p) := by
  have hdrop : ds.drop c = (ds.take p).drop c ++ ds.drop p := by
    rw [← List.drop_append_of_le_length (by rw [List.length_take]; omega),
      List.take_append_drop]
  have hlen : c + ((ds.take p).drop c).length = p := by
    rw [List.length_drop, List.length_take]
    omega
  have hvalue : ((ds.take p).drop c).foldl effect (valueOf (ds.take c)) = valueOf (ds.take p) := by
    rw [← List.foldl_append, ← take_take_of_le ds hc, List.take_append_drop]
  rw [hdrop, numbered_append, hlen, hvalue]

namespace ValuesOf

variable {c : ℕ} {ds : List Bytes} {l : List (ℕ × ℕ)}

lemma sorted (h : ValuesOf c ds l) : l.Pairwise fun a b => compare a.1 b.1 = .lt := by
  rcases h with rfl | rfl
  · exact numbered_sorted _ _ _
  · exact .cons (fun e he => Nat.compare_eq_lt.mpr (numbered_mem he).1) (numbered_sorted _ _ _)

lemma mem_le (h : ValuesOf c ds l) (hc : c ≤ ds.length) {e : ℕ × ℕ} (he : e ∈ l) :
    e.1 ≤ ds.length := by
  have hnumbered : ∀ e ∈ numbered c (valueOf (ds.take c)) (ds.drop c), e.1 ≤ ds.length := by
    intro e he
    have hle := (numbered_mem he).2
    rw [List.length_drop] at hle
    omega
  rcases h with rfl | rfl
  · exact hnumbered e he
  · rcases List.mem_cons.mp he with rfl | he
    · exact hc
    · exact hnumbered e he

/-- The last value is the counter; where there is none, everything is committed. -/
lemma getLast? (h : ValuesOf c ds l) (hc : c ≤ ds.length) :
    l.getLast? = none ∧ c = ds.length ∨
      l.getLast? = some (ds.length, toUnsigned (valueOf ds)) := by
  by_cases hall : c = ds.length
  · have hdrop : ds.drop c = [] := List.drop_eq_nil_of_le hall.ge
    have htake : ds.take c = ds := List.take_of_length_le hall.ge
    rw [ValuesOf, hdrop, htake, numbered] at h
    rcases h with rfl | rfl
    · exact .inl ⟨rfl, hall⟩
    · exact .inr (by rw [List.getLast?_singleton, hall])
  · have hdrop : ds.drop c ≠ [] := by
      rw [Ne, List.drop_eq_nil_iff]
      omega
    have hlast := getLast?_numbered c (valueOf (ds.take c)) hdrop
    rw [← List.foldl_append, List.take_append_drop, List.length_drop,
      Nat.add_sub_cancel' hc] at hlast
    refine .inr ?_
    rcases h with rfl | rfl
    · exact hlast
    · rw [List.getLast?_cons, hlast]
      rfl

/-- One more request adds a value at the end. -/
lemma concat (h : ValuesOf c ds l) (hc : c ≤ ds.length) (d : Bytes) :
    ValuesOf c (ds ++ [d]) (l ++ [(ds.length + 1, toUnsigned (valueOf (ds ++ [d])))]) := by
  have htake : (ds ++ [d]).take c = ds.take c := List.take_append_of_le_length hc
  have hnumbered : numbered c (valueOf (ds.take c)) ((ds ++ [d]).drop c) =
      numbered c (valueOf (ds.take c)) (ds.drop c) ++
        [(ds.length + 1, toUnsigned (valueOf (ds ++ [d])))] := by
    rw [List.drop_append_of_le_length hc, numbered_append, List.length_drop,
      Nat.add_sub_cancel' hc, ← List.foldl_append, List.take_append_drop, valueOf_concat]
    rfl
  rw [ValuesOf, htake, hnumbered]
  rcases h with rfl | rfl
  · exact .inl rfl
  · exact .inr rfl

/-- Below a position are the values of the requests below it, from there on those of the
others. -/
lemma cut (h : ValuesOf c ds l) {p : ℕ} (hc : c < p) (hp : p ≤ ds.length) :
    ValuesOf c (ds.take (p - 1)) (l.takeWhile (·.1 < p)) ∧
      l.dropWhile (·.1 < p) = (p, toUnsigned (valueOf (ds.take p))) ::
        numbered p (valueOf (ds.take p)) (ds.drop p) := by
  obtain ⟨q, rfl⟩ : ∃ q, p = q + 1 := ⟨p - 1, by omega⟩
  rw [Nat.add_sub_cancel]
  have hsplit := numbered_cut ds (Nat.le_of_lt_succ hc) (by omega : q ≤ ds.length)
  obtain ⟨l₁, hl₁, rfl⟩ : ∃ l₁, ValuesOf c (ds.take q) l₁ ∧
      l = l₁ ++ numbered q (valueOf (ds.take q)) (ds.drop q) := by
    rw [ValuesOf] at h
    rw [hsplit] at h
    simp only [ValuesOf, take_take_of_le ds (Nat.le_of_lt_succ hc)]
    rcases h with rfl | rfl
    · exact ⟨_, .inl rfl, rfl⟩
    · exact ⟨_, .inr rfl, rfl⟩
  have hbelow : ∀ e ∈ l₁, decide (e.1 < q + 1) = true := by
    intro e he
    have hle := hl₁.mem_le (by rw [List.length_take]; omega) he
    rw [List.length_take] at hle
    exact decide_eq_true (by omega)
  have habove : ∀ e ∈ numbered q (valueOf (ds.take q)) (ds.drop q),
      ¬decide (e.1 < q + 1) = true := by
    intro e he
    rw [decide_eq_true_eq, Nat.not_lt]
    exact (numbered_mem he).1
  rw [takeWhile_cut hbelow habove, dropWhile_cut hbelow habove]
  refine ⟨hl₁, ?_⟩
  rw [List.drop_eq_getElem_cons (by omega : q < ds.length), numbered,
    List.take_succ_eq_append_getElem (by omega), valueOf_concat]

end ValuesOf

/-! ### The operations -/

/-- What `execute` does where it returns. -/
lemma execute_effect {a a' : Counter} {d res : Bytes} {idx : ℕ}
    (h : a.execute d idx = .ok (a', res)) :
    InRange (effect a.counter d) ∧
      a' = { a with
        counter := effect a.counter d
        values := a.values.insert idx (toUnsigned (effect a.counter d)) } := by
  rw [execute] at h
  rw [effect]
  split at h
  · cases h
  · cases h
  · rename_i op hop hparse
    dsimp only at h
    rw [hparse]
    split_ifs at h with hrange
    cases Except.ok.inj h
    exact ⟨hrange, rfl⟩

/-- A counter at which the requests `ds` have been executed and the first `c` committed. -/
structure HoldsAt (a : Counter) (c : ℕ) (ds : List Bytes) : Prop where
  committed_le : c ≤ ds.length
  inRange : ∀ k, InRange (valueOf (ds.take k))
  committedIdx : a.committedIdx = c
  committedValue : a.committedValue = valueOf (ds.take c)
  counter : a.counter = valueOf ds
  values : ValuesOf c ds a.values.toList

namespace HoldsAt

variable {a a' b b' : Counter} {c : ℕ} {ds : List Bytes}

lemma execute {d res : Bytes} (h : HoldsAt a c ds)
    (hexec : a.execute d (ds.length + 1) = .ok (a', res)) : HoldsAt a' c (ds ++ [d]) := by
  have hc := h.committed_le
  have htake : (ds ++ [d]).take c = ds.take c := List.take_append_of_le_length hc
  obtain ⟨hrange, rfl⟩ := execute_effect hexec
  have hvalue : effect a.counter d = valueOf (ds ++ [d]) := by
    rw [h.counter, valueOf_concat]
  refine ⟨by rw [List.length_append]; omega, fun k => ?_, h.committedIdx, ?_, hvalue, ?_⟩
  · by_cases hk : k ≤ ds.length
    · rw [List.take_append_of_le_length hk]
      exact h.inRange k
    · rw [List.take_of_length_le (by rw [List.length_append]; exact Nat.lt_of_not_le hk),
        ← hvalue]
      exact hrange
  · rw [htake]
    exact h.committedValue
  · have hlast : ∀ e ∈ a.values.toList, compare e.1 (ds.length + 1) = .lt := fun e he =>
      Nat.compare_eq_lt.mpr (Nat.lt_succ_of_le (h.values.mem_le hc he))
    show ValuesOf c (ds ++ [d])
      (a.values.insert (ds.length + 1) (toUnsigned (effect a.counter d))).toList
    rw [toList_insert_last hlast, hvalue]
    exact h.values.concat hc d

lemma commit {i : ℕ} (h : HoldsAt a c ds) (hc : c < i) (hi : i ≤ ds.length) :
    ∃ a', a.commit i = .ok a' ∧ HoldsAt a' i ds := by
  have hdrop := (h.values.cut hc hi).2
  have hvalues : ValuesOf i ds ((i, toUnsigned (valueOf (ds.take i))) ::
      numbered i (valueOf (ds.take i)) (ds.drop i)) := .inr rfl
  have hcommit : a.commit i = .ok { a with
      committedIdx := i
      committedValue := toSigned (toUnsigned (valueOf (ds.take i)))
      values := ExtTreeMap.ofList ((i, toUnsigned (valueOf (ds.take i))) ::
        numbered i (valueOf (ds.take i)) (ds.drop i)) compare } := by
    rw [Counter.commit, hdrop]
  refine ⟨_, hcommit, hi, h.inRange, rfl, ?_, h.counter, ?_⟩
  · show toSigned (toUnsigned (valueOf (ds.take i))) = _
    rw [toSigned_toUnsigned (h.inRange i)]
  · rw [toList_ofList hvalues.sorted]
    exact hvalues

lemma abort {p : ℕ} (h : HoldsAt a c ds) (hc : c < p) (hp : p ≤ ds.length) :
    HoldsAt (a.abort p) c (ds.take (p - 1)) := by
  have hkept := (h.values.cut hc hp).1
  have hlen : c ≤ (ds.take (p - 1)).length := by
    rw [List.length_take]
    omega
  have hrange : ∀ k, InRange (valueOf ((ds.take (p - 1)).take k)) := fun k => by
    rw [List.take_take]
    exact h.inRange _
  have hcommitted : a.committedValue = valueOf ((ds.take (p - 1)).take c) := by
    rw [take_take_of_le ds (by omega)]
    exact h.committedValue
  refine ⟨hlen, hrange, h.committedIdx, hcommitted, ?_, ?_⟩
  · rw [Counter.abort]
    rcases hkept.getLast? hlen with ⟨hnone, hall⟩ | hlast
    · rw [hnone]
      exact hcommitted.trans (by rw [hall, List.take_length])
    · rw [hlast]
      have hself := hrange (ds.take (p - 1)).length
      rw [List.take_length] at hself
      show toSigned (toUnsigned (valueOf (ds.take (p - 1)))) = _
      rw [toSigned_toUnsigned hself]
  · show ValuesOf c (ds.take (p - 1)) (ExtTreeMap.ofList _ compare).toList
    rw [toList_ofList hkept.sorted]
    exact hkept

/-- A snapshot holds the position and the counter. -/
lemma takeSnapshot (h : HoldsAt a c ds) (hcan : a.values = ∅ ∨ 0 ≤ a.counter) :
    ∃ text, a.takeSnapshot.snapshot = digits ds.length ++ 44 :: text ∧
      stoi text = .ok (valueOf ds) := by
  have hrange := h.inRange ds.length
  rw [List.take_length] at hrange
  rcases h.values.getLast? h.committed_le with ⟨hnone, hall⟩ | hlast
  · refine ⟨signedDigits a.committedValue, ?_, ?_⟩
    · rw [Counter.takeSnapshot, hnone, h.committedIdx, hall]
    · rw [h.committedValue, hall, List.take_length, stoi_signedDigits hrange]
  · refine ⟨digits (toUnsigned (valueOf ds)), ?_, ?_⟩
    · rw [Counter.takeSnapshot, hlast]
    · rcases hcan with hempty | hnonneg
      · rw [hempty] at hlast
        cases hlast
      · rw [h.counter] at hnonneg
        have hcast := toUnsigned_of_nonneg hrange hnonneg
        rw [stoi_digits (by rwa [hcast]), hcast]

lemma applySnapshot (h : HoldsAt a c ds) (hcan : a.values = ∅ ∨ 0 ≤ a.counter)
    (happly : Counter.applySnapshot a.takeSnapshot.snapshot ds.length = .ok b') :
    HoldsAt b' ds.length ds := by
  obtain ⟨text, hsnapshot, htext⟩ := h.takeSnapshot hcan
  rw [hsnapshot, applySnapshot_text] at happly
  obtain ⟨i, hi, happly⟩ := bind_eq_ok.mp happly
  obtain ⟨v, hv, happly⟩ := bind_eq_ok.mp happly
  obtain rfl := stoull_digits hi
  obtain rfl := Except.ok.inj (htext.symm.trans hv)
  split at happly
  · cases happly
  · cases pure_eq_ok.mp happly
    have hself : ds.take ds.length = ds := List.take_length
    refine ⟨le_rfl, h.inRange, rfl, by rw [hself], rfl, .inl ?_⟩
    rw [List.drop_length]
    rfl

end HoldsAt

/-- **The counter goes back** to every position above the committed one. -/
def rollback : Rollback Counter where
  State := ℤ
  state a := a.counter
  start := 0
  effect := effect
  Initial a := a = {}
  CanAbort _ := True
  CanSnapshot a := a.values = ∅ ∨ 0 ≤ a.counter
  CanReplace _ := True
  Holds := HoldsAt
  holds_initial := by
    rintro _ rfl
    refine ⟨le_rfl, fun k => ?_, rfl, rfl, rfl, .inl rfl⟩
    rw [List.take_nil]
    exact (by decide : InRange 0)
  committed_le h := h.committed_le
  state_eq h := h.counter
  execute h := h.execute
  commit h := h.commit
  abort h hc hp _ := ⟨_, rfl, h.abort hc hp⟩
  applySnapshot h hcan _ happly := by
    obtain ⟨b', hb', happly⟩ := bind_eq_ok.mp happly
    cases pure_eq_ok.mp happly
    exact h.applySnapshot hcan hb'

end DomBft.Counter
