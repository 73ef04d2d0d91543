import DomBft.Basic
import DomBft.Lib.Fallible
import DomBft.Lib.RingBuffer

/-!
`owd_calc.h`: the bound on the one-way delays to the receivers that a proxy computes.

* `BaseCalcCtx`: a window of measures for each receiver, `addMeasure` and `getCappedMaxOWD`;
  `PercentileCtx` takes the percentile of each window.
* `lastMeasures`, `percentileOf`: what a window holds and what is taken of it, in the measures
  that there were.
* `add_measures_eq`: the windows are ring buffers; `capped_max_percentile`: **the bound is the
  largest percentile of the last measures**, up to the cap.
-/

namespace DomBft

open Fallible

/-! ### The context -/

/-- `class BaseCalcCtx` -/
structure BaseCalcCtx where
  numReceivers : UInt32
  cap : UInt32
  windowSize : UInt32
  windowIndex : List UInt32
  recvrMeasures : List (List UInt32)
deriving DecidableEq, Repr

namespace BaseCalcCtx

/-- `BaseCalcCtx::BaseCalcCtx` -/
def create (numReceivers cap windowSize initialMeasure : UInt32) : BaseCalcCtx where
  numReceivers
  cap
  windowSize
  windowIndex := List.replicate numReceivers.toNat 0
  recvrMeasures := List.replicate numReceivers.toNat
    (List.replicate windowSize.toNat initialMeasure)

/-- `BaseCalcCtx::getCappedMaxOWD`, for a method `getRcvrOWD`. -/
def getCappedMaxOWD (getRcvrOWD : List UInt32 → Except Fault UInt32) (ctx : BaseCalcCtx) :
    Except Fault UInt32 :=
  ctx.recvrMeasures.foldlM (fun maxOWD measures => do
    let owd ← getRcvrOWD measures
    return min ctx.cap (max maxOWD owd)) 0

end BaseCalcCtx

/-- `class PercentileCtx` -/
structure PercentileCtx extends BaseCalcCtx where
  percentile : UInt32
deriving DecidableEq, Repr

namespace PercentileCtx

/-- `PercentileCtx::PercentileCtx` -/
def create (numReceivers cap windowSize percentile initialMeasure : UInt32) : PercentileCtx where
  toBaseCalcCtx := .create numReceivers cap windowSize initialMeasure
  percentile

/-- `PercentileCtx::addMeasure`.  A remainder by zero and a place outside a vector are
undefined. -/
def addMeasure (ctx : PercentileCtx) (rcvrIndex measure : UInt32) : Except Fault PercentileCtx :=
  match ctx.recvrMeasures[rcvrIndex.toNat]?, ctx.windowIndex[rcvrIndex.toNat]? with
  | some measures, some i =>
    if i.toNat < measures.length ∧ ctx.windowSize ≠ 0 then .ok { ctx with
      recvrMeasures := ctx.recvrMeasures.set rcvrIndex.toNat (measures.set i.toNat measure)
      windowIndex := ctx.windowIndex.set rcvrIndex.toNat ((i + 1) % ctx.windowSize) }
    else .error .undefined
  | _, _ => .error .undefined

/-- `PercentileCtx::getRcvrOWD`; the place is computed with `size_t`. -/
def getRcvrOWD (ctx : PercentileCtx) (measures : List UInt32) : Except Fault UInt32 :=
  let sortedMeasure := measures.insertionSort (· ≤ ·)
  let i := (UInt64.ofNat sortedMeasure.length - 1) * ctx.percentile.toUInt64 / 100
  match sortedMeasure[i.toNat]? with
  | some owd => .ok owd
  | none => .error .undefined

/-- The context's `getCappedMaxOWD`. -/
def cappedMaxOWD (ctx : PercentileCtx) : Except Fault UInt32 :=
  ctx.toBaseCalcCtx.getCappedMaxOWD ctx.getRcvrOWD

/-- A list of measures, each with its receiver. -/
def addMeasures (ctx : PercentileCtx) (calls : List (UInt32 × UInt32)) :
    Except Fault PercentileCtx :=
  calls.foldlM (fun ctx call => ctx.addMeasure call.1 call.2) ctx

end PercentileCtx

/-! ### What is meant -/

/-- The last measures of a receiver, as many as its window has places, with the initial measure
where there were fewer. -/
def lastMeasures (windowSize : ℕ) (initialMeasure : UInt32) (calls : List (UInt32 × UInt32))
    (r : ℕ) : List UInt32 :=
  let own := (calls.filter (·.1.toNat = r)).map (·.2)
  (List.replicate windowSize initialMeasure ++ own).drop own.length

/-- The value of a list at a percentile. -/
def percentileOf (percentile : ℕ) (l : List UInt32) : UInt32 :=
  (l.insertionSort (· ≤ ·)).getD ((l.length - 1) * percentile / 100) 0

/-- The largest percentile of the last measures of a receiver. -/
def maxPercentile (numReceivers windowSize percentile : ℕ) (initialMeasure : UInt32)
    (calls : List (UInt32 × UInt32)) : ℕ :=
  (Finset.range numReceivers).sup fun r =>
    (percentileOf percentile (lastMeasures windowSize initialMeasure calls r)).toNat

lemma insertionSort_eq_of_perm {l l' : List UInt32} (h : l.Perm l') :
    l.insertionSort (· ≤ ·) = l'.insertionSort (· ≤ ·) := by
  refine List.Perm.eq_of_pairwise' (List.pairwise_insertionSort (· ≤ ·) l)
    (List.pairwise_insertionSort (· ≤ ·) l') ?_
  exact (List.perm_insertionSort _ l).trans (h.trans (List.perm_insertionSort _ l').symm)

/-- The percentile does not depend on the order of the values. -/
lemma percentileOf_perm {l l' : List UInt32} (h : l.Perm l') (p : ℕ) :
    percentileOf p l = percentileOf p l' := by
  rw [percentileOf, percentileOf, insertionSort_eq_of_perm h, h.length_eq]

/-- Up to percentile 100 there is a value. -/
lemma percentile_place_lt {n p : ℕ} (hn : 0 < n) (hp : p ≤ 100) : (n - 1) * p / 100 < n := by
  have hmul : (n - 1) * p ≤ (n - 1) * 100 := Nat.mul_le_mul_left _ hp
  omega

namespace PercentileCtx

variable {n cap w p init : UInt32}

/-- The measures of one receiver. -/
def own (calls : List (UInt32 × UInt32)) (r : ℕ) : List UInt32 :=
  (calls.filter (·.1.toNat = r)).map (·.2)

lemma own_concat (calls : List (UInt32 × UInt32)) (i m : UInt32) (r : ℕ) :
    own (calls ++ [(i, m)]) r = if r = i.toNat then own calls r ++ [m] else own calls r := by
  by_cases h : r = i.toNat
  · simp [own, h]
  · have hne : ¬i.toNat = r := fun h' => h h'.symm
    simp [own, h, hne]

/-! ### The windows are ring buffers -/

/-- The ring of a receiver. -/
def ring (hw : 0 < w.toNat) (init : UInt32) (calls : List (UInt32 × UInt32)) (r : ℕ) :
    RingBuffer UInt32 :=
  (RingBuffer.replicate w.toNat init hw).pushAll (own calls r)

lemma ring_concat (hw : 0 < w.toNat) (calls : List (UInt32 × UInt32)) (i m : UInt32) (r : ℕ) :
    ring hw init (calls ++ [(i, m)]) r =
      if r = i.toNat then (ring hw init calls r).push m else ring hw init calls r := by
  rw [ring, own_concat]
  by_cases h : r = i.toNat
  · rw [if_pos h, if_pos h, RingBuffer.pushAll_concat]
    rfl
  · rw [if_neg h, if_neg h]
    rfl

@[simp] lemma length_ring (hw : 0 < w.toNat) (calls : List (UInt32 × UInt32)) (r : ℕ) :
    (ring hw init calls r).cells.length = w.toNat := by
  rw [ring, RingBuffer.length_pushAll]
  exact List.length_replicate

lemma ring_next_lt (hw : 0 < w.toNat) (calls : List (UInt32 × UInt32)) (r : ℕ) :
    (ring hw init calls r).next < w.toNat := by
  have hlt := (ring hw init calls r).next_lt
  rwa [length_ring] at hlt

lemma window_ring (hw : 0 < w.toNat) (calls : List (UInt32 × UInt32)) (r : ℕ) :
    (ring hw init calls r).window = lastMeasures w.toNat init calls r := by
  rw [ring, RingBuffer.window_pushAll, RingBuffer.window_replicate]
  rfl

/-- The context whose windows are these rings. -/
def contextOf (n cap w p init : UInt32) (hw : 0 < w.toNat) (calls : List (UInt32 × UInt32)) :
    PercentileCtx where
  numReceivers := n
  cap := cap
  windowSize := w
  percentile := p
  windowIndex := (List.range n.toNat).map fun r => UInt32.ofNat (ring hw init calls r).next
  recvrMeasures := (List.range n.toNat).map fun r => (ring hw init calls r).cells

lemma create_eq (hw : 0 < w.toNat) : create n cap w p init = contextOf n cap w p init hw [] := by
  have hring : ∀ r, ring hw init [] r = RingBuffer.replicate w.toNat init hw := fun _ => rfl
  simp only [create, BaseCalcCtx.create, contextOf, hring, List.map_const', List.length_range]
  rfl

/-- One value of a family is replaced. -/
lemma set_map_range {α : Type} (f : ℕ → α) (k i : ℕ) (a : α) :
    ((List.range k).map f).set i a = (List.range k).map fun j => if j = i then a else f j := by
  refine List.ext_getElem (by simp) fun j hj _ => ?_
  rw [List.getElem_set, List.getElem_map, List.getElem_map, List.getElem_range]
  by_cases h : i = j
  · rw [if_pos h, if_pos h.symm]
  · rw [if_neg h, if_neg fun h' => h h'.symm]

/-- The place in a window moves on without an overflow. -/
lemma next_place {i : ℕ} (hi : i < w.toNat) :
    (UInt32.ofNat i + 1) % w = UInt32.ofNat ((i + 1) % w.toNat) := by
  have hsize := w.toNat_lt
  have hnext : (UInt32.ofNat i + 1).toNat = i + 1 := by
    rw [UInt32.toNat_add, UInt32.toNat_one, UInt32.toNat_ofNat', Nat.mod_eq_of_lt (a := i),
      Nat.mod_eq_of_lt]
    · omega
    · omega
  have hmod : (i + 1) % w.toNat < 2 ^ 32 :=
    lt_trans (Nat.mod_lt _ (Nat.zero_lt_of_lt hi)) hsize
  rw [← UInt32.toNat_inj, UInt32.toNat_mod, hnext, UInt32.toNat_ofNat_of_lt' hmod]

/-- **One measure** goes into the ring of its receiver. -/
lemma addMeasure_eq (hw : 0 < w.toNat) (calls : List (UInt32 × UInt32)) {r : UInt32} (m : UInt32)
    (hr : r < n) :
    (contextOf n cap w p init hw calls).addMeasure r m =
      .ok (contextOf n cap w p init hw (calls ++ [(r, m)])) := by
  have hlt := UInt32.lt_iff_toNat_lt.mp hr
  have hnext : (ring hw init calls r.toNat).next < w.toNat := ring_next_lt hw calls r.toNat
  have hsize := w.toNat_lt
  have hplace : (UInt32.ofNat (ring hw init calls r.toNat).next).toNat =
      (ring hw init calls r.toNat).next := UInt32.toNat_ofNat_of_lt' (lt_trans hnext hsize)
  have hmeasures : (contextOf n cap w p init hw calls).recvrMeasures[r.toNat]? =
      some (ring hw init calls r.toNat).cells := by simp [contextOf, hlt]
  have hindex : (contextOf n cap w p init hw calls).windowIndex[r.toNat]? =
      some (UInt32.ofNat (ring hw init calls r.toNat).next) := by simp [contextOf, hlt]
  have hwindow : (contextOf n cap w p init hw calls).windowSize ≠ 0 := by
    rintro rfl
    exact absurd hw (by decide)
  rw [addMeasure, hmeasures, hindex]
  dsimp only
  rw [hplace, if_pos ⟨(ring hw init calls r.toNat).next_lt, hwindow⟩]
  dsimp only [contextOf]
  rw [set_map_range, set_map_range, next_place hnext]
  simp only [ring_concat, apply_ite RingBuffer.cells, apply_ite RingBuffer.next,
    apply_ite UInt32.ofNat]
  congr 4
  · funext j
    by_cases hj : j = r.toNat
    · rw [if_pos hj, if_pos hj, hj, RingBuffer.next_push, length_ring]
    · rw [if_neg hj, if_neg hj]
  · funext j
    by_cases hj : j = r.toNat
    · rw [if_pos hj, if_pos hj, hj, RingBuffer.cells_push]
    · rw [if_neg hj, if_neg hj]

/-- **A list of measures**: the windows are the rings. -/
lemma add_measures_eq (hw : 0 < w.toNat) {calls : List (UInt32 × UInt32)}
    (hcalls : ∀ call ∈ calls, call.1 < n) :
    (create n cap w p init).addMeasures calls = .ok (contextOf n cap w p init hw calls) := by
  induction calls using List.reverseRecOn with
  | nil => rw [create_eq hw]; rfl
  | append_singleton calls call ih =>
      have hprefix := ih fun c hc => hcalls c (List.mem_append_left _ hc)
      have hlast := hcalls call (by simp)
      rw [addMeasures] at hprefix ⊢
      rw [List.foldlM_append, hprefix]
      exact (bind_pure _).trans (addMeasure_eq hw calls call.2 hlast)

/-! ### The bound -/

/-- The value that `getRcvrOWD` takes of a full window. -/
lemma getRcvrOWD_eq {ctx : PercentileCtx} {measures : List UInt32} (hpos : 0 < measures.length)
    (hlen : measures.length < 2 ^ 32) (hp : ctx.percentile.toNat ≤ 100) :
    ctx.getRcvrOWD measures = .ok (percentileOf ctx.percentile.toNat measures) := by
  have hmul : (measures.length - 1) * ctx.percentile.toNat ≤ (measures.length - 1) * 100 :=
    Nat.mul_le_mul_left _ hp
  have hplace : ((UInt64.ofNat measures.length - 1) * ctx.percentile.toUInt64 / 100).toNat =
      (measures.length - 1) * ctx.percentile.toNat / 100 := by
    have hlen64 : (UInt64.ofNat measures.length).toNat = measures.length :=
      UInt64.toNat_ofNat_of_lt' (lt_trans hlen (by decide))
    have hone : (1 : UInt64) ≤ UInt64.ofNat measures.length := by
      rw [UInt64.le_iff_toNat_le, hlen64]
      exact hpos
    rw [UInt64.toNat_div, UInt64.toNat_mul, UInt64.toNat_sub_of_le _ _ hone, hlen64,
      UInt32.toNat_toUInt64, Nat.mod_eq_of_lt]
    · rfl
    · change (measures.length - 1) * ctx.percentile.toNat < 2 ^ 64
      omega
  have hsorted : (measures.insertionSort (· ≤ ·)).length = measures.length :=
    List.length_insertionSort _ _
  have hlt := percentile_place_lt hpos hp
  have hget : (measures.insertionSort (· ≤ ·))[(measures.length - 1) *
      ctx.percentile.toNat / 100]? = some (percentileOf ctx.percentile.toNat measures) := by
    rw [percentileOf, List.getD_eq_getElem?_getD,
      List.getElem?_eq_getElem (hsorted.symm ▸ hlt), Option.getD_some]
  simp only [getRcvrOWD, hsorted, hplace, hget]

/-- The loop over the first receivers; the cap inside the maximum is a cap of the maximum. -/
lemma foldlM_capped {f : ℕ → Except Fault UInt32} {g : ℕ → UInt32} (cap : UInt32) (k : ℕ)
    (hf : ∀ r < k, f r = .ok (g r)) :
    ∃ v, (List.range k).foldlM (fun maxOWD r => do
        let owd ← f r
        return min cap (max maxOWD owd)) 0 = .ok v ∧
      v.toNat = min cap.toNat ((Finset.range k).sup fun r => (g r).toNat) := by
  induction k with
  | zero => exact ⟨0, rfl, by simp⟩
  | succ k ih =>
      obtain ⟨v, hv, hcapped⟩ := ih fun r hr => hf r (by omega)
      refine ⟨min cap (max v (g k)), ?_, ?_⟩
      · rw [List.range_succ, List.foldlM_append, hv, ok_bind, List.foldlM_cons, hf k (by omega)]
        rfl
      · rw [UInt32.toNat_min, UInt32.toNat_max, hcapped, Finset.range_add_one, Finset.sup_insert]
        change min cap.toNat (max (min cap.toNat _) (g k).toNat) = min cap.toNat (max (g k).toNat _)
        omega

/-- **The bound is the largest percentile of the last measures**, up to the cap, whatever measures
there were. -/
theorem capped_max_percentile (numReceivers cap windowSize percentile initialMeasure : UInt32)
    (calls : List (UInt32 × UInt32)) (hwindow : 1 ≤ windowSize) (hpercentile : percentile ≤ 100)
    (hcalls : ∀ call ∈ calls, call.1 < numReceivers) :
    ∃ ctx bound,
      (create numReceivers cap windowSize percentile initialMeasure).addMeasures calls = .ok ctx ∧
      ctx.cappedMaxOWD = .ok bound ∧
      bound.toNat = min cap.toNat (maxPercentile numReceivers.toNat windowSize.toNat
        percentile.toNat initialMeasure calls) := by
  have hw : 0 < windowSize.toNat := UInt32.le_iff_toNat_le.mp hwindow
  have hp : percentile.toNat ≤ 100 := UInt32.le_iff_toNat_le.mp hpercentile
  have howd : ∀ r < numReceivers.toNat,
      (contextOf numReceivers cap windowSize percentile initialMeasure hw calls).getRcvrOWD
          (ring hw initialMeasure calls r).cells =
        .ok (percentileOf percentile.toNat (ring hw initialMeasure calls r).cells) := fun r _ =>
    getRcvrOWD_eq (by rwa [length_ring]) (by rw [length_ring]; exact windowSize.toNat_lt) hp
  obtain ⟨bound, hbound, hcapped⟩ := foldlM_capped cap numReceivers.toNat howd
  refine ⟨_, bound, add_measures_eq hw hcalls, ?_, ?_⟩
  · rw [cappedMaxOWD, BaseCalcCtx.getCappedMaxOWD]
    exact (List.foldlM_map ..).trans hbound
  · have hpercentiles : ∀ r, percentileOf percentile.toNat (ring hw initialMeasure calls r).cells =
        percentileOf percentile.toNat (lastMeasures windowSize.toNat initialMeasure calls r) := by
      intro r
      rw [← window_ring hw calls r]
      exact percentileOf_perm (RingBuffer.cells_perm_window _) _
    simp only [hpercentiles] at hcapped
    exact hcapped

/-- Two receivers with windows of two measures: the first receiver's last measures are `5` and
`7`, the second one has sent one measure. -/
theorem capped_max_percentile_two : ∃ ctx bound,
    (create 2 100 2 90 9).addMeasures [(0, 30), (0, 5), (1, 4), (0, 7)] = .ok ctx ∧
      ctx.cappedMaxOWD = .ok bound ∧ bound.toNat = 5 := by
  have hcalls : ∀ call ∈ [((0 : UInt32), (30 : UInt32)), (0, 5), (1, 4), (0, 7)], call.1 < 2 := by
    simp
  obtain ⟨ctx, bound, hctx, hbound, hnat⟩ :=
    capped_max_percentile 2 100 2 90 9 _ (by decide) (by decide) hcalls
  exact ⟨ctx, bound, hctx, hbound, hnat.trans (by decide)⟩

end PercentileCtx

end DomBft
