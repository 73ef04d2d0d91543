import DomBft.Lib.Tally
import DomBft.Flutter.Cluster
import DomBft.Flutter.Step

/-!
The lock time of a replica of Flutter, over every sequence of events.

* `clocksBelow`, `clocksFrom`: how many replicas have a recorded clock below a time, and from it on.
* `Backed`: a superquorum of replicas has a recorded clock of at least the lock time.
* `updated_lockTime`: which of the recorded clocks the lock time becomes, in these numbers.
* `EvenClocks`: what the clocks have to be like when one is recorded; `lock_time_backed`: **when the
  lock time is backed and does not go back.**
-/

namespace DomBft

open Std (ExtTreeMap)
open Fallible Transition

namespace FlutterReplica

variable {cfg : FlutterConfig} {now : ℕ} {e : FlutterInput} {r r' : FlutterReplica}

/-! ### Recorded clocks -/

/-- The number of replicas with a recorded clock below a time. -/
def clocksBelow (r : FlutterReplica) (t : ℕ) : ℕ :=
  (OrderedMap.keysWhere r.replicaClocks (· < t)).card

/-- The number of replicas with a recorded clock of at least a time. -/
def clocksFrom (r : FlutterReplica) (t : ℕ) : ℕ :=
  (OrderedMap.keysWhere r.replicaClocks (t ≤ ·)).card

lemma clocksBelow_eq (r : FlutterReplica) (t : ℕ) :
    r.clocksBelow t = r.clockTimes.countP (· < t) := by
  have hperm : r.clockTimes.Perm (r.replicaClocks.toList.map (·.2)) := List.perm_insertionSort _ _
  rw [clocksBelow, OrderedMap.card_keysWhere, hperm.countP_eq, List.countP_map,
    List.countP_eq_length_filter]
  rfl

/-- Every recorded clock is below a time or not. -/
lemma clocksBelow_add_clocksFrom (r : FlutterReplica) (t : ℕ) :
    r.clocksBelow t + r.clocksFrom t = r.replicaClocks.size := by
  have hsplit := List.length_eq_length_filter_add (l := r.replicaClocks.toList) fun x =>
    decide (x.2 < t)
  have hfrom : (r.replicaClocks.toList.filter fun x => !decide (x.2 < t)) =
      r.replicaClocks.toList.filter fun x => decide (t ≤ x.2) :=
    List.filter_congr fun x _ => by rw [← decide_not, decide_eq_decide, not_lt]
  rw [hfrom, ExtTreeMap.length_toList] at hsplit
  rw [clocksBelow, clocksFrom, OrderedMap.card_keysWhere, OrderedMap.card_keysWhere, hsplit]

lemma clocksBelow_mono {t t' : ℕ} (h : t ≤ t') : r.clocksBelow t ≤ r.clocksBelow t' := by
  refine Finset.card_le_card fun i hi => ?_
  obtain ⟨v, hv, hlt⟩ := OrderedMap.mem_keysWhere.mp hi
  exact OrderedMap.mem_keysWhere.mpr ⟨v, hv, lt_of_lt_of_le hlt h⟩

/-- **A place among the sorted clocks**, in the numbers of clocks below a time. -/
lemma le_clockTime_iff {i lockTime : ℕ} (h : r.clockTimes[i]? = some lockTime) (t : ℕ) :
    t ≤ lockTime ↔ r.clocksBelow t ≤ i := by
  obtain ⟨hi, rfl⟩ := List.getElem?_eq_some_iff.mp h
  rw [clocksBelow_eq]
  exact Tally.le_getElem_iff_countP_lt (List.pairwise_insertionSort _ _) hi t

/-- What stands among the sorted clocks is the clock of a replica. -/
lemma exists_clock {i lockTime : ℕ} (h : r.clockTimes[i]? = some lockTime) :
    ∃ j : ℕ, r.replicaClocks[j]? = some lockTime := by
  have hmem := List.mem_of_getElem? h
  rw [clockTimes, List.mem_insertionSort] at hmem
  obtain ⟨x, hx, hlock⟩ := List.mem_map.mp hmem
  exact ⟨x.1, ExtTreeMap.mem_toList_iff_getElem?_eq_some.mp (hlock ▸ hx)⟩

/-! ### Events -/

/-- Only a recorded clock changes the clocks and the lock time. -/
lemma Steps.clocks (hsteps : Steps cfg now e r r') (he : ∀ j t, e ≠ .message j (.time t)) :
    r'.replicaClocks = r.replicaClocks ∧ r'.lockTime = r.lockTime := by
  induction hsteps with
  | refl => exact ⟨rfl, rfl⟩
  | tail _ hstep ih =>
      refine ⟨Eq.trans ?_ ih.1, Eq.trans ?_ ih.2⟩
      · cases hstep with
        | propose => rw [addCandidate_eq]
        | setClock heq => exact absurd heq (he _ _)
        | _ => rfl
      · cases hstep with
        | propose => rw [addCandidate_eq]
        | setClock heq => exact absurd heq (he _ _)
        | _ => rfl

/-- **What a clock changes**: it is recorded, and the lock time is one of the recorded clocks if
there are enough of them. -/
lemma processFlutterTime_clocks {j t : ℕ} (h : r.processFlutterTime cfg j t = .ok r') :
    r'.replicaClocks = (r.recordClock j t).replicaClocks ∧
      SetsClock cfg r (r.recordClock j t) r'.lockTime := by
  obtain ⟨lockTime, hset, rfl | ⟨-, hcheck⟩⟩ := processFlutterTime_cases h
  · exact ⟨rfl, hset⟩
  · have hsteps : Steps cfg 0 .clock { r.recordClock j t with lockTime } r' :=
      checkCandidatesForCommit_steps (by simp) hcheck
    obtain ⟨hclocks, hlock⟩ := hsteps.clocks (by simp)
    rw [hclocks, hlock]
    exact ⟨rfl, hset⟩

/-- As many replicas as make a superquorum have a recorded clock of at least the lock time, once
there are as many clocks. -/
def Backed (cfg : FlutterConfig) (r : FlutterReplica) : Prop :=
  cfg.superQuorumSize ≤ r.replicaClocks.size → cfg.superQuorumSize ≤ r.clocksFrom r.lockTime

/-- The clocks with the new one among them, if they are a superquorum: no recorded clock has few
enough others below it to become the lock time, but more than the superquorum leaves over; and few
enough lie below the lock time. -/
def EvenClocks (cfg : FlutterConfig) (r : FlutterReplica) (j t : ℕ) : Prop :=
  cfg.superQuorumSize ≤ (r.recordClock j t).replicaClocks.size →
    (∀ i v : ℕ, (r.recordClock j t).replicaClocks[i]? = some v →
      (r.recordClock j t).clocksBelow v ≤ cfg.numReplicas - cfg.superQuorumSize →
      (r.recordClock j t).clocksBelow v + cfg.superQuorumSize ≤
        (r.recordClock j t).replicaClocks.size) ∧
    (r.recordClock j t).clocksBelow r.lockTime ≤ cfg.numReplicas - cfg.superQuorumSize

instance (r : FlutterReplica) (j t : ℕ) : Decidable (EvenClocks cfg r j t) :=
  decidable_of_iff
    (cfg.superQuorumSize ≤ (r.recordClock j t).replicaClocks.size →
      (∀ x ∈ (r.recordClock j t).replicaClocks.toList,
        (r.recordClock j t).clocksBelow x.2 ≤ cfg.numReplicas - cfg.superQuorumSize →
        (r.recordClock j t).clocksBelow x.2 + cfg.superQuorumSize ≤
          (r.recordClock j t).replicaClocks.size) ∧
      (r.recordClock j t).clocksBelow r.lockTime ≤ cfg.numReplicas - cfg.superQuorumSize)
    (by simp only [EvenClocks, Prod.forall, ExtTreeMap.mem_toList_iff_getElem?_eq_some])

/-- **When a clock leaves a lock time that is backed and not below the old one.** -/
lemma processFlutterTime_iff {j t : ℕ} (h : r.processFlutterTime cfg j t = .ok r') :
    r'.Backed cfg ∧ r.lockTime ≤ r'.lockTime ↔ EvenClocks cfg r j t := by
  obtain ⟨hclocks, hset⟩ := processFlutterTime_clocks h
  set r₁ := r.recordClock j t with hr₁
  have hfrom : r'.clocksFrom r'.lockTime = r₁.clocksFrom r'.lockTime := by
    rw [clocksFrom, clocksFrom, hclocks]
  rw [Backed, EvenClocks, hfrom, hclocks, ← hr₁]
  by_cases hmany : cfg.superQuorumSize ≤ r₁.replicaClocks.size
  · have hlock := hset.many hmany
    have hsum := r₁.clocksBelow_add_clocksFrom r'.lockTime
    have hown := (le_clockTime_iff hlock r'.lockTime).mp le_rfl
    obtain ⟨i, hi⟩ := exists_clock hlock
    rw [le_clockTime_iff hlock]
    constructor
    · rintro ⟨hbacked, hmono⟩ -
      refine ⟨fun i v _ hv => ?_, hmono⟩
      have hbelow := clocksBelow_mono (r := r₁) ((le_clockTime_iff hlock v).mpr hv)
      have henough := hbacked hmany
      omega
    · intro heven
      obtain ⟨hno, hmono⟩ := heven hmany
      refine ⟨fun _ => ?_, hmono⟩
      have hover := hno i _ hi hown
      omega
  · have hsame := hset.few (not_le.mp hmany)
    rw [hsame]
    exact iff_of_true ⟨fun hle => absurd hle hmany, le_rfl⟩ fun hle => absurd hle hmany

/-! ### Runs -/

/-- The clocks are even whenever one is recorded. -/
def KeepsLock (cfg : FlutterConfig) (_ : List (ℕ × FlutterInput)) (r : FlutterReplica) :
    ℕ × FlutterInput → Prop
  | (_, .message j (.time t)) => EvenClocks cfg r j t
  | _ => True

instance (es : List (ℕ × FlutterInput)) (r : FlutterReplica) :
    (ev : ℕ × FlutterInput) → Decidable (KeepsLock cfg es r ev)
  | (_, .message j (.time t)) => inferInstanceAs (Decidable (EvenClocks cfg r j t))
  | (_, .message _ (.observe _)) | (_, .message _ (.rbcProposal _ _))
  | (_, .message _ (.rbcSlowProposal _ _)) | (_, .message _ (.rbcSlowValue _ _))
  | (_, .message _ (.reply _)) | (_, .request _) | (_, .clock) => inferInstanceAs (Decidable True)

/-- One event. -/
lemma handle_lock {es : List (ℕ × FlutterInput)} {ev : ℕ × FlutterInput} (hb : r.Backed cfg)
    (hg : KeepsLock cfg es r ev) (h : r.handle cfg ev.1 ev.2 = .ok r') :
    r'.Backed cfg ∧ r.lockTime ≤ r'.lockTime := by
  obtain ⟨now, e⟩ := ev
  by_cases he : ∃ j t, e = .message j (.time t)
  · obtain ⟨j, t, rfl⟩ := he
    exact (processFlutterTime_iff h).mpr hg
  · obtain ⟨hclocks, hlock⟩ := (handle_steps h).clocks fun j t heq => he ⟨j, t, heq⟩
    rw [Backed, clocksFrom, hclocks, hlock]
    exact ⟨hb, le_rfl⟩

lemma backed_fresh (replicaId t₀ t₁ : ℕ) : (fresh replicaId t₀ t₁).Backed cfg := by
  intro hmany
  have hnone : (fresh replicaId t₀ t₁).clocksBelow 0 = 0 := by
    rw [clocksBelow, Finset.card_eq_zero]
    refine Finset.eq_empty_of_forall_notMem fun i hi => ?_
    obtain ⟨v, -, hlt⟩ := OrderedMap.mem_keysWhere.mp hi
    exact absurd hlt (Nat.not_lt_zero v)
  have hsum := (fresh replicaId t₀ t₁).clocksBelow_add_clocksFrom 0
  change cfg.superQuorumSize ≤ (fresh replicaId t₀ t₁).clocksFrom 0
  omega

/-- **The lock time**: in a run that records a clock only if the clocks are even with it, the lock
time is backed in every state reached and does not go back; and a clock leaves it backed and not
below the old one only then. -/
theorem lock_time_backed {es : List (ℕ × FlutterInput)}
    (hrun : Run (system cfg) (KeepsLock cfg) es r) :
    r.Backed cfg ∧
      (∀ es' r', Later (system cfg) (KeepsLock cfg) es r es' r' → r.lockTime ≤ r'.lockTime) ∧
      ∀ now j t r', r.handle cfg now (.message j (.time t)) = .ok r' →
        (r'.Backed cfg ∧ r.lockTime ≤ r'.lockTime ↔ EvenClocks cfg r j t) := by
  have hbacked : ∀ {es r}, Run (system cfg) (KeepsLock cfg) es r → r.Backed cfg := by
    intro es r hrun
    refine hrun.invariant (P := fun _ r => r.Backed cfg) ?_ ?_
    · rintro _ ⟨replicaId, t₀, t₁, rfl⟩
      exact backed_fresh replicaId t₀ t₁
    · rintro es r ev r' _ hb hg hstep
      exact (handle_lock hb hg hstep).1
  refine ⟨hbacked hrun, fun es' r' hlater => ?_, fun now j t r' h => processFlutterTime_iff h⟩
  induction hlater with
  | refl => exact le_rfl
  | step hlater hg hstep ih =>
      exact ih.trans (handle_lock (hbacked (hrun.later hlater)) hg hstep).2

/-! ### Two runs -/

/-- Clocks that come from the replicas `1`, `2`, … one after the other. -/
def clocksFromOne (l : List ℕ) : List (ℕ × FlutterInput) :=
  l.zipIdx.map fun x => (0, .message (x.2 + 1) (.time x.1))

/-- A run over a list of events, each of which meets the condition. -/
lemma run_events {es : List (ℕ × FlutterInput)} {replicaId t₀ t₁ : ℕ}
    (h : es.foldlM (fun r e => if KeepsLock cfg [] r e then r.handle cfg e.1 e.2 else
      .error .assertion) (fresh replicaId t₀ t₁) = .ok r) :
    Run (system cfg) (KeepsLock cfg) es r := by
  have hstart : Run (system cfg) (KeepsLock cfg) [] (fresh replicaId t₀ t₁) :=
    .start ⟨replicaId, t₀, t₁, rfl⟩
  refine hstart.of_foldlM (fun es r e r' _ hf => ?_) h
  split_ifs at hf with hg
  exact ⟨hg, hf⟩

/-- The clocks of six replicas are heard, the two earliest ones first. -/
theorem lock_time_backed_six : ∃ es r, Run (system .sixReplicas) (KeepsLock .sixReplicas) es r ∧
    r.lockTime = 10 ∧ r.Backed .sixReplicas := by
  obtain ⟨r, h, hlock⟩ : ∃ r, (clocksFromOne [10, 12, 13, 14, 15]).foldlM
      (fun r e => if KeepsLock .sixReplicas [] r e then r.handle .sixReplicas e.1 e.2 else
        .error .assertion) (fresh 0 0 10) = .ok r ∧ r.lockTime = 10 := by decide +kernel
  have hrun := run_events h
  exact ⟨_, r, hrun, hlock, (lock_time_backed hrun).1⟩

/-- **A lock time that four clocks reach**: the replica's own clock is `10`, and those of four other
replicas are `20`. -/
theorem lock_time_of_four_clocks : ∃ es r, Run (system .sixReplicas) anyStep es r ∧
    r.lockTime = 20 ∧ r.clocksFrom 20 = 4 ∧ ¬r.Backed .sixReplicas := by
  obtain ⟨r, h, hlock, hsize, hfour⟩ : ∃ r, (clocksFromOne [20, 20, 20, 20]).foldlM
      (fun r e => r.handle .sixReplicas e.1 e.2) (fresh 0 0 10) = .ok r ∧ r.lockTime = 20 ∧
      5 ≤ r.replicaClocks.size ∧ r.clocksFrom 20 = 4 := by decide +kernel
  have hstart : Run (system .sixReplicas) anyStep [] (fresh 0 0 10) := .start ⟨0, 0, 10, rfl⟩
  refine ⟨_, r, hstart.of_foldlM (fun _ _ _ _ _ hf => ⟨trivial, hf⟩) h, hlock, hfour, ?_⟩
  intro hbacked
  have henough := hbacked hsize
  rw [hlock, hfour] at henough
  exact absurd henough (by decide)

end FlutterReplica

end DomBft
