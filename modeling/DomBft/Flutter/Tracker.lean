import DomBft.Flutter.Order

/-!
The sequence numbers of a client that a replica of Flutter has committed, as a set.

* `Advances`: the loop in `commit`, with the state in which it ends; `advances_advance`: it ends,
  and what bounds the number of its turns in `advance` never cuts it short.
* `Settled`: the state between two calls.  There is a gap behind the contiguous range, as `commit`
  has closed every other one; `Settled.commit` is the step lemma.
* `tracker_is_set`: **what a list of commits leaves**.
* `Tracked`: the tracker of a client has been told what a replica has committed for it;
  `isCommitted_iff_of_run`: **what a replica takes for committed**, in every run.
-/

namespace DomBft

namespace ClientSequenceTracker

variable {t t' : ClientSequenceTracker} {seq : ℕ}

lemma pos_of_mem_empty : ∀ s ∈ (∅ : Finset ℕ), 0 < s :=
  fun s hs => absurd hs (Finset.notMem_empty s)

/-- A tracker with which nothing has been committed. -/
def fresh : ClientSequenceTracker where
  ahead := pos_of_mem_empty

/-! ### The loop -/

/-- The loop in `commit`, from its condition: it ends in the second state. -/
inductive Advances : ClientSequenceTracker → ClientSequenceTracker → Prop
  | stop {t : ClientSequenceTracker} : t.next ∉ t.outOfOrderCommits → Advances t t
  | turn {t t' : ClientSequenceTracker} :
      t.next ∈ t.outOfOrderCommits → Advances t.extend t' → Advances t t'

/-- **The loop ends** on its own: there are not more turns than numbers in the set. -/
lemma advances_advance {turns : ℕ} (h : t.outOfOrderCommits.card ≤ turns) :
    Advances t (advance turns t) := by
  induction turns generalizing t with
  | zero =>
      have hempty : t.outOfOrderCommits = ∅ := Finset.card_eq_zero.mp (Nat.le_zero.mp h)
      refine .stop ?_
      rw [hempty]
      exact Finset.notMem_empty _
  | succ turns ih =>
      rw [advance]
      split_ifs with hmem
      · have hcard : t.extend.outOfOrderCommits.card = t.outOfOrderCommits.card - 1 :=
          Finset.card_erase_of_mem hmem
        exact .turn hmem (ih (by omega))
      · exact .stop hmem

/-! ### Between two calls -/

/-- The state between two calls: what has been committed out of order is not next to the
contiguous range, and all numbers are `uint32_t`. -/
structure Settled (t : ClientSequenceTracker) : Prop where
  lt : t.lastCommitted < 2 ^ 32
  bounded : ∀ s ∈ t.outOfOrderCommits, s < 2 ^ 32
  gap : ∀ s ∈ t.outOfOrderCommits, t.lastCommitted + 1 < s

lemma settled_fresh : Settled fresh where
  lt := by decide
  bounded s hs := absurd hs (Finset.notMem_empty s)
  gap s hs := absurd hs (Finset.notMem_empty s)

/-- Where the loop ends there is a gap. -/
lemma Advances.settled (h : Advances t t') (hlt : t.lastCommitted < 2 ^ 32)
    (hbounded : ∀ s ∈ t.outOfOrderCommits, s < 2 ^ 32) : t'.Settled := by
  induction h with
  | @stop t hnext =>
      refine ⟨hlt, hbounded, fun s hs => ?_⟩
      have hahead := t.ahead s hs
      have hs32 := hbounded s hs
      -- a number above the range is a `uint32_t`, so that the next one does not wrap
      have hmod : t.next = t.lastCommitted + 1 := Nat.mod_eq_of_lt (by omega)
      have hne : s ≠ t.lastCommitted + 1 := by
        rintro rfl
        exact hnext (hmod ▸ hs)
      omega
  | @turn t t' hnext _ ih =>
      refine ih (Nat.mod_lt _ (by decide)) fun s hs => ?_
      exact hbounded s (Finset.mem_of_mem_erase hs)

/-- The first number behind the range is not in the set, so that nothing is taken out of it before
the loop. -/
lemma Settled.extend_outOfOrderCommits (h : t.Settled) :
    t.extend.outOfOrderCommits = t.outOfOrderCommits := by
  refine Finset.erase_eq_of_notMem fun hmem => ?_
  have hgap := h.gap _ hmem
  have hle : t.next ≤ t.lastCommitted + 1 := Nat.mod_le _ _
  omega

/-- Where `commit` extends the range, it runs the loop to its end. -/
lemma Settled.advances_commit (h : t.Settled) (hlt : t.lastCommitted < seq) (heq : seq = t.next) :
    Advances t.extend (t.commit seq) := by
  rw [ClientSequenceTracker.commit, dif_neg hlt.not_ge, if_pos heq]
  refine advances_advance ?_
  rw [h.extend_outOfOrderCommits]

/-- **Every call leaves a settled state.** -/
lemma Settled.commit (h : t.Settled) (hseq : seq < 2 ^ 32) : (t.commit seq).Settled := by
  by_cases hle : seq ≤ t.lastCommitted
  · rw [ClientSequenceTracker.commit, dif_pos hle]
    exact h
  by_cases heq : seq = t.next
  · refine (h.advances_commit (not_le.mp hle) heq).settled (Nat.mod_lt _ (by decide)) ?_
    rw [h.extend_outOfOrderCommits]
    exact h.bounded
  · have hmod : t.next = t.lastCommitted + 1 := Nat.mod_eq_of_lt (by omega)
    rw [ClientSequenceTracker.commit, dif_neg hle, if_neg heq]
    refine ⟨h.lt, fun s hs => ?_, fun s hs => ?_⟩
    · rcases Finset.mem_insert.mp hs with rfl | hs
      · exact hseq
      · exact h.bounded s hs
    · rcases Finset.mem_insert.mp hs with rfl | hs
      · show t.lastCommitted + 1 < s
        omega
      · exact h.gap s hs

/-! ### A list of commits -/

/-- A fresh tracker after a list of commits. -/
def commitAll (seqs : List ℕ) : ClientSequenceTracker :=
  seqs.foldl ClientSequenceTracker.commit fresh

lemma commitAll_concat (seqs : List ℕ) (seq : ℕ) :
    commitAll (seqs ++ [seq]) = (commitAll seqs).commit seq :=
  List.foldl_concat _ _ _ _

lemma settled_commitAll {seqs : List ℕ} (h : ∀ s ∈ seqs, s < 2 ^ 32) :
    (commitAll seqs).Settled := by
  induction seqs using List.reverseRecOn with
  | nil => exact settled_fresh
  | append_singleton seqs seq ih =>
      rw [commitAll_concat]
      refine (ih fun s hs => h s (List.mem_append_left _ hs)).commit (h seq ?_)
      exact List.mem_append_right _ (List.mem_singleton_self seq)

lemma isCommitted_commitAll {seqs : List ℕ} {s : ℕ} :
    (commitAll seqs).isCommitted s = true ↔ s = 0 ∨ s ∈ seqs := by
  induction seqs using List.reverseRecOn with
  | nil => simp [commitAll, fresh, isCommitted]
  | append_singleton seqs seq ih =>
      rw [commitAll_concat, isCommitted_commit, ih, List.mem_append, List.mem_singleton, or_assoc]

/-- The range of a settled tracker is the longest one that has been committed. -/
lemma Settled.isGreatest (h : t.Settled) :
    IsGreatest {k | ∀ s, 0 < s → s ≤ k → t.isCommitted s = true} t.lastCommitted := by
  refine ⟨fun s _ hle => ?_, fun k hk => ?_⟩
  · simp [isCommitted, hle]
  · by_contra hlt
    have hnext := hk (t.lastCommitted + 1) (Nat.succ_pos _) (not_le.mp hlt)
    rcases of_decide_eq_true hnext with hle | hmem
    · omega
    · exact absurd (h.gap _ hmem) (lt_irrefl _)

/-- **A tracker is a set of sequence numbers**, whatever the commits are: it contains `0` and what
has been committed; `lastCommitted` is the largest number up to which everything has been
committed; what is kept out of order lies behind the next number; and where a commit extends the
range, it takes nothing out of the set before the loop, and the loop ends. -/
theorem tracker_is_set (seqs : List UInt32) :
    let t := commitAll (seqs.map UInt32.toNat)
    (∀ s : UInt32, t.isCommitted s.toNat = true ↔ s = 0 ∨ s ∈ seqs) ∧
      (t.lastCommitted < 2 ^ 32 ∧
        IsGreatest {k | ∀ s, 0 < s → s ≤ k → s ∈ seqs.map UInt32.toNat} t.lastCommitted) ∧
      (∀ s ∈ t.outOfOrderCommits, t.lastCommitted + 1 < s ∧ s < 2 ^ 32) ∧
      ∀ seq : UInt32, t.lastCommitted < seq.toNat → seq.toNat = t.next →
        t.extend.outOfOrderCommits = t.outOfOrderCommits ∧
          Advances t.extend (t.commit seq.toNat) := by
  intro t
  have hsettled : t.Settled := by
    refine settled_commitAll fun s hs => ?_
    obtain ⟨s, -, rfl⟩ := List.mem_map.mp hs
    exact s.toNat_lt
  refine ⟨fun s => ?_, ⟨hsettled.lt, ?_⟩, fun s hs => ⟨hsettled.gap s hs, hsettled.bounded s hs⟩,
    fun seq hlt heq => ⟨hsettled.extend_outOfOrderCommits, hsettled.advances_commit hlt heq⟩⟩
  · have hmem : s.toNat ∈ seqs.map UInt32.toNat ↔ s ∈ seqs :=
      List.mem_map_of_injective fun _ _ => UInt32.toNat_inj.mp
    have hzero : s.toNat = 0 ↔ s = 0 := UInt32.toNat_inj (b := 0)
    rw [isCommitted_commitAll, hmem, hzero]
  · have hsets : {k | ∀ s, 0 < s → s ≤ k → s ∈ seqs.map UInt32.toNat} =
        {k | ∀ s, 0 < s → s ≤ k → t.isCommitted s = true} := by
      ext k
      refine forall_congr' fun s => forall_congr' fun hs => forall_congr' fun _ => ?_
      rw [isCommitted_commitAll, or_iff_right hs.ne']
    rw [hsets]
    exact hsettled.isGreatest

/-- Three requests, the first one last: it closes the gap, and the loop takes in the others. -/
theorem late_commit_closes_gap :
    (commitAll [3, 2]).lastCommitted = 0 ∧ (commitAll [3, 2, 1]).lastCommitted = 3 ∧
      (commitAll [3, 2, 1]).isCommitted 2 = true ∧
      Advances (commitAll [3, 2]).extend ((commitAll [3, 2]).commit 1) := by
  have hbefore := (tracker_is_set [3, 2]).2.2.2 1 (by decide) (by decide)
  have hafter := (tracker_is_set [3, 2, 1]).1 2
  exact ⟨by decide, by decide, hafter.mpr (by decide), hbefore.2⟩

end ClientSequenceTracker

/-! ### The trackers of a replica -/

namespace FlutterReplica

open Transition

variable {cfg : FlutterConfig} {now : ℕ} {e : FlutterInput} {r r' : FlutterReplica}

/-- The numbers of the requests of a client that have been committed, oldest first. -/
def committedSeqs (r : FlutterReplica) (clientId : ℕ) : List ℕ :=
  (r.commits.filter (·.2.1 = clientId)).map (·.2.2)

/-- The tracker of every client has been told what has been committed for it. -/
def Tracked (r : FlutterReplica) : Prop :=
  ∀ clientId, r.clientSeqTrackers.getD clientId ClientSequenceTracker.fresh =
    ClientSequenceTracker.commitAll (r.committedSeqs clientId)

lemma Step.tracked (hstep : Step cfg now e r r') (h : r.Tracked) : r'.Tracked := by
  intro clientId
  rcases hstep.commits_cases with ⟨hcommits, htrackers⟩ | ⟨k, candidate, -, -, -, -, rfl⟩
  · rw [committedSeqs, hcommits, htrackers]
    exact h clientId
  · show (r.clientSeqTrackers.insert candidate.clientId
      ((r.clientSeqTrackers.getD candidate.clientId ClientSequenceTracker.fresh).commit
        candidate.clientSeq)).getD clientId ClientSequenceTracker.fresh = _
    rw [committedSeqs, commits_commit, List.filter_append, List.map_append,
      Std.ExtTreeMap.getD_insert]
    by_cases hclient : candidate.clientId = clientId
    · have hone : [candidate.key].filter (·.2.1 = clientId) = [candidate.key] :=
        List.filter_cons_of_pos (decide_eq_true hclient)
      rw [if_pos (Std.LawfulEqCmp.compare_eq_iff_eq.mpr hclient), hone, h candidate.clientId,
        hclient]
      exact (ClientSequenceTracker.commitAll_concat _ _).symm
    · have hnone : [candidate.key].filter (·.2.1 = clientId) = [] :=
        List.filter_cons_of_neg (mt of_decide_eq_true hclient)
      rw [if_neg fun heq => hclient (Std.LawfulEqCmp.compare_eq_iff_eq.mp heq), hnone,
        List.map_nil, List.append_nil]
      exact h clientId

lemma Steps.tracked (hsteps : Steps cfg now e r r') (h : r.Tracked) : r'.Tracked := by
  induction hsteps with
  | refl => exact h
  | tail _ hstep ih => exact hstep.tracked ih

lemma tracked_of_run {G : List (ℕ × FlutterInput) → FlutterReplica → ℕ × FlutterInput → Prop}
    {es : List (ℕ × FlutterInput)} (hrun : Run (system cfg) G es r) : r.Tracked := by
  refine hrun.invariant (P := fun _ r => r.Tracked) ?_ ?_
  · rintro _ ⟨i, t₀, t₁, rfl⟩ clientId
    exact Std.ExtTreeMap.getD_empty
  · intro _ s e s' _ h _ hstep
    exact (handle_steps hstep).tracked h

/-- **A replica takes for committed what it has committed**, in every run: the requests numbered
`0`, and those to whose clients it has replied so. -/
theorem isCommitted_iff_of_run
    {G : List (ℕ × FlutterInput) → FlutterReplica → ℕ × FlutterInput → Prop}
    {es : List (ℕ × FlutterInput)} (hrun : Run (system cfg) G es r) (x : ℕ × ℕ) :
    r.isCommitted x = true ↔ x.2 = 0 ∨ ∃ key ∈ r.commits, key.2 = x := by
  have hmem : x.2 ∈ r.committedSeqs x.1 ↔ ∃ key ∈ r.commits, key.2 = x := by
    simp only [committedSeqs, List.mem_map, List.mem_filter, decide_eq_true_eq, and_assoc,
      Prod.ext_iff]
  show (r.clientSeqTrackers.getD x.1 ClientSequenceTracker.fresh).isCommitted x.2 = true ↔ _
  rw [tracked_of_run hrun x.1, ClientSequenceTracker.isCommitted_commitAll, hmem]

end FlutterReplica

end DomBft
