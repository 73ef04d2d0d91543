import DomBft.Lib.OrderedMap
import DomBft.Replica.Progress

/-!
A replica commits to one proposal at most for each round and view.

* `OneCommit`, the invariant: the prepares that are stored and the round that is prepared are
  not ahead of the round, and no commit that has been sent in this view is ahead of the round
  that is prepared.
* `OneCommit.step`, `one_commit_per_view`: every step keeps it, as long as the round and the
  view do not go back.
* `two_commits_again`: a run in which the round goes back and the replica commits again.
-/

namespace DomBft

open Fallible
open Transition

namespace Core

/-- What a replica knows about the commits it has sent. -/
structure OneCommit (c : Core) : Prop where
  prepares : ∀ (i : ℕ) (m : PBFTPrepare), c.repairPrepares[i]? = some m → m.round ≤ c.round
  prepared : c.viewPrepared = true → c.preparedRound ≤ c.round
  sent : ∀ dst m, (dst, .pbftCommit m) ∈ c.sent → m.pbftView < c.pbftView ∨
    m.pbftView = c.pbftView ∧ c.viewPrepared = true ∧ m.round ≤ c.preparedRound
  unique : ∀ dst dst' m m', (dst, .pbftCommit m) ∈ c.sent → (dst', .pbftCommit m') ∈ c.sent →
    m.round = m'.round → m.pbftView = m'.pbftView → m.proposalDigest = m'.proposalDigest

namespace OneCommit

variable {c c' : Core}

/-- What keeps the prepares, the prepared round and the commits keeps the invariant; the round
and the view may grow. -/
lemma congr (hc : c.OneCommit) (hprepares : c'.repairPrepares = c.repairPrepares)
    (hround : c.round ≤ c'.round) (hprepared : c'.preparedRound = c.preparedRound)
    (hview : c'.pbftView = c.pbftView ∧ c'.viewPrepared = c.viewPrepared ∨
      c.pbftView < c'.pbftView ∧ c'.viewPrepared = false)
    (hsent : ∀ dst m, (dst, .pbftCommit m) ∈ c'.sent → (dst, .pbftCommit m) ∈ c.sent) :
    c'.OneCommit where
  prepares i m hm := (hc.prepares i m (hprepares ▸ hm)).trans hround
  prepared hp := by
    rcases hview with ⟨-, hsame⟩ | ⟨-, hnot⟩
    · rw [hprepared]
      exact (hc.prepared (hsame ▸ hp)).trans hround
    · rw [hnot] at hp
      cases hp
  sent dst m hm := by
    rcases hview with ⟨hsame, hprep⟩ | ⟨hlt, -⟩
    · rw [hsame, hprep, hprepared]
      exact hc.sent dst m (hsent dst m hm)
    · rcases hc.sent dst m (hsent dst m hm) with hold | ⟨hcur, -⟩
      · exact .inl (hold.trans hlt)
      · exact .inl (hcur ▸ hlt)
  unique dst dst' m m' hm hm' := hc.unique dst dst' m m' (hsent dst m hm) (hsent dst' m' hm')

/-- A message that is no commit is sent. -/
lemma mem_sent_of_send {dst dst' : Dest} {msg : Msg} {m : PBFTCommit}
    (hmsg : ∀ m, msg ≠ .pbftCommit m) (h : (dst', .pbftCommit m) ∈ (c.send dst msg).sent) :
    (dst', .pbftCommit m) ∈ c.sent := by
  rcases List.mem_append.mp h with h | h
  · exact h
  · cases List.mem_singleton.mp h
    exact absurd rfl (hmsg m)

/-- A prepared proposal has a round that is not ahead. -/
lemma proposal_le {cfg : Config} (hc : c.OneCommit) {round : ℕ}
    (hquorum : cfg.quorumSize ≤ c.numPrepares round) : round ≤ c.round := by
  have hpos : 0 < c.numPrepares round := lt_of_lt_of_le (by simp [Config.quorumSize]) hquorum
  obtain ⟨⟨i, m⟩, hm⟩ := List.exists_mem_of_length_pos hpos
  obtain ⟨hmem, hmatch⟩ := List.mem_filter.mp hm
  have hround : m.round = round := by
    have heq := of_decide_eq_true hmatch
    exact congrArg Prod.fst heq
  rw [← hround]
  exact hc.prepares i m (Std.ExtTreeMap.mem_toList_iff_getElem?_eq_some.mp hmem)

variable {A : Type} [Application A] [Sha256] [PaddedRequestData] {r₀ : Replica A} {cfg : Config}
  {e : ReplicaEvent}

/-- **Every step keeps the invariant.**  In a view that is prepared, a replica prepares a
proposal of its own round only, and of none that it has been prepared for. -/
lemma step (hk : r₀.KeepsRound cfg e) (he : e.InRange) (hrange : c.InRange) (hc : c.OneCommit)
    (h : Step cfg r₀ e c c') : c'.OneCommit := by
  have hle := h.le hk he hrange
  cases h with
  | startRepair =>
      exact hc.congr rfl le_rfl rfl (.inl ⟨rfl, rfl⟩) fun _ _ => mem_sent_of_send (by simp)
  | @changeView v m hv =>
      refine hc.congr rfl le_rfl rfl (.inr ⟨?_, rfl⟩) fun _ _ => mem_sent_of_send (by simp)
      rcases hv with hlt | ⟨⟨now, hnow, htimeout⟩, hsame, rfl⟩
      · exact hlt
      · have hlast := hk.lastView now hnow htimeout
        show c.pbftView < (c.pbftView + 1) % 2 ^ 32
        rw [Nat.mod_eq_of_lt (by omega)]
        exact Nat.lt_succ_self _
  | proposeAgain =>
      exact hc.congr rfl le_rfl rfl (.inl ⟨rfl, rfl⟩) fun _ _ => mem_sent_of_send (by simp)
  | propose =>
      exact hc.congr rfl le_rfl rfl (.inl ⟨rfl, rfl⟩) fun _ _ => mem_sent_of_send (by simp)
  | storeStart => exact hc.congr rfl le_rfl rfl (.inl ⟨rfl, rfl⟩) fun _ _ => id
  | accept =>
      exact hc.congr rfl le_rfl rfl (.inl ⟨rfl, rfl⟩) fun _ _ => mem_sent_of_send (by simp)
  | @storePrepare now m sig _ _ hround =>
      refine ⟨fun i m' hm' => ?_, hc.prepared, hc.sent, hc.unique⟩
      rcases OrderedMap.getElem?_insert_cases hm' with ⟨-, rfl⟩ | ⟨-, hold⟩
      · exact hround
      · exact hc.prepares i m' hold
  | @prepared now m sig proposal logDigest _ hp hguard hquorum =>
      have hround := hc.proposal_le hquorum
      -- an earlier commit of this view is of an earlier round
      have hold : ∀ dst m, (dst, .pbftCommit m) ∈ c.sent → m.pbftView = c.pbftView →
          m.round < proposal.round := by
        intro dst m hm hview
        rcases hc.sent dst m hm with hlt | ⟨-, hprep, hle⟩
        · omega
        · obtain ⟨hne, hge⟩ := hguard hprep
          have hprepared := hc.prepared hprep
          omega
      refine ⟨hc.prepares, fun _ => hround, fun dst m hm => ?_,
        fun dst dst' m m' hm hm' hr hv => ?_⟩
      · rcases List.mem_append.mp hm with hm | hm
        · rcases hc.sent dst m hm with hlt | ⟨hcur, -⟩
          · exact .inl hlt
          · exact .inr ⟨hcur, rfl, (hold dst m hm hcur).le⟩
        · cases List.mem_singleton.mp hm
          exact .inr ⟨rfl, rfl, le_rfl⟩
      · rcases List.mem_append.mp hm with hm | hm <;> rcases List.mem_append.mp hm' with hm' | hm'
        · exact hc.unique dst dst' m m' hm hm' hr hv
        · cases List.mem_singleton.mp hm'
          exact absurd hr (hold dst m hm hv).ne
        · cases List.mem_singleton.mp hm
          exact absurd hr.symm (hold dst' m' hm' hv.symm).ne
        · cases List.mem_singleton.mp hm
          cases List.mem_singleton.mp hm'
          rfl
  | storeCommit => exact hc.congr rfl le_rfl rfl (.inl ⟨rfl, rfl⟩) fun _ _ => id
  | setRound => exact hc.congr rfl hle.1 rfl (.inl ⟨rfl, rfl⟩) fun _ _ => id
  | finish =>
      have hc' : OneCommit { c with round := (c.round + 1) % 2 ^ 32 } :=
        hc.congr rfl hle.1 rfl (.inl ⟨rfl, rfl⟩) fun _ _ => id
      exact ⟨fun i m hm => by simp at hm, hc'.prepared, hc'.sent, hc'.unique⟩
  | align => exact hc.congr rfl hle.1 rfl (.inl ⟨rfl, rfl⟩) fun _ _ => id

lemma steps (hk : r₀.KeepsRound cfg e) (he : e.InRange) (hrange : c.InRange) (hc : c.OneCommit)
    (h : Steps cfg r₀ e c c') : c'.OneCommit := by
  induction h with
  | refl => exact hc
  | tail hsteps hstep ih => exact ih.step hk he (Steps.le hk he hrange hsteps).2.2 hstep

end OneCommit

end Core

namespace Replica

section

variable {A : Type} [Application A] [Sha256] [PaddedRequestData] [SignatureProvider]
  {cfg : Config} {i : ℕ} {app : A} {es : List ReplicaEvent} {r : Replica A}

/-- In a run in which the round and the view do not go back, the invariant holds. -/
lemma run_oneCommit (h : Run (system cfg i app) (fun _ r e => r.KeepsRound cfg e) es r) :
    r.core.InRange ∧ r.core.OneCommit := by
  refine h.invariant (P := fun _ r => r.core.InRange ∧ r.core.OneCommit) ?_ ?_
  · rintro s rfl
    refine ⟨⟨Nat.one_pos, Nat.one_lt_two_pow (by decide), by simp [core, fresh]⟩,
      ⟨by simp [core, fresh], fun _ => Nat.zero_le 1, by simp [core, fresh], by simp [core, fresh]⟩⟩
  · rintro _ s e s' - ⟨hrange, hone⟩ hk ⟨-, he, hstep⟩
    have hsteps := handle_core hstep
    exact ⟨(hsteps.le hk he hrange).2.2, hone.steps hk he hrange hsteps⟩

/-- **A replica commits to one proposal at most for each round and view**, as long as its round
and its view do not go back. -/
theorem one_commit_per_view
    (h : Run (system cfg i app) (fun _ r e => r.KeepsRound cfg e) es r) {dst dst' : Dest}
    {m m' : PBFTCommit} (hm : (dst, .pbftCommit m) ∈ r.sent)
    (hm' : (dst', .pbftCommit m') ∈ r.sent) (hround : m.round = m'.round)
    (hview : m.pbftView = m'.pbftView) : m.proposalDigest = m'.proposalDigest :=
  (run_oneCommit h).2.unique dst dst' m m' (List.mem_filter.mpr ⟨hm, rfl⟩)
    (List.mem_filter.mpr ⟨hm', rfl⟩) hround hview

/-- A run that makes progress keeps the round. -/
lemma run_keepsRound (h : Run (system cfg i app) (fun _ r e => r.Progresses cfg e) es r) :
    Run (system cfg i app) (fun _ r e => r.KeepsRound cfg e) es r := by
  induction h with
  | start hinit => exact .start hinit
  | step hrun hp hstep ih => exact ih.step (hp.keepsRound (run_inRange hrun)) hstep

end

/-! ### Runs -/

section

attribute [local instance] prefixSha shortPaddedRequestData counterWire fourKeys

/-- The commits that a replica has sent. -/
def commitsSent {A : Type} (r : Replica A) : List PBFTCommit :=
  r.sent.filterMap fun x => match x with
    | (.replicas, .pbftCommit m) => some m
    | _ => none

lemma mem_commitsSent {A : Type} {r : Replica A} {m : PBFTCommit} (h : m ∈ r.commitsSent) :
    (.replicas, .pbftCommit m) ∈ r.sent := by
  obtain ⟨x, hx, hm⟩ := List.mem_filterMap.mp h
  split at hm
  · cases hm
    exact hx
  · cases hm

/-- A replica that is prepared for the proposal of the first round has committed to it only. -/
theorem one_commit_first : ∃ (r : Replica Counter) (m₀ : PBFTCommit),
    Run (system .oneFault 1 {}) (fun _ r e => r.KeepsRound .oneFault e) firstRoundEvents r ∧
    (.replicas, .pbftCommit m₀) ∈ r.sent ∧ ∀ dst m, (dst, .pbftCommit m) ∈ r.sent →
      m.round = m₀.round → m.pbftView = m₀.pbftView → m.proposalDigest = m₀.proposalDigest := by
  have hsome : ∃ r, firstRoundEvents.foldlM
        (fun r e => if r.InOrder e then r.handle .oneFault e else .error .assertion)
        (fresh 1 ({} : Counter)) = .ok r ∧ r.commitsSent ≠ [] := by
    decide +kernel
  obtain ⟨r, hfold, hsent⟩ := hsome
  obtain ⟨m₀, hm₀⟩ := List.exists_mem_of_ne_nil _ hsent
  have hrun : Run (system .oneFault 1 ({} : Counter)) (fun _ r e => r.Progresses .oneFault e)
      ([] ++ firstRoundEvents) r :=
    run_of_foldlM (.start rfl) (verified_of_mem (.inl rfl)) (fun _ _ _ h => h.progresses) hfold
  have hrun' := run_keepsRound hrun
  exact ⟨r, m₀, hrun', mem_commitsSent hm₀, fun dst m hm hround hview =>
    one_commit_per_view hrun' hm (mem_commitsSent hm₀) hround hview⟩

/-- The rounds zero and one, after the round has gone back. -/
def againEvents : List ReplicaEvent :=
  commitOf (emptyProposal 1 [0, 1, 2]) 3 ::
    prePrepareOf 0 (emptyProposal 0 [0, 1, 3]) :: preparesOf (emptyProposal 0 [0, 1, 3]) ++
    [1, 2, 3].map (commitOf (emptyProposal 0 [0, 1, 3])) ++
    prePrepareOf 1 (emptyProposal 1 [0, 1, 3]) :: preparesOf (emptyProposal 1 [0, 1, 3])

/-- **Two commits in one round and view**: the round has gone back, and another proposal is
prepared for the first round. -/
theorem two_commits_again : ∃ (r : Replica Counter) (m m' : PBFTCommit),
    Run (system .oneFault 1 {}) anyStep (lastRoundEvents ++ againEvents) r ∧
    (.replicas, .pbftCommit m) ∈ r.sent ∧ (.replicas, .pbftCommit m') ∈ r.sent ∧
    m.round = m'.round ∧ m.pbftView = m'.pbftView ∧ m.proposalDigest ≠ m'.proposalDigest := by
  have hsome : ∃ r, (lastRoundEvents ++ againEvents).foldlM
        (fun r e => if True then r.handle .oneFault e else .error .assertion)
        (fresh 1 ({} : Counter)) = .ok r ∧
      ∃ m ∈ r.commitsSent, ∃ m' ∈ r.commitsSent, m.round = m'.round ∧
        m.pbftView = m'.pbftView ∧ m.proposalDigest ≠ m'.proposalDigest := by
    decide +kernel
  obtain ⟨r, hfold, m, hm, m', hm', hround, hview, hne⟩ := hsome
  have hrun : Run (system .oneFault 1 ({} : Counter)) anyStep
      ([] ++ (lastRoundEvents ++ againEvents)) r :=
    run_of_foldlM (P := fun _ _ => True) (.start rfl) (by decide +kernel)
      (fun _ _ _ _ => trivial) hfold
  exact ⟨r, m, m', hrun, mem_commitsSent hm, mem_commitsSent hm', hround, hview, hne⟩

end

end Replica

end DomBft
