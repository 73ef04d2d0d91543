import DomBft.Replica.LogSteps

/-!
Progress: the round and the view of a replica, and its committed position.

* `KeepsRound`: the conditions under which an event does not take the round or the view back;
  `Core.Step.round_le` and `Core.Step.le` are the step lemmas.
* `Progresses`: the proposal of a repair that is finished is of its round, and a snapshot does
  not take the committed position back either; `Decided` is a repair that a quorum of commits
  has decided, until it is finished.
* `progress`: under these conditions, the round, the view and the committed position never go
  back, and a repair that has been decided for a round ends in the next one.
* `lastRoundEvents`: a run in which the round goes back.
-/

namespace DomBft

open Fallible
open Transition

section

variable {A : Type} [Application A] [Sha256] [PaddedRequestData]

/-- What keeps the round and the view of a replica from going back: where it tries to finish a
repair once more, the proposal is not from before the last round; no repair is finished in the
last round there is, and no view times out in the last view. -/
structure Replica.KeepsRound (cfg : Config) (r : Replica A) (e : ReplicaEvent) : Prop where
  proposalRound : ∀ r₁ proposal, r.CallsTryFinish cfg e r₁ → r.repairProposal = some proposal →
    r.round ≤ proposal.round + 1
  lastRound : ∀ r₂ aborted, r.CallsFinish cfg e r₂ aborted → r₂.round < 2 ^ 32 - 1
  lastView : ∀ now, e = .timeouts now → r.ViewTimedOut cfg now → r.pbftView < 2 ^ 32 - 1

namespace Core

/-- The round is a positive `uint32_t`, and that of the proposal is a `uint32_t`. -/
structure InRange (c : Core) : Prop where
  pos : 0 < c.round
  lt : c.round < 2 ^ 32
  proposal : ∀ p, c.repairProposal = some p → p.round < 2 ^ 32

variable {r₀ : Replica A} {cfg : Config} {e : ReplicaEvent} {c c' : Core}

/-- **No step takes the round back**, unless a repair is finished once more or the rounds run
out. -/
lemma Step.round_le
    (hproposal : ∀ r₁ proposal, r₀.CallsTryFinish cfg e r₁ →
      r₀.repairProposal = some proposal → r₀.round ≤ proposal.round + 1)
    (hlast : ∀ r₂ aborted, r₀.CallsFinish cfg e r₂ aborted → r₂.round < 2 ^ 32 - 1)
    (he : e.InRange) (hc : c.InRange) (h : Step cfg r₀ e c c') :
    c.round ≤ c'.round ∧ c'.InRange := by
  cases h with
  | accept hmsg =>
      subst hmsg
      refine ⟨le_rfl, hc.pos, hc.lt, fun p hp => ?_⟩
      cases Option.some.inj hp
      exact he
  | @setRound r₁ proposal hcall hr₁ hp hround =>
      subst hr₁
      obtain ⟨hsame, hsome, -⟩ := hcall.same
      have hle := hproposal r₁ proposal hcall (hsome ▸ hp)
      have hsame' : r₁.core.round = r₀.round := hsame
      have hpos := hc.pos
      have hlt := hc.lt
      have hle' : r₁.core.round ≤ proposal.round := by omega
      exact ⟨hle', hpos.trans_le hle', hc.proposal _ hp, hc.proposal⟩
  | @finish r₂ aborted hcall hr₂ =>
      subst hr₂
      have hlt : r₂.core.round < 2 ^ 32 - 1 := hlast r₂ aborted hcall
      have hnext : (r₂.core.round + 1) % 2 ^ 32 = r₂.core.round + 1 :=
        Nat.mod_eq_of_lt (by omega)
      refine ⟨?_, ?_, ?_, by simp⟩
      · show r₂.core.round ≤ (r₂.core.round + 1) % 2 ^ 32
        omega
      · show 0 < (r₂.core.round + 1) % 2 ^ 32
        omega
      · show (r₂.core.round + 1) % 2 ^ 32 < 2 ^ 32
        omega
  | align hmsg =>
      subst hmsg
      exact ⟨le_max_left _ _, hc.pos.trans_le (le_max_left _ _), max_lt hc.lt he, hc.proposal⟩
  | _ => exact ⟨le_rfl, hc.pos, hc.lt, hc.proposal⟩

lemma Steps.round_le
    (hproposal : ∀ r₁ proposal, r₀.CallsTryFinish cfg e r₁ →
      r₀.repairProposal = some proposal → r₀.round ≤ proposal.round + 1)
    (hlast : ∀ r₂ aborted, r₀.CallsFinish cfg e r₂ aborted → r₂.round < 2 ^ 32 - 1)
    (he : e.InRange) (hc : c.InRange) (h : Steps cfg r₀ e c c') :
    c.round ≤ c'.round ∧ c'.InRange := by
  induction h with
  | refl => exact ⟨le_rfl, hc⟩
  | tail _ hstep ih =>
      obtain ⟨hround, hrange⟩ := hstep.round_le hproposal hlast he ih.2
      exact ⟨ih.1.trans hround, hrange⟩

/-- No step takes the view back, unless the views run out. -/
lemma Step.pbftView_le
    (hlast : ∀ now, e = .timeouts now → r₀.ViewTimedOut cfg now → r₀.pbftView < 2 ^ 32 - 1)
    (h : Step cfg r₀ e c c') : c.pbftView ≤ c'.pbftView := by
  cases h with
  | changeView hv =>
      rcases hv with hlt | ⟨⟨now, hnow, htimeout⟩, hsame, rfl⟩
      · exact hlt.le
      · have hlt := hlast now hnow htimeout
        show c.pbftView ≤ (c.pbftView + 1) % 2 ^ 32
        rw [Nat.mod_eq_of_lt (by omega)]
        exact Nat.le_succ _
  | _ => exact le_rfl

/-- **No step takes the round or the view back.** -/
lemma Step.le (hk : r₀.KeepsRound cfg e) (he : e.InRange) (hc : c.InRange)
    (h : Step cfg r₀ e c c') :
    c.round ≤ c'.round ∧ c.pbftView ≤ c'.pbftView ∧ c'.InRange := by
  obtain ⟨hround, hrange⟩ := h.round_le hk.proposalRound hk.lastRound he hc
  exact ⟨hround, h.pbftView_le hk.lastView, hrange⟩

/-- No event takes the round or the view back. -/
lemma Steps.le (hk : r₀.KeepsRound cfg e) (he : e.InRange) (hc : c.InRange)
    (h : Steps cfg r₀ e c c') :
    c.round ≤ c'.round ∧ c.pbftView ≤ c'.pbftView ∧ c'.InRange := by
  induction h with
  | refl => exact ⟨le_rfl, le_rfl, hc⟩
  | tail _ hstep ih =>
      obtain ⟨hround, hview, hrange⟩ := ih
      obtain ⟨hround', hview', hrange'⟩ := hstep.le hk he hrange
      exact ⟨hround.trans hround', hview.trans hview', hrange'⟩

end Core

/-! ### Repairs that are finished in their round -/

/-- What keeps a replica making progress: where it tries to finish a repair, the proposal is of
its round or has been applied in the round before; it is not in the last round when it finishes
one, nor in the last view when a view times out; and a snapshot that is used is not behind the
log. -/
structure Replica.Progresses (cfg : Config) (r : Replica A) (e : ReplicaEvent) : Prop where
  proposalOfRound : ∀ r₁ proposal, r.CallsTryFinish cfg e r₁ → r.repairProposal = some proposal →
    proposal.round = r.round ∨ proposal.round + 1 = r.round
  lastRound : ∀ r₂ aborted, r.CallsFinish cfg e r₂ aborted → r.round < 2 ^ 32 - 1
  lastView : ∀ now, e = .timeouts now → r.ViewTimedOut cfg now → r.pbftView < 2 ^ 32 - 1
  snapshotForward : ∀ now reply sig, e = .message now (.snapshotReply reply) sig →
    r.UsesSnapshot cfg reply → r.log.committedCheckpoint.seq ≤ reply.checkpoint.seq

/-- The round of a snapshot. -/
def ReplicaEvent.snapshotRound : ReplicaEvent → ℕ
  | .message _ (.snapshotReply m) _ => m.round
  | _ => 0

namespace Replica

variable {r r₁ r₂ r' : Replica A} {cfg : Config} {e : ReplicaEvent} {now : ℕ}
  {aborted : List ClientRequestProto}

/-- The round in which `finishRepair` is called is the one at the start of the event. -/
lemma Progresses.round_eq (hp : r.Progresses cfg e) (hrange : r.core.InRange)
    (h : r.CallsFinish cfg e r₂ aborted) : r₂.round = r.round := by
  cases h with
  | @tried _ r₁ _ _ hcall happly =>
      obtain ⟨hround, hproposal, -⟩ := hcall.same
      obtain ⟨suffix, proposal, -, hsome, ⟨-, aborted', -, rfl, -⟩ | ⟨hne, hrest⟩⟩ :=
        tryApply_cases happly
      · exact hround
      -- the round becomes that of the proposal, which is not the one before
      have hnew : proposal.round = r.round := by
        rw [hproposal] at hsome
        rw [hround] at hne
        have hlt := hrange.proposal proposal hsome
        rcases hp.proposalOfRound r₁ proposal hcall hsome with heq | heq
        · exact heq
        · omega
      rw [← hnew]
      rcases hrest with ⟨aborted', -, -, happly⟩ | ⟨hres, -⟩
      · obtain ⟨log, missing, -, ⟨-, rfl, -⟩ | ⟨ids, -, -, hres⟩⟩ := applyProposal_cases happly
        · rfl
        · cases hres
      · cases hres
  | snapshot _ _ _ happly => exact congrArg Core.round (applySnapshot_core happly)

lemma Progresses.keepsRound (hp : r.Progresses cfg e) (hrange : r.core.InRange) :
    r.KeepsRound cfg e where
  proposalRound r₁ proposal hcall hsome := by
    rcases hp.proposalOfRound r₁ proposal hcall hsome with heq | heq
    · omega
    · omega
  lastRound r₂ aborted hcall := by
    rw [hp.round_eq hrange hcall]
    exact hp.lastRound r₂ aborted hcall
  lastView := hp.lastView

/-- A replica goes to the next round when it finishes a repair. -/
lemma finishRepair_round (h : r.finishRepair cfg now aborted = .ok r') :
    r'.round = (r.round + 1) % 2 ^ 32 := by
  obtain ⟨suffix, r₃, r₄, hq₃, -, hq₄, -, hend⟩ := finishRepair_cases h
  have hround₃ : r₃.round = (r.round + 1) % 2 ^ 32 := congrArg Core.round hq₃.core_eq
  have hround₄ : r₄.round = r₃.round := congrArg Core.round hq₄.core_eq
  rw [← hround₃, ← hround₄]
  rcases hend with ⟨-, rfl⟩ | ⟨-, hstart⟩
  · rfl
  · obtain ⟨-, m, -, -, -, -, rfl⟩ := startRepair_eq hstart
    rfl

/-- The round after a repair that has been finished. -/
lemma Progresses.finish_round (hp : r.Progresses cfg e) (hrange : r.core.InRange)
    (hcall : r.CallsFinish cfg e r₂ aborted) (h : r.handle cfg e = .ok r') :
    r'.round = max (r.round + 1) e.snapshotRound := by
  have hlast := hp.lastRound r₂ aborted hcall
  have hround := hp.round_eq hrange hcall
  have hnext : ∀ {r₃ : Replica A} {now : ℕ}, r₂.finishRepair cfg now aborted = .ok r₃ →
      r₃.round = r.round + 1 := by
    intro r₃ now hfinish
    rw [finishRepair_round hfinish, hround]
    exact Nat.mod_eq_of_lt (by omega)
  cases hcall with
  | tried htry happly =>
      obtain ⟨now, hhandle⟩ := htry.handle_eq
      rw [hhandle] at h
      obtain ⟨⟨r₃, res⟩, happly', h⟩ := bind_eq_ok.mp h
      rw [happly] at happly'
      cases happly'
      rw [hnext h]
      cases htry <;> rfl
  | snapshot hold hahead hrepair happly =>
      rw [handle, process, processSnapshotReply, if_neg hold.not_gt, if_neg hahead.not_ge,
        if_pos hrepair] at h
      obtain ⟨⟨r₃, res⟩, happly', h⟩ := bind_eq_ok.mp h
      rw [happly] at happly'
      cases happly'
      obtain ⟨r₄, hfinish, h⟩ := bind_eq_ok.mp h
      cases pure_eq_ok.mp h
      rw [← hnext hfinish]
      rfl

/-- The round stays where no repair is finished and no snapshot of a later round is used. -/
lemma Progresses.round_stays (hp : r.Progresses cfg e) (hrange : r.core.InRange)
    (hno : ∀ r₂ aborted, ¬r.CallsFinish cfg e r₂ aborted) (hsnap : e.snapshotRound ≤ r.round)
    {c : Core} (h : Core.Steps cfg r e r.core c) : c.round = r.round := by
  induction h with
  | refl => rfl
  | @tail c c' _ hstep ih =>
      cases hstep with
      | @setRound r₁ proposal hcall hr₁ hsome hne =>
          subst hr₁
          have hsome' : r₁.repairProposal = some proposal := hsome
          have hround : r₁.core.round = r.round := hcall.same.1
          rw [hcall.same.2.1] at hsome'
          have hlt := hrange.proposal proposal hsome'
          show proposal.round = r.round
          rcases hp.proposalOfRound r₁ proposal hcall hsome' with heq | heq
          · exact heq
          · omega
      | finish hcall => exact absurd hcall (hno _ _)
      | align hmsg =>
          subst hmsg
          show max c.round _ = r.round
          rw [ih]
          exact max_eq_left hsnap
      | _ => exact ih

section

variable [SignatureProvider] {i : ℕ} {app : A} {es es' : List ReplicaEvent}

/-- A replica has received a quorum of commits for the round `d`, with the event `e` or before;
it has not finished the repair since, nor used a snapshot of a later round. -/
inductive Decided (cfg : Config) (i : ℕ) (app : A) (d : ℕ) :
    List ReplicaEvent → Replica A → ReplicaEvent → Prop
  | commits {es : List ReplicaEvent} {r r₁ : Replica A} {now : ℕ} {m : PBFTCommit} {sig : Bytes} :
      Run (system cfg i app) (fun _ r e => r.Progresses cfg e) es r →
      r.CallsTryFinish cfg (.message now (.pbftCommit m) sig) r₁ → m.round = d →
      Decided cfg i app d es r (.message now (.pbftCommit m) sig)
  | waits {es : List ReplicaEvent} {r r' : Replica A} {e e' : ReplicaEvent} :
      Decided cfg i app d es r e → r.Progresses cfg e → (system cfg i app).step r e r' →
      (∀ r₂ aborted, ¬r.CallsFinish cfg e r₂ aborted) → e.snapshotRound ≤ r.round →
      Decided cfg i app d (es ++ [e]) r' e'

lemma run_inRange (h : Run (system cfg i app) (fun _ r e => r.Progresses cfg e) es r) :
    r.core.InRange := by
  refine h.invariant (P := fun _ r => r.core.InRange) ?_ ?_
  · rintro s rfl
    exact ⟨Nat.one_pos, Nat.one_lt_two_pow (by decide), by simp [core, fresh]⟩
  · rintro _ s e s' - hrange hp ⟨-, he, hstep⟩
    exact ((handle_core hstep).le (hp.keepsRound hrange) he hrange).2.2

/-- While a decided repair waits, the replica is in its round. -/
lemma Decided.round_eq {d : ℕ} (h : Decided cfg i app d es r e) :
    Run (system cfg i app) (fun _ r e => r.Progresses cfg e) es r ∧ r.round = d := by
  induction h with
  | commits hrun hcall hm =>
      cases hcall with
      | committed _ hround => exact ⟨hrun, hround.symm.trans hm⟩
  | waits _ hp hstep hno hsnap ih =>
      obtain ⟨hrun, hround⟩ := ih
      refine ⟨hrun.step hp hstep, ?_⟩
      have hstays := hp.round_stays (run_inRange hrun) hno hsnap (handle_core hstep.2.2)
      exact hstays.trans hround

/-- **Progress.**  As long as repairs are finished with a proposal of their round and snapshots
that are used are not behind the log, the round, the view and the committed position never go
back.  A repair that has been decided for a round ends in the next one, or in that of the
snapshot that ended it if it is a later one. -/
theorem progress :
    (∀ es r es' r', Run (system cfg i app) (fun _ r e => r.Progresses cfg e) es r →
      Later (system cfg i app) (fun _ r e => r.Progresses cfg e) es r es' r' →
      r.round ≤ r'.round ∧ r.pbftView ≤ r'.pbftView ∧
        r.log.committedCheckpoint.seq ≤ r'.log.committedCheckpoint.seq) ∧
    ∀ d es r e r₂ aborted r', Decided cfg i app d es r e → r.Progresses cfg e →
      (system cfg i app).step r e r' → r.CallsFinish cfg e r₂ aborted →
      r'.round = max (d + 1) e.snapshotRound := by
  refine ⟨fun es r es' r' hrun hlater => ?_,
    fun d es r e r₂ aborted r' hdecided hp hstep hcall => ?_⟩
  · induction hlater with
    | refl => exact ⟨le_rfl, le_rfl, le_rfl⟩
    | step hlater hp hstep ih =>
        obtain ⟨hround, hview, hseq⟩ := ih
        have hrange := run_inRange (hrun.later hlater)
        have hcore := (handle_core hstep.2.2).le (hp.keepsRound hrange) hstep.2.1 hrange
        have hlog := (handle_log hstep.2.2).committed_le hp.snapshotForward
        exact ⟨hround.trans hcore.1, hview.trans hcore.2.1, hseq.trans hlog⟩
  · obtain ⟨hrun, hround⟩ := hdecided.round_eq
    rw [hp.finish_round (run_inRange hrun) hcall hstep.2.2, hround]

end

end Replica

end

/-! ### A run -/

section

attribute [local instance] prefixSha shortPaddedRequestData counterWire fourKeys

/-- A proposal made of the empty logs that some replicas have sent in the first round, with a
round of its own. -/
def emptyProposal (round : ℕ) (ids : List ℕ) : RepairProposal where
  round
  startMsgs := ids.map fun i => { round := 1, replicaId := i, log? := some {} }
  signatures := ids.map fun i => [UInt8.ofNat i]

/-- The first primary proposes it in a round. -/
def prePrepareOf (round : ℕ) (p : RepairProposal) : ReplicaEvent :=
  .message 1 (.prePrepare { round, proposal := p, proposalDigest := getProposalDigest p }) [0]

/-- The other replicas prepare it. -/
def preparesOf (p : RepairProposal) : List ReplicaEvent :=
  [1, 2, 3].map fun i => .message 1 (.prepare {
    round := p.round, replicaId := i, proposalDigest := getProposalDigest p }) [UInt8.ofNat i]

/-- A replica commits to it. -/
def commitOf (p : RepairProposal) (i : ℕ) : ReplicaEvent :=
  .message 1 (.pbftCommit {
    round := p.round, replicaId := i, proposalDigest := getProposalDigest p }) [UInt8.ofNat i]

/-- The first round, up to the last commit: before the commits, the primary proposes the same
messages once more, with the last round there is. -/
def lastRoundEvents : List ReplicaEvent :=
  prePrepareOf 1 (emptyProposal 1 [0, 1, 2]) :: preparesOf (emptyProposal 1 [0, 1, 2]) ++
    prePrepareOf 1 (emptyProposal (2 ^ 32 - 1) [0, 1, 2]) ::
      [1, 2].map (commitOf (emptyProposal 1 [0, 1, 2]))

/-- A condition that can be checked, under which a replica makes progress: there is no proposal
of another round, neither round nor view is the last one, and no snapshot arrives. -/
def Replica.InOrder {A : Type} (r : Replica A) (e : ReplicaEvent) : Prop :=
  (∀ p ∈ r.repairProposal, p.round = r.round) ∧ r.round < 2 ^ 32 - 1 ∧ r.pbftView < 2 ^ 32 - 1 ∧
    (match e with | .message _ (.snapshotReply _) _ => false | _ => true) = true

instance {A : Type} (r : Replica A) (e : ReplicaEvent) : Decidable (r.InOrder e) :=
  inferInstanceAs (Decidable (_ ∧ _ ∧ _ ∧ _))

lemma Replica.InOrder.progresses {A : Type} [Application A] {cfg : Config} {r : Replica A}
    {e : ReplicaEvent} (h : r.InOrder e) : r.Progresses cfg e where
  proposalOfRound r₁ proposal _ hsome := .inl (h.1 proposal hsome)
  lastRound _ _ _ := h.2.1
  lastView _ _ _ := h.2.2.1
  snapshotForward now reply sig he := by
    subst he
    exact absurd h.2.2.2 Bool.false_ne_true

/-- The first round up to the last commit, with one proposal. -/
def firstRoundEvents : List ReplicaEvent :=
  prePrepareOf 1 (emptyProposal 1 [0, 1, 2]) :: preparesOf (emptyProposal 1 [0, 1, 2]) ++
    [1, 2].map (commitOf (emptyProposal 1 [0, 1, 2]))

/-- The events of both runs are verified. -/
lemma verified_of_mem {es : List ReplicaEvent}
    (hes : es = firstRoundEvents ∨ es = lastRoundEvents) :
    ∀ e ∈ es, e.Verified .oneFault ∧ e.InRange := by
  rcases hes with rfl | rfl
  · decide +kernel
  · decide +kernel

/-- A replica that gets the commits of all others goes from the first round to the second. -/
theorem progress_two : ∃ r r',
    Run (Replica.system .oneFault 1 ({} : Counter)) (fun _ r e => r.Progresses .oneFault e)
      firstRoundEvents r ∧
    (Replica.system .oneFault 1 ({} : Counter)).step r
      (commitOf (emptyProposal 1 [0, 1, 2]) 3) r' ∧
    r.pbftView ≤ r'.pbftView ∧ r'.round = 2 := by
  let m : PBFTCommit := {
    round := 1, replicaId := 3, proposalDigest := getProposalDigest (emptyProposal 1 [0, 1, 2]) }
  have hsome : ∃ r, firstRoundEvents.foldlM
        (fun r e => if r.InOrder e then r.handle .oneFault e else .error .assertion)
        (Replica.fresh 1 ({} : Counter)) = .ok r ∧
      (r.InOrder (commitOf (emptyProposal 1 [0, 1, 2]) 3) ∧ 0 = r.pbftView ∧ 1 = r.round ∧
        (r.repairPBFTCommits[3]?).isNone ∧ r.repairProposal.isSome ∧
        (∀ p ∈ r.repairProposal, 1 ≤ p.round) ∧ r.preparedRound = 1 ∧ r.viewPrepared = true ∧
        Config.oneFault.quorumSize ≤ (r.addPBFTCommit m [3]).countMatching
          (r.addPBFTCommit m [3]).repairPBFTCommits
          (fun m => (m.round, m.proposalDigest, m.pbftView)) r.preparedRound ∧
        (∃ x, (r.addPBFTCommit m [3]).tryApply .oneFault = .ok x ∧ x.2.isSome) ∧
        ∃ r', r.handle .oneFault (commitOf (emptyProposal 1 [0, 1, 2]) 3) = .ok r' ∧ True) := by
    decide +kernel
  obtain ⟨r, hfold, horder, hview, hround, hnone, hproposal, hle, hprep, hvp, hmany,
    ⟨⟨r₂, res⟩, happly, hres⟩, r', hhandle, -⟩ := hsome
  obtain ⟨proposal, hproposal⟩ := Option.isSome_iff_exists.mp hproposal
  obtain ⟨aborted, rfl⟩ := Option.isSome_iff_exists.mp hres
  have hrun : Run (Replica.system .oneFault 1 ({} : Counter))
      (fun _ r e => r.Progresses .oneFault e) ([] ++ firstRoundEvents) r :=
    Replica.run_of_foldlM (.start rfl) (verified_of_mem (.inl rfl))
      (fun _ _ _ h => Replica.InOrder.progresses h) hfold
  have hstep : (Replica.system .oneFault 1 ({} : Counter)).step r
      (commitOf (emptyProposal 1 [0, 1, 2]) 3) r' := ⟨by decide +kernel, by decide, hhandle⟩
  have hcall : r.CallsTryFinish .oneFault (.message 1 (.pbftCommit m) [3])
      (r.addPBFTCommit m [3]) := by
    refine .committed hview hround ?_ hproposal (hle proposal hproposal) ?_ hprep hvp hmany
    · have hempty : r.repairPBFTCommits[m.replicaId]? = none := by simpa using hnone
      rw [hempty]
      exact Bool.false_ne_true
    · rw [hprep]
      decide
  have hprogress := @Replica.progress Counter _ prefixSha shortPaddedRequestData .oneFault
    fourKeys 1 {}
  refine ⟨r, r', hrun, hstep, ?_, ?_⟩
  · exact (hprogress.1 _ r _ r' hrun (.step .refl horder.progresses hstep)).2.1
  · exact hprogress.2 1 _ r _ r₂ aborted r' (.commits hrun hcall rfl) horder.progresses hstep
      (.tried hcall happly)

/-- **The round goes back** where the proposal that has been prepared is replaced by one with the
same messages, and so the same digest, but the last round there is: the first round is decided,
and the next one is round zero. -/
theorem lastRound_back : ∃ r r',
    Run (Replica.system .oneFault 1 ({} : Counter)) anyStep lastRoundEvents r ∧
    (Replica.system .oneFault 1 ({} : Counter)).step r
      (commitOf (emptyProposal 1 [0, 1, 2]) 3) r' ∧ r.round = 1 ∧ r'.round = 0 := by
  have hsome : ∃ r, lastRoundEvents.foldlM
        (fun r e => if True then r.handle .oneFault e else .error .assertion)
        (Replica.fresh 1 ({} : Counter)) = .ok r ∧
      (r.round = 1 ∧ ∃ r', r.handle .oneFault (commitOf (emptyProposal 1 [0, 1, 2]) 3) =
        .ok r' ∧ r'.round = 0) := by
    decide +kernel
  obtain ⟨r, hfold, hround, r', hhandle, hround'⟩ := hsome
  have hrun : Run (Replica.system .oneFault 1 ({} : Counter)) anyStep ([] ++ lastRoundEvents) r :=
    Replica.run_of_foldlM (P := fun _ _ => True) (.start rfl) (verified_of_mem (.inr rfl))
      (fun _ _ _ _ => trivial) hfold
  exact ⟨r, r', hrun, ⟨by decide +kernel, by decide, hhandle⟩, hround, hround'⟩

end

end DomBft
