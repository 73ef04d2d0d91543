import DomBft.Lib.Fallible
import DomBft.Lib.Run
import DomBft.Replica.Pbft

/-!
`replica.cc`: the threads of a replica, as one transition system.

* `process`: `processMessagesThd`, the dispatch on the type of a message.
* `ReplicaEvent`, `handle`: what a replica takes from its queues, and what it does with it.  An
  event is `Verified` if it has passed the thread before; the requests with a deadline come
  from the receiver.
* `system`: the runs of one replica, on whatever has been verified, in whatever order.
-/

namespace DomBft

open Fallible

/-- What a replica takes from its queues, with the time. -/
inductive ReplicaEvent where
  | request (now deadline : ℕ) (m : ClientRequestProto)
  | message (now : ℕ) (msg : Msg) (sig : Bytes)
  | snapshot
  | timeouts (now : ℕ)
deriving DecidableEq, Repr

/-- `verifyMessagesThd`: the messages that are handed on. -/
def ReplicaEvent.Verified [SignatureProvider] [Sha256] (cfg : Config) : ReplicaEvent → Prop
  | .message _ msg sig => verifyMessage cfg msg sig = .ok true
  | _ => True

instance [SignatureProvider] [Sha256] (cfg : Config) (e : ReplicaEvent) :
    Decidable (e.Verified cfg) :=
  match e with
  | .message _ msg sig => inferInstanceAs (Decidable (verifyMessage cfg msg sig = .ok true))
  | .request .. | .snapshot | .timeouts _ => .isTrue trivial

/-- The round that a replica may take over from a message. -/
def ReplicaEvent.newRound : ReplicaEvent → ℕ
  | .message _ (.prePrepare m) _ => m.proposal.round
  | .message _ (.snapshotReply m) _ => m.round
  | _ => 0

/-- The rounds are `uint32_t`. -/
def ReplicaEvent.InRange (e : ReplicaEvent) : Prop := e.newRound < 2 ^ 32

instance (e : ReplicaEvent) : Decidable e.InRange :=
  inferInstanceAs (Decidable (e.newRound < 2 ^ 32))

namespace Replica

variable {A : Type} [Application A] [Sha256] [PaddedRequestData]

/-- `processMessagesThd`: the dispatch on the type of a message. -/
def process (cfg : Config) (now : ℕ) (r : Replica A) (msg : Msg) (sig : Bytes) :
    Except Fault (Replica A) :=
  match msg with
  | .clientRequest m => r.processClientRequest cfg now m
  | .cert m => r.processCert cfg m
  | .reply m => r.processReply cfg now m sig
  | .commit m => r.processCommit cfg now m sig
  | .snapshotRequest m => r.processSnapshotRequest cfg m
  | .snapshotReply m => r.processSnapshotReply cfg now m
  | .missingRequestFetch m => r.processMissingRequestFetch cfg m
  | .missingRequestReply m => r.processMissingRequestReply cfg now m
  | .repairTimeout m => r.processRepairTimeout cfg m sig
  | .repairReplyProof m => r.processRepairReplyProof cfg now m
  | .repairTimeoutProof m => r.processRepairTimeoutProof cfg now m
  | .repairStart m => .ok (r.processRepairStart cfg m sig)
  | .prePrepare m => r.processPrePrepare cfg m
  | .prepare m => r.processPrepare cfg m sig
  | .pbftCommit m => r.processPBFTCommit cfg now m sig
  | .viewUpdate m => r.updateReplicaView cfg now m.replicaId m.view m.round
  | .domRequest .. | .certReply _ | .committedReply _ | .repairSummary _ => .ok r

/-- A round of `processMessagesThd`. -/
def handle (cfg : Config) (r : Replica A) : ReplicaEvent → Except Fault (Replica A)
  | .request now deadline m => r.processDOMRequest cfg now deadline m
  | .message now msg sig => r.process cfg now msg sig
  | .snapshot =>
    match r.snapshotQueue with
    | [] => .ok r
    | (round, snapshot) :: queue =>
      { r with snapshotQueue := queue }.processSnapshot snapshot round
  | .timeouts now => r.checkTimeouts cfg now

/-- A replica of a deployment, on all events that have been verified. -/
def system [SignatureProvider] (cfg : Config) (replicaId : ℕ) (app : A) :
    Transition.System (Replica A) ReplicaEvent where
  init r := r = .fresh replicaId app
  step r e r' := e.Verified cfg ∧ e.InRange ∧ r.handle cfg e = .ok r'

/-- A run from a list of events, each taken under a condition that can be checked. -/
lemma run_of_foldlM [SignatureProvider] {cfg : Config} {replicaId : ℕ} {app : A}
    {G : List ReplicaEvent → Replica A → ReplicaEvent → Prop} {P : Replica A → ReplicaEvent → Prop}
    [∀ r e, Decidable (P r e)] {es es' : List ReplicaEvent} {r r' : Replica A}
    (hr : Transition.Run (system cfg replicaId app) G es r)
    (hes : ∀ e ∈ es', e.Verified cfg ∧ e.InRange) (hG : ∀ es r e, P r e → G es r e)
    (h : es'.foldlM (fun r e => if P r e then r.handle cfg e else .error .assertion) r = .ok r') :
    Transition.Run (system cfg replicaId app) G (es ++ es') r' := by
  refine hr.of_foldlM (fun es r e r' he hstep => ?_) h
  obtain ⟨hver, hrange⟩ := hes e he
  split_ifs at hstep with hP
  exact ⟨hG es r e hP, hver, hrange, hstep⟩

end Replica

end DomBft
