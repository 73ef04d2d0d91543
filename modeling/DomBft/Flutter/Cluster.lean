import DomBft.Lib.Run
import DomBft.Flutter

/-!
The replicas of Flutter, some of them Byzantine, over links that keep the order of messages.

* `FlutterReplica.link`: what a replica has sent to another one, oldest first.
* `FlutterCluster`: the replicas, what their clocks have shown, and how much of every link has
  been received.
* `FlutterCluster.next`, `flutterSystem`: one action somewhere in the cluster.
-/

namespace DomBft

open Fallible Transition

/-- Whether a message to this destination reaches a replica. -/
def FlutterDest.reaches : FlutterDest → ℕ → Bool
  | .replicas, _ => true
  | .replica id, i => id = i
  | .client _, _ => false

/-- A message, if its destination reaches the replica. -/
def onLink (i : ℕ) (x : FlutterDest × FlutterMsg) : Option FlutterMsg :=
  if x.1.reaches i then some x.2 else none

/-- The messages for a replica, oldest first. -/
def FlutterReplica.link (r : FlutterReplica) (i : ℕ) : List FlutterMsg :=
  r.sent.filterMap (onLink i)

/-- The cluster. -/
structure FlutterCluster where
  replicas : ℕ → FlutterReplica
  /-- the time a replica has last read on its clock -/
  time : ℕ → ℕ
  /-- `received i j` is the number of messages of replica `j` that replica `i` has received -/
  received : ℕ → ℕ → ℕ

/-- Where an action comes from. -/
inductive FlutterSource where
  | client (request : FlutterClientRequest)
  /-- the next message on the link from a replica -/
  | link (src : ℕ)
  /-- any message of a faulty replica, which signs it with its name -/
  | faulty (src : ℕ) (msg : FlutterMsg)
  | timer
deriving DecidableEq, Repr

/-- An action at a replica, with the time on its clock. -/
structure FlutterAction where
  replica : ℕ
  now : ℕ
  source : FlutterSource
deriving DecidableEq, Repr

/-- The numbers of a request are those of its fields. -/
def FlutterClientRequest.InRange (request : FlutterClientRequest) : Prop :=
  request.clientId < 2 ^ 32 ∧ request.clientSeq < 2 ^ 32 ∧ request.bet < 2 ^ 64

instance FlutterClientRequest.decidableInRange (request : FlutterClientRequest) :
    Decidable request.InRange :=
  inferInstanceAs (Decidable (_ ∧ _))

/-- The numbers of a message are those of its fields. -/
def FlutterMsg.InRange : FlutterMsg → Prop
  | .time localTime => localTime < 2 ^ 64
  | .observe request => request.InRange
  | .rbcProposal key _ | .rbcSlowProposal key _ | .rbcSlowValue key _ =>
    key.1 < 2 ^ 64 ∧ key.2.1 < 2 ^ 32 ∧ key.2.2 < 2 ^ 32
  | .reply _ => True

instance FlutterMsg.decidableInRange : DecidablePred FlutterMsg.InRange := fun msg => by
  cases msg <;> unfold FlutterMsg.InRange <;> infer_instance

/-- The action is one at a correct replica: messages of correct replicas come over their links,
and those of a faulty replica name it as the sender. -/
def FlutterAction.Allowed (cfg : FlutterConfig) (F : Finset ℕ) (a : FlutterAction) : Prop :=
  a.replica < cfg.numReplicas ∧ a.replica ∉ F ∧ a.now < 2 ^ 64 ∧
    match a.source with
    | .client request => request.InRange
    | .link src => src < cfg.numReplicas ∧ src ∉ F
    | .faulty src msg => src < cfg.numReplicas ∧ src ∈ F ∧ msg.InRange
    | .timer => True

instance FlutterAction.decidableAllowed (cfg : FlutterConfig) (F : Finset ℕ) :
    DecidablePred (FlutterAction.Allowed cfg F) :=
  fun a => by
    rcases a with ⟨i, now, source⟩
    cases source <;> unfold FlutterAction.Allowed <;> infer_instance

namespace FlutterCluster

/-- The cluster at first, where a replica has read its clock twice. -/
def fresh (clock : ℕ → ℕ × ℕ) : FlutterCluster where
  replicas i := .fresh i (clock i).1 (clock i).2
  time i := (clock i).2
  received _ _ := 0

/-- What an action brings to a replica; nothing if its link has no further message. -/
def input (c : FlutterCluster) (i : ℕ) : FlutterSource → Option FlutterInput
  | .client request => some (.request request)
  | .link src => ((c.replicas src).link i)[c.received i src]?.map (.message src)
  | .faulty src msg => some (.message src msg)
  | .timer => some .clock

/-- The number of messages received, after an action. -/
def receive (c : FlutterCluster) (a : FlutterAction) : ℕ → ℕ → ℕ :=
  match a.source with
  | .link src => Function.update c.received a.replica
    (Function.update (c.received a.replica) src (c.received a.replica src + 1))
  | _ => c.received

/-- One action. -/
def next (cfg : FlutterConfig) (c : FlutterCluster) (a : FlutterAction) :
    Except Fault FlutterCluster :=
  match c.input a.replica a.source with
  | none => .ok c
  | some e => do
    let r ← (c.replicas a.replica).handle cfg a.now e
    pure
      { replicas := Function.update c.replicas a.replica r
        time := Function.update c.time a.replica a.now
        received := c.receive a }

variable {cfg : FlutterConfig} {c c' : FlutterCluster} {a : FlutterAction}

/-- The replica has sent the message. -/
def Said (c : FlutterCluster) (j : ℕ) (m : FlutterMsg) : Prop :=
  ∃ d, (d, m) ∈ (c.replicas j).sent

/-- The message that comes in is the next one on the link. -/
lemma input_link {i src : ℕ} {e : FlutterInput} (h : c.input i (.link src) = some e) :
    ∃ msg, ((c.replicas src).link i)[c.received i src]? = some msg ∧ e = .message src msg := by
  obtain ⟨msg, hget, heq⟩ := Option.map_eq_some_iff.mp h
  exact ⟨msg, hget, heq.symm⟩

/-- What an action does to a replica, and what it leaves alone. -/
lemma next_cases (h : c.next cfg a = .ok c') : c' = c ∨
    ∃ e r, c.input a.replica a.source = some e ∧
      (c.replicas a.replica).handle cfg a.now e = .ok r ∧ c' =
        { replicas := Function.update c.replicas a.replica r
          time := Function.update c.time a.replica a.now
          received := c.receive a } := by
  rw [next] at h
  split at h
  · cases h
    exact .inl rfl
  · rename_i e he
    obtain ⟨r, hr, h⟩ := bind_eq_ok.mp h
    exact .inr ⟨e, r, he, hr, (pure_eq_ok.mp h).symm⟩

end FlutterCluster

/-- The runs of a cluster with the faulty replicas `F`. -/
def flutterSystem (cfg : FlutterConfig) (F : Finset ℕ) (clock : ℕ → ℕ × ℕ) :
    System FlutterCluster FlutterAction where
  init c := c = .fresh clock
  step c a c' := a.Allowed cfg F ∧ c.next cfg a = .ok c'

/-- A run from a list of actions, each taken under a condition that can be checked. -/
lemma FlutterCluster.run_of_foldlM {cfg : FlutterConfig} {F : Finset ℕ} {clock : ℕ → ℕ × ℕ}
    {G : List FlutterAction → FlutterCluster → FlutterAction → Prop}
    {P : FlutterCluster → FlutterAction → Prop} [∀ c a, Decidable (P c a)]
    {as as' : List FlutterAction} {c c' : FlutterCluster}
    (hc : Run (flutterSystem cfg F clock) G as c) (has : ∀ a ∈ as', a.Allowed cfg F)
    (hG : ∀ as c a, P c a → G as c a)
    (h : as'.foldlM (fun c a => if P c a then c.next cfg a else .error .assertion) c = .ok c') :
    Run (flutterSystem cfg F clock) G (as ++ as') c' := by
  induction as' generalizing as c with
  | nil =>
      cases pure_eq_ok.mp h
      rwa [List.append_nil]
  | cons a as' ih =>
      obtain ⟨c₁, hnext, h⟩ := bind_eq_ok.mp (List.foldlM_cons.symm.trans h)
      split_ifs at hnext with hP
      have hc₁ := hc.step (hG as c a hP) ⟨has a List.mem_cons_self, hnext⟩
      have hrest := ih hc₁ (fun a' ha' => has a' (List.mem_cons_of_mem a ha')) h
      rwa [List.append_assoc] at hrest

/-- A replica receives several messages over one link. -/
def reads (i now src count : ℕ) : List FlutterAction :=
  List.replicate count { replica := i, now, source := .link src }

/-- Six replicas, one of which may fail, and one client. -/
def FlutterConfig.sixReplicas : FlutterConfig :=
  { numReplicas := 6, numClients := 1, clockBroadcastInterval := 1 }

end DomBft
