import DomBft.Basic

/-!
The part of `ProcessConfig` and `ConfigManager` that the protocol reads: the resilience
parameters, the intervals and switches of the replica and of the client, and the derived
values of `calculateDerivedValues`.
-/

namespace DomBft

/-- The configuration of a deployment. `WellFormed` is what `calculateDerivedValues`
asserts. -/
structure Config where
  f : ℕ
  e : ℕ
  /-- `replicaIps.size()` -/
  numReplicas : ℕ
  /-- `clientIps.size()` -/
  numClients : ℕ
  replicaCheckpointInterval : ℕ
  replicaSnapshotInterval : ℕ
  replicaCheckpointTimeout : ℕ
  replicaRepairViewTimeout : ℕ
  replicaIncludeFullRequests : Bool
  replicaSkipAlignment : Bool
  clientNormalPathEnabled : Bool
  clientSendProofs : Bool
deriving DecidableEq, Repr

namespace Config

variable (cfg : Config)

/-- `quorumSize_` -/
def quorumSize : ℕ := 2 * cfg.f + 2 * cfg.e + 1

/-- `superQuorumSize_` -/
def superQuorumSize : ℕ := 3 * cfg.f + cfg.e + 1

/-- The assertion of `calculateDerivedValues`. -/
def WellFormed : Prop := cfg.numReplicas = 3 * cfg.f + 2 * cfg.e + 1

instance : Decidable cfg.WellFormed := inferInstanceAs (Decidable (_ = _))

/-- Two quorums share a correct replica, whichever `f` replicas are faulty. -/
lemma quorum_overlap (h : cfg.WellFormed) :
    cfg.numReplicas + cfg.f < cfg.quorumSize + cfg.quorumSize := by
  simp only [WellFormed, quorumSize] at *
  omega

/-- Four replicas of which one may be faulty. -/
def oneFault : Config where
  f := 1
  e := 0
  numReplicas := 4
  numClients := 1
  replicaCheckpointInterval := 10
  replicaSnapshotInterval := 10
  replicaCheckpointTimeout := 10
  replicaRepairViewTimeout := 10
  replicaIncludeFullRequests := true
  replicaSkipAlignment := false
  clientNormalPathEnabled := true
  clientSendProofs := true

end Config

end DomBft
