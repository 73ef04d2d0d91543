import Mathlib.Tactic

/-!
`config_util.cc`: which addresses the clients, proxies and replicas connect from and to.

* `addAddrPairs`, `addAddrPairsToClient`, `getClientAddrs`, `getProxyAddrs`, `getReplicaAddrs`: the
  pairs of a local and a remote address, in `uint32_t` arithmetic.
* `clientList`, `proxyList`, `replicaList`: what they return if every loop ends.
* `Mirrored`, `Symmetric`: every connection stands in the lists of both its ends.
* `portsFrom`: the local ports of a list are consecutive, and `nodup_portsFrom_iff` says when they
  are distinct; `connections_mirrored`: **the connection plan.**
-/

namespace DomBft

/-- The address of an endpoint; the `int` port is given by its bits. -/
structure Address where
  ip : String
  port : UInt32
deriving DecidableEq, Repr

/-- The part of `ProcessConfig` that says where the processes are. -/
structure ProcessConfig where
  clientIps : List String
  clientPort : UInt32
  proxyIps : List String
  proxyForwardPort : UInt32
  replicaIps : List String
  replicaPort : UInt32
deriving DecidableEq, Repr

/-- A local and a remote address. -/
abbrev AddrPair : Type := Address × Address

namespace ProcessConfig

/-- A loop over a list of addresses with a `uint32_t` counter, which never ends if the list has
`2 ^ 32` elements. -/
def loop (theirIps : List String) (pair : UInt32 → String → AddrPair) : Option (List AddrPair) :=
  if theirIps.length < 2 ^ 32 then some (theirIps.mapIdx fun i ip => pair (UInt32.ofNat i) ip)
  else none

/-- `addAddrPairs` -/
def addAddrPairs (pairs : List AddrPair) (myIp : String) (myBasePort : UInt32)
    (theirIps : List String) (theirPort : UInt32) : Option (List AddrPair) := do
  let added ← loop theirIps fun i ip => (⟨myIp, myBasePort + i⟩, ⟨ip, theirPort⟩)
  return pairs ++ added

/-- `addAddrPairsToClient` -/
def addAddrPairsToClient (pairs : List AddrPair) (myIp : String) (myBasePort : UInt32)
    (theirIps : List String) (theirPort portRangeWidth : UInt32) : Option (List AddrPair) := do
  let added ← loop theirIps fun i ip =>
    (⟨myIp, myBasePort + i⟩, ⟨ip, theirPort + i * portRangeWidth⟩)
  return pairs ++ added

/-- The number of elements of a list, as it is added to a `uint32_t`. -/
def size (ips : List String) : UInt32 := UInt32.ofNat ips.length

/-- `portRangeWidth` -/
def portRangeWidth (config : ProcessConfig) : UInt32 :=
  UInt32.ofNat (config.proxyIps.length + config.replicaIps.length)

/-- `getClientAddrs`.  There is no result for a client that does not exist, and none if a loop does
not end. -/
def getClientAddrs (config : ProcessConfig) (id : UInt32) : Option (List AddrPair) := do
  let clientBase := config.clientPort + id * config.portRangeWidth
  let clientIp ← config.clientIps[id.toNat]?
  let ret ← addAddrPairs [] clientIp clientBase config.replicaIps (config.replicaPort + id)
  let clientBase := clientBase + size config.replicaIps
  addAddrPairs ret clientIp clientBase config.proxyIps (config.proxyForwardPort + id)

/-- `getProxyAddrs` -/
def getProxyAddrs (config : ProcessConfig) (id : UInt32) : Option (List AddrPair) := do
  let proxyIp ← config.proxyIps[id.toNat]?
  let proxyBase := config.proxyForwardPort
  let clientPort := config.clientPort + size config.replicaIps + id
  let ret ← addAddrPairsToClient [] proxyIp proxyBase config.clientIps clientPort
    config.portRangeWidth
  let proxyBase := proxyBase + size config.clientIps
  let replicaPort := config.replicaPort + size config.clientIps + id
  addAddrPairs ret proxyIp proxyBase config.replicaIps replicaPort

/-- `getReplicaAddrs` -/
def getReplicaAddrs (config : ProcessConfig) (id : UInt32) : Option (List AddrPair) := do
  let replicaIp ← config.replicaIps[id.toNat]?
  let replicaBase := config.replicaPort
  let clientPort := config.clientPort + id
  let ret ← addAddrPairsToClient [] replicaIp replicaBase config.clientIps clientPort
    config.portRangeWidth
  let replicaBase := config.replicaPort + size config.clientIps
  let proxyPort := config.proxyForwardPort + size config.clientIps + id
  let ret ← addAddrPairs ret replicaIp replicaBase config.proxyIps proxyPort
  let replicaBase := config.replicaPort + size config.clientIps + size config.proxyIps
  let added ← loop config.replicaIps fun i ip =>
    (⟨replicaIp, replicaBase + i⟩, ⟨ip, replicaBase + id⟩)
  return ret ++ added

/-! ### What is meant -/

/-- The pair at place `i` of one list stands at place `j` of the other one, with its sides
exchanged. -/
def Mirrored (l l' : List AddrPair) (i j : ℕ) : Prop :=
  ∃ a b, l[i]? = some (a, b) ∧ l'[j]? = some (b, a)

/-- The local ports of a list. -/
def localPorts (l : List AddrPair) : List UInt32 := l.map (·.1.port)

/-- Every connection stands in the lists of both its ends, at the places that the constructors of
the processes take it from: replicas come before proxies in a client's list, and clients, proxies
and replicas in this order in the other lists. -/
def Symmetric (config : ProcessConfig) : Prop :=
  ∀ c p r q : UInt32, c.toNat < config.clientIps.length → p.toNat < config.proxyIps.length →
    r.toNat < config.replicaIps.length → q.toNat < config.replicaIps.length →
    ∃ cs ps rs qs, config.getClientAddrs c = some cs ∧ config.getProxyAddrs p = some ps ∧
      config.getReplicaAddrs r = some rs ∧ config.getReplicaAddrs q = some qs ∧
      Mirrored cs rs r.toNat c.toNat ∧
      Mirrored cs ps (config.replicaIps.length + p.toNat) c.toNat ∧
      Mirrored ps rs (config.clientIps.length + r.toNat) (config.clientIps.length + p.toNat) ∧
      Mirrored rs qs (config.clientIps.length + config.proxyIps.length + q.toNat)
        (config.clientIps.length + config.proxyIps.length + r.toNat)

/-- The list of a process. -/
def IsPlanOf (config : ProcessConfig) (l : List AddrPair) : Prop :=
  ∃ id, config.getClientAddrs id = some l ∨ config.getProxyAddrs id = some l ∨
    config.getReplicaAddrs id = some l

/-- The numbers of processes for which the loops end. -/
structure Fits (config : ProcessConfig) : Prop where
  clients : config.clientIps.length < 2 ^ 32
  proxies : config.proxyIps.length < 2 ^ 32
  replicas : config.replicaIps.length < 2 ^ 32

/-! ### The lists -/

lemma loop_eq_some {theirIps : List String} {pair : UInt32 → String → AddrPair}
    {l : List AddrPair} : loop theirIps pair = some l ↔
      theirIps.length < 2 ^ 32 ∧ theirIps.mapIdx (fun i ip => pair (UInt32.ofNat i) ip) = l := by
  rw [loop, Option.ite_none_right_eq_some, Option.some.injEq]

variable {config : ProcessConfig} {id : UInt32} {ip : String} {l : List AddrPair}

/-- The list of a client. -/
def clientList (config : ProcessConfig) (id : UInt32) (ip : String) : List AddrPair :=
  (config.replicaIps.mapIdx fun i theirIp =>
    (⟨ip, config.clientPort + id * config.portRangeWidth + UInt32.ofNat i⟩,
      ⟨theirIp, config.replicaPort + id⟩)) ++
  config.proxyIps.mapIdx fun i theirIp =>
    (⟨ip, config.clientPort + id * config.portRangeWidth + size config.replicaIps +
        UInt32.ofNat i⟩,
      ⟨theirIp, config.proxyForwardPort + id⟩)

/-- The list of a proxy. -/
def proxyList (config : ProcessConfig) (id : UInt32) (ip : String) : List AddrPair :=
  (config.clientIps.mapIdx fun i theirIp =>
    (⟨ip, config.proxyForwardPort + UInt32.ofNat i⟩,
      ⟨theirIp, config.clientPort + size config.replicaIps + id +
        UInt32.ofNat i * config.portRangeWidth⟩)) ++
  config.replicaIps.mapIdx fun i theirIp =>
    (⟨ip, config.proxyForwardPort + size config.clientIps + UInt32.ofNat i⟩,
      ⟨theirIp, config.replicaPort + size config.clientIps + id⟩)

/-- The list of a replica. -/
def replicaList (config : ProcessConfig) (id : UInt32) (ip : String) : List AddrPair :=
  (config.clientIps.mapIdx fun i theirIp =>
    (⟨ip, config.replicaPort + UInt32.ofNat i⟩,
      ⟨theirIp, config.clientPort + id + UInt32.ofNat i * config.portRangeWidth⟩)) ++
  (config.proxyIps.mapIdx fun i theirIp =>
    (⟨ip, config.replicaPort + size config.clientIps + UInt32.ofNat i⟩,
      ⟨theirIp, config.proxyForwardPort + size config.clientIps + id⟩)) ++
  config.replicaIps.mapIdx fun i theirIp =>
    (⟨ip, config.replicaPort + size config.clientIps + size config.proxyIps + UInt32.ofNat i⟩,
      ⟨theirIp, config.replicaPort + size config.clientIps + size config.proxyIps + id⟩)

lemma getClientAddrs_eq_some : config.getClientAddrs id = some l ↔
    config.replicaIps.length < 2 ^ 32 ∧ config.proxyIps.length < 2 ^ 32 ∧
      ∃ ip, config.clientIps[id.toNat]? = some ip ∧ clientList config id ip = l := by
  simp only [getClientAddrs, addAddrPairs, Option.bind_eq_bind, Option.bind_eq_some_iff,
    Option.pure_def, Option.some.injEq, loop_eq_some, clientList, List.nil_append]
  constructor
  · rintro ⟨ip, hip, l₁, ⟨l₂, ⟨hr, rfl⟩, rfl⟩, l₃, ⟨hp, rfl⟩, rfl⟩
    exact ⟨hr, hp, ip, hip, rfl⟩
  · rintro ⟨hr, hp, ip, hip, rfl⟩
    exact ⟨ip, hip, _, ⟨_, ⟨hr, rfl⟩, rfl⟩, _, ⟨hp, rfl⟩, rfl⟩

lemma getProxyAddrs_eq_some : config.getProxyAddrs id = some l ↔
    config.clientIps.length < 2 ^ 32 ∧ config.replicaIps.length < 2 ^ 32 ∧
      ∃ ip, config.proxyIps[id.toNat]? = some ip ∧ proxyList config id ip = l := by
  simp only [getProxyAddrs, addAddrPairs, addAddrPairsToClient, Option.bind_eq_bind,
    Option.bind_eq_some_iff, Option.pure_def, Option.some.injEq, loop_eq_some, proxyList,
    List.nil_append]
  constructor
  · rintro ⟨ip, hip, l₁, ⟨l₂, ⟨hc, rfl⟩, rfl⟩, l₃, ⟨hr, rfl⟩, rfl⟩
    exact ⟨hc, hr, ip, hip, rfl⟩
  · rintro ⟨hc, hr, ip, hip, rfl⟩
    exact ⟨ip, hip, _, ⟨_, ⟨hc, rfl⟩, rfl⟩, _, ⟨hr, rfl⟩, rfl⟩

lemma getReplicaAddrs_eq_some : config.getReplicaAddrs id = some l ↔ config.Fits ∧
    ∃ ip, config.replicaIps[id.toNat]? = some ip ∧ replicaList config id ip = l := by
  simp only [getReplicaAddrs, addAddrPairs, addAddrPairsToClient, Option.bind_eq_bind,
    Option.bind_eq_some_iff, Option.pure_def, Option.some.injEq, loop_eq_some, replicaList,
    List.nil_append]
  constructor
  · rintro ⟨ip, hip, l₁, ⟨l₂, ⟨hc, rfl⟩, rfl⟩, l₃, ⟨l₄, ⟨hp, rfl⟩, rfl⟩, l₅, ⟨hr, rfl⟩, rfl⟩
    exact ⟨⟨hc, hp, hr⟩, ip, hip, rfl⟩
  · rintro ⟨hfits, ip, hip, rfl⟩
    exact ⟨ip, hip, _, ⟨_, ⟨hfits.clients, rfl⟩, rfl⟩, _, ⟨_, ⟨hfits.proxies, rfl⟩, rfl⟩, _,
      ⟨hfits.replicas, rfl⟩, rfl⟩

/-! ### Local ports -/

/-- Consecutive ports. -/
def portsFrom (base : UInt32) (n : ℕ) : List UInt32 :=
  (List.range n).map fun i => base + UInt32.ofNat i

lemma portsFrom_append (base : UInt32) (m n : ℕ) :
    portsFrom base m ++ portsFrom (base + UInt32.ofNat m) n = portsFrom base (m + n) := by
  rw [portsFrom, portsFrom, portsFrom, List.range_add, List.map_append, List.map_map]
  congr 1
  refine List.map_congr_left fun i _ => ?_
  rw [Function.comp_apply, UInt32.ofNat_add, UInt32.add_assoc]

lemma localPorts_mapIdx (base : UInt32) (ip : String) (ips : List String)
    (their : ℕ → String → Address) :
    localPorts (ips.mapIdx fun i theirIp => (⟨ip, base + UInt32.ofNat i⟩, their i theirIp)) =
      portsFrom base ips.length := by
  refine List.ext_getElem (by simp [localPorts, portsFrom]) fun i hi _ => ?_
  simp [localPorts, portsFrom]

lemma localPorts_append (l l' : List AddrPair) :
    localPorts (l ++ l') = localPorts l ++ localPorts l' := List.map_append

lemma localPorts_clientList : localPorts (clientList config id ip) =
    portsFrom (config.clientPort + id * config.portRangeWidth) (clientList config id ip).length := by
  rw [clientList, localPorts_append, localPorts_mapIdx, localPorts_mapIdx, size, portsFrom_append,
    List.length_append, List.length_mapIdx, List.length_mapIdx]

lemma localPorts_proxyList : localPorts (proxyList config id ip) =
    portsFrom config.proxyForwardPort (proxyList config id ip).length := by
  rw [proxyList, localPorts_append, localPorts_mapIdx, localPorts_mapIdx, size, portsFrom_append,
    List.length_append, List.length_mapIdx, List.length_mapIdx]

lemma localPorts_replicaList : localPorts (replicaList config id ip) =
    portsFrom config.replicaPort (replicaList config id ip).length := by
  rw [replicaList, localPorts_append, localPorts_append, localPorts_mapIdx, localPorts_mapIdx,
    localPorts_mapIdx, size, size, portsFrom_append, UInt32.add_assoc, ← UInt32.ofNat_add,
    portsFrom_append, List.length_append, List.length_append, List.length_mapIdx,
    List.length_mapIdx, List.length_mapIdx]

/-- **Consecutive ports are distinct** as long as they do not go around. -/
lemma nodup_portsFrom_iff {base : UInt32} {n : ℕ} : (portsFrom base n).Nodup ↔ n ≤ 2 ^ 32 := by
  constructor
  · intro h
    by_contra hn
    have hlt : (2 ^ 32 : ℕ) < (portsFrom base n).length := by
      rw [portsFrom, List.length_map, List.length_range]
      omega
    have hpos : 0 < (portsFrom base n).length := Nat.zero_lt_of_lt hlt
    have hsame : (portsFrom base n)[0] = (portsFrom base n)[2 ^ 32] := by
      simp only [portsFrom, List.getElem_map, List.getElem_range]
      rfl
    have hzero := (List.Nodup.getElem_inj_iff h).mp hsame
    omega
  · intro hn
    refine List.Nodup.map_on (fun i hi j hj heq => ?_) List.nodup_range
    have heq' := congrArg UInt32.toNat ((UInt32.add_right_inj base).mp heq)
    rw [List.mem_range] at hi hj
    rwa [UInt32.toNat_ofNat_of_lt' (lt_of_lt_of_le hi hn),
      UInt32.toNat_ofNat_of_lt' (lt_of_lt_of_le hj hn)] at heq'

/-- The local ports of a process are distinct exactly if it has at most `2 ^ 32` connections. -/
lemma IsPlanOf.nodup_iff (h : config.IsPlanOf l) : (localPorts l).Nodup ↔ l.length ≤ 2 ^ 32 := by
  obtain ⟨id, hclient | hproxy | hreplica⟩ := h
  · obtain ⟨-, -, ip, -, rfl⟩ := getClientAddrs_eq_some.mp hclient
    rw [localPorts_clientList, nodup_portsFrom_iff]
  · obtain ⟨-, -, ip, -, rfl⟩ := getProxyAddrs_eq_some.mp hproxy
    rw [localPorts_proxyList, nodup_portsFrom_iff]
  · obtain ⟨-, ip, -, rfl⟩ := getReplicaAddrs_eq_some.mp hreplica
    rw [localPorts_replicaList, nodup_portsFrom_iff]

/-! ### Connections -/

lemma getElem?_mapIdx_of_lt {f : ℕ → String → AddrPair} {ips : List String} {i : ℕ} {ip : String}
    (h : ips[i]? = some ip) : (ips.mapIdx f)[i]? = some (f i ip) := by
  rw [List.getElem?_mapIdx, h]
  rfl

/-- A place behind the first part of a list. -/
lemma getElem?_append_of_length {l l' : List AddrPair} {n : ℕ} (hn : l.length = n) (i : ℕ) :
    (l ++ l')[n + i]? = l'[i]? := by
  subst hn
  rw [List.getElem?_append_right (Nat.le_add_right _ _), Nat.add_sub_cancel_left]

/-- A place in the first part of a list. -/
lemma getElem?_append_of_some {l l' : List AddrPair} {i : ℕ} {x : AddrPair} (h : l[i]? = some x) :
    (l ++ l')[i]? = some x := by
  rw [List.getElem?_append_left (List.getElem?_eq_some_iff.mp h).1, h]

variable {c p r q : UInt32} {ip' : String}

lemma client_replica_mirrored (hc : config.clientIps[c.toNat]? = some ip)
    (hr : config.replicaIps[r.toNat]? = some ip') :
    Mirrored (clientList config c ip) (replicaList config r ip') r.toNat c.toNat := by
  refine ⟨_, _, getElem?_append_of_some (getElem?_mapIdx_of_lt hr), ?_⟩
  rw [replicaList, List.append_assoc, getElem?_append_of_some (getElem?_mapIdx_of_lt hc)]
  simp only [UInt32.ofNat_toNat, Option.some.injEq, Prod.mk.injEq, Address.mk.injEq, true_and]
  grind

lemma client_proxy_mirrored (hc : config.clientIps[c.toNat]? = some ip)
    (hp : config.proxyIps[p.toNat]? = some ip') :
    Mirrored (clientList config c ip) (proxyList config p ip')
      (config.replicaIps.length + p.toNat) c.toNat := by
  refine ⟨_, _, (getElem?_append_of_length List.length_mapIdx _).trans (getElem?_mapIdx_of_lt hp), ?_⟩
  rw [proxyList, getElem?_append_of_some (getElem?_mapIdx_of_lt hc)]
  simp only [UInt32.ofNat_toNat, Option.some.injEq, Prod.mk.injEq, Address.mk.injEq, true_and]
  grind

lemma proxy_replica_mirrored (hp : config.proxyIps[p.toNat]? = some ip)
    (hr : config.replicaIps[r.toNat]? = some ip') :
    Mirrored (proxyList config p ip) (replicaList config r ip')
      (config.clientIps.length + r.toNat) (config.clientIps.length + p.toNat) := by
  refine ⟨_, _, (getElem?_append_of_length List.length_mapIdx _).trans (getElem?_mapIdx_of_lt hr), ?_⟩
  rw [replicaList, List.append_assoc, getElem?_append_of_length List.length_mapIdx,
    getElem?_append_of_some (getElem?_mapIdx_of_lt hp)]
  simp only [UInt32.ofNat_toNat]

lemma replicas_mirrored (hr : config.replicaIps[r.toNat]? = some ip)
    (hq : config.replicaIps[q.toNat]? = some ip') :
    Mirrored (replicaList config r ip) (replicaList config q ip')
      (config.clientIps.length + config.proxyIps.length + q.toNat)
      (config.clientIps.length + config.proxyIps.length + r.toNat) := by
  refine ⟨_, _, (getElem?_append_of_length (by simp) _).trans (getElem?_mapIdx_of_lt hq), ?_⟩
  rw [replicaList, getElem?_append_of_length (by simp), getElem?_mapIdx_of_lt hr]
  simp only [UInt32.ofNat_toNat]

/-- **The connection plan.**  Every connection stands in the lists of both its ends, and the local
ports of a process are distinct exactly if it has at most `2 ^ 32` connections. -/
theorem connections_mirrored (config : ProcessConfig) (hfits : config.Fits) :
    config.Symmetric ∧
      ∀ l, config.IsPlanOf l → ((localPorts l).Nodup ↔ l.length ≤ 2 ^ 32) := by
  refine ⟨fun c p r q hc hp hr hq => ?_, fun l hl => hl.nodup_iff⟩
  have hc := List.getElem?_eq_getElem hc
  have hp := List.getElem?_eq_getElem hp
  have hr := List.getElem?_eq_getElem hr
  have hq := List.getElem?_eq_getElem hq
  refine ⟨_, _, _, _, getClientAddrs_eq_some.mpr ⟨hfits.replicas, hfits.proxies, _, hc, rfl⟩,
    getProxyAddrs_eq_some.mpr ⟨hfits.clients, hfits.replicas, _, hp, rfl⟩,
    getReplicaAddrs_eq_some.mpr ⟨hfits, _, hr, rfl⟩,
    getReplicaAddrs_eq_some.mpr ⟨hfits, _, hq, rfl⟩, ?_⟩
  exact ⟨client_replica_mirrored hc hr, client_proxy_mirrored hc hp, proxy_replica_mirrored hp hr,
    replicas_mirrored hr hq⟩

/-- One client, one proxy and two replicas. -/
def twoReplicas : ProcessConfig where
  clientIps := ["10.0.0.1"]
  clientPort := 1000
  proxyIps := ["10.0.0.2"]
  proxyForwardPort := 2000
  replicaIps := ["10.0.0.3", "10.0.0.4"]
  replicaPort := 3000

theorem two_replicas_mirrored : twoReplicas.Symmetric ∧
    ∃ l, twoReplicas.getReplicaAddrs 1 = some l ∧ (localPorts l).Nodup := by
  have hplan := connections_mirrored twoReplicas ⟨by decide, by decide, by decide⟩
  obtain ⟨l, hl, hlength⟩ : ∃ l, twoReplicas.getReplicaAddrs 1 = some l ∧ l.length = 4 :=
    ⟨_, rfl, rfl⟩
  refine ⟨hplan.1, l, hl, (hplan.2 l ⟨1, .inr (.inr hl)⟩).mpr ?_⟩
  omega

/-- **Ports go around**: with `2 ^ 31` clients, `2 ^ 31` proxies and a replica, the replica's ports
for the first client and for itself are the same. -/
theorem ports_go_around : ¬∀ config : ProcessConfig,
    config.Symmetric ∧ ∀ l, config.IsPlanOf l → (localPorts l).Nodup := by
  intro hall
  obtain ⟨ips, hips⟩ : ∃ ips : List String, ips.length = 2 ^ 31 :=
    ⟨List.replicate (2 ^ 31) "", List.length_replicate⟩
  have hl : getReplicaAddrs ⟨ips, 1000, ips, 2000, [""], 3000⟩ 0 = some _ :=
    getReplicaAddrs_eq_some.mpr ⟨⟨by simp [hips], by simp [hips], by simp⟩, "", rfl, rfl⟩
  have hplan : IsPlanOf ⟨ips, 1000, ips, 2000, [""], 3000⟩ _ := ⟨0, .inr (.inr hl)⟩
  have hle := hplan.nodup_iff.mp ((hall _).2 _ hplan)
  rw [replicaList] at hle
  simp [hips] at hle

end ProcessConfig

end DomBft
