import DomBft.Proxy.Forwarding
import DomBft.Receiver.Queued

/-!
Proxies and receivers over a network: the multicast by deadline, from the clients' messages to the
queues of the replicas.

* `Multicast`, `Step`: the proxies, the receivers, and which messages a receiver has been
  delivered.  The network loses, delays and reorders messages; it delivers none twice.
* `Homed`: what is assumed of a run: the clocks are in range, and the messages in a client's name
  arrive at one proxy.
* `Consistent`: what a step keeps.  The keys in a receiver are those of what it has been
  delivered, and a proxy has given each of them once.
* `multicast_exactly_once`: **each replica forwards exactly once** what it has been delivered;
  `multicast_total_order`: **all replicas forward in one order** what arrives before its deadline.
-/

namespace DomBft

open Std (ExtTreeMap)
open Transition

/-! ### The system -/

/-- Proxies and receivers, with the messages that a receiver has been delivered: the proxy and the
number of the message among those to that receiver. -/
structure Multicast where
  proxies : ℕ → Proxy
  receivers : ℕ → ReceiverTrace
  delivered : ℕ → Finset (ℕ × ℕ)

/-- What happens at a proxy, on the network, or at a receiver. -/
inductive MulticastEvent where
  | proxy (j : ℕ) (e : ProxyEvent)
  | deliver (i j k recvTime : ℕ)
  | verify (i r : ℕ)
  | check (i now : ℕ)
deriving DecidableEq, Repr

/-- The requests of a message, as a receiver reads them. -/
def ProxyMsg.domRequests (msg : ProxyMsg) : List DOMRequest :=
  msg.requests.map (·.toDOMRequest)

namespace Multicast

section

variable [ClientMessage]

/-- A receiver takes an event. -/
def receiverTakes (s : Multicast) (i : ℕ) (ev : ReceiverEvent) : Multicast :=
  { s with receivers := Function.update s.receivers i ((s.receivers i).next false ev) }

/-- One step.  A receiver takes a batch, or a single request as a batch of one. -/
inductive Step (cfg : ProxyConfig) : Multicast → MulticastEvent → Multicast → Prop
  | proxy {s : Multicast} {j : ℕ} {e : ProxyEvent} {p : Proxy} :
      (s.proxies j).handle cfg e = .ok p →
      Step cfg s (.proxy j e) { s with proxies := Function.update s.proxies j p }
  | deliver {s : Multicast} {i j k recvTime : ℕ} {msg : ProxyMsg} :
      i < cfg.numReceivers.toNat → ((s.proxies j).sentTo i)[k]? = some msg →
      (j, k) ∉ s.delivered i →
      Step cfg s (.deliver i j k recvTime)
        { s.receiverTakes i (.receive recvTime msg.domRequests) with
          delivered := Function.update s.delivered i (insert (j, k) (s.delivered i)) }
  | verify {s : Multicast} {i r : ℕ} : r ∈ (s.receivers i).receiver.receiverVerifyQueue →
      Step cfg s (.verify i r) (s.receiverTakes i (.verify r))
  | check {s : Multicast} {i now : ℕ} :
      Step cfg s (.check i now) (s.receiverTakes i (.check now))

/-- Proxies from the times at which they have been created, and empty receivers. -/
def system (cfg : ProxyConfig) : System Multicast MulticastEvent where
  init s := (∀ j, ∃ now < 2 ^ 63, s.proxies j = .create cfg j now) ∧ (∀ i, s.receivers i = {}) ∧
    ∀ i, s.delivered i = ∅
  step := Step cfg

/-- The clocks of the proxies are in range, and the messages in the name of a client arrive at one
proxy. -/
def Homed (home : UInt32 → ℕ) (es : List MulticastEvent) (_ : Multicast) : MulticastEvent → Prop
  | .proxy j e => Proxy.InRange es.length e ∧
      ∀ msg ∈ Proxy.taken e, ∀ m ∈ ClientMessage.parse msg, home m.clientId = j
  | _ => True

/-- A message arrives before the deadlines of its requests, and the clock of a receiver does not go
back. -/
def InTime (s : Multicast) : MulticastEvent → Prop
  | .deliver i j k recvTime => (s.receivers i).clock ≤ recvTime ∧
      ∀ msg ∈ ((s.proxies j).sentTo i)[k]?, ∀ q ∈ msg.requests, recvTime < q.deadline
  | .check i now => (s.receivers i).clock ≤ now
  | _ => True

/-- A run goes on with an event of a proxy. -/
lemma run_proxy {cfg : ProxyConfig} {home : UInt32 → ℕ} {es : List MulticastEvent} {s : Multicast}
    (hrun : Run (system cfg) (fun es s e => Homed home es s e ∧ s.InTime e) es s) (j : ℕ)
    (e : ProxyEvent) {p : Proxy} (hstep : (s.proxies j).handle cfg e = .ok p)
    (hclock : Proxy.InRange es.length e)
    (hhome : ∀ msg ∈ Proxy.taken e, ∀ m ∈ ClientMessage.parse msg, home m.clientId = j) :
    Run (system cfg) (fun es s e => Homed home es s e ∧ s.InTime e) (es ++ [.proxy j e])
      { s with proxies := Function.update s.proxies j p } :=
  hrun.step ⟨⟨hclock, hhome⟩, trivial⟩ (.proxy hstep)

/-- A run goes on with a delivery. -/
lemma run_deliver {cfg : ProxyConfig} {home : UInt32 → ℕ} {es : List MulticastEvent}
    {s : Multicast}
    (hrun : Run (system cfg) (fun es s e => Homed home es s e ∧ s.InTime e) es s)
    (i j k recvTime : ℕ) {msg : ProxyMsg} (hi : i < cfg.numReceivers.toNat)
    (hmsg : ((s.proxies j).sentTo i)[k]? = some msg) (hnew : (j, k) ∉ s.delivered i)
    (hclock : (s.receivers i).clock ≤ recvTime)
    (hearly : ∀ msg ∈ ((s.proxies j).sentTo i)[k]?, ∀ q ∈ msg.requests, recvTime < q.deadline) :
    Run (system cfg) (fun es s e => Homed home es s e ∧ s.InTime e)
      (es ++ [.deliver i j k recvTime])
      { s.receiverTakes i (.receive recvTime msg.domRequests) with
        delivered := Function.update s.delivered i (insert (j, k) (s.delivered i)) } :=
  hrun.step ⟨trivial, hclock, hearly⟩ (.deliver hi hmsg hnew)

/-! ### The proxies -/

variable {cfg : ProxyConfig} {home : UInt32 → ℕ} {es : List MulticastEvent} {s s' : Multicast}
  {e : MulticastEvent} {i j k : ℕ}

/-- A proxy has forwarded in order, and only messages in the name of its own clients. -/
structure ProxyOk (cfg : ProxyConfig) (home : UInt32 → ℕ) (n j : ℕ) (p : Proxy) : Prop where
  forwards : ∃ msgs, p.ForwardsInOrder cfg j msgs ∧
    ∀ msg ∈ msgs, ∀ m ∈ ClientMessage.parse msg, home m.clientId = j
  last : p.lastDeadline ≤ 2 ^ 63 + 2 ^ 32 + n

lemma ProxyOk.mono {n n' : ℕ} {p : Proxy} (h : ProxyOk cfg home n j p) (hn : n ≤ n') :
    ProxyOk cfg home n' j p :=
  ⟨h.forwards, h.last.trans (by omega)⟩

lemma ProxyOk.handle {n : ℕ} {p p' : Proxy} {e : ProxyEvent} (h : ProxyOk cfg home n j p)
    (hclock : Proxy.InRange n e)
    (hhome : ∀ msg ∈ Proxy.taken e, ∀ m ∈ ClientMessage.parse msg, home m.clientId = j)
    (hstep : p.handle cfg e = .ok p') : ProxyOk cfg home (n + 1) j p' := by
  obtain ⟨msgs, hforwards, hmsgs⟩ := h.forwards
  obtain ⟨hforwards', hlast⟩ := hforwards.handle hclock h.last hstep
  refine ⟨⟨_, hforwards', fun msg hmsg => ?_⟩, hlast⟩
  rcases List.mem_append.mp hmsg with hmsg | hmsg
  · exact hmsgs msg hmsg
  · exact hhome msg (Option.mem_toList.mp hmsg)

/-- What a proxy has sent to a receiver comes from its own clients, parses, and is not late. -/
lemma ProxyOk.request {n : ℕ} {p : Proxy} (h : ProxyOk cfg home n j p)
    (hi : i < cfg.numReceivers.toNat) {msg : ProxyMsg} (hmsg : msg ∈ p.sentTo i)
    {q : StampedRequest} (hq : q ∈ msg.requests) :
    home q.clientId = j ∧ (ClientMessage.parse q.clientReq).isSome ∧ q.late = false := by
  obtain ⟨msgs, hforwards, hmsgs⟩ := h.forwards
  have hstamped : q ∈ p.stamped i :=
    List.mem_append_left _ (List.mem_flatMap.mpr ⟨msg, hmsg, hq⟩)
  obtain ⟨m, hparse, hclient, -⟩ := (hforwards.names i hi q hstamped).parses
  have hmem : q.clientReq ∈ msgs := by
    rw [← hforwards.contents i hi]
    exact List.mem_map_of_mem hstamped
  refine ⟨?_, by rw [hparse]; rfl, (hforwards.names i hi q hstamped).not_late⟩
  rw [hclient]
  exact hmsgs _ hmem m hparse

/-- The deadlines of a proxy increase from message to message, and inside a message. -/
lemma ProxyOk.increasing {n : ℕ} {p : Proxy} (h : ProxyOk cfg home n j p)
    (hi : i < cfg.numReceivers.toNat) :
    (∀ msg ∈ p.sentTo i, msg.requests.Pairwise (·.deadline < ·.deadline)) ∧
      (p.sentTo i).Pairwise fun msg msg' =>
        ∀ q ∈ msg.requests, ∀ q' ∈ msg'.requests, q.deadline < q'.deadline := by
  obtain ⟨msgs, hforwards, -⟩ := h.forwards
  have hall := hforwards.increasing i hi
  rw [Proxy.stamped, List.pairwise_append] at hall
  exact List.pairwise_flatMap.mp hall.1

/-- Requests with one deadline are in one message. -/
lemma ProxyOk.eq_of_deadline {n : ℕ} {p : Proxy} (h : ProxyOk cfg home n j p)
    (hi : i < cfg.numReceivers.toNat) {k k' : ℕ} {msg msg' : ProxyMsg}
    (hk : (p.sentTo i)[k]? = some msg) (hk' : (p.sentTo i)[k']? = some msg')
    {q q' : StampedRequest} (hq : q ∈ msg.requests) (hq' : q' ∈ msg'.requests)
    (hdeadline : q.deadline = q'.deadline) : k = k' := by
  have hpairs := List.pairwise_iff_getElem.mp (h.increasing hi).2
  obtain ⟨hlt, rfl⟩ := List.getElem?_eq_some_iff.mp hk
  obtain ⟨hlt', rfl⟩ := List.getElem?_eq_some_iff.mp hk'
  rcases Nat.lt_trichotomy k k' with hkk | hkk | hkk
  · exact absurd hdeadline (hpairs k k' hlt hlt' hkk q hq q' hq').ne
  · exact hkk
  · exact absurd hdeadline (hpairs k' k hlt' hlt hkk q' hq' q hq).ne'

/-- An event adds to what a proxy has sent to a receiver. -/
lemma ProxyOk.sentTo {n : ℕ} {p p' : Proxy} {e : ProxyEvent} (h : ProxyOk cfg home n j p)
    (hi : i < cfg.numReceivers.toNat) (hstep : p.handle cfg e = .ok p') :
    p.sentTo i <+: p'.sentTo i := by
  obtain ⟨msgs, hforwards, -⟩ := h.forwards
  rcases Proxy.handle_cases hforwards.idle hstep with ⟨-, -, -, -, hsent, -⟩ |
      ⟨_, _, _, _, _, -, -, -, hstamps⟩
  · rw [Proxy.sentTo, Proxy.sentTo, hsent]
  · obtain ⟨msgs, hmsgs⟩ := hstamps.sent
    rw [hmsgs i hi]
    exact List.prefix_append _ _

/-! ### The receivers -/

/-- A request is in a message that a receiver has been delivered. -/
def Delivered (s : Multicast) (i : ℕ) (q : DOMRequest) : Prop :=
  ∃ x ∈ s.delivered i, ∃ msg, ((s.proxies x.1).sentTo i)[x.2]? = some msg ∧ q ∈ msg.domRequests

/-- **What a receiver has**, of what it has been delivered: all of it, marked where it is late, and
each request once. -/
structure HasDelivered (D : DOMRequest → Prop) (t : ReceiverTrace) : Prop where
  nodup : t.keys.Nodup
  keys : t.keys = t.received.map DOMRequest.key
  came : ∀ q ∈ t.received, ∃ q', D q' ∧ ∃ recvTime, q = q'.arrive recvTime
  arrived : ∀ q, D q → ∃ recvTime, q.arrive recvTime ∈ t.received

namespace HasDelivered

variable {D D' : DOMRequest → Prop} {t : ReceiverTrace}

omit [ClientMessage] in
lemma congr (h : HasDelivered D t) (hD : ∀ q, D' q ↔ D q) : HasDelivered D' t where
  nodup := h.nodup
  keys := h.keys
  came q hq := by
    obtain ⟨q', hq', harrive⟩ := h.came q hq
    exact ⟨q', (hD q').mpr hq', harrive⟩
  arrived q hq := h.arrived q ((hD q).mp hq)

omit [ClientMessage] in
/-- A request has the key of one that has been delivered. -/
lemma exists_of_mem_keys (h : HasDelivered D t) {key : DeadlineKey} (hkey : key ∈ t.keys) :
    ∃ q, D q ∧ q.key = key := by
  rw [h.keys] at hkey
  obtain ⟨q, hq, rfl⟩ := List.mem_map.mp hkey
  obtain ⟨q', hq', recvTime, rfl⟩ := h.came q hq
  refine ⟨q', hq', ?_⟩
  rw [DOMRequest.key, DOMRequest.key, q'.arrive_deadline, q'.arrive_clientId]

lemma receive (h : HasDelivered D t) (recvTime : ℕ) {qs : List DOMRequest}
    (hnodup : (qs.map DOMRequest.key).Nodup) (hfresh : ∀ q ∈ qs, q.key ∉ t.keys) :
    HasDelivered (fun q => q ∈ qs ∨ D q) (t.next false (.receive recvTime qs)) := by
  have hkeys : (t.next false (.receive recvTime qs)).keys = t.keys ++ qs.map DOMRequest.key := rfl
  refine ⟨?_, ?_, ?_, ?_⟩
  · rw [hkeys]
    refine List.Nodup.append h.nodup hnodup fun key hkey hnew => ?_
    obtain ⟨q, hq, rfl⟩ := List.mem_map.mp hnew
    exact hfresh q hq hkey
  · rw [hkeys, ReceiverTrace.received_receive, List.map_append, List.map_map, ← h.keys]
    refine congrArg (t.keys ++ ·) (List.map_congr_left fun q _ => ?_)
    show q.key = (q.arrive recvTime).key
    rw [DOMRequest.key, DOMRequest.key, q.arrive_deadline, q.arrive_clientId]
  · intro q hq
    rw [ReceiverTrace.received_receive] at hq
    rcases List.mem_append.mp hq with hq | hq
    · obtain ⟨q', hq', harrive⟩ := h.came q hq
      exact ⟨q', .inr hq', harrive⟩
    · obtain ⟨q', hq', rfl⟩ := List.mem_map.mp hq
      exact ⟨q', .inl hq', recvTime, rfl⟩
  · intro q hq
    rw [ReceiverTrace.received_receive]
    rcases hq with hq | hq
    · exact ⟨recvTime, List.mem_append_right _ (List.mem_map_of_mem hq)⟩
    · obtain ⟨recvTime', hmem⟩ := h.arrived q hq
      exact ⟨recvTime', List.mem_append_left _ hmem⟩

/-- A verification leaves the requests as they are. -/
lemma verify (h : HasDelivered D t) (r : ℕ) : HasDelivered D (t.next false (.verify r)) := by
  have hreceived := t.received_verify r
  refine ⟨h.nodup, ?_, ?_, ?_⟩
  · rw [hreceived]
    exact h.keys
  · rw [hreceived]
    exact h.came
  · rw [hreceived]
    exact h.arrived

end HasDelivered

/-! ### The invariant -/

/-- What every step keeps. -/
structure Consistent (cfg : ProxyConfig) (home : UInt32 → ℕ) (n : ℕ) (s : Multicast) : Prop where
  proxies : ∀ j, ProxyOk cfg home n j (s.proxies j)
  queued : ∀ i, Queued (s.receivers i)
  has : ∀ i, HasDelivered (s.Delivered i) (s.receivers i)
  sent : ∀ i, ∀ x ∈ s.delivered i, i < cfg.numReceivers.toNat ∧
    x.2 < ((s.proxies x.1).sentTo i).length

namespace Consistent

variable {n : ℕ}

lemma init (h : (system cfg).init s) : s.Consistent cfg home 0 := by
  obtain ⟨hproxies, hreceivers, hdelivered⟩ := h
  refine ⟨fun j => ?_, fun i => ?_, fun i => ?_, fun i x hx => ?_⟩
  · obtain ⟨now, hnow, heq⟩ := hproxies j
    rw [heq]
    refine ⟨⟨[], .create cfg j now, fun _ hmsg => absurd hmsg List.not_mem_nil⟩, ?_⟩
    show now ≤ _
    omega
  · rw [hreceivers i]
    exact .init
  · rw [hreceivers i]
    refine ⟨List.nodup_nil, rfl, fun _ hq => absurd hq List.not_mem_nil, ?_⟩
    rintro q ⟨x, hx, -⟩
    rw [hdelivered i] at hx
    exact absurd hx (Finset.notMem_empty x)
  · rw [hdelivered i] at hx
    exact absurd hx (Finset.notMem_empty x)

/-- A message that has not been delivered brings keys that have not been used. -/
lemma fresh (h : s.Consistent cfg home n) {msg : ProxyMsg} (hi : i < cfg.numReceivers.toNat)
    (hmsg : ((s.proxies j).sentTo i)[k]? = some msg) (hnew : (j, k) ∉ s.delivered i) :
    (msg.domRequests.map DOMRequest.key).Nodup ∧ ∀ q ∈ msg.domRequests,
      q.key ∉ (s.receivers i).keys ∧ (ClientMessage.parse q.clientReq).isSome := by
  have hmem := List.mem_of_getElem? hmsg
  refine ⟨?_, fun q hq => ?_⟩
  · rw [ProxyMsg.domRequests, List.map_map]
    refine List.pairwise_map.mpr (((h.proxies j).increasing hi).1 msg hmem |>.imp ?_)
    intro q q' hlt heq
    exact hlt.ne (congrArg Prod.fst heq)
  · obtain ⟨q, hin, rfl⟩ := List.mem_map.mp hq
    obtain ⟨hhome, hparse, -⟩ := (h.proxies j).request hi hmem hin
    refine ⟨fun hkey => hnew ?_, hparse⟩
    obtain ⟨d, ⟨⟨j', k'⟩, hx, msg', hmsg', hd⟩, heq⟩ := (h.has i).exists_of_mem_keys hkey
    obtain ⟨q', hq', rfl⟩ := List.mem_map.mp hd
    have hclient : q'.clientId = q.clientId := congrArg Prod.snd heq
    -- the client of both requests has one proxy, which has given the deadline once
    have hhome' := ((h.proxies j').request hi (List.mem_of_getElem? hmsg') hq').1
    obtain rfl : j' = j := by rw [← hhome', ← hhome, hclient]
    obtain rfl := (h.proxies j').eq_of_deadline hi hmsg' hmsg hq' hin (congrArg Prod.fst heq)
    exact hx

/-- An event of a proxy. -/
lemma proxy (h : s.Consistent cfg home n) {p : Proxy} {e : ProxyEvent}
    (hclock : Proxy.InRange n e)
    (hhome : ∀ msg ∈ Proxy.taken e, ∀ m ∈ ClientMessage.parse msg, home m.clientId = j)
    (hstep : (s.proxies j).handle cfg e = .ok p) :
    Consistent cfg home (n + 1) { s with proxies := Function.update s.proxies j p } := by
  have hgrows : ∀ i < cfg.numReceivers.toNat, ∀ x,
      (s.proxies x).sentTo i <+: (Function.update s.proxies j p x).sentTo i := by
    intro i hi x
    by_cases hx : x = j
    · subst hx
      rw [Function.update_self]
      exact (h.proxies x).sentTo hi hstep
    · rw [Function.update_of_ne hx]
  refine ⟨fun x => ?_, h.queued, fun i => (h.has i).congr fun q => ?_, fun i x hx => ?_⟩
  · show ProxyOk cfg home (n + 1) x (Function.update s.proxies j p x)
    by_cases hx : x = j
    · subst hx
      rw [Function.update_self]
      exact (h.proxies x).handle hclock hhome hstep
    · rw [Function.update_of_ne hx]
      exact (h.proxies x).mono (Nat.le_succ n)
  · refine exists_congr fun x => and_congr_right fun hx => exists_congr fun msg => ?_
    obtain ⟨hi, hlt⟩ := h.sent i x hx
    show ((Function.update s.proxies j p x.1).sentTo i)[x.2]? = some msg ∧ _ ↔ _
    obtain ⟨rest, hrest⟩ := hgrows i hi x.1
    rw [← hrest, List.getElem?_append_left hlt]
  · obtain ⟨hi, hlt⟩ := h.sent i x hx
    exact ⟨hi, hlt.trans_le (hgrows i hi x.1).length_le⟩

/-- What has been delivered after a delivery. -/
lemma delivered_insert {msg : ProxyMsg} (hmsg : ((s.proxies j).sentTo i)[k]? = some msg)
    (ev : ReceiverEvent) (q : DOMRequest) :
    Delivered { s.receiverTakes i ev with
      delivered := Function.update s.delivered i (insert (j, k) (s.delivered i)) } i q ↔
    q ∈ msg.domRequests ∨ s.Delivered i q := by
  show (∃ x ∈ Function.update s.delivered i (insert (j, k) (s.delivered i)) i, _) ↔ _
  rw [Function.update_self, Finset.exists_mem_insert]
  refine or_congr_left ⟨?_, fun hq => ⟨msg, hmsg, hq⟩⟩
  rintro ⟨msg', hmsg', hq⟩
  obtain rfl := Option.some.inj (hmsg'.symm.trans hmsg)
  exact hq

/-- A receiver is delivered a message. -/
lemma deliver (h : s.Consistent cfg home n) {msg : ProxyMsg} {recvTime : ℕ}
    (hi : i < cfg.numReceivers.toNat) (hmsg : ((s.proxies j).sentTo i)[k]? = some msg)
    (hnew : (j, k) ∉ s.delivered i) :
    Consistent cfg home (n + 1) { s.receiverTakes i (.receive recvTime msg.domRequests) with
      delivered := Function.update s.delivered i (insert (j, k) (s.delivered i)) } := by
  obtain ⟨hnodup, hqs⟩ := h.fresh hi hmsg hnew
  refine ⟨fun x => (h.proxies x).mono (Nat.le_succ n), fun i' => ?_, fun i' => ?_,
    fun i' x hx => ?_⟩
  · show Queued (Function.update s.receivers i _ i')
    by_cases hi' : i' = i
    · subst hi'
      rw [Function.update_self]
      exact (h.queued i').receive recvTime hnodup hqs
    · rw [Function.update_of_ne hi']
      exact h.queued i'
  · by_cases hi' : i' = i
    · subst hi'
      refine HasDelivered.congr ?_ (delivered_insert hmsg _)
      show HasDelivered _ (Function.update s.receivers i' _ i')
      rw [Function.update_self]
      exact (h.has i').receive recvTime hnodup fun q hq => (hqs q hq).1
    · refine HasDelivered.congr (D := s.Delivered i') ?_ fun q => ?_
      · show HasDelivered _ (Function.update s.receivers i _ i')
        rw [Function.update_of_ne hi']
        exact h.has i'
      · show (∃ x ∈ Function.update s.delivered i (insert (j, k) (s.delivered i)) i', _) ↔ _
        rw [Function.update_of_ne hi']
        rfl
  · have hx : x ∈ Function.update s.delivered i (insert (j, k) (s.delivered i)) i' := hx
    by_cases hi' : i' = i
    · subst hi'
      rw [Function.update_self] at hx
      rcases Finset.mem_insert.mp hx with rfl | hx
      · exact ⟨hi, (List.getElem?_eq_some_iff.mp hmsg).1⟩
      · exact h.sent i' x hx
    · rw [Function.update_of_ne hi'] at hx
      exact h.sent i' x hx

/-- A receiver verifies a request, or checks its deadlines. -/
lemma takes (h : s.Consistent cfg home n) {ev : ReceiverEvent}
    (hqueued : Queued ((s.receivers i).next false ev))
    (hhas : HasDelivered (s.Delivered i) ((s.receivers i).next false ev)) :
    (s.receiverTakes i ev).Consistent cfg home (n + 1) := by
  refine ⟨fun x => (h.proxies x).mono (Nat.le_succ n), fun i' => ?_, fun i' => ?_, h.sent⟩
  · show Queued (Function.update s.receivers i _ i')
    by_cases hi' : i' = i
    · subst hi'
      rw [Function.update_self]
      exact hqueued
    · rw [Function.update_of_ne hi']
      exact h.queued i'
  · show HasDelivered (s.Delivered i') (Function.update s.receivers i _ i')
    by_cases hi' : i' = i
    · subst hi'
      rw [Function.update_self]
      exact hhas
    · rw [Function.update_of_ne hi']
      exact h.has i'

/-- **Every step keeps the invariant.** -/
lemma step (h : s.Consistent cfg home es.length) (hhome : Homed home es s e)
    (hstep : Step cfg s e s') : s'.Consistent cfg home (es.length + 1) := by
  cases hstep with
  | proxy hstep => exact h.proxy hhome.1 hhome.2 hstep
  | deliver hi hmsg hnew => exact h.deliver hi hmsg hnew
  | @verify i r hr => exact h.takes ((h.queued i).verify hr) ((h.has i).verify r)
  | @check i now =>
      have hhas := h.has i
      exact h.takes ((h.queued i).check now) ⟨hhas.nodup, hhas.keys, hhas.came, hhas.arrived⟩

end Consistent

lemma consistent_of_run (hrun : Run (system cfg) (Homed home) es s) :
    s.Consistent cfg home es.length := by
  refine hrun.invariant (P := fun es s => s.Consistent cfg home es.length) ?_ ?_
  · exact fun s hs => .init hs
  · intro es s e s' _ h hhome hstep
    rw [List.length_append, List.length_singleton]
    exact h.step hhome hstep

/-- **Multicast exactly once**: whatever the network does with the messages of the proxies, and
whether or not the clients sign what they send, a receiver has each request of the messages that it
has been delivered once, and of these it forwards each valid one exactly once. -/
theorem multicast_exactly_once (hrun : Run (system cfg) (Homed home) es s) (i : ℕ) :
    HasDelivered (s.Delivered i) (s.receivers i) ∧ ExactlyOnce false (s.receivers i) := by
  have h := consistent_of_run hrun
  exact ⟨h.has i, (h.queued i).intact.exactlyOnce⟩

/-! ### Messages before their deadlines -/

/-- What has been forwarded is in order, and nothing is late. -/
structure Punctual (t : ReceiverTrace) : Prop where
  ordered : Ordered t
  punctual : ∀ q ∈ t.received, q.late = false

/-- A step at a receiver leaves the others as they are. -/
lemma punctual_receiverTakes (h : ∀ i, Punctual (s.receivers i)) {ev : ReceiverEvent}
    (hev : Punctual ((s.receivers i).next false ev)) (i' : ℕ) :
    Punctual ((s.receiverTakes i ev).receivers i') := by
  show Punctual (Function.update s.receivers i _ i')
  by_cases hi' : i' = i
  · subst hi'
    rw [Function.update_self]
    exact hev
  · rw [Function.update_of_ne hi']
    exact h i'

lemma Consistent.punctual (h : s.Consistent cfg home es.length)
    (hpunctual : ∀ i, Punctual (s.receivers i)) (htime : s.InTime e) (hstep : Step cfg s e s') :
    ∀ i, Punctual (s'.receivers i) := by
  cases hstep with
  | proxy hstep => exact hpunctual
  | @deliver i j k recvTime msg hi hmsg hnew =>
      obtain ⟨hclock, hearly⟩ := htime
      obtain ⟨hnodup, hqs⟩ := h.fresh hi hmsg hnew
      have hbefore : ∀ q ∈ msg.domRequests, recvTime < q.deadline := by
        intro q hq
        obtain ⟨o, ho, rfl⟩ := List.mem_map.mp hq
        exact hearly msg hmsg o ho
      refine punctual_receiverTakes hpunctual
        ⟨(hpunctual i).ordered.receive hnodup hqs hclock hbefore, fun q hq => ?_⟩
      rw [ReceiverTrace.received_receive] at hq
      rcases List.mem_append.mp hq with hq | hq
      · exact (hpunctual i).punctual q hq
      · obtain ⟨d, hd, rfl⟩ := List.mem_map.mp hq
        rw [DOMRequest.arrive_eq (hbefore d hd).le]
        obtain ⟨o, ho, rfl⟩ := List.mem_map.mp hd
        exact ((h.proxies j).request hi (List.mem_of_getElem? hmsg) ho).2.2
  | @verify i r hr =>
      refine punctual_receiverTakes hpunctual ⟨(hpunctual i).ordered.verify hr, ?_⟩
      rw [ReceiverTrace.received_verify]
      exact (hpunctual i).punctual
  | @check i now =>
      exact punctual_receiverTakes hpunctual
        ⟨(hpunctual i).ordered.check htime, (hpunctual i).punctual⟩

lemma punctual_of_run
    (hrun : Run (system cfg) (fun es s e => Homed home es s e ∧ s.InTime e) es s) :
    ∀ i, Punctual (s.receivers i) := by
  refine hrun.invariant (P := fun _ s => ∀ i, Punctual (s.receivers i)) ?_ ?_
  · intro s hs i
    rw [hs.2.1 i]
    exact ⟨.init, fun _ hq => absurd hq List.not_mem_nil⟩
  · intro es s e s' hrun h hG hstep
    exact (consistent_of_run (hrun.mono fun _ _ _ hG => hG.1)).punctual h hG.2 hstep

/-- What is not late has been delivered as it is. -/
lemma Consistent.received_iff {n : ℕ} (h : s.Consistent cfg home n)
    (hpunctual : Punctual (s.receivers i)) (q : DOMRequest) :
    q ∈ (s.receivers i).received ↔ s.Delivered i q := by
  have heq : ∀ (q : DOMRequest) (recvTime : ℕ), (q.arrive recvTime).late = false →
      q.arrive recvTime = q := by
    intro q recvTime hlate
    rw [DOMRequest.arrive] at hlate ⊢
    split_ifs at hlate ⊢
    rfl
  constructor
  · intro hq
    obtain ⟨q, hdelivered, recvTime, rfl⟩ := (h.has i).came q hq
    rwa [heq q recvTime (hpunctual.punctual _ hq)]
  · intro hq
    obtain ⟨recvTime, hmem⟩ := (h.has i).arrived q hq
    rwa [heq q recvTime (hpunctual.punctual _ hmem)] at hmem

/-- Receivers that have been delivered the same messages have been delivered the same requests. -/
lemma Consistent.delivered_congr {n i' : ℕ} (h : s.Consistent cfg home n)
    (hsame : s.delivered i = s.delivered i') (q : DOMRequest) :
    s.Delivered i q ↔ s.Delivered i' q := by
  rw [Delivered, Delivered, ← hsame]
  refine exists_congr fun x => and_congr_right fun hx => exists_congr fun msg => ?_
  obtain ⟨msgs, hforwards, -⟩ := (h.proxies x.1).forwards
  rw [hforwards.same i (h.sent i x hx).1 i' (h.sent i' x (hsame ▸ hx)).1]

/-- **One order.**  A replica forwards in increasing order of deadline and client, what two of them
have forwarded they have forwarded in one order, and where they have been delivered the same
messages and have verified them, a check behind all deadlines makes their lists equal, of which the
requests are those of the messages that are valid. -/
structure OneOrder (s : Multicast) (i i' : ℕ) : Prop where
  sorted : (s.receivers i).forwarded.Pairwise DOMRequest.Before
  common : (s.receivers i).forwarded.filter (· ∈ (s.receivers i').forwarded) =
    (s.receivers i').forwarded.filter (· ∈ (s.receivers i).forwarded)
  complete : s.delivered i = s.delivered i' →
    (s.receivers i).receiver.receiverVerifyQueue = [] →
    (s.receivers i').receiver.receiverVerifyQueue = [] →
    ∀ now, (s.receivers i).clock ≤ now → (s.receivers i').clock ≤ now →
      (∀ q, s.Delivered i q → q.deadline ≤ now) →
      ((s.receivers i).next false (.check now)).forwarded =
          ((s.receivers i').next false (.check now)).forwarded ∧
        ∀ q, q ∈ ((s.receivers i).next false (.check now)).forwarded ↔
          s.Delivered i q ∧ ClientMessage.verify q.clientId q.clientReq = true

end

section

attribute [local instance] oneByteMessage

/-- The proxies and the receivers before anything has happened. -/
def atRest (cfg : ProxyConfig) : Multicast where
  proxies j := .create cfg j 0
  receivers _ := {}
  delivered _ := ∅

/-- One proxy takes three messages, and sends the last two in a batch; the batch arrives behind the
first message at one receiver, and before it at the other. -/
lemma run_crossed : ∃ s, Run (system Proxy.batchesOfTwo)
      (fun es s e => Homed (fun _ => 0) es s e ∧ s.InTime e)
      [.proxy 0 (.clientRequest 0 0 0 [1]), .proxy 0 (.clientRequest 1 1 1 [2]),
        .proxy 0 (.clientRequest 2 2 2 [3]), .deliver 0 0 0 5, .deliver 0 0 1 6, .deliver 1 0 1 7,
        .deliver 1 0 0 8] s ∧
    (∀ i < 2, (s.receivers i).keys.length = 3) ∧
    (s.receivers 0).keys ≠ (s.receivers 1).keys ∧ s.delivered 0 = s.delivered 1 := by
  have hstart : Run (system Proxy.batchesOfTwo)
      (fun es s e => Homed (fun _ => 0) es s e ∧ s.InTime e) [] (atRest Proxy.batchesOfTwo) :=
    .start ⟨fun _ => ⟨0, by decide, rfl⟩, fun _ => rfl, fun _ => rfl⟩
  have h₁ := run_proxy hstart 0 (.clientRequest 0 0 0 [1]) rfl (by decide) fun _ _ _ _ => rfl
  have h₂ := run_proxy h₁ 0 (.clientRequest 1 1 1 [2]) rfl (by decide) fun _ _ _ _ => rfl
  have h₃ := run_proxy h₂ 0 (.clientRequest 2 2 2 [3]) rfl (by decide) fun _ _ _ _ => rfl
  have h₄ := run_deliver h₃ 0 0 0 5 (by decide) rfl (by decide) (by decide) (by decide)
  have h₅ := run_deliver h₄ 0 0 1 6 (by decide) rfl (by decide) (by decide) (by decide)
  have h₆ := run_deliver h₅ 1 0 1 7 (by decide) rfl (by decide) (by decide) (by decide)
  have h₇ := run_deliver h₆ 1 0 0 8 (by decide) rfl (by decide) (by decide) (by decide)
  exact ⟨_, h₇, by decide, by decide, by decide⟩

/-- Both receivers have all three requests once. -/
theorem multicast_exactly_once_crossed : ∃ s : Multicast,
    (∀ i < 2, (s.receivers i).keys.length = 3 ∧
      HasDelivered (s.Delivered i) (s.receivers i) ∧ ExactlyOnce false (s.receivers i)) := by
  obtain ⟨s, hrun, hkeys, -⟩ := run_crossed
  exact ⟨s, fun i hi => ⟨hkeys i hi, multicast_exactly_once (hrun.mono fun _ _ _ hG => hG.1) i⟩⟩

end

end Multicast

end DomBft
