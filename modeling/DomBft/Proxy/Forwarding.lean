import DomBft.Lib.Run
import DomBft.Proxy
import DomBft.Receiver.Delivery

/-!
What a proxy forwards, over every sequence of requests and measurements.

* `stamped`: the requests that a receiver has been sent, and behind them those that wait for the
  next batch; `Idle`: nothing waits where nothing is batched, and less than a batch otherwise.
* `handle_cases`: what an event does: it changes the latency bound at most, or it `Stamps` one
  request.
* `InRange`: what is assumed of a run, so that no deadline wraps.
* `forwards_in_order`: **every receiver is sent what the proxy has taken**, in the order in which
  it has arrived and with increasing deadlines.
-/

namespace DomBft

open Fallible Transition

namespace Proxy

variable {cfg : ProxyConfig} {p p' : Proxy} {i now : ℕ}

/-! ### What has been sent -/

/-- The messages to a receiver, oldest first. -/
def sentTo (p : Proxy) (i : ℕ) : List ProxyMsg := (p.sent.filter (·.1 = i)).map (·.2)

/-- The requests that have been forwarded to a receiver, oldest first. -/
def forwarded (p : Proxy) (i : ℕ) : List StampedRequest := (p.sentTo i).flatMap ProxyMsg.requests

/-- The requests that have been forwarded to a receiver, and those that wait. -/
def stamped (p : Proxy) (i : ℕ) : List StampedRequest := p.forwarded i ++ p.domReqBatchBuffer

lemma sentTo_sendToAll (hi : i < cfg.numReceivers.toNat) (p : Proxy) (msg : ProxyMsg) :
    (p.sendToAll cfg msg).sentTo i = p.sentTo i ++ [msg] := by
  have hone : (List.range cfg.numReceivers.toNat).filter (· = i) = [i] := by
    rw [List.filter_eq, List.count_eq_one_of_mem List.nodup_range (List.mem_range.mpr hi)]
    rfl
  have hfilter : ((List.range cfg.numReceivers.toNat).map fun i => (i, msg)).filter (·.1 = i) =
      [(i, msg)] := by
    rw [List.filter_map]
    exact congrArg (List.map fun i => (i, msg)) hone
  rw [sentTo, sendToAll, List.filter_append, List.map_append, hfilter]
  rfl

lemma forwarded_sendToAll (hi : i < cfg.numReceivers.toNat) (p : Proxy) (msg : ProxyMsg) :
    (p.sendToAll cfg msg).forwarded i = p.forwarded i ++ msg.requests := by
  rw [forwarded, sentTo_sendToAll hi, List.flatMap_append, List.flatMap_singleton]
  rfl

/-! ### The steps -/

/-- Nothing waits unless requests are batched, and what waits is less than a batch. -/
structure Idle (cfg : ProxyConfig) (p : Proxy) : Prop where
  unbatched : p.isFirstReq = true ∨ cfg.proxyBatchEnabled = false → p.domReqBatchBuffer = []
  short : p.domReqBatchBuffer = [] ∨ p.domReqBatchBuffer.length < cfg.proxyBatchMaxCount

/-- One more request has its deadline, and is forwarded to all receivers or waits. -/
structure Stamps (cfg : ProxyConfig) (p : Proxy) (q : StampedRequest) (p' : Proxy) : Prop where
  proxyId : p'.proxyId = p.proxyId
  lastDeadline : p'.lastDeadline = q.deadline
  idle : p'.Idle cfg
  stamped : ∀ i < cfg.numReceivers.toNat, p'.stamped i = p.stamped i ++ [q]
  sent : ∃ msgs, ∀ i < cfg.numReceivers.toNat, p'.sentTo i = p.sentTo i ++ msgs

lemma stamps_forwardRequest (hp : p.Idle cfg) (inReq : ClientRequestProto) (hdr : Bytes)
    (hdirect : p.isFirstReq = true ∨ cfg.proxyBatchEnabled = false) :
    p.Stamps cfg (p.stamp cfg now inReq hdr) (p.forwardRequest cfg now inReq hdr) where
  proxyId := rfl
  lastDeadline := rfl
  idle := ⟨fun _ => hp.unbatched hdirect, .inl (hp.unbatched hdirect)⟩
  stamped i hi := by
    have hempty := hp.unbatched hdirect
    have hbuffer : (p.forwardRequest cfg now inReq hdr).domReqBatchBuffer = [] := hempty
    rw [stamped, stamped, hbuffer, hempty, List.append_nil, List.append_nil]
    exact forwarded_sendToAll hi _ _
  sent := ⟨_, fun _ hi => sentTo_sendToAll hi _ _⟩

lemma stamps_bufferRequest (hbatch : p.isFirstReq = false ∧ cfg.proxyBatchEnabled = true)
    (checkTime sendTime : ℕ) (inReq : ClientRequestProto) (hdr : Bytes) :
    p.Stamps cfg (p.stamp cfg now inReq hdr)
      (p.bufferRequest cfg now checkTime sendTime inReq hdr) := by
  have hbusy : ¬(p.isFirstReq = true ∨ cfg.proxyBatchEnabled = false) := by
    rw [hbatch.1, hbatch.2]
    decide
  rw [bufferRequest, setDOMRequest]
  dsimp only
  split_ifs with hfull
  · refine ⟨rfl, rfl, ⟨fun _ => rfl, .inl rfl⟩, fun i hi => ?_, _,
      fun _ hi => sentTo_sendToAll hi _ _⟩
    rw [stamped, sendBatch, forwarded_sendToAll hi]
    show (p.forwarded i ++ (p.domReqBatchBuffer ++ [_])) ++ [] = _
    rw [List.append_nil, ← List.append_assoc]
    rfl
  · refine ⟨rfl, rfl, ⟨fun h => absurd h hbusy, .inr ?_⟩, fun i _ => ?_, [],
      fun i _ => (List.append_nil _).symm⟩
    · rw [batchFull, decide_eq_true_eq, not_or] at hfull
      exact not_le.mp hfull.1
    · exact (List.append_assoc _ _ _).symm

/-- The message of a client that a proxy takes. -/
def taken [ClientMessage] : ProxyEvent → Option Bytes
  | .clientRequest _ _ _ msg => if (ClientMessage.parse msg).isSome then some msg else none
  | .measurementReply .. => none

/-- **What an event does**: it changes the latency bound at most, or it stamps the request that
has been taken. -/
lemma handle_cases [ClientMessage] {e : ProxyEvent} (hp : p.Idle cfg)
    (h : p.handle cfg e = .ok p') :
    taken e = none ∧ p'.proxyId = p.proxyId ∧ p'.lastDeadline = p.lastDeadline ∧ p'.Idle cfg ∧
        p'.sent = p.sent ∧ p'.domReqBatchBuffer = p.domReqBatchBuffer ∨
      ∃ now checkTime sendTime msg inReq, e = .clientRequest now checkTime sendTime msg ∧
        taken e = some msg ∧ ClientMessage.parse msg = some inReq ∧
        p.Stamps cfg (p.stamp cfg now inReq msg) p' := by
  cases e with
  | measurementReply now reply =>
      obtain ⟨context, -, h⟩ := bind_eq_ok.mp h
      obtain ⟨bound, -, h⟩ := bind_eq_ok.mp h
      cases pure_eq_ok.mp h
      exact .inl ⟨rfl, rfl, rfl, ⟨hp.unbatched, hp.short⟩, rfl, rfl⟩
  | clientRequest now checkTime sendTime msg =>
      rw [handle] at h
      split at h
      · rename_i hparse
        cases Except.ok.inj h
        exact .inl ⟨by rw [taken, hparse]; rfl, rfl, rfl, hp, rfl, rfl⟩
      · rename_i inReq hparse
        have htaken : taken (.clientRequest now checkTime sendTime msg) = some msg := by
          rw [taken, hparse]
          rfl
        refine .inr ⟨now, checkTime, sendTime, msg, inReq, rfl, htaken, hparse, ?_⟩
        split_ifs at h with hbatch
        · cases Except.ok.inj h
          refine stamps_bufferRequest ⟨?_, hbatch.2⟩ checkTime sendTime inReq msg
          simpa using hbatch.1
        · cases Except.ok.inj h
          refine stamps_forwardRequest hp inReq msg ?_
          rw [not_and_or] at hbatch
          simpa using hbatch

/-! ### Deadlines -/

/-- Where nothing wraps, the next deadline lies behind the last one and not before the clock. -/
lemma nextDeadline_bounds {b : ℕ} (hnow : now + 2 ^ 32 ≤ b) (hlast : p.lastDeadline < b)
    (hbound : b < 2 ^ 64) :
    p.lastDeadline < p.nextDeadline now ∧ now ≤ p.nextDeadline now ∧
      p.nextDeadline now ≤ b := by
  have hlatency := p.latencyBound.toNat_lt
  have hfirst : (now + p.latencyBound.toNat) % 2 ^ 64 = now + p.latencyBound.toNat :=
    Nat.mod_eq_of_lt (by omega)
  have hsecond : (p.lastDeadline + 1) % 2 ^ 64 = p.lastDeadline + 1 := Nat.mod_eq_of_lt (by omega)
  rw [nextDeadline, hfirst, hsecond]
  omega

/-- The clock of a proxy stays below `2 ^ 63`, and there have been fewer than `2 ^ 62` events. -/
def InRange (n : ℕ) : ProxyEvent → Prop
  | .clientRequest now _ _ _ => now < 2 ^ 63 ∧ n < 2 ^ 62
  | .measurementReply .. => True

instance (n : ℕ) : (e : ProxyEvent) → Decidable (InRange n e)
  | .clientRequest .. => inferInstanceAs (Decidable (_ ∧ _))
  | .measurementReply .. => .isTrue trivial

/-! ### Runs -/

section

variable [ClientMessage]

/-- A proxy, from a time at which it has been created. -/
def system (cfg : ProxyConfig) (proxyId : ℕ) : System Proxy ProxyEvent where
  init p := ∃ now < 2 ^ 63, p = create cfg proxyId now
  step p e p' := p.handle cfg e = .ok p'

/-- A run goes on with an event. -/
lemma run_next {proxyId : ℕ} {es : List ProxyEvent}
    (hrun : Run (system cfg proxyId) (fun es _ e => InRange es.length e) es p) (e : ProxyEvent)
    (hclock : InRange es.length e) (h : p.handle cfg e = .ok p') :
    Run (system cfg proxyId) (fun es _ e => InRange es.length e) (es ++ [e]) p' :=
  hrun.step hclock h

/-- A request is what its message says, and the deadline is not before it has been sent. -/
structure Names (proxyId : ℕ) (q : StampedRequest) : Prop where
  parses : ∃ m, ClientMessage.parse q.clientReq = some m ∧ q.clientId = m.clientId ∧
    q.clientSeq = m.clientSeq
  proxyId_eq : q.proxyId = proxyId
  not_late : q.late = false
  sendTime_le : q.sendTime ≤ q.deadline

/-- **Forwarding in order.**  To each receiver the proxy has forwarded the messages that it has
taken, but for those that wait for the next batch, which are fewer than a batch: each one once, in
the order in which they have arrived, as they are, and with increasing deadlines.  All receivers
are sent the same messages. -/
structure ForwardsInOrder (cfg : ProxyConfig) (proxyId : ℕ) (msgs : List Bytes) (p : Proxy) :
    Prop where
  proxyId_eq : p.proxyId = proxyId
  idle : p.Idle cfg
  contents : ∀ i < cfg.numReceivers.toNat, (p.stamped i).map (·.clientReq) = msgs
  increasing : ∀ i < cfg.numReceivers.toNat, (p.stamped i).Pairwise (·.deadline < ·.deadline)
  last : ∀ i < cfg.numReceivers.toNat, ∀ q ∈ p.stamped i, q.deadline ≤ p.lastDeadline
  names : ∀ i < cfg.numReceivers.toNat, ∀ q ∈ p.stamped i, Names proxyId q
  same : ∀ i < cfg.numReceivers.toNat, ∀ i' < cfg.numReceivers.toNat, p.sentTo i = p.sentTo i'

namespace ForwardsInOrder

variable {proxyId : ℕ} {msgs : List Bytes} {q : StampedRequest}

lemma create (cfg : ProxyConfig) (proxyId now : ℕ) :
    (Proxy.create cfg proxyId now).ForwardsInOrder cfg proxyId [] where
  proxyId_eq := rfl
  idle := ⟨fun _ => rfl, .inl rfl⟩
  contents _ _ := rfl
  increasing _ _ := List.Pairwise.nil
  last _ _ _ hq := absurd hq List.not_mem_nil
  names _ _ _ hq := absurd hq List.not_mem_nil
  same _ _ _ _ := rfl

/-- Another request, with a deadline behind the last one. -/
lemma stamp (h : p.ForwardsInOrder cfg proxyId msgs) (hstamps : p.Stamps cfg q p')
    (hnames : Names proxyId q) (hlast : p.lastDeadline < q.deadline) :
    p'.ForwardsInOrder cfg proxyId (msgs ++ [q.clientReq]) where
  proxyId_eq := hstamps.proxyId.trans h.proxyId_eq
  idle := hstamps.idle
  contents i hi := by
    rw [hstamps.stamped i hi, List.map_append, h.contents i hi]
    rfl
  increasing i hi := by
    rw [hstamps.stamped i hi, List.pairwise_append]
    refine ⟨h.increasing i hi, List.pairwise_singleton _ _, fun x hx y hy => ?_⟩
    rw [List.mem_singleton.mp hy]
    exact (h.last i hi x hx).trans_lt hlast
  last i hi x hx := by
    rw [hstamps.stamped i hi] at hx
    rw [hstamps.lastDeadline]
    rcases List.mem_append.mp hx with hx | hx
    · exact (h.last i hi x hx).trans hlast.le
    · rw [List.mem_singleton.mp hx]
  names i hi x hx := by
    rw [hstamps.stamped i hi] at hx
    rcases List.mem_append.mp hx with hx | hx
    · exact h.names i hi x hx
    · rw [List.mem_singleton.mp hx]
      exact hnames
  same i hi i' hi' := by
    obtain ⟨msgs, hmsgs⟩ := hstamps.sent
    rw [hmsgs i hi, hmsgs i' hi', h.same i hi i' hi']

/-- **An event keeps the order**, and moves the last deadline on by as much as the clock needs. -/
lemma handle (h : p.ForwardsInOrder cfg proxyId msgs) {e : ProxyEvent} {n : ℕ}
    (hclock : InRange n e) (hlast : p.lastDeadline ≤ 2 ^ 63 + 2 ^ 32 + n)
    (hstep : p.handle cfg e = .ok p') :
    p'.ForwardsInOrder cfg proxyId (msgs ++ (taken e).toList) ∧
      p'.lastDeadline ≤ 2 ^ 63 + 2 ^ 32 + (n + 1) := by
  rcases handle_cases h.idle hstep with ⟨htaken, hid, hdeadline, hidle, hsent, hbuffer⟩ |
      ⟨now, checkTime, sendTime, msg, inReq, rfl, htaken, hparse, hstamps⟩
  · have hstamped : ∀ i, p'.stamped i = p.stamped i := fun i => by
      rw [stamped, stamped, forwarded, forwarded, sentTo, sentTo, hsent, hbuffer]
    rw [htaken, Option.toList_none, List.append_nil, hdeadline]
    refine ⟨⟨hid.trans h.proxyId_eq, hidle, ?_, ?_, ?_, ?_, ?_⟩, hlast.trans (by omega)⟩
    · exact fun i hi => (hstamped i).symm ▸ h.contents i hi
    · exact fun i hi => (hstamped i).symm ▸ h.increasing i hi
    · rw [hdeadline]
      exact fun i hi => (hstamped i).symm ▸ h.last i hi
    · exact fun i hi => (hstamped i).symm ▸ h.names i hi
    · intro i hi i' hi'
      rw [sentTo, sentTo, hsent]
      exact h.same i hi i' hi'
  · obtain ⟨hnow, hlength⟩ := hclock
    obtain ⟨hbehind, hfrom, hbound⟩ := nextDeadline_bounds (b := 2 ^ 63 + 2 ^ 32 + (n + 1))
      (p := p) (show now + 2 ^ 32 ≤ _ by omega) (by omega) (by omega)
    rw [htaken]
    refine ⟨h.stamp hstamps ⟨⟨inReq, hparse, rfl, rfl⟩, h.proxyId_eq, rfl, hfrom⟩ hbehind, ?_⟩
    rw [hstamps.lastDeadline]
    exact hbound

end ForwardsInOrder

/-- **A proxy forwards in order**, whatever arrives at it. -/
theorem forwards_in_order {cfg : ProxyConfig} {proxyId : ℕ} {es : List ProxyEvent} {p : Proxy}
    (hrun : Run (system cfg proxyId) (fun es _ e => InRange es.length e) es p) :
    p.ForwardsInOrder cfg proxyId (es.filterMap taken) := by
  have hboth : p.ForwardsInOrder cfg proxyId (es.filterMap taken) ∧
      p.lastDeadline ≤ 2 ^ 63 + 2 ^ 32 + es.length := by
    refine hrun.invariant (P := fun es p => p.ForwardsInOrder cfg proxyId (es.filterMap taken) ∧
      p.lastDeadline ≤ 2 ^ 63 + 2 ^ 32 + es.length) ?_ ?_
    · rintro _ ⟨now, hnow, rfl⟩
      refine ⟨.create cfg proxyId now, ?_⟩
      show now ≤ _
      omega
    · rintro es p e p' - ⟨h, hlast⟩ hclock hstep
      have hone : [e].filterMap taken = (taken e).toList := by
        cases htaken : taken e with
        | none =>
            rw [List.filterMap_cons_none htaken]
            rfl
        | some msg =>
            rw [List.filterMap_cons_some htaken]
            rfl
      rw [List.filterMap_append, hone, List.length_append, List.length_singleton]
      exact h.handle hclock hlast hstep
  exact hboth.1

end

section

attribute [local instance] oneByteMessage

/-- Two receivers, and batches of two. -/
def batchesOfTwo : ProxyConfig where
  numReceivers := 2
  offset := id
  proxyBatchEnabled := true
  proxyBatchMaxCount := 2

/-- Of four messages one does not parse; the first one is forwarded on its own, and the last two
are forwarded in a batch. -/
theorem forwards_in_order_batch : ∃ p : Proxy,
    p.ForwardsInOrder batchesOfTwo 0 [[1], [2], [3]] ∧ (p.sentTo 1).length = 2 ∧
      (p.forwarded 1).map (·.deadline) = [100000, 100001, 100002] := by
  have hstart : Run (system batchesOfTwo 0) (fun es _ e => InRange es.length e) []
    (create batchesOfTwo 0 0) := .start ⟨0, by decide, rfl⟩
  have hone := run_next hstart (.clientRequest 0 0 0 [1]) (by decide) rfl
  have htwo := run_next hone (.clientRequest 0 0 0 []) (by decide) rfl
  have hthree := run_next htwo (.clientRequest 1 1 1 [2]) (by decide) rfl
  have hfour := run_next hthree (.clientRequest 1 2 2 [3]) (by decide) rfl
  exact ⟨_, forwards_in_order hfour, by decide, by decide⟩

end

end Proxy

end DomBft
