import DomBft.Receiver
import DomBft.Lib.OrderedMap
import DomBft.Lib.Run
import Mathlib.Data.List.TakeWhile

/-!
Delivery of requests with a deadline, over every interleaving of arrivals, verification steps
and checks of the deadlines.

* `ReceiverTrace`: a receiver with the key each request was queued under and the time last
  read; `ReceiverTrace.system` is the transition system.
* `Intact`: the invariant of the deadline queue, with one lemma for each step.
* `KeepsEntries`: no step replaces or erases the entry of another request, and what has
  failed its check leaves the queue.
* `delivery_exactly_once`: then every valid request is forwarded once.
-/

namespace DomBft

open Std (ExtTreeMap)
open Transition

/-- What can happen at a receiver. -/
inductive ReceiverEvent where
  | receive (recvTime : ℕ) (requests : List DOMRequest)
  | verify (r : ℕ)
  | check (now : ℕ)
deriving DecidableEq, Repr

/-- A receiver, the keys of its requests, and the time last read. -/
structure ReceiverTrace where
  receiver : Receiver := {}
  keys : List DeadlineKey := []
  clock : ℕ := 0

namespace ReceiverTrace

variable [ClientMessage]

/-- The trace after an event. -/
def next (ignoreDeadlines : Bool) (t : ReceiverTrace) : ReceiverEvent → ReceiverTrace
  | .receive recvTime requests =>
    { receiver := t.receiver.receiveBatchedRequests ignoreDeadlines recvTime requests
      keys := t.keys ++ requests.map (Receiver.queueKey ignoreDeadlines recvTime)
      clock := recvTime }
  | .verify r => { t with receiver := t.receiver.receiverVerify r }
  | .check now => { t with receiver := t.receiver.checkDeadlines now, clock := now }

/-- A request is verified after it has been enqueued for it. -/
def Enabled (t : ReceiverTrace) : ReceiverEvent → Prop
  | .verify r => r ∈ t.receiver.receiverVerifyQueue
  | _ => True

omit [ClientMessage] in
instance (t : ReceiverTrace) : (ev : ReceiverEvent) → Decidable (t.Enabled ev)
  | .verify r => inferInstanceAs (Decidable (r ∈ t.receiver.receiverVerifyQueue))
  | .receive _ _ => inferInstanceAs (Decidable True)
  | .check _ => inferInstanceAs (Decidable True)

/-- The runs of a receiver. -/
def system (ignoreDeadlines : Bool) : System ReceiverTrace ReceiverEvent where
  init t := t = {}
  step t ev t' := t.Enabled ev ∧ t' = t.next ignoreDeadlines ev

/-- A run goes on with an event. -/
lemma run_next {ignoreDeadlines : Bool}
    {G : List ReceiverEvent → ReceiverTrace → ReceiverEvent → Prop} {es : List ReceiverEvent}
    {t : ReceiverTrace} (hrun : Run (system ignoreDeadlines) G es t) (ev : ReceiverEvent)
    (hen : t.Enabled ev) (hG : G es t ev) :
    Run (system ignoreDeadlines) G (es ++ [ev]) (t.next ignoreDeadlines ev) :=
  hrun.step hG ⟨hen, rfl⟩

end ReceiverTrace

section

variable [ClientMessage]

/-- The message of the client parses, and its signature verifies. -/
def ReceiverRequest.Valid (q : ReceiverRequest) : Prop :=
  (ClientMessage.parse q.request.clientReq).isSome ∧
    ClientMessage.verify q.clientId q.request.clientReq = true

/-- **Delivery.**  Of the requests received so far:
* each one is forwarded at most once, and only if it is valid;
* each one that is valid or waits for its verification has been forwarded or has its entry
  in the queue, so that nothing but its own failure has removed it;
* a check forwards a request only when its deadline has passed;
* once all requests have been verified, a check forwards all valid ones whose deadline has
  passed. -/
structure ExactlyOnce (ignoreDeadlines : Bool) (t : ReceiverTrace) : Prop where
  once : t.receiver.processQueue.Nodup
  valid : ∀ r ∈ t.receiver.processQueue, ∃ q, t.receiver.requests[r]? = some q ∧ q.Valid
  kept : ∀ (r : ℕ) (q : ReceiverRequest), t.receiver.requests[r]? = some q →
    q.Valid ∨ r ∈ t.receiver.receiverVerifyQueue →
    r ∈ t.receiver.processQueue ∨ ∃ key : DeadlineKey, t.receiver.deadlineQueue[key]? = some r
  deadline : ignoreDeadlines = false → ∀ (r : ℕ) (q : ReceiverRequest) (key : DeadlineKey),
    t.receiver.requests[r]? = some q → t.keys[r]? = some key → key.1 = q.request.deadline
  passed : ∀ now, ∀ r ∈ (t.receiver.checkDeadlines now).processQueue,
    r ∈ t.receiver.processQueue ∨ ∃ key, t.keys[r]? = some key ∧ key.1 ≤ now
  complete : t.receiver.receiverVerifyQueue = [] →
    ∀ (now r : ℕ) (q : ReceiverRequest) (key : DeadlineKey),
    t.receiver.requests[r]? = some q → q.Valid → t.keys[r]? = some key → key.1 ≤ now →
    r ∈ (t.receiver.checkDeadlines now).processQueue

/-- No step replaces the entry of another request, and what fails its check leaves the
queue: a request arrives under a key that is not in use, its message parses, and one that
fails its check is queued under its deadline. -/
def KeepsEntries (ignoreDeadlines : Bool) (_ : List ReceiverEvent) (t : ReceiverTrace) :
    ReceiverEvent → Prop
  | .receive recvTime requests =>
    (requests.map (Receiver.queueKey ignoreDeadlines recvTime)).Nodup ∧
      ∀ q ∈ requests, Receiver.queueKey ignoreDeadlines recvTime q ∉ t.receiver.deadlineQueue
  | .verify r => ∀ q, t.receiver.requests[r]? = some q →
      (ClientMessage.parse q.request.clientReq).isSome ∧
        (ClientMessage.verify q.clientId q.request.clientReq = false →
          t.keys[r]? = some (q.deadline, q.clientId))
  | .check _ => True

/-! ### The steps of the receiver -/

omit [ClientMessage] in
@[simp] lemma DOMRequest.arrive_deadline (q : DOMRequest) (recvTime : ℕ) :
    (q.arrive recvTime).deadline = q.deadline := by
  rw [arrive]
  split <;> rfl

omit [ClientMessage] in
@[simp] lemma DOMRequest.arrive_clientId (q : DOMRequest) (recvTime : ℕ) :
    (q.arrive recvTime).clientId = q.clientId := by
  rw [arrive]
  split <;> rfl

omit [ClientMessage] in
/-- A request that is not late is queued as it is. -/
lemma DOMRequest.arrive_eq {q : DOMRequest} {recvTime : ℕ} (h : recvTime ≤ q.deadline) :
    q.arrive recvTime = q := if_neg (not_lt.mpr h)

omit [ClientMessage] in
/-- An arrival adds an object that is not verified, an entry, and a verification. -/
lemma Receiver.enqueueReceiverRequest_eq (ignoreDeadlines : Bool) (recvTime : ℕ) (s : Receiver)
    (q : DOMRequest) :
    s.enqueueReceiverRequest ignoreDeadlines recvTime q = { s with
      requests := s.requests ++
        [{ request := q.arrive recvTime, deadline := q.deadline, clientId := q.clientId }]
      deadlineQueue :=
        s.deadlineQueue.insert (queueKey ignoreDeadlines recvTime q) s.requests.length
      receiverVerifyQueue := s.receiverVerifyQueue ++ [s.requests.length] } := by
  simp [enqueueReceiverRequest, queueKey]

omit [ClientMessage] in
/-- What a batch adds: its objects, and an entry for each of its keys. -/
lemma Receiver.receiveBatchedRequests_cases (ignoreDeadlines : Bool) (recvTime : ℕ)
    (s : Receiver) (qs : List DOMRequest) :
    (s.receiveBatchedRequests ignoreDeadlines recvTime qs).requests = s.requests ++
        qs.map (fun q => ⟨q.arrive recvTime, q.deadline, q.clientId, false⟩) ∧
      (s.receiveBatchedRequests ignoreDeadlines recvTime qs).processQueue = s.processQueue ∧
      ∀ key, key ∈ (s.receiveBatchedRequests ignoreDeadlines recvTime qs).deadlineQueue ↔
        key ∈ qs.map (queueKey ignoreDeadlines recvTime) ∨ key ∈ s.deadlineQueue := by
  induction qs generalizing s with
  | nil => simp [receiveBatchedRequests]
  | cons q qs ih =>
      obtain ⟨hreq, hproc, hkey⟩ := ih (s.enqueueReceiverRequest ignoreDeadlines recvTime q)
      rw [show s.receiveBatchedRequests ignoreDeadlines recvTime (q :: qs) =
        (s.enqueueReceiverRequest ignoreDeadlines recvTime q).receiveBatchedRequests
          ignoreDeadlines recvTime qs from rfl, hreq, hproc]
      refine ⟨by simp [enqueueReceiverRequest_eq], by rw [enqueueReceiverRequest_eq], fun key => ?_⟩
      rw [hkey, enqueueReceiverRequest_eq, ExtTreeMap.mem_insert,
        Std.LawfulEqCmp.compare_eq_iff_eq, List.map_cons, List.mem_cons, eq_comm (a := key)]
      tauto

/-- The verification of a valid request. -/
lemma Receiver.receiverVerify_of_valid {s : Receiver} {r : ℕ} {q : ReceiverRequest}
    (hq : s.requests[r]? = some q) (hval : q.Valid) :
    s.receiverVerify r = { s with
      receiverVerifyQueue := s.receiverVerifyQueue.erase r
      requests := s.requests.modify r fun q => { q with verified := true } } := by
  have hparse : ¬(ClientMessage.parse q.request.clientReq).isNone = true := by
    rw [Option.isNone_eq_false_iff.mpr hval.1]
    decide
  rw [receiverVerify]
  simp only [hq, if_neg hparse, hval.2, if_true]

/-- The verification of a request that fails its check. -/
lemma Receiver.receiverVerify_of_failed {s : Receiver} {r : ℕ} {q : ReceiverRequest}
    (hq : s.requests[r]? = some q) (hparse : (ClientMessage.parse q.request.clientReq).isSome)
    (hver : ClientMessage.verify q.clientId q.request.clientReq = false) :
    s.receiverVerify r = { s with
      receiverVerifyQueue := s.receiverVerifyQueue.erase r
      deadlineQueue := s.deadlineQueue.erase (q.deadline, q.clientId) } := by
  have hparse : ¬(ClientMessage.parse q.request.clientReq).isNone = true := by
    rw [Option.isNone_eq_false_iff.mpr hparse]
    decide
  rw [receiverVerify]
  simp only [hq, if_neg hparse, hver, Bool.false_eq_true, if_false]

omit [ClientMessage] in
/-- A request after another one has arrived. -/
lemma Receiver.getElem?_arrive_cases {s : Receiver} {r : ℕ} {q o : ReceiverRequest}
    (h : (s.requests ++ [o])[r]? = some q) :
    s.requests[r]? = some q ∧ r < s.requests.length ∨ r = s.requests.length ∧ q = o := by
  by_cases hr : r < s.requests.length
  · rw [List.getElem?_append_left hr] at h
    exact .inl ⟨h, hr⟩
  · have hlength := (List.getElem?_eq_some_iff.mp h).1
    rw [List.length_append, List.length_singleton] at hlength
    have hlast : r = s.requests.length := by omega
    rw [hlast, List.getElem?_concat_length] at h
    exact .inr ⟨hlast, (Option.some.inj h).symm⟩

omit [ClientMessage] in
/-- A request after another one has been marked as verified. -/
lemma Receiver.getElem?_mark_of_ne {s : Receiver} {r x : ℕ} (hx : x ≠ r) :
    (s.requests.modify r fun q => { q with verified := true })[x]? = s.requests[x]? := by
  simp [hx.symm]

omit [ClientMessage] in
lemma Receiver.getElem?_mark_cases {s : Receiver} {r x : ℕ} {q o : ReceiverRequest}
    (hq : s.requests[r]? = some q)
    (ho : (s.requests.modify r fun q => { q with verified := true })[x]? = some o) :
    x = r ∧ o = { q with verified := true } ∨ x ≠ r ∧ s.requests[x]? = some o := by
  by_cases hx : x = r
  · subst hx
    simp only [List.getElem?_modify, hq, if_true, Option.map_eq_map, Option.map_some,
      Option.some.injEq] at ho
    exact .inl ⟨rfl, ho.symm⟩
  · rw [getElem?_mark_of_ne hx] at ho
    exact .inr ⟨hx, ho⟩

omit [ClientMessage] in
/-- The order of `std::pair`: by the first component, then by the second. -/
lemma DeadlineKey.cmp_eq_lt {k k' : DeadlineKey} :
    DeadlineKey.cmp k k' = .lt ↔ k.1 < k'.1 ∨ k.1 = k'.1 ∧ k.2 < k'.2 := by
  rw [DeadlineKey.cmp, show (lexOrd : Ord DeadlineKey).compare k k' =
    (compare k.1 k'.1).then (compare k.2 k'.2) from rfl, Ordering.then_eq_lt,
    Nat.compare_eq_lt, Nat.compare_eq_eq, Std.compare_eq_lt]

/-! ### The invariant -/

/-- The entries of the deadline queue are those of the requests that are neither forwarded
nor turned down, each under its own key. -/
structure Intact (ignoreDeadlines : Bool) (t : ReceiverTrace) : Prop where
  keys_length : t.keys.length = t.receiver.requests.length
  key_eq : ignoreDeadlines = false → ∀ (r : ℕ) (q : ReceiverRequest) (key : DeadlineKey),
    t.receiver.requests[r]? = some q → t.keys[r]? = some key →
    key = (q.request.deadline, q.request.clientId)
  pending_nodup : t.receiver.receiverVerifyQueue.Nodup
  pending_lt : ∀ r ∈ t.receiver.receiverVerifyQueue, r < t.receiver.requests.length
  verified_iff : ∀ (r : ℕ) (q : ReceiverRequest), t.receiver.requests[r]? = some q →
    (q.verified = true ↔ q.Valid ∧ r ∉ t.receiver.receiverVerifyQueue)
  entry : ∀ (key : DeadlineKey) (r : ℕ), t.receiver.deadlineQueue[key]? = some r →
    t.keys[r]? = some key ∧ r ∉ t.receiver.processQueue
  awaited : ∀ (key : DeadlineKey) (r : ℕ) (q : ReceiverRequest),
    t.receiver.deadlineQueue[key]? = some r → t.receiver.requests[r]? = some q →
    q.Valid ∨ r ∈ t.receiver.receiverVerifyQueue
  kept : ∀ (r : ℕ) (q : ReceiverRequest), t.receiver.requests[r]? = some q →
    q.Valid ∨ r ∈ t.receiver.receiverVerifyQueue →
    r ∈ t.receiver.processQueue ∨ ∃ key : DeadlineKey, t.receiver.deadlineQueue[key]? = some r
  once : t.receiver.processQueue.Nodup
  forwarded : ∀ r ∈ t.receiver.processQueue, ∃ q,
    t.receiver.requests[r]? = some q ∧ q.verified = true

namespace Intact

variable {ignoreDeadlines : Bool} {t : ReceiverTrace}

lemma init : Intact ignoreDeadlines {} where
  keys_length := rfl
  key_eq := by simp
  pending_nodup := List.nodup_nil
  pending_lt := by simp
  verified_iff := by simp
  entry key r h := by cases ExtTreeMap.getElem?_empty.symm.trans h
  awaited key r q h := by cases ExtTreeMap.getElem?_empty.symm.trans h
  kept := by simp
  once := List.nodup_nil
  forwarded := by simp

/-- One arrival under a key that is not in use. -/
lemma enqueue (h : Intact ignoreDeadlines t) {recvTime : ℕ} {q : DOMRequest}
    (hkey : Receiver.queueKey ignoreDeadlines recvTime q ∉ t.receiver.deadlineQueue) :
    Intact ignoreDeadlines (t.next ignoreDeadlines (.receive recvTime [q])) := by
  have hnext : t.next ignoreDeadlines (.receive recvTime [q]) =
      { receiver := t.receiver.enqueueReceiverRequest ignoreDeadlines recvTime q
        keys := t.keys ++ [Receiver.queueKey ignoreDeadlines recvTime q]
        clock := recvTime } := rfl
  rw [hnext, Receiver.enqueueReceiverRequest_eq]
  set o : ReceiverRequest :=
    { request := q.arrive recvTime, deadline := q.deadline, clientId := q.clientId } with ho
  set key₀ := Receiver.queueKey ignoreDeadlines recvTime q with hkey₀
  set n := t.receiver.requests.length with hn
  have hnew : n ∉ t.receiver.receiverVerifyQueue := fun hr => (h.pending_lt n hr).false
  have hkeys : ∀ r < n, (t.keys ++ [key₀])[r]? = t.keys[r]? := fun r hr =>
    List.getElem?_append_left (by rw [h.keys_length]; exact hr)
  have hlast : (t.keys ++ [key₀])[n]? = some key₀ := by
    rw [hn, ← h.keys_length]
    exact List.getElem?_concat_length
  have hlt : ∀ {key : DeadlineKey} {r : ℕ}, t.receiver.deadlineQueue[key]? = some r → r < n :=
    fun hr => by
      have := (List.getElem?_eq_some_iff.mp (h.entry _ _ hr).1).1
      rwa [h.keys_length] at this
  refine ⟨?_, ?_, ?_, ?_, ?_, ?_, ?_, ?_, h.once, ?_⟩
  · simp only [List.length_append, h.keys_length, List.length_singleton]
  · intro hig r q' key hr hk
    rcases Receiver.getElem?_arrive_cases hr with ⟨hr, hrn⟩ | ⟨rfl, rfl⟩
    · exact h.key_eq hig r q' key hr (by rw [← hkeys r hrn]; exact hk)
    · rw [hlast] at hk
      rw [← Option.some.inj hk, hkey₀, Receiver.queueKey, hig]
      simp [ho]
  · exact List.nodup_append.mpr ⟨h.pending_nodup, List.nodup_singleton _,
      fun a ha b hb => by rw [List.mem_singleton.mp hb]; rintro rfl; exact hnew ha⟩
  · intro r hr
    rw [List.length_append, List.length_singleton]
    rcases List.mem_append.mp hr with hr | hr
    · exact Nat.lt_succ_of_lt (h.pending_lt r hr)
    · rw [List.mem_singleton.mp hr]
      exact Nat.lt_succ_self n
  · intro r q' hr
    rcases Receiver.getElem?_arrive_cases hr with ⟨hr, hrn⟩ | ⟨rfl, rfl⟩
    · rw [h.verified_iff r q' hr, List.mem_append, List.mem_singleton]
      simp [hn, hrn.ne]
    · simp [ho, hn]
  · intro key r hr
    rcases OrderedMap.getElem?_insert_cases hr with ⟨rfl, rfl⟩ | ⟨-, hr⟩
    · refine ⟨hlast, fun hf => ?_⟩
      obtain ⟨_, hq', -⟩ := h.forwarded _ hf
      exact absurd (List.getElem?_eq_some_iff.mp hq').1 (lt_irrefl _)
    · obtain ⟨hk, hf⟩ := h.entry key r hr
      exact ⟨by rw [hkeys r (hlt hr)]; exact hk, hf⟩
  · intro key r q' hr hq'
    rw [List.mem_append, List.mem_singleton]
    rcases OrderedMap.getElem?_insert_cases hr with ⟨-, rfl⟩ | ⟨-, hr⟩
    · exact .inr (.inr rfl)
    · rcases Receiver.getElem?_arrive_cases hq' with ⟨hq', -⟩ | ⟨rfl, rfl⟩
      · exact (h.awaited key r q' hr hq').imp_right .inl
      · exact .inr (.inr rfl)
  · intro r q' hr hval
    rcases Receiver.getElem?_arrive_cases hr with ⟨hr, hrn⟩ | ⟨rfl, rfl⟩
    · have hval : q'.Valid ∨ r ∈ t.receiver.receiverVerifyQueue := by
        refine hval.imp_right fun hp => ?_
        rcases List.mem_append.mp hp with hp | hp
        · exact hp
        · exact absurd (List.mem_singleton.mp hp) hrn.ne
      refine (h.kept r q' hr hval).imp_right fun ⟨key, hk⟩ => ⟨key, ?_⟩
      rw [OrderedMap.getElem?_insert_of_ne]
      · exact hk
      · rintro rfl
        exact hkey (ExtTreeMap.mem_iff_isSome_getElem?.mpr (by rw [hk]; rfl))
    · exact .inr ⟨key₀, ExtTreeMap.getElem?_insert_self⟩
  · intro r hr
    obtain ⟨q', hq', hv⟩ := h.forwarded r hr
    exact ⟨q', by rw [List.getElem?_append_left (List.getElem?_eq_some_iff.mp hq').1]; exact hq', hv⟩

lemma withClock (h : Intact ignoreDeadlines t) (now : ℕ) :
    Intact ignoreDeadlines { t with clock := now } :=
  ⟨h.keys_length, h.key_eq, h.pending_nodup, h.pending_lt, h.verified_iff, h.entry, h.awaited,
    h.kept, h.once, h.forwarded⟩

/-- The arrival of a batch. -/
lemma receive (h : Intact ignoreDeadlines t) {recvTime : ℕ} {qs : List DOMRequest}
    (hnodup : (qs.map (Receiver.queueKey ignoreDeadlines recvTime)).Nodup)
    (hkey : ∀ q ∈ qs, Receiver.queueKey ignoreDeadlines recvTime q ∉ t.receiver.deadlineQueue) :
    Intact ignoreDeadlines (t.next ignoreDeadlines (.receive recvTime qs)) := by
  induction qs generalizing t with
  | nil =>
      rw [show t.next ignoreDeadlines (.receive recvTime []) = { t with clock := recvTime } by
        rw [ReceiverTrace.next, List.map_nil, List.append_nil]; rfl]
      exact h.withClock recvTime
  | cons q qs ih =>
      rw [List.map_cons, List.nodup_cons] at hnodup
      rw [show t.next ignoreDeadlines (.receive recvTime (q :: qs)) =
          (t.next ignoreDeadlines (.receive recvTime [q])).next ignoreDeadlines
            (.receive recvTime qs) by
        simp [ReceiverTrace.next, Receiver.receiveBatchedRequests]]
      refine ih (h.enqueue (hkey q List.mem_cons_self)) hnodup.2 fun q' hq' hmem => ?_
      have hmem : Receiver.queueKey ignoreDeadlines recvTime q' ∈
          (t.receiver.enqueueReceiverRequest ignoreDeadlines recvTime q).deadlineQueue := hmem
      rw [Receiver.enqueueReceiverRequest_eq, ExtTreeMap.mem_insert,
        Std.LawfulEqCmp.compare_eq_iff_eq] at hmem
      rcases hmem with heq | hmem
      · exact hnodup.1 (List.mem_map.mpr ⟨q', hq', heq.symm⟩)
      · exact hkey q' (List.mem_cons_of_mem _ hq') hmem

/-- The verification of a valid request marks it. -/
lemma mark (h : Intact ignoreDeadlines t) {r : ℕ} (hr : r ∈ t.receiver.receiverVerifyQueue)
    {q : ReceiverRequest} (hq : t.receiver.requests[r]? = some q) (hvalid : q.Valid) :
    Intact ignoreDeadlines (t.next ignoreDeadlines (.verify r)) := by
  have hpending : ∀ x, x ∈ t.receiver.receiverVerifyQueue.erase r ↔
      x ≠ r ∧ x ∈ t.receiver.receiverVerifyQueue := fun x => h.pending_nodup.mem_erase_iff
  rw [ReceiverTrace.next, Receiver.receiverVerify_of_valid hq hvalid]
  refine ⟨?_, ?_, h.pending_nodup.erase r, ?_, ?_, h.entry, ?_, ?_, h.once, ?_⟩
  · rw [List.length_modify]
    exact h.keys_length
  · intro hig x o key ho hk
    rcases Receiver.getElem?_mark_cases hq ho with ⟨rfl, rfl⟩ | ⟨-, ho⟩
    · exact h.key_eq hig x q key hq hk
    · exact h.key_eq hig x o key ho hk
  · intro x hx
    rw [List.length_modify]
    exact h.pending_lt x ((hpending x).mp hx).2
  · intro x o ho
    rw [hpending]
    rcases Receiver.getElem?_mark_cases hq ho with ⟨rfl, rfl⟩ | ⟨hne, ho⟩
    · exact iff_of_true rfl ⟨hvalid, fun hx => hx.1 rfl⟩
    · rw [h.verified_iff x o ho]
      simp [hne]
  · intro key x o hk ho
    rw [hpending]
    rcases Receiver.getElem?_mark_cases hq ho with ⟨rfl, rfl⟩ | ⟨hne, ho⟩
    · exact .inl hvalid
    · exact (h.awaited key x o hk ho).imp_right fun hx => ⟨hne, hx⟩
  · intro x o ho hx
    rcases Receiver.getElem?_mark_cases hq ho with ⟨rfl, rfl⟩ | ⟨hne, ho⟩
    · exact h.kept x q hq (.inl hvalid)
    · exact h.kept x o ho (hx.imp_right fun hx => ((hpending x).mp hx).2)
  · intro x hx
    obtain ⟨o, ho, hv⟩ := h.forwarded x hx
    have hxr : x ≠ r := by
      rintro rfl
      exact ((h.verified_iff x o ho).mp hv).2 hr
    exact ⟨o, (Receiver.getElem?_mark_of_ne hxr).trans ho, hv⟩

/-- The verification of a request that fails its check erases the entry of the request, if the
request is queued under its deadline. -/
lemma turnDown (h : Intact ignoreDeadlines t) {r : ℕ} (hr : r ∈ t.receiver.receiverVerifyQueue)
    {q : ReceiverRequest} (hq : t.receiver.requests[r]? = some q)
    (hparse : (ClientMessage.parse q.request.clientReq).isSome)
    (hver : ClientMessage.verify q.clientId q.request.clientReq = false)
    (hkey : t.keys[r]? = some (q.deadline, q.clientId)) :
    Intact ignoreDeadlines (t.next ignoreDeadlines (.verify r)) := by
  have hpending : ∀ x, x ∈ t.receiver.receiverVerifyQueue.erase r ↔
      x ≠ r ∧ x ∈ t.receiver.receiverVerifyQueue := fun x => h.pending_nodup.mem_erase_iff
  have hinvalid : ∀ o, t.receiver.requests[r]? = some o → ¬o.Valid := by
    intro o ho hval
    obtain rfl := Option.some.inj (hq.symm.trans ho)
    rw [hval.2] at hver
    cases hver
  rw [ReceiverTrace.next, Receiver.receiverVerify_of_failed hq hparse hver]
  refine ⟨h.keys_length, h.key_eq, h.pending_nodup.erase r, ?_, ?_, ?_, ?_, ?_, h.once,
    h.forwarded⟩
  · exact fun x hx => h.pending_lt x ((hpending x).mp hx).2
  · intro x o ho
    rw [hpending, h.verified_iff x o ho]
    by_cases hx : x = r
    · subst hx
      exact iff_of_false (fun hval => hinvalid o ho hval.1) fun hval => hinvalid o ho hval.1
    · simp [hx]
  · exact fun key x hx => h.entry key x (OrderedMap.getElem?_erase_cases hx).2
  · intro key x o hx ho
    rw [hpending]
    obtain ⟨hne, hentry⟩ := OrderedMap.getElem?_erase_cases hx
    refine (h.awaited key x o hentry ho).imp_right fun hp => ⟨?_, hp⟩
    rintro rfl
    exact hne (Option.some.inj ((h.entry key x hentry).1.symm.trans hkey))
  · intro x o ho hx
    have hxr : x ≠ r := by
      rintro rfl
      rcases hx with hx | hx
      · exact hinvalid o ho hx
      · exact ((hpending _).mp hx).1 rfl
    refine (h.kept x o ho (hx.imp_right fun hx => ((hpending x).mp hx).2)).imp_right ?_
    rintro ⟨key, hk⟩
    refine ⟨key, ?_⟩
    show (t.receiver.deadlineQueue.erase (q.deadline, q.clientId))[key]? = some x
    rw [OrderedMap.getElem?_erase_of_ne]
    · exact hk
    · rintro rfl
      -- the entry under the key of `r` is that of `r`
      rcases h.kept r q hq (.inr hr) with hf | ⟨key, hk'⟩
      · obtain ⟨o', ho', hv⟩ := h.forwarded r hf
        exact ((h.verified_iff r o' ho').mp hv).2 hr
      · obtain rfl := Option.some.inj (hkey.symm.trans (h.entry key r hk').1)
        exact hxr (Option.some.inj (hk.symm.trans hk'))

/-- A verification that finds a message which parses, and erases the entry of its own
request only. -/
lemma verify (h : Intact ignoreDeadlines t) {r : ℕ}
    (hr : r ∈ t.receiver.receiverVerifyQueue) {es : List ReceiverEvent}
    (hg : KeepsEntries ignoreDeadlines es t (.verify r)) :
    Intact ignoreDeadlines (t.next ignoreDeadlines (.verify r)) := by
  obtain ⟨q, hq⟩ : ∃ q, t.receiver.requests[r]? = some q :=
    ⟨_, List.getElem?_eq_getElem (h.pending_lt r hr)⟩
  obtain ⟨hparse, hfail⟩ := hg q hq
  cases hver : ClientMessage.verify q.clientId q.request.clientReq with
  | true => exact h.mark hr hq ⟨hparse, hver⟩
  | false => exact h.turnDown hr hq hparse hver (hfail hver)

omit [ClientMessage] in
/-- The entries a check forwards. -/
lemma mem_due {s : Receiver} {now : ℕ} {key : DeadlineKey} {r : ℕ} (hr : (key, r) ∈ s.due now) :
    s.deadlineQueue[key]? = some r ∧ key.1 ≤ now ∧
      ∃ q, s.requests[r]? = some q ∧ q.verified = true := by
  have hmem := (List.takeWhile_sublist _).subset hr
  have hp := List.mem_takeWhile_imp hr
  rw [Bool.and_eq_true, decide_eq_true_iff, Option.any_eq_true] at hp
  exact ⟨ExtTreeMap.mem_toList_iff_getElem?_eq_some.mp hmem, hp⟩

omit [ClientMessage] in
/-- What a check leaves in the queue. -/
lemma getElem?_check {s : Receiver} {now : ℕ} {key : DeadlineKey} {r : ℕ} :
    (s.checkDeadlines now).deadlineQueue[key]? = some r ↔
      s.deadlineQueue[key]? = some r ∧ key ∉ (s.due now).map (·.1) := by
  rw [Receiver.checkDeadlines, OrderedMap.getElem?_foldl_erase]
  split
  · rename_i hk
    simp [hk]
  · rename_i hk
    simp only [hk, not_false_eq_true, and_true]

omit [ClientMessage] in
/-- The requests forwarded after a check. -/
lemma mem_processQueue_check {s : Receiver} {now r : ℕ} :
    r ∈ (s.checkDeadlines now).processQueue ↔
      r ∈ s.processQueue ∨ ∃ key, (key, r) ∈ s.due now := by
  rw [Receiver.checkDeadlines, List.mem_append, List.mem_map]
  constructor
  · rintro (hr | ⟨⟨key, x⟩, hx, rfl⟩)
    · exact .inl hr
    · exact .inr ⟨key, hx⟩
  · rintro (hr | ⟨key, hk⟩)
    · exact .inl hr
    · exact .inr ⟨(key, r), hk, rfl⟩

lemma check (h : Intact ignoreDeadlines t) (now : ℕ) :
    Intact ignoreDeadlines (t.next ignoreDeadlines (.check now)) := by
  have hdue : ∀ {key : DeadlineKey} {r : ℕ}, (key, r) ∈ t.receiver.due now →
      t.keys[r]? = some key ∧ r ∉ t.receiver.processQueue := fun hr =>
    h.entry _ _ (mem_due hr).1
  refine ⟨h.keys_length, h.key_eq, h.pending_nodup, h.pending_lt, h.verified_iff, ?_, ?_, ?_, ?_,
    ?_⟩
  · intro key r hr
    obtain ⟨hr, hk⟩ := getElem?_check.mp hr
    refine ⟨(h.entry key r hr).1, fun hf => ?_⟩
    rcases mem_processQueue_check.mp hf with hf | ⟨key', hk'⟩
    · exact (h.entry key r hr).2 hf
    · obtain rfl := Option.some.inj ((h.entry key r hr).1.symm.trans (hdue hk').1)
      exact hk (List.mem_map.mpr ⟨_, hk', rfl⟩)
  · exact fun key r q hr => h.awaited key r q (getElem?_check.mp hr).1
  · intro r q hq hx
    show r ∈ (t.receiver.checkDeadlines now).processQueue ∨ _
    rw [mem_processQueue_check]
    rcases h.kept r q hq hx with hf | ⟨key, hk⟩
    · exact .inl (.inl hf)
    by_cases hkey : key ∈ (t.receiver.due now).map (·.1)
    · obtain ⟨⟨key', x⟩, hx, rfl⟩ := List.mem_map.mp hkey
      obtain rfl := Option.some.inj (hk.symm.trans (mem_due hx).1)
      exact .inl (.inr ⟨_, hx⟩)
    · exact .inr ⟨key, getElem?_check.mpr ⟨hk, hkey⟩⟩
  · refine List.nodup_append.mpr ⟨h.once, ?_, ?_⟩
    · refine List.Nodup.map_on ?_ ?_
      · rintro ⟨key, r⟩ hr ⟨key', r'⟩ hr' rfl
        rw [Option.some.inj ((hdue hr).1.symm.trans (hdue hr').1)]
      · refine (List.takeWhile_sublist _).nodup ?_
        refine (ExtTreeMap.distinct_keys_toList).imp fun hne heq => ?_
        rw [heq] at hne
        simp at hne
    · rintro r hr r' hr' rfl
      obtain ⟨⟨key, x⟩, hx, rfl⟩ := List.mem_map.mp hr'
      exact (hdue hx).2 hr
  · intro r hr
    rcases mem_processQueue_check.mp hr with hr | ⟨key, hk⟩
    · exact h.forwarded r hr
    · exact (mem_due hk).2.2

end Intact

/-! ### Delivery -/

omit [ClientMessage] in
/-- The entries whose deadline has passed and that are verified: all of them stand in front
of those whose deadline lies ahead. -/
lemma Receiver.due_eq_filter {s : Receiver} {now : ℕ}
    (hver : ∀ (key : DeadlineKey) (r : ℕ), s.deadlineQueue[key]? = some r →
      (s.requests[r]?).any (·.verified) = true) :
    s.due now = s.deadlineQueue.toList.filter fun (key, r) =>
      decide (key.1 ≤ now) && (s.requests[r]?).any (·.verified) := by
  rw [Receiver.due]
  refine OrderedMap.takeWhile_eq_filter ?_
  refine (ExtTreeMap.ordered_keys_toList).imp_of_mem ?_
  rintro ⟨key, r⟩ ⟨key', r'⟩ hr hr' hlt hp
  have hr := ExtTreeMap.mem_toList_iff_getElem?_eq_some.mp hr
  simp only [Bool.and_eq_true, decide_eq_true_iff] at hp ⊢
  refine ⟨?_, hver key r hr⟩
  rcases DeadlineKey.cmp_eq_lt.mp hlt with hlt | ⟨heq, -⟩
  · exact hlt.le.trans hp.1
  · exact heq.le.trans hp.1

/-- The invariant says all there is to say about delivery. -/
lemma Intact.exactlyOnce {ignoreDeadlines : Bool} {t : ReceiverTrace}
    (h : Intact ignoreDeadlines t) : ExactlyOnce ignoreDeadlines t where
  once := h.once
  valid r hr := by
    obtain ⟨q, hq, hv⟩ := h.forwarded r hr
    exact ⟨q, hq, ((h.verified_iff r q hq).mp hv).1⟩
  kept := h.kept
  deadline hig r q key hq hk := by rw [h.key_eq hig r q key hq hk]
  passed now r hr := by
    refine (Intact.mem_processQueue_check.mp hr).imp_right fun ⟨key, hk⟩ => ?_
    obtain ⟨hentry, hle, -⟩ := Intact.mem_due hk
    exact ⟨key, (h.entry key r hentry).1, hle⟩
  complete hpending now r q key hq hval hk hle := by
    refine Intact.mem_processQueue_check.mpr ?_
    rcases h.kept r q hq (.inl hval) with hf | ⟨key', hk'⟩
    · exact .inl hf
    obtain rfl := Option.some.inj (hk.symm.trans (h.entry key' r hk').1)
    have hall : ∀ (key : DeadlineKey) (r : ℕ), t.receiver.deadlineQueue[key]? = some r →
        (t.receiver.requests[r]?).any (·.verified) = true := by
      intro key r hr
      have hlt := (List.getElem?_eq_some_iff.mp (h.entry key r hr).1).1
      rw [h.keys_length] at hlt
      obtain ⟨o, ho⟩ : ∃ o, t.receiver.requests[r]? = some o := ⟨_, List.getElem?_eq_getElem hlt⟩
      have hval := (h.awaited key r o hr ho).resolve_right (by rw [hpending]; simp)
      rw [ho]
      exact (h.verified_iff r o ho).mpr ⟨hval, by rw [hpending]; simp⟩
    refine .inr ⟨key, ?_⟩
    rw [Receiver.due_eq_filter hall, List.mem_filter]
    refine ⟨ExtTreeMap.mem_toList_iff_getElem?_eq_some.mpr hk', ?_⟩
    simp only [Bool.and_eq_true, decide_eq_true_iff]
    exact ⟨hle, hall key r hk'⟩

/-- The invariant along every run that keeps the entries of the others. -/
lemma intact_of_run {ignoreDeadlines : Bool} {es : List ReceiverEvent} {t : ReceiverTrace}
    (hrun : Run (ReceiverTrace.system ignoreDeadlines) (KeepsEntries ignoreDeadlines) es t) :
    Intact ignoreDeadlines t := by
  refine hrun.invariant (P := fun _ t => Intact ignoreDeadlines t) ?_ ?_
  · rintro _ rfl
    exact .init
  · rintro es t ev _ - h hg ⟨hen, rfl⟩
    cases ev with
    | receive recvTime qs => exact h.receive hg.1 hg.2
    | verify r => exact h.verify hen hg
    | check now => exact (h.check now).withClock now

/-- **Exactly-once delivery**, in every run in which no request arrives under a key that is
in use, every message parses, and every request that fails its check is queued under its
deadline. -/
theorem delivery_exactly_once {ignoreDeadlines : Bool} {es : List ReceiverEvent}
    {t : ReceiverTrace}
    (hrun : Run (ReceiverTrace.system ignoreDeadlines) (KeepsEntries ignoreDeadlines) es t) :
    ExactlyOnce ignoreDeadlines t :=
  (intact_of_run hrun).exactlyOnce

end

/-! ### Two runs -/

section

/-- Client messages of one byte, which verify unless it is `0`. -/
abbrev oneByteMessage : ClientMessage where
  parse msg := if msg.length = 1 then some {} else none
  verify _ msg := msg ≠ [0]

attribute [local instance] oneByteMessage

/-- A request of client `0` with deadline `5`. -/
def requestWith (b : UInt8) : DOMRequest := { deadline := 5, clientReq := [b] }

/-- A request is received, verified and forwarded. -/
theorem delivery_exactly_once_request :
    ExactlyOnce false
      (((({} : ReceiverTrace).next false (.receive 1 [requestWith 1])).next false
        (.verify 0)).next false (.check 5)) := by
  have hstart : Run (ReceiverTrace.system false) (KeepsEntries false) [] {} := .start rfl
  have hreceive := ReceiverTrace.run_next hstart (.receive 1 [requestWith 1]) trivial
    ⟨by decide, by decide⟩
  have hverify := ReceiverTrace.run_next hreceive (.verify 0) (by decide)
    fun q hq => by cases Option.some.inj hq; exact ⟨rfl, fun _ => rfl⟩
  exact delivery_exactly_once (ReceiverTrace.run_next hverify (.check 5) trivial trivial)

/-- **A request that fails its check removes another**: both come from client `0` with
deadline `5`; the second one replaces the entry of the first, which is valid and verified,
and takes it along when it fails. -/
theorem failed_check_removes_other :
    ∃ t, Run (ReceiverTrace.system false) anyStep
      [.receive 1 [requestWith 1], .receive 2 [requestWith 0], .verify 0, .verify 1] t ∧
      ¬ExactlyOnce false t := by
  have hstart : Run (ReceiverTrace.system false) anyStep [] {} := .start rfl
  have hfirst := ReceiverTrace.run_next hstart (.receive 1 [requestWith 1]) trivial trivial
  have hsecond := ReceiverTrace.run_next hfirst (.receive 2 [requestWith 0]) trivial trivial
  have hverify := ReceiverTrace.run_next hsecond (.verify 0) (by decide) trivial
  have hfail := ReceiverTrace.run_next hverify (.verify 1) (by decide) trivial
  refine ⟨_, hfail, fun h => ?_⟩
  have hforwarded := h.complete (by decide) 5 0
    { request := requestWith 1, deadline := 5, clientId := 0, verified := true } (5, 0)
    (by decide) ⟨rfl, rfl⟩ (by decide) le_rfl
  revert hforwarded
  decide

end

end DomBft
