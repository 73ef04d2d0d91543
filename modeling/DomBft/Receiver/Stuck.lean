import DomBft.Receiver.Delivery

/-!
The head of the deadline queue, over every interleaving of arrivals, verification steps and checks
of the deadlines.

* `NotStuck`: whose entry is in the queue is verified, or will still be looked at;
  `NotStuck.check_head`: then a check stops at nothing else whose deadline has passed.
* `Settles`: what a verification step has to find; `Tracked`: what holds in every run.
* `deadline_head_not_stuck`: **the head is never stuck** as long as every verification settles its
  request, and the first one that does not leaves it stuck.
-/

namespace DomBft

open Std (ExtTreeMap)
open Transition

namespace Receiver

/-- Every entry of the queue is that of a request that is verified, or whose verification is still
to come. -/
def NotStuck (s : Receiver) : Prop :=
  ∀ (key : DeadlineKey) (r : ℕ) (q : ReceiverRequest), s.deadlineQueue[key]? = some r →
    s.requests[r]? = some q → q.verified = true ∨ r ∈ s.receiverVerifyQueue

/-- The entries of the queue are those of requests that have arrived, and what is still to be
verified is not marked as verified. -/
structure Tracked (s : Receiver) : Prop where
  entry_lt : ∀ (key : DeadlineKey) (r : ℕ), s.deadlineQueue[key]? = some r → r < s.requests.length
  pending_nodup : s.receiverVerifyQueue.Nodup
  pending : ∀ r ∈ s.receiverVerifyQueue, ∃ q, s.requests[r]? = some q ∧ q.verified = false

/-- A verification settles a request that is valid, or that is in the queue under its deadline and
its client only and whose message parses. -/
def Settles [ClientMessage] (s : Receiver) (r : ℕ) : Prop :=
  ∀ q, s.requests[r]? = some q →
    q.Valid ∨ ∀ key : DeadlineKey, s.deadlineQueue[key]? = some r →
      (ClientMessage.parse q.request.clientReq).isSome ∧ key = (q.deadline, q.clientId)

/-! ### Arrivals -/

section

variable {s : Receiver} {ignoreDeadlines : Bool} {recvTime : ℕ}

lemma tracked_empty : Tracked {} where
  entry_lt key r h := by cases ExtTreeMap.getElem?_empty.symm.trans h
  pending_nodup := List.nodup_nil
  pending _ h := by cases h

lemma notStuck_empty : NotStuck {} := fun key r q h => by
  cases ExtTreeMap.getElem?_empty.symm.trans h

lemma Tracked.enqueue (h : s.Tracked) (q : DOMRequest) :
    (s.enqueueReceiverRequest ignoreDeadlines recvTime q).Tracked := by
  have hfresh : s.requests.length ∉ s.receiverVerifyQueue := fun hr => by
    obtain ⟨o, ho, -⟩ := h.pending _ hr
    exact absurd (List.getElem?_eq_some_iff.mp ho).1 (lt_irrefl _)
  rw [enqueueReceiverRequest_eq]
  refine ⟨fun key r hr => ?_, ?_, fun r hr => ?_⟩
  · rw [List.length_append, List.length_singleton]
    rcases OrderedMap.getElem?_insert_cases hr with ⟨-, rfl⟩ | ⟨-, hr⟩
    · exact Nat.lt_succ_self _
    · exact Nat.lt_succ_of_lt (h.entry_lt key r hr)
  · refine List.nodup_append.mpr ⟨h.pending_nodup, List.nodup_singleton _, ?_⟩
    rintro a ha b hb rfl
    exact hfresh (List.mem_singleton.mp hb ▸ ha)
  · rcases List.mem_append.mp hr with hr | hr
    · obtain ⟨o, ho, hv⟩ := h.pending r hr
      exact ⟨o, by rw [List.getElem?_append_left (List.getElem?_eq_some_iff.mp ho).1, ho], hv⟩
    · cases List.mem_singleton.mp hr
      exact ⟨_, List.getElem?_concat_length, rfl⟩

/-- The entry of a new request waits for its verification. -/
lemma NotStuck.enqueue (h : s.NotStuck) (ht : s.Tracked) (q : DOMRequest) :
    (s.enqueueReceiverRequest ignoreDeadlines recvTime q).NotStuck := by
  rw [enqueueReceiverRequest_eq]
  intro key r o hr ho
  rcases OrderedMap.getElem?_insert_cases hr with ⟨-, rfl⟩ | ⟨-, hr⟩
  · exact .inr (List.mem_append_right _ (List.mem_singleton_self _))
  · have ho' : s.requests[r]? = some o := by
      rw [← ho, List.getElem?_append_left (ht.entry_lt key r hr)]
    exact (h key r o hr ho').imp_right (List.mem_append_left _)

lemma receive_tracked (h : s.Tracked) (qs : List DOMRequest) :
    (s.receiveBatchedRequests ignoreDeadlines recvTime qs).Tracked := by
  induction qs generalizing s with
  | nil => exact h
  | cons q qs ih => exact ih (h.enqueue q)

lemma receive_notStuck (h : s.NotStuck) (ht : s.Tracked) (qs : List DOMRequest) :
    (s.receiveBatchedRequests ignoreDeadlines recvTime qs).NotStuck := by
  induction qs generalizing s with
  | nil => exact h
  | cons q qs ih => exact ih (h.enqueue ht q) (ht.enqueue q)

end

/-! ### Verifications -/

section

variable [ClientMessage] {s : Receiver} {r : ℕ} {q : ReceiverRequest}

/-- The verification of a request whose message does not parse. -/
lemma receiverVerify_of_garbled (hq : s.requests[r]? = some q)
    (hparse : ClientMessage.parse q.request.clientReq = none) :
    s.receiverVerify r = { s with receiverVerifyQueue := s.receiverVerifyQueue.erase r } := by
  rw [receiverVerify]
  simp only [hq, hparse, Option.isNone_none, if_true]

/-- **What a verification does**: it marks the request, erases the entry under the deadline and the
client of the request, or leaves everything as it is. -/
lemma receiverVerify_cases (hq : s.requests[r]? = some q) :
    q.Valid ∧ s.receiverVerify r = { s with
        receiverVerifyQueue := s.receiverVerifyQueue.erase r
        requests := s.requests.modify r fun q => { q with verified := true } } ∨
      ¬q.Valid ∧ ∃ queue, s.receiverVerify r = { s with
          receiverVerifyQueue := s.receiverVerifyQueue.erase r
          deadlineQueue := queue } ∧
        ((ClientMessage.parse q.request.clientReq).isSome ∧
            queue = s.deadlineQueue.erase (q.deadline, q.clientId) ∨
          ClientMessage.parse q.request.clientReq = none ∧ queue = s.deadlineQueue) := by
  cases hparse : ClientMessage.parse q.request.clientReq with
  | none =>
      refine .inr ⟨fun hval => ?_, _, receiverVerify_of_garbled hq hparse, .inr ⟨rfl, rfl⟩⟩
      have hsome := hval.1
      rw [hparse] at hsome
      cases hsome
  | some m =>
      have hsome : (ClientMessage.parse q.request.clientReq).isSome := by rw [hparse]; rfl
      cases hver : ClientMessage.verify q.clientId q.request.clientReq with
      | true => exact .inl ⟨⟨hsome, hver⟩, receiverVerify_of_valid hq ⟨hsome, hver⟩⟩
      | false =>
          refine .inr ⟨fun hval => ?_, _, receiverVerify_of_failed hq hsome hver, .inl ⟨rfl, rfl⟩⟩
          rw [hval.2] at hver
          cases hver

lemma Tracked.verify (h : s.Tracked) (hr : r ∈ s.receiverVerifyQueue) :
    (s.receiverVerify r).Tracked := by
  obtain ⟨q, hq, -⟩ := h.pending r hr
  have hpending : ∀ x, x ∈ s.receiverVerifyQueue.erase r ↔ x ≠ r ∧ x ∈ s.receiverVerifyQueue :=
    fun x => h.pending_nodup.mem_erase_iff
  rcases receiverVerify_cases hq with ⟨-, hs⟩ | ⟨-, queue, hs, hqueue⟩
  · rw [hs]
    refine ⟨fun key x hx => ?_, h.pending_nodup.erase r, fun x hx => ?_⟩
    · rw [List.length_modify]
      exact h.entry_lt key x hx
    · obtain ⟨hne, hx⟩ := (hpending x).mp hx
      obtain ⟨o, ho, hv⟩ := h.pending x hx
      exact ⟨o, (getElem?_mark_of_ne hne).trans ho, hv⟩
  · rw [hs]
    refine ⟨fun key x hx => h.entry_lt key x ?_, h.pending_nodup.erase r, fun x hx => ?_⟩
    · rcases hqueue with ⟨-, rfl⟩ | ⟨-, rfl⟩
      · exact (OrderedMap.getElem?_erase_cases hx).2
      · exact hx
    · exact h.pending x ((hpending x).mp hx).2

/-- **A verification that settles its request** leaves no entry behind that is stuck. -/
lemma NotStuck.verify (h : s.NotStuck) (ht : s.Tracked) (hr : r ∈ s.receiverVerifyQueue)
    (hsettles : s.Settles r) : (s.receiverVerify r).NotStuck := by
  obtain ⟨q, hq, -⟩ := ht.pending r hr
  have hpending : ∀ {x}, x ≠ r → x ∈ s.receiverVerifyQueue → x ∈ s.receiverVerifyQueue.erase r :=
    fun hne hx => ht.pending_nodup.mem_erase_iff.mpr ⟨hne, hx⟩
  intro key x o hx ho
  rcases receiverVerify_cases hq with ⟨-, hs⟩ | ⟨hinvalid, queue, hs, hqueue⟩
  · rw [hs] at hx ho ⊢
    rcases getElem?_mark_cases hq ho with ⟨-, rfl⟩ | ⟨hxr, ho⟩
    · exact .inl rfl
    · exact (h key x o hx ho).imp_right (hpending hxr)
  · rw [hs] at hx ho ⊢
    by_cases hxr : x = r
    · -- the entry of the request itself is the one that a failed check erases
      subst hxr
      have hkey := (hsettles q hq).resolve_left hinvalid
      rcases hqueue with ⟨-, rfl⟩ | ⟨hnone, rfl⟩
      · obtain ⟨hne, hx⟩ := OrderedMap.getElem?_erase_cases hx
        exact absurd (hkey key hx).2 hne
      · have hsome := (hkey key hx).1
        rw [hnone] at hsome
        cases hsome
    · have hx' : s.deadlineQueue[key]? = some x := by
        rcases hqueue with ⟨-, rfl⟩ | ⟨-, rfl⟩
        · exact (OrderedMap.getElem?_erase_cases hx).2
        · exact hx
      exact (h key x o hx' ho).imp_right (hpending hxr)

/-- A verification that does not settle its request leaves its entry behind. -/
lemma Tracked.stuck_of_not_settles (h : s.Tracked) (hr : r ∈ s.receiverVerifyQueue)
    (hno : ¬s.Settles r) : ¬(s.receiverVerify r).NotStuck := by
  obtain ⟨q, hq, hunverified⟩ := h.pending r hr
  have hgone : r ∉ s.receiverVerifyQueue.erase r := fun hmem =>
    (h.pending_nodup.mem_erase_iff.mp hmem).1 rfl
  intro hnot
  refine hno fun q' hq' => ?_
  obtain rfl := Option.some.inj (hq.symm.trans hq')
  rcases receiverVerify_cases hq with ⟨hval, -⟩ | ⟨-, queue, hs, hqueue⟩
  · exact .inl hval
  refine .inr fun key hkey => ?_
  rw [hs] at hnot
  by_contra hbad
  have hentry : queue[key]? = some r := by
    rcases hqueue with ⟨hsome, rfl⟩ | ⟨-, rfl⟩
    · rw [OrderedMap.getElem?_erase_of_ne fun heq => hbad ⟨hsome, heq⟩]
      exact hkey
    · exact hkey
  rcases hnot key r q hentry hq with hv | hmem
  · rw [hunverified] at hv
    cases hv
  · exact hgone hmem

end

/-! ### Checks -/

section

variable {s : Receiver}

lemma Tracked.check (h : s.Tracked) (now : ℕ) : (s.checkDeadlines now).Tracked where
  entry_lt key r hr := h.entry_lt key r (Intact.getElem?_check.mp hr).1
  pending_nodup := h.pending_nodup
  pending := h.pending

lemma NotStuck.check (h : s.NotStuck) (now : ℕ) : (s.checkDeadlines now).NotStuck :=
  fun key r q hr => h key r q (Intact.getElem?_check.mp hr).1

/-- **Where a check stops**: at a request whose deadline lies ahead, or that is still to be
verified. -/
lemma NotStuck.check_head (h : s.NotStuck) (ht : s.Tracked) {now : ℕ} {key : DeadlineKey} {r : ℕ}
    {rest : List (DeadlineKey × ℕ)}
    (hhead : (s.checkDeadlines now).deadlineQueue.toList = (key, r) :: rest) (hle : key.1 ≤ now) :
    r ∈ s.receiverVerifyQueue := by
  have hrest : (s.checkDeadlines now).deadlineQueue.toList =
      s.deadlineQueue.toList.dropWhile fun e =>
        decide (e.1.1 ≤ now) && (s.requests[e.2]?).any (·.verified) :=
    OrderedMap.toList_foldl_erase_first List.takeWhile_append_dropWhile.symm
  rw [hrest] at hhead
  have hmem : (key, r) ∈ s.deadlineQueue.toList :=
    (List.dropWhile_sublist _).subset (hhead ▸ List.mem_cons_self)
  have hentry := ExtTreeMap.mem_toList_iff_getElem?_eq_some.mp hmem
  have hq := List.getElem?_eq_getElem (ht.entry_lt key r hentry)
  have hstop := List.head?_dropWhile_not (fun e : DeadlineKey × ℕ =>
    decide (e.1.1 ≤ now) && (s.requests[e.2]?).any (·.verified)) s.deadlineQueue.toList
  rw [hhead] at hstop
  refine (h key r _ hentry hq).resolve_left fun hv => ?_
  simp [hle, hq, hv] at hstop

end

end Receiver

/-! ### Runs -/

section

variable [ClientMessage]

/-- Every verification settles its request. -/
def Settling (_ : List ReceiverEvent) (t : ReceiverTrace) : ReceiverEvent → Prop
  | .verify r => t.receiver.Settles r
  | _ => True

lemma tracked_of_run {ignoreDeadlines : Bool}
    {G : List ReceiverEvent → ReceiverTrace → ReceiverEvent → Prop} {es : List ReceiverEvent}
    {t : ReceiverTrace} (hrun : Run (ReceiverTrace.system ignoreDeadlines) G es t) :
    t.receiver.Tracked := by
  refine hrun.invariant (P := fun _ t => t.receiver.Tracked) ?_ ?_
  · rintro _ rfl
    exact Receiver.tracked_empty
  · rintro es t ev _ - h - ⟨hen, rfl⟩
    cases ev with
    | receive recvTime qs => exact Receiver.receive_tracked h qs
    | verify r => exact h.verify hen
    | check now => exact h.check now

lemma notStuck_of_run {ignoreDeadlines : Bool} {es : List ReceiverEvent} {t : ReceiverTrace}
    (hrun : Run (ReceiverTrace.system ignoreDeadlines) Settling es t) : t.receiver.NotStuck := by
  refine hrun.invariant (P := fun _ t => t.receiver.NotStuck) ?_ ?_
  · rintro _ rfl
    exact Receiver.notStuck_empty
  · rintro es t ev _ hr h hg ⟨hen, rfl⟩
    have ht := tracked_of_run hr
    cases ev with
    | receive recvTime qs => exact Receiver.receive_notStuck h ht qs
    | verify r => exact h.verify ht hen hg
    | check now => exact h.check now

/-- **The head of the queue is never stuck** in a run whose verifications settle their requests: in
every state reached, a request that has been verified once is marked or is not in the queue, and a
check stops at a request whose deadline has passed only if its verification is still to come.  A
verification that does not settle its request ends this. -/
theorem deadline_head_not_stuck {ignoreDeadlines : Bool} {es : List ReceiverEvent}
    {t : ReceiverTrace} (hrun : Run (ReceiverTrace.system ignoreDeadlines) Settling es t) :
    t.receiver.NotStuck ∧
      (∀ (now r : ℕ) (key : DeadlineKey) (rest : List (DeadlineKey × ℕ)),
        (t.receiver.checkDeadlines now).deadlineQueue.toList = (key, r) :: rest → key.1 ≤ now →
        r ∈ t.receiver.receiverVerifyQueue) ∧
      ∀ r, t.Enabled (.verify r) → ¬t.receiver.Settles r →
        ¬(t.next ignoreDeadlines (.verify r)).receiver.NotStuck := by
  have hnot := notStuck_of_run hrun
  have htracked := tracked_of_run hrun
  refine ⟨hnot, fun now r key rest hhead hle => hnot.check_head htracked hhead hle, ?_⟩
  exact fun r hen hno => htracked.stuck_of_not_settles hen hno

end

section

attribute [local instance] oneByteMessage

/-- A request that fails its check leaves the queue. -/
theorem failed_request_not_stuck :
    ((({} : ReceiverTrace).next false (.receive 1 [requestWith 0])).next false
      (.verify 0)).receiver.NotStuck := by
  have hstart : Run (ReceiverTrace.system false) Settling [] {} := .start rfl
  have hreceive := ReceiverTrace.run_next hstart (.receive 1 [requestWith 0]) trivial trivial
  have hverify := ReceiverTrace.run_next hreceive (.verify 0) (by decide) fun q hq => by
    cases Option.some.inj hq
    refine .inr fun key hkey => ⟨rfl, ?_⟩
    rcases OrderedMap.getElem?_insert_cases hkey with ⟨rfl, -⟩ | ⟨-, hkey⟩
    · rfl
    · rw [show (∅ : ExtTreeMap DeadlineKey ℕ DeadlineKey.cmp)[key]? = none from
        ExtTreeMap.getElem?_empty] at hkey
      cases hkey
  exact (deadline_head_not_stuck hverify).1

/-- **A request whose message does not parse stays at the head**, in both modes; and so does one
that fails its check where deadlines are ignored, since its entry is not under its deadline. -/
theorem unparsed_request_stuck :
    (∀ ignoreDeadlines, ∃ t, Run (ReceiverTrace.system ignoreDeadlines) anyStep
      [.receive 7 [{ deadline := 5 }], .verify 0] t ∧ ¬t.receiver.NotStuck) ∧
    ∃ t, Run (ReceiverTrace.system true) anyStep [.receive 7 [requestWith 0], .verify 0] t ∧
      ¬t.receiver.NotStuck := by
  have hrun : ∀ ignoreDeadlines q, Run (ReceiverTrace.system ignoreDeadlines) anyStep
      [.receive 7 [q], .verify 0] ((({} : ReceiverTrace).next ignoreDeadlines
        (.receive 7 [q])).next ignoreDeadlines (.verify 0)) := by
    intro ignoreDeadlines q
    have hstart : Run (ReceiverTrace.system ignoreDeadlines) anyStep [] {} := .start rfl
    have hreceive := ReceiverTrace.run_next hstart (.receive 7 [q]) trivial trivial
    exact ReceiverTrace.run_next hreceive (.verify 0) (List.mem_singleton_self _) trivial
  refine ⟨fun ignoreDeadlines => ⟨_, hrun ignoreDeadlines _, fun hnot => ?_⟩,
    _, hrun true _, fun hnot => ?_⟩
  · cases ignoreDeadlines with
    | false => exact absurd (hnot (5, 0) 0 _ (by decide) rfl) (by decide)
    | true => exact absurd (hnot (7, 0) 0 _ (by decide) rfl) (by decide)
  · exact absurd (hnot (7, 0) 0 _ (by decide) rfl) (by decide)

end

end DomBft
