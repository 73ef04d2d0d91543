import DomBft.Receiver.Delivery

/-!
The order of delivery: with `ignoreDeadlines_` off, replicas that receive the same requests
on time forward them in the order of deadline and client, whatever the schedule.

* `OnTime`: what is assumed of a run: valid requests under different keys, none late, and a
  clock that does not go back.
* `AheadOfPeers`: a request that arrives at the very instant of its deadline finds no later
  client's request with that deadline forwarded already, by a check at that instant.
* `dom_order_consistency`: then every receiver forwards in increasing order, and any two that
  receive the same requests forward them in the same order.
-/

namespace DomBft

open Std (ExtTreeMap)
open Transition

/-- The key of a request in the queue. -/
def DOMRequest.key (q : DOMRequest) : DeadlineKey := (q.deadline, q.clientId)

/-- The order of delivery: by deadline, then by client. -/
def DOMRequest.Before (q q' : DOMRequest) : Prop := DeadlineKey.cmp q.key q'.key = .lt

instance (q q' : DOMRequest) : Decidable (q.Before q') :=
  inferInstanceAs (Decidable (_ = _))

lemma DOMRequest.before_iff {q q' : DOMRequest} :
    q.Before q' ↔ q.deadline < q'.deadline ∨ q.deadline = q'.deadline ∧ q.clientId < q'.clientId :=
  DeadlineKey.cmp_eq_lt

instance : Std.Irrefl DOMRequest.Before where
  irrefl q h := by
    rw [DOMRequest.before_iff] at h
    rcases h with h | h
    · exact lt_irrefl _ h
    · exact UInt32.lt_irrefl _ h.2

instance : Std.Antisymm DOMRequest.Before where
  antisymm q q' h h' := by
    rw [DOMRequest.before_iff] at h h'
    rcases h with h | h <;> rcases h' with h' | h'
    · exact absurd h' h.asymm
    · exact absurd h'.1 h.ne'
    · exact absurd h.1 h'.ne'
    · exact absurd h'.2 (UInt32.lt_asymm h.2)

namespace ReceiverTrace

/-- The requests received so far. -/
def received (t : ReceiverTrace) : List DOMRequest := t.receiver.requests.map (·.request)

/-- The requests forwarded so far, oldest first. -/
def forwarded (t : ReceiverTrace) : List DOMRequest :=
  t.receiver.processQueue.filterMap fun r => (t.receiver.requests[r]?).map (·.request)

end ReceiverTrace

section

variable [ClientMessage]

/-- Valid requests under different keys arrive on time, and the clock does not go back. -/
def OnTime (_ : List ReceiverEvent) (t : ReceiverTrace) : ReceiverEvent → Prop
  | .receive recvTime qs =>
    t.clock ≤ recvTime ∧ (qs.map DOMRequest.key).Nodup ∧
      ∀ q ∈ qs, recvTime ≤ q.deadline ∧ q.key ∉ t.keys ∧
        (ClientMessage.parse q.clientReq).isSome ∧
        ClientMessage.verify q.clientId q.clientReq = true
  | .verify _ => True
  | .check now => t.clock ≤ now

omit [ClientMessage] in
/-- A request that arrives at its deadline finds no request of a later client with that
deadline forwarded already. -/
def AheadOfPeers (t : ReceiverTrace) : ReceiverEvent → Prop
  | .receive recvTime qs =>
    ∀ q ∈ qs, q.deadline = recvTime → ∀ f ∈ t.forwarded, f.deadline = recvTime →
      ¬q.clientId < f.clientId
  | _ => True

instance (es : List ReceiverEvent) (t : ReceiverTrace) :
    (ev : ReceiverEvent) → Decidable (OnTime es t ev)
  | .receive _ _ => inferInstanceAs (Decidable (_ ∧ _))
  | .verify _ => inferInstanceAs (Decidable True)
  | .check _ => inferInstanceAs (Decidable (_ ≤ _))

instance (t : ReceiverTrace) : (ev : ReceiverEvent) → Decidable (AheadOfPeers t ev)
  | .receive _ qs => inferInstanceAs (Decidable (∀ q ∈ qs, _))
  | .verify _ => inferInstanceAs (Decidable True)
  | .check _ => inferInstanceAs (Decidable True)

/-! ### The invariant -/

/-- All requests are valid and queued under their own key, and what has been forwarded lies
in front of everything that is or will be queued. -/
structure InOrder (t : ReceiverTrace) : Prop where
  intact : Intact false t
  valid : ∀ (r : ℕ) (q : ReceiverRequest), t.receiver.requests[r]? = some q →
    q.Valid ∧ q.deadline = q.request.deadline ∧ q.clientId = q.request.clientId ∧
      t.keys[r]? = some q.request.key
  sorted : t.forwarded.Pairwise DOMRequest.Before
  front : ∀ f ∈ t.forwarded, ∀ key ∈ t.receiver.deadlineQueue,
    DeadlineKey.cmp f.key key = .lt
  past : ∀ f ∈ t.forwarded, f.deadline ≤ t.clock

namespace InOrder

variable {t : ReceiverTrace}

omit [ClientMessage] in
lemma mem_forwarded {q : DOMRequest} : q ∈ t.forwarded ↔
    ∃ r ∈ t.receiver.processQueue, ∃ o, t.receiver.requests[r]? = some o ∧ o.request = q := by
  simp only [ReceiverTrace.forwarded, List.mem_filterMap, Option.map_eq_some_iff]

lemma init : InOrder {} where
  intact := .init
  valid := by simp
  sorted := List.Pairwise.nil
  front := by simp [ReceiverTrace.forwarded]
  past := by simp [ReceiverTrace.forwarded]

lemma receive (h : InOrder t) {es : List ReceiverEvent} {recvTime : ℕ} {qs : List DOMRequest}
    (hon : OnTime es t (.receive recvTime qs)) (hahead : AheadOfPeers t (.receive recvTime qs)) :
    InOrder (t.next false (.receive recvTime qs)) := by
  obtain ⟨hclock, hnodup, hqs⟩ := hon
  obtain ⟨hreq, hproc, hqueue⟩ :=
    Receiver.receiveBatchedRequests_cases false recvTime t.receiver qs
  have hkeys : ∀ f ∈ t.forwarded, f.key ∈ t.keys := by
    intro f hf
    obtain ⟨r, -, o, ho, rfl⟩ := mem_forwarded.mp hf
    exact List.mem_of_getElem? (h.valid r o ho).2.2.2
  have hforwarded : (t.next false (.receive recvTime qs)).forwarded = t.forwarded := by
    show List.filterMap _ (t.receiver.receiveBatchedRequests false recvTime qs).processQueue = _
    rw [hproc]
    refine List.filterMap_congr fun r hr => ?_
    obtain ⟨o, ho, -⟩ := h.intact.forwarded r hr
    show ((t.receiver.receiveBatchedRequests false recvTime qs).requests[r]?).map _ = _
    rw [hreq, List.getElem?_append_left (List.getElem?_eq_some_iff.mp ho).1]
  refine ⟨h.intact.receive hnodup fun q hq hmem => (hqs q hq).2.1 ?_, ?_, ?_, ?_, ?_⟩
  · obtain ⟨r, hr⟩ := Option.isSome_iff_exists.mp (ExtTreeMap.mem_iff_isSome_getElem?.mp hmem)
    exact List.mem_of_getElem? (h.intact.entry _ r hr).1
  · intro r o ho
    have ho : (t.receiver.receiveBatchedRequests false recvTime qs).requests[r]? = some o := ho
    rw [hreq, List.getElem?_append] at ho
    have hlen := h.intact.keys_length
    show _ ∧ _ ∧ _ ∧ (t.keys ++ qs.map (Receiver.queueKey false recvTime))[r]? = _
    split at ho
    · rename_i hlt
      rw [List.getElem?_append_left (by omega)]
      exact h.valid r o ho
    · rename_i hlt
      rw [List.getElem?_append_right (by omega), hlen, List.getElem?_map]
      rw [List.getElem?_map, Option.map_eq_some_iff] at ho
      obtain ⟨q, hq, rfl⟩ := ho
      obtain ⟨hle, -, hparse, hver⟩ := hqs q (List.mem_of_getElem? hq)
      rw [hq, DOMRequest.arrive_eq hle]
      exact ⟨⟨hparse, hver⟩, rfl, rfl, rfl⟩
  · rw [hforwarded]
    exact h.sorted
  · rw [hforwarded]
    intro f hf key hkey
    rcases (hqueue key).mp hkey with hkey | hkey
    · obtain ⟨q, hq, rfl⟩ := List.mem_map.mp hkey
      obtain ⟨hle, hnew, -⟩ := hqs q hq
      have hpast := h.past f hf
      refine DeadlineKey.cmp_eq_lt.mpr ?_
      show f.deadline < q.deadline ∨ f.deadline = q.deadline ∧ f.clientId < q.clientId
      rcases lt_or_eq_of_le (hpast.trans (hclock.trans hle)) with hlt | heq
      · exact .inl hlt
      · have hnlt := hahead q hq (by omega) f hf (by omega)
        have hne : f.clientId ≠ q.clientId := fun hc =>
          hnew (show (q.deadline, q.clientId) ∈ t.keys from heq ▸ hc ▸ hkeys f hf)
        exact .inr ⟨heq, UInt32.lt_of_le_of_ne (UInt32.not_lt.mp hnlt) hne⟩
    · exact h.front f hf key hkey
  · rw [hforwarded]
    exact fun f hf => (h.past f hf).trans hclock

lemma verify (h : InOrder t) {r : ℕ} (hr : r ∈ t.receiver.receiverVerifyQueue) :
    InOrder (t.next false (.verify r)) := by
  obtain ⟨q, hq⟩ : ∃ q, t.receiver.requests[r]? = some q :=
    ⟨_, List.getElem?_eq_getElem (h.intact.pending_lt r hr)⟩
  have hval := (h.valid r q hq).1
  have hkeeps : KeepsEntries false [] t (.verify r) := by
    intro o ho
    obtain rfl := Option.some.inj (hq.symm.trans ho)
    exact ⟨hval.1, fun hver => by rw [hval.2] at hver; cases hver⟩
  have hintact : Intact false (t.next false (.verify r)) := h.intact.verify hr hkeeps
  have hforwarded : (t.next false (.verify r)).forwarded = t.forwarded := by
    rw [ReceiverTrace.forwarded, ReceiverTrace.next, Receiver.receiverVerify_of_valid hq hval]
    refine List.filterMap_congr fun x _ => ?_
    show Option.map _ (t.receiver.requests.modify r _)[x]? = _
    rw [List.getElem?_modify]
    show Option.map _ (Option.map _ _) = _
    rw [Option.map_map]
    refine Option.map_congr fun o _ => ?_
    show (if r = x then _ else o : ReceiverRequest).request = o.request
    split <;> rfl
  refine ⟨hintact, ?_, ?_, ?_, ?_⟩
  · rw [ReceiverTrace.next, Receiver.receiverVerify_of_valid hq hval]
    intro x o ho
    rcases Receiver.getElem?_mark_cases hq ho with ⟨rfl, rfl⟩ | ⟨-, ho⟩
    · exact h.valid x q hq
    · exact h.valid x o ho
  · rw [hforwarded]
    exact h.sorted
  · rw [hforwarded, ReceiverTrace.next, Receiver.receiverVerify_of_valid hq hval]
    exact h.front
  · rw [hforwarded]
    exact h.past

/-- The requests that a check forwards, in the order of their keys. -/
lemma exists_due (h : InOrder t) (now : ℕ) :
    ∃ ds : List DOMRequest, (t.receiver.checkDeadlines now).processQueue.filterMap
        (fun r => (t.receiver.requests[r]?).map (·.request)) = t.forwarded ++ ds ∧
      ds.map DOMRequest.key = (t.receiver.due now).map (·.1) := by
  refine ⟨(t.receiver.due now).filterMap fun e => (t.receiver.requests[e.2]?).map (·.request),
    ?_, ?_⟩
  · rw [Receiver.checkDeadlines, List.filterMap_append, List.filterMap_map]
    rfl
  · rw [List.map_filterMap]
    rw [← List.filterMap_eq_map]
    refine List.filterMap_congr fun e he => ?_
    obtain ⟨hentry, -, o, ho, -⟩ := Intact.mem_due he
    have hkey := Option.some.inj ((h.valid e.2 o ho).2.2.2.symm.trans (h.intact.entry _ _ hentry).1)
    rw [ho]
    exact congrArg some hkey

lemma check (h : InOrder t) {now : ℕ} (hnow : t.clock ≤ now) :
    InOrder (t.next false (.check now)) := by
  obtain ⟨ds, hds, hkeys⟩ := h.exists_due now
  have hforwarded : (t.next false (.check now)).forwarded = t.forwarded ++ ds := hds
  have hsplit : t.receiver.deadlineQueue.toList = t.receiver.due now ++
      t.receiver.deadlineQueue.toList.dropWhile fun e =>
        decide (e.1.1 ≤ now) && (t.receiver.requests[e.2]?).any (·.verified) :=
    List.takeWhile_append_dropWhile.symm
  have hordered : (t.receiver.deadlineQueue.toList.map (·.1)).Pairwise
      (DeadlineKey.cmp · · = .lt) := List.pairwise_map.mpr ExtTreeMap.ordered_keys_toList
  rw [hsplit, List.map_append, List.pairwise_append] at hordered
  obtain ⟨hdue, -, hrest⟩ := hordered
  have hmem : ∀ d ∈ ds, ∃ r, (d.key, r) ∈ t.receiver.due now := by
    intro d hd
    have hk : d.key ∈ (t.receiver.due now).map (·.1) := hkeys ▸ List.mem_map_of_mem hd
    obtain ⟨⟨key, r⟩, he, heq⟩ := List.mem_map.mp hk
    exact ⟨r, by rw [← heq]; exact he⟩
  have hold : ∀ {key : DeadlineKey} {r : ℕ}, t.receiver.deadlineQueue[key]? = some r →
      key ∈ t.receiver.deadlineQueue := fun hr =>
    ExtTreeMap.mem_iff_isSome_getElem?.mpr (by rw [hr]; rfl)
  refine ⟨(h.intact.check now).withClock now, h.valid, ?_, ?_, ?_⟩
  · rw [hforwarded, List.pairwise_append]
    refine ⟨h.sorted, ?_, ?_⟩
    · rw [← hkeys] at hdue
      have hsorted := List.pairwise_map.mp hdue
      exact hsorted
    · intro f hf d hd
      obtain ⟨r, hr⟩ := hmem d hd
      exact h.front f hf d.key (hold (Intact.mem_due hr).1)
  · rw [hforwarded]
    intro f hf key hkey
    obtain ⟨r, hr⟩ := Option.isSome_iff_exists.mp (ExtTreeMap.mem_iff_isSome_getElem?.mp hkey)
    obtain ⟨hr, hnot⟩ := Intact.getElem?_check.mp hr
    rcases List.mem_append.mp hf with hf | hf
    · exact h.front f hf key (hold hr)
    · obtain ⟨x, hx⟩ := hmem f hf
      refine hrest f.key (List.mem_map_of_mem hx) key ?_
      have hin : (key, r) ∈ t.receiver.deadlineQueue.toList :=
        ExtTreeMap.mem_toList_iff_getElem?_eq_some.mpr hr
      rw [hsplit] at hin
      rcases List.mem_append.mp hin with hin | hin
      · exact absurd (List.mem_map_of_mem hin) hnot
      · exact List.mem_map_of_mem hin
  · rw [hforwarded]
    intro f hf
    rcases List.mem_append.mp hf with hf | hf
    · exact (h.past f hf).trans hnow
    · obtain ⟨r, hr⟩ := hmem f hf
      exact (Intact.mem_due hr).2.1

end InOrder

/-! ### Order consistency -/

/-- The invariant along every run on time. -/
lemma inOrder_of_run {es : List ReceiverEvent} {t : ReceiverTrace}
    (hrun : Run (ReceiverTrace.system false)
      (fun es t ev => OnTime es t ev ∧ AheadOfPeers t ev) es t) : InOrder t := by
  refine hrun.invariant (P := fun _ t => InOrder t) ?_ ?_
  · rintro _ rfl
    exact .init
  · rintro es t ev _ - h ⟨hon, hahead⟩ ⟨hen, rfl⟩
    cases ev with
    | receive recvTime qs => exact h.receive hon hahead
    | verify r => exact h.verify hen
    | check now => exact h.check hon

/-- **The order of delivery.**  Both receivers forward in increasing order of deadline and
client, and what both have forwarded they have forwarded in the same order; once every
request has been verified, a check behind all deadlines makes the two lists equal. -/
structure SameOrder (t t' : ReceiverTrace) : Prop where
  left : t.forwarded.Pairwise DOMRequest.Before
  right : t'.forwarded.Pairwise DOMRequest.Before
  common : t.forwarded.filter (· ∈ t'.forwarded) = t'.forwarded.filter (· ∈ t.forwarded)
  complete : t.receiver.receiverVerifyQueue = [] → t'.receiver.receiverVerifyQueue = [] →
    ∀ now, t.clock ≤ now → t'.clock ≤ now → (∀ q ∈ t.received, q.deadline ≤ now) →
      (t.next false (.check now)).forwarded = (t'.next false (.check now)).forwarded

/-- A check behind all deadlines forwards all requests. -/
lemma InOrder.mem_forwarded_check {t : ReceiverTrace} (h : InOrder t)
    (hpending : t.receiver.receiverVerifyQueue = []) {now : ℕ}
    (hnow : ∀ q ∈ t.received, q.deadline ≤ now) (q : DOMRequest) :
    q ∈ (t.next false (.check now)).forwarded ↔ q ∈ t.received := by
  rw [mem_forwarded, ReceiverTrace.received, List.mem_map]
  constructor
  · rintro ⟨r, -, o, ho, rfl⟩
    exact ⟨o, List.mem_of_getElem? ho, rfl⟩
  · rintro ⟨o, ho, rfl⟩
    obtain ⟨r, hr⟩ := List.mem_iff_getElem?.mp ho
    obtain ⟨hval, -, -, hkey⟩ := h.valid r o hr
    exact ⟨r, h.intact.exactlyOnce.complete hpending now r o _ hr hval hkey
      (hnow _ (List.mem_map_of_mem ho)), o, hr, rfl⟩

/-- **Order consistency**: receivers that receive the same requests on time, none of them at
its deadline behind a later client's request with that deadline, forward them in the same
order, under every schedule. -/
theorem dom_order_consistency {es es' : List ReceiverEvent} {t t' : ReceiverTrace}
    (hrun : Run (ReceiverTrace.system false)
      (fun es t ev => OnTime es t ev ∧ AheadOfPeers t ev) es t)
    (hrun' : Run (ReceiverTrace.system false)
      (fun es t ev => OnTime es t ev ∧ AheadOfPeers t ev) es' t')
    (hsame : ∀ q, q ∈ t.received ↔ q ∈ t'.received) : SameOrder t t' := by
  have h := inOrder_of_run hrun
  have h' := inOrder_of_run hrun'
  refine ⟨h.sorted, h'.sorted, ?_, fun hp hp' now hc hc' hnow => ?_⟩
  · refine (h.sorted.filter _).eq_of_mem_iff (h'.sorted.filter _) fun q => ?_
    simp only [List.mem_filter, decide_eq_true_iff]
    exact and_comm
  · refine (h.check hc).sorted.eq_of_mem_iff (h'.check hc').sorted fun q => ?_
    rw [h.mem_forwarded_check hp hnow, hsame q,
      h'.mem_forwarded_check hp' fun q hq => hnow q ((hsame q).mpr hq)]

end

/-! ### Schedules of two requests -/

section

attribute [local instance] oneByteMessage

/-- A request of a client with deadline `10`. -/
def requestOf (clientId : UInt32) : DOMRequest := { clientId, deadline := 10, clientReq := [1] }

/-- Clients `0` and `1` send in time, in different orders. -/
theorem dom_order_consistency_two_requests :
    ∃ t t', t.received = [requestOf 0, requestOf 1] ∧ t'.received = [requestOf 1, requestOf 0] ∧
      SameOrder t t' := by
  have hstart : Run (ReceiverTrace.system false)
    (fun es t ev => OnTime es t ev ∧ AheadOfPeers t ev) [] {} := .start rfl
  have hrun := ReceiverTrace.run_next hstart (.receive 1 [requestOf 0, requestOf 1]) trivial
    ⟨by decide, by decide⟩
  have hrun' := ReceiverTrace.run_next hstart (.receive 2 [requestOf 1, requestOf 0]) trivial
    ⟨by decide, by decide⟩
  have hperm : [requestOf 0, requestOf 1].Perm [requestOf 1, requestOf 0] := by decide
  exact ⟨_, _, rfl, rfl, dom_order_consistency hrun hrun' fun q => hperm.mem_iff⟩

/-- **The order depends on the schedule**: where the request of client `0` arrives at its
deadline, after a check at that instant has forwarded the request of client `1`, it is
forwarded behind it. -/
theorem tie_reverses_order :
    ∃ t t', Run (ReceiverTrace.system false) OnTime
        [.receive 10 [requestOf 1], .verify 0, .check 10, .receive 10 [requestOf 0], .verify 1,
          .check 10] t ∧
      Run (ReceiverTrace.system false) OnTime
        [.receive 10 [requestOf 1, requestOf 0], .verify 0, .verify 1, .check 10] t' ∧
      (∀ q, q ∈ t.received ↔ q ∈ t'.received) ∧ ¬SameOrder t t' := by
  have hstart : Run (ReceiverTrace.system false) OnTime [] {} := .start rfl
  have h1 := ReceiverTrace.run_next hstart (.receive 10 [requestOf 1]) trivial (by decide)
  have h2 := ReceiverTrace.run_next h1 (.verify 0) (by decide) trivial
  have h3 := ReceiverTrace.run_next h2 (.check 10) trivial (by decide)
  have h4 := ReceiverTrace.run_next h3 (.receive 10 [requestOf 0]) trivial (by decide)
  have h5 := ReceiverTrace.run_next h4 (.verify 1) (by decide) trivial
  have h6 := ReceiverTrace.run_next h5 (.check 10) trivial (by decide)
  have h1' := ReceiverTrace.run_next hstart (.receive 10 [requestOf 1, requestOf 0]) trivial
    (by decide)
  have h2' := ReceiverTrace.run_next h1' (.verify 0) (by decide) trivial
  have h3' := ReceiverTrace.run_next h2' (.verify 1) (by decide) trivial
  have h4' := ReceiverTrace.run_next h3' (.check 10) trivial (by decide)
  have hsame : ∀ q, q ∈ [requestOf 1, requestOf 0] ↔ q ∈ [requestOf 1, requestOf 0] :=
    fun q => Iff.rfl
  refine ⟨_, _, h6, h4', hsame, fun horder => ?_⟩
  have hsorted := horder.left
  revert hsorted
  decide

end

end DomBft
