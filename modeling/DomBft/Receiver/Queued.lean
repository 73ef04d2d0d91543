import DomBft.Receiver.Order

/-!
A receiver whose requests arrive under different keys and parse, whether they are valid or not.

* `Queued`: each request has been queued under its own key; a request that fails its check takes
  its own entry out of the queue, and no other.
* `Ordered`: where requests arrive before their deadlines and the clock does not go back, what has
  been forwarded is in order, and in front of what waits.
-/

namespace DomBft

open Std (ExtTreeMap)

variable [ClientMessage] {t : ReceiverTrace} {recvTime now r : ℕ} {qs : List DOMRequest}

omit [ClientMessage] in
lemma ReceiverTrace.mem_forwarded {q : DOMRequest} : q ∈ t.forwarded ↔
    ∃ r ∈ t.receiver.processQueue, ∃ o, t.receiver.requests[r]? = some o ∧ o.request = q :=
  InOrder.mem_forwarded

/-! ### Requests under their own keys -/

/-- Every request has been queued under its own key, and its message parses. -/
structure Queued (t : ReceiverTrace) : Prop where
  intact : Intact false t
  keyed : ∀ (r : ℕ) (q : ReceiverRequest), t.receiver.requests[r]? = some q →
    q.deadline = q.request.deadline ∧ q.clientId = q.request.clientId ∧
      t.keys[r]? = some q.request.key ∧ (ClientMessage.parse q.request.clientReq).isSome

/-- A verification changes no request but for its mark. -/
lemma Receiver.getElem?_receiverVerify_cases {s : Receiver} {r x : ℕ} {o : ReceiverRequest}
    (ho : (s.receiverVerify r).requests[x]? = some o) :
    ∃ q, s.requests[x]? = some q ∧ o.request = q.request ∧ o.deadline = q.deadline ∧
      o.clientId = q.clientId := by
  have hsame : s.requests[x]? = some o → ∃ q, s.requests[x]? = some q ∧ o.request = q.request ∧
      o.deadline = q.deadline ∧ o.clientId = q.clientId := fun ho => ⟨o, ho, rfl, rfl, rfl⟩
  rw [receiverVerify] at ho
  dsimp only at ho
  split at ho
  · exact hsame ho
  · rename_i q hq
    split_ifs at ho
    · exact hsame ho
    · rcases getElem?_mark_cases hq ho with ⟨rfl, rfl⟩ | ⟨-, ho⟩
      · exact ⟨q, hq, rfl, rfl, rfl⟩
      · exact hsame ho
    · exact hsame ho

/-- A verification leaves the requests as they have arrived. -/
lemma ReceiverTrace.received_verify (t : ReceiverTrace) (r : ℕ) :
    (t.next false (.verify r)).received = t.received := by
  refine List.ext_getElem? fun x => ?_
  show ((t.receiver.receiverVerify r).requests.map (·.request))[x]? = _
  rw [received, List.getElem?_map, List.getElem?_map, Receiver.receiverVerify]
  dsimp only
  split
  · rfl
  · split_ifs
    · rfl
    · rw [List.getElem?_modify]
      show Option.map _ (Option.map _ _) = _
      rw [Option.map_map]
      refine Option.map_congr fun q _ => ?_
      show (if r = x then _ else q : ReceiverRequest).request = q.request
      split_ifs <;> rfl
    · rfl

/-- A batch adds its requests, marked if they are late. -/
lemma ReceiverTrace.received_receive (t : ReceiverTrace) (recvTime : ℕ) (qs : List DOMRequest) :
    (t.next false (.receive recvTime qs)).received =
      t.received ++ qs.map fun q => q.arrive recvTime := by
  show (t.receiver.receiveBatchedRequests false recvTime qs).requests.map (·.request) = _
  rw [(Receiver.receiveBatchedRequests_cases false recvTime t.receiver qs).1, List.map_append,
    List.map_map]
  rfl

lemma Receiver.receiverVerify_processQueue (s : Receiver) (r : ℕ) :
    (s.receiverVerify r).processQueue = s.processQueue := by
  rw [receiverVerify]
  dsimp only
  split
  · rfl
  · split_ifs <;> rfl

/-- A verification adds nothing to the queue. -/
lemma Receiver.mem_receiverVerify {s : Receiver} {r : ℕ} {key : DeadlineKey}
    (h : key ∈ (s.receiverVerify r).deadlineQueue) : key ∈ s.deadlineQueue := by
  rw [receiverVerify] at h
  dsimp only at h
  split at h
  · exact h
  · split_ifs at h
    · exact h
    · exact h
    · exact ExtTreeMap.mem_of_mem_erase h

namespace Queued

lemma init : Queued {} where
  intact := .init
  keyed r q h := by cases h

lemma mem_keys (h : Intact false t) {key : DeadlineKey} (hkey : key ∈ t.receiver.deadlineQueue) :
    key ∈ t.keys := by
  obtain ⟨r, hr⟩ := Option.isSome_iff_exists.mp (ExtTreeMap.mem_iff_isSome_getElem?.mp hkey)
  exact List.mem_of_getElem? (h.entry key r hr).1

/-- A batch arrives, under keys that have not been used. -/
lemma receive (h : Queued t) (recvTime : ℕ) (hnodup : (qs.map DOMRequest.key).Nodup)
    (hqs : ∀ q ∈ qs, q.key ∉ t.keys ∧ (ClientMessage.parse q.clientReq).isSome) :
    Queued (t.next false (.receive recvTime qs)) := by
  obtain ⟨hreq, -, -⟩ := Receiver.receiveBatchedRequests_cases false recvTime t.receiver qs
  refine ⟨h.intact.receive hnodup fun q hq hmem => (hqs q hq).1 (mem_keys h.intact hmem), ?_⟩
  intro r o ho
  have ho : (t.receiver.receiveBatchedRequests false recvTime qs).requests[r]? = some o := ho
  rw [hreq, List.getElem?_append] at ho
  have hlen := h.intact.keys_length
  show _ ∧ _ ∧ (t.keys ++ qs.map (Receiver.queueKey false recvTime))[r]? = _ ∧ _
  split at ho
  · rename_i hlt
    rw [List.getElem?_append_left (by omega)]
    exact h.keyed r o ho
  · rename_i hlt
    rw [List.getElem?_append_right (by omega), hlen, List.getElem?_map]
    rw [List.getElem?_map, Option.map_eq_some_iff] at ho
    obtain ⟨q, hq, rfl⟩ := ho
    have hclient : (q.arrive recvTime).clientReq = q.clientReq := by
      rw [DOMRequest.arrive]
      split <;> rfl
    rw [hq, hclient]
    refine ⟨(q.arrive_deadline recvTime).symm, (q.arrive_clientId recvTime).symm, ?_,
      (hqs q (List.mem_of_getElem? hq)).2⟩
    rw [DOMRequest.key, q.arrive_deadline, q.arrive_clientId]
    rfl

lemma verify (h : Queued t) (hr : r ∈ t.receiver.receiverVerifyQueue) :
    Queued (t.next false (.verify r)) := by
  have hkeeps : KeepsEntries false [] t (.verify r) := by
    intro q hq
    obtain ⟨hdeadline, hclient, hkey, hparse⟩ := h.keyed r q hq
    refine ⟨hparse, fun _ => ?_⟩
    rw [hkey, hdeadline, hclient]
    rfl
  refine ⟨h.intact.verify hr hkeeps, fun x o ho => ?_⟩
  obtain ⟨q, hq, hrequest, hdeadline, hclient⟩ := Receiver.getElem?_receiverVerify_cases ho
  rw [hrequest, hdeadline, hclient]
  exact h.keyed x q hq

lemma check (h : Queued t) (now : ℕ) : Queued (t.next false (.check now)) :=
  ⟨(h.intact.check now).withClock now, h.keyed⟩

end Queued

/-! ### Requests before their deadlines -/

/-- What has been forwarded is in order, and lies in front of what waits. -/
structure Ordered (t : ReceiverTrace) : Prop where
  queued : Queued t
  sorted : t.forwarded.Pairwise DOMRequest.Before
  front : ∀ f ∈ t.forwarded, ∀ key ∈ t.receiver.deadlineQueue, DeadlineKey.cmp f.key key = .lt
  past : ∀ f ∈ t.forwarded, f.deadline ≤ t.clock

namespace Ordered

lemma init : Ordered {} where
  queued := .init
  sorted := List.Pairwise.nil
  front _ hf := absurd hf List.not_mem_nil
  past _ hf := absurd hf List.not_mem_nil

/-- A batch arrives before its deadlines. -/
lemma receive (h : Ordered t) (hnodup : (qs.map DOMRequest.key).Nodup)
    (hqs : ∀ q ∈ qs, q.key ∉ t.keys ∧ (ClientMessage.parse q.clientReq).isSome)
    (hclock : t.clock ≤ recvTime) (hearly : ∀ q ∈ qs, recvTime < q.deadline) :
    Ordered (t.next false (.receive recvTime qs)) := by
  obtain ⟨hreq, hproc, hqueue⟩ := Receiver.receiveBatchedRequests_cases false recvTime t.receiver qs
  have hforwarded : (t.next false (.receive recvTime qs)).forwarded = t.forwarded := by
    show List.filterMap _ (t.receiver.receiveBatchedRequests false recvTime qs).processQueue = _
    rw [hproc]
    refine List.filterMap_congr fun r hr => ?_
    obtain ⟨o, ho, -⟩ := h.queued.intact.forwarded r hr
    show ((t.receiver.receiveBatchedRequests false recvTime qs).requests[r]?).map _ = _
    rw [hreq, List.getElem?_append_left (List.getElem?_eq_some_iff.mp ho).1]
  refine ⟨h.queued.receive recvTime hnodup hqs, ?_, ?_, ?_⟩
  · rw [hforwarded]
    exact h.sorted
  · rw [hforwarded]
    intro f hf key hkey
    rcases (hqueue key).mp hkey with hkey | hkey
    · obtain ⟨q, hq, rfl⟩ := List.mem_map.mp hkey
      exact DeadlineKey.cmp_eq_lt.mpr
        (.inl ((h.past f hf).trans_lt (hclock.trans_lt (hearly q hq))))
    · exact h.front f hf key hkey
  · rw [hforwarded]
    exact fun f hf => (h.past f hf).trans hclock

lemma verify (h : Ordered t) (hr : r ∈ t.receiver.receiverVerifyQueue) :
    Ordered (t.next false (.verify r)) := by
  have hforwarded : (t.next false (.verify r)).forwarded = t.forwarded := by
    show (t.receiver.receiverVerify r).processQueue.filterMap
      (fun x => ((t.receiver.receiverVerify r).requests[x]?).map (·.request)) = _
    have hintact := (h.queued.verify hr).intact
    refine (List.filterMap_congr fun x hx => ?_).trans
      (congrArg (List.filterMap _) (Receiver.receiverVerify_processQueue t.receiver r))
    obtain ⟨o, ho, -⟩ := hintact.forwarded x hx
    have ho : (t.receiver.receiverVerify r).requests[x]? = some o := ho
    obtain ⟨q, hq, hrequest, -⟩ := Receiver.getElem?_receiverVerify_cases ho
    rw [ho, hq, Option.map_some, Option.map_some, hrequest]
  refine ⟨h.queued.verify hr, ?_, ?_, ?_⟩
  · rw [hforwarded]
    exact h.sorted
  · rw [hforwarded]
    exact fun f hf key hkey => h.front f hf key (Receiver.mem_receiverVerify hkey)
  · rw [hforwarded]
    exact h.past

/-- The requests that a check forwards, in the order of their keys. -/
lemma exists_due (h : Queued t) (now : ℕ) :
    ∃ ds : List DOMRequest, (t.next false (.check now)).forwarded = t.forwarded ++ ds ∧
      ds.map DOMRequest.key = (t.receiver.due now).map (·.1) := by
  refine ⟨(t.receiver.due now).filterMap fun e => (t.receiver.requests[e.2]?).map (·.request),
    ?_, ?_⟩
  · show (t.receiver.checkDeadlines now).processQueue.filterMap
      (fun r => (t.receiver.requests[r]?).map (·.request)) = _
    rw [Receiver.checkDeadlines, List.filterMap_append, List.filterMap_map]
    rfl
  · rw [List.map_filterMap, ← List.filterMap_eq_map]
    refine List.filterMap_congr fun e he => ?_
    obtain ⟨hentry, -, o, ho, -⟩ := Intact.mem_due he
    have hkey := Option.some.inj
      ((h.keyed e.2 o ho).2.2.1.symm.trans (h.intact.entry _ _ hentry).1)
    rw [ho]
    exact congrArg some hkey

lemma check (h : Ordered t) (hnow : t.clock ≤ now) : Ordered (t.next false (.check now)) := by
  obtain ⟨ds, hforwarded, hkeys⟩ := exists_due h.queued now
  let isDue : DeadlineKey × ℕ → Bool := fun e =>
    decide (e.1.1 ≤ now) && (t.receiver.requests[e.2]?).any (·.verified)
  have hsplit : t.receiver.deadlineQueue.toList =
      t.receiver.due now ++ t.receiver.deadlineQueue.toList.dropWhile isDue :=
    List.takeWhile_append_dropWhile.symm
  have hordered : (t.receiver.deadlineQueue.toList.map (·.1)).Pairwise
      (DeadlineKey.cmp · · = .lt) := List.pairwise_map.mpr ExtTreeMap.ordered_keys_toList
  rw [hsplit, List.map_append, List.pairwise_append, ← hkeys] at hordered
  obtain ⟨hdue, -, hrest⟩ := hordered
  have hmem : ∀ d ∈ ds, ∃ r, (d.key, r) ∈ t.receiver.due now := by
    intro d hd
    have hk : d.key ∈ (t.receiver.due now).map (·.1) := hkeys ▸ List.mem_map_of_mem hd
    obtain ⟨⟨key, r⟩, he, heq⟩ := List.mem_map.mp hk
    exact ⟨r, by rw [← heq]; exact he⟩
  have hold : ∀ {key : DeadlineKey} {r : ℕ}, t.receiver.deadlineQueue[key]? = some r →
      key ∈ t.receiver.deadlineQueue := fun hr =>
    ExtTreeMap.mem_iff_isSome_getElem?.mpr (by rw [hr]; rfl)
  refine ⟨h.queued.check now, ?_, ?_, ?_⟩
  · have hsorted : ds.Pairwise fun d d' => DeadlineKey.cmp d.key d'.key = .lt :=
      List.pairwise_map.mp hdue
    rw [hforwarded, List.pairwise_append]
    refine ⟨h.sorted, hsorted, fun f hf d hd => ?_⟩
    obtain ⟨r, hr⟩ := hmem d hd
    exact h.front f hf d.key (hold (Intact.mem_due hr).1)
  · rw [hforwarded]
    intro f hf key hkey
    obtain ⟨r, hr⟩ := Option.isSome_iff_exists.mp (ExtTreeMap.mem_iff_isSome_getElem?.mp hkey)
    obtain ⟨hr, hnot⟩ := Intact.getElem?_check.mp hr
    rcases List.mem_append.mp hf with hf | hf
    · exact h.front f hf key (hold hr)
    · refine hrest f.key (List.mem_map_of_mem hf) key ?_
      have hin : (key, r) ∈ t.receiver.deadlineQueue.toList :=
        ExtTreeMap.mem_toList_iff_getElem?_eq_some.mpr hr
      rw [hsplit] at hin
      rcases List.mem_append.mp hin with hin | hin
      · exact absurd (List.mem_map_of_mem hin) hnot
      · exact List.mem_map_of_mem hin
  · rw [hforwarded]
    intro f hf
    rcases List.mem_append.mp hf with hf | hf
    · exact (h.past f hf).trans hnow
    · obtain ⟨r, hr⟩ := hmem f hf
      exact (Intact.mem_due hr).2.1

/-- Once all requests have been verified, a check behind all deadlines forwards the valid ones. -/
lemma mem_forwarded_check (h : Ordered t) (hpending : t.receiver.receiverVerifyQueue = [])
    (hnow : ∀ q ∈ t.received, q.deadline ≤ now) (q : DOMRequest) :
    q ∈ (t.next false (.check now)).forwarded ↔
      q ∈ t.received ∧ ClientMessage.verify q.clientId q.clientReq = true := by
  rw [ReceiverTrace.mem_forwarded, ReceiverTrace.received, List.mem_map]
  have hexactly := h.queued.intact.exactlyOnce
  constructor
  · rintro ⟨r, hr, o, ho, rfl⟩
    obtain ⟨o', ho', hvalid⟩ := ((h.queued.intact.check now).exactlyOnce).valid r hr
    obtain rfl := Option.some.inj (ho'.symm.trans ho)
    have hclient := (h.queued.keyed r o' ho).2.1
    exact ⟨⟨o', List.mem_of_getElem? ho, rfl⟩, hclient ▸ hvalid.2⟩
  · rintro ⟨⟨o, ho, rfl⟩, hver⟩
    obtain ⟨r, hr⟩ := List.mem_iff_getElem?.mp ho
    obtain ⟨-, hclient, hkey, hparse⟩ := h.queued.keyed r o hr
    exact ⟨r, hexactly.complete hpending now r o _ hr ⟨hparse, hclient ▸ hver⟩ hkey
      (hnow _ (List.mem_map_of_mem ho)), o, hr, rfl⟩

end Ordered

end DomBft
