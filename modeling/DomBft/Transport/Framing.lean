import DomBft.Transport

/-!
Which messages come out of the datagrams that the send thread makes.

* `WellFramed`: a byte string that is one message, by its header.
* `splitLoop_done`, `splitLoop_message`, `splitLoop_past`: the loop of the receiving side, by what
  stands at its offset.
* `groups`: the messages of each datagram of a bulk; `sendBulk_eq` connects them with the bytes.
* `handled`: the messages of a datagram for which the handler is called.  The loop goes on only if
  there is more left than a header.
* `batches_handled`: **when batching loses no message.**
-/

namespace DomBft

open Fallible

/-! ### Messages in a byte string -/

/-- The header tells the length. -/
def WellFramed (m : Bytes) : Prop :=
  headerSize ≤ m.length ∧ (headerAt m 0).total = m.length

lemma wellFramed_bytes (m : PreparedMsg) : WellFramed m.bytes := by
  refine ⟨?_, m.total_headerAt⟩
  rw [m.length_bytes]
  omega

variable {msg m rest : Bytes} {offset : ℕ}

/-- No more is left than a header. -/
lemma splitLoop_done (hle : offset ≤ msg.length) (hshort : msg.length ≤ offset + headerSize) :
    splitLoop msg offset = .ok [] := by
  rw [splitLoop, sizeDiff_of_le hle, if_neg (by omega)]

/-- A complete message with something behind it, or in it, is handled. -/
lemma splitLoop_message (hmsg : msg.drop offset = m ++ rest) (hm : WellFramed m)
    (hmore : headerSize < m.length + rest.length) :
    splitLoop msg offset = (splitLoop msg (offset + m.length)).map (m :: ·) := by
  have hlength : msg.length - offset = m.length + rest.length := by
    rw [← List.length_drop, hmsg, List.length_append]
  have hheader : (headerAt msg offset).total = m.length := by
    rw [← headerAt_drop, hmsg, headerAt_append _ hm.1, hm.2]
  have htake : (msg.drop offset).take m.length = m := by rw [hmsg, List.take_left]
  have hroom := hm.1
  rw [splitLoop, sizeDiff_of_le (by omega), if_pos (by omega), if_pos (by omega), hheader]
  dsimp only
  rw [htake]
  simp only [if_pos (show offset + m.length ≤ msg.length by omega)]
  cases splitLoop msg (offset + m.length) with
  | error fault => rfl
  | ok calls => rfl

/-- Behind the end of the datagram there is nothing to read. -/
lemma splitLoop_past (hpast : msg.length < offset)
    (hnear : offset + headerSize < msg.length + 2 ^ 64) :
    splitLoop msg offset = .error .undefined := by
  rw [splitLoop, sizeDiff_of_lt hpast, if_pos (by omega), if_neg (by omega)]

/-! ### Datagrams -/

namespace PreparedMsg

/-- The message has neither a body nor a signature. -/
def HeaderOnly (m : PreparedMsg) : Prop := m.body = [] ∧ m.sig = []

instance (m : PreparedMsg) : Decidable m.HeaderOnly := inferInstanceAs (Decidable (_ ∧ _))

lemma headerOnly_iff (m : PreparedMsg) : m.HeaderOnly ↔ m.bytes.length = headerSize := by
  rw [HeaderOnly, length_bytes, ← List.length_eq_zero_iff, ← List.length_eq_zero_iff]
  omega

/-- The messages of each datagram, for the messages behind a first group. -/
def groupsFrom : List PreparedMsg → List PreparedMsg → List (List PreparedMsg)
  | group, [] => [group]
  | group, m :: ms =>
    if nngBufferSize < (group.flatMap bytes).length + m.bytes.length then group :: groupsFrom [m] ms
    else groupsFrom (group ++ [m]) ms

/-- The messages of each datagram of a bulk. -/
def groups : List PreparedMsg → List (List PreparedMsg)
  | [] => []
  | m :: ms => groupsFrom [m] ms

lemma sendLoop_eq (group ms : List PreparedMsg) :
    sendLoop (group.flatMap bytes) (ms.map bytes) =
      (groupsFrom group ms).map (·.flatMap bytes) := by
  induction ms generalizing group with
  | nil => rfl
  | cons m ms ih =>
      rw [List.map_cons, sendLoop, groupsFrom]
      split_ifs
      · have hm := ih [m]
        rw [List.flatMap_singleton] at hm
        rw [hm, List.map_cons]
      · have hm := ih (group ++ [m])
        rw [List.flatMap_append, List.flatMap_singleton] at hm
        rw [hm]

/-- The datagrams of a bulk. -/
lemma sendBulk_eq (ms : List PreparedMsg) :
    sendBulk (ms.map bytes) = (groups ms).map (·.flatMap bytes) := by
  cases ms with
  | nil => rfl
  | cons m ms =>
      have hm := sendLoop_eq [m] ms
      rw [List.flatMap_singleton] at hm
      rw [List.map_cons, sendBulk, hm, groups]

lemma flatten_groupsFrom (group ms : List PreparedMsg) :
    (groupsFrom group ms).flatten = group ++ ms := by
  induction ms generalizing group with
  | nil => simp [groupsFrom]
  | cons m ms ih =>
      rw [groupsFrom]
      split_ifs
      · rw [List.flatten_cons, ih, List.singleton_append]
      · rw [ih, List.append_assoc, List.singleton_append]

/-- No message is left out of the datagrams, and none is moved. -/
lemma flatten_groups (ms : List PreparedMsg) : (groups ms).flatten = ms := by
  cases ms with
  | nil => rfl
  | cons m ms => exact flatten_groupsFrom [m] ms

/-- The messages of a datagram for which the handler is called. -/
def handled : List PreparedMsg → List Bytes
  | [] => []
  | [m] => if m.HeaderOnly then [] else [m.bytes]
  | m :: m' :: ms => m.bytes :: handled (m' :: ms)

/-- The last message of a datagram has neither a body nor a signature. -/
def Loses (group : List PreparedMsg) : Prop := ∃ m ∈ group.getLast?, m.HeaderOnly

instance (group : List PreparedMsg) : Decidable (Loses group) :=
  decidable_of_iff ((group.getLast?.any fun m => decide m.HeaderOnly) = true) (by
    rw [Loses, Option.any_eq_true]
    simp)

lemma not_loses_iff {group : List PreparedMsg} :
    ¬Loses group ↔ ∀ m, group.getLast? = some m → m.body ≠ [] ∨ m.sig ≠ [] := by
  rw [Loses]
  cases group.getLast? with
  | none => simp
  | some m =>
      simp only [Option.mem_some, Option.some.injEq, exists_eq_left', forall_eq', HeaderOnly]
      exact not_and_or

/-- **The loop over a datagram**: what it handles. -/
lemma splitLoop_eq {msg : Bytes} {offset : ℕ} {ms : List PreparedMsg}
    (hmsg : msg.drop offset = ms.flatMap bytes) (hle : offset ≤ msg.length) :
    splitLoop msg offset = .ok (handled ms) := by
  induction ms generalizing offset with
  | nil =>
      have hend : msg.length ≤ offset := List.drop_eq_nil_iff.mp hmsg
      exact splitLoop_done hle (by omega)
  | cons m ms ih =>
      rw [List.flatMap_cons] at hmsg
      have hlength : msg.length - offset = m.bytes.length + (ms.flatMap bytes).length := by
        rw [← List.length_drop, hmsg, List.length_append]
      have hrest : msg.drop (offset + m.bytes.length) = ms.flatMap bytes := by
        rw [← List.drop_drop, hmsg, List.drop_left]
      have hm := wellFramed_bytes m
      cases ms with
      | nil =>
          rw [List.flatMap_nil, List.length_nil] at hlength
          rw [handled]
          split_ifs with honly
          · rw [headerOnly_iff] at honly
            exact splitLoop_done hle (by omega)
          · rw [headerOnly_iff] at honly
            have hroom := hm.1
            rw [splitLoop_message hmsg hm (by rw [List.flatMap_nil, List.length_nil]; omega),
              ih hrest (by omega)]
            rfl
      | cons m' ms =>
          have hnext := (wellFramed_bytes m').1
          have hmore : headerSize < m.bytes.length + ((m' :: ms).flatMap bytes).length := by
            rw [List.flatMap_cons, List.length_append]
            have hroom := hm.1
            rw [headerSize] at *
            omega
          rw [splitLoop_message hmsg hm hmore, ih hrest (by omega)]
          rfl

/-- One message is lost with a datagram that ends in a header. -/
lemma length_handled (ms : List PreparedMsg) :
    (handled ms).length + (if Loses ms then 1 else 0) = ms.length := by
  induction ms with
  | nil => simp [handled, Loses]
  | cons m ms ih =>
      cases ms with
      | nil =>
          rw [handled]
          by_cases honly : m.HeaderOnly
          · simp [Loses, honly]
          · simp [Loses, honly]
      | cons m' ms =>
          have hloses : Loses (m :: m' :: ms) ↔ Loses (m' :: ms) := by
            rw [Loses, Loses, List.getLast?_cons_cons]
          rw [handled, List.length_cons, List.length_cons, ← ih]
          simp only [hloses]
          omega

lemma handled_of_not_loses {ms : List PreparedMsg} (h : ¬Loses ms) : handled ms = ms.map bytes := by
  induction ms with
  | nil => rfl
  | cons m ms ih =>
      cases ms with
      | nil =>
          have honly : ¬m.HeaderOnly := fun honly => h ⟨m, rfl, honly⟩
          rw [handled, if_neg honly]
          rfl
      | cons m' ms =>
          rw [handled, ih (by rwa [Loses, ← List.getLast?_cons_cons])]
          rfl

/-- Over several datagrams. -/
lemma length_flatMap_handled (l : List (List PreparedMsg)) :
    (l.flatMap handled).length + l.countP (Loses ·) = l.flatten.length := by
  induction l with
  | nil => rfl
  | cons ms l ih =>
      rw [List.flatMap_cons, List.flatten_cons, List.length_append, List.length_append, ← ih,
        ← length_handled ms, List.countP_cons]
      simp only [decide_eq_true_eq]
      omega

/-- Every message is handled if and only if no datagram ends in a header. -/
lemma flatMap_handled_iff (l : List (List PreparedMsg)) :
    l.flatMap handled = l.flatten.map bytes ↔ ∀ ms ∈ l, ¬Loses ms := by
  constructor
  · intro h
    have hlength := length_flatMap_handled l
    rw [h, List.length_map] at hlength
    have hzero : l.countP (Loses ·) = 0 := by omega
    intro ms hms
    exact of_decide_eq_false (Bool.eq_false_iff.mpr (List.countP_eq_zero.mp hzero ms hms))
  · intro h
    rw [List.map_flatten, ← List.flatMap_def]
    exact List.flatMap_congr fun ms hms => handled_of_not_loses (h ms hms)

end PreparedMsg

open PreparedMsg

/-- What is received from datagrams with these messages. -/
lemma receive_eq (l : List (List PreparedMsg)) :
    NngEndpointThreaded.receive (l.map (·.flatMap bytes)) = .ok (l.flatMap handled) := by
  have hsplit : (l.map (·.flatMap bytes)).mapM NngEndpointThreaded.splitMessages =
      .ok (l.map handled) := by
    induction l with
    | nil => rfl
    | cons ms l ih =>
        have hms : splitLoop (ms.flatMap bytes) 0 = .ok (handled ms) :=
          splitLoop_eq rfl (Nat.zero_le _)
        rw [List.map_cons, List.mapM_cons, ih, NngEndpointThreaded.splitMessages, hms]
        rfl
  rw [NngEndpointThreaded.receive, hsplit, List.flatMap_def]
  rfl

/-- **Batching**: the bulks that the send thread takes out of its queue are received without a
fault, and the handler is called for exactly the messages of the bulks, in their order, if and only
if no datagram ends in a message with neither a body nor a signature. -/
theorem batches_handled (bulks : List (List PreparedMsg)) :
    ∃ calls, NngEndpointThreaded.receive (bulks.flatMap fun bulk => sendBulk (bulk.map bytes)) =
        .ok calls ∧
      (calls = bulks.flatten.map bytes ↔
        ∀ bulk ∈ bulks, ∀ group ∈ groups bulk, ∀ m, group.getLast? = some m →
          m.body ≠ [] ∨ m.sig ≠ []) := by
  have hsent : (bulks.flatMap fun bulk => sendBulk (bulk.map bytes)) =
      (bulks.flatMap groups).map (·.flatMap bytes) := by
    rw [List.map_flatMap]
    exact List.flatMap_congr fun bulk _ => sendBulk_eq bulk
  have hflatten : (bulks.flatMap groups).flatten = bulks.flatten := by
    rw [List.flatMap_def, List.flatten_flatten, List.map_map]
    refine congrArg List.flatten (Eq.trans (List.map_congr_left fun bulk _ => ?_) (List.map_id _))
    exact flatten_groups bulk
  refine ⟨(bulks.flatMap groups).flatMap handled, by rw [hsent, receive_eq], ?_⟩
  rw [← hflatten, flatMap_handled_iff]
  simp only [List.mem_flatMap, not_loses_iff]
  constructor
  · intro h bulk hbulk group hgroup
    exact h group ⟨bulk, hbulk, hgroup⟩
  · rintro h group ⟨bulk, hbulk, hgroup⟩
    exact h bulk hbulk group hgroup

/-- **A message that is lost**: its fields have their default values, so that the body is empty,
and it is not signed. -/
theorem empty_message_lost : ∃ m, prepareProtoMsg (fun _ => 0) [] (by decide) 0 sendBufferSize =
    some m ∧
      NngEndpointThreaded.receive ([[m]].flatMap fun bulk => sendBulk (bulk.map bytes)) = .ok [] ∧
      [[m]].flatten.map bytes = [m.bytes] := by
  refine ⟨_, rfl, ?_, rfl⟩
  exact receive_eq [[_]]

end DomBft
