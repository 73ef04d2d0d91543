import DomBft.Transport.Bounds
import DomBft.Verify

/-!
The threads of a replica that take messages out of its queues, and what becomes of a message.

* `handleMessage`: the queue into which a message goes; one from the address of the replica itself
  goes to the thread that processes, without a check.
* `verifyMessagesThd`, `processMessagesThd`: an iteration of each loop.  A branch either goes on
  with the next message or returns from the thread.
* `forwardRequest`: the message that is made of a request with a deadline.
* `VerifyReady`, `processReturns`: where the two loops go on;
  `worker_loops_go_on`: **when no message ends a loop.**

What the replica does with a message that it processes is in `Replica`; here it is `Handled`.
-/

namespace DomBft

open Fallible

/-! ### The queues -/

/-- Where a message goes that arrives. -/
inductive Route where
  | receiver
  | verifyQueue
  | processQueue
deriving DecidableEq, Repr

/-- `handleMessage`; `own` is whether the sender has the address of the replica. -/
def handleMessage (own : Bool) (msg : PreparedMsg) : Route :=
  match MessageType.ofByte msg.msgType with
  | some .domRequest | some .domBatchRequest => .receiver
  | some .psClient => .verifyQueue
  | _ => if own then .processQueue else .verifyQueue

/-- How an iteration of a loop ends. -/
inductive Iteration (α : Type) where
  | done (x : α)
  | dropped
  /-- `return` from the thread -/
  | returned

/-- The loop goes on with the next message: no fault, and no return from the thread. -/
def GoesOn {α : Type} (result : Except Fault (Iteration α)) : Prop :=
  ∃ iteration, result = .ok iteration ∧ iteration ≠ .returned

/-! ### Verifying -/

section

variable [MessageParser] [SignatureProvider]

/-- A branch of `verifyMessagesThd`: what it does with a message that does not parse, and the check
of one that does. -/
def verifyBranch {α : Type} (msg : PreparedMsg) (unparsed : Iteration PreparedMsg)
    (parsed : Option α) (check : α → Except Fault Bool) : Except Fault (Iteration PreparedMsg) :=
  match parsed with
  | none => .ok unparsed
  | some m => do
    if ← check m then pure (.done msg) else pure .dropped

variable [Sha256]

/-- An iteration of `verifyMessagesThd`. -/
def verifyMessagesThd (cfg : Config) (msg : PreparedMsg) : Except Fault (Iteration PreparedMsg) :=
  let parse (t : MessageType) : Option t.Proto := MessageParser.parse t msg.body
  let check (m : Msg) : Except Fault Bool := verifyMessage cfg m msg.sig
  match MessageType.ofByte msg.msgType with
  | some .cert => verifyBranch msg .dropped (parse .cert) fun m => check (.cert m)
  | some .reply => verifyBranch msg .dropped (parse .reply) fun m => check (.reply m)
  | some .commit => verifyBranch msg .dropped (parse .commit) fun m => check (.commit m)
  | some .snapshotRequest =>
    verifyBranch msg .dropped (parse .snapshotRequest) fun m => check (.snapshotRequest m)
  | some .snapshotReply =>
    verifyBranch msg .dropped (parse .snapshotReply) fun m => check (.snapshotReply m)
  | some .missingRequestFetch =>
    verifyBranch msg .dropped (parse .missingRequestFetch) fun m => check (.missingRequestFetch m)
  | some .missingRequestReply =>
    verifyBranch msg .dropped (parse .missingRequestReply) fun m => check (.missingRequestReply m)
  | some .clientRequest =>
    verifyBranch msg .dropped (parse .clientRequest) fun m => check (.clientRequest m)
  | some .psClient =>
    verifyBranch msg .dropped (parse .psClient) fun m => check (.clientRequest m)
  | some .psLeaderForward =>
    verifyBranch msg .dropped (parse .psLeaderForward) fun fwd =>
      .ok (SignatureProvider.verifyClient fwd.request.clientId fwd.request fwd.clientSignature)
  | some .psLeaderOrder => verifyBranch msg .dropped (parse .psLeaderOrder) fun _ => .ok true
  | some .repairTimeout =>
    verifyBranch msg .returned (parse .repairTimeout) fun m => check (.repairTimeout m)
  | some .repairReplyProof =>
    verifyBranch msg .returned (parse .repairReplyProof) fun m => check (.repairReplyProof m)
  | some .repairTimeoutProof =>
    verifyBranch msg .returned (parse .repairTimeoutProof) fun m => check (.repairTimeoutProof m)
  | some .repairStart =>
    verifyBranch msg .dropped (parse .repairStart) fun m => check (.repairStart m)
  | some .pbftPrePrepare =>
    verifyBranch msg .dropped (parse .pbftPrePrepare) fun m => check (.prePrepare m)
  | some .pbftPrepare =>
    verifyBranch msg .dropped (parse .pbftPrepare) fun m => check (.prepare m)
  | some .pbftCommit =>
    verifyBranch msg .dropped (parse .pbftCommit) fun m => check (.pbftCommit m)
  | some .viewUpdate =>
    verifyBranch msg .dropped (parse .viewUpdate) fun m => check (.viewUpdate m)
  | some .domRequest | some .domBatchRequest | none => .ok .dropped

end

/-! ### Processing -/

/-- What a handler of the replica is called with. -/
inductive Handled where
  | message (m : Msg) (sig : Bytes)
  | psClient (request : ClientRequestProto) (sig : Bytes)
  | psLeaderForward (fwd : PSLeaderForward)
  | psLeaderOrder (order : PSLeaderOrder)

/-- A branch of `processMessagesThd`: what it does with a message that does not parse, and the
handler of one that does. -/
def processBranch {α : Type} (unparsed : Iteration Handled) (parsed : Option α)
    (handler : α → Handled) : Except Fault (Iteration Handled) :=
  match parsed with
  | none => .ok unparsed
  | some m => .ok (.done (handler m))

section

variable [MessageParser]

/-- The branch for a request with a deadline, with the message of the client inside. -/
def processDomBranch (parsed : Option DOMRequest) : Except Fault (Iteration Handled) :=
  match parsed with
  | none => .ok .returned
  | some domHeader => do
    match ← processDomRequest domHeader with
    | none => pure .dropped
    | some request => pure (.done (.message (.domRequest domHeader.deadline request) []))

/-- The dispatch of `processMessagesThd`. -/
def processMessagesThd (msg : PreparedMsg) : Except Fault (Iteration Handled) :=
  let parse (t : MessageType) : Option t.Proto := MessageParser.parse t msg.body
  match MessageType.ofByte msg.msgType with
  | some .domRequest => processDomBranch (parse .domRequest)
  | some .clientRequest =>
    processBranch .dropped (parse .clientRequest) fun m => .message (.clientRequest m) msg.sig
  | some .cert => processBranch .returned (parse .cert) fun m => .message (.cert m) msg.sig
  | some .reply => processBranch .returned (parse .reply) fun m => .message (.reply m) msg.sig
  | some .commit => processBranch .returned (parse .commit) fun m => .message (.commit m) msg.sig
  | some .snapshotRequest =>
    processBranch .returned (parse .snapshotRequest) fun m => .message (.snapshotRequest m) msg.sig
  | some .snapshotReply =>
    processBranch .returned (parse .snapshotReply) fun m => .message (.snapshotReply m) msg.sig
  | some .missingRequestFetch =>
    processBranch .returned (parse .missingRequestFetch) fun m =>
      .message (.missingRequestFetch m) msg.sig
  | some .missingRequestReply =>
    processBranch .returned (parse .missingRequestReply) fun m =>
      .message (.missingRequestReply m) msg.sig
  | some .repairTimeout =>
    processBranch .returned (parse .repairTimeout) fun m => .message (.repairTimeout m) msg.sig
  | some .repairReplyProof =>
    processBranch .returned (parse .repairReplyProof) fun m =>
      .message (.repairReplyProof m) msg.sig
  | some .repairTimeoutProof =>
    processBranch .returned (parse .repairTimeoutProof) fun m =>
      .message (.repairTimeoutProof m) msg.sig
  | some .repairStart =>
    processBranch .returned (parse .repairStart) fun m => .message (.repairStart m) msg.sig
  | some .pbftPrePrepare =>
    processBranch .returned (parse .pbftPrePrepare) fun m => .message (.prePrepare m) msg.sig
  | some .pbftPrepare =>
    processBranch .returned (parse .pbftPrepare) fun m => .message (.prepare m) msg.sig
  | some .pbftCommit =>
    processBranch .returned (parse .pbftCommit) fun m => .message (.pbftCommit m) msg.sig
  | some .viewUpdate =>
    processBranch .dropped (parse .viewUpdate) fun m => .message (.viewUpdate m) msg.sig
  | some .psClient => processBranch .dropped (parse .psClient) fun m => .psClient m msg.sig
  | some .psLeaderForward => processBranch .dropped (parse .psLeaderForward) .psLeaderForward
  | some .psLeaderOrder => processBranch .dropped (parse .psLeaderOrder) .psLeaderOrder
  | some .domBatchRequest | none => .ok .dropped

/-- `forwardRequest`: the message that goes to the thread that processes.  A message of two gigabytes
is not serialized. -/
def forwardRequest (padding : Fin 3 → UInt8) (request : DOMRequest) : Option PreparedMsg :=
  if h : (MessageParser.serialize request).length < 2 ^ 31 then
    some
      { msgType := 2, padding, body := MessageParser.serialize request, sig := []
        body_length := h.trans (by decide), sig_length := noSignature_length }
  else none

end

/-! ### Where the loops go on -/

lemma goesOn_ok {α : Type} {iteration : Iteration α} :
    GoesOn (.ok iteration) ↔ iteration ≠ .returned := by
  constructor
  · rintro ⟨_, ⟨⟩, hne⟩
    exact hne
  · intro hne
    exact ⟨iteration, rfl, hne⟩

section Branches

variable {α : Type} {msg msg' : PreparedMsg} {parsed : Option α} {check : α → Except Fault Bool}

lemma goesOn_verifyBranch {unparsed : Iteration PreparedMsg} :
    GoesOn (verifyBranch msg unparsed parsed check) ↔
      (parsed = none → unparsed ≠ .returned) ∧ ∀ m, parsed = some m → ∃ b, check m = .ok b := by
  cases parsed with
  | none => simp [verifyBranch, goesOn_ok]
  | some m =>
      rw [verifyBranch]
      cases hcheck : check m with
      | error fault => simp [GoesOn, hcheck]
      | ok b => cases b <;> simp [GoesOn, pure, Except.pure, hcheck]

/-- A branch that returns on what it cannot parse. -/
lemma goesOn_verifyBranch_returned (hcheck : ∀ m, ∃ b, check m = .ok b) :
    GoesOn (verifyBranch msg .returned parsed check) ↔ parsed.isSome = true := by
  rw [goesOn_verifyBranch]
  cases parsed with
  | none => simp
  | some m => simpa using hcheck m

/-- Only what has been parsed is handed on. -/
lemma verifyBranch_done {unparsed : Iteration PreparedMsg} (hunparsed : ∀ x, unparsed ≠ .done x)
    (h : verifyBranch msg unparsed parsed check = .ok (.done msg')) :
    msg' = msg ∧ parsed.isSome = true := by
  cases parsed with
  | none => exact absurd (Except.ok.inj h) (hunparsed msg')
  | some m =>
      obtain ⟨b, -, h⟩ := bind_eq_ok.mp h
      cases b with
      | false => cases h
      | true =>
          cases h
          exact ⟨rfl, rfl⟩

lemma goesOn_processBranch_dropped {handler : α → Handled} :
    GoesOn (processBranch .dropped parsed handler) := by
  cases parsed with
  | none => exact goesOn_ok.mpr nofun
  | some m => exact goesOn_ok.mpr nofun

lemma goesOn_processBranch_returned {handler : α → Handled} :
    GoesOn (processBranch .returned parsed handler) ↔ parsed.isSome = true := by
  cases parsed with
  | none => exact iff_of_false (fun h => goesOn_ok.mp h rfl) nofun
  | some m => exact iff_of_true (goesOn_ok.mpr nofun) rfl

end Branches

section Loops

variable [MessageParser]

/-- `processMessagesThd` returns on a message of this type that it cannot parse. -/
def MessageType.processReturns : MessageType → Bool
  | .clientRequest | .domBatchRequest | .viewUpdate => false
  | .psClient | .psLeaderForward | .psLeaderOrder => false
  | _ => true

/-- A message that the thread can process: it parses, if its type is one of those. -/
def ProcessReady (msg : PreparedMsg) : Prop :=
  ∀ t, MessageType.ofByte msg.msgType = some t → t.processReturns = true →
    (MessageParser.parse t msg.body).isSome = true

lemma goesOn_processMessagesThd {msg : PreparedMsg}
    (hne : MessageType.ofByte msg.msgType ≠ some .domRequest) :
    GoesOn (processMessagesThd msg) ↔ ProcessReady msg := by
  rw [processMessagesThd, ProcessReady]
  cases ht : MessageType.ofByte msg.msgType with
  | none => exact iff_of_true (goesOn_ok.mpr nofun) nofun
  | some t =>
      cases t with
      | domRequest => exact absurd ht hne
      | domBatchRequest =>
          refine iff_of_true (goesOn_ok.mpr nofun) ?_
          rintro _ ⟨⟩ ⟨⟩
      | clientRequest | viewUpdate | psClient | psLeaderForward | psLeaderOrder =>
          refine iff_of_true goesOn_processBranch_dropped ?_
          rintro _ ⟨⟩ ⟨⟩
      | _ =>
          refine goesOn_processBranch_returned.trans ⟨?_, fun h => h _ rfl rfl⟩
          rintro h _ ⟨⟩ -
          exact h

/-- The request that a message is made of holds a message of a client. -/
lemma goesOn_forwardRequest (hwire : RoundTrips) {padding : Fin 3 → UInt8} {request : DOMRequest}
    {msg : PreparedMsg} (hforward : forwardRequest padding request = some msg)
    (hholds : HoldsMessage request.clientReq) : GoesOn (processMessagesThd msg) := by
  rw [forwardRequest] at hforward
  split_ifs at hforward
  cases hforward
  obtain ⟨parsed, hparsed⟩ := (processDomRequest_ok_iff request).mpr hholds
  show GoesOn (processDomBranch (MessageParser.parse .domRequest (MessageParser.serialize request)))
  rw [hwire.parse_serialize, processDomBranch, hparsed]
  cases parsed with
  | none => exact goesOn_ok.mpr nofun
  | some request => exact goesOn_ok.mpr nofun

variable [SignatureProvider] [Sha256] {cfg : Config}

/-- A message on which `verifyMessagesThd` goes on: it parses, if its type is one of three, and a
proposal that is signed and has the right digest passes the check of its start messages. -/
def VerifyReady (cfg : Config) (msg : PreparedMsg) : Prop :=
  match MessageType.ofByte msg.msgType with
  | some .repairTimeout => (MessageParser.parse .repairTimeout msg.body).isSome = true
  | some .repairReplyProof => (MessageParser.parse .repairReplyProof msg.body).isSome = true
  | some .repairTimeoutProof => (MessageParser.parse .repairTimeoutProof msg.body).isSome = true
  | some .pbftPrePrepare =>
    ∀ m : PBFTPrePrepare, MessageParser.parse .pbftPrePrepare msg.body = some m →
      SignatureProvider.verify m.primaryId (Msg.prePrepare m).body msg.sig = true →
      getProposalDigest m.proposal = m.proposalDigest →
      verifyRepairProposal cfg m.proposal = .ok true
  | _ => True

omit [MessageParser] in
lemma verifyMessage_prePrepare_ok_iff {m : PBFTPrePrepare} {sig : Bytes} :
    (∃ b, verifyMessage cfg (.prePrepare m) sig = .ok b) ↔
      (SignatureProvider.verify m.primaryId (Msg.prePrepare m).body sig = true →
        getProposalDigest m.proposal = m.proposalDigest →
        verifyRepairProposal cfg m.proposal = .ok true) := by
  rw [verifyMessage]
  by_cases hsig : SignatureProvider.verify m.primaryId (Msg.prePrepare m).body sig = true
  · by_cases hdigest : getProposalDigest m.proposal = m.proposalDigest
    · simp only [hsig, hdigest, Bool.not_true, Bool.false_eq_true, if_false, ne_eq, not_true,
        forall_const]
      cases hproposal : verifyRepairProposal cfg m.proposal with
      | error fault => simp [Fallible.error_bind]
      | ok b => cases b <;> simp [Fallible.ok_bind, pure, Except.pure]
    · simp [hsig, hdigest]
  · simp [hsig]

lemma goesOn_verifyMessagesThd {msg : PreparedMsg} :
    GoesOn (verifyMessagesThd cfg msg) ↔ VerifyReady cfg msg := by
  rw [verifyMessagesThd, VerifyReady]
  cases MessageType.ofByte msg.msgType with
  | none => exact iff_of_true (goesOn_ok.mpr nofun) trivial
  | some t =>
      cases t with
      | domRequest | domBatchRequest => exact iff_of_true (goesOn_ok.mpr nofun) trivial
      | repairTimeout | repairReplyProof | repairTimeoutProof =>
          exact goesOn_verifyBranch_returned fun _ => ⟨_, rfl⟩
      | pbftPrePrepare =>
          refine goesOn_verifyBranch.trans ((and_iff_right nofun).trans ?_)
          exact forall_congr' fun _ => forall_congr' fun _ => verifyMessage_prePrepare_ok_iff
      | _ =>
          refine iff_of_true (goesOn_verifyBranch.mpr ⟨nofun, fun _ _ => ?_⟩) trivial
          exact ⟨_, rfl⟩

/-- What the thread hands on has been parsed. -/
lemma verifyMessagesThd_done {msg msg' : PreparedMsg}
    (h : verifyMessagesThd cfg msg = .ok (.done msg')) :
    msg' = msg ∧ MessageType.ofByte msg.msgType ≠ some .domRequest ∧ ProcessReady msg := by
  rw [verifyMessagesThd] at h
  rw [ProcessReady]
  cases ht : MessageType.ofByte msg.msgType with
  | none =>
      rw [ht] at h
      cases h
  | some t =>
      rw [ht] at h
      cases t with
      | domRequest | domBatchRequest => cases h
      | _ =>
          obtain ⟨hsame, hparsed⟩ := verifyBranch_done (by rintro _ ⟨⟩) h
          refine ⟨hsame, nofun, ?_⟩
          rintro _ ⟨⟩ -
          exact hparsed

/-- **The worker loops**: an iteration of `verifyMessagesThd` goes on if and only if the message is
ready for it; the thread that processes goes on with everything that has been verified and with every
request whose client has been verified; and with a message that comes from the address of the
replica itself if and only if that parses where the branch of its type returns. -/
theorem worker_loops_go_on [ClientCrypto] (hwire : RoundTrips) (cfg : Config) :
    (∀ msg, GoesOn (verifyMessagesThd cfg msg) ↔ VerifyReady cfg msg) ∧
    (∀ msg msg', verifyMessagesThd cfg msg = .ok (.done msg') → GoesOn (processMessagesThd msg')) ∧
    (∀ padding useHMAC request msg, receiverVerifyMsg useHMAC request = .ok (some true) →
      forwardRequest padding request.request = some msg → GoesOn (processMessagesThd msg)) ∧
    ∀ msg, handleMessage true msg = .processQueue →
      (GoesOn (processMessagesThd msg) ↔ ProcessReady msg) := by
  refine ⟨fun msg => goesOn_verifyMessagesThd, fun msg msg' h => ?_, ?_, fun msg hroute => ?_⟩
  · obtain ⟨rfl, hne, hready⟩ := verifyMessagesThd_done h
    exact (goesOn_processMessagesThd hne).mpr hready
  · intro padding useHMAC request msg hverified hforward
    have hholds := ((receiverVerifyMsg_ok_iff useHMAC request).mp ⟨_, hverified⟩).1
    exact goesOn_forwardRequest hwire hforward hholds
  · refine goesOn_processMessagesThd fun ht => ?_
    rw [handleMessage, ht] at hroute
    cases hroute

end Loops

/-! ### Messages that are taken, and messages that are not -/

/-- A message without a signature. -/
def unsigned (msgType : UInt8) (body : Bytes) (h : body.length < 2 ^ 32) : PreparedMsg :=
  { msgType, padding := fun _ => 0, body, sig := [], body_length := h
    sig_length := noSignature_length }

/-- Every client has a key, and every signature is good. -/
abbrev openClients : ClientCrypto := ⟨fun _ => true, fun _ _ _ => true, fun _ _ _ => true⟩

attribute [local instance] plainParser openClients numberSignatures prefixSha

/-- A `REPAIR_TIMEOUT` with default values is checked, a request with the message of a client is
forwarded and processed, and a `CERT` with default values from the address of the replica is
processed. -/
theorem worker_loops_take_messages :
    GoesOn (verifyMessagesThd .oneFault (unsigned 12 [] (by decide))) ∧
      (∃ msg, forwardRequest (fun _ => 0) { clientReq := List.replicate 12 0 } = some msg ∧
        GoesOn (processMessagesThd msg)) ∧
      GoesOn (processMessagesThd (unsigned 7 [] (by decide))) := by
  obtain ⟨hverify, -, hforward, hown⟩ := worker_loops_go_on plainParser_roundTrips .oneFault
  refine ⟨(hverify _).mpr rfl, ⟨_, rfl, ?_⟩, (hown _ rfl).mpr ?_⟩
  · exact hforward (fun _ => 0) false ⟨{ clientReq := List.replicate 12 0 }, 0, 0, false⟩ _ rfl rfl
  · rintro _ ⟨⟩ -
    rfl

/-- **Two messages that end a loop**: a `REPAIR_TIMEOUT` that does not parse, and a `CERT` that does
not parse, from the address of the replica. -/
theorem unparsed_message_ends_loop :
    ¬GoesOn (verifyMessagesThd .oneFault (unsigned 12 [255] (by decide))) ∧
      handleMessage true (unsigned 7 [255] (by decide)) = .processQueue ∧
      ¬GoesOn (processMessagesThd (unsigned 7 [255] (by decide))) :=
  ⟨fun h => goesOn_ok.mp h rfl, rfl, fun h => goesOn_ok.mp h rfl⟩

end DomBft
