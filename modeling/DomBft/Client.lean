import DomBft.CertCollector
import DomBft.ClientRecord

/-!
`client.h`, `client.cc`: the client, from the submission of a request to its commitment.

A handler returns the next state and what the client does in it: the messages it sends, and
the requests it commits.  Times are arguments.  With message authentication codes in place of
signatures, `verify` stands for the check of the code.
-/

namespace DomBft

open Std (ExtTreeMap ExtTreeSet)

/-- `struct RequestState` -/
structure RequestState where
  collector : CertCollector := {}
  request : ClientRequestProto
  firstSendTime : ℕ
  sendTime : ℕ
  certTime : ℕ := 0
  certSent : Bool := false
  certReplies : ExtTreeSet ℕ compare := ∅
  quorumTime : ℕ := 0
  triggerRound : ℕ := 0
  triggerSent : Bool := false
  triggerSendTime : ℕ := 0
  repairReplies : ExtTreeSet ℕ compare := ∅

/-- What a client does: it sends a message to all replicas, or commits a request at a log
position. -/
inductive ClientAction where
  | sendRequest (m : ClientRequestProto)
  | sendCert (m : Cert)
  | sendProof (m : RepairReplyProof)
  | commitRequest (clientSeq : UInt32) (replicaSeq : ℕ)
deriving DecidableEq, Repr

/-- `class Client` -/
structure Client where
  clientId : UInt32
  nextSeq : UInt32 := 1
  requestStates : ExtTreeMap UInt32 RequestState compare := ∅

/-- The parameters of a client beside those of the deployment. -/
structure ClientConfig where
  config : Config
  /-- `sendMode_ == MaxInFlightBased` -/
  maxInFlightBased : Bool
  normalPathTimeout : ℕ
  requestTimeout : ℕ
  /-- the payloads that the traffic generator makes -/
  reqData : UInt32 → Bytes

namespace Client

variable (cfg : ClientConfig)

/-- `Client::submitRequest` -/
def submitRequest (now : ℕ) (c : Client) : Client × List ClientAction :=
  let request : ClientRequestProto :=
    { clientId := c.clientId, clientSeq := c.nextSeq, reqData := cfg.reqData c.nextSeq }
  ({ c with
    nextSeq := c.nextSeq + 1
    requestStates := c.requestStates.insertIfNew c.nextSeq
      { request, firstSendTime := now, sendTime := now } }, [.sendRequest request])

/-- `Client::commitRequest` -/
def commitRequest (now : ℕ) (clientSeq : UInt32) (replicaSeq : ℕ) (c : Client) :
    Client × List ClientAction :=
  let c := { c with requestStates := c.requestStates.erase clientSeq }
  let commit := ClientAction.commitRequest clientSeq replicaSeq
  if cfg.maxInFlightBased then
    let (c, actions) := c.submitRequest cfg now
    (c, commit :: actions)
  else (c, [commit])

/-- The proof that the replies of a round do not match. -/
def makeProof (collector : CertCollector) : RepairReplyProof :=
  let replies := collector.replies.toList.filter (·.2.round = collector.round)
  { round := collector.round
    replies := replies.map (·.2)
    signatures := replies.map fun (id, _) => (collector.signatures[id]?).getD [] }

/-- The certificate of `Client::handleReply`: sent once, where the fast path is out of
reach. -/
def tryCert (st : RequestState) : RequestState × List ClientAction :=
  match st.collector.cert with
  | none => (st, [])
  | some cert =>
    if !st.certSent ∧ st.collector.maxMatchSize < st.collector.numReceived ∧
        cfg.config.clientNormalPathEnabled then
      ({ st with certSent := true }, [.sendCert cert])
    else (st, [])

/-- The proof of `Client::handleReply`: sent where no certificate can be reached any more.
The difference of the two counts is that of two `uint32_t`. -/
def tryTrigger (now : ℕ) (reply : Reply) (st : RequestState) : RequestState × List ClientAction :=
  let missing := UInt32.ofNat st.collector.numReceived - UInt32.ofNat st.collector.maxMatchSize
  if cfg.config.clientSendProofs ∧ !st.triggerSent ∧ cfg.config.f < missing.toNat ∧
      st.collector.round = reply.round then
    ({ st with
      triggerSent := true
      triggerRound := st.collector.round
      triggerSendTime := now }, [.sendProof (makeProof st.collector)])
  else (st, [])

/-- `Client::handleReply` -/
def handleReply (now : ℕ) (reply : Reply) (sig : Bytes) (c : Client) :
    Client × List ClientAction :=
  match c.requestStates[reply.clientSeq]? with
  | none => (c, [])
  | some st =>
    let collector := st.collector.insertReply cfg.config reply sig
    let st := { st with
      quorumTime := if collector.numReceived = cfg.config.quorumSize then now else st.quorumTime
      certTime := if st.collector.cert.isNone ∧ collector.cert.isSome then now else st.certTime
      collector }
    if cfg.config.superQuorumSize ≤ collector.maxMatchSize then
      { c with requestStates := c.requestStates.insert reply.clientSeq st }.commitRequest cfg now
        reply.clientSeq reply.seq
    else
      let (st, certs) := tryCert cfg st
      let (st, proofs) := tryTrigger cfg now reply st
      ({ c with requestStates := c.requestStates.insert reply.clientSeq st }, certs ++ proofs)

/-- `Client::handleCertReply` -/
def handleCertReply (now : ℕ) (certReply : CertReply) (c : Client) :
    Except Fault (Client × List ClientAction) :=
  if !cfg.config.clientNormalPathEnabled then .error .assertion
  else match c.requestStates[certReply.clientSeq]? with
  | none => .ok (c, [])
  | some st =>
    let st := { st with certReplies := st.certReplies.insert certReply.replicaId }
    let c := { c with requestStates := c.requestStates.insert certReply.clientSeq st }
    if cfg.config.quorumSize ≤ st.certReplies.size then
      .ok (c.commitRequest cfg now certReply.clientSeq certReply.seq)
    else .ok (c, [])

/-- `Client::handleCommittedReply` -/
def handleCommittedReply (now : ℕ) (reply : CommittedReply) (c : Client) :
    Client × List ClientAction :=
  if reply.clientId ≠ c.clientId then (c, [])
  else match c.requestStates[reply.clientSeq]? with
  | none => (c, [])
  | some st =>
    let st := { st with repairReplies := st.repairReplies.insert reply.replicaId }
    let c := { c with requestStates := c.requestStates.insert reply.clientSeq st }
    if cfg.config.f + 1 ≤ st.repairReplies.size then
      c.commitRequest cfg now reply.clientSeq reply.seq
    else (c, [])

/-- `Client::handleRepairSummary`.  The replies it makes up for the committed sequence
numbers of the summary are not used. -/
def handleRepairSummary (now : ℕ) :
    List CommittedReply → Client → Client × List ClientAction
  | [], c => (c, [])
  | reply :: replies, c =>
    if reply.clientId ≠ c.clientId then handleRepairSummary now replies c
    else
      let (c, actions) := c.handleCommittedReply cfg now reply
      let (c, actions') := handleRepairSummary now replies c
      (c, actions ++ actions')

/-- One request in `Client::checkTimeouts`. -/
def checkTimeout (now : ℕ) (st : RequestState) : RequestState × List ClientAction :=
  match st.collector.cert with
  | some cert =>
    if !st.certSent ∧ cfg.normalPathTimeout < now - st.certTime ∧
        cfg.config.clientNormalPathEnabled then
      ({ st with certSent := true }, [.sendCert cert])
    else resend st
  | none => resend st
where
  /-- The request is sent again after its repair has timed out. -/
  resend (st : RequestState) : RequestState × List ClientAction :=
    if st.triggerSent ∧ cfg.requestTimeout < now - st.triggerSendTime then
      ({ st with sendTime := now, triggerSent := false }, [.sendRequest st.request])
    else (st, [])

/-- `Client::checkTimeouts` -/
def checkTimeouts (now : ℕ) (c : Client) : Client × List ClientAction :=
  ({ c with requestStates := c.requestStates.map fun _ st => (checkTimeout cfg now st).1 },
    c.requestStates.toList.flatMap fun (_, st) => (checkTimeout cfg now st).2)

variable [SignatureProvider]

/-- Whether `Client::handleMessage` hands a message to its handler: it is one for a client,
and signed by the replica it names. -/
def accepts (c : Client) (msg : Msg) (sig : Bytes) : Bool :=
  let signedBy (replicaId : ℕ) : Bool := SignatureProvider.verify replicaId msg.body sig
  match msg with
  | .reply m => m.clientId = c.clientId && signedBy m.replicaId
  | .certReply m => m.clientId = c.clientId && signedBy m.replicaId
  | .committedReply m => signedBy m.replicaId
  | .repairSummary m => signedBy m.replicaId
  | _ => false

/-- `Client::handleMessage` -/
def handleMessage (now : ℕ) (msg : Msg) (sig : Bytes) (c : Client) :
    Except Fault (Client × List ClientAction) :=
  if !c.accepts msg sig then .ok (c, [])
  else match msg with
  | .reply m => .ok (c.handleReply cfg now m sig)
  | .certReply m => c.handleCertReply cfg now m
  | .committedReply m => .ok (c.handleCommittedReply cfg now m)
  | .repairSummary m => .ok (handleRepairSummary cfg now m.replies c)
  | _ => .ok (c, [])

end Client

end DomBft
