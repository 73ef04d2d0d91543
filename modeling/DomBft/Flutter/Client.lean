import DomBft.Flutter

/-!
`flutter_client.h`, `flutter_client.cc`: a client of Flutter, which bets on the time at which its
request commits and bets again where `f + 1` replicas have rejected it.

* `FlutterClientConfig`, `FlutterRequestState`, `FlutterClient`: the data of a client.
* `submitRequest`, `sendRequest`, `commitRequest`, `processFlutterReply`,
  `submitRequestsOpenLoop`: the functions, under the names they have in the source.
* `create`, `handle`: the constructor, and what happens at a client.

The rate of sending is computed with `double`s; the results are parameters of the configuration.
A loop takes the readings of the clock in its turns.  The time of submission, which is only logged,
and the signatures are left out.
-/

namespace DomBft

open Std (ExtTreeMap)

/-- `ClientSendMode` -/
inductive ClientSendMode where
  | rateBased
  | maxInFlightBased
deriving DecidableEq, Repr

/-- What a client reads of the configuration and its flags. -/
structure FlutterClientConfig where
  clientId : ℕ
  baseBetOffset : ℕ := 100000
  betIncrement : ℕ := 100000
  f : ℕ
  sendMode : ClientSendMode
  maxInFlight : ℕ
  requestSize : ℕ
  /-- `numToSend`, for the time and `lastSendTime_` -/
  numToSend : ℕ → ℕ → ℕ
  /-- `lastSendTime_` behind the sending of so many requests -/
  nextSendTime : ℕ → ℕ → ℕ

/-- `struct FlutterRequestState` -/
structure FlutterRequestState where
  request : FlutterClientRequest
  clientSeq : ℕ
  bet : ℕ
  numRetries : ℕ := 0
  acceptVotes : ℕ := 0
  rejectVotes : ℕ := 0
  votedReplicas : Finset ℕ := ∅
deriving DecidableEq

/-- A vote is recorded. -/
def FlutterRequestState.recordVote (state : FlutterRequestState)
    (reply : FlutterReply) : FlutterRequestState :=
  { state with
    votedReplicas := insert reply.replicaId state.votedReplicas
    acceptVotes := if reply.accepted then state.acceptVotes + 1 else state.acceptVotes
    rejectVotes := if reply.accepted then state.rejectVotes else state.rejectVotes + 1 }

/-- `class FlutterClient` -/
structure FlutterClient where
  pendingRequests : ExtTreeMap ℕ FlutterRequestState compare := ∅
  nextSeq : ℕ := 1
  numInFlight : ℕ := 0
  lastSendTime : ℕ := 0
  firstRequestCommitted : Bool := false
  /-- what has been sent to all replicas, oldest first, with the time -/
  sent : List (ℕ × FlutterClientRequest) := []
  /-- the commits that have been logged, oldest first -/
  committed : List ℕ := []

namespace FlutterClient

variable (cfg : FlutterClientConfig)

/-- The state of a request is written back. -/
def setState (c : FlutterClient) (seq : ℕ) (state : FlutterRequestState) : FlutterClient :=
  { c with pendingRequests := c.pendingRequests.insert seq state }

/-- The bet of `sendRequest`, a `uint64_t`. -/
def nextBet (now numRetries : ℕ) : ℕ :=
  (now + cfg.baseBetOffset + numRetries * cfg.betIncrement) % 2 ^ 64

/-- `FlutterClient::sendRequest`, for the state under a number. -/
def sendRequest (now : ℕ) (c : FlutterClient) (seq : ℕ) (state : FlutterRequestState) :
    FlutterClient :=
  let bet := nextBet cfg now state.numRetries
  let request := { state.request with bet, numRetries := state.numRetries }
  { c.setState seq { state with bet, request } with sent := c.sent ++ [(now, request)] }

/-- `FlutterClient::submitRequest` -/
def submitRequest (now : ℕ) (data : Bytes) (c : FlutterClient) : FlutterClient :=
  let request : FlutterClientRequest :=
    { clientId := cfg.clientId, clientSeq := c.nextSeq, bet := 0, reqData := data }
  let state : FlutterRequestState :=
    { request, clientSeq := c.nextSeq, bet := (now + cfg.baseBetOffset) % 2 ^ 64 }
  { c.sendRequest cfg now c.nextSeq state with
    nextSeq := (c.nextSeq + 1) % 2 ^ 32
    numInFlight := (c.numInFlight + 1) % 2 ^ 32 }

/-- `std::string(requestSize_, 'x')` -/
def requestData : Bytes := List.replicate cfg.requestSize 120

/-- `"request_data"` -/
def nextRequestData : Bytes := "request_data".toList.map fun c => UInt8.ofNat c.toNat

/-- The turns of the loop in `submitRequestsOpenLoop`, which stops at the window. -/
def submitLoop (times : ℕ → ℕ) : ℕ → FlutterClient → FlutterClient
  | 0, c => c
  | turns + 1, c =>
    if cfg.maxInFlight ≤ c.numInFlight then c
    else submitLoop (fun i => times (i + 1)) turns (c.submitRequest cfg (times 0) (requestData cfg))

/-- `FlutterClient::submitRequestsOpenLoop` -/
def submitRequestsOpenLoop (startSendTime : ℕ) (times : ℕ → ℕ) (c : FlutterClient) :
    FlutterClient :=
  if !c.firstRequestCommitted then c
  else
    let numToSend := cfg.numToSend startSendTime c.lastSendTime
    if numToSend = 0 then c
    else submitLoop cfg times numToSend
      { c with lastSendTime := cfg.nextSendTime c.lastSendTime numToSend }

/-- A request is taken out of the pending ones; the first one starts the sending at a rate. -/
def finish (now : ℕ) (clientSeq : ℕ) (c : FlutterClient) : FlutterClient :=
  { c with
    pendingRequests := c.pendingRequests.erase clientSeq
    numInFlight := (c.numInFlight + 2 ^ 32 - 1) % 2 ^ 32
    lastSendTime :=
      if !c.firstRequestCommitted ∧ cfg.sendMode = .rateBased then now else c.lastSendTime
    firstRequestCommitted := true
    committed := c.committed ++ [clientSeq] }

/-- `FlutterClient::commitRequest` -/
def commitRequest (now : ℕ) (clientSeq : ℕ) (c : FlutterClient) : FlutterClient :=
  if clientSeq ∈ c.pendingRequests then
    let c := c.finish cfg now clientSeq
    if cfg.sendMode = .maxInFlightBased then c.submitRequest cfg now nextRequestData else c
  else c

/-- `FlutterClient::processFlutterReply` -/
def processFlutterReply (now : ℕ) (reply : FlutterReply) (c : FlutterClient) : FlutterClient :=
  match c.pendingRequests[reply.clientSeq]? with
  | none => c
  | some state =>
    if reply.replicaId ∈ state.votedReplicas then c
    else if reply.bet < state.bet then c
    else
      let state := state.recordVote reply
      if reply.accepted then
        let c := c.setState reply.clientSeq state
        if cfg.f + 1 ≤ state.acceptVotes then c.commitRequest cfg now reply.clientSeq else c
      else if cfg.f + 1 ≤ state.rejectVotes then
        c.sendRequest cfg now reply.clientSeq { state with
          acceptVotes := 0, rejectVotes := 0, votedReplicas := ∅
          numRetries := state.numRetries + 1 }
      else c.setState reply.clientSeq state

/-- The constructor, with what it sends. -/
def create (times : ℕ → ℕ) : FlutterClient :=
  match cfg.sendMode with
  | .rateBased => submitRequest cfg (times 0) (requestData cfg) {}
  | .maxInFlightBased =>
    (List.range cfg.maxInFlight).foldl
      (fun c i => c.submitRequest cfg (times i) (requestData cfg)) {}

end FlutterClient

/-- What happens at a client, with the readings of the clock. -/
inductive FlutterClientEvent where
  /-- a message arrives, which may be a reply -/
  | message (now : ℕ) (reply : Option FlutterReply) (startSendTime : ℕ) (times : ℕ → ℕ)
  | sendTimer (startSendTime : ℕ) (times : ℕ → ℕ)

/-- The handler of messages, and the timer. -/
def FlutterClient.handle (cfg : FlutterClientConfig) (c : FlutterClient) :
    FlutterClientEvent → FlutterClient
  | .message now reply startSendTime times =>
    let c := match reply with
      | none => c
      | some reply => c.processFlutterReply cfg now reply
    if cfg.sendMode = .rateBased then c.submitRequestsOpenLoop cfg startSendTime times else c
  | .sendTimer startSendTime times =>
    if cfg.sendMode = .rateBased then c.submitRequestsOpenLoop cfg startSendTime times else c

end DomBft
