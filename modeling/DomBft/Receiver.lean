import DomBft.Messages

/-!
The receiver of the replica: requests with a deadline wait in a queue that is ordered by
deadline and client, until their deadline has passed and their signature has been checked.

* `Receiver`: the shared request objects, the deadline queue, and the two queues to the
  verify threads and to the thread that processes messages.
* `enqueueReceiverRequest`, `receiveBatchedRequests`, `receiverVerify`, `checkDeadlines`: the
  steps, each atomic under the lock of the deadline queue.

The timer of the next check, the measurement replies and the counters are left out.
-/

namespace DomBft

open Std (ExtTreeMap)

/-- `std::pair<uint64_t, uint32_t>` -/
abbrev DeadlineKey : Type := ℕ × UInt32

/-- The order of `std::pair<uint64_t, uint32_t>`. -/
abbrev DeadlineKey.cmp : DeadlineKey → DeadlineKey → Ordering :=
  (lexOrd : Ord DeadlineKey).compare

/-- `proto::DOMRequest` -/
structure DOMRequest where
  clientId : UInt32 := 0
  clientSeq : UInt32 := 0
  deadline : ℕ := 0
  late : Bool := false
  /-- the message of the client, with its header and signature -/
  clientReq : Bytes := []
deriving DecidableEq, Repr, Inhabited

/-- A request that arrives behind its deadline is marked as late. -/
def DOMRequest.arrive (request : DOMRequest) (recvTime : ℕ) : DOMRequest :=
  if request.deadline < recvTime then { request with late := true } else request

/-- The message of a client inside a `DOMRequest`: the parser that `protoc` generates, and
the check of its signature or MAC for a client. -/
class ClientMessage where
  parse : Bytes → Option ClientRequestProto
  verify : UInt32 → Bytes → Bool

/-- `struct ReceiverRequest` -/
structure ReceiverRequest where
  request : DOMRequest
  deadline : ℕ
  clientId : UInt32
  verified : Bool := false
deriving DecidableEq, Repr, Inhabited

/-- The part of `Replica` that receives requests.  A `std::shared_ptr<ReceiverRequest>` is
the number of its request in the order of arrival. -/
structure Receiver where
  requests : List ReceiverRequest := []
  deadlineQueue : ExtTreeMap DeadlineKey ℕ DeadlineKey.cmp := ∅
  /-- dequeued by any of the verify threads, which finish in any order -/
  receiverVerifyQueue : List ℕ := []
  /-- the requests forwarded to `processQueue_`, oldest first -/
  processQueue : List ℕ := []

namespace Receiver

/-- The key of a request that arrives at a time. -/
def queueKey (ignoreDeadlines : Bool) (recvTime : ℕ) (request : DOMRequest) : DeadlineKey :=
  (if ignoreDeadlines then recvTime else request.deadline, request.clientId)

/-- `enqueueReceiverRequest`: an entry under the same key is replaced. -/
def enqueueReceiverRequest (ignoreDeadlines : Bool) (recvTime : ℕ) (s : Receiver)
    (request : DOMRequest) : Receiver :=
  let r := s.requests.length
  let request := request.arrive recvTime
  { s with
    requests := s.requests ++
      [{ request, deadline := request.deadline, clientId := request.clientId }]
    deadlineQueue := s.deadlineQueue.insert (queueKey ignoreDeadlines recvTime request) r
    receiverVerifyQueue := s.receiverVerifyQueue ++ [r] }

/-- `receiveBatchedRequests`, and `receiveRequest` as a batch of one. -/
def receiveBatchedRequests (ignoreDeadlines : Bool) (recvTime : ℕ) (s : Receiver)
    (requests : List DOMRequest) : Receiver :=
  requests.foldl (enqueueReceiverRequest ignoreDeadlines recvTime) s

/-- The body of the loop of `receiverVerifyThd` for a request: a failed check erases the
entry under the deadline and the client of the request. -/
def receiverVerify [ClientMessage] (s : Receiver) (r : ℕ) : Receiver :=
  let s := { s with receiverVerifyQueue := s.receiverVerifyQueue.erase r }
  match s.requests[r]? with
  | none => s
  | some request =>
    if (ClientMessage.parse request.request.clientReq).isNone then s
    else if ClientMessage.verify request.clientId request.request.clientReq then
      { s with requests := s.requests.modify r fun request => { request with verified := true } }
    else
      { s with deadlineQueue := s.deadlineQueue.erase (request.deadline, request.clientId) }

/-- The entries that `checkDeadlines` forwards: from the front of the queue up to the first
one whose deadline lies ahead or that has not been verified. -/
def due (s : Receiver) (now : ℕ) : List (DeadlineKey × ℕ) :=
  s.deadlineQueue.toList.takeWhile fun (key, r) =>
    decide (key.1 ≤ now) && (s.requests[r]?).any (·.verified)

/-- `checkDeadlines` -/
def checkDeadlines (s : Receiver) (now : ℕ) : Receiver :=
  { s with
    deadlineQueue := (s.due now).foldl (fun m e => m.erase e.1) s.deadlineQueue
    processQueue := s.processQueue ++ (s.due now).map (·.2) }

end Receiver

end DomBft
