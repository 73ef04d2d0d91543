import DomBft.OwdCalc
import DomBft.Receiver

/-!
`proxy.cc`: a proxy gives the requests of its clients deadlines and forwards them to all replicas,
one by one or in batches.

* `StampedRequest`, `ProxyMsg`: a `DOMRequest` with the fields that a proxy sets, and what is sent.
* `setDOMRequest`: the deadline of a request, above all deadlines before it.
* `processMeasurementReply`, `bufferRequest`, `forwardRequest`: the branches of the handler in
  `Proxy::Run`; `handle` is the handler.

The latency bound is multiplied with a `float`; the product is a parameter of the configuration.
A branch that reads the clock more than once takes each reading.
-/

namespace DomBft

/-- What a proxy reads of the configuration. -/
structure ProxyConfig where
  numReceivers : UInt32
  proxyMaxOwd : UInt32 := 100000
  /-- the product with `offsetCoefficient_`, as a `uint32_t` -/
  offset : UInt32 → UInt32
  proxyBatchEnabled : Bool := false
  proxyBatchMaxCount : ℕ := 50
  proxyBatchMaxDelay : ℕ := 5000

/-- `proto::DOMRequest` as a proxy sends it. -/
structure StampedRequest extends DOMRequest where
  sendTime : ℕ := 0
  proxyId : ℕ := 0
  deadlineSetSize : ℕ := 0
deriving DecidableEq, Repr, Inhabited

/-- What a proxy sends to the replicas. -/
inductive ProxyMsg where
  | domRequest (request : StampedRequest)
  | domBatchRequest (sendTime proxyId : ℕ) (requests : List StampedRequest)
deriving DecidableEq, Repr

/-- The requests in a message. -/
def ProxyMsg.requests : ProxyMsg → List StampedRequest
  | .domRequest request => [request]
  | .domBatchRequest _ _ requests => requests

/-- `proto::MeasurementReply` -/
structure MeasurementReply where
  receiverId : UInt32 := 0
  owd : ℤ := 0
  sendTime : ℕ := 0
deriving DecidableEq, Repr

/-- A difference of two `uint64_t`. -/
def diff64 (a b : ℕ) : ℕ := (a + 2 ^ 64 - b) % 2 ^ 64

/-- `class Proxy` -/
structure Proxy where
  proxyId : ℕ
  context : PercentileCtx
  latencyBound : UInt32
  lastDeadline : ℕ
  isFirstReq : Bool := true
  domReqBatchBuffer : List StampedRequest := []
  /-- what has been sent, oldest first, with the receiver -/
  sent : List (ℕ × ProxyMsg) := []
deriving DecidableEq, Repr

/-- What arrives at a proxy, with the readings of the clock. -/
inductive ProxyEvent where
  | measurementReply (now : ℕ) (reply : MeasurementReply)
  /-- a client's message with its header and signature -/
  | clientRequest (now checkTime sendTime : ℕ) (msg : Bytes)
deriving DecidableEq, Repr

namespace Proxy

/-- `Proxy::Proxy` at a time, and the start of `Proxy::Run`. -/
def create (cfg : ProxyConfig) (proxyId now : ℕ) : Proxy where
  proxyId
  context := .create cfg.numReceivers cfg.proxyMaxOwd 40 90 cfg.proxyMaxOwd
  latencyBound := cfg.proxyMaxOwd
  lastDeadline := now

/-- `SendPreparedMsgTo` for each of the receivers. -/
def sendToAll (cfg : ProxyConfig) (p : Proxy) (msg : ProxyMsg) : Proxy :=
  { p with sent := p.sent ++ (List.range cfg.numReceivers.toNat).map fun i => (i, msg) }

/-- The deadline of a request that arrives at a time. -/
def nextDeadline (p : Proxy) (now : ℕ) : ℕ :=
  max ((now + p.latencyBound.toNat) % 2 ^ 64) ((p.lastDeadline + 1) % 2 ^ 64)

/-- The request that `Proxy::setDOMRequest` fills in. -/
def stamp (cfg : ProxyConfig) (p : Proxy) (now : ℕ) (inReq : ClientRequestProto) (hdr : Bytes) :
    StampedRequest where
  clientId := inReq.clientId
  clientSeq := inReq.clientSeq
  deadline := p.nextDeadline now
  clientReq := hdr
  sendTime := now
  proxyId := p.proxyId
  deadlineSetSize := cfg.numReceivers.toNat

/-- `Proxy::setDOMRequest` -/
def setDOMRequest (cfg : ProxyConfig) (p : Proxy) (now : ℕ) (inReq : ClientRequestProto)
    (hdr : Bytes) : Proxy × StampedRequest :=
  ({ p with lastDeadline := p.nextDeadline now }, p.stamp cfg now inReq hdr)

/-! ### The handler -/

/-- The branch for `MEASUREMENT_REPLY`: a delay that is not positive is replaced by half of the
round trip. -/
def processMeasurementReply (cfg : ProxyConfig) (p : Proxy) (now : ℕ) (reply : MeasurementReply) :
    Except Fault Proxy := do
  let measure :=
    if 0 < reply.owd then UInt32.ofNat reply.owd.toNat
    else UInt32.ofNat (diff64 now reply.sendTime / 2)
  let context ← p.context.addMeasure reply.receiverId measure
  let bound ← context.cappedMaxOWD
  return { p with context, latencyBound := cfg.offset bound }

/-- The batch is sent, and the buffer is empty again. -/
def sendBatch (cfg : ProxyConfig) (p : Proxy) (sendTime : ℕ) : Proxy :=
  { p with domReqBatchBuffer := [] }.sendToAll cfg
    (.domBatchRequest sendTime p.proxyId p.domReqBatchBuffer)

/-- The buffer has reached its size, or its first request has waited long enough. -/
def batchFull (cfg : ProxyConfig) (p : Proxy) (checkTime : ℕ) : Bool :=
  cfg.proxyBatchMaxCount ≤ p.domReqBatchBuffer.length ∨
    p.domReqBatchBuffer.head?.any fun first =>
      cfg.proxyBatchMaxDelay ≤ diff64 checkTime first.sendTime

/-- The branch for a `CLIENT_REQUEST` with batching, from where it has been parsed. -/
def bufferRequest (cfg : ProxyConfig) (p : Proxy) (now checkTime sendTime : ℕ)
    (inReq : ClientRequestProto) (hdr : Bytes) : Proxy :=
  let (p, outReq) := p.setDOMRequest cfg now inReq hdr
  let p := { p with domReqBatchBuffer := p.domReqBatchBuffer ++ [outReq] }
  if p.batchFull cfg checkTime then p.sendBatch cfg sendTime else p

/-- The branch for a `CLIENT_REQUEST` without batching, and for the first one in any case. -/
def forwardRequest (cfg : ProxyConfig) (p : Proxy) (now : ℕ) (inReq : ClientRequestProto)
    (hdr : Bytes) : Proxy :=
  let (p, outReq) := p.setDOMRequest cfg now inReq hdr
  { p with isFirstReq := false }.sendToAll cfg (.domRequest outReq)

/-- The handler in `Proxy::Run`. -/
def handle [ClientMessage] (cfg : ProxyConfig) (p : Proxy) : ProxyEvent → Except Fault Proxy
  | .measurementReply now reply => p.processMeasurementReply cfg now reply
  | .clientRequest now checkTime sendTime msg =>
    match ClientMessage.parse msg with
    | none => .ok p
    | some inReq =>
      if !p.isFirstReq ∧ cfg.proxyBatchEnabled then
        .ok (p.bufferRequest cfg now checkTime sendTime inReq msg)
      else .ok (p.forwardRequest cfg now inReq msg)

end Proxy

end DomBft
