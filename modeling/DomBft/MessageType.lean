import DomBft.Receiver
import DomBft.Transport

/-!
The types of messages that a replica takes, and what is inside each.

* `MessageType`, `ofByte`: the values of the enumeration, and the type that a header names.
* `MessageType.Proto`: the protobuf message inside one of a type.
* `MessageParser`: the parsers that `protoc` generates, as a parameter; `RoundTrips` is what the
  replica relies on where it parses what it has serialized itself.
* `plainParser`: a concrete parameter.
-/

namespace DomBft

/-- `enum MessageType`, without the types that a replica drops. -/
inductive MessageType where
  | clientRequest | domRequest | domBatchRequest
  | reply | cert | commit
  | repairTimeout | repairReplyProof | repairTimeoutProof | repairStart
  | pbftPrePrepare | pbftPrepare | pbftCommit | viewUpdate
  | snapshotRequest | snapshotReply | missingRequestFetch | missingRequestReply
  | psClient | psLeaderForward | psLeaderOrder
deriving DecidableEq, Repr

/-- The type with a value. -/
def MessageType.ofByte (b : UInt8) : Option MessageType :=
  match b.toNat with
  | 1 => some .clientRequest
  | 2 => some .domRequest
  | 3 => some .domBatchRequest
  | 6 => some .reply
  | 7 => some .cert
  | 10 => some .commit
  | 12 => some .repairTimeout
  | 13 => some .repairReplyProof
  | 14 => some .repairTimeoutProof
  | 15 => some .repairStart
  | 19 => some .pbftPrePrepare
  | 20 => some .pbftPrepare
  | 21 => some .pbftCommit
  | 22 => some .viewUpdate
  | 24 => some .snapshotRequest
  | 25 => some .snapshotReply
  | 28 => some .missingRequestFetch
  | 29 => some .missingRequestReply
  | 30 => some .psClient
  | 31 => some .psLeaderForward
  | 32 => some .psLeaderOrder
  | _ => none

/-- `proto::PSLeaderForward` -/
structure PSLeaderForward where
  seq : ℕ := 0
  request : ClientRequestProto := {}
  clientSignature : Bytes := []
deriving DecidableEq, Repr, Inhabited

/-- `proto::PSLeaderOrder` -/
structure PSLeaderOrder where
  clientId : UInt32 := 0
  clientSeq : UInt32 := 0
  seq : ℕ := 0
deriving DecidableEq, Repr, Inhabited

/-- The protobuf message inside one of a type. -/
def MessageType.Proto : MessageType → Type
  | .clientRequest | .psClient => ClientRequestProto
  | .domRequest => DOMRequest
  | .domBatchRequest => List DOMRequest
  | .reply => Reply
  | .cert => Cert
  | .commit => Commit
  | .repairTimeout => RepairTimeout
  | .repairReplyProof => RepairReplyProof
  | .repairTimeoutProof => RepairTimeoutProof
  | .repairStart => RepairStart
  | .pbftPrePrepare => PBFTPrePrepare
  | .pbftPrepare => PBFTPrepare
  | .pbftCommit => PBFTCommit
  | .viewUpdate => ViewUpdate
  | .snapshotRequest => SnapshotRequest
  | .snapshotReply => SnapshotReply
  | .missingRequestFetch => MissingRequestFetch
  | .missingRequestReply => MissingRequestReply
  | .psLeaderForward => PSLeaderForward
  | .psLeaderOrder => PSLeaderOrder

/-- `ParseFromArray` of each of the messages, and `SerializeToString` of a `DOMRequest`. -/
class MessageParser where
  parse (t : MessageType) : Bytes → Option t.Proto
  serialize : DOMRequest → Bytes

/-- `ClientRequest::ParseFromArray` -/
def parseClientRequest [MessageParser] (b : Bytes) : Option ClientRequestProto :=
  MessageParser.parse .clientRequest b

/-- A `DOMRequest` that has been serialized is parsed as what it was. -/
structure RoundTrips [MessageParser] : Prop where
  parse_serialize : ∀ request : DOMRequest,
    MessageParser.parse .domRequest (MessageParser.serialize request) = some request

/-! ### A concrete parameter -/

/-- The fields one after the other, with as many ones as the deadline says. -/
def plainDomRequest (request : DOMRequest) : Bytes :=
  le32 request.clientId ++ (le32 request.clientSeq ++ (List.replicate request.deadline 1 ++
    0 :: (if request.late then 1 else 0) :: request.clientReq))

/-- The fields, read back. -/
def parsePlainDomRequest (b : Bytes) : DOMRequest :=
  let rest := b.drop 8
  let deadline := (rest.takeWhile (· == 1)).length
  let tail := rest.drop (deadline + 1)
  { clientId := u32At b 0, clientSeq := u32At b 4, deadline
    late := byteAt tail 0 == 1
    clientReq := tail.drop 1 }

lemma parse_plainDomRequest (request : DOMRequest) :
    parsePlainDomRequest (plainDomRequest request) = request := by
  obtain ⟨clientId, clientSeq, deadline, late, clientReq⟩ := request
  set tail : Bytes := (if late then 1 else 0) :: clientReq with htail
  have hbytes : plainDomRequest ⟨clientId, clientSeq, deadline, late, clientReq⟩ =
      le32 clientId ++ (le32 clientSeq ++ (List.replicate deadline 1 ++ 0 :: tail)) := rfl
  have hseq : u32At (le32 clientId ++ (le32 clientSeq ++ (List.replicate deadline 1 ++
      0 :: tail))) 4 = clientSeq := by
    rw [← u32At_drop _ 4 0]
    exact u32At_le32 _ _
  have hones : ((List.replicate deadline 1 ++ 0 :: tail).takeWhile (· == 1)).length =
      deadline := by
    rw [List.takeWhile_append_of_pos (by simp)]
    simp
  have hrest : (le32 clientId ++ (le32 clientSeq ++ (List.replicate deadline 1 ++
      0 :: tail))).drop 8 = List.replicate deadline 1 ++ 0 :: tail := rfl
  have hdrop : (List.replicate deadline (1 : UInt8) ++ 0 :: tail).drop (deadline + 1) = tail := by
    rw [← List.drop_drop, List.drop_left' (List.length_replicate ..)]
    rfl
  rw [hbytes, parsePlainDomRequest, u32At_le32, hseq, hrest, hones, hdrop, htail]
  cases late <;> rfl

instance (t : MessageType) : Inhabited t.Proto := by
  cases t <;> unfold MessageType.Proto <;> infer_instance

/-- Every message but a request is taken to have its default values; a tag that does not end is not
parsed. -/
abbrev plainParser : MessageParser where
  parse t b :=
    if b = [255] then none
    else match t with
      | .domRequest => some (parsePlainDomRequest b)
      | _ => some default
  serialize := plainDomRequest

lemma plainParser_roundTrips : @RoundTrips plainParser := by
  refine @RoundTrips.mk plainParser fun request => ?_
  have hne : plainDomRequest request ≠ [255] := fun heq => by
    have hlength := congrArg List.length heq
    simp only [plainDomRequest, List.length_append, le32_length, List.length_cons,
      List.length_nil] at hlength
    omega
  show (if plainDomRequest request = [255] then none
    else some (parsePlainDomRequest (plainDomRequest request))) = some request
  rw [if_neg hne, parse_plainDomRequest]

end DomBft
