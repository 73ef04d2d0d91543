import DomBft.Basic
import DomBft.Lib.Fallible

/-!
Messages on the wire: a header, the serialized body and the signature, several of them in one
datagram.

* `MessageHeader`, `headerAt`: the header, and how it is read out of a byte string.
* `PreparedMsg`: a message as it lies in memory, whose header has the lengths of its body and its
  signature; `prepareProtoMsg` makes one.
* `sendBulk`: the send thread puts the messages that it takes out of its queue into datagrams.
* `splitLoop`: the loop of the receiving side over a datagram, which is the same in
  `NngEndpointThreaded` and `OOORPCEndpoint`.

A read outside a byte string is `Fault.undefined`.  What is sent is received as it is.
-/

namespace DomBft

/-! ### Headers -/

/-- `struct MessageHeader` -/
structure MessageHeader where
  msgType : UInt8
  msgLen : UInt32
  sigLen : UInt32
deriving DecidableEq, Repr

/-- `sizeof(MessageHeader)`: three bytes of padding follow the type. -/
def headerSize : ℕ := 12

/-- The length of a message with this header, as a `size_t`. -/
def MessageHeader.total (hdr : MessageHeader) : ℕ :=
  headerSize + hdr.msgLen.toNat + hdr.sigLen.toNat

/-- The byte at a place. -/
def byteAt (buf : Bytes) (i : ℕ) : UInt8 := buf[i]?.getD 0

/-- The `uint32_t` that starts at a place. -/
def u32At (buf : Bytes) (i : ℕ) : UInt32 :=
  .ofNat ((byteAt buf i).toNat + (byteAt buf (i + 1)).toNat * 2 ^ 8 +
    (byteAt buf (i + 2)).toNat * 2 ^ 16 + (byteAt buf (i + 3)).toNat * 2 ^ 24)

/-- `(MessageHeader *) (buf + offset)` -/
def headerAt (buf : Bytes) (offset : ℕ) : MessageHeader where
  msgType := byteAt buf offset
  msgLen := u32At buf (offset + 4)
  sigLen := u32At buf (offset + 8)

lemma byteAt_append {b b' : Bytes} {i : ℕ} (h : i < b.length) :
    byteAt (b ++ b') i = byteAt b i := by
  rw [byteAt, byteAt, List.getElem?_append_left h]

lemma byteAt_drop (b : Bytes) (offset i : ℕ) :
    byteAt (b.drop offset) i = byteAt b (offset + i) := by
  rw [byteAt, byteAt, List.getElem?_drop]

lemma u32At_append {b b' : Bytes} {i : ℕ} (h : i + 4 ≤ b.length) :
    u32At (b ++ b') i = u32At b i := by
  rw [u32At, u32At, byteAt_append (by omega), byteAt_append (by omega), byteAt_append (by omega),
    byteAt_append (by omega)]

lemma u32At_drop (b : Bytes) (offset i : ℕ) : u32At (b.drop offset) i = u32At b (offset + i) := by
  simp only [u32At, byteAt_drop, Nat.add_assoc]

/-- The four bytes of a number are read as the number. -/
lemma u32At_le32 (x : UInt32) (b : Bytes) : u32At (le32 x ++ b) 0 = x := by
  have hx := x.toNat_lt
  rw [← UInt32.toNat_inj]
  simp only [u32At, byteAt, le32, List.cons_append, Nat.zero_add, List.getElem?_cons_zero,
    List.getElem?_cons_succ, Option.getD_some, UInt32.toNat_ofNat', UInt8.toNat_ofNat']
  omega

/-- The header is read from the first bytes only. -/
lemma headerAt_append {b : Bytes} (b' : Bytes) (h : headerSize ≤ b.length) :
    headerAt (b ++ b') 0 = headerAt b 0 := by
  rw [headerSize] at h
  rw [headerAt, headerAt, byteAt_append (by omega), u32At_append (by omega),
    u32At_append (by omega)]

lemma headerAt_drop (b : Bytes) (offset : ℕ) : headerAt (b.drop offset) 0 = headerAt b offset := by
  simp only [headerAt, byteAt_drop, u32At_drop, Nat.zero_add, Nat.add_zero]

/-! ### Prepared messages -/

/-- A message as it lies in memory, with whatever bytes are in the padding. -/
structure PreparedMsg where
  msgType : UInt8
  padding : Fin 3 → UInt8
  body : Bytes
  sig : Bytes
  body_length : body.length < 2 ^ 32
  sig_length : sig.length < 2 ^ 32

namespace PreparedMsg

/-- `hdr->msgLen` -/
def msgLen (m : PreparedMsg) : UInt32 := .ofNat m.body.length

/-- `hdr->sigLen` -/
def sigLen (m : PreparedMsg) : UInt32 := .ofNat m.sig.length

/-- The bytes that are sent. -/
def bytes (m : PreparedMsg) : Bytes :=
  [m.msgType, m.padding 0, m.padding 1, m.padding 2] ++ le32 m.msgLen ++ le32 m.sigLen ++
    m.body ++ m.sig

end PreparedMsg

/-- `SEND_BUFFER_SIZE` -/
def sendBufferSize : ℕ := 200000000

lemma noSignature_length : ([] : Bytes).length < 2 ^ 32 := Nat.two_pow_pos 32

/-- `Endpoint::PrepareProtoMsg`, for a message that serializes to the body; what was in the buffer
before stays in the padding. -/
def prepareProtoMsg (padding : Fin 3 → UInt8) (body : Bytes) (hbody : body.length < 2 ^ 32)
    (msgType : UInt8) (bufSize : ℕ) : Option PreparedMsg :=
  if bufSize < body.length + headerSize then none
  else some
    { msgType, padding, body, sig := [], body_length := hbody, sig_length := noSignature_length }

namespace PreparedMsg

lemma length_bytes (m : PreparedMsg) :
    m.bytes.length = headerSize + m.body.length + m.sig.length := by
  simp only [bytes, headerSize, List.length_append, List.length_cons, List.length_nil, le32_length]

/-- The header that the receiver reads is the one that was prepared. -/
lemma headerAt_bytes (m : PreparedMsg) :
    headerAt m.bytes 0 = ⟨m.msgType, m.msgLen, m.sigLen⟩ := by
  have hmsgLen : u32At m.bytes 4 = m.msgLen := by
    rw [← u32At_drop m.bytes 4 0]
    exact u32At_le32 m.msgLen (le32 m.sigLen ++ m.body ++ m.sig)
  have hsigLen : u32At m.bytes 8 = m.sigLen := by
    rw [← u32At_drop m.bytes 8 0]
    exact u32At_le32 m.sigLen (m.body ++ m.sig)
  rw [headerAt, hmsgLen, hsigLen]
  rfl

/-- The header has the lengths of the message. -/
lemma total_headerAt (m : PreparedMsg) : (headerAt m.bytes 0).total = m.bytes.length := by
  rw [headerAt_bytes, length_bytes, MessageHeader.total, msgLen, sigLen,
    UInt32.toNat_ofNat_of_lt' m.body_length, UInt32.toNat_ofNat_of_lt' m.sig_length]

end PreparedMsg

/-! ### Sending -/

/-- `NNG_BUFFER_SIZE` -/
def nngBufferSize : ℕ := 200000000

/-- The loop of the send callback over the messages of a bulk, behind `curMsg`. -/
def sendLoop : Bytes → List Bytes → List Bytes
  | curMsg, [] => [curMsg]
  | curMsg, msg :: msgs =>
    if nngBufferSize < curMsg.length + msg.length then curMsg :: sendLoop msg msgs
    else sendLoop (curMsg ++ msg) msgs

/-- The datagrams of `NngSendThread` for a bulk of messages from its queue; a single message is
sent as it is. -/
def sendBulk : List Bytes → List Bytes
  | [] => []
  | msg :: msgs => sendLoop msg msgs

/-! ### Receiving -/

/-- `a - b` on `size_t`, which goes around below zero. -/
def sizeDiff (a b : ℕ) : ℕ := if b ≤ a then a - b else 2 ^ 64 - (b - a)

lemma sizeDiff_of_le {a b : ℕ} (h : b ≤ a) : sizeDiff a b = a - b := if_pos h

lemma sizeDiff_of_lt {a b : ℕ} (h : a < b) : sizeDiff a b = 2 ^ 64 - (b - a) := if_neg h.not_ge

/-- The loop of the receive callback over a datagram, from an offset on: the messages for which it
calls the handler.  Behind a message that is not complete it goes on, too. -/
def splitLoop (msg : Bytes) (offset : ℕ) : Except Fault (List Bytes) :=
  if headerSize < sizeDiff msg.length offset then
    if offset + headerSize ≤ msg.length then do
      let msgLen := (headerAt msg offset).total
      let rest ← splitLoop msg (offset + msgLen)
      pure (if offset + msgLen ≤ msg.length then (msg.drop offset).take msgLen :: rest else rest)
    else .error .undefined
  else .ok []
termination_by msg.length - offset
decreasing_by
  have htotal : headerSize ≤ (headerAt msg offset).total := by
    rw [MessageHeader.total]
    omega
  rw [headerSize] at *
  omega

/-- The callback of `NngEndpointThreaded::RegisterMsgHandler`, for a datagram. -/
def NngEndpointThreaded.splitMessages (msg : Bytes) : Except Fault (List Bytes) := splitLoop msg 0

/-- The callback of `OOORPCEndpoint::RegisterMsgHandler`, for a datagram. -/
def OOORPCEndpoint.splitMessages (msg : Bytes) : Except Fault (List Bytes) := splitLoop msg 0

/-- The loop of the callback over its queue. -/
def NngEndpointThreaded.receive (items : List Bytes) : Except Fault (List Bytes) := do
  let calls ← items.mapM NngEndpointThreaded.splitMessages
  pure calls.flatten

end DomBft
