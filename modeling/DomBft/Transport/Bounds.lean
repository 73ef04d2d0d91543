import DomBft.MessageType
import DomBft.Transport.Framing

/-!
Reads of bytes that anybody can send.

* `Divides`: a datagram is complete messages and at most a header behind them.
  `splitLoop_ok_iff`: the loops of the endpoints stay inside such a datagram only.
* `receiverVerifyMsg`, `processDomRequest`: what two threads of a replica read of the message of a
  client that lies inside a `DOMRequest`.
* `HoldsMessage`, `HoldsSignature`: the message and its signature lie in the bytes.
* `reads_inside`: **when nothing outside is read.**
-/

namespace DomBft

open Fallible

/-! ### Datagrams -/

/-- Complete messages, and behind them no more than a header. -/
def Divides (msg : Bytes) : Prop :=
  ∃ (ms : List Bytes) (tail : Bytes), msg = ms.flatten ++ tail ∧ (∀ m ∈ ms, WellFramed m) ∧ tail.length ≤ headerSize

/-- What the loop does where it ends without a fault. -/
lemma splitLoop_cases {msg : Bytes} {offset : ℕ} {calls : List Bytes} (hle : offset ≤ msg.length)
    (h : splitLoop msg offset = .ok calls) :
    msg.length ≤ offset + headerSize ∨ ∃ m rest calls', msg.drop offset = m ++ rest ∧
      WellFramed m ∧ splitLoop msg (offset + m.length) = .ok calls' := by
  by_cases hshort : msg.length ≤ offset + headerSize
  · exact .inl hshort
  refine .inr ?_
  rw [splitLoop, sizeDiff_of_le hle, if_pos (by omega), if_pos (by omega)] at h
  obtain ⟨calls', hrest, -⟩ := bind_eq_ok.mp h
  have htotal : headerSize ≤ (headerAt msg offset).total := by
    rw [MessageHeader.total]
    omega
  have hsmall : (headerAt msg offset).total < headerSize + 2 ^ 33 := by
    have hmsgLen := (headerAt msg offset).msgLen.toNat_lt
    have hsigLen := (headerAt msg offset).sigLen.toNat_lt
    rw [MessageHeader.total]
    omega
  by_cases hpast : msg.length < offset + (headerAt msg offset).total
  · rw [splitLoop_past hpast (by rw [headerSize] at *; omega)] at hrest
    cases hrest
  have hlength : ((msg.drop offset).take (headerAt msg offset).total).length =
      (headerAt msg offset).total := by
    rw [List.length_take, List.length_drop]
    omega
  have hsplit := List.take_append_drop (headerAt msg offset).total (msg.drop offset)
  have hheader := headerAt_append (b := (msg.drop offset).take (headerAt msg offset).total)
    ((msg.drop offset).drop (headerAt msg offset).total) (by omega)
  rw [hsplit, headerAt_drop] at hheader
  refine ⟨_, _, calls', hsplit.symm, ⟨by omega, ?_⟩, by rwa [hlength]⟩
  rw [← hheader, hlength]

/-- **When the loop stays inside a datagram.** -/
lemma splitLoop_ok_iff {msg : Bytes} {offset : ℕ} (hle : offset ≤ msg.length) :
    (∃ calls, splitLoop msg offset = .ok calls) ↔ Divides (msg.drop offset) := by
  constructor
  · rintro ⟨calls, h⟩
    -- by induction on what is left of the datagram, which every message makes shorter
    induction hn : msg.length - offset using Nat.strong_induction_on generalizing offset calls with
    | _ n ih =>
      rcases splitLoop_cases hle h with hshort | ⟨m, rest, calls', hmsg, hm, hrest⟩
      · refine ⟨[], msg.drop offset, rfl, List.forall_mem_nil _, ?_⟩
        rw [List.length_drop]
        omega
      · have hlength : msg.length - offset = m.length + rest.length := by
          rw [← List.length_drop, hmsg, List.length_append]
        have hroom := hm.1
        rw [headerSize] at hroom
        subst hn
        obtain ⟨ms, tail, htail, hms, hshort⟩ := ih _ (by omega) (by omega) calls' hrest rfl
        rw [← List.drop_drop, hmsg, List.drop_left] at htail
        refine ⟨m :: ms, tail, ?_, List.forall_mem_cons.mpr ⟨hm, hms⟩, hshort⟩
        rw [hmsg, htail, List.flatten_cons, List.append_assoc]
  · rintro ⟨ms, tail, hmsg, hms, hshort⟩
    induction ms generalizing offset with
    | nil =>
        have hlength : msg.length - offset = tail.length := by
          rw [← List.length_drop, hmsg, List.flatten_nil, List.nil_append]
        exact ⟨[], splitLoop_done hle (by omega)⟩
    | cons m ms ih =>
        rw [List.flatten_cons, List.append_assoc] at hmsg
        obtain ⟨hm, hms⟩ := List.forall_mem_cons.mp hms
        have hlength : msg.length - offset = m.length + (ms.flatten ++ tail).length := by
          rw [← List.length_drop, hmsg, List.length_append]
        by_cases hmore : headerSize < m.length + (ms.flatten ++ tail).length
        · have hrest : msg.drop (offset + m.length) = ms.flatten ++ tail := by
            rw [← List.drop_drop, hmsg, List.drop_left]
          obtain ⟨calls, hcalls⟩ := ih (by omega) hrest hms
          exact ⟨m :: calls, by rw [splitLoop_message hmsg hm hmore, hcalls]; rfl⟩
        · exact ⟨[], splitLoop_done hle (by omega)⟩

/-! ### The message of a client -/

/-- The checks of a signature and of a MAC for a client, by the libraries; `hasKey` is whether there
is a public key of the client. -/
class ClientCrypto where
  hasKey : UInt32 → Bool
  verifySignature : UInt32 → Bytes → Bytes → Bool
  verifyMAC : UInt32 → Bytes → Bytes → Bool

/-- `HMAC<SHA256>::DIGESTSIZE` -/
def hmacDigestSize : ℕ := 32

/-- The header at the start of a byte string. -/
def readHeader (buf : Bytes) : Except Fault MessageHeader :=
  if headerSize ≤ buf.length then .ok (headerAt buf 0) else .error .undefined

/-- The bytes that are handed on as a pointer and a length. -/
def readSpan (buf : Bytes) (start len : ℕ) : Except Fault Bytes :=
  if start + len ≤ buf.length then .ok ((buf.drop start).take len) else .error .undefined

/-- What `receiverVerifyThd` finds out on a request: nothing if it does not parse, otherwise whether
it is verified.  The check of a MAC reads as many bytes as a MAC has, whatever `sigLen` says. -/
def receiverVerifyMsg [MessageParser] [ClientCrypto] (useHMAC : Bool) (request : ReceiverRequest) :
    Except Fault (Option Bool) := do
  let clientReq := request.request.clientReq
  let hdr ← readHeader clientReq
  let body ← readSpan clientReq headerSize hdr.msgLen.toNat
  if (parseClientRequest body).isNone then pure none
  else if useHMAC then do
    let sig ← readSpan clientReq (headerSize + hdr.msgLen.toNat) hmacDigestSize
    pure (some (ClientCrypto.verifyMAC request.clientId body sig))
  else if ClientCrypto.hasKey request.clientId then do
    let sig ← readSpan clientReq (headerSize + hdr.msgLen.toNat) hdr.sigLen.toNat
    pure (some (ClientCrypto.verifySignature request.clientId body sig))
  else pure (some false)

/-- The request that `processMessagesThd` finds in a `DOMRequest`. -/
def processDomRequest [MessageParser] (domHeader : DOMRequest) :
    Except Fault (Option ClientRequestProto) := do
  let hdr ← readHeader domHeader.clientReq
  let body ← readSpan domHeader.clientReq headerSize hdr.msgLen.toNat
  pure ((parseClientRequest body).map fun clientHeader =>
    { clientHeader with deadline := domHeader.deadline })

section

variable [MessageParser] [ClientCrypto]

/-- The bytes hold a header and a body of its length. -/
def HoldsMessage (clientReq : Bytes) : Prop :=
  headerSize ≤ clientReq.length ∧
    headerSize + (headerAt clientReq 0).msgLen.toNat ≤ clientReq.length

/-- If the body parses and the check gets as far as that, the bytes hold the signature or the MAC
behind it. -/
def HoldsSignature (useHMAC : Bool) (clientId : UInt32) (clientReq : Bytes) : Prop :=
  (parseClientRequest
    ((clientReq.drop headerSize).take (headerAt clientReq 0).msgLen.toNat)).isSome →
  if useHMAC then
    headerSize + (headerAt clientReq 0).msgLen.toNat + hmacDigestSize ≤ clientReq.length
  else ClientCrypto.hasKey clientId = true → (headerAt clientReq 0).total ≤ clientReq.length

omit [MessageParser] [ClientCrypto] in
lemma readHeader_ok_iff {α : Type} {buf : Bytes} {f : MessageHeader → Except Fault α} :
    (∃ v, readHeader buf >>= f = .ok v) ↔
      headerSize ≤ buf.length ∧ ∃ v, f (headerAt buf 0) = .ok v := by
  rw [readHeader]
  split_ifs with h
  · exact (and_iff_right h).symm
  · exact iff_of_false nofun fun hand => h hand.1

omit [MessageParser] [ClientCrypto] in
lemma readSpan_ok_iff {α : Type} {buf : Bytes} {start len : ℕ} {f : Bytes → Except Fault α} :
    (∃ v, readSpan buf start len >>= f = .ok v) ↔
      start + len ≤ buf.length ∧ ∃ v, f ((buf.drop start).take len) = .ok v := by
  rw [readSpan]
  split_ifs with h
  · exact (and_iff_right h).symm
  · exact iff_of_false nofun fun hand => h hand.1

lemma receiverVerifyMsg_ok_iff (useHMAC : Bool) (request : ReceiverRequest) :
    (∃ v, receiverVerifyMsg useHMAC request = .ok v) ↔
      HoldsMessage request.request.clientReq ∧
        HoldsSignature useHMAC request.clientId request.request.clientReq := by
  rw [receiverVerifyMsg, HoldsMessage, HoldsSignature, and_assoc, readHeader_ok_iff,
    readSpan_ok_iff]
  refine and_congr_right fun _ => and_congr_right fun _ => ?_
  cases parseClientRequest ((request.request.clientReq.drop headerSize).take
      (headerAt request.request.clientReq 0).msgLen.toNat) with
  | none => simp [pure, Except.pure]
  | some clientHeader =>
      cases useHMAC with
      | true =>
          simp only [Option.isNone_some, Bool.false_eq_true, if_false, if_true, readSpan_ok_iff]
          simp [pure, Except.pure]
      | false =>
          cases hkey : ClientCrypto.hasKey request.clientId with
          | false => simp [pure, Except.pure]
          | true =>
              simp only [Option.isNone_some, Bool.false_eq_true, if_false, if_true, readSpan_ok_iff]
              simp [pure, Except.pure, MessageHeader.total]

omit [ClientCrypto] in
lemma processDomRequest_ok_iff (domHeader : DOMRequest) :
    (∃ v, processDomRequest domHeader = .ok v) ↔ HoldsMessage domHeader.clientReq := by
  rw [processDomRequest, readHeader_ok_iff, readSpan_ok_iff, HoldsMessage]
  refine and_congr_right fun _ => ?_
  simp [pure, Except.pure]

end

/-- **Reads of malformed bytes**: the loop over a datagram stays inside it if and only if it divides
into messages, in both endpoints; and what the two threads read of the message of a client stays
inside `client_req` if and only if that holds the message, and for the thread that verifies also its
signature. -/
theorem reads_inside [MessageParser] [ClientCrypto] :
    (∀ msg, (∃ calls, NngEndpointThreaded.splitMessages msg = .ok calls) ↔ Divides msg) ∧
    (∀ msg, (∃ calls, OOORPCEndpoint.splitMessages msg = .ok calls) ↔ Divides msg) ∧
    (∀ useHMAC request, (∃ v, receiverVerifyMsg useHMAC request = .ok v) ↔
      HoldsMessage request.request.clientReq ∧
        HoldsSignature useHMAC request.clientId request.request.clientReq) ∧
    ∀ domHeader, (∃ v, processDomRequest domHeader = .ok v) ↔ HoldsMessage domHeader.clientReq := by
  have hsplit : ∀ msg, (∃ calls, splitLoop msg 0 = .ok calls) ↔ Divides msg := fun msg =>
    splitLoop_ok_iff (Nat.zero_le _)
  exact ⟨hsplit, hsplit, receiverVerifyMsg_ok_iff, processDomRequest_ok_iff⟩

/-- **Two byte strings that are read past their end**: a header with a body that is not there and
one more byte, and an empty message of a client. -/
theorem short_bytes_read_outside :
    let msg : Bytes := [0, 0, 0, 0, 255, 0, 0, 0, 0, 0, 0, 0, 0]
    let domHeader : DOMRequest := {}
    NngEndpointThreaded.splitMessages msg = .error .undefined ∧
      OOORPCEndpoint.splitMessages msg = .error .undefined ∧
      ∀ (_ : MessageParser) (_ : ClientCrypto), processDomRequest domHeader = .error .undefined ∧
        ∀ useHMAC, receiverVerifyMsg useHMAC ⟨domHeader, 0, 0, false⟩ = .error .undefined := by
  have hloop : splitLoop [0, 0, 0, 0, 255, 0, 0, 0, 0, 0, 0, 0, 0] 0 = .error .undefined := by
    have hnext : splitLoop [0, 0, 0, 0, 255, 0, 0, 0, 0, 0, 0, 0, 0] 267 = .error .undefined :=
      splitLoop_past (by decide) (by decide)
    rw [splitLoop, if_pos (by decide), if_pos (by decide)]
    exact congrArg (· >>= _) hnext
  exact ⟨hloop, hloop, fun _ _ => ⟨rfl, fun _ => rfl⟩⟩

end DomBft
