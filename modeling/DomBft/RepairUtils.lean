import DomBft.Config
import DomBft.Log

/-!
`repair_utils.h`, `repair_utils.cc`: which log a repair proposal stands for, and how it is
applied to the local log.

* `getLogSuffixFromProposal`: the highest checkpoint, checked against the other logs, and
  behind it the entries up to the highest certificate, the entries up to the last position
  with `f + e + 1` equal digests, and the remaining requests with `f + 1` occurrences.
* `applySuffix`: keeps the local entries that agree with the suffix, aborts the others and
  adds the rest of the suffix.
* `getAbortedEntries`: the local requests that the suffix leaves out.

Each loop of the source is a definition of its own.  The client record check at the end of
`getLogSuffixFromProposal` only writes to the log file and is left out.
-/

namespace DomBft

open Std

/-- The order of `std::pair<uint32_t, uint32_t>`. -/
abbrev RequestId.cmp : RequestId → RequestId → Ordering := (lexOrd : Ord RequestId).compare

/-- `std::map<RequestId, T>` -/
abbrev RequestMap (β : Type) : Type := ExtTreeMap RequestId β RequestId.cmp

/-- The key of an entry in a message. -/
def LogEntryProto.id (e : LogEntryProto) : RequestId := (e.clientId, e.clientSeq)

/-- `struct LogSuffix`.  The replica and the round are set by the caller. -/
structure LogSuffix where
  replicaId : ℕ := 0
  round : ℕ := 0
  checkpointReplica : ℕ
  checkpoint : LogCheckpointProto
  entries : List LogEntryProto
  logDigest : Bytes
deriving DecidableEq, Repr

/-! ### The requests that occur often enough -/

/-- All entries of a proposal above a position, in the order of the messages. -/
def RepairProposal.entriesAbove (p : RepairProposal) (seq : ℕ) : List LogEntryProto :=
  (p.startMsgs.flatMap (·.log.entries)).filter (seq < ·.seq)

/-- The loop of `getValidClientRequests` over the entries above the checkpoint, with the
requests counted so far: an entry whose count has reached `f + 1` is recorded under its
key. -/
def countRequests (f : ℕ) :
    List LogEntryProto → List (RequestId × Bytes) → RequestMap LogEntryProto →
      RequestMap LogEntryProto
  | [], _, ret => ret
  | e :: es, seen, ret =>
    let seen := (e.id, e.request.getD []) :: seen
    countRequests f es seen
      (if f + 1 ≤ seen.count (e.id, e.request.getD []) then ret.insert e.id e else ret)

/-- `getValidClientRequests` -/
def getValidClientRequests (cfg : Config) (p : RepairProposal) (checkpointSeq : ℕ) :
    RequestMap LogEntryProto :=
  countRequests cfg.f (p.entriesAbove checkpointSeq) [] ∅

/-! ### The checkpoint -/

/-- The message with the highest checkpoint, the last one among equals.  A message without
a log fails the assertion. -/
def maxCheckpoint : List RepairStart → Option RepairStart → Except Fault (Option RepairStart)
  | [], best => .ok best
  | m :: ms, best =>
    if m.log?.isNone then .error .assertion
    else if best.all fun b => b.log.checkpoint.seq ≤ m.log.checkpoint.seq then
      maxCheckpoint ms (some m)
    else maxCheckpoint ms best

/-- Whether a log has the digest of the checkpoint at its position. -/
def RepairLog.matches (log : RepairLog) (cp : LogCheckpointProto) : Bool :=
  if log.checkpoint.seq = cp.seq then log.checkpoint.logDigest = cp.logDigest
  else if cp.seq ≤ log.checkpoint.seq + log.entries.length then
    (log.entries[cp.seq - log.checkpoint.seq - 1]?).any (·.digest = cp.logDigest)
  else false

/-- `numMatches`: the messages of other replicas that match the checkpoint. -/
def numMatches (ms : List RepairStart) (checkpointReplica : ℕ) (cp : LogCheckpointProto) : ℕ :=
  ms.countP fun m => m.replicaId ≠ checkpointReplica && m.log.matches cp

/-! ### The certificate -/

/-- The log with the highest certificate above the checkpoint, the first one among equals,
with the position of the certificate; the messages are numbered from `i` on. -/
def maxCert (checkpointSeq : ℕ) : ℕ → List RepairStart → ℕ × ℕ → ℕ × ℕ
  | _, [], best => best
  | i, m :: ms, best =>
    match m.log.cert with
    | none => maxCert checkpointSeq (i + 1) ms best
    | some cert =>
      if cert.seq ≤ checkpointSeq ∨ cert.seq ≤ best.2 then maxCert checkpointSeq (i + 1) ms best
      else maxCert checkpointSeq (i + 1) ms (i, cert.seq)

/-- The entries of a log above one position, up to the first one above another position. -/
def copyEntries (lo hi : ℕ) : List LogEntryProto → List LogEntryProto
  | [] => []
  | e :: es =>
    if e.seq ≤ lo then copyEntries lo hi es
    else if hi < e.seq then []
    else e :: copyEntries lo hi es

/-! ### Equal digests -/

/-- The entries above a position with the number of their message. -/
def numberedEntries (lo : ℕ) : ℕ → List RepairStart → List (ℕ × LogEntryProto)
  | _, [] => []
  | i, m :: ms =>
    (m.log.entries.filter (lo < ·.seq)).map (i, ·) ++ numberedEntries lo (i + 1) ms

/-- The loop that counts equal digests at equal positions, with the digests counted so far:
the message and the position where a count last becomes `t`. -/
def matchEntries (t : ℕ) : List (ℕ × LogEntryProto) → List (ℕ × Bytes) → ℕ × ℕ → ℕ × ℕ
  | [], _, best => best
  | (i, e) :: es, seen, best =>
    let seen := (e.seq, e.digest) :: seen
    matchEntries t es seen (if seen.count (e.seq, e.digest) = t then (i, e.seq) else best)

/-! ### The suffix -/

/-- The entries of the message with a number. -/
def entriesOf (ms : List RepairStart) (i : ℕ) : List LogEntryProto :=
  ((ms[i]?).map (·.log.entries)).getD []

/-- The entries that are copied from the log with the certificate and from the log with the
most common digests. -/
def copiedEntries (cfg : Config) (ms : List RepairStart) (checkpointSeq : ℕ) :
    List LogEntryProto :=
  let (certIdx, certSeq) := maxCert checkpointSeq 0 ms (0, 0)
  let lo := max certSeq checkpointSeq
  let (idx, seq) := matchEntries (cfg.f + cfg.e + 1) (numberedEntries lo 0 ms) [] (certIdx, 0)
  copyEntries checkpointSeq certSeq (entriesOf ms certIdx) ++ copyEntries lo seq (entriesOf ms idx)

/-- The remaining requests, in the order of their keys. -/
def remainingEntries (cfg : Config) (p : RepairProposal) (checkpointSeq : ℕ)
    (copied : List LogEntryProto) : List LogEntryProto :=
  let remaining := copied.foldl (fun m e => m.erase e.id)
    (getValidClientRequests cfg p checkpointSeq)
  remaining.toList.map (·.2)

/-- The digest of a suffix behind a checkpoint. -/
def suffixDigest [Sha256] (cp : LogCheckpointProto) (entries : List LogEntryProto) : Bytes :=
  HashChain.chainFrom entryDigest (cp.seq + 1) cp.logDigest
    (entries.map fun e => ⟨e.clientId, e.clientSeq, e.request.getD []⟩)

/-- `getLogSuffixFromProposal`.  A proposal without messages leaves the checkpoint a null
pointer. -/
def getLogSuffixFromProposal [Sha256] (cfg : Config) (p : RepairProposal) :
    Except Fault LogSuffix := do
  match ← maxCheckpoint p.startMsgs none with
  | none => .error .undefined
  | some m =>
    let checkpoint := m.log.checkpoint
    if numMatches p.startMsgs m.replicaId checkpoint < cfg.f + cfg.e + 1 then .error .exit
    else
      let copied := copiedEntries cfg p.startMsgs checkpoint.seq
      let entries := copied ++ remainingEntries cfg p checkpoint.seq copied
      return {
        checkpointReplica := m.replicaId
        checkpoint
        entries
        logDigest := suffixDigest checkpoint entries }

/-! ### Applying a suffix -/

section
variable {A : Type}

/-- `getAbortedEntries`: the local requests from a position on that are not in the
suffix. -/
def getAbortedEntries (s : LogSuffix) (l : Log A) (startSeq : ℕ) :
    Except Fault (List ClientRequestProto) := do
  let startSeq := max startSeq (l.committedCheckpoint.seq + 1)
  let entries ← (List.range' startSeq (l.nextSeq - startSeq)).mapM l.getEntry
  return (entries.filter fun e => (e.clientId, e.clientSeq) ∉ s.entries.map (·.id)).map fun e =>
    { clientId := e.clientId, clientSeq := e.clientSeq, deadline := e.deadline,
      reqData := e.request }

/-- The loop that skips the entries of the suffix which the local log has: the position
reached, the client record, and the entries left. -/
def skipEntries (l : Log A) :
    ℕ → ClientRecord → List LogEntryProto → Except Fault (ℕ × ClientRecord × List LogEntryProto)
  | seq, r, [] => .ok (seq, r, [])
  | seq, r, e :: es =>
    if l.nextSeq ≤ seq then .ok (seq, r, e :: es)
    else if seq ≤ l.committedCheckpoint.seq then
      skipEntries l (seq + 1) (r.update e.clientId e.clientSeq).1 es
    else do
      let digest ← l.getDigestAt seq
      if digest ≠ e.digest then return (seq, r, e :: es)
      else skipEntries l (seq + 1) (r.update e.clientId e.clientSeq).1 es

/-- The local requests from a position on become available. -/
def addLocalRequests (l : Log A) (seq : ℕ) (available : RequestMap Bytes) :
    Except Fault (RequestMap Bytes) := do
  let entries ← (List.range' seq (l.nextSeq - seq)).mapM l.getEntry
  return entries.foldl (fun m e => m.insert (e.clientId, e.clientSeq) e.request) available

/-- The requests that come with the entries become available; the result is followed by the
keys of those that neither come with their entry nor are available. -/
def addFullRequests : List LogEntryProto → RequestMap Bytes → RequestMap Bytes × List RequestId
  | [], available => (available, [])
  | e :: es, available =>
    match e.request with
    | some request => addFullRequests es (available.insert e.id request)
    | none =>
      let (available', missing) := addFullRequests es available
      (available', if available.contains e.id then missing else e.id :: missing)

/-- The assertion of `applySuffix`: the local log has the checkpoint of the suffix. -/
def checkCheckpoint (s : LogSuffix) (l : Log A) : Except Fault Unit :=
  if s.checkpoint.seq ≤ l.committedCheckpoint.seq then .ok ()
  else do
    let digest ← l.getDigestAt s.checkpoint.seq
    if digest = s.checkpoint.logDigest then .ok () else .error .assertion

variable [Application A] [Sha256] [PaddedRequestData]

/-- The last loop of `applySuffix`: adds the entries from a position on. -/
def addSuffix (available : RequestMap Bytes) :
    Log A → ℕ → List LogEntryProto → Except Fault (Log A)
  | l, _, [] => .ok l
  | l, seq, e :: es =>
    if seq ≠ l.nextSeq then .error .assertion
    else match available[e.id]? with
      | none => .error .assertion
      | some request =>
        if sha256 request ≠ e.requestDigest then .error .runtimeError
        else do
          let (l, res) ← l.addEntry e.clientId e.clientSeq request
          addSuffix available l (if res.isSome then seq + 1 else seq) es

/-- `applySuffix`: the log, and `none` where it returns `true`, the missing requests where
it returns `false`. -/
def applySuffix (s : LogSuffix) (available : RequestMap Bytes) (l : Log A) :
    Except Fault (Log A × Option (List RequestId)) := do
  checkCheckpoint s l
  if s.checkpoint.seq + s.entries.length ≤ l.committedCheckpoint.seq then .ok (l, none)
  else
    let (seq, clientRecord, rest) ←
      skipEntries l (s.checkpoint.seq + 1) (.ofProto s.checkpoint.clientRecord) s.entries
    let available ← addLocalRequests l seq available
    let l ← { l with clientRecord }.abort seq
    let (available, missing) := addFullRequests rest available
    if missing ≠ [] then .ok (l, some missing)
    else return (← addSuffix available l seq rest, none)

end

end DomBft
