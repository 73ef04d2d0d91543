import DomBft.Application
import DomBft.LogEntry

/-!
`log.h`, `log.cc`: the speculative log of a replica, over an arbitrary application.

The log is a deque of entries above the stable checkpoint, with the next free position, the
committed and the stable checkpoint, and the record of the requests seen.  Every operation
is here under its name in the source; one that can stop the process is an `Except Fault`,
and a `false` result comes back together with the log as it was left.
-/

namespace DomBft

/-- `class Log` -/
structure Log (A : Type) where
  log : List LogEntry := []
  nextSeq : ℕ := 1
  /-- the checkpoint with the highest committed position -/
  committedCheckpoint : LogCheckpoint := {}
  /-- the checkpoint with the highest position whose application state is kept -/
  stableCheckpoint : LogCheckpoint := {}
  clientRecord : ClientRecord := {}
  app : A
  latestCert : Option Cert := none
  latestCertSeq : ℕ := 0

namespace Log

variable {A : Type}

/-- `Log(std::shared_ptr<Application>)` -/
def fresh (app : A) : Log A := { app }

/-- `Log::inRange` -/
def inRange (l : Log A) (seq : ℕ) : Prop :=
  l.stableCheckpoint.seq < seq ∧ seq < l.nextSeq ∧ l.log ≠ []

instance (l : Log A) (seq : ℕ) : Decidable (l.inRange seq) :=
  inferInstanceAs (Decidable (_ ∧ _ ∧ _))

/-! ### Reading -/

/-- `log_[seq - log_[0].seq]`, and the assertion on its position. -/
def slot (l : Log A) (seq : ℕ) : Except Fault LogEntry :=
  match l.log.head? with
  | none => .error .undefined
  | some first =>
    if seq < first.seq then .error .undefined
    else match l.log[seq - first.seq]? with
      | none => .error .undefined
      | some e => if e.seq = seq then .ok e else .error .assertion

/-- `Log::getEntry` -/
def getEntry (l : Log A) (seq : ℕ) : Except Fault LogEntry :=
  if l.inRange seq then l.slot seq else .error .runtimeError

/-- `Log::getDigest(uint32_t)` -/
def getDigestAt (l : Log A) (seq : ℕ) : Except Fault Bytes :=
  if seq = l.stableCheckpoint.seq then .ok l.stableCheckpoint.logDigest
  else if l.inRange seq then (·.digest) <$> l.slot seq
  else .error .runtimeError

/-- `Log::getDigest()` -/
def getDigest (l : Log A) : Bytes :=
  match l.log.getLast? with
  | none => l.stableCheckpoint.logDigest
  | some e => e.digest

/-- `log_->getEntry(seq).deadline = deadline` -/
def setDeadline (l : Log A) (seq deadline : ℕ) : Except Fault (Log A) := do
  let _ ← l.getEntry seq
  let offset := (l.log.head?.map (·.seq)).getD 0
  return { l with log := l.log.modify (seq - offset) fun e => { e with deadline } }

/-- `Log::addCert` -/
def addCert (l : Log A) (seq : ℕ) (cert : Cert) : Except Fault (Log A × Bool) :=
  match cert.replies.head? with
  | none => .error .undefined
  | some r =>
    if l.nextSeq ≤ seq then .ok (l, false)
    else if seq ≤ l.committedCheckpoint.seq then
      .ok (l, l.committedCheckpoint.clientRecord.contains r.clientId r.clientSeq)
    else do
      let entry ← l.getEntry seq
      if r.clientId ≠ entry.clientId ∨ r.clientSeq ≠ entry.clientSeq ∨ r.digest ≠ entry.digest then
        return (l, false)
      else if l.latestCert.all (·.seq < cert.seq) then
        return ({ l with latestCert := some cert, latestCertSeq := seq }, true)
      else
        return (l, true)

/-! ### Writing -/

section
variable [Application A]

/-- The part of `Log::abort` that erases the entries from `seq` on. -/
def eraseFrom (l : Log A) (seq : ℕ) : Except Fault (List LogEntry) :=
  match l.log.head? with
  | none => .ok l.log
  | some first =>
    if first.seq ≠ l.stableCheckpoint.seq + 1 then .error .assertion
    else if seq < first.seq ∨ l.log.length < seq - first.seq then .error .undefined
    else .ok (l.log.take (seq - first.seq))

/-- `Log::abort` -/
def abort (l : Log A) (seq : ℕ) : Except Fault (Log A) :=
  if l.nextSeq ≤ seq then .ok { l with nextSeq := seq }
  else if seq ≤ l.committedCheckpoint.seq then .error .runtimeError
  else do
    let log ← l.eraseFrom seq
    let app ← Application.abort l.app seq
    return { l with log, app, nextSeq := seq }

/-- The part of `Log::setCheckpoint` that moves the committed checkpoint. -/
def commitCheckpoint (l : Log A) (cp : LogCheckpoint) : Except Fault (Log A) :=
  if l.committedCheckpoint.seq < cp.seq then do
    let app ← Application.commit l.app cp.seq
    return { l with committedCheckpoint := cp, app }
  else .ok l

/-- The entries `Log::setCheckpoint` keeps: those above the new stable position. -/
def eraseUpTo (l : Log A) (seq : ℕ) : Except Fault (List LogEntry) :=
  match l.log.head? with
  | none => .ok l.log
  | some first =>
    if seq + 1 < first.seq then .error .assertion
    else if l.log.length < seq + 1 - first.seq then .error .undefined
    else .ok (l.log.drop (seq + 1 - first.seq))

/-- The part of `Log::setCheckpoint` that moves the stable checkpoint. -/
def stabilizeCheckpoint (l : Log A) (cp : LogCheckpoint) : Except Fault (Log A) :=
  if cp.appDigest ≠ [] ∧ l.stableCheckpoint.seq < cp.seq then do
    let log ← l.eraseUpTo cp.seq
    if cp.snapshot = none then .error .assertion
    else return { l with stableCheckpoint := cp, log }
  else .ok l

/-- `Log::setCheckpoint` -/
def setCheckpoint (l : Log A) (cp : LogCheckpoint) : Except Fault (Log A) := do
  (← l.commitCheckpoint cp).stabilizeCheckpoint cp

variable [Sha256] [PaddedRequestData]

/-- The digest the next entry is chained to. -/
def prevDigest (l : Log A) : Except Fault Bytes :=
  if l.nextSeq - 1 = l.stableCheckpoint.seq then .ok l.stableCheckpoint.logDigest
  else match l.log.getLast? with
    | none => .error .assertion
    | some e => .ok e.digest

/-- `Log::addEntry` after the duplicate check.  A payload that does not parse leaves its
entry behind, at a position that is not counted. -/
def append (l : Log A) (clientId clientSeq : UInt32) (req : Bytes) :
    Except Fault (Log A × Option Bytes) := do
  let prevDigest ← l.prevDigest
  let entry := LogEntry.create l.nextSeq clientId clientSeq req prevDigest
  match reqData req with
  | none => return ({ l with log := l.log ++ [entry] }, none)
  | some data =>
    let (app, res) ← Application.execute l.app data l.nextSeq
    return ({ l with
      log := l.log ++ [{ entry with result := res }]
      app
      nextSeq := l.nextSeq + 1 }, some res)

/-- `Log::addEntry`, with the result of the request, or `none` where it returns `false`. -/
def addEntry (l : Log A) (clientId clientSeq : UInt32) (req : Bytes) (checkDup : Bool := true) :
    Except Fault (Log A × Option Bytes) :=
  if checkDup then
    let (clientRecord, isNew) := l.clientRecord.update clientId clientSeq
    if isNew then { l with clientRecord }.append clientId clientSeq req
    else .ok ({ l with clientRecord }, none)
  else
    l.append clientId clientSeq req

/-! ### Snapshots -/

/-- The loop of `Log::resetToSnapshot`, with its result `false` if an entry is not added. -/
def addEntries (startSeq : ℕ) : Log A → List LogEntryProto → Except Fault (Log A × Bool)
  | l, [] => .ok (l, true)
  | l, e :: es =>
    if e.seq < startSeq then addEntries startSeq l es
    else do
      match ← l.addEntry e.clientId e.clientSeq (e.request.getD []) false with
      | (l, none) => return (l, false)
      | (l, some _) => addEntries startSeq l es

/-- The first part of `Log::resetToSnapshot`: the log at the snapshot, and the position its
entries start from; `none` if the application refuses the snapshot. -/
def startSnapshot (l : Log A) (reply : SnapshotReply) (checkpoint : LogCheckpoint) :
    Except Fault (Option (Log A × ℕ)) :=
  match reply.snapshot with
  | some snapshot =>
    match reply.snapshotCheckpoint with
    | none => .error .assertion
    | some snapshotCheckpoint => do
      let snapshotCp ← LogCheckpoint.ofProto snapshotCheckpoint
      match ← Application.applySnapshot l.app snapshot snapshotCp.appDigest snapshotCp.seq with
      | none => return none
      | some app =>
        return some ({ l with
          log := []
          nextSeq := snapshotCp.seq + 1
          stableCheckpoint := snapshotCp
          committedCheckpoint := checkpoint
          app }, snapshotCp.seq + 1)
  | none => do
    let startSeq := l.committedCheckpoint.seq + 1
    let l ← l.abort startSeq
    return some ({ l with committedCheckpoint := checkpoint }, startSeq)

/-- The last part of `Log::resetToSnapshot`: takes over the client record of the checkpoint
and compares the digests. -/
def finishSnapshot (l : Log A) (checkpoint : LogCheckpoint) : Except Fault (Log A × Bool) :=
  if l.getDigest ≠ checkpoint.logDigest then .error .runtimeError
  else .ok ({ l with
    clientRecord := checkpoint.clientRecord, latestCert := none, latestCertSeq := 0 }, true)

/-- `Log::resetToSnapshot`, with its result. -/
def resetToSnapshot (l : Log A) (reply : SnapshotReply) : Except Fault (Log A × Bool) := do
  let checkpoint ← LogCheckpoint.ofProto reply.checkpoint
  match ← l.startSnapshot reply checkpoint with
  | none => return (l, false)
  | some (l, startSeq) =>
    match ← addEntries startSeq l reply.logEntries with
    | (l, false) => return (l, false)
    | (l, true) => l.finishSnapshot checkpoint

/-- The last loop of `Log::applySnapshotModifyLog`. -/
def reapply : Log A → List LogEntry → Except Fault (Log A)
  | l, [] => .ok l
  | l, e :: es => do
    let (l, _) ← l.addEntry e.clientId e.clientSeq e.request
    reapply l es

/-- The entries `Log::applySnapshotModifyLog` adds again after the reset. -/
def toReapply (l : Log A) (checkpoint : LogCheckpoint) : List LogEntry :=
  let numMissing := l.clientRecord.numMissing checkpoint.clientRecord
  l.log.filter fun e => (UInt32.ofNat checkpoint.seq - numMissing).toNat < e.seq

/-- `Log::applySnapshotModifyLog`, with its result. -/
def applySnapshotModifyLog (l : Log A) (reply : SnapshotReply) :
    Except Fault (Log A × Bool) := do
  let checkpoint ← LogCheckpoint.ofProto reply.checkpoint
  let toReapply := l.toReapply checkpoint
  match ← l.resetToSnapshot reply with
  | (l, false) => return (l, false)
  | (l, true) => return (← reapply l toReapply, true)

end

/-! ### The log as it is sent -/

/-- `Log::toProto` -/
def toProto [Sha256] (l : Log A) (includeFullRequests : Bool := false) : RepairLog where
  entries := (l.log.filter fun e => l.committedCheckpoint.seq < e.seq).map
    (·.toProto includeFullRequests)
  checkpoint := l.committedCheckpoint.toProto
  cert := l.latestCert

/-- The reply that `Replica::processSnapshotRequest` builds from the log, for a requester
whose last checkpoint is at `lastSeq`. -/
def snapshotReply [Sha256] (l : Log A) (round replicaId lastSeq : ℕ) :
    Except Fault SnapshotReply := do
  let stable := l.stableCheckpoint
  let committed := l.committedCheckpoint
  if lastSeq < stable.seq ∧ stable.snapshot = none then .error .assertion
  else
    let startSeq := max lastSeq stable.seq + 1
    let entries ← (List.range' startSeq (committed.seq + 1 - startSeq)).mapM l.getEntry
    return {
      round
      seq := committed.seq
      replicaId
      checkpoint := committed.toProto
      logEntries := entries.map (·.toProto true)
      snapshot := if lastSeq < stable.seq then stable.snapshot else none
      snapshotCheckpoint := if lastSeq < stable.seq then some stable.toProto else none }

end Log

end DomBft
