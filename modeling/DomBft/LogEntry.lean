import DomBft.Messages
import DomBft.Lib.HashChain

/-!
`log_checkpoint.h`, `log_entry.h` and their sources: the entries of the log and the
checkpoints it is truncated at.

* `LogCheckpoint`: `ofProto` and `toProto`.
* `LogEntry`: `create` is the constructor that computes the digest, over the position, the
  request and the digest of the entry before it.
* `Request`, `logDigest`: a history as the list of its requests, and the digest of the log
  that holds it.  `entryDigest_binding` is the hash chain argument: where SHA-256 has no
  collisions, the digest binds the whole history.
-/

namespace DomBft

open Std

/-- The first elements of two lists, paired; `none` if the second list is shorter. -/
def pairUp {α β : Type*} : List α → List β → Option (List (α × β))
  | [], _ => some []
  | _ :: _, [] => none
  | a :: as, b :: bs => (pairUp as bs).map ((a, b) :: ·)

/-! ### Checkpoints -/

/-- `struct LogCheckpoint` -/
structure LogCheckpoint where
  seq : ℕ := 0
  logDigest : Bytes := []
  appDigest : Bytes := []
  commits : ExtTreeMap ℕ Commit compare := ∅
  commitSigs : ExtTreeMap ℕ Bytes compare := ∅
  repairCommits : ExtTreeMap ℕ PBFTCommit compare := ∅
  repairCommitSigs : ExtTreeMap ℕ Bytes compare := ∅
  clientRecord : ClientRecord := {}
  snapshot : Option Bytes := none
deriving Inhabited

namespace LogCheckpoint

/-- `LogCheckpoint(const proto::LogCheckpoint &)`.  Reading a signature that is not there
is undefined. -/
def ofProto (p : LogCheckpointProto) : Except Fault LogCheckpoint :=
  match pairUp p.commits p.commitSigs, pairUp p.repairCommits p.repairCommitSigs with
  | some commits, some repairCommits =>
    .ok {
      seq := p.seq
      logDigest := p.logDigest
      appDigest := p.appDigest
      commits := commits.foldl (fun m c => m.insert c.1.replicaId c.1) ∅
      commitSigs := commits.foldl (fun m c => m.insert c.1.replicaId c.2) ∅
      repairCommits := repairCommits.foldl (fun m c => m.insert c.1.replicaId c.1) ∅
      repairCommitSigs := repairCommits.foldl (fun m c => m.insert c.1.replicaId c.2) ∅
      clientRecord := .ofProto p.clientRecord }
  | _, _ => .error .undefined

/-- What a checkpoint takes over from its message. -/
lemma ofProto_eq {p : LogCheckpointProto} {c : LogCheckpoint} (h : ofProto p = .ok c) :
    c.seq = p.seq ∧ c.logDigest = p.logDigest ∧ c.appDigest = p.appDigest ∧
      c.clientRecord = .ofProto p.clientRecord ∧ c.snapshot = none := by
  rw [ofProto] at h
  split at h
  · cases Except.ok.inj h
    exact ⟨rfl, rfl, rfl, rfl, rfl⟩
  · cases h

variable [Sha256]

/-- `LogCheckpoint::toProto` -/
def toProto (c : LogCheckpoint) : LogCheckpointProto :=
  if 0 < c.seq then
    { seq := c.seq
      logDigest := c.logDigest
      appDigest := c.appDigest
      clientRecord := c.clientRecord.toProto }
  else
    { clientRecord := c.clientRecord.toProto }

end LogCheckpoint

/-! ### Entries -/

/-- A request in a history: who sent it, its number, and its payload. -/
structure Request where
  clientId : UInt32
  clientSeq : UInt32
  request : Bytes
deriving DecidableEq, Repr

/-- `RequestId` -/
abbrev RequestId : Type := UInt32 × UInt32

instance RequestId.lawfulBEq : LawfulBEq RequestId := inferInstance

/-- The key of a request. -/
def Request.id (a : Request) : RequestId := (a.clientId, a.clientSeq)

/-- `struct LogEntry` -/
structure LogEntry where
  seq : ℕ := 0
  clientId : UInt32 := 0
  clientSeq : UInt32 := 0
  deadline : ℕ := 0
  request : Bytes := []
  result : Bytes := []
  digest : Bytes := []
deriving DecidableEq, Repr, Inhabited

variable [Sha256]

/-- What the constructor of `LogEntry` hashes: position, client, client sequence number,
the digest before the entry, and the request. -/
def entryDigest (seq : ℕ) (prevDigest : Bytes) (a : Request) : Bytes :=
  sha256 (le32 (UInt32.ofNat seq) ++ le32 a.clientId ++ le32 a.clientSeq ++ prevDigest ++
    a.request)

namespace LogEntry

/-- The constructor of `LogEntry` that computes the digest. -/
def create (seq : ℕ) (clientId clientSeq : UInt32) (request prevDigest : Bytes) : LogEntry where
  seq := seq
  clientId := clientId
  clientSeq := clientSeq
  request := request
  digest := entryDigest seq prevDigest ⟨clientId, clientSeq, request⟩

/-- `LogEntry::toProto` -/
def toProto (e : LogEntry) (includeFullRequest : Bool := false) : LogEntryProto where
  seq := e.seq
  clientId := e.clientId
  clientSeq := e.clientSeq
  digest := e.digest
  request := if includeFullRequest then some e.request else none
  requestDigest := sha256 e.request

/-- The request an entry holds. -/
def toRequest (e : LogEntry) : Request := ⟨e.clientId, e.clientSeq, e.request⟩

end LogEntry

/-! ### Histories and their digests -/

/-- The digest of the log that holds a history. -/
def logDigest (h : List Request) : Bytes := HashChain.chain entryDigest [] h

/-- The digests that can occur after `k` entries. -/
def IsLogDigest (k : ℕ) (d : Bytes) : Prop := if k = 0 then d = [] else ∃ b, d = sha256 b

/-- The digest of an entry determines its request and the digest before it. -/
lemma entryDigest_inj (hc : CollisionFree) {k seq seq' : ℕ} {d d' : Bytes} {a a' : Request}
    (hd : IsLogDigest k d) (hd' : IsLogDigest k d')
    (h : entryDigest seq d a = entryDigest seq' d' a') : d = d' ∧ a = a' := by
  have hin := hc.injective h
  simp only [List.append_assoc] at hin
  obtain ⟨-, hin⟩ := List.append_inj hin rfl
  obtain ⟨hid, hin⟩ := List.append_inj hin rfl
  obtain ⟨hcseq, htail⟩ := List.append_inj hin rfl
  have hrest : d = d' ∧ a.request = a'.request := by
    by_cases hk0 : k = 0
    · rw [IsLogDigest, if_pos hk0] at hd hd'
      subst hd hd'
      exact ⟨rfl, htail⟩
    · rw [IsLogDigest, if_neg hk0] at hd hd'
      obtain ⟨b, rfl⟩ := hd
      obtain ⟨b', rfl⟩ := hd'
      obtain ⟨rfl, hreq⟩ := hc.append_inj htail
      exact ⟨rfl, hreq⟩
  refine ⟨hrest.1, ?_⟩
  cases a
  cases a'
  simp only [Request.mk.injEq]
  exact ⟨le32_injective hid, le32_injective hcseq, hrest.2⟩

/-- **Log digests bind histories** of fewer than `2 ^ 32` entries. -/
lemma entryDigest_binding (hc : CollisionFree) :
    HashChain.Binding entryDigest [] (2 ^ 32) IsLogDigest where
  base_mem := rfl
  step_mem k d a _ := ⟨_, rfl⟩
  step_ne k d a := hc.ne_nil _
  inj k k' d d' a a' hk hk' hd hd' h := by
    have hkk : k = k' := by
      have hin := hc.injective h
      simp only [List.append_assoc] at hin
      have hseq := (List.append_inj hin rfl).1
      have hnat := congrArg UInt32.toNat (le32_injective hseq)
      rw [UInt32.toNat_ofNat_of_lt' hk, UInt32.toNat_ofNat_of_lt' hk'] at hnat
      omega
    subst hkk
    exact ⟨rfl, entryDigest_inj hc hd hd' h⟩

@[simp] lemma logDigest_nil : logDigest [] = [] := rfl

lemma logDigest_append (h h' : List Request) :
    logDigest (h ++ h') = HashChain.chainFrom entryDigest (h.length + 1) (logDigest h) h' :=
  HashChain.chain_append h h'

/-- **Equal log digests, equal histories.** -/
theorem logDigest_inj (hc : CollisionFree) {h h' : List Request} (hl : h.length < 2 ^ 32)
    (hl' : h'.length < 2 ^ 32) (hd : logDigest h = logDigest h') : h = h' :=
  (entryDigest_binding hc).chain_inj hl hl' hd

/-- **Equal log digests, equal histories**, among those of equal length. -/
theorem logDigest_inj_of_length (hc : CollisionFree) {h h' : List Request}
    (hlen : h.length = h'.length) (hd : logDigest h = logDigest h') : h = h' :=
  HashChain.chain_inj_of_length (entryDigest_binding hc).chain_mem
    (fun _ _ _ _ _ => entryDigest_inj hc) hlen hd

/-- Prefixes with equal digests end at the same position and agree up to it. -/
lemma take_eq_of_logDigest (hc : CollisionFree) {h h' : List Request} {p q : ℕ}
    (hl : h.length < 2 ^ 32) (hl' : h'.length < 2 ^ 32) (hp : p ≤ h.length) (hq : q ≤ h'.length)
    (hd : logDigest (h.take p) = logDigest (h'.take q)) : p = q ∧ h.take p = h'.take q :=
  (entryDigest_binding hc).take_eq hl hl' hp hq hd

end DomBft
