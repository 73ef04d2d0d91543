import DomBft.ClientRecord.Digest
import DomBft.KVStore
import DomBft.Log.Committed

/-!
What `addEntry`, `resetToSnapshot` and `applySnapshotModifyLog` leave behind where they fail.

* `SameState`: the entries, the next position, the checkpoints, the application and the digest
  of the client record are as before.
* `addEntry_atomic_iff`: where `addEntry` returns `false` and has changed nothing.
* `Interruptible`: what an application is left as where `applySnapshot` throws.
* `thrown`, `Rejected`: the log where one of the two functions throws, and where it throws or
  returns `false`.
* `rejected_snapshot_intact`: a rejected snapshot leaves the log as it was exactly if the
  application is what rejects it.
-/

namespace DomBft

open Fallible

/-! ### The client record -/

namespace ClientRecord

variable {r : ClientRecord} {c s : UInt32}

/-- A request is not new if the record holds it, or if it has number `0` and its client is not
known. -/
lemma update_not_new_iff :
    (r.update c s).2 = false ↔ r.contains c s = true ∨ r.sequences[c]? = none ∧ s = 0 := by
  rw [← Bool.not_eq_true, update, ClientSequence.update_isNew, Bool.not_eq_false, contains]
  cases r.sequences[c]? with
  | some seqs => simp
  | none =>
      rw [Option.getD_none, ClientSequence.contains_iff]
      simp

/-- An update with a request that the record holds changes nothing. -/
lemma update_of_contains (h : r.contains c s = true) : (r.update c s).1 = r := by
  rw [contains] at h
  cases hs : r.sequences[c]? with
  | none =>
      rw [hs] at h
      cases h
  | some seqs =>
      rw [hs] at h
      have hold := ClientSequence.contains_iff.mp h
      have hupdate : seqs.update s = (seqs, false) := by
        rw [ClientSequence.update, if_neg (by grind), if_neg]
        rw [Std.ExtTreeSet.contains_iff_mem]
        exact hold.2
      rw [update, hs, Option.getD_some, hupdate, OrderedMap.insert_of_getElem? hs]

variable [Sha256]

/-- The first contact with a client changes the digest, whatever the number of its request. -/
lemma digest_update_of_unknown (hc : CollisionFree) (h : r.sequences[c]? = none) :
    (r.update c s).1.digest ≠ r.digest := by
  intro heq
  have hlen := congrArg List.length (hc.injective heq)
  rw [digestInput, digestInput, update,
    ((OrderedMap.toList_insert_perm h).flatMap_right _).length_eq, List.flatMap_cons,
    List.length_append, List.length_append, List.length_append, le32_length, le32_length] at hlen
  omega

end ClientRecord

namespace Log

variable {A : Type} {l l' : Log A}

/-! ### A failed `addEntry` -/

/-- A log is as before: its entries, the next position, both checkpoints and the application
are the same, and the client record has the same digest. -/
structure SameState [Sha256] (l l' : Log A) : Prop where
  log_eq : l'.log = l.log
  nextSeq_eq : l'.nextSeq = l.nextSeq
  committed_eq : l'.committedCheckpoint = l.committedCheckpoint
  stable_eq : l'.stableCheckpoint = l.stableCheckpoint
  digest_eq : l'.clientRecord.digest = l.clientRecord.digest
  app_eq : l'.app = l.app

section
variable [Application A] [Sha256] [PaddedRequestData]

omit [Application A] [Sha256] [PaddedRequestData] in
lemma prevDigest_error_iff {fault : Fault} :
    l.prevDigest = .error fault ↔
      fault = .assertion ∧ l.nextSeq - 1 ≠ l.stableCheckpoint.seq ∧ l.log = [] := by
  rw [prevDigest]
  split_ifs with hstable
  · simp [hstable]
  · cases hlast : l.log.getLast? with
    | none => simp [hstable, List.getLast?_eq_none_iff.mp hlast, eq_comm]
    | some e =>
        have hne : l.log ≠ [] := fun hnil => by simp [hnil] at hlast
        simp [hne]

/-- What `addEntry` leaves after the duplicate check where it returns `false`. -/
lemma append_none_iff {c s : UInt32} {req : Bytes} :
    l.append c s req = .ok (l', none) ↔ reqData req = none ∧ ∃ d, l.prevDigest = .ok d ∧
      l' = { l with log := l.log ++ [LogEntry.create l.nextSeq c s req d] } := by
  rw [append, bind_eq_ok]
  cases reqData req with
  | none =>
      simp only [pure_eq_ok, Prod.mk.injEq, and_true, true_and]
      exact exists_congr fun d => and_congr_right fun _ => eq_comm
  | some data =>
      simp only [reduceCtorEq, false_and, iff_false, not_exists, not_and]
      intro d hd h
      obtain ⟨x, -, h⟩ := bind_eq_ok.mp h
      cases pure_eq_ok.mp h

/-- A payload that does not parse is in the log afterwards. -/
lemma append_none_log_ne {c s : UInt32} {req : Bytes} (h : l.append c s req = .ok (l', none)) :
    l'.log ≠ l.log := by
  obtain ⟨-, d, -, rfl⟩ := append_none_iff.mp h
  simp

/-- After the duplicate check `addEntry` does not return `false` if and only if the payload
parses or the assertion in front of the new entry fails. -/
lemma append_ne_none_iff {c s : UInt32} {req : Bytes} :
    (∀ l', l.append c s req ≠ .ok (l', none)) ↔
      (reqData req = none → l.nextSeq - 1 ≠ l.stableCheckpoint.seq ∧ l.log = []) := by
  constructor
  · intro h hbad
    cases hprev : l.prevDigest with
    | error fault => exact (prevDigest_error_iff.mp hprev).2
    | ok d => exact absurd (append_none_iff.mpr ⟨hbad, d, hprev, rfl⟩) (h _)
  · intro h l' happend
    obtain ⟨hbad, d, hprev, -⟩ := append_none_iff.mp happend
    rw [prevDigest_error_iff.mpr ⟨rfl, h hbad⟩] at hprev
    cases hprev

/-- Where a failed `addEntry` has passed the duplicate check, the log has changed. -/
lemma append_sameState_iff (r : ClientRecord) {c s : UInt32} {req : Bytes} :
    (∀ l', { l with clientRecord := r }.append c s req = .ok (l', none) → l.SameState l') ↔
      (reqData req = none → l.nextSeq - 1 ≠ l.stableCheckpoint.seq ∧ l.log = []) := by
  have hne : (∀ l', { l with clientRecord := r }.append c s req ≠ .ok (l', none)) ↔
      (reqData req = none → l.nextSeq - 1 ≠ l.stableCheckpoint.seq ∧ l.log = []) :=
    append_ne_none_iff
  rw [← hne]
  refine forall_congr' fun l' => ⟨fun h happend => ?_, fun h happend => absurd happend h⟩
  exact append_none_log_ne happend (h happend).log_eq

/-- **A failed `addEntry` has changed nothing** unless the payload does not parse, which leaves
the entry in the log, or the request has number `0` and is the first of its client, which makes
the client known. -/
theorem addEntry_atomic_iff (hc : CollisionFree) (l : Log A) (c s : UInt32) (req : Bytes)
    (checkDup : Bool) :
    (∀ l', l.addEntry c s req checkDup = .ok (l', none) → l.SameState l') ↔
      ¬(checkDup = true ∧ l.clientRecord.sequences[c]? = none ∧ s = 0) ∧
        (reqData req = none → checkDup = true ∧ l.clientRecord.contains c s = true ∨
          l.nextSeq - 1 ≠ l.stableCheckpoint.seq ∧ l.log = []) := by
  cases checkDup with
  | false =>
      simp only [addEntry, Bool.false_eq_true, if_false]
      refine (append_sameState_iff l.clientRecord).trans ?_
      simp
  | true =>
      simp only [addEntry, if_true, true_and]
      cases hnew : (l.clientRecord.update c s).2 with
      | true =>
          have hno : ¬(l.clientRecord.contains c s = true ∨
              l.clientRecord.sequences[c]? = none ∧ s = 0) := fun hold => by
            rw [← ClientRecord.update_not_new_iff, hnew] at hold
            cases hold
          obtain ⟨hnot, hfirst⟩ := not_or.mp hno
          simp only [if_true]
          refine (append_sameState_iff _).trans ?_
          simp only [hnot, hfirst, not_false_iff, true_and, Bool.false_eq_true, false_or]
      | false =>
          simp only [Bool.false_eq_true, if_false, Except.ok.injEq, Prod.mk.injEq, and_true,
            forall_eq']
          rcases ClientRecord.update_not_new_iff.mp hnew with hold | ⟨hunknown, hzero⟩
          · have hknown : l.clientRecord.sequences[c]? ≠ none := fun hnone => by
              rw [ClientRecord.contains, hnone] at hold
              cases hold
            simp only [hold, hknown, false_and, not_false_iff, true_or, implies_true, and_true,
              iff_true]
            exact ⟨rfl, rfl, rfl, rfl, by rw [ClientRecord.update_of_contains hold], rfl⟩
          · refine iff_of_false (fun hsame => ?_) fun h => h.1 ⟨hunknown, hzero⟩
            exact ClientRecord.digest_update_of_unknown hc hunknown hsame.digest_eq

end

section

attribute [local instance] prefixSha shortPaddedRequestData counterWire

/-- The counter log after the first request of client `1`. -/
def contacted : Log Counter :=
  { Log.fresh {} with clientRecord := (({} : ClientRecord).update 1 1).1 }

/-- A repeated request changes nothing. -/
theorem repeated_request_atomic :
    ∃ l', contacted.addEntry 1 1 [255] true = .ok (l', none) ∧ contacted.SameState l' := by
  refine ⟨_, rfl, (addEntry_atomic_iff prefixSha_collisionFree contacted 1 1 [255] true).mpr
    ⟨?_, ?_⟩ _ rfl⟩
  · decide
  · decide

/-- A first request with number `0` is refused, and its client is known afterwards; a payload
that does not parse is refused, and is in the log afterwards. -/
theorem failed_addEntry_not_atomic :
    (∃ l', contacted.addEntry 2 0 [] true = .ok (l', none) ∧ ¬contacted.SameState l') ∧
      ∃ l', contacted.addEntry 2 1 [255] true = .ok (l', none) ∧ ¬contacted.SameState l' := by
  refine ⟨⟨_, rfl, fun h => ?_⟩, _, rfl, fun h => ?_⟩
  · exact absurd h.digest_eq (by decide +kernel)
  · exact absurd h.log_eq (by decide +kernel)

end

/-! ### A rejected snapshot -/

end Log

/-- What is left of an application where `applySnapshot` throws.  The other two methods that a
state transfer calls do not throw. -/
class Interruptible (A : Type) [Application A] where
  interrupted : A → Bytes → Bytes → ℕ → A
  execute_ne (a : A) (request : Bytes) (idx : ℕ) :
    Application.execute a request idx ≠ .error .runtimeError
  abort_ne (a : A) (idx : ℕ) : Application.abort a idx ≠ .error .runtimeError

/-- Where `std::stoi` throws, the position before it has been assigned. -/
instance [CounterCodec] : Interruptible Counter where
  interrupted a snapshot _ _ :=
    match Counter.stoull (snapshot.takeWhile (· != 44)) with
    | .ok committedIdx => { a with committedIdx := committedIdx % 2 ^ 32 }
    | .error _ => a
  execute_ne a request idx := by
    show Counter.execute a request idx ≠ _
    rw [Counter.execute]
    split
    · simp
    · simp
    · dsimp only
      split_ifs <;> simp
  abort_ne a idx := by
    show Except.ok (Counter.abort a idx) ≠ _
    simp

instance [KVCodec] [Sha256] [UnorderedWalk] : Interruptible KVStore where
  interrupted a _ _ _ := a
  execute_ne a request idx := by
    show KVStore.execute a request idx ≠ _
    rw [KVStore.execute]
    split
    · simp
    · split_ifs <;> simp
  abort_ne a idx := by
    show KVStore.abort a idx ≠ _
    rw [KVStore.abort]
    split
    · simp
    · split_ifs <;> simp

namespace Log

section

variable {A : Type} {l l' : Log A} [Application A] [Interruptible A]

/-- The application where `applySnapshot` throws on the snapshot of a reply. -/
def interruptedApp (l : Log A) (reply : SnapshotReply) : A :=
  match reply.snapshot, reply.snapshotCheckpoint with
  | some snapshot, some p => Interruptible.interrupted l.app snapshot p.appDigest p.seq
  | _, _ => l.app

/-- The application rejects the snapshot of a reply: `applySnapshot` returns `false`, or it
throws and has changed nothing. -/
def Refuses (l : Log A) (reply : SnapshotReply) : Prop :=
  ∃ snapshot p, reply.snapshot = some snapshot ∧ reply.snapshotCheckpoint = some p ∧
    (Application.applySnapshot l.app snapshot p.appDigest p.seq = .ok none ∨
      Application.applySnapshot l.app snapshot p.appDigest p.seq = .error .runtimeError ∧
        l.interruptedApp reply = l.app)

variable [Sha256] [PaddedRequestData]

/-- The log where `resetToSnapshot` throws: `applySnapshot` throws, or the digests are not the
same. -/
def thrown (l : Log A) (reply : SnapshotReply) : Option (Log A) :=
  match LogCheckpoint.ofProto reply.checkpoint with
  | .error _ => none
  | .ok checkpoint =>
    match l.startSnapshot reply checkpoint with
    | .error .runtimeError => some { l with app := l.interruptedApp reply }
    | .ok (some (started, startSeq)) =>
      match addEntries startSeq started reply.logEntries with
      | .ok (added, true) =>
        if added.getDigest ≠ checkpoint.logDigest then
          some { added with clientRecord := checkpoint.clientRecord }
        else none
      | _ => none
    | _ => none

/-- A function that takes a snapshot returns `false` or throws, and leaves the log `l'`. -/
def Rejected (apply : Log A → SnapshotReply → Except Fault (Log A × Bool)) (l : Log A)
    (reply : SnapshotReply) (l' : Log A) : Prop :=
  apply l reply = .ok (l', false) ∨
    apply l reply = .error .runtimeError ∧ l.thrown reply = some l'

omit [Application A] [Interruptible A] [Sha256] [PaddedRequestData] in
lemma ofProto_ne_throw (p : LogCheckpointProto) :
    LogCheckpoint.ofProto p ≠ .error .runtimeError := by
  rw [LogCheckpoint.ofProto]
  split <;> simp

lemma append_ne_throw (l : Log A) (c s : UInt32) (req : Bytes) :
    l.append c s req ≠ .error .runtimeError := by
  intro h
  rcases bind_eq_error.mp h with h | ⟨d, -, h⟩
  · exact absurd (prevDigest_error_iff.mp h).1 (by simp)
  · cases hreq : reqData req with
    | none =>
        rw [hreq] at h
        cases h
    | some data =>
        rw [hreq] at h
        rcases bind_eq_error.mp h with h | ⟨x, -, h⟩
        · exact Interruptible.execute_ne _ _ _ h
        · cases h

lemma addEntry_ne_throw (l : Log A) (c s : UInt32) (req : Bytes) (checkDup : Bool) :
    l.addEntry c s req checkDup ≠ .error .runtimeError := by
  rw [addEntry]
  dsimp only
  split_ifs
  · exact append_ne_throw _ _ _ _
  · simp
  · exact append_ne_throw _ _ _ _

lemma addEntries_ne_throw (startSeq : ℕ) (l : Log A) (es : List LogEntryProto) :
    addEntries startSeq l es ≠ .error .runtimeError := by
  induction es generalizing l with
  | nil => simp [addEntries]
  | cons e es ih =>
      rw [addEntries]
      split_ifs
      · exact ih l
      · intro h
        rcases bind_eq_error.mp h with h | ⟨⟨l₁, res⟩, -, h⟩
        · exact addEntry_ne_throw _ _ _ _ _ h
        · cases res with
          | none => cases h
          | some res => exact ih l₁ h

omit [Sha256] [PaddedRequestData] in
lemma abort_ne_throw {p : ℕ} (hp : l.committedCheckpoint.seq < p) :
    l.abort p ≠ .error .runtimeError := by
  rw [abort]
  split_ifs with hnext hcommit
  · simp
  · omega
  · intro h
    rcases bind_eq_error.mp h with h | ⟨log, -, h⟩
    · rw [eraseFrom] at h
      split at h
      · cases h
      · split_ifs at h <;> cases h
    · rcases bind_eq_error.mp h with h | ⟨app, -, h⟩
      · exact Interruptible.abort_ne _ _ h
      · cases h

omit [Sha256] [PaddedRequestData] in
/-- The first part of `resetToSnapshot` throws where the application does. -/
lemma startSnapshot_throws_iff {reply : SnapshotReply} {cp : LogCheckpoint} :
    l.startSnapshot reply cp = .error .runtimeError ↔
      ∃ snapshot p, reply.snapshot = some snapshot ∧ reply.snapshotCheckpoint = some p ∧
        (∃ scp, LogCheckpoint.ofProto p = .ok scp) ∧
        Application.applySnapshot l.app snapshot p.appDigest p.seq = .error .runtimeError := by
  rw [startSnapshot]
  cases reply.snapshot with
  | none =>
      simp only [reduceCtorEq, false_and, exists_false, iff_false]
      intro h
      rcases bind_eq_error.mp h with h | ⟨l₁, -, h⟩
      · exact abort_ne_throw (Nat.lt_succ_self _) h
      · cases h
  | some snapshot =>
      cases reply.snapshotCheckpoint with
      | none => simp
      | some p =>
          simp only [Option.some.injEq, exists_and_left, exists_eq_left', bind_eq_error]
          constructor
          · rintro (h | ⟨scp, hscp, h | ⟨app?, -, h⟩⟩)
            · exact absurd h (ofProto_ne_throw p)
            · obtain ⟨hseq, -, hdigest, -⟩ := LogCheckpoint.ofProto_eq hscp
              exact ⟨⟨scp, hscp⟩, hdigest ▸ hseq ▸ h⟩
            · cases app? <;> cases h
          · rintro ⟨⟨scp, hscp⟩, h⟩
            obtain ⟨hseq, -, hdigest, -⟩ := LogCheckpoint.ofProto_eq hscp
            exact .inr ⟨scp, hscp, .inl (hdigest ▸ hseq ▸ h)⟩

omit [Interruptible A] [Sha256] [PaddedRequestData] in
/-- The first part of `resetToSnapshot` returns `false` where the application does. -/
lemma startSnapshot_refused {reply : SnapshotReply} {cp : LogCheckpoint}
    (h : l.startSnapshot reply cp = .ok none) :
    ∃ snapshot p, reply.snapshot = some snapshot ∧ reply.snapshotCheckpoint = some p ∧
      Application.applySnapshot l.app snapshot p.appDigest p.seq = .ok none := by
  rw [startSnapshot] at h
  cases hsnap : reply.snapshot with
  | none =>
      rw [hsnap] at h
      obtain ⟨l₁, -, h⟩ := bind_eq_ok.mp h
      cases pure_eq_ok.mp h
  | some snapshot =>
      rw [hsnap] at h
      cases hp : reply.snapshotCheckpoint with
      | none =>
          rw [hp] at h
          cases h
      | some p =>
          rw [hp] at h
          obtain ⟨scp, hscp, h⟩ := bind_eq_ok.mp h
          obtain ⟨app?, happ, h⟩ := bind_eq_ok.mp h
          obtain ⟨hseq, -, hdigest, -⟩ := LogCheckpoint.ofProto_eq hscp
          cases app? with
          | none => exact ⟨snapshot, p, rfl, rfl, hdigest ▸ hseq ▸ happ⟩
          | some app => cases pure_eq_ok.mp h

/-- `thrown` has a log exactly where `resetToSnapshot` throws. -/
lemma resetToSnapshot_throws_iff {reply : SnapshotReply} :
    l.resetToSnapshot reply = .error .runtimeError ↔ (l.thrown reply).isSome := by
  rw [resetToSnapshot, thrown]
  cases hcp : LogCheckpoint.ofProto reply.checkpoint with
  | error fault =>
      have hfault : fault ≠ .runtimeError := fun hf => ofProto_ne_throw _ (hf ▸ hcp)
      simpa using hfault
  | ok cp =>
      rw [ok_bind]
      dsimp only
      cases hstart : l.startSnapshot reply cp with
      | error fault => cases fault <;> simp
      | ok start =>
          rw [ok_bind]
          cases start with
          | none => simp [pure, Except.pure]
          | some start =>
              dsimp only
              cases hadd : addEntries start.2 start.1 reply.logEntries with
              | error fault =>
                  have hfault : fault ≠ .runtimeError := fun hf =>
                    addEntries_ne_throw _ _ _ (hf ▸ hadd)
                  simpa using hfault
              | ok added =>
                  obtain ⟨l₂, ok⟩ := added
                  cases ok with
                  | false => simp [pure, Except.pure]
                  | true =>
                      simp only [ok_bind, finishSnapshot]
                      split_ifs <;> simp

/-- `applySnapshotModifyLog` is rejected where `resetToSnapshot` is. -/
lemma rejected_resetToSnapshot {reply : SnapshotReply}
    (h : Rejected applySnapshotModifyLog l reply l') : Rejected resetToSnapshot l reply l' := by
  rcases h with h | ⟨h, hthrown⟩
  · obtain ⟨cp, -, h⟩ := bind_eq_ok.mp h
    obtain ⟨⟨l₁, ok⟩, hreset, h⟩ := bind_eq_ok.mp h
    cases ok with
    | false =>
        cases pure_eq_ok.mp h
        exact .inl hreset
    | true =>
        obtain ⟨l₂, -, h⟩ := bind_eq_ok.mp h
        cases pure_eq_ok.mp h
  · exact .inr ⟨resetToSnapshot_throws_iff.mpr (by rw [hthrown]; rfl), hthrown⟩

/-- Where `resetToSnapshot` throws, it is the application that does, or the log has taken over
the checkpoint of the reply. -/
lemma thrown_cases {reply : SnapshotReply} (h : l.thrown reply = some l') :
    ((∃ snapshot p, reply.snapshot = some snapshot ∧ reply.snapshotCheckpoint = some p ∧
        Application.applySnapshot l.app snapshot p.appDigest p.seq = .error .runtimeError) ∧
        l' = { l with app := l.interruptedApp reply }) ∨
      LogCheckpoint.ofProto reply.checkpoint = .ok l'.committedCheckpoint ∧
        ∃ cp x, l.startSnapshot reply cp = .ok (some x) := by
  rw [thrown] at h
  split at h
  · cases h
  · rename_i cp hcp
    split at h
    · rename_i hstart
      obtain ⟨snapshot, p, hsnap, hp, -, happ⟩ := startSnapshot_throws_iff.mp hstart
      cases h
      exact .inl ⟨⟨snapshot, p, hsnap, hp, happ⟩, rfl⟩
    · rename_i l₁ startSeq hstart
      split at h
      · rename_i l₂ hadd
        split_ifs at h
        cases h
        have hcommitted := (addEntries_checkpoints hadd).2.trans (startSnapshot_committed hstart)
        exact .inr ⟨hcp.trans (congrArg Except.ok hcommitted.symm), cp, _, hstart⟩
      · cases h
    · cases h

omit [Sha256] [PaddedRequestData] in
lemma Refuses.start_ne {reply : SnapshotReply} (h : l.Refuses reply) (cp : LogCheckpoint)
    (x : Log A × ℕ) : l.startSnapshot reply cp ≠ .ok (some x) := by
  obtain ⟨snapshot, p, hsnap, hp, happ⟩ := h
  rw [startSnapshot, hsnap, hp]
  intro hstart
  obtain ⟨scp, hscp, hstart⟩ := bind_eq_ok.mp hstart
  obtain ⟨app?, happly, hstart⟩ := bind_eq_ok.mp hstart
  obtain ⟨hseq, -, hdigest, -⟩ := LogCheckpoint.ofProto_eq hscp
  rw [hseq, hdigest] at happly
  rcases happ with happ | ⟨happ, -⟩
  · cases happ.symm.trans happly
    cases pure_eq_ok.mp hstart
  · cases happ.symm.trans happly

omit [Interruptible A] in
/-- Where `resetToSnapshot` returns `false`, the application has refused the snapshot, or the
log has taken over the checkpoint of the reply. -/
lemma resetToSnapshot_false_cases {reply : SnapshotReply}
    (h : l.resetToSnapshot reply = .ok (l', false)) :
    (∃ cp, l.startSnapshot reply cp = .ok none) ∧ l' = l ∨
      LogCheckpoint.ofProto reply.checkpoint = .ok l'.committedCheckpoint ∧
        ∃ cp x, l.startSnapshot reply cp = .ok (some x) := by
  obtain ⟨cp, hcp, h⟩ := bind_eq_ok.mp h
  obtain ⟨start, hstart, h⟩ := bind_eq_ok.mp h
  cases start with
  | none =>
      cases pure_eq_ok.mp h
      exact .inl ⟨⟨cp, hstart⟩, rfl⟩
  | some start =>
      obtain ⟨⟨l₂, ok⟩, hadd, h⟩ := bind_eq_ok.mp h
      cases ok with
      | false =>
          cases pure_eq_ok.mp h
          have hcommitted := (addEntries_checkpoints hadd).2.trans (startSnapshot_committed hstart)
          exact .inr ⟨hcp.trans (congrArg Except.ok hcommitted.symm), cp, _, hstart⟩
      | true => exact absurd (finishSnapshot_eq h).1 (by simp)

/-- **A rejected snapshot leaves the log as it was** if the application is what rejects it.
Otherwise the log has taken over the checkpoint of the reply, so that it is as before at most
where it had that checkpoint already. -/
theorem rejected_snapshot_intact
    {apply : Log A → SnapshotReply → Except Fault (Log A × Bool)}
    (happly : apply = resetToSnapshot ∨ apply = applySnapshotModifyLog) {reply : SnapshotReply}
    (h : Rejected apply l reply l') :
    (l.Refuses reply → l' = l) ∧
      (LogCheckpoint.ofProto reply.checkpoint ≠ .ok l.committedCheckpoint → l' = l →
        l.Refuses reply) := by
  have hreset : Rejected resetToSnapshot l reply l' := by
    rcases happly with rfl | rfl
    · exact h
    · exact rejected_resetToSnapshot h
  rcases hreset with hfalse | ⟨-, hthrown⟩
  · rcases resetToSnapshot_false_cases hfalse with
      ⟨⟨cp, hstart⟩, hsame⟩ | ⟨hcommitted, cp, x, hstart⟩
    · obtain ⟨snapshot, p, hsnap, hp, happ⟩ := startSnapshot_refused hstart
      exact ⟨fun _ => hsame, fun _ _ => ⟨snapshot, p, hsnap, hp, .inl happ⟩⟩
    · exact ⟨fun hrefuses => absurd hstart (hrefuses.start_ne cp x),
        fun hne hsame => absurd (hsame ▸ hcommitted) hne⟩
  · rcases thrown_cases hthrown with ⟨⟨snapshot, p, hsnap, hp, happ⟩, hsame⟩ |
      ⟨hcommitted, cp, x, hstart⟩
    · refine ⟨fun hrefuses => ?_, fun _ hsame' => ⟨snapshot, p, hsnap, hp, .inr ⟨happ, ?_⟩⟩⟩
      · obtain ⟨snapshot', p', hsnap', hp', happ'⟩ := hrefuses
        rw [hsnap] at hsnap'
        rw [hp] at hp'
        cases hsnap'
        cases hp'
        rcases happ' with happ' | ⟨-, hinterrupted⟩
        · cases happ.symm.trans happ'
        · rw [hsame, hinterrupted]
      · exact congrArg Log.app (hsame.symm.trans hsame')
    · exact ⟨fun hrefuses => absurd hstart (hrefuses.start_ne cp x),
        fun hne hsame => absurd (hsame ▸ hcommitted) hne⟩

end

section

attribute [local instance] prefixSha shortPaddedRequestData counterWire

/-- A reply for position `5` with the given snapshot of the application. -/
def snapshotFor (snapshot : Bytes) : SnapshotReply where
  seq := 5
  checkpoint := { seq := 5 }
  snapshotCheckpoint := some { seq := 5 }
  snapshot := some snapshot

/-- A snapshot that does not begin with a number is rejected, and nothing has changed. -/
theorem garbled_snapshot_intact :
    ∃ l', Rejected resetToSnapshot contacted (snapshotFor [120]) l' ∧ l' = contacted := by
  have hrejected : Rejected resetToSnapshot contacted (snapshotFor [120])
      { contacted with app := contacted.interruptedApp (snapshotFor [120]) } :=
    .inr ⟨rfl, rfl⟩
  exact ⟨_, hrejected, (rejected_snapshot_intact (.inl rfl) hrejected).1
    ⟨[120], { seq := 5 }, rfl, rfl, .inr ⟨rfl, rfl⟩⟩⟩

/-- An entry that does not parse is found after the checkpoint has been replaced, and stays in
the log; where the digests differ, the client record has been replaced as well; a snapshot
whose value is not a number is found after its position has been taken over. -/
theorem rejected_snapshot_not_intact :
    (∃ l', contacted.resetToSnapshot
        { seq := 1, checkpoint := { seq := 1 }, logEntries := [{ seq := 1, request := some [255] }] } =
          .ok (l', false) ∧
        l'.committedCheckpoint.seq ≠ contacted.committedCheckpoint.seq ∧ l'.log ≠ contacted.log) ∧
      (∃ l', Rejected applySnapshotModifyLog contacted
          { seq := 1, checkpoint := { seq := 1, logDigest := [1] } } l' ∧
        l'.committedCheckpoint.seq ≠ contacted.committedCheckpoint.seq ∧
        l'.clientRecord.digest ≠ contacted.clientRecord.digest) ∧
      ∃ l', Rejected resetToSnapshot contacted (snapshotFor [53, 44, 120]) l' ∧
        l'.app.committedIdx ≠ contacted.app.committedIdx := by
  refine ⟨⟨_, rfl, ?_, ?_⟩, ⟨_, .inr ⟨rfl, rfl⟩, ?_, ?_⟩, _, .inr ⟨rfl, rfl⟩, ?_⟩
  · decide
  · decide
  · decide
  · decide +kernel
  · decide

end

end Log

end DomBft
