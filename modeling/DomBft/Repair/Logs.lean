import DomBft.Log.History
import DomBft.RepairUtils

/-!
Start messages of correct replicas: `Log::toProto` of a log that represents a history, as a
function of the history alone.

* `historyEntries`: the entries of a history behind a position, as they are sent;
  `copyEntries_historyEntries` and `filter_historyEntries` say what the loops of
  `getLogSuffixFromProposal` make of them.
* `RepairLog.Describes`: the log in a start message describes a history;
  `Represents.describes` is the connection to `Log::toProto`.
-/

namespace DomBft

variable [Sha256]

/-- The entry of the request `a` at position `p` of the history `h`, as it is sent. -/
def historyEntry (full : Bool) (h : List Request) (p : ℕ) (a : Request) : LogEntryProto where
  seq := p
  clientId := a.clientId
  clientSeq := a.clientSeq
  digest := logDigest (h.take p)
  request := if full then some a.request else none
  requestDigest := sha256 a.request

@[simp] lemma historyEntry_seq (full : Bool) (h : List Request) (p : ℕ) (a : Request) :
    (historyEntry full h p a).seq = p := rfl

/-- The entries of the requests `as` behind position `p` of the history `h`. -/
def historyEntries (full : Bool) (h : List Request) : ℕ → List Request → List LogEntryProto
  | _, [] => []
  | p, a :: as => historyEntry full h (p + 1) a :: historyEntries full h (p + 1) as

section

variable {full : Bool} {h : List Request}

lemma getElem?_historyEntries (p : ℕ) (as : List Request) (i : ℕ) :
    (historyEntries full h p as)[i]? = (as[i]?).map (historyEntry full h (p + i + 1)) := by
  induction as generalizing p i with
  | nil => rfl
  | cons a as ih =>
      cases i with
      | zero => rfl
      | succ i =>
          rw [historyEntries, List.getElem?_cons_succ, List.getElem?_cons_succ, ih,
            Nat.add_right_comm p 1 i, Nat.add_assoc p i 1]

@[simp] lemma length_historyEntries (p : ℕ) (as : List Request) :
    (historyEntries full h p as).length = as.length := by
  induction as generalizing p with
  | nil => rfl
  | cons a as ih => rw [historyEntries, List.length_cons, List.length_cons, ih]

/-- With full requests, the requests can be read back. -/
lemma toRequest_historyEntries (p : ℕ) (as : List Request) :
    (historyEntries true h p as).map LogEntryProto.toRequest = as := by
  induction as generalizing p with
  | nil => rfl
  | cons a as ih => rw [historyEntries, List.map_cons, ih]; rfl

lemma mem_historyEntries {p : ℕ} {as : List Request} {e : LogEntryProto}
    (he : e ∈ historyEntries full h p as) :
    ∃ i a, as[i]? = some a ∧ e = historyEntry full h (p + i + 1) a := by
  obtain ⟨i, hi⟩ := List.mem_iff_getElem?.mp he
  rw [getElem?_historyEntries, Option.map_eq_some_iff] at hi
  obtain ⟨a, ha, rfl⟩ := hi
  exact ⟨i, a, ha, rfl⟩

/-- The positions of the entries. -/
lemma lt_seq_of_mem_historyEntries {p : ℕ} {as : List Request} {e : LogEntryProto}
    (he : e ∈ historyEntries full h p as) : p < e.seq := by
  obtain ⟨i, a, -, rfl⟩ := mem_historyEntries he
  exact (by omega : p < p + i + 1)

/-- The entries above a position. -/
lemma filter_historyEntries (p lo : ℕ) (as : List Request) (hlo : p ≤ lo) :
    (historyEntries full h p as).filter (lo < ·.seq) =
      historyEntries full h lo (as.drop (lo - p)) := by
  rcases Nat.eq_or_lt_of_le hlo with rfl | hlt
  · rw [Nat.sub_self, List.drop_zero]
    exact List.filter_eq_self.mpr fun e he => by simpa using lt_seq_of_mem_historyEntries he
  · cases as with
    | nil => rw [List.drop_nil]; rfl
    | cons a as =>
        rw [historyEntries, List.filter_cons_of_neg (by simpa using hlt),
          filter_historyEntries (p + 1) lo as hlt, show lo - p = lo - (p + 1) + 1 by omega,
          List.drop_succ_cons]

lemma copyEntries_historyEntries_of_le (p lo hi : ℕ) (as : List Request) (hlo : lo ≤ p) :
    copyEntries lo hi (historyEntries full h p as) =
      historyEntries full h p (as.take (hi - p)) := by
  induction as generalizing p with
  | nil => rw [List.take_nil]; rfl
  | cons a as ih =>
      rw [historyEntries, copyEntries, historyEntry_seq, if_neg (by omega)]
      by_cases hhi : hi < p + 1
      · rw [if_pos hhi, show hi - p = 0 by omega, List.take_zero]
        rfl
      · rw [if_neg hhi, ih (p + 1) (by omega), show hi - p = hi - (p + 1) + 1 by omega,
          List.take_succ_cons, historyEntries]

/-- The entries above one position and up to another one. -/
lemma copyEntries_historyEntries (p lo hi : ℕ) (as : List Request) (hlo : p ≤ lo) :
    copyEntries lo hi (historyEntries full h p as) =
      historyEntries full h lo ((as.drop (lo - p)).take (hi - lo)) := by
  rcases Nat.eq_or_lt_of_le hlo with rfl | hlt
  · rw [Nat.sub_self, List.drop_zero, copyEntries_historyEntries_of_le p p hi as le_rfl]
  · cases as with
    | nil => rw [List.drop_nil, List.take_nil]; rfl
    | cons a as =>
        rw [historyEntries, copyEntries, historyEntry_seq, if_pos (Nat.succ_le_of_lt hlt),
          copyEntries_historyEntries (p + 1) lo hi as hlt,
          show lo - p = lo - (p + 1) + 1 by omega, List.drop_succ_cons]

end

/-! ### Logs that describe a history -/

/-- The log of a start message describes the history `h`: its checkpoint is a point of `h`,
and its entries are the rest. -/
structure RepairLog.Describes (full : Bool) (log : RepairLog) (h : List Request) : Prop where
  checkpoint_le : log.checkpoint.seq ≤ h.length
  checkpoint_digest : log.checkpoint.logDigest = logDigest (h.take log.checkpoint.seq)
  entries_eq : log.entries =
    historyEntries full h log.checkpoint.seq (h.drop log.checkpoint.seq)

/-- An entry is that of a request of the history. -/
lemma RepairLog.Describes.entry_eq {full : Bool} {log : RepairLog} {h : List Request}
    (hd : log.Describes full h) {e : LogEntryProto} (he : e ∈ log.entries) :
    0 < e.seq ∧ ∃ a, h[e.seq - 1]? = some a ∧ e = historyEntry full h e.seq a := by
  rw [hd.entries_eq] at he
  obtain ⟨i, a, ha, rfl⟩ := mem_historyEntries he
  rw [List.getElem?_drop] at ha
  exact ⟨Nat.succ_pos _, a, ha, rfl⟩

/-- **What a correct replica sends describes its history.** -/
theorem Log.Represents.describes {A : Type} {l : Log A} {h : List Request}
    (hr : l.Represents h) (full : Bool) : (l.toProto full).Describes full h := by
  have hstable := hr.stable_le
  have hcommitted := hr.committed_le
  have hseq : (l.toProto full).checkpoint.seq = l.committedCheckpoint.seq := by
    show l.committedCheckpoint.toProto.seq = _
    rw [LogCheckpoint.toProto]
    split
    · rfl
    · exact (by omega : (0 : ℕ) = l.committedCheckpoint.seq)
  refine ⟨hseq.le.trans hcommitted, ?_, ?_⟩
  · rw [hseq, ← hr.committed_digest]
    show l.committedCheckpoint.toProto.logDigest = _
    rw [LogCheckpoint.toProto]
    split
    · rfl
    · rw [hr.committed_digest, show l.committedCheckpoint.seq = 0 by omega]
      rfl
  · rw [hseq]
    show (l.log.filter (l.committedCheckpoint.seq + 1 ≤ ·.seq)).map (·.toProto full) = _
    rw [Log.filter_seq_eq_drop hr.seqs_eq, Nat.add_sub_add_right]
    refine List.ext_getElem? fun i => ?_
    rw [List.getElem?_map, List.getElem?_drop, getElem?_historyEntries, List.getElem?_drop]
    have hreq := congrArg (·[l.committedCheckpoint.seq - l.stableCheckpoint.seq + i]?) hr.requests
    simp only [List.getElem?_map, List.getElem?_drop] at hreq
    rw [show l.stableCheckpoint.seq + (l.committedCheckpoint.seq - l.stableCheckpoint.seq + i) =
      l.committedCheckpoint.seq + i by omega] at hreq
    rw [← hreq]
    cases he : l.log[l.committedCheckpoint.seq - l.stableCheckpoint.seq + i]? with
    | none => rfl
    | some e =>
        obtain ⟨heseq, -, hdigest⟩ := hr.entry he
        have hp : l.stableCheckpoint.seq +
            (l.committedCheckpoint.seq - l.stableCheckpoint.seq + i) + 1 =
            l.committedCheckpoint.seq + i + 1 := by omega
        rw [hp] at heseq hdigest
        rw [Option.map_some, Option.map_some, Option.map_some, LogEntry.toProto, historyEntry,
          heseq, hdigest]
        rfl

end DomBft
