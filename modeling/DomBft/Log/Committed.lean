import DomBft.Log.Operations

/-!
The committed checkpoint of a log, whether the log is well formed or not: which operations
replace it, and by what.

* `SameCheckpoints`: what most operations do to the committed and the stable checkpoint.
* `setCheckpoint_committed`: it moves forward only.
* `resetToSnapshot_committed`, `applySnapshotModifyLog_committed`: it becomes that of the reply.
* `Grows`: the operations outside repairs, none of which cuts or replaces the log;
  `Grows.committed_le` says what follows.
-/

namespace DomBft.Log

open Fallible

variable {A : Type} {l l' l'' : Log A}

/-! ### The operations that keep it -/

/-- Both checkpoints stay as they are. -/
def SameCheckpoints (l l' : Log A) : Prop :=
  l'.stableCheckpoint = l.stableCheckpoint ∧ l'.committedCheckpoint = l.committedCheckpoint

lemma SameCheckpoints.refl (l : Log A) : SameCheckpoints l l := ⟨rfl, rfl⟩

lemma SameCheckpoints.trans (h : SameCheckpoints l l') (h' : SameCheckpoints l' l'') :
    SameCheckpoints l l'' :=
  ⟨h'.1.trans h.1, h'.2.trans h.2⟩

section

variable [Application A] [Sha256] [PaddedRequestData]

lemma append_checkpoints {c s : UInt32} {req : Bytes} {res : Option Bytes}
    (h : l.append c s req = .ok (l', res)) : SameCheckpoints l l' := by
  obtain ⟨d, -, h⟩ := bind_eq_ok.mp h
  cases hreq : reqData req with
  | none =>
      rw [hreq] at h
      cases pure_eq_ok.mp h
      exact ⟨rfl, rfl⟩
  | some data =>
      rw [hreq] at h
      obtain ⟨_, -, h⟩ := bind_eq_ok.mp h
      cases pure_eq_ok.mp h
      exact ⟨rfl, rfl⟩

lemma addEntry_checkpoints {c s : UInt32} {req : Bytes} {checkDup : Bool} {res : Option Bytes}
    (h : l.addEntry c s req checkDup = .ok (l', res)) : SameCheckpoints l l' := by
  rw [addEntry] at h
  dsimp only at h
  split_ifs at h
  · exact append_checkpoints (l := { l with clientRecord := (l.clientRecord.update c s).1 }) h
  · cases Except.ok.inj h
    exact ⟨rfl, rfl⟩
  · exact append_checkpoints h

lemma addEntries_checkpoints {startSeq : ℕ} {es : List LogEntryProto} {ok : Bool}
    (h : addEntries startSeq l es = .ok (l', ok)) : SameCheckpoints l l' := by
  induction es generalizing l with
  | nil =>
      cases Except.ok.inj h
      exact .refl _
  | cons e es ih =>
      rw [addEntries] at h
      split_ifs at h
      · exact ih h
      · obtain ⟨⟨l₁, res⟩, hadd, h⟩ := bind_eq_ok.mp h
        cases res with
        | none =>
            cases pure_eq_ok.mp h
            exact addEntry_checkpoints hadd
        | some _ => exact (addEntry_checkpoints hadd).trans (ih h)

lemma reapply_checkpoints {es : List LogEntry} (h : reapply l es = .ok l') :
    SameCheckpoints l l' := by
  induction es generalizing l with
  | nil =>
      cases Except.ok.inj h
      exact .refl _
  | cons e es ih =>
      obtain ⟨⟨l₁, res⟩, hadd, h⟩ := bind_eq_ok.mp h
      exact (addEntry_checkpoints hadd).trans (ih h)

end

lemma addCert_checkpoints {seq : ℕ} {cert : Cert} {ok : Bool}
    (h : l.addCert seq cert = .ok (l', ok)) : SameCheckpoints l l' := by
  rcases addCert_cases h with rfl | rfl <;> exact ⟨rfl, rfl⟩

lemma setDeadline_checkpoints {seq deadline : ℕ} (h : l.setDeadline seq deadline = .ok l') :
    SameCheckpoints l l' := by
  obtain ⟨i, rfl⟩ := setDeadline_eq h
  exact ⟨rfl, rfl⟩

/-! ### The operations that replace it -/

section

variable [Application A]

lemma abort_nextSeq {p : ℕ} (h : l.abort p = .ok l') : l'.nextSeq = p ∧
    l'.stableCheckpoint = l.stableCheckpoint ∧
    l'.committedCheckpoint = l.committedCheckpoint := by
  rw [abort] at h
  split_ifs at h
  · cases h
    exact ⟨rfl, rfl, rfl⟩
  · obtain ⟨log, -, h⟩ := bind_eq_ok.mp h
    obtain ⟨app, -, h⟩ := bind_eq_ok.mp h
    cases pure_eq_ok.mp h
    exact ⟨rfl, rfl, rfl⟩

/-- `setCheckpoint` takes the checkpoint over if it is a later one. -/
lemma setCheckpoint_committed {cp : LogCheckpoint} (h : l.setCheckpoint cp = .ok l') :
    l.committedCheckpoint.seq < cp.seq ∧ l'.committedCheckpoint = cp ∨
      cp.seq ≤ l.committedCheckpoint.seq ∧ l'.committedCheckpoint = l.committedCheckpoint := by
  obtain ⟨l₁, hcommit, h⟩ := bind_eq_ok.mp h
  have hl' : l'.committedCheckpoint = l₁.committedCheckpoint := by
    rw [stabilizeCheckpoint] at h
    by_cases hstab : cp.appDigest ≠ [] ∧ l₁.stableCheckpoint.seq < cp.seq
    · rw [if_pos hstab] at h
      obtain ⟨log, -, h⟩ := bind_eq_ok.mp h
      split_ifs at h
      cases pure_eq_ok.mp h
      rfl
    · rw [if_neg hstab] at h
      cases Except.ok.inj h
      rfl
  rw [hl']
  rw [commitCheckpoint] at hcommit
  split_ifs at hcommit with hlt
  · obtain ⟨app, -, hcommit⟩ := bind_eq_ok.mp hcommit
    cases pure_eq_ok.mp hcommit
    exact .inl ⟨hlt, rfl⟩
  · cases Except.ok.inj hcommit
    exact .inr ⟨not_lt.mp hlt, rfl⟩

variable [Sha256] [PaddedRequestData]

omit [PaddedRequestData] [Sha256] in
lemma startSnapshot_committed {reply : SnapshotReply} {cp : LogCheckpoint} {startSeq : ℕ}
    (h : l.startSnapshot reply cp = .ok (some (l', startSeq))) : l'.committedCheckpoint = cp := by
  rw [startSnapshot] at h
  split at h
  · split at h
    · cases h
    · obtain ⟨scp, -, h⟩ := bind_eq_ok.mp h
      obtain ⟨app?, -, h⟩ := bind_eq_ok.mp h
      cases app? with
      | none => cases pure_eq_ok.mp h
      | some app =>
          cases pure_eq_ok.mp h
          rfl
  · obtain ⟨l₁, -, h⟩ := bind_eq_ok.mp h
    cases pure_eq_ok.mp h
    rfl

/-- **After a reset the committed checkpoint is that of the reply**, whatever it was. -/
lemma resetToSnapshot_committed {reply : SnapshotReply}
    (h : l.resetToSnapshot reply = .ok (l', true)) :
    LogCheckpoint.ofProto reply.checkpoint = .ok l'.committedCheckpoint := by
  obtain ⟨cp, hcp, h⟩ := bind_eq_ok.mp h
  obtain ⟨start, hstart, h⟩ := bind_eq_ok.mp h
  cases start with
  | none => cases pure_eq_ok.mp h
  | some start =>
      obtain ⟨⟨l₂, ok⟩, hadd, h⟩ := bind_eq_ok.mp h
      cases ok with
      | false => cases pure_eq_ok.mp h
      | true =>
          obtain ⟨-, -, rfl⟩ := finishSnapshot_eq h
          rw [hcp]
          exact congrArg Except.ok
            ((addEntries_checkpoints hadd).2.trans (startSnapshot_committed hstart)).symm

lemma applySnapshotModifyLog_committed {reply : SnapshotReply}
    (h : l.applySnapshotModifyLog reply = .ok (l', true)) :
    LogCheckpoint.ofProto reply.checkpoint = .ok l'.committedCheckpoint := by
  obtain ⟨cp, -, h⟩ := bind_eq_ok.mp h
  obtain ⟨⟨l₁, ok⟩, hreset, h⟩ := bind_eq_ok.mp h
  cases ok with
  | false => cases pure_eq_ok.mp h
  | true =>
      obtain ⟨l₂, hreapply, h⟩ := bind_eq_ok.mp h
      cases pure_eq_ok.mp h
      rw [(reapply_checkpoints hreapply).2]
      exact resetToSnapshot_committed hreset

/-! ### Outside repairs -/

/-- What happens to a log outside repairs. -/
inductive Grows : Log A → Log A → Prop
  | refl (l : Log A) : Grows l l
  | addEntry {l l' l'' : Log A} {c s : UInt32} {req : Bytes} {res : Option Bytes} :
      Grows l l' → l'.addEntry c s req = .ok (l'', res) → Grows l l''
  | setDeadline {l l' l'' : Log A} {seq deadline : ℕ} :
      Grows l l' → l'.setDeadline seq deadline = .ok l'' → Grows l l''
  | addCert {l l' l'' : Log A} {seq : ℕ} {cert : Cert} {ok : Bool} :
      Grows l l' → l'.addCert seq cert = .ok (l'', ok) → Grows l l''
  | setCheckpoint {l l' l'' : Log A} {cp : LogCheckpoint} :
      Grows l l' → l'.setCheckpoint cp = .ok l'' → Grows l l''

namespace Grows

lemma trans (h : Grows l l') (h' : Grows l' l'') : Grows l l'' := by
  induction h' with
  | refl => exact h
  | addEntry _ hop ih => exact ih.addEntry hop
  | setDeadline _ hop ih => exact ih.setDeadline hop
  | addCert _ hop ih => exact ih.addCert hop
  | setCheckpoint _ hop ih => exact ih.setCheckpoint hop

/-- The committed checkpoint does not go back. -/
lemma committed_le (h : Grows l l') :
    l.committedCheckpoint.seq ≤ l'.committedCheckpoint.seq := by
  induction h with
  | refl => exact le_rfl
  | addEntry _ hop ih => rwa [(addEntry_checkpoints hop).2]
  | setDeadline _ hop ih => rwa [(setDeadline_checkpoints hop).2]
  | addCert _ hop ih => rwa [(addCert_checkpoints hop).2]
  | setCheckpoint _ hop ih =>
      rcases setCheckpoint_committed hop with ⟨hlt, heq⟩ | ⟨-, heq⟩
      · rw [heq]
        exact ih.trans hlt.le
      · rwa [heq]

end Grows

end

end DomBft.Log
