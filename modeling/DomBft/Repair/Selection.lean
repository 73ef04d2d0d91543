import Mathlib.Data.List.TakeWhile
import DomBft.Repair.Logs
import DomBft.Lib.Fallible
import DomBft.Lib.Tally

/-!
What the loops of `getLogSuffixFromProposal` select, for arbitrary proposals.

* `getLogSuffix_cases`: the chosen checkpoint is one with the highest position, enough other
  logs match it, and the suffix consists of copied and remaining entries.
* `maxCert_of_none`: without certificates there is no position to copy up to.
* `matchEntries_eq`: the loop over the digests is `Tally.lastAt`, with a position and a
  digest as the key; `keys_numberedEntries` and `mem_numberedEntries` describe the list it
  runs over.
-/

namespace DomBft

open Fallible

/-! ### The checkpoint -/

lemma maxCheckpoint_cases {ms : List RepairStart} {best r : Option RepairStart}
    (h : maxCheckpoint ms best = .ok r) :
    (∀ m ∈ ms, m.log?.isSome) ∧
      (∀ m', m' ∈ ms ∨ best = some m' → ∃ m, r = some m ∧
        m'.log.checkpoint.seq ≤ m.log.checkpoint.seq) ∧
      ∀ m, r = some m → m ∈ ms ∨ best = some m := by
  induction ms generalizing best with
  | nil =>
      cases Except.ok.inj h
      refine ⟨by simp, fun m' hm' => ⟨m', by simpa using hm', le_rfl⟩, fun m hm => .inr hm⟩
  | cons a ms ih =>
      rw [maxCheckpoint] at h
      split at h
      · cases h
      rename_i hlog
      have hlog : a.log?.isSome := by
        rw [Option.isNone_iff_eq_none, ← ne_eq, Option.ne_none_iff_isSome] at hlog
        exact hlog
      split at h
      · rename_i hle
        obtain ⟨hlogs, hmax, hmem⟩ := ih h
        refine ⟨fun m hm => ?_, fun m' hm' => ?_, fun m hm => ?_⟩
        · rcases List.mem_cons.mp hm with rfl | hm
          · exact hlog
          · exact hlogs m hm
        · rcases hm' with hm' | rfl
          · rcases List.mem_cons.mp hm' with rfl | hm'
            · exact hmax _ (.inr rfl)
            · exact hmax m' (.inl hm')
          · obtain ⟨m, hr, hm⟩ := hmax a (.inr rfl)
            exact ⟨m, hr, le_trans (by simpa using hle) hm⟩
        · rcases hmem m hm with hm | hm
          · exact .inl (List.mem_cons_of_mem _ hm)
          · cases Option.some.inj hm
            exact .inl List.mem_cons_self
      · rename_i hgt
        obtain ⟨hlogs, hmax, hmem⟩ := ih h
        refine ⟨fun m hm => ?_, fun m' hm' => ?_, fun m hm => ?_⟩
        · rcases List.mem_cons.mp hm with rfl | hm
          · exact hlog
          · exact hlogs m hm
        · rcases hm' with hm' | hm'
          · rcases List.mem_cons.mp hm' with rfl | hm'
            · cases hbest : best with
              | none => simp [hbest] at hgt
              | some b =>
                  obtain ⟨m, hr, hm⟩ := hmax b (.inr hbest)
                  simp only [hbest, Option.all_some, decide_eq_true_eq, not_le] at hgt
                  exact ⟨m, hr, by omega⟩
            · exact hmax m' (.inl hm')
          · exact hmax m' (.inr hm')
        · rcases hmem m hm with hm | hm
          · exact .inl (List.mem_cons_of_mem _ hm)
          · exact .inr hm

/-- **What a successful `getLogSuffixFromProposal` has chosen.** -/
theorem getLogSuffix_cases [Sha256] {cfg : Config} {p : RepairProposal} {s : LogSuffix}
    (h : getLogSuffixFromProposal cfg p = .ok s) :
    ∃ m ∈ p.startMsgs, (∀ m' ∈ p.startMsgs, m'.log.checkpoint.seq ≤ m.log.checkpoint.seq) ∧
      s.checkpoint = m.log.checkpoint ∧ s.checkpointReplica = m.replicaId ∧
      cfg.f + cfg.e + 1 ≤ numMatches p.startMsgs m.replicaId m.log.checkpoint ∧
      s.entries = copiedEntries cfg p.startMsgs s.checkpoint.seq ++
        remainingEntries cfg p s.checkpoint.seq
          (copiedEntries cfg p.startMsgs s.checkpoint.seq) ∧
      s.logDigest = suffixDigest s.checkpoint s.entries := by
  obtain ⟨r, hr, h⟩ := bind_eq_ok.mp h
  obtain ⟨-, hmax, hmem⟩ := maxCheckpoint_cases hr
  cases r with
  | none => cases h
  | some m =>
      have hm : m ∈ p.startMsgs := by simpa using hmem m rfl
      replace h : (if numMatches p.startMsgs m.replicaId m.log.checkpoint < cfg.f + cfg.e + 1
        then Except.error Fault.exit else _) = .ok s := h
      split at h
      · cases h
      · rename_i hmatches
        cases pure_eq_ok.mp h
        refine ⟨m, hm, fun m' hm' => ?_, rfl, rfl, not_lt.mp hmatches, rfl, rfl⟩
        obtain ⟨_, hm'', hle⟩ := hmax m' (.inl hm')
        cases Option.some.inj hm''
        exact hle

/-! ### The certificate -/

lemma maxCert_of_none (checkpointSeq i : ℕ) {ms : List RepairStart} (best : ℕ × ℕ)
    (h : ∀ m ∈ ms, m.log.cert = none) : maxCert checkpointSeq i ms best = best := by
  induction ms generalizing i with
  | nil => rfl
  | cons m ms ih =>
      simp only [maxCert, h m List.mem_cons_self]
      exact ih (i + 1) fun m' hm' => h m' (List.mem_cons_of_mem _ hm')

/-- Which log has the highest certificate: none, if no certificate is above the checkpoint
and the best one so far, or the first one with the highest. -/
lemma maxCert_cases (c i : ℕ) (ms : List RepairStart) (best : ℕ × ℕ) :
    (maxCert c i ms best = best ∧ ∀ m ∈ ms, ∀ cert, m.log.cert = some cert →
        cert.seq ≤ c ∨ cert.seq ≤ best.2) ∨
      ∃ j m cert, ms[j]? = some m ∧ m.log.cert = some cert ∧
        maxCert c i ms best = (i + j, cert.seq) ∧ c < cert.seq ∧ best.2 < cert.seq ∧
        (∀ m' ∈ ms, ∀ cert', m'.log.cert = some cert' → cert'.seq ≤ cert.seq) ∧
        ∀ j' < j, ∀ m', ms[j']? = some m' → ∀ cert', m'.log.cert = some cert' →
          cert'.seq < cert.seq := by
  induction ms generalizing i best with
  | nil => exact .inl ⟨rfl, by simp⟩
  | cons m ms ih =>
      have hskip : (∀ cert, m.log.cert = some cert → cert.seq ≤ c ∨ cert.seq ≤ best.2) →
          maxCert c i (m :: ms) best = maxCert c (i + 1) ms best := by
        intro h
        rw [maxCert]
        cases hcert : m.log.cert with
        | none => rfl
        | some cert => exact if_pos (h cert hcert)
      by_cases hle : ∀ cert, m.log.cert = some cert → cert.seq ≤ c ∨ cert.seq ≤ best.2
      · rw [hskip hle]
        rcases ih (i + 1) best with ⟨hres, hall⟩ |
          ⟨j, m', cert, hm', hcert, hres, hc, hbest, hmax, hfirst⟩
        · refine .inl ⟨hres, fun m' hm' => ?_⟩
          rcases List.mem_cons.mp hm' with rfl | hm'
          · exact hle
          · exact hall m' hm'
        · have hlt : ∀ cert', m.log.cert = some cert' → cert'.seq < cert.seq := fun cert' h' => by
            have := hle cert' h'
            omega
          refine .inr ⟨j + 1, m', cert, hm', hcert, by rw [hres, Nat.add_right_comm, Nat.add_assoc],
            hc, hbest, fun m₁ hm₁ cert' h' => ?_, fun j' hj' m₁ hm₁ cert' h' => ?_⟩
          · rcases List.mem_cons.mp hm₁ with rfl | hm₁
            · exact (hlt cert' h').le
            · exact hmax m₁ hm₁ cert' h'
          · cases j' with
            | zero =>
                cases Option.some.inj hm₁
                exact hlt cert' h'
            | succ j' => exact hfirst j' (by omega) m₁ hm₁ cert' h'
      · push Not at hle
        obtain ⟨cert, hcert, hc, hbest⟩ := hle
        have hres : maxCert c i (m :: ms) best = maxCert c (i + 1) ms (i, cert.seq) := by
          rw [maxCert, hcert]
          exact if_neg (by omega)
        rw [hres]
        rcases ih (i + 1) (i, cert.seq) with ⟨hres, hall⟩ |
          ⟨j, m', cert', hm', hcert', hres, hc', hbest', hmax, hfirst⟩
        · refine .inr ⟨0, m, cert, rfl, hcert, hres, hc, hbest, fun m₁ hm₁ cert' h' => ?_,
            fun j' hj' => absurd hj' (Nat.not_lt_zero _)⟩
          rcases List.mem_cons.mp hm₁ with rfl | hm₁
          · rw [hcert] at h'
            exact (congrArg Cert.seq (Option.some.inj h')).ge
          · have := hall m₁ hm₁ cert' h'
            omega
        · have hlt : ∀ cert₁, m.log.cert = some cert₁ → cert₁.seq < cert'.seq := fun cert₁ h₁ => by
            rw [hcert] at h₁
            rw [← Option.some.inj h₁]
            exact hbest'
          refine .inr ⟨j + 1, m', cert', hm', hcert',
            by rw [hres, Nat.add_right_comm, Nat.add_assoc], hc', hbest.trans hbest',
            fun m₁ hm₁ cert₁ h₁ => ?_, fun j' hj' m₁ hm₁ cert₁ h₁ => ?_⟩
          · rcases List.mem_cons.mp hm₁ with rfl | hm₁
            · exact (hlt cert₁ h₁).le
            · exact hmax m₁ hm₁ cert₁ h₁
          · cases j' with
            | zero =>
                cases Option.some.inj hm₁
                exact hlt cert₁ h₁
            | succ j' => exact hfirst j' (by omega) m₁ hm₁ cert₁ h₁

/-- The entries of a log above one position, up to the first one above another position. -/
def segmentOf (lo hi : ℕ) (es : List LogEntryProto) : List LogEntryProto :=
  (es.takeWhile (·.seq ≤ hi)).filter (lo < ·.seq)

lemma copyEntries_eq_segmentOf (lo hi : ℕ) (es : List LogEntryProto) :
    copyEntries lo hi es = segmentOf lo hi es := by
  induction es with
  | nil => rfl
  | cons e es ih =>
      rw [copyEntries, ih, segmentOf, segmentOf]
      by_cases hhi : e.seq ≤ hi
      · rw [List.takeWhile_cons_of_pos (by simpa using hhi), if_neg (not_lt.mpr hhi)]
        by_cases hlo : e.seq ≤ lo
        · rw [if_pos hlo, List.filter_cons_of_neg (by simpa using hlo)]
        · rw [if_neg hlo, List.filter_cons_of_pos (by simpa using hlo)]
      · rw [List.takeWhile_cons_of_neg (by simpa using hhi), if_pos (not_le.mp hhi)]
        by_cases hlo : e.seq ≤ lo
        · rw [if_pos hlo, List.filter_nil, List.filter_eq_nil_iff]
          intro e' he'
          have hle := List.mem_takeWhile_imp he'
          simp only [decide_eq_true_eq] at hle ⊢
          omega
        · rw [if_neg hlo]
          rfl

lemma copyEntries_of_le {lo hi : ℕ} (h : hi ≤ lo) (es : List LogEntryProto) :
    copyEntries lo hi es = [] := by
  induction es with
  | nil => rfl
  | cons e es ih =>
      rw [copyEntries]
      split
      · exact ih
      · rw [if_pos (by omega)]

/-! ### Equal digests -/

/-- What is counted: a position and a digest. -/
def LogEntryProto.key (e : LogEntryProto) : ℕ × Bytes := (e.seq, e.digest)

/-- The loop over the digests finds the last entry whose count becomes `t`. -/
lemma matchEntries_eq (t : ℕ) (es : List (ℕ × LogEntryProto)) (seen : List (ℕ × Bytes))
    (best : ℕ × ℕ) (hit : Option (ℕ × LogEntryProto)) :
    matchEntries t es seen ((hit.map fun x => (x.1, x.2.seq)).getD best) =
      ((Tally.lastAt (·.2.key) t es seen hit).map fun x => (x.1, x.2.seq)).getD best := by
  induction es generalizing seen hit with
  | nil => rfl
  | cons x es ih =>
      obtain ⟨i, e⟩ := x
      rw [matchEntries, Tally.lastAt, ← ih]
      show matchEntries t es (e.key :: seen)
          (if (e.key :: seen).count e.key = t then (i, e.seq) else _) =
        matchEntries t es (e.key :: seen) ((Option.map _
          (if (e.key :: seen).count e.key = t then some (i, e) else hit)).getD best)
      split <;> rfl

/-- The entries of one message that are counted. -/
def countedKeys (lo : ℕ) (m : RepairStart) : List (ℕ × Bytes) :=
  (m.log.entries.filter (lo < ·.seq)).map LogEntryProto.key

/-- The keys are those of the messages, one after the other. -/
lemma keys_numberedEntries (lo i : ℕ) (ms : List RepairStart) :
    (numberedEntries lo i ms).map (·.2.key) = (ms.map (countedKeys lo)).flatten := by
  induction ms generalizing i with
  | nil => rfl
  | cons m ms ih =>
      rw [numberedEntries, List.map_append, ih, List.map_cons, List.flatten_cons, List.map_map]
      rfl

/-- A numbered entry is an entry of the message with this number. -/
lemma mem_numberedEntries {lo i : ℕ} {ms : List RepairStart} {x : ℕ × LogEntryProto}
    (h : x ∈ numberedEntries lo i ms) :
    i ≤ x.1 ∧ ∃ m, ms[x.1 - i]? = some m ∧ x.2 ∈ m.log.entries ∧ lo < x.2.seq := by
  induction ms generalizing i with
  | nil => cases h
  | cons m ms ih =>
      rw [numberedEntries, List.mem_append] at h
      rcases h with h | h
      · obtain ⟨e, he, rfl⟩ := List.mem_map.mp h
        rw [List.mem_filter, decide_eq_true_eq] at he
        exact ⟨le_rfl, m, by rw [Nat.sub_self]; rfl, he⟩
      · obtain ⟨hle, m', hm', he⟩ := ih h
        refine ⟨by omega, m', ?_, he⟩
        rw [show x.1 - i = x.1 - (i + 1) + 1 by omega, List.getElem?_cons_succ]
        exact hm'

end DomBft
