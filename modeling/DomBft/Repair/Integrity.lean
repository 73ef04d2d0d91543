import Mathlib.Data.List.MinMax
import DomBft.Repair.Selection
import DomBft.Verify

/-!
Which entries a repair takes over from logs that nobody has checked.

A request is genuine in a proposal if the log of a correct replica has it.  The entries of a
suffix come from three places: the log with the highest certificate, the log in which a count
of equal digests last reaches `f + e + 1` (both are `Copied`), and the requests that occur
more than `f` times (`lastRepeated`).  None of the counts asks from how many logs the
occurrences are.  `suffix_genuine_iff` says exactly when the suffix is genuine:
`NothingForged` lists what the logs of arbitrary replicas must not contain.
-/

namespace DomBft

open Std (ExtTreeMap)
open Tally

/-! ### The requests that occur often enough -/

section

variable {f : ℕ}

/-- The last entry with a key whose request occurs more than `f` times among the entries. -/
def lastOften (f : ℕ) (count : LogEntryProto → ℕ) (id : RequestId) (es : List LogEntryProto) :
    Option LogEntryProto :=
  (es.filter fun e => e.id = id ∧ f < count e).getLast?

lemma lastOften_cons (count : LogEntryProto → ℕ) (id : RequestId) (e : LogEntryProto)
    (es : List LogEntryProto) :
    lastOften f count id (e :: es) =
      (lastOften f count id es).or (if e.id = id ∧ f < count e then some e else none) := by
  rw [lastOften, lastOften, List.filter_cons]
  by_cases he : e.id = id ∧ f < count e
  · rw [if_pos (by simpa using he), if_pos he, List.getLast?_cons]
    cases (es.filter fun e => e.id = id ∧ f < count e).getLast? <;> rfl
  · rw [if_neg (by simpa using he), if_neg he, Option.or_none]

/-- What the loop counts: a key and a payload. -/
def LogEntryProto.payloadKey (e : LogEntryProto) : RequestId × Bytes := (e.id, e.request.getD [])

/-- **What `getValidClientRequests` keeps**: for each key the last entry whose request occurs
often enough. -/
lemma getElem?_countRequests {es : List LogEntryProto} {seen : List (RequestId × Bytes)}
    {count : LogEntryProto → ℕ} (hcount : ∀ e, count e =
      (es.map LogEntryProto.payloadKey).count e.payloadKey + seen.count e.payloadKey)
    (ret : RequestMap LogEntryProto) (id : RequestId) :
    (countRequests f es seen ret)[id]? = (lastOften f count id es).or ret[id]? := by
  induction es generalizing seen ret with
  | nil => rfl
  | cons e es ih =>
      have hcons : ∀ e', count e' = (es.map LogEntryProto.payloadKey).count e'.payloadKey +
          (e.payloadKey :: seen).count e'.payloadKey := by
        intro e'
        rw [hcount, List.map_cons, List.count_cons, List.count_cons]
        omega
      have hself := hcons e
      show (countRequests f es (e.payloadKey :: seen)
        (if f + 1 ≤ (e.payloadKey :: seen).count e.payloadKey then ret.insert e.id e
          else ret))[id]? = _
      rw [ih hcons, lastOften_cons, Option.or_assoc]
      by_cases hrun : f + 1 ≤ (e.payloadKey :: seen).count e.payloadKey
      · -- the entry is recorded now
        rw [if_pos hrun, ExtTreeMap.getElem?_insert]
        by_cases hid : e.id = id
        · rw [if_pos (by simpa using hid), if_pos ⟨hid, by omega⟩, Option.some_or]
        · rw [if_neg (by simpa using hid), if_neg (fun h => hid h.1), Option.none_or]
      · rw [if_neg hrun]
        by_cases hnow : e.id = id ∧ f < count e
        · -- the request occurs again behind the entry, and is recorded then
          have hagain : 0 < (es.map LogEntryProto.payloadKey).count e.payloadKey := by omega
          obtain ⟨e', he', hkey⟩ := List.mem_map.mp (List.count_pos_iff.mp hagain)
          have hmem : e' ∈ es.filter fun e => e.id = id ∧ f < count e := by
            rw [List.mem_filter, decide_eq_true_eq]
            refine ⟨he', (congrArg Prod.fst hkey).trans hnow.1, ?_⟩
            rw [hcons, hkey, ← hself]
            exact hnow.2
          obtain ⟨x, hx⟩ : ∃ x, lastOften f count id es = some x :=
            ⟨_, List.getLast?_eq_some_getLast (List.ne_nil_of_mem hmem)⟩
          rw [hx, Option.some_or, Option.some_or]
        · rw [if_neg hnow, Option.none_or]

/-- Erasing the keys of a list of entries. -/
lemma getElem?_foldl_erase (copied : List LogEntryProto) (m : RequestMap LogEntryProto)
    (id : RequestId) :
    (copied.foldl (fun m e => m.erase e.id) m)[id]? =
      if id ∈ copied.map LogEntryProto.id then none else m[id]? := by
  induction copied generalizing m with
  | nil => rfl
  | cons e copied ih =>
      rw [List.foldl_cons, ih, ExtTreeMap.getElem?_erase, List.map_cons]
      by_cases hid : e.id = id
      · subst hid
        simp
      · have hne : ¬id = e.id := fun h => hid h.symm
        simp [hid, hne]

end

namespace RepairProposal

variable (cfg : Config) (p : RepairProposal)

/-- The highest checkpoint. -/
def checkpointSeq : ℕ := (p.startMsgs.map (·.log.checkpoint.seq)).foldr max 0

/-- The highest certificate, or the checkpoint where no certificate is above it. -/
def certSeq : ℕ := ((p.startMsgs.filterMap (·.log.cert)).map (·.seq)).foldr max p.checkpointSeq

/-- The first message with the highest certificate, if this is above the checkpoint. -/
def certMsg : Option RepairStart :=
  if p.checkpointSeq < p.certSeq then
    p.startMsgs.find? fun m => m.log.cert.any (·.seq = p.certSeq)
  else none

omit cfg in
variable {p} in
lemma mem_of_certMsg {m : RepairStart} (h : p.certMsg = some m) : m ∈ p.startMsgs := by
  rw [certMsg] at h
  split at h
  · exact List.mem_of_find?_eq_some h
  · cases h

/-- The entry of which message, with its number, makes a count of equal digests above the
certificate last reach `f + e + 1`. -/
def IsLastMatch (x : ℕ × LogEntryProto) : Prop :=
  IsLast (·.2.key) (cfg.f + cfg.e + 1) (numberedEntries p.certSeq 0 p.startMsgs) x

/-- The entry is copied from the log with the highest certificate, or from the log with the
last match. -/
def Copied (e : LogEntryProto) : Prop :=
  (∃ m, p.certMsg = some m ∧ e ∈ segmentOf p.checkpointSeq p.certSeq m.log.entries) ∨
  ∃ x m, p.IsLastMatch cfg x ∧ p.startMsgs[x.1]? = some m ∧
    e ∈ segmentOf p.certSeq x.2.seq m.log.entries

/-- How often a request occurs above the checkpoint, in all logs together. -/
def occurrences (a : Request) : ℕ :=
  ((p.entriesAbove p.checkpointSeq).map LogEntryProto.toRequest).count a

/-- The last entry above the checkpoint with a key whose request occurs more than `f`
times. -/
def lastRepeated (id : RequestId) : Option LogEntryProto :=
  lastOften cfg.f (fun e => p.occurrences e.toRequest) id (p.entriesAbove p.checkpointSeq)

end RepairProposal

/-! ### What a suffix is made of -/

lemma foldr_max_eq {l : List ℕ} {b q : ℕ} (hb : b ≤ q) (hl : ∀ x ∈ l, x ≤ q)
    (hq : q = b ∨ q ∈ l) : l.foldr max b = q := by
  refine le_antisymm ?_ ?_
  · clear hq
    induction l with
    | nil => exact hb
    | cons x l ih =>
        rw [List.foldr_cons, max_le_iff]
        exact ⟨hl x List.mem_cons_self, ih fun y hy => hl y (List.mem_cons_of_mem x hy)⟩
  · rcases hq with rfl | hq
    · clear hb hl
      induction l with
      | nil => exact le_rfl
      | cons x l ih => exact le_max_of_le_right ih
    · exact List.le_max_of_le' b hq le_rfl

section

variable [Sha256] {cfg : Config} {p : RepairProposal}

/-- The chosen checkpoint is the highest one. -/
lemma checkpoint_seq_eq {s : LogSuffix} (hs : getLogSuffixFromProposal cfg p = .ok s) :
    s.checkpoint.seq = p.checkpointSeq := by
  obtain ⟨m, hm, hmax, hck, -⟩ := getLogSuffix_cases hs
  rw [hck]
  refine (foldr_max_eq (Nat.zero_le _) (fun x hx => ?_) (.inr (List.mem_map_of_mem
    (f := fun m : RepairStart => m.log.checkpoint.seq) hm))).symm
  obtain ⟨m', hm', rfl⟩ := List.mem_map.mp hx
  exact hmax m' hm'

end

section

variable {cfg : Config} {p : RepairProposal}

/-- The loop over the certificates finds the message with the highest one. -/
lemma maxCert_eq (p : RepairProposal) :
    (maxCert p.checkpointSeq 0 p.startMsgs (0, 0) = (0, 0) ∧ p.certSeq = p.checkpointSeq ∧
        p.certMsg = none) ∨
      ∃ i m, maxCert p.checkpointSeq 0 p.startMsgs (0, 0) = (i, p.certSeq) ∧
        p.startMsgs[i]? = some m ∧ p.certMsg = some m ∧ p.checkpointSeq ≤ p.certSeq := by
  have hseqs : ∀ q, q ∈ (p.startMsgs.filterMap (·.log.cert)).map (·.seq) ↔
      ∃ m ∈ p.startMsgs, ∃ cert, m.log.cert = some cert ∧ cert.seq = q := by
    intro q
    simp only [List.mem_map, List.mem_filterMap]
    exact ⟨fun ⟨cert, ⟨m, hm, hc⟩, hq⟩ => ⟨m, hm, cert, hc, hq⟩,
      fun ⟨m, hm, cert, hc, hq⟩ => ⟨cert, ⟨m, hm, hc⟩, hq⟩⟩
  rcases maxCert_cases p.checkpointSeq 0 p.startMsgs (0, 0) with ⟨hres, hall⟩ |
    ⟨i, m, cert, hm, hcert, hres, hlt, -, hmax, hfirst⟩
  · have hq : p.certSeq = p.checkpointSeq := by
      refine foldr_max_eq le_rfl (fun q hq => ?_) (.inl rfl)
      obtain ⟨m, hm, cert, hcert, rfl⟩ := (hseqs q).mp hq
      rcases hall m hm cert hcert with h | h
      · exact h
      · exact h.trans (Nat.zero_le _)
    exact .inl ⟨hres, hq, if_neg (by omega)⟩
  · have hq : p.certSeq = cert.seq := by
      refine foldr_max_eq hlt.le (fun q hq => ?_)
        (.inr ((hseqs _).mpr ⟨m, List.mem_of_getElem? hm, cert, hcert, rfl⟩))
      obtain ⟨m', hm', cert', hcert', rfl⟩ := (hseqs q).mp hq
      exact hmax m' hm' cert' hcert'
    refine .inr ⟨i, m, by rw [hres, hq, Nat.zero_add], hm, ?_, by omega⟩
    rw [RepairProposal.certMsg, if_pos (by omega), List.find?_eq_some_iff_getElem]
    obtain ⟨hi, hget⟩ := List.getElem?_eq_some_iff.mp hm
    refine ⟨by simp [hcert, hq], i, hi, hget, fun j hj => ?_⟩
    have hj' : p.startMsgs[j]? = some p.startMsgs[j] := List.getElem?_eq_getElem (by omega)
    cases hc : p.startMsgs[j].log.cert with
    | none => simp
    | some cert' => simpa [hq] using (hfirst j hj _ hj' cert' hc).ne

/-- **What is copied**: the entries of the log with the highest certificate up to it, and
those of the log with the last match up to that. -/
lemma mem_copiedEntries (e : LogEntryProto) :
    e ∈ copiedEntries cfg p.startMsgs p.checkpointSeq ↔ p.Copied cfg e := by
  obtain ⟨i, q, hres, hlo, hmem⟩ : ∃ i q, maxCert p.checkpointSeq 0 p.startMsgs (0, 0) = (i, q) ∧
      max q p.checkpointSeq = p.certSeq ∧
      (e ∈ copyEntries p.checkpointSeq q (entriesOf p.startMsgs i) ↔
        ∃ m, p.certMsg = some m ∧ e ∈ segmentOf p.checkpointSeq p.certSeq m.log.entries) := by
    rcases maxCert_eq p with ⟨hres, hq, hnone⟩ | ⟨i, m, hres, hm, hsome, hle⟩
    · refine ⟨0, 0, hres, by rw [hq, Nat.zero_max], ?_⟩
      rw [copyEntries_of_le (Nat.zero_le _), hnone]
      simp
    · refine ⟨i, p.certSeq, hres, max_eq_left hle, ?_⟩
      rw [copyEntries_eq_segmentOf, entriesOf, hm, hsome]
      simp
  have hmatched := matchEntries_eq (cfg.f + cfg.e + 1) (numberedEntries p.certSeq 0 p.startMsgs)
    [] (i, 0) none
  simp only [Option.map_none, Option.getD_none] at hmatched
  simp only [copiedEntries, hres, hlo, hmatched, List.mem_append, hmem, RepairProposal.Copied]
  refine or_congr_right ?_
  cases hlast : lastAt (·.2.key) (cfg.f + cfg.e + 1) (numberedEntries p.certSeq 0 p.startMsgs)
      [] none with
  | none =>
      rw [Option.map_none, Option.getD_none, copyEntries_of_le (Nat.zero_le _)]
      refine ⟨fun h => (by cases h), fun ⟨x, _, hx, _⟩ => ?_⟩
      rw [(lastAt_eq_some_iff (Nat.succ_pos _)).mpr hx] at hlast
      cases hlast
  | some x =>
      rw [lastAt_eq_some_iff (Nat.succ_pos _)] at hlast
      rw [Option.map_some, Option.getD_some, copyEntries_eq_segmentOf]
      constructor
      · intro he
        cases hm : p.startMsgs[x.1]? with
        | none => simp [entriesOf, hm, segmentOf] at he
        | some m =>
            refine ⟨x, m, hlast, hm, ?_⟩
            simpa [entriesOf, hm] using he
      · rintro ⟨x', m, hx', hm, he⟩
        rw [hlast.unique hx', entriesOf, hm]
        exact he

/-- **What remains**: the requests that occur often enough, without the keys that have been
copied. -/
lemma mem_remainingEntries (copied : List LogEntryProto) (e : LogEntryProto) :
    e ∈ remainingEntries cfg p p.checkpointSeq copied ↔
      p.lastRepeated cfg e.id = some e ∧ e.id ∉ copied.map LogEntryProto.id := by
  have hvalid : ∀ id, (getValidClientRequests cfg p p.checkpointSeq)[id]? =
      p.lastRepeated cfg id := by
    intro id
    have hcount : ∀ e : LogEntryProto, p.occurrences e.toRequest =
        ((p.entriesAbove p.checkpointSeq).map LogEntryProto.payloadKey).count e.payloadKey +
          List.count e.payloadKey [] := by
      intro e
      have hinj : Function.Injective fun a : Request => (a.id, a.request) := fun a b hab => by
        cases a
        cases b
        simpa [Request.id, and_assoc] using hab
      have hmap := List.count_map_of_injective
        ((p.entriesAbove p.checkpointSeq).map LogEntryProto.toRequest) _ hinj e.toRequest
      rw [List.map_map] at hmap
      exact hmap.symm
    rw [getValidClientRequests, getElem?_countRequests hcount, ExtTreeMap.getElem?_empty,
      Option.or_none]
    rfl
  have hmem : e ∈ remainingEntries cfg p p.checkpointSeq copied ↔
      ∃ id, p.lastRepeated cfg id = some e ∧ id ∉ copied.map LogEntryProto.id := by
    rw [remainingEntries, List.mem_map]
    constructor
    · rintro ⟨⟨id, e'⟩, hmem, rfl⟩
      rw [ExtTreeMap.mem_toList_iff_getElem?_eq_some, getElem?_foldl_erase] at hmem
      split at hmem
      · cases hmem
      · exact ⟨id, by rw [← hvalid]; exact hmem, by assumption⟩
    · rintro ⟨id, hlast, hid⟩
      refine ⟨(id, e), ?_, rfl⟩
      rw [ExtTreeMap.mem_toList_iff_getElem?_eq_some, getElem?_foldl_erase, if_neg hid, hvalid,
        hlast]
  rw [hmem]
  constructor
  · rintro ⟨id, hlast, hid⟩
    have he := List.mem_of_getLast? hlast
    rw [List.mem_filter, decide_eq_true_eq] at he
    obtain ⟨-, rfl, -⟩ := he
    exact ⟨hlast, hid⟩
  · exact fun h => ⟨e.id, h⟩

end

/-- Nothing is in a suffix that is not in a log. -/
lemma exists_log_of_mem_entries [Sha256] {cfg : Config} {p : RepairProposal} {s : LogSuffix}
    (hs : getLogSuffixFromProposal cfg p = .ok s) {e : LogEntryProto} (he : e ∈ s.entries) :
    ∃ m ∈ p.startMsgs, e ∈ m.log.entries := by
  obtain ⟨-, -, -, -, -, -, hentries, -⟩ := getLogSuffix_cases hs
  rw [hentries, checkpoint_seq_eq hs, List.mem_append, mem_copiedEntries,
    mem_remainingEntries] at he
  have hseg : ∀ {lo hi es}, e ∈ segmentOf lo hi es → e ∈ es := fun h =>
    (List.takeWhile_sublist _).subset (List.mem_of_mem_filter h)
  rcases he with (⟨m, hm, he⟩ | ⟨x, m, -, hm, he⟩) | ⟨hlast, -⟩
  · exact ⟨m, RepairProposal.mem_of_certMsg hm, hseg he⟩
  · exact ⟨m, List.mem_of_getElem? hm, hseg he⟩
  · have hmem := List.mem_of_mem_filter (List.mem_of_mem_filter (List.mem_of_getLast? hlast))
    exact List.mem_flatMap.mp hmem

/-! ### Integrity -/

section

variable (cfg : Config) (p : RepairProposal) (correct : ℕ → Prop)

/-- The request is in the log of a correct replica. -/
def RepairProposal.Genuine (a : Request) : Prop :=
  ∃ m ∈ p.startMsgs, correct m.replicaId ∧ ∃ e ∈ m.log.entries, e.toRequest = a

/-- The logs of arbitrary replicas hold no forged request where it is taken over: not below
the highest certificate, not below the last match, and not more than `f` times above the
checkpoint, unless the key is copied or another request with this key occurs more than `f`
times as well and is found later. -/
structure RepairProposal.NothingForged : Prop where
  belowCert : ∀ m, p.certMsg = some m → ¬correct m.replicaId →
    ∀ e ∈ segmentOf p.checkpointSeq p.certSeq m.log.entries, p.Genuine correct e.toRequest
  belowMatch : ∀ x m, p.IsLastMatch cfg x → p.startMsgs[x.1]? = some m → ¬correct m.replicaId →
    ∀ e ∈ segmentOf p.certSeq x.2.seq m.log.entries, p.Genuine correct e.toRequest
  repeated : ∀ a, ¬p.Genuine correct a → cfg.f < p.occurrences a →
    (∃ e, p.Copied cfg e ∧ e.id = a.id) ∨
      ∃ e, p.lastRepeated cfg a.id = some e ∧ e.toRequest ≠ a

variable {cfg p correct}

/-- Entries of correct logs are genuine. -/
lemma RepairProposal.genuine_of_mem {m : RepairStart} (hm : m ∈ p.startMsgs)
    (hc : correct m.replicaId) {lo hi : ℕ} {e : LogEntryProto}
    (he : e ∈ segmentOf lo hi m.log.entries) : p.Genuine correct e.toRequest :=
  ⟨m, hm, hc, e, (List.takeWhile_sublist _).subset (List.mem_of_mem_filter he), rfl⟩

lemma RepairProposal.NothingForged.genuine_of_copied (h : p.NothingForged cfg correct)
    {e : LogEntryProto} (he : p.Copied cfg e) : p.Genuine correct e.toRequest := by
  rcases he with ⟨m, hm, he⟩ | ⟨x, m, hx, hm, he⟩
  · by_cases hc : correct m.replicaId
    · exact RepairProposal.genuine_of_mem (RepairProposal.mem_of_certMsg hm) hc he
    · exact h.belowCert m hm hc e he
  · by_cases hc : correct m.replicaId
    · exact RepairProposal.genuine_of_mem (List.mem_of_getElem? hm) hc he
    · exact h.belowMatch x m hx hm hc e he

/-- A request that occurs more than `f` times has a last entry that does. -/
lemma RepairProposal.exists_lastRepeated {a : Request} (h : cfg.f < p.occurrences a) :
    ∃ e, p.lastRepeated cfg a.id = some e ∧ e.id = a.id := by
  obtain ⟨e, he, rfl⟩ := List.mem_map.mp (List.count_pos_iff.mp (Nat.zero_lt_of_lt h))
  have hmem : e ∈ (p.entriesAbove p.checkpointSeq).filter fun e' =>
      e'.id = e.toRequest.id ∧ cfg.f < p.occurrences e'.toRequest :=
    List.mem_filter.mpr ⟨he, by simpa using ⟨rfl, h⟩⟩
  have hlast := List.getLast_mem (List.ne_nil_of_mem hmem)
  rw [List.mem_filter, decide_eq_true_eq] at hlast
  exact ⟨_, List.getLast?_eq_some_getLast (List.ne_nil_of_mem hmem), hlast.2.1⟩

lemma RepairProposal.lt_occurrences {id : RequestId} {e : LogEntryProto}
    (h : p.lastRepeated cfg id = some e) : cfg.f < p.occurrences e.toRequest := by
  have he := List.mem_of_getLast? h
  rw [List.mem_filter, decide_eq_true_eq] at he
  exact he.2.2

/-- **When a repair is genuine.**  Every request of a suffix is in the log of a correct
replica, exactly if the logs of arbitrary replicas hold no forged request where one is taken
over. -/
theorem suffix_genuine_iff [Sha256] {s : LogSuffix}
    (hs : getLogSuffixFromProposal cfg p = .ok s) :
    (∀ e ∈ s.entries, p.Genuine correct e.toRequest) ↔ p.NothingForged cfg correct := by
  obtain ⟨-, -, -, -, -, -, hentries, -⟩ := getLogSuffix_cases hs
  rw [checkpoint_seq_eq hs] at hentries
  have hmem : ∀ e, e ∈ s.entries ↔ p.Copied cfg e ∨
      p.lastRepeated cfg e.id = some e ∧ ∀ e', p.Copied cfg e' → e'.id ≠ e.id := by
    intro e
    rw [hentries, List.mem_append, mem_copiedEntries, mem_remainingEntries]
    simp only [List.mem_map, mem_copiedEntries, not_exists, not_and, ne_eq]
  constructor
  · intro h
    refine ⟨fun m hm _ e he => ?_, fun x m hx hm _ e he => ?_, fun a ha hoften => ?_⟩
    · exact h e ((hmem e).mpr (.inl (.inl ⟨m, hm, he⟩)))
    · exact h e ((hmem e).mpr (.inl (.inr ⟨x, m, hx, hm, he⟩)))
    · by_contra hno
      push Not at hno
      obtain ⟨e, hlast, hid⟩ := RepairProposal.exists_lastRepeated hoften
      refine ha ?_
      rw [← hno.2 e hlast]
      rw [← hid] at hlast hno
      exact h e ((hmem e).mpr (.inr ⟨hlast, hno.1⟩))
  · intro h e he
    rcases (hmem e).mp he with he | ⟨hlast, hid⟩
    · exact h.genuine_of_copied he
    · by_contra hforged
      rcases h.repeated e.toRequest hforged (RepairProposal.lt_occurrences hlast) with
        ⟨e', he', hid'⟩ | ⟨e', hlast', hne⟩
      · exact hid e' he' hid'
      · cases Option.some.inj (hlast'.symm.trans hlast)
        exact hne rfl

/-- A forged request that occurs more than `f` times is repeated inside one log, if at most
`f` logs are those of arbitrary replicas. -/
theorem exists_repeating_log [DecidablePred correct]
    (hf : p.startMsgs.countP (fun m => ¬correct m.replicaId) ≤ cfg.f)
    {a : Request} (ha : ¬p.Genuine correct a) (h : cfg.f < p.occurrences a) :
    ∃ m ∈ p.startMsgs, ¬correct m.replicaId ∧
      1 < (m.log.entries.map LogEntryProto.toRequest).count a := by
  by_contra hno
  push Not at hno
  have hall : p.occurrences a ≤
      (p.startMsgs.flatMap fun m => m.log.entries.map LogEntryProto.toRequest).count a := by
    rw [← List.map_flatMap]
    exact (List.filter_sublist.map _).count_le _
  have hle := count_flatMap_le (l := p.startMsgs) (k := a)
    (g := fun m => m.log.entries.map LogEntryProto.toRequest) (P := fun m => ¬correct m.replicaId)
    (fun m hm hc hmem => ha ?_) hno
  · omega
  · obtain ⟨e, he, rfl⟩ := List.mem_map.mp hmem
    exact ⟨m, hm, not_not.mp hc, e, he, rfl⟩

end

section

attribute [local instance] prefixSha numberSignatures

/-- A forged entry at the position where two correct logs have another request. -/
def forgingProposal : RepairProposal where
  startMsgs := [
    { replicaId := 0, log? := some { entries := [{ seq := 1, clientId := 0, clientSeq := 1 }] } },
    { replicaId := 1, log? := some ((Log.ofHistory ({} : Counter) [⟨0, 1, [8]⟩]).toProto true) },
    { replicaId := 2, log? := some ((Log.ofHistory ({} : Counter) [⟨0, 1, [8]⟩]).toProto true) }]

/-- A single forged entry does no harm. -/
theorem suffix_genuine_forgingProposal :
    forgingProposal.NothingForged .oneFault (· ≠ 0) := by
  refine (suffix_genuine_iff (p := forgingProposal) rfl).mp fun e he => ?_
  refine ⟨forgingProposal.startMsgs[1], by decide, by decide, e, ?_, rfl⟩
  exact he

/-- A log that holds one entry twice. -/
def repeatingLog : RepairLog where
  entries := List.replicate 2 { seq := 1, clientId := 0, clientSeq := 1 }

/-- The repeating log among the logs of correct replicas that have seen nothing. -/
def repeatingProposal : RepairProposal where
  startMsgs := [
    { replicaId := 0, log? := some repeatingLog },
    { replicaId := 1, log? := some ((Log.fresh ({} : Counter)).toProto true) },
    { replicaId := 2, log? := some ((Log.fresh ({} : Counter)).toProto true) }]
  signatures := [[0], [1], [2]]

/-- One log that holds a forged entry twice brings it into the suffix: the proposal
verifies, and the logs of all replicas but the first are those of correct ones. -/
theorem repeatingLog_forges :
    verifyRepairProposal .oneFault repeatingProposal = .ok true ∧
      (repeatingProposal.startMsgs.map (·.replicaId)).Nodup ∧
      (∀ m ∈ repeatingProposal.startMsgs, m.replicaId ≠ 0 →
        m.log? = some ((Log.fresh ({} : Counter)).toProto true)) ∧
      ∃ s, getLogSuffixFromProposal .oneFault repeatingProposal = .ok s ∧
        ¬∀ e ∈ s.entries, repeatingProposal.Genuine (· ≠ 0) e.toRequest := by
  refine ⟨rfl, by decide, fun m hm hne => ?_, _, rfl, fun hall => ?_⟩
  · simp only [repeatingProposal, List.mem_cons, List.not_mem_nil, or_false] at hm
    rcases hm with rfl | rfl | rfl
    · exact absurd rfl hne
    · rfl
    · rfl
  · obtain ⟨m, hm, hne, e, he, -⟩ := hall _ List.mem_cons_self
    simp only [repeatingProposal, List.mem_cons, List.not_mem_nil, or_false] at hm
    rcases hm with rfl | rfl | rfl
    · exact hne rfl
    · cases he
    · cases he

end

end DomBft
