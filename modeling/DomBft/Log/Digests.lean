import DomBft.Log.Committed

/-!
What the digest of a position says about a log that is made by adding and aborting requests.

* `IsChained`: every entry is chained to the one before it, whatever their positions are; an
  abort behind the end of the log leaves a gap.
* `Reached`: the logs that `addEntry` and `abort` make of a fresh one; `Reached.chained` is
  their invariant.
* `getDigestAt_inj`: **equal digests, equal requests** up to the position.
-/

namespace DomBft

open Fallible

section

variable [Sha256]

/-! ### Chained entries -/

/-- Entries of which each is chained to the digest before it. -/
def IsChained : Bytes → List LogEntry → Prop
  | _, [] => True
  | d, e :: es => e.digest = entryDigest e.seq d e.toRequest ∧ IsChained e.digest es

/-- An entry with its position, as it is hashed. -/
def LogEntry.numbered (e : LogEntry) : UInt32 × Request := (UInt32.ofNat e.seq, e.toRequest)

/-- The digest of a numbered request, chained to another digest. -/
def numberedDigest (_ : ℕ) (d : Bytes) (x : UInt32 × Request) : Bytes :=
  entryDigest x.1.toNat d x.2

lemma numberedDigest_numbered (k : ℕ) (d : Bytes) (e : LogEntry) :
    numberedDigest k d e.numbered = entryDigest e.seq d e.toRequest := by
  rw [numberedDigest, LogEntry.numbered, entryDigest, entryDigest, UInt32.ofNat_toNat]

namespace IsChained

variable {d : Bytes} {es es' : List LogEntry}

lemma append_iff : IsChained d (es ++ es') ↔ IsChained d es ∧ IsChained (lastDigest d es) es' := by
  induction es generalizing d with
  | nil => simp [IsChained]
  | cons e es ih =>
      rw [List.cons_append, IsChained, IsChained, ih, lastDigest_cons]
      tauto

lemma take (h : IsChained d es) (k : ℕ) : IsChained d (es.take k) := by
  rw [← List.take_append_drop k es, append_iff] at h
  exact h.1

/-- The last digest is that of the chain of all entries. -/
lemma lastDigest_eq (h : IsChained d es) (k : ℕ) :
    lastDigest d es = HashChain.chainFrom numberedDigest k d (es.map (·.numbered)) := by
  induction es generalizing d k with
  | nil => rfl
  | cons e es ih =>
      rw [lastDigest_cons, ih h.2 (k + 1), List.map_cons, HashChain.chainFrom,
        numberedDigest_numbered, ← h.1]

/-- **Equal digests, equal entries**, up to the same index. -/
lemma inj (hc : CollisionFree) {i : ℕ} {e e' : LogEntry} (h : IsChained [] es)
    (h' : IsChained [] es') (he : es[i]? = some e) (he' : es'[i]? = some e')
    (hd : e.digest = e'.digest) :
    (es.take (i + 1)).map (·.numbered) = (es'.take (i + 1)).map (·.numbered) := by
  have hlen : ∀ {es : List LogEntry} {e}, es[i]? = some e → (es.take (i + 1)).length = i + 1 := by
    intro es e he
    have hlt := (List.getElem?_eq_some_iff.mp he).1
    rw [List.length_take]
    omega
  refine @HashChain.chain_inj_of_length _ _ numberedDigest [] IsLogDigest ?_ ?_ _ _ ?_ ?_
  · intro l
    induction l using List.reverseRecOn with
    | nil => exact rfl
    | append_singleton l a _ =>
        rw [HashChain.chain_concat, List.length_append]
        exact ⟨_, rfl⟩
  · rintro k d d' ⟨n, a⟩ ⟨n', a'⟩ hk hk' heq
    obtain ⟨rfl, rfl⟩ := entryDigest_inj hc hk hk' heq
    have hin := hc.injective heq
    simp only [List.append_assoc] at hin
    have hn := le32_injective (List.append_inj hin rfl).1
    simp only [UInt32.ofNat_toNat] at hn
    exact ⟨rfl, by rw [hn]⟩
  · rw [List.length_map, List.length_map, hlen he, hlen he']
  · have hlast := (h.take (i + 1)).lastDigest_eq 1
    have hlast' := (h'.take (i + 1)).lastDigest_eq 1
    rw [lastDigest_take_succ he] at hlast
    rw [lastDigest_take_succ he'] at hlast'
    exact hlast.symm.trans (hd.trans hlast')

end IsChained

end

/-! ### Logs made by adding and aborting requests -/

namespace Log

/-- The request at a position: that of `log_[seq - log_[0].seq]`. -/
def requestAt {A : Type} (l : Log A) (seq : ℕ) : Option Request :=
  l.log.head?.bind fun first => (l.log[seq - first.seq]?).map (·.toRequest)

variable {A : Type} [Application A] [Sha256] [PaddedRequestData] {l l' : Log A}

/-- The logs that are made of a fresh one by `addEntry`, with requests that parse, and by `abort`
above the committed position. -/
inductive Reached : Log A → Prop
  | fresh (app : A) : Reached (.fresh app)
  | addEntry {l l' : Log A} {c s : UInt32} {req : Bytes} {checkDup : Bool} {res : Option Bytes} :
      Reached l → (reqData req).isSome → l.addEntry c s req checkDup = .ok (l', res) → Reached l'
  | abort {l l' : Log A} {seq : ℕ} :
      Reached l → l.committedCheckpoint.seq < seq → l.abort seq = .ok l' → Reached l'

/-- The log is chained from its first position on. -/
structure Chained (l : Log A) : Prop where
  stable_seq : l.stableCheckpoint.seq = 0
  stable_digest : l.stableCheckpoint.logDigest = []
  pos : 0 < l.nextSeq
  empty : l.nextSeq = 1 → l.log = []
  first : ∀ e ∈ l.log.head?, e.seq = 1
  chained : IsChained [] l.log

omit [Application A] [PaddedRequestData] in
/-- The digest the next entry is chained to is the last one. -/
lemma Chained.prevDigest_eq (h : l.Chained) {d : Bytes} (hd : l.prevDigest = .ok d) :
    d = lastDigest [] l.log ∧ (l.log = [] → l.nextSeq = 1) := by
  have hpos := h.pos
  rw [prevDigest, h.stable_seq, h.stable_digest] at hd
  by_cases hnext : l.nextSeq - 1 = 0
  · have hone : l.nextSeq = 1 := by omega
    rw [if_pos hnext] at hd
    rw [h.empty hone]
    exact ⟨(Except.ok.inj hd).symm, fun _ => hone⟩
  · rw [if_neg hnext] at hd
    rw [lastDigest]
    cases hlast : l.log.getLast? with
    | none =>
        rw [hlast] at hd
        cases hd
    | some e =>
        rw [hlast] at hd
        refine ⟨(Except.ok.inj hd).symm, fun hnil => ?_⟩
        rw [hnil] at hlast
        cases hlast

lemma Chained.append (h : l.Chained) {c s : UInt32} {req : Bytes} {res : Option Bytes}
    (hreq : (reqData req).isSome) (hadd : l.append c s req = .ok (l', res)) : l'.Chained := by
  obtain ⟨d, hd, hadd⟩ := bind_eq_ok.mp hadd
  obtain ⟨hlast, hnil⟩ := h.prevDigest_eq hd
  obtain ⟨data, hdata⟩ := Option.isSome_iff_exists.mp hreq
  rw [hdata] at hadd
  obtain ⟨⟨app, result⟩, -, hadd⟩ := bind_eq_ok.mp hadd
  cases pure_eq_ok.mp hadd
  refine ⟨h.stable_seq, h.stable_digest, Nat.succ_pos _, fun hone => ?_, fun e he => ?_, ?_⟩
  · have hpos := h.pos
    have hone' : l.nextSeq + 1 = 1 := hone
    omega
  · cases hlog : l.log with
    | nil =>
        rw [hlog, List.nil_append, List.head?_cons] at he
        cases he
        exact hnil hlog
    | cons first es =>
        rw [hlog, List.cons_append, List.head?_cons] at he
        exact h.first e (by rw [hlog]; exact he)
  · refine IsChained.append_iff.mpr ⟨h.chained, ?_, trivial⟩
    rw [← hlast]
    rfl

lemma Chained.addEntry (h : l.Chained) {c s : UInt32} {req : Bytes} {checkDup : Bool}
    {res : Option Bytes} (hreq : (reqData req).isSome)
    (hadd : l.addEntry c s req checkDup = .ok (l', res)) : l'.Chained := by
  have hrecord : ∀ record, Chained { l with clientRecord := record } :=
    fun record => ⟨h.stable_seq, h.stable_digest, h.pos, h.empty, h.first, h.chained⟩
  rw [Log.addEntry] at hadd
  dsimp only at hadd
  split_ifs at hadd
  · exact (hrecord _).append hreq hadd
  · cases Except.ok.inj hadd
    exact hrecord _
  · exact h.append hreq hadd

omit [PaddedRequestData] in
lemma Chained.abort (h : l.Chained) {seq : ℕ} (hseq : 0 < seq) (habort : l.abort seq = .ok l') :
    l'.Chained := by
  rw [Log.abort] at habort
  split_ifs at habort with hahead
  · cases habort
    have hpos := h.pos
    refine ⟨h.stable_seq, h.stable_digest, hseq, fun hone => h.empty ?_, h.first, h.chained⟩
    have hone' : seq = 1 := hone
    omega
  · obtain ⟨log, herase, habort⟩ := bind_eq_ok.mp habort
    obtain ⟨app, -, habort⟩ := bind_eq_ok.mp habort
    cases pure_eq_ok.mp habort
    have htake : ∃ k, log = l.log.take k ∧ (seq = 1 → k = 0) := by
      rw [eraseFrom] at herase
      cases hfirst : l.log.head? with
      | none =>
          rw [hfirst] at herase
          rw [List.head?_eq_none_iff.mp hfirst] at herase ⊢
          exact ⟨0, (Except.ok.inj herase).symm, fun _ => rfl⟩
      | some first =>
          rw [hfirst] at herase
          dsimp only at herase
          split_ifs at herase
          have hone := h.first first (by rw [hfirst]; rfl)
          exact ⟨_, (Except.ok.inj herase).symm, fun hs => by rw [hs, hone]⟩
    obtain ⟨k, rfl, hk⟩ := htake
    refine ⟨h.stable_seq, h.stable_digest, hseq, fun hone => ?_, fun e he => h.first e ?_,
      h.chained.take k⟩
    · show l.log.take k = []
      rw [hk hone, List.take_zero]
    · have he' : e ∈ (l.log.take k).head? := he
      rw [List.head?_take] at he'
      split_ifs at he'
      · cases he'
      · exact he'

/-- **The invariant of the logs that are reached.** -/
lemma Reached.chained (h : l.Reached) : l.Chained := by
  induction h with
  | fresh app => exact ⟨rfl, rfl, Nat.one_pos, fun _ => rfl, fun e he => (by cases he), trivial⟩
  | addEntry _ hreq hadd ih => exact ih.addEntry hreq hadd
  | abort _ hseq habort ih => exact ih.abort (Nat.zero_lt_of_lt hseq) habort

omit [Application A] [PaddedRequestData] in
/-- The digest of a position is that of its entry. -/
lemma Chained.getDigestAt_entry (h : l.Chained) {s : ℕ} (hs : 0 < s) {d : Bytes}
    (hd : l.getDigestAt s = .ok d) : ∃ e, l.log[s - 1]? = some e ∧ e.digest = d := by
  rw [getDigestAt, h.stable_seq, if_neg hs.ne'] at hd
  split_ifs at hd
  obtain ⟨e, hslot, rfl⟩ := map_eq_ok.mp hd
  refine ⟨e, ?_, rfl⟩
  rw [slot] at hslot
  cases hfirst : l.log.head? with
  | none =>
      rw [hfirst] at hslot
      cases hslot
  | some first =>
      have hone := h.first first (by rw [hfirst]; rfl)
      rw [hfirst] at hslot
      dsimp only at hslot
      split_ifs at hslot
      rw [hone] at hslot
      cases he : l.log[s - 1]? with
      | none =>
          rw [he] at hslot
          cases hslot
      | some e' =>
          rw [he] at hslot
          dsimp only at hslot
          split_ifs at hslot
          exact congrArg some (Except.ok.inj hslot)

omit [Application A] [PaddedRequestData] in
lemma Chained.requestAt_eq (h : l.Chained) (p : ℕ) :
    l.requestAt p = (l.log[p - 1]?).map (·.toRequest) := by
  rw [requestAt]
  cases hfirst : l.log.head? with
  | none => rw [List.head?_eq_none_iff.mp hfirst]; rfl
  | some first => rw [Option.bind_some, h.first first (by rw [hfirst]; rfl)]

end Log

/-- **Equal digests, equal requests.**  Two logs made by adding and aborting requests that have
the same digest at a position hold the same requests up to it. -/
theorem getDigestAt_inj {A B : Type} [Application A] [Application B] [Sha256]
    [PaddedRequestData] (hc : CollisionFree) {l : Log A} {l' : Log B} (h : l.Reached)
    (h' : l'.Reached) {s : ℕ} {d : Bytes} (hd : l.getDigestAt s = .ok d)
    (hd' : l'.getDigestAt s = .ok d) :
    ∀ p, 1 ≤ p → p ≤ s → ∃ a, l.requestAt p = some a ∧ l'.requestAt p = some a := by
  intro p hp hps
  obtain ⟨e, he, rfl⟩ := h.chained.getDigestAt_entry (by omega) hd
  obtain ⟨e', he', hdigest⟩ := h'.chained.getDigestAt_entry (by omega) hd'
  have hmap := h.chained.chained.inj hc h'.chained.chained he he' hdigest.symm
  rw [h.chained.requestAt_eq, h'.chained.requestAt_eq]
  have hlt : p - 1 < l.log.length := by
    have hlen := (List.getElem?_eq_some_iff.mp he).1
    omega
  refine ⟨_, by rw [List.getElem?_eq_getElem hlt, Option.map_some], ?_⟩
  have hget := congrArg (fun xs => (xs[p - 1]?).map Prod.snd) hmap
  simp only [List.getElem?_map, List.getElem?_take, if_pos (show p - 1 < s - 1 + 1 by omega),
    Option.map_map] at hget
  have hsame : (l.log[p - 1]?).map (·.toRequest) = (l'.log[p - 1]?).map (·.toRequest) := hget
  rw [← hsame, List.getElem?_eq_getElem hlt, Option.map_some]

section

attribute [local instance] prefixSha shortPaddedRequestData counterWire

/-- Two logs with the same two requests, one of which has aborted another one before. -/
def abortedLogs : Except Fault (Log Counter × Log Counter) := do
  let (l₁, _) ← (Log.fresh {}).addEntry 0 1 []
  let (l₂, _) ← l₁.addEntry 1 1 []
  let (k₂, _) ← l₁.addEntry 2 1 []
  let k₃ ← k₂.abort 2
  let (k₄, _) ← k₃.addEntry 1 1 []
  return (l₂, k₄)

/-- They hold the same requests. -/
theorem getDigestAt_inj_abort : ∃ l l' : Log Counter, abortedLogs = .ok (l, l') ∧
    l.log.length = 2 ∧
    ∀ p, 1 ≤ p → p ≤ 2 → ∃ a, l.requestAt p = some a ∧ l'.requestAt p = some a := by
  have hrun : ∃ ls, abortedLogs = .ok ls ∧ (ls.1.log.length = 2 ∧
      ∃ d, ls.1.getDigestAt 2 = .ok d ∧ ∃ d', ls.2.getDigestAt 2 = .ok d' ∧ d' = d) := by
    decide +kernel
  obtain ⟨⟨l, l'⟩, hlogs, hlen, d, hd, _, hd', rfl⟩ := hrun
  refine ⟨l, l', hlogs, hlen, ?_⟩
  obtain ⟨⟨l₁, _⟩, h₁, hlogs⟩ := bind_eq_ok.mp hlogs
  obtain ⟨⟨l₂, _⟩, h₂, hlogs⟩ := bind_eq_ok.mp hlogs
  obtain ⟨⟨k₂, _⟩, hk₂, hlogs⟩ := bind_eq_ok.mp hlogs
  obtain ⟨k₃, hk₃, hlogs⟩ := bind_eq_ok.mp hlogs
  obtain ⟨⟨k₄, _⟩, hk₄, hlogs⟩ := bind_eq_ok.mp hlogs
  cases pure_eq_ok.mp hlogs
  have hl₁ : l₁.Reached := (Log.Reached.fresh {}).addEntry rfl h₁
  have hl₂ : l.Reached := hl₁.addEntry rfl h₂
  have hseq : k₂.committedCheckpoint.seq < 2 := by
    rw [(Log.addEntry_checkpoints hk₂).2, (Log.addEntry_checkpoints h₁).2]
    decide
  have hl₄ : l'.Reached := ((hl₁.addEntry rfl hk₂).abort hseq hk₃).addEntry rfl hk₄
  exact getDigestAt_inj prefixSha_collisionFree hl₂ hl₄ hd hd'

end

end DomBft
