import DomBft.Lib.Quorum
import DomBft.Log.Cluster
import DomBft.Repair.Apply
import DomBft.Repair.Durability
import DomBft.Verify

/-!
What faulty start messages can do to a repair: when `getLogSuffixFromProposal` returns, and
when `applySuffix` does.

* `IsLastHighest`, `Confirmed`: the message whose checkpoint is chosen, and whether enough
  other replicas have its digest; `getLogSuffix_isOk_iff` is the equivalence.
* `confirmed_of_correct`: the checkpoint of a correct replica is confirmed if the proposal
  holds messages of `f + 2e + 2` correct replicas, which is one more than there have to be.
* `Applicable`: the requests at hand have the digests that the suffix names, and the
  application does what it is asked for; `applySuffix_isOk_iff` is the equivalence.
-/

namespace DomBft

open Fallible

/-! ### The chosen checkpoint -/

/-- The message is the last one among those with the highest checkpoint. -/
def IsLastHighest (ms : List RepairStart) (m : RepairStart) : Prop :=
  ∃ pre post, ms = pre ++ m :: post ∧
    (∀ m' ∈ pre, m'.log.checkpoint.seq ≤ m.log.checkpoint.seq) ∧
    ∀ m' ∈ post, m'.log.checkpoint.seq < m.log.checkpoint.seq

namespace IsLastHighest

variable {ms : List RepairStart} {m m' : RepairStart}

lemma mem (h : IsLastHighest ms m) : m ∈ ms := by
  obtain ⟨pre, post, rfl, -, -⟩ := h
  exact List.mem_append_right _ List.mem_cons_self

lemma le (h : IsLastHighest ms m) (hm' : m' ∈ ms) :
    m'.log.checkpoint.seq ≤ m.log.checkpoint.seq := by
  obtain ⟨pre, post, rfl, hpre, hpost⟩ := h
  rcases List.mem_append.mp hm' with hm' | hm'
  · exact hpre m' hm'
  · rcases List.mem_cons.mp hm' with rfl | hm'
    · exact le_rfl
    · exact (hpost m' hm').le

lemma cons (h : IsLastHighest ms m) (hle : m'.log.checkpoint.seq ≤ m.log.checkpoint.seq) :
    IsLastHighest (m' :: ms) m := by
  obtain ⟨pre, post, rfl, hpre, hpost⟩ := h
  refine ⟨m' :: pre, post, rfl, fun m₁ hm₁ => ?_, hpost⟩
  rcases List.mem_cons.mp hm₁ with rfl | hm₁
  · exact hle
  · exact hpre m₁ hm₁

end IsLastHighest

/-- The loop over the checkpoints keeps the best message so far, or finds the last one with
the highest checkpoint. -/
lemma maxCheckpoint_eq {ms : List RepairStart} (hlogs : ∀ m ∈ ms, m.log?.isSome)
    (best : Option RepairStart) :
    (maxCheckpoint ms best = .ok best ∧ ∀ m ∈ ms, ∃ b, best = some b ∧
        m.log.checkpoint.seq < b.log.checkpoint.seq) ∨
      ∃ m, maxCheckpoint ms best = .ok (some m) ∧ IsLastHighest ms m ∧
        ∀ b, best = some b → b.log.checkpoint.seq ≤ m.log.checkpoint.seq := by
  induction ms generalizing best with
  | nil => exact .inl ⟨rfl, by simp⟩
  | cons a ms ih =>
      have ha := hlogs a List.mem_cons_self
      have hms := fun m hm => hlogs m (List.mem_cons_of_mem a hm)
      rw [maxCheckpoint, if_neg (by simpa [Option.isSome_iff_ne_none] using ha)]
      by_cases hbest : best.all fun b => b.log.checkpoint.seq ≤ a.log.checkpoint.seq
      · rw [if_pos hbest]
        have hle : ∀ b, best = some b → b.log.checkpoint.seq ≤ a.log.checkpoint.seq := by
          rintro b rfl
          simpa using hbest
        rcases ih hms (some a) with ⟨hok, hlt⟩ | ⟨m, hok, hm, hge⟩
        · refine .inr ⟨a, hok, ⟨[], ms, rfl, by simp, fun m' hm' => ?_⟩, hle⟩
          obtain ⟨b, hb, hlt⟩ := hlt m' hm'
          rwa [Option.some.inj hb]
        · exact .inr ⟨m, hok, hm.cons (hge a rfl), fun b hb => (hle b hb).trans (hge a rfl)⟩
      · rw [if_neg hbest]
        obtain ⟨b, rfl, hlt⟩ : ∃ b, best = some b ∧
            a.log.checkpoint.seq < b.log.checkpoint.seq := by
          cases best with
          | none => simp at hbest
          | some b => exact ⟨b, rfl, by simpa using hbest⟩
        rcases ih hms (some b) with ⟨hok, hall⟩ | ⟨m, hok, hm, hge⟩
        · refine .inl ⟨hok, fun m hm => ?_⟩
          rcases List.mem_cons.mp hm with rfl | hm
          · exact ⟨b, rfl, hlt⟩
          · exact hall m hm
        · exact .inr ⟨m, hok, hm.cons (hlt.le.trans (hge b rfl)), hge⟩

/-- The message with the chosen checkpoint is determined. -/
lemma exists_isLastHighest {ms : List RepairStart} (hlogs : ∀ m ∈ ms, m.log?.isSome)
    (hne : ms ≠ []) : ∃ m, maxCheckpoint ms none = .ok (some m) ∧ IsLastHighest ms m := by
  rcases maxCheckpoint_eq hlogs none with ⟨-, hall⟩ | ⟨m, hok, hm, -⟩
  · obtain ⟨a, ha⟩ := List.exists_mem_of_ne_nil ms hne
    obtain ⟨b, hb, -⟩ := hall a ha
    cases hb
  · exact ⟨m, hok, hm⟩

lemma IsLastHighest.unique {ms : List RepairStart} {m m' : RepairStart}
    (h : IsLastHighest ms m) (h' : IsLastHighest ms m') : m = m' := by
  have hseq := (h.le h'.mem).antisymm (h'.le h.mem)
  obtain ⟨pre, post, rfl, -, hpost⟩ := h
  obtain ⟨pre', post', heq, -, hpost'⟩ := h'
  -- neither message can be behind the other one
  rcases List.append_eq_append_iff.mp heq with ⟨l, rfl, hl⟩ | ⟨l, rfl, hl⟩
  · cases l with
    | nil => exact (List.cons.inj hl).1
    | cons b l =>
        obtain ⟨-, rfl⟩ := List.cons.inj hl
        exact absurd (hpost m' (by simp)) (by omega)
  · cases l with
    | nil => exact (List.cons.inj hl).1.symm
    | cons b l =>
        obtain ⟨-, rfl⟩ := List.cons.inj hl
        exact absurd (hpost' m (by simp)) (by omega)

section

variable [Sha256]

/-- The history of a correct replica has the digest of the checkpoint, or the log of a faulty
one says so. -/
def CountsFor (F : Finset ℕ) (hist : ℕ → List Request) (cp : LogCheckpointProto)
    (m : RepairStart) : Prop :=
  if m.replicaId ∈ F then m.log.matches cp = true
  else HasDigest hist cp.seq cp.logDigest m.replicaId

instance (F : Finset ℕ) (hist : ℕ → List Request) (cp : LogCheckpointProto) :
    DecidablePred (CountsFor F hist cp) := fun m =>
  inferInstanceAs (Decidable (if m.replicaId ∈ F then m.log.matches cp = true else _))

/-- Enough messages of other replicas count for the checkpoint of a message. -/
def Confirmed (cfg : Config) (F : Finset ℕ) (hist : ℕ → List Request) (ms : List RepairStart)
    (m : RepairStart) : Prop :=
  cfg.f + cfg.e + 1 ≤
    ms.countP fun m' => m'.replicaId ≠ m.replicaId ∧ CountsFor F hist m.log.checkpoint m'

instance (cfg : Config) (F : Finset ℕ) (hist : ℕ → List Request) (ms : List RepairStart)
    (m : RepairStart) : Decidable (Confirmed cfg F hist ms m) :=
  inferInstanceAs (Decidable (_ ≤ _))

variable {cfg : Config} {p : RepairProposal} {F : Finset ℕ} {hist : ℕ → List Request}
  {full : Bool}

/-- The log of a correct replica matches a checkpoint ahead of its own one exactly if its
history has the digest. -/
lemma RepairLog.Describes.matches_iff {log : RepairLog} {h : List Request}
    (hd : log.Describes full h) {cp : LogCheckpointProto} (hle : log.checkpoint.seq ≤ cp.seq) :
    log.matches cp ↔ cp.seq ≤ h.length ∧ logDigest (h.take cp.seq) = cp.logDigest := by
  refine ⟨hd.digest_of_matches hle, fun ⟨hlen, hdigest⟩ => ?_⟩
  rw [RepairLog.matches]
  split_ifs with hseq hin
  · rw [decide_eq_true_eq, hd.checkpoint_digest, hseq, hdigest]
  · have hi : cp.seq - log.checkpoint.seq - 1 < (h.drop log.checkpoint.seq).length := by
      rw [List.length_drop]
      omega
    rw [hd.entries_eq, getElem?_historyEntries, List.getElem?_eq_getElem hi, Option.map_some,
      Option.any_some, decide_eq_true_eq,
      show log.checkpoint.seq + (cp.seq - log.checkpoint.seq - 1) + 1 = cp.seq by omega]
    exact hdigest
  · rw [hd.entries_eq, length_historyEntries, List.length_drop] at hin
    omega

/-- The start messages of the replicas outside `F` hold the logs of correct replicas. -/
def CorrectLogs (full : Bool) (p : RepairProposal) (F : Finset ℕ) (hist : ℕ → List Request) :
    Prop :=
  ∀ m ∈ p.startMsgs, m.replicaId ∉ F → m.log.Describes full (hist m.replicaId)

/-- The count of matching logs. -/
lemma numMatches_eq (hp : CorrectLogs full p F hist) {m : RepairStart}
    (hm : IsLastHighest p.startMsgs m) :
    numMatches p.startMsgs m.replicaId m.log.checkpoint =
      p.startMsgs.countP fun m' =>
        m'.replicaId ≠ m.replicaId ∧ CountsFor F hist m.log.checkpoint m' := by
  rw [numMatches]
  refine List.countP_congr fun m' hm' => ?_
  rw [Bool.and_eq_true, decide_eq_true_eq, decide_eq_true_eq, CountsFor]
  split_ifs with hF
  · rfl
  · rw [(hp m' hm' hF).matches_iff (hm.le hm')]
    rfl

/-- **When the suffix is found**: every message holds a log, and the last one with the highest
checkpoint is confirmed. -/
lemma getLogSuffix_isOk_iff (hp : CorrectLogs full p F hist) (hne : p.startMsgs ≠ []) :
    (∃ s, getLogSuffixFromProposal cfg p = .ok s) ↔
      (∀ m ∈ p.startMsgs, m.log?.isSome) ∧
        ∀ m, IsLastHighest p.startMsgs m → Confirmed cfg F hist p.startMsgs m := by
  constructor
  · rintro ⟨s, hs⟩
    have hlogs : ∀ m ∈ p.startMsgs, m.log?.isSome := by
      obtain ⟨r, hr, -⟩ := bind_eq_ok.mp hs
      exact (maxCheckpoint_cases hr).1
    refine ⟨hlogs, fun m hm => ?_⟩
    obtain ⟨m', hmax, hm'⟩ := exists_isLastHighest hlogs hne
    obtain rfl := hm.unique hm'
    rw [getLogSuffixFromProposal, hmax, ok_bind] at hs
    dsimp only at hs
    split_ifs at hs with hfew
    rw [numMatches_eq hp hm] at hfew
    exact not_lt.mp hfew
  · rintro ⟨hlogs, hconfirmed⟩
    obtain ⟨m, hmax, hm⟩ := exists_isLastHighest hlogs hne
    have hcount := hconfirmed m hm
    rw [Confirmed, ← numMatches_eq hp hm] at hcount
    rw [getLogSuffixFromProposal, hmax, ok_bind]
    dsimp only
    rw [if_neg (not_lt.mpr hcount)]
    exact ⟨_, rfl⟩

omit [Sha256] in
/-- The senders of the messages that meet a condition are no more than the messages. -/
lemma card_senders_le (ms : List RepairStart) (P : RepairStart → Prop) [DecidablePred P] :
    ((ms.filter fun m => decide (P m)).map (·.replicaId)).toFinset.card ≤
      ms.countP fun m => decide (P m) := by
  rw [List.countP_eq_length_filter, ← List.length_map (·.replicaId)]
  exact List.toFinset_card_le _

/-- The replicas that have sent a message. -/
def RepairProposal.senders (p : RepairProposal) : Finset ℕ :=
  (p.startMsgs.map (·.replicaId)).toFinset

/-- **The checkpoint of a correct replica is confirmed** if a superquorum has accepted it and
the proposal holds messages of `f + 2e + 2` correct replicas: of these at least `f + e + 2`
have it in their history, one of which may be the sender of the message itself. -/
theorem confirmed_of_correct (hcfg : cfg.WellFormed)
    (hsenders : p.senders ⊆ Finset.range cfg.numReplicas)
    (hspare : cfg.f + 2 * cfg.e + 2 ≤ (p.senders \ F).card) {m : RepairStart}
    {Q : Finset ℕ} (hQ : Q ⊆ Finset.range cfg.numReplicas) (hcard : cfg.superQuorumSize ≤ Q.card)
    (haccepted : ∀ i ∈ Q, i ∉ F →
      HasDigest hist m.log.checkpoint.seq m.log.checkpoint.logDigest i) :
    Confirmed cfg F hist p.startMsgs m := by
  have hoverlap := Quorum.card_add_card_le
    ((Finset.sdiff_subset (s := p.senders) (t := F)).trans hsenders) hQ
  have herase := Finset.pred_card_le_card_erase (s := (p.senders \ F) ∩ Q) (a := m.replicaId)
  have hsub : ((p.senders \ F) ∩ Q).erase m.replicaId ⊆
      ((p.startMsgs.filter fun m' => decide (m'.replicaId ≠ m.replicaId ∧
        CountsFor F hist m.log.checkpoint m')).map (·.replicaId)).toFinset := by
    intro i hi
    obtain ⟨hne, hi⟩ := Finset.mem_erase.mp hi
    obtain ⟨hi, hiQ⟩ := Finset.mem_inter.mp hi
    obtain ⟨hi, hiF⟩ := Finset.mem_sdiff.mp hi
    obtain ⟨m', hm', rfl⟩ := List.mem_map.mp (List.mem_toFinset.mp hi)
    refine List.mem_toFinset.mpr (List.mem_map_of_mem (List.mem_filter.mpr ⟨hm', ?_⟩))
    rw [decide_eq_true_eq, CountsFor, if_neg hiF]
    exact ⟨hne, haccepted _ hiQ hiF⟩
  have hle := (Finset.card_le_card hsub).trans (card_senders_le p.startMsgs fun m' =>
    m'.replicaId ≠ m.replicaId ∧ CountsFor F hist m.log.checkpoint m')
  rw [Finset.card_range] at hoverlap
  simp only [Config.WellFormed, Config.superQuorumSize] at hcfg hcard
  rw [Confirmed]
  omega

end

/-! ### Applying the suffix -/

section

variable {A : Type} [Application A]

/-- The application executes payloads one after the other, from a position on. -/
def Executes : A → ℕ → List Bytes → Prop
  | _, _, [] => True
  | a, idx, d :: ds =>
    ∃ a' res, Application.execute a d idx = .ok (a', res) ∧ Executes a' (idx + 1) ds

variable [Sha256] [PaddedRequestData]

/-- The payloads of the requests that are new to a client record when their turn comes. -/
def newPayloads : ClientRecord → List Request → List Bytes
  | _, [] => []
  | r, a :: as =>
    (if (r.update a.clientId a.clientSeq).2 then (reqData a.request).toList else []) ++
      newPayloads (r.update a.clientId a.clientSeq).1 as

/-- The request at hand for an entry. -/
def LogEntryProto.requestIn (e : LogEntryProto) (available : RequestMap Bytes) : Request :=
  ⟨e.clientId, e.clientSeq, (available[e.id]?).getD []⟩

variable {l l' : Log A}

/-- The digest that the next entry is chained to can be found. -/
def Log.CanAppend (l : Log A) : Prop :=
  l.nextSeq - 1 = l.stableCheckpoint.seq ∨ l.log ≠ []

omit [Application A] [Sha256] [PaddedRequestData] in
lemma Log.CanAppend.prevDigest (hl : l.CanAppend) : ∃ d, l.prevDigest = .ok d := by
  rw [Log.prevDigest]
  split_ifs with hstable
  · exact ⟨_, rfl⟩
  · cases hlast : l.log.getLast? with
    | none => exact absurd (List.getLast?_eq_none_iff.mp hlast) (hl.resolve_left hstable)
    | some e => exact ⟨_, rfl⟩

/-- What has changed when an entry was not executed. -/
structure Log.Skips (l l' : Log A) : Prop where
  app_eq : l'.app = l.app
  nextSeq_eq : l'.nextSeq = l.nextSeq
  canAppend : l'.CanAppend

/-- What has changed when an entry was executed. -/
structure Log.Advances (l l' : Log A) (a : A) : Prop where
  app_eq : l'.app = a
  nextSeq_eq : l'.nextSeq = l.nextSeq + 1
  canAppend : l'.CanAppend

/-- When an entry is appended: the application executes its payload, if it parses. -/
lemma Log.CanAppend.append (hl : l.CanAppend) (c s : UInt32) (req : Bytes) :
    (reqData req = none ∧ ∃ l', l.append c s req = .ok (l', none) ∧ l.Skips l' ∧
        l'.clientRecord = l.clientRecord) ∨
      ∃ d, reqData req = some d ∧
        ((∃ fault, Application.execute l.app d l.nextSeq = .error fault ∧
            l.append c s req = .error fault) ∨
          ∃ a res l', Application.execute l.app d l.nextSeq = .ok (a, res) ∧
            l.append c s req = .ok (l', some res) ∧ l.Advances l' a ∧
            l'.clientRecord = l.clientRecord) := by
  obtain ⟨d, hd⟩ := hl.prevDigest
  rw [Log.append, hd, ok_bind]
  cases hreq : reqData req with
  | none =>
      exact .inl ⟨rfl, _, rfl, ⟨rfl, rfl, .inr (List.append_ne_nil_of_right_ne_nil _
        (List.cons_ne_nil _ _))⟩, rfl⟩
  | some data =>
      refine .inr ⟨data, rfl, ?_⟩
      dsimp only
      cases hexec : Application.execute l.app data l.nextSeq with
      | error fault => exact .inl ⟨fault, rfl, rfl⟩
      | ok res =>
          exact .inr ⟨res.1, res.2, _, rfl, rfl, ⟨rfl, rfl, .inr
            (List.append_ne_nil_of_right_ne_nil _ (List.cons_ne_nil _ _))⟩, rfl⟩

/-- When an entry is added: the application executes its payload, if the request is new and
parses. -/
lemma Log.CanAppend.addEntry (hl : l.CanAppend) (c s : UInt32) (req : Bytes) :
    (((l.clientRecord.update c s).2 = false ∨ reqData req = none) ∧
        ∃ l', l.addEntry c s req = .ok (l', none) ∧ l.Skips l' ∧
          l'.clientRecord = (l.clientRecord.update c s).1) ∨
      (l.clientRecord.update c s).2 = true ∧ ∃ d, reqData req = some d ∧
        ((∃ fault, Application.execute l.app d l.nextSeq = .error fault ∧
            l.addEntry c s req = .error fault) ∨
          ∃ a res l', Application.execute l.app d l.nextSeq = .ok (a, res) ∧
            l.addEntry c s req = .ok (l', some res) ∧ l.Advances l' a ∧
            l'.clientRecord = (l.clientRecord.update c s).1) := by
  rw [Log.addEntry, if_pos rfl]
  dsimp only
  cases hnew : (l.clientRecord.update c s).2 with
  | false => exact .inl ⟨.inl rfl, _, rfl, ⟨rfl, rfl, hl⟩, rfl⟩
  | true =>
      rw [if_pos rfl]
      have happend := Log.CanAppend.append
        (l := { l with clientRecord := (l.clientRecord.update c s).1 }) hl c s req
      rcases happend with ⟨hnone, l', hok, ⟨h1, h2, h3⟩, h4⟩ |
        ⟨d, hd, ⟨fault, hexec, herr⟩ | ⟨a, res, l', hexec, hok, ⟨h1, h2, h3⟩, h4⟩⟩
      · exact .inl ⟨.inr hnone, l', hok, ⟨h1, h2, h3⟩, h4⟩
      · exact .inr ⟨rfl, d, hd, .inl ⟨fault, hexec, herr⟩⟩
      · exact .inr ⟨rfl, d, hd, .inr ⟨a, res, l', hexec, hok, ⟨h1, h2, h3⟩, h4⟩⟩

/-- **When the last loop ends**: every entry has a request with its digest at hand, and the
application executes those that are new. -/
lemma addSuffix_isOk_iff (available : RequestMap Bytes) (es : List LogEntryProto)
    (hl : l.CanAppend) :
    (∃ l', addSuffix available l l.nextSeq es = .ok l') ↔
      (∀ e ∈ es, ∃ request, available[e.id]? = some request ∧
        sha256 request = e.requestDigest) ∧
      Executes l.app l.nextSeq (newPayloads l.clientRecord (es.map (·.requestIn available))) := by
  induction es generalizing l with
  | nil => exact ⟨fun _ => ⟨by simp, trivial⟩, fun _ => ⟨l, rfl⟩⟩
  | cons e es ih =>
      rw [addSuffix, if_neg (not_not.mpr rfl), List.forall_mem_cons, List.map_cons, newPayloads]
      cases hreq : available[e.id]? with
      | none =>
          refine iff_of_false ?_ ?_
          · rintro ⟨_, h⟩
            cases h
          · rintro ⟨⟨⟨_, h, -⟩, -⟩, -⟩
            cases h
      | some request =>
          dsimp only
          by_cases hsha : sha256 request = e.requestDigest
          · rw [if_neg (not_not.mpr hsha)]
            have hhead : ∃ r, some request = some r ∧ sha256 r = e.requestDigest :=
              ⟨request, rfl, hsha⟩
            have hin : e.requestIn available = ⟨e.clientId, e.clientSeq, request⟩ := by
              rw [LogEntryProto.requestIn, hreq]
              rfl
            rw [hin]
            dsimp only
            rcases hl.addEntry e.clientId e.clientSeq request with
              ⟨hskip, l', hadd, ⟨happ, hnext, hcan⟩, hrec⟩ |
              ⟨hnew, d, hd, ⟨fault, hexec, herr⟩ | ⟨a, res, l', hexec, hadd, ⟨happ, hnext, hcan⟩,
                hrec⟩⟩
            · have hnone : (if (l.clientRecord.update e.clientId e.clientSeq).2 = true then
                  (reqData request).toList else []) = [] := by
                rcases hskip with h | h
                · rw [h, if_neg (by decide)]
                · rw [h, Option.toList_none, ite_self]
              rw [hadd, ok_bind, hnone, List.nil_append]
              dsimp only
              rw [if_neg (by decide), ← hnext, ih hcan, happ, hrec, and_iff_right hhead]
            · rw [herr, error_bind, if_pos hnew, hd]
              refine iff_of_false ?_ ?_
              · rintro ⟨_, h⟩
                cases h
              · rintro ⟨-, a, res, h, -⟩
                rw [hexec] at h
                cases h
            · rw [hadd, ok_bind, if_pos hnew, hd]
              dsimp only
              rw [if_pos (by rfl), ← hnext, ih hcan, happ, hrec, and_iff_right hhead]
              refine and_congr_right fun _ => ?_
              rw [Option.toList_some, List.singleton_append, Executes, hexec, ← hnext]
              constructor
              · exact fun h => ⟨a, res, rfl, h⟩
              · rintro ⟨_, _, heq, h⟩
                cases heq
                exact h
          · rw [if_pos hsha]
            refine iff_of_false ?_ ?_
            · rintro ⟨_, h⟩
              cases h
            · rintro ⟨⟨⟨_, h, hd⟩, -⟩, -⟩
              exact hsha (Option.some.inj h ▸ hd)

omit [Application A] [PaddedRequestData] in
/-- The first loop ends: it reads digests inside the log only. -/
lemma skipEntries_isOk (hl : l.WellFormed) (seq : ℕ) (r : ClientRecord)
    (es : List LogEntryProto) : ∃ res, skipEntries l seq r es = .ok res := by
  induction es generalizing seq r with
  | nil => exact ⟨_, rfl⟩
  | cons e es ih =>
      rw [skipEntries]
      split_ifs with hnext hcommitted
      · exact ⟨_, rfl⟩
      · exact ih _ _
      · have hstable := hl.stable_le
        rcases hl.getDigestAt seq with ⟨-, -, hdigest⟩ | ⟨hno, -⟩
        · rw [hdigest, ok_bind]
          split_ifs
          · exact ⟨_, rfl⟩
          · exact ih _ _
        · exact absurd ⟨by omega, by omega⟩ hno

/-- The local requests from a position on, on top of those that are available. -/
def localRequests (h : List Request) (p : ℕ) (available : RequestMap Bytes) : RequestMap Bytes :=
  (h.drop (p - 1)).foldl (fun m a => m.insert a.id a.request) available

omit [Application A] [PaddedRequestData] in
/-- The second loop ends: it reads entries inside the log only. -/
lemma addLocalRequests_eq {h : List Request} (hr : l.Represents h) {p : ℕ}
    (hp : l.stableCheckpoint.seq < p) (available : RequestMap Bytes) :
    addLocalRequests l p available = .ok (localRequests h p available) := by
  have hnext := hr.nextSeq_history
  obtain ⟨q, rfl⟩ : ∃ q, p = q + 1 := ⟨p - 1, by omega⟩
  obtain ⟨es, hes⟩ : ∃ es, (List.range' (q + 1) (l.nextSeq - (q + 1))).mapM l.getEntry =
      .ok es := by
    have hget : ∀ i ∈ List.range' (q + 1) (l.nextSeq - (q + 1)), ∃ e, l.getEntry i = .ok e := by
      intro i hi
      rw [List.mem_range'_1] at hi
      obtain ⟨e, -, hget, -⟩ := hr.getEntry_eq (p := i) (by omega) (by omega)
      exact ⟨e, hget⟩
    choose! f hf using hget
    exact ⟨_, mapM_eq_ok.mpr (List.forall₂_map_right_iff.mpr (List.forall₂_same.mpr hf))⟩
  rw [addLocalRequests, hes, ok_bind]
  have hreqs := (LogCluster.getEntries_eq hr (a := q) (by omega) (by omega)
    (mapM_eq_ok.mp hes)).2.1
  rw [List.take_of_length_le (by rw [List.length_drop]; omega)] at hreqs
  rw [localRequests, Nat.add_sub_cancel, ← hreqs, List.foldl_map]
  rfl

/-- The application goes back to a position, or stays where it is. -/
def Log.GoesBack (l : Log A) (p : ℕ) (app : A) : Prop :=
  p = l.nextSeq ∧ app = l.app ∨ p < l.nextSeq ∧ Application.abort l.app p = .ok app

omit [PaddedRequestData] in
/-- When the log can be cut: the application goes back. -/
lemma abort_isOk (hl : l.WellFormed) {p : ℕ} (hc : l.committedCheckpoint.seq < p)
    (hp : p ≤ l.nextSeq) :
    (∃ fault, l.abort p = .error fault ∧ ∀ app, ¬l.GoesBack p app) ∨
      ∃ l', l.abort p = .ok l' ∧ l.GoesBack p l'.app ∧ (∀ app, l.GoesBack p app → app = l'.app) ∧
        l'.nextSeq = p ∧ l'.CanAppend ∧ l'.clientRecord = l.clientRecord := by
  have hnext := hl.nextSeq_eq
  have hstable := hl.stable_le
  have hcan : ∀ app : A, Log.CanAppend { l with
      log := l.log.take (p - 1 - l.stableCheckpoint.seq), app, nextSeq := p } := by
    intro app
    by_cases hfirst : p - 1 = l.stableCheckpoint.seq
    · exact .inl hfirst
    · refine .inr fun hnil => ?_
      have hlen := congrArg List.length hnil
      rw [List.length_take, List.length_nil] at hlen
      omega
  rw [Log.abort]
  by_cases hlast : l.nextSeq ≤ p
  · obtain rfl : p = l.nextSeq := hp.antisymm hlast
    rw [if_pos hlast]
    refine .inr ⟨_, rfl, .inl ⟨rfl, rfl⟩, ?_, rfl, ?_, rfl⟩
    · rintro app (⟨-, rfl⟩ | ⟨hlt, -⟩)
      · rfl
      · exact absurd hlt (lt_irrefl _)
    · have happ := hcan l.app
      rw [List.take_of_length_le (by omega)] at happ
      exact happ
  · rw [if_neg hlast, if_neg (by omega), hl.eraseFrom (by omega) hp, ok_bind]
    cases habort : Application.abort l.app p with
    | error fault =>
        refine .inl ⟨fault, rfl, ?_⟩
        rintro app (⟨heq, -⟩ | ⟨-, hok⟩)
        · exact hlast heq.ge
        · rw [habort] at hok
          cases hok
    | ok app =>
        refine .inr ⟨_, rfl, .inr ⟨Nat.lt_of_not_le hlast, habort⟩, ?_, rfl, hcan app, rfl⟩
        rintro app' (⟨heq, -⟩ | ⟨-, hok⟩)
        · exact absurd heq.ge hlast
        · exact (Except.ok.inj (habort.symm.trans hok)).symm

/-- `applySuffix` comes to an end: the committed checkpoint is not before the end of the suffix;
or the application goes back to where the log stops to agree with the suffix, and then requests
are missing, or those at hand have the digests of the entries and the application executes
them. -/
def Applicable (s : LogSuffix) (available : RequestMap Bytes) (l : Log A) (h : List Request) :
    Prop :=
  s.checkpoint.seq + s.entries.length ≤ l.committedCheckpoint.seq ∨
    ∃ k app, l.AgreesUpTo (s.checkpoint.seq + 1) s.entries k ∧
      l.GoesBack (s.checkpoint.seq + 1 + k) app ∧
      let (atHand, missing) := addFullRequests (s.entries.drop k)
        (localRequests h (s.checkpoint.seq + 1 + k) available)
      missing ≠ [] ∨
        (∀ e ∈ s.entries.drop k, ∃ request, atHand[e.id]? = some request ∧
          sha256 request = e.requestDigest) ∧
        Executes app (s.checkpoint.seq + 1 + k)
          (newPayloads (s.recordAfter k) ((s.entries.drop k).map (·.requestIn atHand)))

omit [Application A] [PaddedRequestData] [Sha256] in
lemma LogSuffix.CheckpointHeld.checkCheckpoint {s : LogSuffix} (hs : s.CheckpointHeld l) :
    checkCheckpoint s l = .ok () := by
  rw [DomBft.checkCheckpoint]
  split_ifs with hle
  · rfl
  · rw [(hs.resolve_left hle).2, ok_bind, if_pos rfl]

/-- **When `applySuffix` comes to an end.** -/
lemma applySuffix_isOk_iff {h : List Request} (hr : l.Represents h) {s : LogSuffix}
    (hs : s.CheckpointHeld l) (available : RequestMap Bytes) :
    (∃ res, applySuffix s available l = .ok res) ↔ Applicable s available l h := by
  have hcommitted := hr.committed_lt
  have hstable := hr.stable_le
  have hnext : s.checkpoint.seq + 1 ≤ l.nextSeq := by
    rcases hs with hle | ⟨hlt, -⟩ <;> omega
  rw [applySuffix, hs.checkCheckpoint, ok_bind]
  by_cases hend : s.checkpoint.seq + s.entries.length ≤ l.committedCheckpoint.seq
  · rw [if_pos hend]
    exact iff_of_true ⟨_, rfl⟩ (.inl hend)
  obtain ⟨skipped, hskip⟩ := skipEntries_isOk hr.toWellFormed (s.checkpoint.seq + 1)
    (.ofProto s.checkpoint.clientRecord) s.entries
  obtain ⟨k, hk, rfl⟩ := skipEntries_cases hskip
  obtain ⟨hcut, hle⟩ := hk.bounds hr.toWellFormed hnext (by omega)
  have hr₀ : Log.Represents { l with clientRecord := s.recordAfter k } h :=
    hr.congr rfl rfl rfl rfl
  rw [if_neg hend, hskip, ok_bind]
  dsimp only
  rw [addLocalRequests_eq hr (by omega), ok_bind]
  have hresult : Applicable s available l h ↔
      ∃ app, l.GoesBack (s.checkpoint.seq + 1 + k) app ∧
        let (atHand, missing) := addFullRequests (s.entries.drop k)
          (localRequests h (s.checkpoint.seq + 1 + k) available)
        missing ≠ [] ∨
          (∀ e ∈ s.entries.drop k, ∃ request, atHand[e.id]? = some request ∧
            sha256 request = e.requestDigest) ∧
          Executes app (s.checkpoint.seq + 1 + k)
            (newPayloads (s.recordAfter k) ((s.entries.drop k).map (·.requestIn atHand))) := by
    constructor
    · rintro (hge | ⟨k', app, hk', hback, hrest⟩)
      · exact absurd hge hend
      · obtain rfl := hk.unique hk'
        exact ⟨app, hback, hrest⟩
    · rintro ⟨app, hback, hrest⟩
      exact .inr ⟨k, app, hk, hback, hrest⟩
  rw [hresult]
  rcases abort_isOk hr₀.toWellFormed hcut hle with
    ⟨fault, habort, hno⟩ | ⟨l₁, habort, hback, huniq, hnext₁, hcan, hrec⟩
  · -- the application does not go back
    have habort' : Log.abort { l with clientRecord := (ClientRecord.ofProto
        s.checkpoint.clientRecord).addAll ((s.entries.take k).map LogEntryProto.id) }
        (s.checkpoint.seq + 1 + k) = .error fault := habort
    rw [habort', error_bind]
    refine iff_of_false ?_ ?_
    · rintro ⟨_, h⟩
      cases h
    · rintro ⟨app, happ, -⟩
      exact hno app happ
  · have habort' : Log.abort { l with clientRecord := (ClientRecord.ofProto
        s.checkpoint.clientRecord).addAll ((s.entries.take k).map LogEntryProto.id) }
        (s.checkpoint.seq + 1 + k) = .ok l₁ := habort
    rw [habort', ok_bind]
    have honly : ∀ P : A → Prop,
        (∃ app, l.GoesBack (s.checkpoint.seq + 1 + k) app ∧ P app) ↔ P l₁.app := by
      refine fun P => ⟨?_, fun hP => ⟨_, hback, hP⟩⟩
      rintro ⟨app, happ, hP⟩
      rwa [← huniq app happ]
    rw [honly]
    dsimp only
    split_ifs with hmissing
    · exact iff_of_true ⟨_, rfl⟩ (.inl hmissing)
    · have hadd := addSuffix_isOk_iff (addFullRequests (s.entries.drop k)
        (localRequests h (s.checkpoint.seq + 1 + k) available)).1 (s.entries.drop k) hcan
      rw [hnext₁, hrec] at hadd
      rw [or_iff_right hmissing, ← hadd]
      constructor
      · rintro ⟨res, hres⟩
        obtain ⟨l₂, hl₂, -⟩ := bind_eq_ok.mp hres
        exact ⟨l₂, hl₂⟩
      · rintro ⟨l₂, hl₂⟩
        exact ⟨_, bind_eq_ok.mpr ⟨l₂, hl₂, rfl⟩⟩

end

/-! ### Proposals that verify -/

section

variable [SignatureProvider] {cfg : Config}

/-- The messages of a proposal that verifies are signed by their replicas. -/
lemma signed_of_verifyStartMsgs {ms : List RepairStart} {sigs : List Bytes}
    (h : verifyStartMsgs cfg ms sigs = .ok true) {m : RepairStart} (hm : m ∈ ms) :
    ∃ body sig, SignatureProvider.verify m.replicaId body sig = true := by
  induction ms generalizing sigs with
  | nil => cases hm
  | cons a ms ih =>
      cases sigs with
      | nil => cases h
      | cons sig sigs =>
          rw [verifyStartMsgs] at h
          split at h
          · cases h
          rename_i hsigned
          obtain ⟨ok, -, h⟩ := bind_eq_ok.mp h
          cases ok with
          | false => cases pure_eq_ok.mp h
          | true =>
              rcases List.mem_cons.mp hm with rfl | hm
              · exact ⟨_, sig, by simpa using hsigned⟩
              · exact ih h hm

variable {A : Type} [Application A] [Sha256] [PaddedRequestData]

end

/-! ### A log behind the checkpoint -/

section

attribute [local instance] prefixSha shortPaddedRequestData counterWire fourKeys

/-- A log with one request, which is committed. -/
def committedLog : Log Counter :=
  let l := Log.ofHistory {} [⟨0, 1, []⟩]
  { l with committedCheckpoint := { seq := 1, logDigest := l.getDigest } }

lemma committedLog_represents : committedLog.Represents [⟨0, 1, []⟩] where
  nextSeq_eq := rfl
  segment := (Log.represents_ofHistory ({} : Counter) [⟨0, 1, []⟩]).segment
  stable_le := by decide
  committed_lt := by decide
  nextSeq_history := rfl
  requests := rfl
  stable_digest := rfl
  committed_digest := rfl

/-- Replica 0 says that its log is empty, the others send the committed request. -/
def behindProposal (ids : List ℕ) : RepairProposal where
  startMsgs := { replicaId := 0, log? := some {} } ::
    ids.map fun i => { replicaId := i, log? := some (committedLog.toProto true) }
  signatures := [0] :: ids.map fun i => [UInt8.ofNat i]

/-- The messages of the other replicas are those of correct ones. -/
lemma behindProposal_correct (ids : List ℕ) : ∀ m ∈ (behindProposal ids).startMsgs,
    m.replicaId ∉ ({0} : Finset ℕ) → m.log? = some (committedLog.toProto true) ∧
      committedLog.Represents [⟨0, 1, []⟩] := by
  intro m hm hmF
  rcases List.mem_cons.mp hm with rfl | hm
  · exact absurd (by decide) hmF
  · obtain ⟨i, -, rfl⟩ := List.mem_map.mp hm
    exact ⟨rfl, committedLog_represents⟩

/-- All replicas have accepted the checkpoint of a correct one. -/
lemma behindProposal_accepted (ids : List ℕ) : ∀ m ∈ (behindProposal ids).startMsgs,
    m.replicaId ∉ ({0} : Finset ℕ) → ∀ i, HasDigest (fun _ => [⟨0, 1, []⟩])
      m.log.checkpoint.seq m.log.checkpoint.logDigest i := by
  intro m hm hmF i
  rw [RepairStart.log, (behindProposal_correct ids m hm hmF).1]
  exact (by decide : HasDigest (fun _ => [⟨0, 1, []⟩]) (committedLog.toProto true).checkpoint.seq
    (committedLog.toProto true).checkpoint.logDigest 0)

end

end DomBft
