import DomBft.Repair.Apply
import DomBft.Repair.Integrity

/-!
Where a replica stands after it has applied a suffix.

The requests of the decided history are those that the entries of the suffix stand for
(`Holds`), behind the history of the checkpoint.  `agreement_iff` says exactly when
`applySuffix` brings a log whose committed part is decided to the end of the suffix, with
the digest that `getLogSuffixFromProposal` has computed and the client record of the whole
suffix.  Hence `agreement` for two replicas.
-/

namespace DomBft

section

variable [Sha256]

/-- The entry stands for the request at its position in the history it has been sent
from. -/
def RepairProposal.Holds (p : RepairProposal) (hist : ℕ → List Request) (e : LogEntryProto)
    (a : Request) : Prop :=
  ∃ m ∈ p.startMsgs, e ∈ m.log.entries ∧ (hist m.replicaId)[e.seq - 1]? = some a

/-- The start messages are those of correct replicas, whose histories are `hist`. -/
structure RepairProposal.FromCorrect (full : Bool) (p : RepairProposal)
    (hist : ℕ → List Request) : Prop where
  describes : ∀ m ∈ p.startMsgs, m.log.Describes full (hist m.replicaId)
  length_lt : ∀ m ∈ p.startMsgs, (hist m.replicaId).length < 2 ^ 32

omit [Sha256] in
lemma forall₂_getElem? {α β : Type*} {R : α → β → Prop} {as : List α} {bs : List β}
    (h : List.Forall₂ R as bs) {i : ℕ} {a : α} (ha : as[i]? = some a) :
    ∃ b, bs[i]? = some b ∧ R a b := by
  induction h generalizing i with
  | nil => simp at ha
  | cons hab hs ih =>
      cases i with
      | zero =>
          cases Option.some.inj ha
          exact ⟨_, rfl, hab⟩
      | succ i => exact ih ha

/-- The decided history: that of the checkpoint, and the requests of the suffix. -/
def LogSuffix.decided (s : LogSuffix) (hist : ℕ → List Request) (reqs : List Request) :
    List Request :=
  (hist s.checkpointReplica).take s.checkpoint.seq ++ reqs

variable {full : Bool} {cfg : Config} {p : RepairProposal} {hist : ℕ → List Request}
  {s : LogSuffix} {reqs : List Request}

lemma RepairProposal.FromCorrect.entry_eq (hp : p.FromCorrect full hist) {e : LogEntryProto}
    {a : Request} (he : p.Holds hist e a) :
    ∃ m ∈ p.startMsgs, 0 < e.seq ∧ (hist m.replicaId)[e.seq - 1]? = some a ∧
      e = historyEntry full (hist m.replicaId) e.seq a := by
  obtain ⟨m, hm, he, ha⟩ := he
  obtain ⟨hpos, a', ha', heq⟩ := (hp.describes m hm).entry_eq he
  cases Option.some.inj (ha'.symm.trans ha)
  exact ⟨m, hm, hpos, ha, heq⟩

/-- An entry names the request it stands for. -/
lemma RepairProposal.FromCorrect.names (hp : p.FromCorrect full hist) {e : LogEntryProto}
    {a : Request} (he : p.Holds hist e a) : e.Names a := by
  obtain ⟨m, -, -, -, heq⟩ := hp.entry_eq he
  rw [heq]
  exact ⟨rfl, rfl⟩

/-- With its payload, an entry is the request it stands for; without, only if that is
empty. -/
lemma RepairProposal.FromCorrect.toRequest_eq_iff (hp : p.FromCorrect full hist)
    {e : LogEntryProto} {a : Request} (he : p.Holds hist e a) :
    e.toRequest = a ↔ full = true ∨ a.request = [] := by
  obtain ⟨m, -, -, -, heq⟩ := hp.entry_eq he
  rw [heq]
  cases full with
  | true => simp [historyEntry, LogEntryProto.toRequest]
  | false =>
      cases a
      simp [historyEntry, LogEntryProto.toRequest, eq_comm]

lemma RepairProposal.FromCorrect.map_toRequest_eq_iff (hp : p.FromCorrect full hist)
    {es : List LogEntryProto} (hreqs : List.Forall₂ (p.Holds hist) es reqs) :
    es.map LogEntryProto.toRequest = reqs ↔ full = true ∨ ∀ a ∈ reqs, a.request = [] := by
  induction hreqs with
  | nil => simp
  | cons he hes ih =>
      rw [List.map_cons, List.cons.injEq, hp.toRequest_eq_iff he, ih, List.forall_mem_cons]
      tauto

/-- The checkpoint of a suffix is a point of a history. -/
lemma RepairProposal.FromCorrect.checkpoint (hp : p.FromCorrect full hist)
    (hs : getLogSuffixFromProposal cfg p = .ok s) :
    ((hist s.checkpointReplica).take s.checkpoint.seq).length = s.checkpoint.seq ∧
      (hist s.checkpointReplica).length < 2 ^ 32 ∧
      s.checkpoint.logDigest = logDigest ((hist s.checkpointReplica).take s.checkpoint.seq) := by
  obtain ⟨m, hm, -, hck, hreplica, -⟩ := getLogSuffix_cases hs
  rw [hck, hreplica, List.length_take, Nat.min_eq_left (hp.describes m hm).checkpoint_le]
  exact ⟨rfl, hp.length_lt m hm, (hp.describes m hm).checkpoint_digest⟩

/-- The digest of the suffix is that of the decided history exactly if the payloads are in
the messages. -/
lemma logDigest_decided_iff (hc : CollisionFree) (hp : p.FromCorrect full hist)
    (hs : getLogSuffixFromProposal cfg p = .ok s)
    (hreqs : List.Forall₂ (p.Holds hist) s.entries reqs)
    (hlen : s.checkpoint.seq + s.entries.length < 2 ^ 32) :
    logDigest (s.decided hist reqs) = s.logDigest ↔
      full = true ∨ ∀ a ∈ reqs, a.request = [] := by
  obtain ⟨hck, -, hdigest⟩ := hp.checkpoint hs
  have hsuffix : s.logDigest = logDigest ((hist s.checkpointReplica).take s.checkpoint.seq ++
      s.entries.map LogEntryProto.toRequest) := by
    obtain ⟨-, -, -, -, -, -, -, hlog⟩ := getLogSuffix_cases hs
    rw [hlog, logDigest_append, hck, ← hdigest]
    rfl
  have hreqlen := hreqs.length_eq
  rw [hsuffix, ← hp.map_toRequest_eq_iff hreqs]
  constructor
  · intro h
    have heq : s.decided hist reqs = (hist s.checkpointReplica).take s.checkpoint.seq ++
        s.entries.map LogEntryProto.toRequest := by
      refine logDigest_inj hc ?_ ?_ h
      · rw [LogSuffix.decided, List.length_append, hck, ← hreqlen]
        exact hlen
      · rw [List.length_append, hck, List.length_map]
        exact hlen
    exact (List.append_cancel_left heq).symm
  · intro h
    rw [h]
    rfl

variable {A : Type} {l : Log A} {h : List Request}

/-- **The local log is decided as far as it agrees with the suffix.** -/
lemma take_eq_decided (hc : CollisionFree) (hp : p.FromCorrect full hist)
    (hs : getLogSuffixFromProposal cfg p = .ok s)
    (hreqs : List.Forall₂ (p.Holds hist) s.entries reqs) (hr : l.Represents h)
    (hlen : h.length < 2 ^ 32)
    (hdec : h.take l.committedCheckpoint.seq <+: s.decided hist reqs)
    (hcheck : s.checkpoint.seq ≤ l.committedCheckpoint.seq ∨
      l.getDigestAt s.checkpoint.seq = .ok s.checkpoint.logDigest) {k : ℕ}
    (hk : l.AgreesUpTo (s.checkpoint.seq + 1) s.entries k) :
    s.checkpoint.seq + k ≤ h.length ∧
      h.take (s.checkpoint.seq + k) = (s.decided hist reqs).take (s.checkpoint.seq + k) := by
  obtain ⟨hck, hcklen, hckdigest⟩ := hp.checkpoint hs
  have hckle : s.checkpoint.seq ≤ (hist s.checkpointReplica).length := by
    rw [List.length_take] at hck
    omega
  have hnext := hr.nextSeq_history
  have hcommitted := hr.committed_le
  have hstable := hr.stable_le
  -- digests above the committed checkpoint are those of the local history
  have hdigestAt : ∀ {q d}, l.committedCheckpoint.seq < q → l.getDigestAt q = .ok d →
      q ≤ h.length ∧ logDigest (h.take q) = d := by
    intro q d hq hd
    rcases hr.getDigestAt q with ⟨hs, hlt, -⟩ | ⟨-, herr⟩
    · rw [hr.getDigestAt_eq hs (by omega)] at hd
      exact ⟨by omega, Except.ok.inj hd⟩
    · rw [hd] at herr
      cases herr
  have hckle' : s.checkpoint.seq ≤ h.length := by
    rcases hcheck with hle | hd
    · omega
    · by_cases hlt : l.committedCheckpoint.seq < s.checkpoint.seq
      · exact (hdigestAt hlt hd).1
      · omega
  have hkle : s.checkpoint.seq + k ≤ h.length := by
    cases k with
    | zero => exact hckle'
    | succ k =>
        obtain ⟨e, he⟩ : ∃ e, s.entries[k]? = some e := ⟨_, List.getElem?_eq_getElem hk.le⟩
        have hlt := (hk.agrees k e (Nat.lt_succ_self k) he).1
        omega
  have hpre : h.take l.committedCheckpoint.seq =
      (s.decided hist reqs).take l.committedCheckpoint.seq := by
    have heq := List.prefix_iff_eq_take.mp hdec
    rwa [List.length_take, Nat.min_eq_left hcommitted] at heq
  refine ⟨hkle, List.ext_getElem? fun i => ?_⟩
  by_cases hi : i < s.checkpoint.seq + k
  swap
  · rw [List.getElem?_eq_none, List.getElem?_eq_none] <;> rw [List.length_take] <;> omega
  rw [List.getElem?_take_of_lt hi, List.getElem?_take_of_lt hi]
  by_cases hic : i < l.committedCheckpoint.seq
  · rw [← List.getElem?_take_of_lt hic, hpre, List.getElem?_take_of_lt hic]
  by_cases hick : i < s.checkpoint.seq
  · -- below the checkpoint of the suffix, whose digest the log has
    have hd := hdigestAt (show l.committedCheckpoint.seq < s.checkpoint.seq by omega)
      (hcheck.resolve_left (by omega))
    have htake := (take_eq_of_logDigest hc hlen hcklen hd.1 hckle (hd.2.trans hckdigest)).2
    rw [LogSuffix.decided, List.getElem?_append_left (by rw [hck]; exact hick),
      ← List.getElem?_take_of_lt hick, htake]
  · -- at an entry of the suffix, whose digest the log has
    obtain ⟨e, he⟩ : ∃ e, s.entries[i - s.checkpoint.seq]? = some e :=
      ⟨_, List.getElem?_eq_getElem (by have := hk.le; omega)⟩
    obtain ⟨-, hag⟩ := hk.agrees _ e (by omega) he
    rw [show s.checkpoint.seq + 1 + (i - s.checkpoint.seq) = i + 1 by omega] at hag
    have hd := hdigestAt (show l.committedCheckpoint.seq < i + 1 by omega)
      (hag.resolve_left (by omega))
    obtain ⟨a, ha, hhold⟩ := forall₂_getElem? hreqs he
    obtain ⟨m, hm, hpos, hget, heq⟩ := hp.entry_eq hhold
    have hele : e.seq ≤ (hist m.replicaId).length := by
      have := (List.getElem?_eq_some_iff.mp hget).1
      omega
    obtain ⟨hseq, htake⟩ := take_eq_of_logDigest hc hlen (hp.length_lt m hm) hd.1 hele
      (hd.2.trans (by rw [heq]; rfl))
    rw [LogSuffix.decided, List.getElem?_append_right (by rw [hck]; omega), hck, ha, ← hget,
      ← List.getElem?_take_of_lt (Nat.lt_succ_self i), htake,
      List.getElem?_take_of_lt (by omega), show e.seq - 1 = i by omega]

end

/-! ### Agreement -/

/-- What it takes for `applySuffix` to reach the end of a suffix.  The payloads are in the
messages, or empty.  Before the end, the requests behind the part that the log has are new to
the client record and parse.  At the end, where nothing is done, the log ends there already
and has the record. -/
structure LogSuffix.Applies [Sha256] [PaddedRequestData] {A : Type} (cfg : Config)
    (s : LogSuffix) (reqs : List Request) (l : Log A) : Prop where
  payloads : cfg.replicaIncludeFullRequests = true ∨ ∀ a ∈ reqs, a.request = []
  beforeEnd : l.committedCheckpoint.seq < s.checkpoint.seq + s.entries.length →
    ∀ k, l.AgreesUpTo (s.checkpoint.seq + 1) s.entries k →
      AllNew (s.recordAfter k) (reqs.drop k)
  atEnd : l.committedCheckpoint.seq = s.checkpoint.seq + s.entries.length →
    l.nextSeq = s.checkpoint.seq + s.entries.length + 1 ∧
      l.clientRecord = s.recordAfter s.entries.length

section

variable [Sha256] [PaddedRequestData] {A : Type} [Application A]

/-- **When a repair leads to agreement.**  For a log whose committed part is decided,
`applySuffix` ends at the end of the suffix, with the digest of the suffix and the client
record of its checkpoint and its requests, exactly if the suffix applies. -/
theorem applySuffix_agreement_iff (hc : CollisionFree) {cfg : Config} {p : RepairProposal}
    {logs : ℕ → Log A} {hist : ℕ → List Request}
    (hlogs : ∀ m ∈ p.startMsgs,
      m.log? = some ((logs m.replicaId).toProto cfg.replicaIncludeFullRequests) ∧
        (logs m.replicaId).Represents (hist m.replicaId))
    (hlens : ∀ m ∈ p.startMsgs, (hist m.replicaId).length < 2 ^ 32) {s : LogSuffix}
    (hs : getLogSuffixFromProposal cfg p = .ok s)
    (hend : s.checkpoint.seq + s.entries.length < 2 ^ 32) {reqs : List Request}
    (hreqs : List.Forall₂ (p.Holds hist) s.entries reqs) {l l' : Log A} {h : List Request}
    (hr : l.Represents h) (hlen : h.length < 2 ^ 32)
    (hle : l.committedCheckpoint.seq ≤ s.checkpoint.seq + s.entries.length)
    (hdec : h.take l.committedCheckpoint.seq <+: s.decided hist reqs)
    {available : RequestMap Bytes} (happly : applySuffix s available l = .ok (l', none)) :
    (l'.nextSeq = s.checkpoint.seq + s.entries.length + 1 ∧ l'.getDigest = s.logDigest ∧
      l'.clientRecord = s.recordAfter s.entries.length) ↔ s.Applies cfg reqs l := by
  have hp : p.FromCorrect cfg.replicaIncludeFullRequests hist := by
    refine ⟨fun m hm => ?_, hlens⟩
    rw [RepairStart.log, (hlogs m hm).1]
    exact (hlogs m hm).2.describes _
  obtain ⟨hck, -, -⟩ := hp.checkpoint hs
  have hreqlen := hreqs.length_eq
  have hdecided : (s.decided hist reqs).length = s.checkpoint.seq + s.entries.length := by
    rw [LogSuffix.decided, List.length_append, hck, hreqlen]
  have hdigest := logDigest_decided_iff hc hp hs hreqs hend
  obtain ⟨hcheck, ⟨hge, rfl, -⟩ |
      ⟨hlt, k, l₁, available', hk, habort, ⟨-, hmissing⟩ | ⟨-, hadd⟩⟩⟩ :=
    applySuffix_cases happly
  · -- the committed checkpoint is at the end of the suffix
    have heq := le_antisymm hle hge
    have hnext := hr.nextSeq_history
    have hsame : l'.nextSeq = s.checkpoint.seq + s.entries.length + 1 →
        l'.getDigest = logDigest (s.decided hist reqs) := by
      intro hn
      have hpre := List.prefix_iff_eq_take.mp hdec
      rw [List.take_of_length_le (by omega), List.take_of_length_le (by omega)] at hpre
      rw [hr.getDigest_eq, hpre]
    constructor
    · rintro ⟨hn, hd, hrec⟩
      exact ⟨hdigest.mp ((hsame hn).symm.trans hd), fun hlt => absurd hlt (by omega),
        fun _ => ⟨hn, hrec⟩⟩
    · rintro ⟨hpay, -, hat⟩
      obtain ⟨hn, hrec⟩ := hat heq
      exact ⟨hn, (hsame hn).trans (hdigest.mpr hpay), hrec⟩
  · cases hmissing
  · -- the log is cut where it stops to agree with the suffix
    obtain ⟨hkle, htake⟩ := take_eq_decided hc hp hs hreqs hr hlen hdec hcheck hk
    have hnext := hr.nextSeq_history
    have hr₀ : Log.Represents { l with clientRecord := s.recordAfter k } h :=
      hr.congr rfl rfl rfl rfl
    have hcut := (hk.bounds hr.toWellFormed (by omega) (by omega)).1
    obtain ⟨hr₁, hnext₁, hrec₁, -⟩ := hr₀.abort hcut (by omega : _ ≤ l.nextSeq) habort
    rw [show s.checkpoint.seq + 1 + k - 1 = s.checkpoint.seq + k by omega, htake] at hr₁
    have hnames : List.Forall₂ LogEntryProto.Names (s.entries.drop k) (reqs.drop k) :=
      (List.forall₂_drop k hreqs).imp fun _ _ he => hp.names he
    obtain ⟨hiff, hall⟩ := addSuffix_cases hc hr₁.toLinked hnames hadd
    have hkle' := hk.le
    rw [hrec₁] at hiff hall
    have hends : l'.nextSeq = s.checkpoint.seq + s.entries.length + 1 ↔
        AllNew (s.recordAfter k) (reqs.drop k) := by
      rw [← hiff, hnext₁, List.length_drop]
      omega
    have hres : AllNew (s.recordAfter k) (reqs.drop k) →
        l'.getDigest = logDigest (s.decided hist reqs) ∧
          l'.clientRecord = s.recordAfter s.entries.length := by
      intro hnew
      obtain ⟨hext, hrec⟩ := hall hnew
      have hids : s.entries.map LogEntryProto.id = reqs.map Request.id := by
        rw [← List.forall₂_eq_eq_eq, List.forall₂_map_left_iff, List.forall₂_map_right_iff]
        exact hreqs.imp fun _ _ he => (hp.names he).id_eq
      constructor
      · rw [(hr₁.extend hext).getDigest_eq, LogSuffix.decided, List.take_append, hck,
          Nat.add_sub_cancel_left, List.take_of_length_le (by rw [hck]; omega), List.append_assoc,
          List.take_append_drop]
      · rw [hrec, LogSuffix.recordAfter, LogSuffix.recordAfter, ← ClientRecord.addAll_append,
          List.take_length, List.map_take, hids, ← List.map_take, ← List.map_append,
          List.take_append_drop]
    constructor
    · rintro ⟨hn, hd, -⟩
      have hnew := hends.mp hn
      refine ⟨hdigest.mp ((hres hnew).1.symm.trans hd), fun _ k' hk' => ?_,
        fun heq => absurd heq (by omega)⟩
      rw [← hk.unique hk']
      exact hnew
    · rintro ⟨hpay, hbefore, -⟩
      have hnew := hbefore hlt k hk
      exact ⟨hends.mpr hnew, (hres hnew).1.trans (hdigest.mpr hpay), (hres hnew).2⟩

end

/-! ### One request -/

section

attribute [local instance] prefixSha shortPaddedRequestData counterWire

/-- Three logs with the same request, sent with its payload or without. -/
def oneRequest (full : Bool) (a : Request) : RepairProposal where
  startMsgs := [0, 1, 2].map fun i =>
    { replicaId := i, log? := some ((Log.ofHistory ({} : Counter) [a]).toProto full) }

lemma oneRequest_logs (full : Bool) (a : Request) : ∀ m ∈ (oneRequest full a).startMsgs,
    m.log? = some ((Log.ofHistory ({} : Counter) [a]).toProto full) ∧
      (Log.ofHistory ({} : Counter) [a]).Represents [a] := by
  intro m hm
  obtain ⟨i, -, rfl⟩ := List.mem_map.mp hm
  exact ⟨rfl, Log.represents_ofHistory _ _⟩

/-- A replica without the request takes it over. -/
theorem applySuffix_agreement_oneRequest :
    ∃ s, getLogSuffixFromProposal .oneFault (oneRequest true ⟨0, 1, []⟩) = .ok s ∧
      s.Applies .oneFault [⟨0, 1, []⟩] (Log.fresh ({} : Counter)) := by
  refine ⟨_, rfl, ?_⟩
  have hagree := @applySuffix_agreement_iff prefixSha shortPaddedRequestData Counter _
    prefixSha_collisionFree .oneFault (oneRequest true ⟨0, 1, []⟩)
    (fun _ => Log.ofHistory {} [⟨0, 1, []⟩]) (fun _ => [⟨0, 1, []⟩]) (oneRequest_logs true _)
    (fun _ _ => by decide) _ rfl (by decide) [⟨0, 1, []⟩]
    (.cons ⟨_, List.mem_cons_self, List.mem_cons_self, rfl⟩ .nil) (Log.fresh {}) _ []
    (Log.represents_fresh _) (by decide) (by decide) List.nil_prefix ∅ rfl
  exact hagree.mp ⟨rfl, rfl, rfl⟩

/-- Where the payloads are not in the messages, `getLogSuffixFromProposal` hashes empty ones:
the digest it computes is not that of any log with the decided requests, not even of a log
that has been sent. -/
theorem applySuffix_disagrees_without_payloads :
    (∀ m ∈ (oneRequest false ⟨0, 1, [10, 0]⟩).startMsgs,
      m.log? = some ((Log.ofHistory ({} : Counter) [⟨0, 1, [10, 0]⟩]).toProto false) ∧
        (Log.ofHistory ({} : Counter) [⟨0, 1, [10, 0]⟩]).Represents [⟨0, 1, [10, 0]⟩]) ∧
      ∃ s l', getLogSuffixFromProposal { Config.oneFault with replicaIncludeFullRequests := false }
          (oneRequest false ⟨0, 1, [10, 0]⟩) = .ok s ∧
        applySuffix s ∅ (Log.ofHistory ({} : Counter) [⟨0, 1, [10, 0]⟩]) = .ok (l', none) ∧
        l'.getDigest ≠ s.logDigest :=
  ⟨oneRequest_logs false _, _, _, rfl, rfl, by decide⟩

end

end DomBft
