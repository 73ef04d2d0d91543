import DomBft.Repair.Selection

/-!
Durability of the fast path: what more than `3f + e` replicas have in their logs survives a
repair.

The replicas of a proposal whose logs do not have the digest `D` at position `p` are at most
`e`.  Hence every checkpoint or digest that `f + e + 1` logs agree on is one that a log with
`D` agrees on (`exists_fast_of_count`), and the log that the loop over the digests records
last (`lastMatch_fast`) has the history with digest `D` up to `p`.
-/

namespace DomBft

open Tally

section

variable [Sha256]

/-- The start messages of a proposal are full logs of correct replicas without
certificates: replica `i` has the history `hist i`. -/
structure RepairProposal.Full (cfg : Config) (p : RepairProposal) (hist : ℕ → List Request) :
    Prop where
  nodup : (p.startMsgs.map (·.replicaId)).Nodup
  lt_numReplicas : ∀ m ∈ p.startMsgs, m.replicaId < cfg.numReplicas
  describes : ∀ m ∈ p.startMsgs, m.log.Describes true (hist m.replicaId)
  cert_eq_none : ∀ m ∈ p.startMsgs, m.log.cert = none

/-- Replica `i` has digest `D` at position `pos` of its history. -/
def HasDigest (hist : ℕ → List Request) (pos : ℕ) (D : Bytes) (i : ℕ) : Prop :=
  pos ≤ (hist i).length ∧ logDigest ((hist i).take pos) = D

instance (hist : ℕ → List Request) (pos : ℕ) (D : Bytes) :
    DecidablePred (HasDigest hist pos D) :=
  fun i => inferInstanceAs (Decidable (pos ≤ (hist i).length ∧ _))

section

variable {cfg : Config} {p : RepairProposal} {hist : ℕ → List Request} {pos : ℕ} {D : Bytes}
  {S : Finset ℕ}

/-- At most `e` messages come from replicas without the digest. -/
lemma countP_not_hasDigest_le (hcfg : cfg.WellFormed) (hp : p.Full cfg hist)
    (hS : S ⊆ Finset.range cfg.numReplicas) (hcard : cfg.superQuorumSize ≤ S.card)
    (hD : ∀ i ∈ S, HasDigest hist pos D i) :
    p.startMsgs.countP (fun m => ¬HasDigest hist pos D m.replicaId) ≤ cfg.e := by
  set bad := p.startMsgs.filter fun m => ¬HasDigest hist pos D m.replicaId with hbad
  have hnodup : (bad.map (·.replicaId)).Nodup := hp.nodup.sublist (List.filter_sublist.map _)
  have hsub : (bad.map (·.replicaId)).toFinset ⊆ Finset.range cfg.numReplicas \ S := by
    intro i hi
    rw [List.mem_toFinset, List.mem_map] at hi
    obtain ⟨m, hm, rfl⟩ := hi
    rw [hbad, List.mem_filter, decide_eq_true_eq] at hm
    exact Finset.mem_sdiff.mpr
      ⟨Finset.mem_range.mpr (hp.lt_numReplicas m hm.1), fun hmS => hm.2 (hD _ hmS)⟩
  have hle := Finset.card_le_card hsub
  rw [List.toFinset_card_of_nodup hnodup, List.length_map, Finset.card_sdiff_of_subset hS,
    Finset.card_range] at hle
  rw [List.countP_eq_length_filter]
  simp only [Config.WellFormed, Config.superQuorumSize] at hcfg hcard
  exact hle.trans (by omega)

/-- What more than `e` messages have in common, one with the digest has too. -/
lemma exists_fast_of_count (hbad : p.startMsgs.countP
      (fun m => ¬HasDigest hist pos D m.replicaId) ≤ cfg.e)
    {P : RepairStart → Prop} [DecidablePred P]
    (hP : cfg.f + cfg.e + 1 ≤ p.startMsgs.countP (P ·)) :
    ∃ m ∈ p.startMsgs, P m ∧ HasDigest hist pos D m.replicaId :=
  exists_mem_of_lt_countP (by omega)

end

/-! ### What a log of a correct replica counts for -/

section

variable {full : Bool} {h : List Request}

/-- The keys of a history: its positions with the digests there. -/
lemma keys_historyEntries (p : ℕ) (as : List Request) :
    (historyEntries full h p as).map LogEntryProto.key =
      (List.range' (p + 1) as.length).map fun q => (q, logDigest (h.take q)) := by
  induction as generalizing p with
  | nil => rfl
  | cons a as ih =>
      rw [historyEntries, List.map_cons, ih, List.length_cons, List.range'_succ, List.map_cons]
      rfl

namespace RepairLog.Describes

variable {log : RepairLog}

/-- The log has the digest of its history at the position of a checkpoint it matches. -/
lemma digest_of_matches (hd : log.Describes full h) {cp : LogCheckpointProto}
    (hle : log.checkpoint.seq ≤ cp.seq) (hm : log.matches cp) :
    cp.seq ≤ h.length ∧ logDigest (h.take cp.seq) = cp.logDigest := by
  rw [RepairLog.matches] at hm
  split at hm
  · rename_i hseq
    rw [← hseq, ← hd.checkpoint_digest]
    exact ⟨hd.checkpoint_le, by simpa using hm⟩
  split at hm
  · rename_i hne _
    rw [Option.any_eq_true, hd.entries_eq] at hm
    obtain ⟨e, he, hdigest⟩ := hm
    rw [getElem?_historyEntries, Option.map_eq_some_iff] at he
    obtain ⟨a, ha, rfl⟩ := he
    have hlt := (List.getElem?_eq_some_iff.mp ha).1
    rw [List.length_drop] at hlt
    rw [show log.checkpoint.seq + (cp.seq - log.checkpoint.seq - 1) + 1 = cp.seq by omega]
      at hdigest
    exact ⟨by omega, by simpa [historyEntry] using of_decide_eq_true hdigest⟩
  · cases hm

/-- The entries above a position are those of the history. -/
lemma filter_entries (hd : log.Describes full h) {lo : ℕ} (hlo : log.checkpoint.seq ≤ lo) :
    log.entries.filter (lo < ·.seq) = historyEntries full h lo (h.drop lo) := by
  rw [hd.entries_eq, filter_historyEntries _ _ _ hlo, List.drop_drop,
    Nat.add_sub_cancel' hlo]

/-- The entries up to another position are those of the history. -/
lemma copyEntries (hd : log.Describes full h) {lo : ℕ} (hlo : log.checkpoint.seq ≤ lo)
    (hi : ℕ) :
    copyEntries lo hi log.entries = historyEntries full h lo ((h.drop lo).take (hi - lo)) := by
  rw [hd.entries_eq, copyEntries_historyEntries _ _ _ _ hlo, List.drop_drop,
    Nat.add_sub_cancel' hlo]

end RepairLog.Describes

variable {m : RepairStart} {lo : ℕ}

/-- The counted keys are the positions above `lo` with the digests there. -/
lemma countedKeys_eq (hd : m.log.Describes full h) (hlo : m.log.checkpoint.seq ≤ lo) :
    countedKeys lo m =
      (List.range' (lo + 1) (h.length - lo)).map fun q => (q, logDigest (h.take q)) := by
  rw [countedKeys, hd.filter_entries hlo, keys_historyEntries, List.length_drop]

lemma nodup_countedKeys (hd : m.log.Describes full h) (hlo : m.log.checkpoint.seq ≤ lo) :
    (countedKeys lo m).Nodup := by
  rw [countedKeys_eq hd hlo]
  exact List.Nodup.map (fun q q' hq => congrArg Prod.fst hq) (List.nodup_range' _)

lemma mem_countedKeys (hd : m.log.Describes full h) (hlo : m.log.checkpoint.seq ≤ lo)
    {q : ℕ} {d : Bytes} :
    (q, d) ∈ countedKeys lo m ↔ lo < q ∧ q ≤ h.length ∧ logDigest (h.take q) = d := by
  rw [countedKeys_eq hd hlo]
  simp only [List.mem_map, List.mem_range'_1, Prod.mk.injEq]
  constructor
  · rintro ⟨q', hq', rfl, rfl⟩
    exact ⟨by omega, by omega, rfl⟩
  · rintro ⟨hlt, hle, rfl⟩
    exact ⟨q, by omega, rfl, rfl⟩

/-- In every initial part of the counted keys, a position is preceded by the lower ones. -/
lemma count_le_of_prefix_countedKeys (hd : m.log.Describes full h)
    (hlo : m.log.checkpoint.seq ≤ lo) {q pos : ℕ} {d D : Bytes} (hq : lo < q) (hlt : q < pos)
    (hqd : (pos, D) ∈ countedKeys lo m → logDigest (h.take q) = d) {l : List (ℕ × Bytes)}
    (hl : l <+: countedKeys lo m) : l.count (pos, D) ≤ l.count (q, d) := by
  by_cases hpos : (pos, D) ∈ l
  · have hmem := hl.subset hpos
    have hone := List.count_eq_one_of_mem
      ((nodup_countedKeys hd hlo).sublist hl.sublist) hpos
    refine hone.le.trans (List.count_pos_iff.mpr ?_)
    obtain ⟨k, hk⟩ : ∃ k, l = (List.range' (lo + 1) k).map fun q => (q, logDigest (h.take q)) := by
      rw [countedKeys_eq hd hlo] at hl
      refine ⟨l.length, ?_⟩
      have hlen := hl.length_le
      rw [List.length_map, List.length_range'] at hlen
      conv_lhs => rw [List.prefix_iff_eq_take.mp hl]
      rw [← List.map_take, List.take_range'_of_length_ge hlen]
    rw [hk] at hpos ⊢
    simp only [List.mem_map, List.mem_range'_1, Prod.mk.injEq] at hpos ⊢
    obtain ⟨_, hrange, rfl, -⟩ := hpos
    exact ⟨q, by omega, rfl, hqd hmem⟩
  · rw [List.count_eq_zero_of_not_mem hpos]
    exact Nat.zero_le _

end

/-! ### The log recorded last -/

omit [Sha256] in
/-- Lists that agree up to a position agree up to every lower one. -/
lemma take_eq_take_of_le {α : Type*} {l l' : List α} {a b : ℕ} (hle : a ≤ b)
    (h : l.take b = l'.take b) : l.take a = l'.take a := by
  rw [← Nat.min_eq_left hle, ← List.take_take, h, List.take_take]

section

variable {cfg : Config} {p : RepairProposal} {hist : ℕ → List Request} {pos c : ℕ} {D : Bytes}

lemma RepairProposal.Full.count_keys (hp : p.Full cfg hist)
    (hmax : ∀ m ∈ p.startMsgs, m.log.checkpoint.seq ≤ c) (k : ℕ × Bytes) :
    ((numberedEntries c 0 p.startMsgs).map (·.2.key)).count k =
      p.startMsgs.countP fun m => k ∈ countedKeys c m := by
  rw [keys_numberedEntries, count_flatten, List.countP_map]
  · exact List.countP_congr fun m _ => by simp
  · intro l hl
    obtain ⟨m, hm, rfl⟩ := List.mem_map.mp hl
    exact nodup_countedKeys (hp.describes m hm) (hmax m hm)

/-- **The log recorded last has the history with the digest `D`** at least up to its
position. -/
theorem lastMatch_fast (hc : CollisionFree) (hp : p.Full cfg hist)
    (hlen : ∀ m ∈ p.startMsgs, (hist m.replicaId).length < 2 ^ 32)
    (hquorum : cfg.quorumSize ≤ p.startMsgs.length)
    (hbad : p.startMsgs.countP (fun m => ¬HasDigest hist pos D m.replicaId) ≤ cfg.e)
    (hmax : ∀ m ∈ p.startMsgs, m.log.checkpoint.seq ≤ c) (hpos : c < pos) :
    ∃ x m m', lastAt (·.2.key) (cfg.f + cfg.e + 1) (numberedEntries c 0 p.startMsgs) [] none =
        some x ∧ p.startMsgs[x.1]? = some m ∧ m' ∈ p.startMsgs ∧
      HasDigest hist pos D m'.replicaId ∧ pos ≤ x.2.seq ∧ x.2.seq ≤ (hist m.replicaId).length ∧
      (hist m.replicaId).take x.2.seq = (hist m'.replicaId).take x.2.seq := by
  have hfast : cfg.f + cfg.e + 1 ≤
      ((numberedEntries c 0 p.startMsgs).map (·.2.key)).count (pos, D) := by
    rw [hp.count_keys hmax]
    have hall := List.length_eq_countP_add_countP
      (fun m : RepairStart => decide (HasDigest hist pos D m.replicaId)) (l := p.startMsgs)
    have hle : p.startMsgs.countP (fun m => HasDigest hist pos D m.replicaId) ≤
        p.startMsgs.countP fun m => (pos, D) ∈ countedKeys c m := by
      refine List.countP_mono_left fun m hm hD => ?_
      rw [decide_eq_true_eq] at hD ⊢
      exact (mem_countedKeys (hp.describes m hm) (hmax m hm)).mpr ⟨hpos, hD.1, hD.2⟩
    simp only [decide_eq_true_eq] at hall hbad
    simp only [Config.quorumSize] at hquorum
    omega
  obtain ⟨-, hreach⟩ | ⟨pre, x, post, hsplit, hres, hcount, hreach⟩ :=
    lastAt_cases (·.2.key) (cfg.f + cfg.e + 1) (numberedEntries c 0 p.startMsgs) [] none
  · exact absurd (hreach (pos, D) hfast) (by simp)
  -- the key of `x` is counted in the log of a replica with `D`
  have hkey : cfg.f + cfg.e + 1 ≤ p.startMsgs.countP fun m => x.2.key ∈ countedKeys c m := by
    rw [← hp.count_keys hmax, hsplit, List.map_append, List.map_cons, List.count_append,
      List.count_cons_self]
    simp only [List.count_nil] at hcount
    omega
  obtain ⟨m', hm', hx', hD'⟩ := exists_fast_of_count hbad hkey
  rw [LogEntryProto.key, mem_countedKeys (hp.describes m' hm') (hmax m' hm')] at hx'
  obtain ⟨-, m, hm, hxm, hcx⟩ := mem_numberedEntries (hsplit ▸ List.mem_append_right pre
    List.mem_cons_self : x ∈ numberedEntries c 0 p.startMsgs)
  rw [Nat.sub_zero] at hm
  have hmem := List.mem_of_getElem? hm
  have hxk : x.2.key ∈ countedKeys c m :=
    List.mem_map_of_mem (List.mem_filter.mpr ⟨hxm, by simpa using hcx⟩)
  rw [LogEntryProto.key, mem_countedKeys (hp.describes m hmem) (hmax m hmem)] at hxk
  refine ⟨x, m, m', hres, hm, hm', hD', ?_, hxk.2.1, ?_⟩
  · -- otherwise the key of `x` has been counted before that of `D` as often as that one
    by_contra hlt
    rw [not_le] at hlt
    have hpre : pre.map (·.2.key) <+: (p.startMsgs.map (countedKeys c)).flatten := by
      rw [← keys_numberedEntries c 0, hsplit, List.map_append]
      exact List.prefix_append _ _
    have hle : (pre.map (·.2.key)).count (pos, D) ≤ (pre.map (·.2.key)).count x.2.key := by
      refine count_le_of_prefix_flatten (fun l hl q hq => ?_) hpre
      obtain ⟨m₁, hm₁, rfl⟩ := List.mem_map.mp hl
      refine count_le_of_prefix_countedKeys (hp.describes m₁ hm₁) (hmax m₁ hm₁) hx'.1 hlt
        (fun hpos₁ => ?_) hq
      rw [mem_countedKeys (hp.describes m₁ hm₁) (hmax m₁ hm₁)] at hpos₁
      have htake := (take_eq_of_logDigest hc (hlen m₁ hm₁) (hlen m' hm') hpos₁.2.1 hD'.1
        (hpos₁.2.2.trans hD'.2.symm)).2
      exact (congrArg logDigest (take_eq_take_of_le hlt.le htake)).trans hx'.2.2
    have hD := hreach (pos, D) (by simpa using hfast)
    rw [List.map_append, List.map_singleton, List.count_append, List.count_singleton,
      if_neg (by simpa [LogEntryProto.key] using fun h => absurd h hlt.ne)] at hD
    simp only [List.count_nil] at hD hcount
    omega
  · exact (take_eq_of_logDigest hc (hlen m hmem) (hlen m' hm') hxk.2.1 hx'.2.1
      (hxk.2.2.trans hx'.2.2.symm)).2

end

/-! ### Durability -/

/-- **Durability of the fast path.**  What `3f + e + 1` replicas have in their logs up to
position `pos`, the decided history has there, in the same order.  Positions are
`uint32_t`, hence the bound on the histories. -/
theorem fast_path_durability {A : Type} (hc : CollisionFree) {cfg : Config}
    (hcfg : cfg.WellFormed) {p : RepairProposal} {logs : ℕ → Log A} {hist : ℕ → List Request}
    {pos : ℕ} {D : Bytes} {S : Finset ℕ} {s : LogSuffix}
    (hlogs : ∀ m ∈ p.startMsgs, m.log? = some ((logs m.replicaId).toProto true) ∧
      m.log.cert = none ∧ (logs m.replicaId).Represents (hist m.replicaId))
    (hlen : ∀ i < cfg.numReplicas, (hist i).length < 2 ^ 32)
    (hnodup : (p.startMsgs.map (·.replicaId)).Nodup)
    (hlt : ∀ m ∈ p.startMsgs, m.replicaId < cfg.numReplicas)
    (hquorum : cfg.quorumSize ≤ p.startMsgs.length)
    (hS : S ⊆ Finset.range cfg.numReplicas) (hcard : cfg.superQuorumSize ≤ S.card)
    (hD : ∀ i ∈ S, HasDigest hist pos D i)
    (hs : getLogSuffixFromProposal cfg p = .ok s) {i : ℕ} (hi : i ∈ S) :
    ((hist s.checkpointReplica).take s.checkpoint.seq ++
      s.entries.map LogEntryProto.toRequest).take pos = (hist i).take pos := by
  have hp : p.Full cfg hist := by
    refine ⟨hnodup, hlt, fun m hm => ?_, fun m hm => (hlogs m hm).2.1⟩
    rw [RepairStart.log, (hlogs m hm).1]
    exact (hlogs m hm).2.2.describes true
  have hlen' : ∀ m ∈ p.startMsgs, (hist m.replicaId).length < 2 ^ 32 := fun m hm =>
    hlen _ (hlt m hm)
  have hbad := countP_not_hasDigest_le hcfg hp hS hcard hD
  obtain ⟨m, hm, hmax, hck, hreplica, hmatches, hentries, -⟩ := getLogSuffix_cases hs
  -- the checkpoint is one of a log with `D`
  obtain ⟨m₁, hm₁, hmatch, hD₁⟩ := exists_fast_of_count hbad
    (P := fun m' => m'.replicaId ≠ m.replicaId && m'.log.matches m.log.checkpoint)
    (by simpa [numMatches] using hmatches)
  rw [Bool.and_eq_true] at hmatch
  obtain ⟨hle₁, hdigest₁⟩ := (hp.describes m₁ hm₁).digest_of_matches (hmax m₁ hm₁) hmatch.2
  have hbase : (hist m₁.replicaId).take m.log.checkpoint.seq =
      (hist m.replicaId).take m.log.checkpoint.seq :=
    (take_eq_of_logDigest hc (hlen' m₁ hm₁) (hlen' m hm) hle₁ (hp.describes m hm).checkpoint_le
      (hdigest₁.trans (hp.describes m hm).checkpoint_digest)).2
  have hagree : ∀ {a b : ℕ}, a < cfg.numReplicas → b < cfg.numReplicas →
      HasDigest hist pos D a → HasDigest hist pos D b → (hist a).take pos = (hist b).take pos :=
    fun ha hb hDa hDb => (take_eq_of_logDigest hc (hlen _ ha) (hlen _ hb) hDa.1 hDb.1
      (hDa.2.trans hDb.2.symm)).2
  rw [← hagree (hlt m₁ hm₁) (Finset.mem_range.mp (hS hi)) hD₁ (hD i hi), hck, hreplica]
  have hcklen : ((hist m.replicaId).take m.log.checkpoint.seq).length = m.log.checkpoint.seq := by
    rw [List.length_take, Nat.min_eq_left (hp.describes m hm).checkpoint_le]
  rcases Nat.lt_or_ge m.log.checkpoint.seq pos with hpos | hpos
  · obtain ⟨x, m', m₂, hlast, hm', hm₂, hD₂, hge, hxlen, htake⟩ :=
      lastMatch_fast hc hp hlen' hquorum hbad hmax hpos
    have hmem := List.mem_of_getElem? hm'
    have hcopied : (copiedEntries cfg p.startMsgs m.log.checkpoint.seq).map
        LogEntryProto.toRequest = ((hist m'.replicaId).drop m.log.checkpoint.seq).take
          (x.2.seq - m.log.checkpoint.seq) := by
      have hmatched := matchEntries_eq (cfg.f + cfg.e + 1)
        (numberedEntries m.log.checkpoint.seq 0 p.startMsgs) [] (0, 0) none
      rw [hlast] at hmatched
      simp only [Option.map_none, Option.getD_none, Option.map_some, Option.getD_some] at hmatched
      simp only [copiedEntries, maxCert_of_none _ _ _ hp.cert_eq_none, Nat.zero_max, hmatched]
      rw [copyEntries_of_le (Nat.zero_le _), List.nil_append, entriesOf, hm', Option.map_some,
        Option.getD_some, (hp.describes m' hmem).copyEntries (hmax m' hmem),
        toRequest_historyEntries]
    have hfast := hagree (hlt m₁ hm₁) (hlt m₂ hm₂) hD₁ hD₂
    have hpre : (hist m.replicaId).take m.log.checkpoint.seq =
        (hist m'.replicaId).take m.log.checkpoint.seq :=
      calc (hist m.replicaId).take m.log.checkpoint.seq
          = (hist m₁.replicaId).take m.log.checkpoint.seq := hbase.symm
        _ = (hist m₂.replicaId).take m.log.checkpoint.seq := take_eq_take_of_le hpos.le hfast
        _ = (hist m'.replicaId).take m.log.checkpoint.seq :=
            take_eq_take_of_le (hpos.le.trans hge) htake.symm
    have hdecided : (hist m.replicaId).take m.log.checkpoint.seq ++
        ((hist m'.replicaId).drop m.log.checkpoint.seq).take (x.2.seq - m.log.checkpoint.seq) =
          (hist m'.replicaId).take x.2.seq := by
      rw [hpre, ← List.take_add, Nat.add_sub_cancel' (hpos.le.trans hge)]
    have hxlen' : pos ≤ ((hist m'.replicaId).take x.2.seq).length := by
      rw [List.length_take, Nat.min_eq_left hxlen]
      exact hge
    rw [hentries, hck, List.map_append, hcopied, ← List.append_assoc, hdecided,
      List.take_append_of_le_length hxlen', List.take_take, Nat.min_eq_left hge,
      take_eq_take_of_le hge htake, hfast]
  · rw [List.take_append_of_le_length (by rw [hcklen]; exact hpos), ← hbase, List.take_take,
      Nat.min_eq_left hpos]

end

/-! ### One request -/

section

attribute [local instance] prefixSha

/-- Three of four logs with the same request. -/
def fastProposal : RepairProposal where
  startMsgs := [0, 1, 2].map fun i =>
    { replicaId := i, log? := some ((Log.ofHistory ({} : Counter) [⟨0, 1, []⟩]).toProto true) }

/-- The request that four logs hold is decided. -/
theorem fast_path_durability_one_request : ∃ s : LogSuffix,
    getLogSuffixFromProposal .oneFault fastProposal = .ok s ∧
      (([⟨0, 1, []⟩] : List Request).take s.checkpoint.seq ++
        s.entries.map LogEntryProto.toRequest).take 1 = [⟨0, 1, []⟩] := by
  have hlogs : ∀ m ∈ fastProposal.startMsgs, m.replicaId < 4 ∧ m.log.cert = none ∧
      m.log? = some ((Log.ofHistory ({} : Counter) [⟨0, 1, []⟩]).toProto true) := by
    intro m hm
    obtain ⟨i, hi, rfl⟩ := List.mem_map.mp hm
    have hlt : i < 4 := by
      simp only [List.mem_cons, List.not_mem_nil, or_false] at hi
      omega
    exact ⟨hlt, rfl, rfl⟩
  refine ⟨_, rfl, ?_⟩
  exact @fast_path_durability prefixSha Counter prefixSha_collisionFree .oneFault rfl
    fastProposal (fun _ => Log.ofHistory {} [⟨0, 1, []⟩]) (fun _ => [⟨0, 1, []⟩]) 1 _
    (Finset.range 4) _
    (fun m hm => ⟨(hlogs m hm).2.2, (hlogs m hm).2.1, Log.represents_ofHistory _ _⟩)
    (fun _ _ => by decide) (by decide) (fun m hm => (hlogs m hm).1) (by decide) subset_rfl
    (by decide) (fun _ _ => ⟨le_rfl, rfl⟩) rfl 0 (by decide)

end

end DomBft
