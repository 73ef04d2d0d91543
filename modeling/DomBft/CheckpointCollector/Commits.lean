import DomBft.Lib.Fallible
import DomBft.ClientRecord.Digest
import DomBft.CheckpointCollector

/-!
What a checkpoint that a collector makes of commits says about these commits.

* `RecordChecked`: the check of a commit's client record; `digest_determines`: **equal digests,
  equal records**, unless the records clash.
* `feed`: a collector after a list of commits.
* `Tips`: the commit that completes the first group of equal ones; `matchCommits_eq`.
* `VouchedFor`, `checkpoint_vouched_iff`: **what the commits behind a checkpoint agree on.**
* `client_record_survives`: **a client record survives its message**, and a commit that carries it
  is stored.
-/

namespace DomBft

open Std (ExtTreeMap)

/-! ### Client records -/

section

variable [Sha256]

/-- The check of `addAndCheckCommit` on the client record. -/
def Commit.RecordChecked (m : Commit) : Prop :=
  (ClientRecord.ofProto m.clientRecord).digest = m.clientRecord.digest

/-- Commits that pass the check and name the same record digest have the same hashed bytes. -/
lemma Commit.digestInput_eq (hc : CollisionFree) {m m' : Commit} (h : m.RecordChecked)
    (h' : m'.RecordChecked) (hd : m.clientRecord.digest = m'.clientRecord.digest) :
    (ClientRecord.ofProto m.clientRecord).digestInput =
      (ClientRecord.ofProto m'.clientRecord).digestInput :=
  hc.injective (h.trans (hd.trans h'.symm))

/-- **Equal digests, equal records**, unless a client of one record is a number that the other
misses.  The same holds of the records of two commits that pass the check and have one key. -/
theorem ClientRecord.digest_determines :
    (∀ r r' : ClientRecord, r.digestInput = r'.digestInput →
      (r = r' ↔ ¬r.Clashes r' ∧ ¬r'.Clashes r)) ∧
    (CollisionFree → ∀ m m' : Commit, m.RecordChecked → m'.RecordChecked →
      m.keyTuple = m'.keyTuple →
      (ofProto m.clientRecord = ofProto m'.clientRecord ↔
        ¬(ofProto m.clientRecord).Clashes (ofProto m'.clientRecord) ∧
          ¬(ofProto m'.clientRecord).Clashes (ofProto m.clientRecord))) := by
  refine ⟨fun r r' h => digestInput_inj_iff h, fun hc m m' h h' hkey => ?_⟩
  have hd : m.clientRecord.digest = m'.clientRecord.digest :=
    congrArg CommitKeyTuple.recordDigest hkey
  exact digestInput_inj_iff (Commit.digestInput_eq hc h h' hd)

end

/-- Records of the same requests, seen in different orders. -/
theorem ClientRecord.digest_determines_order :
    addAll {} [(0, 1), (1, 2), (1, 1)] = addAll {} [(1, 1), (1, 2), (0, 1)] := by
  let _ : Sha256 := prefixSha
  have hcomplete : ∀ {r r' : ClientRecord},
      (∀ x ∈ r'.sequences.toList, x.2.missedSeqs.toList = []) → ¬r.Clashes r' := by
    rintro r r' h ⟨c, d, -, -, s, s', -, hs', hd, -⟩
    have hnil := h (c, s') (ExtTreeMap.mem_toList_iff_getElem?_eq_some.mpr hs')
    have hmem := Std.ExtTreeSet.mem_toList.mpr hd
    rw [hnil] at hmem
    cases hmem
  exact (digest_determines.1 _ _ (by decide +kernel)).mpr
    ⟨hcomplete (by decide +kernel), hcomplete (by decide +kernel)⟩

/-- Client 0 has sent five requests, two of which are missing. -/
def missingRecord : ClientRecord := .addAll {} [(0, 1), (0, 4), (0, 5)]

/-- Client 0 has sent five requests, and client 2 three. -/
def completeRecord : ClientRecord :=
  .addAll {} [(0, 1), (0, 2), (0, 3), (0, 4), (0, 5), (2, 1), (2, 2), (2, 3)]

lemma missingRecord_ne : missingRecord ≠ completeRecord := by
  intro h
  have hcontains := congrArg (ClientRecord.contains · 2 1) h
  exact absurd hcontains (by decide +kernel)

/-- **Two records with the same hashed bytes.** -/
theorem missingRecord_clashes :
    missingRecord.digestInput = completeRecord.digestInput ∧ missingRecord ≠ completeRecord :=
  ⟨by decide +kernel, missingRecord_ne⟩

/-! ### Matching commits -/

namespace CommitCollector

/-- The commits of a list that have the key of a commit. -/
def matching (cs : List (ℕ × Commit)) (m : Commit) : List (ℕ × Commit) :=
  cs.filter (·.2.keyTuple = m.keyTuple)

/-- In the order of the replicas, `m` is the first commit that makes `f + 1` equal ones. -/
def Tips (f : ℕ) (cs : List (ℕ × Commit)) (m : Commit) : Prop :=
  ∃ before id after, cs = before ++ (id, m) :: after ∧
    f + 1 ≤ (matching (before ++ [(id, m)]) m).length ∧
    ∀ first x, first ++ [x] <+: before → (matching (first ++ [x]) x.2).length < f + 1

/-- **What the loop over the commits finds**: the commit that tips the count, with the replicas
of those that match it. -/
lemma matchCommits_eq {f : ℕ} {cs seen : List (ℕ × Commit)} {m : Commit} {ids : List ℕ}
    (h : matchCommits f cs seen = some (m, ids)) :
    ∃ before id after, cs = before ++ (id, m) :: after ∧
      f + 1 ≤ (matching (seen ++ before ++ [(id, m)]) m).length ∧
      ids = (matching (seen ++ before ++ [(id, m)]) m).map (·.1) ∧
      ∀ first x, first ++ [x] <+: before →
        (matching (seen ++ first ++ [x]) x.2).length < f + 1 := by
  induction cs generalizing seen with
  | nil => cases h
  | cons c cs ih =>
      obtain ⟨id, c⟩ := c
      rw [matchCommits] at h
      by_cases hmany : f + 1 ≤ (matching (seen ++ [(id, c)]) c).length
      · rw [matching] at hmany
        rw [if_pos hmany] at h
        cases h
        refine ⟨[], id, cs, rfl, by rwa [List.append_nil], by rw [List.append_nil]; rfl, ?_⟩
        intro first x hpre
        exact absurd (List.prefix_nil.mp hpre) (by simp)
      · have hmany' := hmany
        rw [matching] at hmany'
        rw [if_neg hmany'] at h
        obtain ⟨before, id', after, rfl, hlen, hids, hfirst⟩ := ih h
        refine ⟨(id, c) :: before, id', after, rfl, ?_, ?_, fun first x hpre => ?_⟩
        · rwa [List.append_cons seen]
        · rwa [List.append_cons seen]
        · cases first with
          | nil =>
              obtain ⟨rfl, -⟩ := List.cons_prefix_cons.mp hpre
              rw [List.append_nil]
              exact not_le.mp hmany
          | cons y first =>
              obtain ⟨rfl, hpre'⟩ := List.cons_prefix_cons.mp hpre
              rw [List.append_cons seen]
              exact hfirst first x hpre'

/-! ### A collector after some commits -/

section

variable [Sha256] {cfg : Config}

/-- A fresh collector after a list of commits with their signatures. -/
def feed (cfg : Config) (round seq : ℕ) (fed : List (Commit × Bytes)) : CommitCollector :=
  fed.foldl (fun c x => (c.addAndCheckCommit cfg x.1 x.2).1) { round, seq }

/-- What is stored of the commits in a list: one for each replica, all of which have been
checked. -/
structure Stored (c : CommitCollector) (round seq : ℕ) (fed : List (Commit × Bytes)) : Prop where
  round_eq : c.round = round
  seq_eq : c.seq = seq
  stored : ∀ i m, c.commits[i]? = some m → m.replicaId = i ∧ m.RecordChecked ∧
    ∃ sig, (m, sig) ∈ fed

/-- **What `addAndCheckCommit` does**: it drops the commit, or stores it and looks for a group. -/
lemma addAndCheckCommit_cases {c c' : CommitCollector} {commit : Commit} {sig : Bytes} {ok : Bool}
    (h : c.addAndCheckCommit cfg commit sig = (c', ok)) :
    c' = c ∧ ok = false ∧ ¬commit.RecordChecked ∨ commit.RecordChecked ∧ c'.round = c.round ∧ c'.seq = c.seq ∧
      c'.commits = c.commits.insert commit.replicaId commit ∧
      (ok = true → ∃ m ids, matchCommits cfg.f c'.commits.toList [] = some (m, ids) ∧
        c'.commitToUse = some m ∧ c'.matchedReplicas = ids) := by
  rw [addAndCheckCommit] at h
  by_cases hchecked : (ClientRecord.ofProto commit.clientRecord).digest = commit.clientRecord.digest
  · rw [if_neg (not_not.mpr hchecked)] at h
    dsimp only at h
    refine .inr ⟨hchecked, ?_⟩
    cases hmatch : matchCommits cfg.f (c.commits.insert commit.replicaId commit).toList [] with
    | none =>
        rw [hmatch] at h
        cases h
        exact ⟨rfl, rfl, rfl, fun hok => by cases hok⟩
    | some x =>
        obtain ⟨m, ids⟩ := x
        rw [hmatch] at h
        cases h
        exact ⟨rfl, rfl, rfl, fun _ => ⟨m, ids, hmatch, rfl, rfl⟩⟩
  · rw [if_pos hchecked] at h
    cases h
    exact .inl ⟨rfl, rfl, hchecked⟩

lemma Stored.addAndCheckCommit {c c' : CommitCollector} {round seq : ℕ}
    {fed : List (Commit × Bytes)} (hc : c.Stored round seq fed) {commit : Commit} {sig : Bytes}
    {ok : Bool} (h : c.addAndCheckCommit cfg commit sig = (c', ok)) :
    c'.Stored round seq (fed ++ [(commit, sig)]) := by
  rcases addAndCheckCommit_cases h with ⟨rfl, -⟩ | ⟨hchecked, hround, hseq, hcommits, -⟩
  · refine ⟨hc.round_eq, hc.seq_eq, fun i m hm => ?_⟩
    obtain ⟨hid, hm', sig', hfed⟩ := hc.stored i m hm
    exact ⟨hid, hm', sig', List.mem_append_left _ hfed⟩
  · refine ⟨hround.trans hc.round_eq, hseq.trans hc.seq_eq, fun i m hm => ?_⟩
    rw [hcommits] at hm
    rcases OrderedMap.getElem?_insert_cases hm with ⟨rfl, rfl⟩ | ⟨-, hold⟩
    · exact ⟨rfl, hchecked, sig, List.mem_append_right _ List.mem_cons_self⟩
    · obtain ⟨hid, hm', sig', hfed⟩ := hc.stored i m hold
      exact ⟨hid, hm', sig', List.mem_append_left _ hfed⟩

lemma feed_stored (cfg : Config) (round seq : ℕ) (fed : List (Commit × Bytes)) :
    (feed cfg round seq fed).Stored round seq fed := by
  induction fed using List.reverseRecOn with
  | nil => exact ⟨rfl, rfl, fun i m hm => by simp [feed] at hm⟩
  | append_singleton fed x ih =>
      rw [feed, List.foldl_append]
      exact ih.addAndCheckCommit rfl

/-! ### The checkpoint -/

/-- At least `f + 1` replicas have sent commits for a round and position that carry what the
checkpoint says. -/
def VouchedFor (f : ℕ) (commits : ExtTreeMap ℕ Commit compare) (round seq : ℕ)
    (cp : LogCheckpoint) : Prop :=
  ∃ S : Finset ℕ, f + 1 ≤ S.card ∧ ∀ i ∈ S, ∃ m, commits[i]? = some m ∧ m.replicaId = i ∧
    m.round = round ∧ m.seq = seq ∧ m.logDigest = cp.logDigest ∧
    m.appDigest.getD [] = cp.appDigest ∧ ClientRecord.ofProto m.clientRecord = cp.clientRecord

/-- At least `f + 1` replicas have sent commits with the key of `m` whose client records do not
clash with that of `m`. -/
def NoClash (f : ℕ) (commits : ExtTreeMap ℕ Commit compare) (m : Commit) : Prop :=
  ∃ S : Finset ℕ, f + 1 ≤ S.card ∧ ∀ i ∈ S, ∃ m', commits[i]? = some m' ∧
    m'.keyTuple = m.keyTuple ∧
    ¬(ClientRecord.ofProto m'.clientRecord).Clashes (.ofProto m.clientRecord) ∧
    ¬(ClientRecord.ofProto m.clientRecord).Clashes (.ofProto m'.clientRecord)

omit [Sha256] in
/-- The assertions of `getCheckpoint` hold, and the checkpoint is made of the commit that tips
the count. -/
lemma getCheckpoint_eq {c : CommitCollector} {f : ℕ} {m : Commit} {ids : List ℕ}
    (hmatch : matchCommits f c.commits.toList [] = some (m, ids)) (huse : c.commitToUse = some m)
    (hids : c.matchedReplicas = ids) :
    ∃ cp, c.getCheckpoint = .ok cp ∧ cp.seq = c.seq ∧ cp.logDigest = m.logDigest ∧
      cp.appDigest = m.appDigest.getD [] ∧ cp.clientRecord = .ofProto m.clientRecord := by
  obtain ⟨before, id, after, hcs, -, hmatching, -⟩ := matchCommits_eq hmatch
  have hsame : ∀ x ∈ c.commits.toList.filter (·.1 ∈ c.matchedReplicas),
      x.2.logDigest = m.logDigest := by
    rintro ⟨i, m'⟩ hx
    obtain ⟨hmem, hi⟩ := List.mem_filter.mp hx
    have hi' : i ∈ ids := by simpa [hids] using hi
    rw [hmatching, List.mem_map] at hi'
    obtain ⟨⟨i', m''⟩, hm'', rfl⟩ := hi'
    obtain ⟨hbefore, hkey⟩ := List.mem_filter.mp hm''
    have hstored : (i', m'') ∈ c.commits.toList := by
      rw [hcs]
      simp only [List.nil_append, List.mem_append, List.mem_singleton] at hbefore
      simp only [List.mem_append, List.mem_cons]
      tauto
    rw [ExtTreeMap.mem_toList_iff_getElem?_eq_some] at hmem hstored
    obtain rfl : m' = m'' := Option.some.inj (hmem.symm.trans hstored)
    exact congrArg CommitKeyTuple.logDigest (of_decide_eq_true hkey)
  rw [getCheckpoint, huse]
  dsimp only
  rw [if_neg]
  · exact ⟨_, rfl, rfl, rfl, rfl, rfl⟩
  · rw [List.any_eq_true]
    rintro ⟨x, hx, hne⟩
    exact of_decide_eq_true hne (hsame x hx)

/-- **A committed checkpoint is vouched for** by `f + 1` replicas in full if and only if as many
commits with the key of the one that tips the count have a client record that does not clash
with its own. -/
theorem checkpoint_vouched_iff (hc : CollisionFree) {round seq : ℕ} {fed : List (Commit × Bytes)}
    {commit : Commit} {sig : Bytes} {c' : CommitCollector}
    (h : (feed cfg round seq fed).addAndCheckCommit cfg commit sig = (c', true)) :
    ∃ cp m, c'.getCheckpoint = .ok cp ∧ cp.seq = seq ∧
      Tips cfg.f c'.commits.toList m ∧ (∃ sig', (m, sig') ∈ fed ++ [(commit, sig)]) ∧
      c'.commits = (feed cfg round seq fed).commits.insert commit.replicaId commit ∧
      (VouchedFor cfg.f c'.commits m.round m.seq cp ↔ NoClash cfg.f c'.commits m) := by
  have hstored := (feed_stored cfg round seq fed).addAndCheckCommit h
  rcases addAndCheckCommit_cases h with ⟨-, hfalse, -⟩ | ⟨-, -, -, hcommits, hfound⟩
  · cases hfalse
  obtain ⟨m, ids, hmatch, huse, hids⟩ := hfound rfl
  obtain ⟨cp, hcp, hseq, hlog, happ, hrecord⟩ := getCheckpoint_eq hmatch huse hids
  obtain ⟨before, id, after, hcs, hmany, -, hfirst⟩ := matchCommits_eq hmatch
  have hm : c'.commits[id]? = some m := by
    rw [← ExtTreeMap.mem_toList_iff_getElem?_eq_some, hcs]
    simp
  obtain ⟨-, hchecked, hfed⟩ := hstored.stored id m hm
  have htips : Tips cfg.f c'.commits.toList m := ⟨before, id, after, hcs, hmany, hfirst⟩
  refine ⟨cp, m, hcp, hseq.trans hstored.seq_eq, htips, hfed, hcommits, ?_⟩
  -- for each replica, what its commit carries is decided by the key and the record
  have hiff : ∀ (i : ℕ) (m' : Commit), c'.commits[i]? = some m' →
      ((m'.replicaId = i ∧ m'.round = m.round ∧ m'.seq = m.seq ∧ m'.logDigest = cp.logDigest ∧
        m'.appDigest.getD [] = cp.appDigest ∧
        ClientRecord.ofProto m'.clientRecord = cp.clientRecord) ↔
      m'.keyTuple = m.keyTuple ∧
        ¬(ClientRecord.ofProto m'.clientRecord).Clashes (.ofProto m.clientRecord) ∧
        ¬(ClientRecord.ofProto m.clientRecord).Clashes (.ofProto m'.clientRecord)) := by
    intro i m' hm'
    obtain ⟨hid, hchecked', -⟩ := hstored.stored i m' hm'
    rw [hlog, happ, hrecord]
    constructor
    · rintro ⟨-, hround, hseq', hlog', happ', hrecord'⟩
      have hdigest : m'.clientRecord.digest = m.clientRecord.digest := by
        rw [← hchecked, ← hchecked', hrecord']
      refine ⟨?_, ?_⟩
      · rw [Commit.keyTuple, Commit.keyTuple, hround, hseq', hlog', happ', hdigest]
      · rw [hrecord']
        exact ⟨ClientRecord.not_clashes_self _, ClientRecord.not_clashes_self _⟩
    · rintro ⟨hkey, hno⟩
      have hdigest := congrArg CommitKeyTuple.recordDigest hkey
      have hinput := Commit.digestInput_eq hc hchecked' hchecked hdigest
      exact ⟨hid, congrArg CommitKeyTuple.round hkey, congrArg CommitKeyTuple.seq hkey,
        congrArg CommitKeyTuple.logDigest hkey, congrArg CommitKeyTuple.appDigest hkey,
        (ClientRecord.digestInput_inj_iff hinput).mpr hno⟩
  constructor
  · rintro ⟨S, hS, hall⟩
    refine ⟨S, hS, fun i hi => ?_⟩
    obtain ⟨m', hm', hcarries⟩ := hall i hi
    exact ⟨m', hm', (hiff i m' hm').mp hcarries⟩
  · rintro ⟨S, hS, hall⟩
    refine ⟨S, hS, fun i hi => ?_⟩
    obtain ⟨m', hm', hno⟩ := hall i hi
    exact ⟨m', hm', (hiff i m' hm').mpr hno⟩

/-! ### Honest commits -/

/-- A commit whose record is that of a client record passes the check. -/
lemma recordChecked_toProto {commit : Commit} {r : ClientRecord}
    (h : commit.clientRecord = r.toProto) : commit.RecordChecked := by
  rw [Commit.RecordChecked, h, ClientRecord.ofProto_toProto]
  rfl

/-- A commit that passes the check is stored, with its signature. -/
lemma addAndCheckCommit_stores (c : CommitCollector) {commit : Commit} (sig : Bytes)
    (h : commit.RecordChecked) :
    (c.addAndCheckCommit cfg commit sig).1.commits[commit.replicaId]? = some commit := by
  obtain ⟨⟨c', ok⟩, hadd⟩ : ∃ x, c.addAndCheckCommit cfg commit sig = x := ⟨_, rfl⟩
  rw [hadd]
  rcases addAndCheckCommit_cases hadd with ⟨-, -, hno⟩ | ⟨-, -, -, hcommits, -⟩
  · exact absurd h hno
  · rw [hcommits, ExtTreeMap.getElem?_insert_self]

/-- **A client record survives its message**: it is read back, with the digest that the message
names, so that no collector drops a commit that carries it; and from the message about one client
the same requests of this client are read back, also if the record does not know the client. -/
theorem client_record_survives (r : ClientRecord) :
    ClientRecord.ofProto r.toProto = r ∧
      (ClientRecord.ofProto r.toProto).digest = r.toProto.digest ∧
      (∀ (cfg : Config) (c : CommitCollector) (commit : Commit) (sig : Bytes),
        commit.clientRecord = r.toProto →
        (c.addAndCheckCommit cfg commit sig).1.commits[commit.replicaId]? = some commit) ∧
      ∀ clientId seq, 1 ≤ seq →
        (ClientSequence.ofProto (r.toProtoSingleClient clientId)).contains seq =
          r.contains clientId seq := by
  have hback := r.ofProto_toProto
  refine ⟨hback, ?_, fun cfg c commit sig h => ?_, fun clientId seq hseq => ?_⟩
  · rw [hback]
    rfl
  · exact c.addAndCheckCommit_stores sig (recordChecked_toProto h)
  · refine r.contains_toProtoSingleClient clientId (UInt32.lt_of_lt_of_le ?_ hseq)
    decide

end

section

attribute [local instance] prefixSha

/-- The commit of a replica for position 10 of the first round, with a client record. -/
def commitWith (i : ℕ) (r : ClientRecord) : Commit where
  replicaId := i
  round := 1
  seq := 10
  clientRecord := r.toProto

/-- The collector after the commits of two replicas, and whether they make a checkpoint. -/
def twoCommits (r r' : ClientRecord) : CommitCollector × Bool :=
  (feed .oneFault 1 10 [(commitWith 1 r, [1])]).addAndCheckCommit .oneFault (commitWith 2 r') [2]

/-- The commit of replica 1 with a record that has gaps, and the record's requests of a client that
it knows and of one that it does not. -/
theorem client_record_survives_gaps :
    (addAndCheckCommit .oneFault { round := 1, seq := 10 } (commitWith 1 missingRecord)
      [1]).1.commits[1]? = some (commitWith 1 missingRecord) ∧
    (ClientSequence.ofProto (missingRecord.toProtoSingleClient 0)).contains 4 =
      missingRecord.contains 0 4 ∧
    (ClientSequence.ofProto (missingRecord.toProtoSingleClient 7)).contains 4 =
      missingRecord.contains 7 4 := by
  have hsurvives := client_record_survives missingRecord
  refine ⟨hsurvives.2.2.1 _ _ (commitWith 1 missingRecord) _ rfl, ?_, ?_⟩
  · exact hsurvives.2.2.2 0 4 (by decide)
  · exact hsurvives.2.2.2 7 4 (by decide)

/-- Two commits with one record make a checkpoint that both vouch for. -/
theorem checkpoint_vouched_two : ∃ cp, (twoCommits completeRecord completeRecord).1.getCheckpoint =
    .ok cp ∧ VouchedFor 1 (twoCommits completeRecord completeRecord).1.commits 1 10 cp := by
  have htrue : (twoCommits completeRecord completeRecord).2 = true := by decide +kernel
  have hlist : (twoCommits completeRecord completeRecord).1.commits.toList =
      [(1, commitWith 1 completeRecord), (2, commitWith 2 completeRecord)] := by decide +kernel
  have h : (feed .oneFault 1 10 [(commitWith 1 completeRecord, [1])]).addAndCheckCommit .oneFault
      (commitWith 2 completeRecord) [2] = ((twoCommits completeRecord completeRecord).1, true) :=
    Prod.ext rfl htrue
  obtain ⟨cp, m, hcp, -, -, ⟨sig, hm⟩, -, hiff⟩ := checkpoint_vouched_iff prefixSha_collisionFree h
  have hm' : m = commitWith 1 completeRecord ∨ m = commitWith 2 completeRecord := by
    simpa using (List.mem_map_of_mem (f := Prod.fst) hm)
  have hkey : m.keyTuple = (commitWith 1 completeRecord).keyTuple ∧
      m.clientRecord = completeRecord.toProto ∧ m.round = 1 ∧ m.seq = 10 := by
    rcases hm' with rfl | rfl <;> exact ⟨rfl, rfl, rfl, rfl⟩
  obtain ⟨hkey, hrecord, hround, hseq⟩ := hkey
  rw [hround, hseq] at hiff
  refine ⟨cp, hcp, hiff.mpr ⟨{1, 2}, by decide, fun i hi => ?_⟩⟩
  have hget : (twoCommits completeRecord completeRecord).1.commits[i]? =
      some (commitWith i completeRecord) := by
    rw [← ExtTreeMap.mem_toList_iff_getElem?_eq_some, hlist]
    rcases Finset.mem_insert.mp hi with rfl | hi
    · exact List.mem_cons_self
    · rw [Finset.mem_singleton.mp hi]
      exact List.mem_cons_of_mem _ List.mem_cons_self
  refine ⟨_, hget, hkey.symm, ?_, ?_⟩
  · rw [hrecord]
    exact ClientRecord.not_clashes_self _
  · rw [hrecord]
    exact ClientRecord.not_clashes_self _

/-- **Two commits with different records make a checkpoint** that no two replicas vouch for. -/
theorem clashing_checkpoint : (twoCommits missingRecord completeRecord).2 = true ∧
    ∃ cp, (twoCommits missingRecord completeRecord).1.getCheckpoint = .ok cp ∧
      ∀ round seq, ¬VouchedFor 1 (twoCommits missingRecord completeRecord).1.commits round seq cp := by
  have hlist : (twoCommits missingRecord completeRecord).1.commits.toList =
      [(1, commitWith 1 missingRecord), (2, commitWith 2 completeRecord)] := by decide +kernel
  have hcp : ∃ cp, (twoCommits missingRecord completeRecord).1.getCheckpoint = .ok cp ∧ True := by
    decide +kernel
  obtain ⟨cp, hcp, -⟩ := hcp
  refine ⟨by decide +kernel, cp, hcp, ?_⟩
  rintro round seq ⟨S, hS, hall⟩
  have hstored : ∀ {i m}, (twoCommits missingRecord completeRecord).1.commits[i]? = some m →
      i = 1 ∧ m = commitWith 1 missingRecord ∨ i = 2 ∧ m = commitWith 2 completeRecord := by
    intro i m hm
    rw [← ExtTreeMap.mem_toList_iff_getElem?_eq_some, hlist] at hm
    simpa using hm
  have hsub : S ⊆ {1, 2} := by
    intro i hi
    obtain ⟨m, hm, -⟩ := hall i hi
    rcases hstored hm with ⟨rfl, -⟩ | ⟨rfl, -⟩
    · decide
    · decide
  have hS' : S = {1, 2} := Finset.eq_of_subset_of_card_le hsub hS
  obtain ⟨m, hm, -, -, -, -, -, hrecord⟩ := hall 1 (by rw [hS']; decide)
  obtain ⟨m', hm', -, -, -, -, -, hrecord'⟩ := hall 2 (by rw [hS']; decide)
  have hm₁ : m = commitWith 1 missingRecord := by simpa using hstored hm
  have hm₂ : m' = commitWith 2 completeRecord := by simpa using hstored hm'
  subst hm₁ hm₂
  have hsame := congrArg (ClientRecord.contains · 2 1) (hrecord.trans hrecord'.symm)
  exact absurd hsame (by decide +kernel)

end

end CommitCollector

end DomBft
