import DomBft.CheckpointCollector.Commits
import DomBft.CheckpointCollector.Replies
import DomBft.Log.Certificate
import DomBft.Replica.Certified

/-!
The checkpoints that replicas commit in a round, some of the replicas Byzantine.

* `CheckpointCollector.Gathered`: what a collector has gathered, in terms of what others have sent
  (`R` for replies, `C` for commits) and of what the replica itself has said.
* `Commit.Founded`: a commit has matching replies of enough replicas behind it, and an own one.
* `Replica.Gathered`, the invariant: all collectors, and all commits that the replica has signed;
  one lemma for each handler that touches them.
* `checkpoints_agree`: over whole runs, **the checkpoints that replicas adopt in a round** are about
  one history, and so are the commits, the certificates, and what clients take for committed.
-/

namespace DomBft

open Fallible Transition
open HashChain (Continues)
open Std (ExtTreeMap)

/-! ### What a collector has gathered -/

section

variable {cfg : Config} {R R' : Reply → Prop} {C C' : Commit → Prop} {id : ℕ}
  {said said' : List Reply} {key : ℕ × ℕ} {coll : CheckpointCollector}

/-- Replies with a key of as many replicas as a certificate takes, of this one among them. -/
def Matching (cfg : Config) (R : Reply → Prop) (id : ℕ) (tuple : ReplyKeyTuple) : Prop :=
  ∃ S : Finset ℕ, cfg.superQuorumSize ≤ S.card ∧ id ∈ S ∧
    ∀ i ∈ S, ∃ m, R m ∧ m.replicaId = i ∧ m.keyTuple = tuple

/-- Commits of more than `f` replicas for a position of a round, with the digest. -/
def Committing (cfg : Config) (C : Commit → Prop) (round seq : ℕ) (digest : Bytes) : Prop :=
  ∃ S : Finset ℕ, cfg.f + 1 ≤ S.card ∧ ∀ i ∈ S, ∃ m, C m ∧ m.replicaId = i ∧ m.round = round ∧
    m.seq = seq ∧ m.logDigest = digest

/-- A commit is founded on matching replies, and on one that the replica has sent itself. -/
structure Commit.Founded (cfg : Config) (R : Reply → Prop) (id : ℕ) (said : List Reply)
    (m : Commit) : Prop where
  cert : ∃ digest, Matching cfg R id ⟨digest, m.round, m.seq⟩
  own : ∃ m' ∈ said, m'.keyTuple = ⟨m.logDigest, m.round, m.seq⟩

lemma Matching.mono {tuple : ReplyKeyTuple} (h : Matching cfg R id tuple)
    (hR : ∀ m, R m → R' m) : Matching cfg R' id tuple := by
  obtain ⟨S, hS, hid, hall⟩ := h
  refine ⟨S, hS, hid, fun i hi => ?_⟩
  obtain ⟨m, hm, heq⟩ := hall i hi
  exact ⟨m, hR m hm, heq⟩

lemma Commit.Founded.mono {m : Commit} (h : m.Founded cfg R id said) (hR : ∀ m, R m → R' m)
    (hsaid : said ⊆ said') : m.Founded cfg R' id said' where
  cert := by
    obtain ⟨digest, hcert⟩ := h.cert
    exact ⟨digest, hcert.mono hR⟩
  own := by
    obtain ⟨m', hm', heq⟩ := h.own
    exact ⟨m', hsaid hm', heq⟩

namespace CheckpointCollector

/-- What the collector at this round and position has gathered.  The own state has been said in a
reply, and a certificate is one of the round. -/
structure Gathered (cfg : Config) (R : Reply → Prop) (C : Commit → Prop) (id : ℕ)
    (said : List Reply) (key : ℕ × ℕ) (coll : CheckpointCollector) : Prop where
  position : coll.round = key.1 ∧ coll.seq = key.2 ∧ coll.commitCollector.seq = key.2
  replicaId : coll.replyCollector.replicaId = id
  state : ∀ digest ∈ coll.logDigest, ∃ m ∈ said, m.keyTuple = ⟨digest, key.1, key.2⟩
  replies : ∀ (i : ℕ) (m : Reply), coll.replyCollector.replies[i]? = some m →
    m.replicaId = i ∧ R m ∧ m.seq = key.2 ∧ (i = id → m.round = key.1)
  cert : coll.replyCollector.cert.isSome → ∃ digest, Matching cfg R id ⟨digest, key.1, key.2⟩
  commits : ∀ (i : ℕ) (m : Commit), coll.commitCollector.commits[i]? = some m →
    m.replicaId = i ∧ C m ∧ m.round = key.1 ∧ m.seq = key.2

namespace Gathered

lemma create (cfg : Config) (R : Reply → Prop) (C : Commit → Prop) (id : ℕ)
    (said : List Reply) (round seq : ℕ) (needsSnapshot : Bool) :
    (CheckpointCollector.create id round seq needsSnapshot).Gathered cfg R C id said
      (round, seq) where
  position := ⟨rfl, rfl, rfl⟩
  replicaId := rfl
  state := nofun
  replies i m h := by cases ExtTreeMap.getElem?_empty.symm.trans h
  cert := nofun
  commits i m h := by cases ExtTreeMap.getElem?_empty.symm.trans h

lemma mono (h : coll.Gathered cfg R C id said key) (hR : ∀ m, R m → R' m)
    (hC : ∀ m, C m → C' m) (hsaid : said ⊆ said') : coll.Gathered cfg R' C' id said' key where
  position := h.position
  replicaId := h.replicaId
  state digest hdigest := by
    obtain ⟨m, hm, heq⟩ := h.state digest hdigest
    exact ⟨m, hsaid hm, heq⟩
  replies i m hm := by
    obtain ⟨hid, hR', hseq, hround⟩ := h.replies i m hm
    exact ⟨hid, hR m hR', hseq, hround⟩
  cert hcert := by
    obtain ⟨digest, hmatch⟩ := h.cert hcert
    exact ⟨digest, hmatch.mono hR⟩
  commits i m hm := by
    obtain ⟨hid, hC', hround, hseq⟩ := h.commits i m hm
    exact ⟨hid, hC m hC', hround, hseq⟩

lemma addOwnSnapshot (h : coll.Gathered cfg R C id said key) (snapshot : AppSnapshot) :
    (coll.addOwnSnapshot snapshot).Gathered cfg R C id said key :=
  ⟨h.position, h.replicaId, h.state, h.replies, h.cert, h.commits⟩

lemma checkSelfTimeout (h : coll.Gathered cfg R C id said key) (now timeoutMs : ℕ) :
    (coll.checkSelfTimeout now timeoutMs).1.Gathered cfg R C id said key := by
  rw [CheckpointCollector.checkSelfTimeout]
  split_ifs
  · exact h
  · exact ⟨h.position, h.replicaId, h.state, h.replies, h.cert, h.commits⟩
  · exact h

lemma addAndCheckTimeout (h : coll.Gathered cfg R C id said key) (msg : RepairTimeout)
    (sig : Bytes) : (coll.addAndCheckTimeout cfg msg sig).1.Gathered cfg R C id said key := by
  rw [CheckpointCollector.addAndCheckTimeout]
  dsimp only
  split_ifs
  · exact ⟨h.position, h.replicaId, h.state, h.replies, h.cert, h.commits⟩
  · exact ⟨h.position, h.replicaId, h.state, h.replies, h.cert, h.commits⟩

/-- The own state, once it has been said. -/
lemma addOwnState (h : coll.Gathered cfg R C id said key) {digest : Bytes} {m : Reply}
    (hm : m ∈ said) (hkey : m.keyTuple = ⟨digest, key.1, key.2⟩) (record : ClientRecord) :
    (coll.addOwnState digest record).Gathered cfg R C id said key := by
  refine ⟨h.position, h.replicaId, fun digest' hdigest' => ?_, h.replies, h.cert, h.commits⟩
  cases hdigest'
  exact ⟨m, hm, hkey⟩

/-- **A reply.**  The certificate that it makes contains the own reply, so that it is one of the
round. -/
lemma addAndCheckReply (h : coll.Gathered cfg R C id said key) (now : ℕ) {m : Reply} (sig : Bytes)
    (hm : R m) (hseq : m.seq = key.2) (hround : m.replicaId = id → m.round = key.1) :
    (coll.addAndCheckReply cfg now m sig).1.Gathered cfg R C id said key := by
  -- what is stored
  have hstored : ∀ (i : ℕ) (m' : Reply),
      (coll.replyCollector.store (m, sig)).replies[i]? = some m' →
      m'.replicaId = i ∧ R m' ∧ m'.seq = key.2 ∧ (i = id → m'.round = key.1) := by
    intro i m' hm'
    rcases OrderedMap.getElem?_insert_cases hm' with ⟨rfl, rfl⟩ | ⟨-, hold⟩
    · exact ⟨rfl, hm, hseq, hround⟩
    · exact h.replies i m' hold
  suffices hnext : ∀ rc, (coll.replyCollector.addAndCheckReply cfg m sig).1 = rc →
      rc.replicaId = id ∧
      (∀ (i : ℕ) (m' : Reply), rc.replies[i]? = some m' →
        m'.replicaId = i ∧ R m' ∧ m'.seq = key.2 ∧ (i = id → m'.round = key.1)) ∧
      (rc.cert.isSome → ∃ digest, Matching cfg R id ⟨digest, key.1, key.2⟩) by
    obtain ⟨hid, hreplies, hcert⟩ := hnext _ rfl
    exact ⟨h.position, hid, h.state, hreplies, hcert, h.commits⟩
  rintro rc rfl
  rcases coll.replyCollector.addAndCheckReply_eq cfg (m, sig) with
    ⟨-, heq⟩ | ⟨-, maxMatch, cert, hmatched, heq⟩
  · dsimp only at heq
    rw [heq]
    exact ⟨h.replicaId, hstored, h.cert⟩
  · dsimp only at heq
    rw [heq]
    refine ⟨h.replicaId, hstored, fun hcert => ?_⟩
    obtain ⟨c, rfl⟩ := Option.isSome_iff_exists.mp hcert
    obtain ⟨tuple, matching, rfl, hsub, hmany, hown⟩ := hmatched.made c rfl
    have hall : ∀ x ∈ matching, x.2.keyTuple = tuple ∧
        (coll.replyCollector.store (m, sig)).replies[x.1]? = some x.2 := by
      intro x hx
      obtain ⟨hmem, hkey⟩ := List.mem_filter.mp (hsub.subset hx)
      exact ⟨of_decide_eq_true hkey, ExtTreeMap.mem_toList_iff_getElem?_eq_some.mp hmem⟩
    rw [h.replicaId] at hown
    -- the own reply says which round and position it is
    obtain ⟨⟨_, own⟩, hx, rfl⟩ := List.mem_map.mp hown
    obtain ⟨hkey, hget⟩ := hall _ hx
    obtain ⟨-, -, hownSeq, hownRound⟩ := hstored _ own hget
    refine ⟨tuple.digest, (matching.map (·.1)).toFinset, ?_,
      List.mem_toFinset.mpr (List.mem_map_of_mem hx), fun i hi => ?_⟩
    · rw [List.toFinset_card_of_nodup
        (OrderedMap.nodup_map_fst_of_sublist (hsub.trans List.filter_sublist)), List.length_map]
      exact hmany
    · obtain ⟨x, hx', rfl⟩ := List.mem_map.mp (List.mem_toFinset.mp hi)
      obtain ⟨hkey', hget'⟩ := hall x hx'
      obtain ⟨hid, hR, -, -⟩ := hstored _ _ hget'
      refine ⟨x.2, hR, hid, ?_⟩
      rw [hkey', ← hkey, Reply.keyTuple, hownSeq, hownRound rfl]

/-- **A commit.** -/
lemma addAndCheckCommit [Sha256] (h : coll.Gathered cfg R C id said key) {m : Commit}
    (sig : Bytes) (hm : C m) (hround : m.round = key.1) (hseq : m.seq = key.2) :
    (coll.addAndCheckCommit cfg m sig).1.Gathered cfg R C id said key := by
  obtain ⟨⟨c', ok⟩, hadd⟩ : ∃ x, coll.commitCollector.addAndCheckCommit cfg m sig = x := ⟨_, rfl⟩
  rw [CheckpointCollector.addAndCheckCommit, hadd]
  rcases CommitCollector.addAndCheckCommit_cases hadd with ⟨rfl, -⟩ | ⟨-, -, hseq', hcommits, -⟩
  · exact ⟨h.position, h.replicaId, h.state, h.replies, h.cert, h.commits⟩
  · refine ⟨⟨h.position.1, h.position.2.1, hseq'.trans h.position.2.2⟩, h.replicaId, h.state,
      h.replies, h.cert, fun i m' hm' => ?_⟩
    dsimp only at hm'
    rw [hcommits] at hm'
    rcases OrderedMap.getElem?_insert_cases hm' with ⟨rfl, rfl⟩ | ⟨-, hold⟩
    · exact ⟨rfl, hm, hround, hseq⟩
    · exact h.commits i m' hold

end Gathered

/-- **The checkpoint that commits make** is one that more than `f` replicas have sent commits
for. -/
lemma getCheckpoint_committing [Sha256] {coll' : CheckpointCollector} {m : Commit} {sig : Bytes}
    (hadd : coll.addAndCheckCommit cfg m sig = (coll', true))
    (h : coll'.Gathered cfg R C id said key) {cp : LogCheckpoint}
    (hcp : coll'.getCheckpoint = .ok cp) :
    cp.seq = key.2 ∧ Committing cfg C key.1 key.2 cp.logDigest := by
  obtain ⟨⟨c', ok⟩, hadd'⟩ : ∃ x, coll.commitCollector.addAndCheckCommit cfg m sig = x := ⟨_, rfl⟩
  rw [CheckpointCollector.addAndCheckCommit, hadd'] at hadd
  obtain ⟨rfl, rfl⟩ := Prod.mk.inj hadd
  rcases CommitCollector.addAndCheckCommit_cases hadd' with ⟨-, hfalse, -⟩ | ⟨-, -, -, -, hfound⟩
  · cases hfalse
  obtain ⟨m', ids, hmatch, huse, hids⟩ := hfound rfl
  obtain ⟨cp', hcp', hseq, hdigest, -, -⟩ := CommitCollector.getCheckpoint_eq hmatch huse hids
  obtain ⟨cp'', hcp'', hcp⟩ := bind_eq_ok.mp hcp
  have hsame : cp'' = cp' := Except.ok.inj (hcp''.symm.trans hcp')
  have hfields : cp.seq = cp'.seq ∧ cp.logDigest = cp'.logDigest := by
    cases pure_eq_ok.mp hcp
    rw [← hsame]
    split_ifs <;> exact ⟨rfl, rfl⟩
  refine ⟨hfields.1.trans (hseq.trans h.position.2.2), ?_⟩
  rw [hfields.2, hdigest]
  -- the replicas whose commits tip the count
  obtain ⟨before, i, after, hlist, hmany, -, -⟩ := CommitCollector.matchCommits_eq hmatch
  rw [List.nil_append] at hmany
  have hsub : (CommitCollector.matching (before ++ [(i, m')]) m').Sublist c'.commits.toList := by
    rw [hlist]
    exact List.filter_sublist.trans
      ((List.singleton_sublist.mpr List.mem_cons_self).append_left before)
  have hall : ∀ x ∈ CommitCollector.matching (before ++ [(i, m')]) m',
      x.2.keyTuple = m'.keyTuple ∧ c'.commits[x.1]? = some x.2 := by
    intro x hx
    exact ⟨of_decide_eq_true (List.mem_filter.mp hx).2,
      ExtTreeMap.mem_toList_iff_getElem?_eq_some.mp (hsub.subset hx)⟩
  refine ⟨((CommitCollector.matching (before ++ [(i, m')]) m').map (·.1)).toFinset, ?_,
    fun j hj => ?_⟩
  · rw [List.toFinset_card_of_nodup (OrderedMap.nodup_map_fst_of_sublist hsub), List.length_map]
    exact hmany
  · obtain ⟨x, hx, rfl⟩ := List.mem_map.mp (List.mem_toFinset.mp hj)
    obtain ⟨hkey, hget⟩ := hall x hx
    obtain ⟨hid, hC, hround, hseq⟩ := h.commits _ _ hget
    exact ⟨x.2, hC, hid, hround, hseq, congrArg CommitKeyTuple.logDigest hkey⟩

end CheckpointCollector

end

namespace Log

variable {A : Type} {l : Log A}

/-- An entry is that of its position, and has the digest of it. -/
lemma getDigestAt_of_getEntry {seq : ℕ} {e : LogEntry} (h : l.getEntry seq = .ok e) :
    e.seq = seq ∧ l.getDigestAt seq = .ok e.digest := by
  obtain ⟨hrange, first, hfirst, hle, hget, hseq⟩ := getEntry_eq_ok.mp h
  rw [getEntry, if_pos hrange] at h
  rw [getDigestAt, if_neg hrange.1.ne', if_pos hrange, h]
  exact ⟨hseq, rfl⟩

end Log

/-- No step changes the name of a replica. -/
lemma Core.Steps.replicaId_eq {A : Type} [Application A] [Sha256] [PaddedRequestData]
    {r₀ : Replica A} {cfg : Config} {e : ReplicaEvent} {c c' : Core}
    (h : Core.Steps cfg r₀ e c c') : c'.replicaId = c.replicaId := by
  induction h with
  | refl => rfl
  | tail _ hstep ih =>
      cases hstep with
      | _ => exact ih

namespace Replica

/-! ### What a replica has gathered -/

section

variable {A : Type} {cfg : Config} {R R' : Reply → Prop} {C C' : Commit → Prop}
  {r r₁ r₂ r' : Replica A} {now : ℕ}

/-- What all collectors have gathered, and what the commits that the replica has signed are
founded on. -/
structure Gathered (cfg : Config) (R : Reply → Prop) (C : Commit → Prop) (r : Replica A) :
    Prop where
  collectors : ∀ (key : ℕ × ℕ) (coll : CheckpointCollector),
    r.checkpointCollectors.collectors[key]? = some coll →
    coll.Gathered cfg R C r.replicaId r.replies key
  commits : ∀ m ∈ r.commits, m.Founded cfg R r.replicaId r.replies

namespace Gathered

lemma fresh (i : ℕ) (app : A) : (Replica.fresh i app).Gathered cfg R C where
  collectors key coll h := by cases ExtTreeMap.getElem?_empty.symm.trans h
  commits := nofun

lemma mono (hg : r.Gathered cfg R C) (hR : ∀ m, R m → R' m) (hC : ∀ m, C m → C' m) :
    r.Gathered cfg R' C' where
  collectors key coll h := (hg.collectors key coll h).mono hR hC (List.Subset.refl _)
  commits m hm := (hg.commits m hm).mono hR (List.Subset.refl _)

/-- More may be said, and collectors may be dropped. -/
lemma of_subset (hg : r.Gathered cfg R C) (hid : r'.replicaId = r.replicaId)
    (hreplies : r.replies ⊆ r'.replies) (hcommits : r'.commits = r.commits)
    (hcolls : ∀ (key : ℕ × ℕ) (coll : CheckpointCollector),
      r'.checkpointCollectors.collectors[key]? = some coll →
      r.checkpointCollectors.collectors[key]? = some coll) : r'.Gathered cfg R C where
  collectors key coll h := by
    rw [hid]
    exact (hg.collectors key coll (hcolls key coll h)).mono (fun _ => id) (fun _ => id) hreplies
  commits m hm := by
    rw [hid]
    rw [hcommits] at hm
    exact (hg.commits m hm).mono (fun _ => id) hreplies

lemma silent (hg : r.Gathered cfg R C) (h : Silent r r')
    (hcolls : r'.checkpointCollectors = r.checkpointCollectors) : r'.Gathered cfg R C :=
  hg.of_subset h.replicaId (h.replies ▸ List.Subset.refl _) h.commits
    fun _ _ hcoll => hcolls ▸ hcoll

lemma keepsWord (hg : r.Gathered cfg R C) (h : KeepsWord r r') : r'.Gathered cfg R C :=
  hg.of_subset h.replicaId (h.replies ▸ List.Subset.refl _) h.commits
    fun _ _ hcoll => h.collectors ▸ hcoll

/-- A reply is sent. -/
lemma say (hg : r.Gathered cfg R C) (dst : Dest) (m : Reply) :
    (r.send dst (.reply m)).Gathered cfg R C := by
  refine hg.of_subset rfl ?_ (commits_send_other r dst rfl) fun _ _ => id
  rw [replies_send]
  exact List.subset_append_left _ _

lemma setCollector (hg : r.Gathered cfg R C) {round seq : ℕ} {coll : CheckpointCollector}
    (hcoll : coll.Gathered cfg R C r.replicaId r.replies (round, seq)) :
    (r.setCollector round seq coll).Gathered cfg R C where
  collectors key coll' h := by
    rcases OrderedMap.getElem?_insert_cases h with ⟨rfl, rfl⟩ | ⟨-, hold⟩
    · exact hcoll
    · exact hg.collectors key coll' hold
  commits := hg.commits

end Gathered

lemma Quiet.round_eq (h : Quiet r r') : r'.round = r.round := by
  have hround := congrArg Replica.round h.eq
  exact hround

lemma Quiet.replicaId_eq (h : Quiet r r') : r'.replicaId = r.replicaId := by
  have hid := congrArg Replica.replicaId h.eq
  exact hid

lemma initCollector_gathered (hg : r.Gathered cfg R C) {round seq : ℕ} {needsSnapshot ok : Bool}
    (h : r.initCollector round seq needsSnapshot = .ok (r', ok)) : r'.Gathered cfg R C := by
  rw [initCollector] at h
  split_ifs at h
  · cases h
    exact hg
  · obtain ⟨⟨store, created⟩, hstore, h⟩ := bind_eq_ok.mp h
    cases pure_eq_ok.mp h
    rcases CheckpointCollectorStore.initCollector_cases hstore with rfl | rfl
    · exact hg.of_subset rfl (List.Subset.refl _) rfl fun _ _ => id
    · exact hg.setCollector (.create cfg R C r.replicaId r.replies round seq needsSnapshot)

lemma cleanStaleCollectors_gathered (hg : r.Gathered cfg R C)
    (h : r.cleanStaleCollectors = .ok r') : r'.Gathered cfg R C := by
  obtain ⟨store, hstore, h⟩ := bind_eq_ok.mp h
  cases pure_eq_ok.mp h
  rw [CheckpointCollectorStore.cleanStaleCollectors] at hstore
  split_ifs at hstore
  cases hstore
  refine hg.of_subset rfl (List.Subset.refl _) rfl fun key coll hcoll => ?_
  dsimp only at hcoll
  rw [ExtTreeMap.getElem?_filter', Option.filter_eq_some_iff] at hcoll
  exact hcoll.1

/-- The collector of a position, as `get` finds it. -/
lemma Gathered.get (hg : r.Gathered cfg R C) {round seq : ℕ} {coll : CheckpointCollector}
    (h : r.checkpointCollectors.get round seq = .ok coll) :
    coll.Gathered cfg R C r.replicaId r.replies (round, seq) :=
  hg.collectors _ _ (CheckpointCollectorStore.get_eq h)

section

variable [Application A]

/-- **The own state of a checkpoint is said in a reply.** -/
lemma startCheckpoint_gathered (hg : r.Gathered cfg R C) {b : Bool}
    (h : r.startCheckpoint b = .ok r') : r'.Gathered cfg R C := by
  have hg₀ : (if b = true then r.takeSnapshot else r).Gathered cfg R C := by
    split_ifs
    · exact hg.of_subset rfl (List.Subset.refl _) rfl fun _ _ => id
    · exact hg
  obtain ⟨⟨r₁, ok⟩, hinit, h⟩ := bind_eq_ok.mp h
  have hg₁ := initCollector_gathered hg₀ hinit
  cases ok with
  | false =>
      cases h
      exact hg₁
  | true =>
      obtain ⟨coll, hget, h⟩ := bind_eq_ok.mp h
      obtain ⟨digest, hdigest, h⟩ := bind_eq_ok.mp h
      obtain ⟨entry, hentry, h⟩ := bind_eq_ok.mp h
      cases pure_eq_ok.mp h
      obtain ⟨hseq, hsame⟩ := Log.getDigestAt_of_getEntry hentry
      have hd : digest = entry.digest := Except.ok.inj (hdigest.symm.trans hsame)
      have hown : ∀ m : Reply, m.keyTuple = ⟨digest, r₁.round, r.log.nextSeq - 1⟩ →
          ((r₁.send .replicas (.reply m)).setCollector r₁.round (r.log.nextSeq - 1)
            (coll.addOwnState digest r₁.log.clientRecord)).Gathered cfg R C := by
        intro m hkey
        have hsaid := hg₁.say .replicas m
        refine hsaid.setCollector ((hsaid.get hget).addOwnState (m := m) ?_ hkey _)
        rw [replies_send]
        exact List.mem_append_right _ (List.mem_singleton.mpr rfl)
      refine hown {
        clientId := entry.clientId
        clientSeq := entry.clientSeq
        replicaId := r₁.replicaId
        round := r₁.round
        seq := entry.seq
        digest := entry.digest } ?_
      rw [Reply.keyTuple, hd, hseq]

lemma checkpointAt_gathered (hg : r.Gathered cfg R C) {seq : ℕ}
    (h : r.checkpointAt cfg now seq = .ok r') : r'.Gathered cfg R C := by
  have htimer : ∀ {r₁ : Replica A}, r₁.Gathered cfg R C → (r₁.restartTimer now).Gathered cfg R C :=
    fun hg₁ => hg₁.of_subset rfl (List.Subset.refl _) rfl fun _ _ => id
  have hstart : ∃ r₁ : Replica A, r₁.Gathered cfg R C ∧
      r' = if seq = 1 then r₁.restartTimer now else r₁ := by
    by_cases hseq : seq % cfg.replicaCheckpointInterval = 0
    · rw [checkpointAt, if_pos hseq] at h
      obtain ⟨r₁, h₁, h⟩ := bind_eq_ok.mp h
      obtain ⟨r₂, h₂, rfl⟩ := map_eq_ok.mp h₁
      exact ⟨_, htimer (startCheckpoint_gathered hg h₂), (Except.ok.inj h).symm⟩
    · rw [checkpointAt, if_neg hseq] at h
      exact ⟨r, hg, (Except.ok.inj h).symm⟩
  obtain ⟨r₁, hg₁, rfl⟩ := hstart
  split_ifs
  · exact htimer hg₁
  · exact hg₁

lemma checkpointTimedOut_gathered (hg : r.Gathered cfg R C) {reply : Reply}
    (h : r.checkpointTimedOut cfg reply = .ok r') : r'.Gathered cfg R C := by
  rw [checkpointTimedOut] at h
  dsimp only at h
  split_ifs at h
  · refine startCheckpoint_gathered ?_ h
    exact hg.of_subset rfl (List.Subset.refl _) rfl fun _ _ => id
  · cases h
    exact hg

end

section

variable [Sha256]

/-- **The own commit** is sent with a certificate, for the state that the replica has said. -/
lemma sendOwnCommit_gathered (hg : r.Gathered cfg R C) {key : ℕ × ℕ} {coll : CheckpointCollector}
    (hcoll : coll.Gathered cfg R C r.replicaId r.replies key)
    (h : r.sendOwnCommit coll = .ok r') : r'.Gathered cfg R C := by
  rw [sendOwnCommit] at h
  split_ifs at h with hready
  · obtain ⟨m, hm, h⟩ := bind_eq_ok.mp h
    cases pure_eq_ok.mp h
    rw [CheckpointCollector.commitReady, Bool.and_eq_true_iff, Bool.and_eq_true_iff,
      Bool.and_eq_true_iff] at hready
    obtain ⟨⟨⟨hcert, -⟩, -⟩, -⟩ := hready
    have hfields : m.round = coll.round ∧ m.seq = coll.seq ∧ coll.logDigest = some m.logDigest := by
      rw [CheckpointCollector.getOwnCommit] at hm
      split at hm
      · rename_i digest record hdigest hrecord
        dsimp only at hm
        split_ifs at hm
        · split at hm
          · cases hm
          · cases hm
            exact ⟨rfl, rfl, hdigest⟩
        · cases hm
          exact ⟨rfl, rfl, hdigest⟩
      · cases hm
    obtain ⟨hround, hseq, hdigest⟩ := hfields
    rw [hcoll.position.1] at hround
    rw [hcoll.position.2.1] at hseq
    have hreplies : (r.broadcastToReplicas (.commit m)).replies = r.replies :=
      replies_send_other r _ rfl
    refine ⟨fun key' coll' hcoll' => ?_, fun m' hm' => ?_⟩
    · rw [hreplies]
      exact hg.collectors key' coll' hcoll'
    · rw [hreplies]
      rw [broadcastToReplicas, commits_send, List.mem_append, List.mem_singleton] at hm'
      rcases hm' with hold | rfl
      · exact hg.commits m' hold
      · refine ⟨?_, ?_⟩
        · rw [hround, hseq]
          exact hcoll.cert hcert
        · rw [hround, hseq]
          exact hcoll.state _ hdigest
  · cases h
    exact hg

lemma useCert_gathered (hg : r.Gathered cfg R C) {key : ℕ × ℕ} {coll : CheckpointCollector}
    (hcoll : coll.Gathered cfg R C r.replicaId r.replies key) {reply : Reply}
    (h : r.useCert cfg coll reply = .ok r') : r'.Gathered cfg R C := by
  have hlog : ∀ log : Log A, { r with log }.Gathered cfg R C :=
    fun log => hg.of_subset rfl (List.Subset.refl _) rfl fun _ _ => id
  rw [useCert] at h
  split_ifs at h
  · split at h
    · cases h
    · obtain ⟨⟨log, ok⟩, -, h⟩ := bind_eq_ok.mp h
      cases ok with
      | false =>
          cases h
          exact hlog log
      | true => exact sendOwnCommit_gathered (hlog log) hcoll h
  · exact sendOwnCommit_gathered hg hcoll h

lemma startRepair_gathered (hg : r.Gathered cfg R C) (h : r.startRepair cfg = .ok r') :
    r'.Gathered cfg R C :=
  hg.silent (startRepair_silent h) (congrArg Ledger.checkpointCollectors (startRepair_ledger h))

lemma useConflictProof_gathered (hg : r.Gathered cfg R C) {coll : CheckpointCollector}
    (h : r.useConflictProof cfg coll = .ok r') : r'.Gathered cfg R C := by
  rcases useConflictProof_cases h with ⟨-, rfl⟩ | ⟨proof, -, h⟩
  · exact hg
  · exact startRepair_gathered (hg.silent (.broadcast r ⟨rfl, rfl⟩) rfl) h

lemma processSnapshot_gathered (hg : r.Gathered cfg R C) {snapshot : AppSnapshot} {round : ℕ}
    (h : r.processSnapshot snapshot round = .ok r') : r'.Gathered cfg R C := by
  rw [processSnapshot] at h
  split at h
  · cases h
    exact hg
  · rename_i coll hget
    have hcoll := (hg.collectors _ _ hget).addOwnSnapshot snapshot
    exact sendOwnCommit_gathered (hg.setCollector hcoll) hcoll h

lemma processRepairTimeout_gathered (hg : r.Gathered cfg R C) {m : RepairTimeout} {sig : Bytes}
    (h : r.processRepairTimeout cfg m sig = .ok r') : r'.Gathered cfg R C := by
  rcases processRepairTimeout_cases h with rfl | ⟨coll, hcoll, hcases⟩
  · exact hg
  have hset := hg.setCollector ((hg.collectors _ _ hcoll).addAndCheckTimeout m sig)
  rcases hcases with rfl | ⟨proof, hstart⟩
  · exact hset
  · exact startRepair_gathered (hset.silent (.broadcast _ ⟨rfl, rfl⟩) rfl) hstart

variable [Application A]

/-- **A reply that has been verified**: one in the own name is not of a later round. -/
lemma processReply_gathered (hg : r.Gathered cfg R C) {m : Reply} {sig : Bytes} (hm : R m)
    (hown : m.replicaId = r.replicaId → m.round ≤ r.round)
    (h : r.processReply cfg now m sig = .ok r') : r'.Gathered cfg R C := by
  rw [processReply] at h
  split_ifs at h with hrepair hround
  · cases h
    exact hg
  · cases h
    exact hg
  obtain ⟨r₁, htimeout, h⟩ := bind_eq_ok.mp h
  have hg₁ := checkpointTimedOut_gathered hg htimeout
  have hq₁ := (checkpointTimedOut_quiet htimeout).1
  split_ifs at h
  · cases h
    exact hg₁
  obtain ⟨⟨r₂, ok⟩, hinit, h⟩ := bind_eq_ok.mp h
  have hg₂ := initCollector_gathered hg₁ hinit
  have hq₂ := hq₁.trans (initCollector_quiet hinit).1
  cases ok with
  | false =>
      cases h
      exact hg₂
  | true =>
      obtain ⟨coll, hget, h⟩ := bind_eq_ok.mp h
      split_ifs at h
      · cases h
        exact hg₂
      have hcoll := (hg₂.get hget).addAndCheckReply now sig hm rfl fun hid => by
        show m.round = r₂.round
        rw [hq₂.replicaId_eq] at hid
        rw [hq₂.round_eq]
        exact le_antisymm (hown hid) (not_lt.mp hround)
      have hg₃ := hg₂.setCollector hcoll
      dsimp only at h
      split_ifs at h
      · exact useCert_gathered hg₃ hcoll h
      · exact useConflictProof_gathered hg₃ h

/-! ### Commits and timers -/

omit [Sha256] [Application A] in
lemma requestCheckpoint_keepsWord {cp : LogCheckpoint}
    (h : r.requestCheckpoint cfg now cp = .ok r') : KeepsWord r r' ∧ r'.log = r.log := by
  rw [requestCheckpoint] at h
  split at h
  · cases h
  split_ifs at h
  · cases h
    exact ⟨⟨rfl, rfl, rfl, rfl, rfl⟩, rfl⟩
  · obtain ⟨r₁, hsend, h⟩ := bind_eq_ok.mp h
    cases pure_eq_ok.mp h
    rw [(sendToReplica_eq hsend).2]
    exact ⟨⟨replies_send_other r _ rfl, commits_send_other r _ rfl, rfl, rfl, rfl⟩, rfl⟩
  · obtain ⟨r₁, hsend, h⟩ := bind_eq_ok.mp h
    cases pure_eq_ok.mp h
    cases hsend
    exact ⟨⟨rfl, rfl, rfl, rfl, rfl⟩, rfl⟩

/-- A checkpoint is adopted as it is, or not at all. -/
lemma useCheckpoint_gathered (hg : r.Gathered cfg R C) (hl : r.log.WellFormed)
    {coll : CheckpointCollector} (h : r.useCheckpoint cfg now coll = .ok r') :
    r'.Gathered cfg R C ∧ (r'.log.committedCheckpoint = r.log.committedCheckpoint ∨
      coll.getCheckpoint = .ok r'.log.committedCheckpoint) := by
  obtain ⟨cp, hcp, h⟩ := bind_eq_ok.mp h
  have hrequest : r.requestCheckpoint cfg now cp = .ok r' → r'.Gathered cfg R C ∧
      (r'.log.committedCheckpoint = r.log.committedCheckpoint ∨
        coll.getCheckpoint = .ok r'.log.committedCheckpoint) := by
    intro h
    obtain ⟨hword, hlog⟩ := requestCheckpoint_keepsWord h
    exact ⟨hg.keepsWord hword, .inl (congrArg Log.committedCheckpoint hlog)⟩
  by_cases hnext : r.log.nextSeq ≤ cp.seq
  · rw [if_pos hnext] at h
    exact hrequest h
  rw [if_neg hnext] at h
  obtain ⟨digest, -, h⟩ := bind_eq_ok.mp h
  split_ifs at h
  · exact hrequest h
  · obtain ⟨log, hset, h⟩ := bind_eq_ok.mp h
    have hlog : { r with log }.Gathered cfg R C :=
      hg.of_subset rfl (List.Subset.refl _) rfl fun _ _ => id
    refine ⟨cleanStaleCollectors_gathered hlog h, ?_⟩
    rw [(cleanStaleCollectors_quiet h).2]
    obtain ⟨committed, _, _, _, rfl, ⟨-, rfl⟩ | ⟨-, rfl⟩, -⟩ :=
      Log.setCheckpoint_cases hl (not_le.mp hnext) hset
    · exact .inr hcp
    · exact .inl rfl
  · cases pure_eq_ok.mp h
    exact ⟨hg, .inl rfl⟩

/-- **A checkpoint that a commit makes the replica adopt** is one that more than `f` replicas have
sent commits for. -/
lemma processCommit_gathered (hg : r.Gathered cfg R C) (hl : r.log.WellFormed) {m : Commit}
    {sig : Bytes} (hm : C m) (h : r.processCommit cfg now m sig = .ok r') :
    r'.Gathered cfg R C ∧ (r'.log.committedCheckpoint = r.log.committedCheckpoint ∨
      r'.log.committedCheckpoint.seq = m.seq ∧
        Committing cfg C m.round m.seq r'.log.committedCheckpoint.logDigest) := by
  obtain ⟨⟨r₁, ok⟩, hinit, h⟩ := bind_eq_ok.mp h
  have hg₁ := initCollector_gathered hg hinit
  have hlog := (initCollector_quiet hinit).2
  cases ok with
  | false =>
      cases pure_eq_ok.mp h
      exact ⟨hg₁, .inl (congrArg Log.committedCheckpoint hlog)⟩
  | true =>
      obtain ⟨coll, hget, h⟩ := bind_eq_ok.mp h
      have hcoll := (hg₁.get hget).addAndCheckCommit sig hm rfl rfl
      obtain ⟨⟨coll', ready⟩, hadd⟩ : ∃ x, coll.addAndCheckCommit cfg m sig = x := ⟨_, rfl⟩
      rw [hadd] at h hcoll
      have hg₂ := hg₁.setCollector hcoll
      cases ready with
      | false =>
          cases pure_eq_ok.mp h
          exact ⟨hg₂, .inl (congrArg Log.committedCheckpoint hlog)⟩
      | true =>
          obtain ⟨hg', hsame | hcp⟩ := useCheckpoint_gathered hg₂ (hlog ▸ hl) h
          · exact ⟨hg', .inl (hsame.trans (congrArg Log.committedCheckpoint hlog))⟩
          · exact ⟨hg', .inr (CheckpointCollector.getCheckpoint_committing hadd hcoll hcp)⟩

omit [Sha256] [Application A] in
lemma foldl_checkCollector_gathered (cfg : Config) (now : ℕ)
    {xs : List ((ℕ × ℕ) × CheckpointCollector)} (hg : r.Gathered cfg R C)
    (hxs : ∀ x ∈ xs, x.2.Gathered cfg R C r.replicaId r.replies x.1) :
    (xs.foldl (fun r (key, coll) => r.checkCollector cfg now key coll) r).Gathered cfg R C := by
  induction xs generalizing r with
  | nil => exact hg
  | cons x xs ih =>
      obtain ⟨⟨round, seq⟩, coll⟩ := x
      have hcoll := (hxs _ List.mem_cons_self).checkSelfTimeout now cfg.replicaCheckpointTimeout
      have hset := hg.setCollector hcoll
      have hone : (r.checkCollector cfg now (round, seq) coll).Gathered cfg R C ∧
          (r.checkCollector cfg now (round, seq) coll).replicaId = r.replicaId ∧
          (r.checkCollector cfg now (round, seq) coll).replies = r.replies := by
        rw [checkCollector]
        dsimp only
        split_ifs
        · exact ⟨hset.silent (.broadcast _ ⟨rfl, rfl⟩) rfl, rfl, replies_send_other _ _ rfl⟩
        · exact ⟨hset, rfl, rfl⟩
      obtain ⟨hone, hid, hreplies⟩ := hone
      refine ih hone fun y hy => ?_
      dsimp only
      rw [hid, hreplies]
      exact hxs y (List.mem_cons_of_mem _ hy)

lemma checkTimeouts_gathered (hg : r.Gathered cfg R C) (h : r.checkTimeouts cfg now = .ok r') :
    r'.Gathered cfg R C := by
  obtain ⟨r₁, hcheck, -, -, hend⟩ := checkTimeouts_cases h
  have hall : ∀ x ∈ r.checkpointCollectors.collectors.toList,
      x.2.Gathered cfg R C r.replicaId r.replies x.1 :=
    fun x hx => hg.collectors x.1 x.2 (ExtTreeMap.mem_toList_iff_getElem?_eq_some.mp hx)
  have hfold := foldl_checkCollector_gathered cfg now hg hall
  have hg₁ : r₁.Gathered cfg R C := by
    rw [checkCheckpointTimeout] at hcheck
    split_ifs at hcheck
    · obtain ⟨r₂, hstart, hcheck⟩ := bind_eq_ok.mp hcheck
      cases pure_eq_ok.mp hcheck
      exact (startCheckpoint_gathered hfold hstart).of_subset rfl (List.Subset.refl _) rfl
        fun _ _ => id
    · cases hcheck
      exact hfold
  rcases hend with rfl | ⟨-, hview⟩
  · exact hg₁
  · have htimer : { r₁ with
        repairViewStart := now
        numConsecutiveViewChanges := r₁.numConsecutiveViewChanges + 1 }.Gathered cfg R C :=
      hg₁.of_subset rfl (List.Subset.refl _) rfl fun _ _ => id
    exact htimer.silent (startViewChange_silent hview)
      (congrArg Ledger.checkpointCollectors (startViewChange_ledger hview))

/-! ### Requests and repairs -/

variable [PaddedRequestData]

lemma processClientRequest_gathered (hg : r.Gathered cfg R C) {m : ClientRequestProto}
    {queued : Bool} (h : r.processClientRequest cfg now m queued = .ok r') :
    r'.Gathered cfg R C := by
  have hlog : ∀ log : Log A, { r with log }.Gathered cfg R C :=
    fun log => hg.of_subset rfl (List.Subset.refl _) rfl fun _ _ => id
  rw [processClientRequest] at h
  split_ifs at h
  · cases h
    exact hg
  · rw [sendToClient_eq h]
    exact hg.silent (.send r _ ⟨rfl, rfl⟩) rfl
  · obtain ⟨⟨log, res⟩, -, h⟩ := bind_eq_ok.mp h
    cases res with
    | none =>
        cases h
        exact hlog log
    | some result =>
        obtain ⟨log', -, h⟩ := bind_eq_ok.mp h
        obtain ⟨r₁, hsend, h⟩ := bind_eq_ok.mp h
        rw [sendToClient_eq hsend] at h
        exact checkpointAt_gathered ((hlog log').say _ _) h

omit [Sha256] [Application A] [PaddedRequestData] in
lemma sendRepairSummaryToClients_keepsWord (h : r.sendRepairSummaryToClients cfg = .ok r') :
    KeepsWord r r' := by
  have hsilent := sendRepairSummaryToClients_silent h
  obtain ⟨sent, rfl⟩ := sendRepairSummaryToClients_eq h
  exact ⟨hsilent.replies, hsilent.commits, rfl, rfl, rfl⟩

omit [PaddedRequestData] in
/-- Where no snapshot is committed, the end of a repair makes a checkpoint of the log only. -/
lemma checkpointRepair_keepsWord (hno : ¬r.CommitsSnapshot cfg)
    (h : r.checkpointRepair cfg = .ok r') : KeepsWord r r' := by
  obtain ⟨⟨r₁, suffix⟩, hsuffix, h⟩ := bind_eq_ok.mp h
  obtain ⟨rfl, -⟩ := getRepairLogSuffix_cases hsuffix
  dsimp only at h
  split_ifs at h with hpassed hlater
  · cases pure_eq_ok.mp h
    exact ⟨rfl, rfl, rfl, rfl, rfl⟩
  · exact absurd ⟨suffix, map_eq_ok.mpr ⟨_, hsuffix, rfl⟩, not_le.mp hpassed, hlater⟩ hno
  · obtain ⟨digest, -, h⟩ := bind_eq_ok.mp h
    split at h
    · cases h
    split_ifs at h
    · cases h
      exact ⟨rfl, rfl, rfl, rfl, rfl⟩
    · obtain ⟨log, -, h⟩ := bind_eq_ok.mp h
      cases pure_eq_ok.mp h
      exact ⟨rfl, rfl, rfl, rfl, rfl⟩

lemma finishRepair_gathered (hg : r.Gathered cfg R C) (hno : ¬r.nextRound.CommitsSnapshot cfg)
    {aborted : List ClientRequestProto} (h : r.finishRepair cfg now aborted = .ok r') :
    r'.Gathered cfg R C := by
  rw [finishRepair] at h
  dsimp only at h
  obtain ⟨r₁, hsummary, h⟩ := bind_eq_ok.mp h
  obtain ⟨r₂, hcheckpoint, h⟩ := bind_eq_ok.mp h
  obtain ⟨r₃, hqueued, h⟩ := bind_eq_ok.mp h
  obtain ⟨r₄, hfold, hqueued⟩ := bind_eq_ok.mp hqueued
  cases pure_eq_ok.mp hqueued
  have hsummary' : r.nextRound.sendRepairSummaryToClients cfg = .ok r₁ := hsummary
  have hno₁ : ¬r₁.CommitsSnapshot cfg := by
    obtain ⟨sent, hsent⟩ := sendRepairSummaryToClients_eq hsummary'
    rw [hsent]
    rintro ⟨suffix, hsuffix, hcommits⟩
    rw [getRepairLogSuffix_setSent] at hsuffix
    exact hno ⟨suffix, hsuffix, hcommits⟩
  have hnext : KeepsWord r r.nextRound := ⟨rfl, rfl, rfl, rfl, rfl⟩
  have hg₂ := hg.keepsWord (((hnext.trans (sendRepairSummaryToClients_keepsWord hsummary')).trans
    (checkpointRepair_keepsWord hno₁ hcheckpoint)))
  have hend : (r₂.endRepair aborted).Gathered cfg R C :=
    hg₂.of_subset rfl (List.Subset.refl _) rfl fun _ _ => id
  have hg₄ := foldlM_rel (P := fun a b : Replica A => a.Gathered cfg R C → b.Gathered cfg R C)
    (fun _ => id) (fun _ _ _ hab hbc => hbc ∘ hab)
    (fun _ _ _ _ hreq ha => processClientRequest_gathered ha hreq) hfold hend
  split_ifs at h
  · have hclear : { r₄ with
        repairQueuedReqs := ∅, checkpointTimeoutStart := now, pendingRepair := false
        }.Gathered cfg R C := hg₄.of_subset rfl (List.Subset.refl _) rfl fun _ _ => id
    exact startRepair_gathered hclear h
  · cases pure_eq_ok.mp h
    exact hg₄.of_subset rfl (List.Subset.refl _) rfl fun _ _ => id

lemma tryFinishRepair_gathered (hg : r.Gathered cfg R C)
    (hno : ∀ r₂ aborted, r.tryApply cfg = .ok (r₂, some aborted) →
      ¬r₂.nextRound.CommitsSnapshot cfg)
    (h : r.tryFinishRepair cfg now = .ok r') : r'.Gathered cfg R C := by
  obtain ⟨⟨r₁, res⟩, happly, h⟩ := bind_eq_ok.mp h
  have hg₁ := hg.keepsWord (tryApply_keepsWord happly)
  cases res with
  | none =>
      cases pure_eq_ok.mp h
      exact hg₁
  | some aborted => exact finishRepair_gathered hg₁ (hno r₁ aborted happly) h

lemma applySnapshot_gathered (hg : r.Gathered cfg R C) {reply : SnapshotReply}
    {res : Option (List ClientRequestProto)} (h : r.applySnapshot cfg reply = .ok (r', res)) :
    r'.Gathered cfg R C := by
  rcases applySnapshot_cases h with ⟨-, rfl⟩ | ⟨-, -, suffix, -, ⟨-, -, rfl⟩ |
      ⟨-, aborted, available, log, r₁, -, -, hclean, happly⟩⟩
  · exact hg
  · exact hg.of_subset rfl (List.Subset.refl _) rfl fun _ _ => id
  · have hset : { r with repairProposalLogSuffix := some suffix, log }.Gathered cfg R C :=
      hg.of_subset rfl (List.Subset.refl _) rfl fun _ _ => id
    exact (cleanStaleCollectors_gathered hset hclean).keepsWord (applyProposal_keepsWord happly)

/-! ### Every event -/

/-- One voice, and no repair ends with the commit of a snapshot, which has no replies behind it. -/
structure Certifies (cfg : Config) (r : Replica A) (e : ReplicaEvent) : Prop extends
    OneVoice cfg r e where
  noSnapshot : ∀ r₂ aborted, r.CallsFinish cfg e r₂ aborted → ¬r₂.nextRound.CommitsSnapshot cfg

variable {e : ReplicaEvent}

lemma processSnapshotReply_gathered (hg : r.Gathered cfg R C) {reply : SnapshotReply} {sig : Bytes}
    (hv : r.Certifies cfg (.message now (.snapshotReply reply) sig))
    (h : r.processSnapshotReply cfg now reply = .ok r') : r'.Gathered cfg R C := by
  rcases processSnapshotReply_cases h with rfl | ⟨hold, hdone, ⟨hrepair, happly |
      ⟨r₂, r₃, aborted, happly, hfinish, rfl⟩⟩ | ⟨hrepair, hskip, -⟩⟩
  · exact hg.of_subset rfl (List.Subset.refl _) rfl fun _ _ => id
  · exact applySnapshot_gathered hg happly
  · have hg₃ := finishRepair_gathered (applySnapshot_gathered hg happly)
      (hv.noSnapshot _ _ (.snapshot hold hdone hrepair happly)) hfinish
    exact hg₃.of_subset rfl (List.Subset.refl _) rfl fun _ _ => id
  · exact absurd ⟨hold, hdone, .inr ⟨hrepair, hskip⟩⟩ (hv.keepsLog hrepair _ _ _ rfl)

omit [Application A] [Sha256] [PaddedRequestData] in
lemma processCert_collectors {cert : Cert} (h : r.processCert cfg cert = .ok r') :
    r'.checkpointCollectors = r.checkpointCollectors := by
  rw [processCert] at h
  split at h
  · cases h
  split_ifs at h
  · cases h
    rfl
  · cases h
    rfl
  · obtain ⟨⟨log, ok⟩, -, h⟩ := bind_eq_ok.mp h
    cases ok with
    | false =>
        cases h
        rfl
    | true =>
        rw [sendToClient_eq h]
        rfl

/-- What is known of the replies and commits that an event brings. -/
structure Brings (R : Reply → Prop) (C : Commit → Prop) (r : Replica A) (e : ReplicaEvent) :
    Prop where
  reply : ∀ now m sig, e = .message now (.reply m) sig →
    R m ∧ (m.replicaId = r.replicaId → m.round ≤ r.round)
  commit : ∀ now m sig, e = .message now (.commit m) sig → C m

/-- **Every event keeps** what a replica has gathered. -/
theorem handle_gathered (hg : r.Gathered cfg R C) (hv : r.Certifies cfg e) (hl : r.log.WellFormed)
    (hb : r.Brings R C e) (h : r.handle cfg e = .ok r') : r'.Gathered cfg R C := by
  replace h := handle_voice h
  cases h with
  | silent h hledger => exact hg.silent h (congrArg Ledger.checkpointCollectors hledger)
  | request _ h => exact processClientRequest_gathered hg h
  | @snapshot _ _ queue h =>
      have hqueue : { r with snapshotQueue := queue }.Gathered cfg R C :=
        hg.of_subset rfl (List.Subset.refl _) rfl fun _ _ => id
      exact processSnapshot_gathered hqueue h
  | timeouts h => exact checkTimeouts_gathered hg h
  | cert h => exact hg.silent (processCert_silent h) (processCert_collectors h)
  | reply h =>
      obtain ⟨hm, hown⟩ := hb.reply _ _ _ rfl
      exact processReply_gathered hg hm hown h
  | commit h => exact (processCommit_gathered hg hl (hb.commit _ _ _ rfl) h).1
  | snapshotReply h => exact processSnapshotReply_gathered hg hv h
  | repairTimeout h => exact processRepairTimeout_gathered hg h
  | finish hcall h =>
      have hcolls := congrArg Ledger.checkpointCollectors hcall.same.2.2.1
      exact tryFinishRepair_gathered (hg.silent hcall.silent hcolls)
        (fun r₂ aborted happly => hv.noSnapshot _ _ (.tried hcall happly)) h

end

end

/-! ### Checkpoints over whole runs -/

section

variable {A : Type}

/-- Replies in the name of a correct replica have been sent by it. -/
def HeardReply (F : Finset ℕ) (s : ℕ → Replica A) (m : Reply) : Prop :=
  m.replicaId ∉ F → m ∈ (s m.replicaId).replies

/-- Commits in the name of a correct replica have been sent by it. -/
def HeardCommit (F : Finset ℕ) (s : ℕ → Replica A) (m : Commit) : Prop :=
  m.replicaId ∉ F → m ∈ (s m.replicaId).commits

/-- The commits that a replica has signed are those that it has sent. -/
lemma signed_commit_iff {r : Replica A} {m : Commit} :
    r.Signed (Msg.commit m).body ↔ m ∈ r.commits := by
  constructor
  · rintro ⟨⟨dst, msg⟩, hx, hbody⟩
    refine List.mem_filterMap.mpr ⟨(dst, msg), hx, ?_⟩
    cases msg with
    | commit m' =>
        cases hbody
        rfl
    | _ => cases hbody
  · intro hm
    obtain ⟨⟨dst, msg⟩, hx, hmsg⟩ := List.mem_filterMap.mp hm
    refine ⟨(dst, msg), hx, ?_⟩
    cases msg with
    | commit m' =>
        cases hmsg
        rfl
    | _ => cases hmsg

/-- **A commit is backed** once its replica speaks with one voice: the matching replies behind it
contain an own one, which has the digest of the commit. -/
lemma Backed.of_founded [Sha256] {cfg : Config} {F : Finset ℕ} {s : ℕ → Replica A} {i : ℕ}
    (hi : i ∉ F) (hid : (s i).replicaId = i) (hs : (s i).Spoken) {m : Commit}
    (h : m.Founded cfg (HeardReply F s) (s i).replicaId (s i).replies) :
    Backed cfg F s m.round m.seq m.logDigest := by
  obtain ⟨⟨digest, S, hS, hown, hall⟩, m', hm', hkey'⟩ := h
  rw [hid] at hown
  obtain ⟨m₀, hm₀, hid₀, hkey₀⟩ := hall i hown
  have hsent : m₀ ∈ (s i).replies := by
    have hsent := hm₀ (hid₀.symm ▸ hi)
    rwa [hid₀] at hsent
  obtain ⟨hd₀, hround₀, hseq₀⟩ := ReplyKeyTuple.mk.inj hkey₀
  obtain ⟨hd', hround', hseq'⟩ := ReplyKeyTuple.mk.inj hkey'
  have hsame : m'.digest = m₀.digest :=
    (hs.chained m₀ hsent m' hm' (hround₀.trans hround'.symm) (hseq₀.trans hseq'.symm).le).digest_eq
      (hseq'.trans hseq₀.symm).le
  have heq : digest = m.logDigest := hd₀.symm.trans (hsame.symm.trans hd')
  refine ⟨S, (min_le_left _ _).trans hS, fun j hj hF => ?_⟩
  obtain ⟨m₁, hm₁, rfl, hkey₁⟩ := hall j hj
  obtain ⟨hd₁, hround₁, hseq₁⟩ := ReplyKeyTuple.mk.inj hkey₁
  exact ⟨m₁, hm₁ hF, hround₁, hseq₁, hd₁.trans heq⟩

variable [Application A] [Sha256] [PaddedRequestData] [SignatureProvider] {cfg : Config}
  {app : ℕ → A} {F : Finset ℕ} {es : List (ℕ × ReplicaEvent)} {s s' : ℕ → Replica A}

/-- The invariant of the network: beside `Agreeing`, the replicas have their names, and what they
have gathered has been sent. -/
structure Gathering (cfg : Config) (F : Finset ℕ) (es : List (ℕ × ReplicaEvent))
    (s : ℕ → Replica A) : Prop extends Agreeing cfg F es s where
  names : ∀ i, (s i).replicaId = i
  gathered : ∀ i, (s i).Gathered cfg (HeardReply F s) (HeardCommit F s)

omit [PaddedRequestData] [Application A] [SignatureProvider] in
lemma Gathering.backed_of_commit (hs : Gathering cfg F es s) {i : ℕ} (hi : i ∉ F) {m : Commit}
    (hm : m ∈ (s i).commits) : Backed cfg F s m.round m.seq m.logDigest :=
  .of_founded hi (hs.names i) (hs.spoken i) ((hs.gathered i).commits m hm)

omit [PaddedRequestData] [Application A] [SignatureProvider] in
/-- Of more than `f` commits one is that of a correct replica. -/
lemma Gathering.backed_of_committing (hs : Gathering cfg F es s) (hF : F.card ≤ cfg.f)
    {round seq : ℕ} {digest : Bytes} (h : Committing cfg (HeardCommit F s) round seq digest) :
    Backed cfg F s round seq digest := by
  obtain ⟨S, hS, hall⟩ := h
  obtain ⟨i, hi, hiF⟩ := Quorum.exists_correct (hF.trans_lt hS)
  obtain ⟨m, hm, rfl, rfl, rfl, rfl⟩ := hall i hi
  exact hs.backed_of_commit hiF (hm hiF)

lemma sent_grows {x : ℕ × ReplicaEvent} (h : ((network cfg app).system F).step s x s') (j : ℕ) :
    (s j).sent <+: (s' j).sent := by
  obtain ⟨-, -, t, ⟨-, -, -, hhandle⟩, rfl⟩ := h
  by_cases hj : j = x.1
  · subst hj
    rw [Function.update_self]
    exact (handle_views hhandle).sent
  · rw [Function.update_of_ne hj]

/-- What an event brings has been sent by the replica in whose name it is. -/
lemma brings_of_unforged (hs : Agreeing cfg F es s) {i : ℕ} (hi : i ∉ F)
    (hid : (s i).replicaId = i) {e : ReplicaEvent} (hver : e.Verified cfg)
    (hforged : (network cfg app).Unforged F s e) :
    (s i).Brings (HeardReply F s) (HeardCommit F s) e where
  reply := by
    rintro now m sig rfl
    have hheard : HeardReply F s m := by
      intro hF
      have hsig : SignatureProvider.verify m.replicaId (Msg.reply m).body sig = true :=
        Except.ok.inj hver
      exact signed_reply_iff.mp (hforged m.replicaId hF _ ⟨_, List.mem_cons_self, rfl, hsig⟩)
    refine ⟨hheard, fun hown => ?_⟩
    rw [hid] at hown
    have hsent := hheard (hown.symm ▸ hi)
    rw [hown] at hsent
    exact (hs.spoken i).past m hsent
  commit := by
    rintro now m sig rfl hF
    have hsig : SignatureProvider.verify m.replicaId (Msg.commit m).body sig = true :=
      Except.ok.inj hver
    exact signed_commit_iff.mp (hforged m.replicaId hF _ ⟨_, List.mem_cons_self, rfl, hsig⟩)

lemma Gathering.step (hs : Gathering cfg F es s) {i : ℕ} {e : ReplicaEvent}
    (hv : (s i).Certifies cfg e) (h : ((network cfg app).system F).step s (i, e) s') :
    Gathering cfg F (es ++ [(i, e)]) s' := by
  have hagree := hs.toAgreeing.step hv.toOneVoice h
  have hgrow := sent_grows h
  have hheard : ∀ m, HeardReply F s m → HeardReply F s' m :=
    fun m hm hF => ((hgrow m.replicaId).filterMap _).subset (hm hF)
  have hcommits : ∀ m, HeardCommit F s m → HeardCommit F s' m :=
    fun m hm hF => ((hgrow m.replicaId).filterMap _).subset (hm hF)
  obtain ⟨hi, hforged, t, ⟨-, hver, -, hhandle⟩, rfl⟩ := h
  dsimp only at hi hforged hver hhandle
  have hid : t.replicaId = i :=
    (Core.Steps.replicaId_eq (handle_core hhandle)).trans (hs.names i)
  have ht := handle_gathered (hs.gathered i) hv (hs.wellFormed i)
    (brings_of_unforged hs.toAgreeing hi (hs.names i) hver hforged) hhandle
  refine ⟨hagree, fun j => ?_, fun j => ?_⟩
  · by_cases hj : j = i
    · rw [hj, Function.update_self]
      exact hid
    · rw [Function.update_of_ne hj]
      exact hs.names j
  · by_cases hj : j = i
    · subst hj
      have hsame : Function.update s j t j = t := Function.update_self j t s
      rw [hsame]
      exact ht.mono hheard hcommits
    · have hsame : Function.update s i t j = s j := Function.update_of_ne hj t s
      rw [hsame]
      exact (hs.gathered j).mono hheard hcommits

/-- The condition on the steps of the network. -/
def Certifying (cfg : Config) (_ : List (ℕ × ReplicaEvent)) (s : ℕ → Replica A)
    (x : ℕ × ReplicaEvent) : Prop :=
  (s x.1).Certifies cfg x.2

lemma run_gathering (h : Run ((network cfg app).system F) (Certifying cfg) es s) :
    Gathering cfg F es s := by
  refine h.invariant (P := fun es s => Gathering cfg F es s) (fun s hs => ?_)
    fun es s x s' _ ih hv hstep => ih.step hv hstep
  have hfresh : ∀ i, s i = Replica.fresh i (app i) := hs
  refine ⟨run_agreeing (.start hs), fun i => ?_, fun i => ?_⟩
  · rw [hfresh i]
    rfl
  · rw [hfresh i]
    exact .fresh i (app i)

/-- In this step a commit of the round makes a replica adopt a checkpoint. -/
def Adopts (s s' : ℕ → Replica A) (x : ℕ × ReplicaEvent) (round : ℕ) (cp : LogCheckpoint) : Prop :=
  (∃ now m sig, x.2 = .message now (.commit m) sig ∧ m.round = round) ∧
    (s' x.1).log.committedCheckpoint = cp ∧ (s x.1).log.committedCheckpoint ≠ cp

/-- What has been settled in a run that stands at `(es, s)`: what has been decided, the commits
that correct replicas have signed, and the checkpoints that commits made a replica adopt. -/
inductive Settled (cfg : Config) (app : ℕ → A) (F : Finset ℕ) (es : List (ℕ × ReplicaEvent))
    (s : ℕ → Replica A) : ℕ → ℕ → Bytes → Prop
  | decided {round seq : ℕ} {digest : Bytes} :
      Decides cfg F es s round seq digest → Settled cfg app F es s round seq digest
  | signed {i : ℕ} {m : Commit} : i ∉ F → m ∈ (s i).commits →
      Settled cfg app F es s m.round m.seq m.logDigest
  | adopted {es₁ : List (ℕ × ReplicaEvent)} {s₁ s₂ : ℕ → Replica A} {x : ℕ × ReplicaEvent}
      {round : ℕ} {cp : LogCheckpoint} :
      Run ((network cfg app).system F) (Certifying cfg) es₁ s₁ → Certifying cfg es₁ s₁ x →
      ((network cfg app).system F).step s₁ x s₂ → Adopts s₁ s₂ x round cp →
      Later ((network cfg app).system F) (Certifying cfg) (es₁ ++ [x]) s₂ es s →
      Settled cfg app F es s round cp.seq cp.logDigest

/-- **A checkpoint that a replica adopts is backed.** -/
lemma backed_of_adopts (hF : F.card ≤ cfg.f) {x : ℕ × ReplicaEvent} {round : ℕ}
    {cp : LogCheckpoint} (hs : Gathering cfg F es s)
    (h : ((network cfg app).system F).step s x s') (hadopts : Adopts s s' x round cp) :
    Backed cfg F s round cp.seq cp.logDigest := by
  obtain ⟨i, e⟩ := x
  obtain ⟨⟨now, m, sig, rfl, rfl⟩, hcp, hne⟩ := hadopts
  obtain ⟨hi, hforged, t, ⟨-, hver, -, hhandle⟩, rfl⟩ := h
  dsimp only at hi hforged hver hhandle hcp hne
  rw [Function.update_self] at hcp
  have hbrings := brings_of_unforged hs.toAgreeing hi (hs.names i) hver hforged
  rcases (processCommit_gathered (hs.gathered i) (hs.wellFormed i) (hbrings.commit _ _ _ rfl)
    hhandle).2 with hsame | ⟨hseq, hcommitting⟩
  · exact absurd (hsame.symm.trans hcp) hne
  · rw [hcp] at hseq hcommitting
    rw [hseq]
    exact hs.backed_of_committing hF hcommitting

lemma Settled.backed (hF : F.card ≤ cfg.f)
    (hrun : Run ((network cfg app).system F) (Certifying cfg) es s) {round seq : ℕ}
    {digest : Bytes} (h : Settled cfg app F es s round seq digest) :
    Backed cfg F s round seq digest := by
  cases h with
  | decided h => exact h.backed (run_gathering hrun).toAgreeing
  | signed hi hm => exact (run_gathering hrun).backed_of_commit hi hm
  | adopted hrun₁ _ hstep hadopts hlater =>
      have hbacked := (backed_of_adopts hF (run_gathering hrun₁) hstep hadopts).mono
        fun i => replies_subset (sent_grows hstep i)
      refine hlater.invariant (P := fun s => Backed cfg F s _ _ _) hbacked ?_
      intro s x s' hb hs
      exact hb.mono fun i => replies_subset (sent_grows hs i)

/-- **Checkpoints of one round agree.**  What has been settled in a round is about one history: the
checkpoints that commits made replicas adopt, the commits that correct replicas have signed, the
certificates that have been accepted, and what clients take for committed on the fast path. -/
theorem checkpoints_agree (hc : CollisionFree) (hwf : cfg.WellFormed)
    (hids : F ⊆ Finset.range cfg.numReplicas) (hF : F.card ≤ cfg.f) :
    ∀ es s, Run ((network cfg app).system F) (Certifying cfg) es s →
      ∀ round p D q D', Settled cfg app F es s round p D → Settled cfg app F es s round q D' →
        p ≤ q → Continues entryDigest p D q D' ∧ (p = q → D = D') ∧
        ∀ h h' : List Request, h.length = p → h'.length = q → logDigest h = D →
          logDigest h' = D' → h <+: h' := by
  intro es s hrun round p D q D' hp hq hle
  have hs := run_gathering hrun
  have hcont := (hp.backed hF hrun).continues hwf hids hF hs.ids hs.spoken (hq.backed hF hrun) hle
  refine ⟨hcont, fun heq => (hcont.digest_eq heq.ge).symm, ?_⟩
  rintro h h' rfl rfl rfl rfl
  exact hcont.isPrefix (fun _ _ => logDigest_inj_of_length hc)

end

/-! ### A run with a checkpoint -/

section

attribute [local instance] prefixSha shortPaddedRequestData counterWire fourKeys

/-- The reply for the checkpoint at the first request. -/
def checkpointReply (i : ℕ) : ReplicaEvent :=
  .message 2 (.reply { countedReply 1 i with result := [] }) [UInt8.ofNat i]

/-- The commit for the checkpoint at the first request. -/
def checkpointCommit (i : ℕ) : Commit where
  replicaId := i
  round := 1
  seq := 1
  logDigest := countedDigest 1
  clientRecord := (ClientRecord.addAll {} [(0, 1)]).toProto

/-- Two requests at three replicas; all four replies for the first checkpoint at two of them; and
the commit of one of these at the third replica. -/
def committingEvents : List (ℕ × ReplicaEvent) :=
  ([0, 1, 2].flatMap fun i => [(i, .request 1 5 { clientId := 0, clientSeq := 1 }),
    (i, .request 1 6 { clientId := 0, clientSeq := 2 })]) ++
    ([0, 1].flatMap fun i => [0, 1, 2, 3].map fun j => (i, checkpointReply j)) ++
    [(2, .message 3 (.commit (checkpointCommit 0)) [0])]

/-- The commit with which the third replica adopts the checkpoint. -/
def lastCommit : ℕ × ReplicaEvent := (2, .message 3 (.commit (checkpointCommit 1)) [1])

/-- No decision on a repair arrives. -/
def NoRepairCommit : ReplicaEvent → Prop
  | .message _ (.pbftCommit _) _ => False
  | _ => True

instance : DecidablePred NoRepairCommit := fun e => by
  rcases e with _ | ⟨_, _ | _, _⟩ | _ <;> unfold NoRepairCommit <;> infer_instance

/-- The correct ones of the four replicas speak in order, outside repairs. -/
def AllCertify (s : ℕ → Replica Counter) (e : ReplicaEvent) : Prop :=
  NoRepairCommit e ∧ ∀ i ∈ [0, 1, 2], (s i).SpeaksInOrder everySecond e

instance (s : ℕ → Replica Counter) (e : ReplicaEvent) : Decidable (AllCertify s e) :=
  inferInstanceAs (Decidable (_ ∧ ∀ i ∈ [0, 1, 2], (s i).SpeaksInOrder everySecond e))

lemma SpeaksInOrder.certifies {r : Replica Counter} {cfg : Config} {e : ReplicaEvent}
    (h : r.SpeaksInOrder cfg e) (he : NoRepairCommit e) (hrange : r.core.InRange) :
    r.Certifies cfg e := by
  refine ⟨h.oneVoice hrange, fun r₂ aborted hfinish => ?_⟩
  obtain ⟨horder, hnone, happlies, -⟩ := h
  exfalso
  cases hfinish with
  | tried hcall _ =>
      cases hcall with
      | committed => exact he
      | fetched => exact happlies
      | queued _ hsent =>
          rw [hnone] at hsent
          cases hsent
  | snapshot => exact absurd horder.2.2.2 Bool.false_ne_true

lemma run_allCertify {es : List (ℕ × ReplicaEvent)} {s : ℕ → Replica Counter}
    (h : Run ((network everySecond fun _ => {}).system {3}) (fun _ s x => AllCertify s x.2) es s) :
    Run ((network everySecond fun _ => {}).system {3}) (Certifying everySecond) es s := by
  induction h with
  | start hinit => exact .start hinit
  | @step es s s' x _ horder hstep ih =>
      obtain ⟨hF, -, t, ⟨hlt, -⟩, -⟩ := id hstep
      have hmem : x.1 ∈ [0, 1, 2] := by
        have hlt' : x.1 < 4 := hlt
        rw [Finset.mem_singleton] at hF
        simp only [List.mem_cons, List.not_mem_nil, or_false]
        omega
      exact ih.step ((horder.2 x.1 hmem).certifies horder.1 ((run_gathering ih).inRange x.1)) hstep

/-- The third replica adopts the checkpoint, and a client has committed the second request. -/
theorem checkpoints_agree_counted : ∃ (s : ℕ → Replica Counter) (cp : LogCheckpoint),
    Run ((network everySecond fun _ => {}).system {3}) (Certifying everySecond)
      (committingEvents ++ [lastCommit]) s ∧
    (s 2).log.committedCheckpoint = cp ∧ cp.seq = 1 ∧
    Settled everySecond (fun _ => ({} : Counter)) {3} (committingEvents ++ [lastCommit]) s 1 1
      cp.logDigest ∧
    Settled everySecond (fun _ => ({} : Counter)) {3} (committingEvents ++ [lastCommit]) s 1 2
      (countedDigest 2) ∧
    Continues entryDigest 1 cp.logDigest 2 (countedDigest 2) := by
  have hbefore : ∃ s, committingEvents.foldlM (deliver everySecond {3} AllCertify)
        (fun i => fresh i ({} : Counter)) = .ok s ∧
      (s 2).log.committedCheckpoint.seq = 0 := by
    decide +kernel
  have hafter : ∃ s, (committingEvents ++ [lastCommit]).foldlM (deliver everySecond {3} AllCertify)
        (fun i => fresh i ({} : Counter)) = .ok s ∧
      (s 2).log.committedCheckpoint.seq = 1 ∧
      ∀ i ∈ [0, 1, 2], countedReply 2 i ∈ (s i).replies := by
    decide +kernel
  obtain ⟨s₁, hfold₁, hzero⟩ := hbefore
  obtain ⟨s₂, hfold₂, hone, hsent⟩ := hafter
  rw [List.foldlM_append, hfold₁] at hfold₂
  have hrun₁ : Run ((network everySecond fun _ => ({} : Counter)).system {3})
      (fun _ s x => AllCertify s x.2) ([] ++ committingEvents) s₁ :=
    run_of_deliver (.start fun _ => rfl) hfold₁
  have hrun₂ := run_of_deliver hrun₁ hfold₂
  replace hrun₁ := run_allCertify hrun₁
  replace hrun₂ := run_allCertify hrun₂
  -- the last step
  obtain ⟨s', hdeliver, hend⟩ := bind_eq_ok.mp (List.foldlM_cons.symm.trans hfold₂)
  cases pure_eq_ok.mp hend
  rw [deliver] at hdeliver
  split_ifs at hdeliver with hok
  obtain ⟨t, hhandle, rfl⟩ := map_eq_ok.mp hdeliver
  have hlast : Certifying everySecond committingEvents s₁ lastCommit :=
    (hok.2.2 2 (by decide)).certifies hok.2.1 ((run_gathering hrun₁).inRange 2)
  have hstep : ((network everySecond fun _ => ({} : Counter)).system {3}).step s₁ lastCommit
      (fun j => if j = lastCommit.1 then t else s₁ j) := hok.1.step hhandle
  generalize (fun j => if j = lastCommit.1 then t else s₁ j) = s₂ at *
  have hne : (s₁ 2).log.committedCheckpoint ≠ (s₂ 2).log.committedCheckpoint := by
    intro heq
    rw [heq, hone] at hzero
    exact absurd hzero (by decide)
  have hadopts : Adopts s₁ s₂ lastCommit 1 (s₂ 2).log.committedCheckpoint :=
    ⟨⟨3, checkpointCommit 1, [1], rfl, rfl⟩, rfl, hne⟩
  have hsettled : Settled everySecond (fun _ => ({} : Counter)) {3}
      (committingEvents ++ [lastCommit]) s₂ 1 1 (s₂ 2).log.committedCheckpoint.logDigest := by
    have hcp := Settled.adopted hrun₁ hlast hstep hadopts .refl
    rwa [hone] at hcp
  have hfast : Settled everySecond (fun _ => ({} : Counter)) {3}
      (committingEvents ++ [lastCommit]) s₂ 1 2 (countedDigest 2) :=
    .decided (decides_second le_rfl hsent)
  have hwf : everySecond.WellFormed := rfl
  exact ⟨s₂, _, hrun₂, rfl, hone, hsettled, hfast,
    (checkpoints_agree prefixSha_collisionFree hwf (by decide) (by decide) _ _ hrun₂ _ _ _ _ _
      hsettled hfast (by decide)).1⟩

end

end Replica

end DomBft
