import DomBft.Config
import DomBft.Lib.OrderedMap
import DomBft.Verify

/-!
`cert_collector.h`, `cert_collector.cc`: the replies a client has received for one request.

`insertReply` is the whole of the class: it records a reply, moves to a higher round when
`f + 1` replicas have replied in it, and looks for a certificate.  The largest number of
matching replies is never reset.  `insertReply_maxMatchSize` says what a number that it has
newly reached means: so many replicas have sent replies with one key.
-/

namespace DomBft

open Std (ExtTreeMap)

/-- `class CertCollector` -/
structure CertCollector where
  maxMatchSize : ℕ := 0
  round : ℕ := 0
  replies : ExtTreeMap ℕ Reply compare := ∅
  signatures : ExtTreeMap ℕ Bytes compare := ∅
  cert : Option Cert := none

@[simp] lemma Reply.key_round (r : Reply) : r.key.round = r.round := rfl

namespace CertCollector

/-- The loop that counts the replies of each round: the round, and the certificate, which is
dropped with every higher round. -/
def advanceRound (f : ℕ) :
    List (ℕ × Reply) → List ℕ → ℕ × Option Cert → ℕ × Option Cert
  | [], _, s => s
  | (_, r) :: rs, seen, (round, cert) =>
    let seen := r.round :: seen
    advanceRound f rs seen
      (if f + 1 ≤ seen.count r.round ∧ round < r.round then (r.round, none) else (round, cert))

/-- The certificate made of matching replies. -/
def makeCert (signatures : ExtTreeMap ℕ Bytes compare) (key : ReplyKey)
    (matching : List (ℕ × Reply)) : Cert where
  seq := key.seq
  round := key.round
  replies := matching.map (·.2)
  signatures := matching.map fun (id, _) => (signatures[id]?).getD []

/-- The loop that looks for matching replies in a round, with the replies looked at so far:
the largest number of matching replies, and the certificate. -/
def matchReplies (quorumSize round : ℕ) (signatures : ExtTreeMap ℕ Bytes compare) :
    List (ℕ × Reply) → List (ℕ × Reply) → ℕ × Option Cert → ℕ × Option Cert
  | [], _, s => s
  | (id, r) :: rs, seen, (maxMatchSize, cert) =>
    if r.round ≠ round then matchReplies quorumSize round signatures rs seen (maxMatchSize, cert)
    else
      let seen := seen ++ [(id, r)]
      let matching := seen.filter (·.2.key = r.key)
      matchReplies quorumSize round signatures rs seen
        (max maxMatchSize matching.length,
          if quorumSize ≤ matching.length ∧ cert.all (·.round < r.round) then
            some (makeCert signatures r.key matching)
          else cert)

/-- `CertCollector::insertReply`; the result is the new `maxMatchSize_`. -/
def insertReply (cfg : Config) (c : CertCollector) (reply : Reply) (sig : Bytes) :
    CertCollector :=
  let replies := c.replies.insert reply.replicaId reply
  let signatures := c.signatures.insert reply.replicaId sig
  let (round, cert) := advanceRound cfg.f replies.toList [] (c.round, c.cert)
  let (maxMatchSize, cert) :=
    matchReplies cfg.quorumSize round signatures replies.toList [] (c.maxMatchSize, cert)
  { maxMatchSize, round, replies, signatures, cert }

/-- `CertCollector::numReceived` -/
def numReceived (c : CertCollector) : ℕ := c.replies.toList.countP (·.2.round = c.round)

/-! ### What is counted -/

/-- The replicas whose replies have a key. -/
def matching (c : CertCollector) (key : ReplyKey) : Finset ℕ :=
  ((c.replies.toList.filter (·.2.key = key)).map (·.1)).toFinset

lemma mem_matching {c : CertCollector} {key : ReplyKey} {i : ℕ} :
    i ∈ c.matching key ↔ ∃ r, c.replies[i]? = some r ∧ r.key = key := by
  rw [matching]
  exact OrderedMap.mem_keysWhere (p := fun r : Reply => r.key = key)

lemma card_matching (c : CertCollector) (key : ReplyKey) :
    (c.matching key).card = (c.replies.toList.filter (·.2.key = key)).length := by
  rw [matching]
  exact OrderedMap.card_keysWhere c.replies fun r : Reply => r.key = key

/-- The size of the largest set of replicas whose replies of the round match. -/
def largestMatch (c : CertCollector) : ℕ :=
  (c.replies.toList.filter (·.2.round = c.round)).foldr (fun x n => max (c.matching x.2.key).card n)
    0

/-- It is the least upper bound of the sets of replicas with a key of the round. -/
lemma largestMatch_le_iff {c : CertCollector} {n : ℕ} :
    c.largestMatch ≤ n ↔ ∀ key : ReplyKey, key.round = c.round → (c.matching key).card ≤ n := by
  have hfold : ∀ xs : List (ℕ × Reply),
      xs.foldr (fun x n => max (c.matching x.2.key).card n) 0 ≤ n ↔
        ∀ x ∈ xs, (c.matching x.2.key).card ≤ n := by
    intro xs
    induction xs with
    | nil => simp
    | cons x xs ih => simp [ih]
  rw [largestMatch, hfold]
  constructor
  · intro h key hkey
    rcases (c.matching key).eq_empty_or_nonempty with hempty | ⟨i, hi⟩
    · simp [hempty]
    · obtain ⟨r, hr, rfl⟩ := mem_matching.mp hi
      refine h (i, r) (List.mem_filter.mpr ⟨ExtTreeMap.mem_toList_iff_getElem?_eq_some.mpr hr, ?_⟩)
      simpa using hkey
  · intro h x hx
    exact h x.2.key (by simpa using (List.mem_filter.mp hx).2)

lemma card_matching_le {c : CertCollector} {key : ReplyKey} (h : key.round = c.round) :
    (c.matching key).card ≤ c.largestMatch :=
  largestMatch_le_iff.mp le_rfl key h

/-- Some key of the round has as many replicas. -/
lemma exists_card_matching (c : CertCollector) :
    ∃ key : ReplyKey, key.round = c.round ∧ c.largestMatch = (c.matching key).card := by
  by_contra hno
  have hlt : ∀ key : ReplyKey, key.round = c.round → (c.matching key).card < c.largestMatch :=
    fun key hkey => lt_of_le_of_ne (card_matching_le hkey) fun h => hno ⟨key, hkey, h.symm⟩
  have hpos := hlt ⟨0, c.round, 0, 0, [], []⟩ rfl
  have hle : c.largestMatch ≤ c.largestMatch - 1 :=
    largestMatch_le_iff.mpr fun key hkey => Nat.le_sub_one_of_lt (hlt key hkey)
  omega

/-- The replicas whose replies of the round match are among those that have replied in it. -/
lemma largestMatch_le_numReceived (c : CertCollector) : c.largestMatch ≤ c.numReceived := by
  refine largestMatch_le_iff.mpr fun key hkey => ?_
  rw [card_matching, numReceived, List.countP_eq_length_filter]
  refine (List.monotone_filter_right _ fun x hx => ?_).length_le
  have hx : x.2.key = key := by simpa using hx
  simp [← hkey, ← hx]

/-! ### The loops -/

/-- The loop over the rounds takes the highest one that enough replies are of, if it is
higher. -/
lemma advanceRound_le_iff (f : ℕ) (rs : List (ℕ × Reply)) (seen : List ℕ) (s : ℕ × Option Cert)
    (R : ℕ) : (advanceRound f rs seen s).1 ≤ R ↔ s.1 ≤ R ∧ ∀ R' ∈ rs.map (·.2.round),
      f + 1 ≤ (rs.map (·.2.round) ++ seen).count R' → R' ≤ R := by
  induction rs generalizing seen s with
  | nil => simp [advanceRound]
  | cons x rs ih =>
      obtain ⟨id, r⟩ := x
      obtain ⟨round, cert⟩ := s
      have hcount : ∀ R', (rs.map (·.2.round) ++ r.round :: seen).count R' =
          (r.round :: (rs.map (·.2.round) ++ seen)).count R' :=
        fun R' => List.perm_middle.count_eq R'
      rw [advanceRound, ih, List.map_cons, List.forall_mem_cons, List.cons_append]
      simp only [hcount]
      have hle : (if f + 1 ≤ (r.round :: seen).count r.round ∧ round < r.round then
          (r.round, none) else (round, cert)).1 ≤ R ↔
          round ≤ R ∧ (f + 1 ≤ (r.round :: seen).count r.round → r.round ≤ R) := by
        split
        · rename_i h
          exact ⟨fun hR => ⟨h.2.le.trans hR, fun _ => hR⟩, fun hR => hR.2 h.1⟩
        · rename_i h
          refine ⟨fun hR => ⟨hR, fun hf => ?_⟩, fun hR => hR.1⟩
          exact (not_lt.mp fun hlt => h ⟨hf, hlt⟩).trans hR
      rw [hle, and_assoc]
      refine and_congr_right fun _ => ⟨fun ⟨hr, hrs⟩ => ⟨fun hf => ?_, hrs⟩,
        fun ⟨hr, hrs⟩ => ⟨fun hf => hr (hf.trans ?_), hrs⟩⟩
      · -- the last reply of a round is counted with all the others
        by_cases hmem : r.round ∈ rs.map (·.2.round)
        · exact hrs r.round hmem hf
        · refine hr ?_
          rwa [List.count_cons_self, List.count_append, List.count_eq_zero_of_not_mem hmem,
            Nat.zero_add, ← List.count_cons_self] at hf
      · rw [List.count_cons_self, List.count_cons_self, List.count_append]
        omega

/-- It drops the certificate with every higher round. -/
lemma advanceRound_cases (f : ℕ) (rs : List (ℕ × Reply)) (seen : List ℕ) (s : ℕ × Option Cert) :
    advanceRound f rs seen s = s ∨
      s.1 < (advanceRound f rs seen s).1 ∧ (advanceRound f rs seen s).2 = none := by
  induction rs generalizing seen s with
  | nil => exact .inl rfl
  | cons x rs ih =>
      obtain ⟨id, r⟩ := x
      obtain ⟨round, cert⟩ := s
      rw [advanceRound]
      split
      · rename_i h
        rcases ih (r.round :: seen) (r.round, none) with heq | ⟨hlt, hnone⟩
        · rw [heq]
          exact .inr ⟨h.2, rfl⟩
        · exact .inr ⟨h.2.trans hlt, hnone⟩
      · exact ih (r.round :: seen) (round, cert)

/-- The loop over the replies of a round raises the number to that of the largest set of
matching ones, if it is larger. -/
lemma matchReplies_le_iff (q round : ℕ) (sigs : ExtTreeMap ℕ Bytes compare)
    (rs seen : List (ℕ × Reply)) (s : ℕ × Option Cert) (n : ℕ) :
    (matchReplies q round sigs rs seen s).1 ≤ n ↔ s.1 ≤ n ∧ ∀ x ∈ rs, x.2.round = round →
      ((seen ++ rs).filter (·.2.key = x.2.key)).length ≤ n := by
  induction rs generalizing seen s with
  | nil => simp [matchReplies]
  | cons x rs ih =>
      obtain ⟨id, r⟩ := x
      rw [matchReplies, List.forall_mem_cons]
      split
      · rename_i hround
        rw [ih]
        refine and_congr_right fun _ => ⟨fun h => ⟨fun h' => absurd h' hround, ?_⟩, fun h => ?_⟩
        all_goals
          intro x hx hxround
          have hne : r.key ≠ x.2.key := fun h => hround ((congrArg ReplyKey.round h).trans hxround)
        · rw [List.filter_append, List.filter_cons_of_neg (by simpa using hne),
            ← List.filter_append]
          exact h x hx hxround
        · have hlen := h.2 x hx hxround
          rwa [List.filter_append, List.filter_cons_of_neg (by simpa using hne),
            ← List.filter_append] at hlen
      · rename_i hround
        simp only [ih, max_le_iff, and_assoc, List.append_cons seen (id, r) rs]
        refine and_congr_right fun _ => ⟨fun ⟨hr, hrs⟩ => ⟨fun _ => ?_, hrs⟩,
          fun ⟨hr, hrs⟩ => ⟨le_trans ?_ (hr (not_not.mp hround)), hrs⟩⟩
        · -- the last of the matching replies is looked at with all the others
          by_cases hmem : ∃ x ∈ rs, x.2.key = r.key
          · obtain ⟨x, hx, hkey⟩ := hmem
            have hxround : x.2.round = round :=
              (congrArg ReplyKey.round hkey).trans (not_not.mp hround)
            have hlen := hrs x hx hxround
            rwa [hkey] at hlen
          · have hnil : rs.filter (·.2.key = r.key) = [] :=
              List.filter_eq_nil_iff.mpr fun x hx => by simpa using fun h => hmem ⟨x, hx, h⟩
            rwa [List.filter_append _ rs, hnil, List.append_nil]
        · rw [List.filter_append _ rs, List.length_append]
          exact Nat.le_add_right _ _

/-- It keeps the certificate, or makes one of a quorum of matching replies. -/
lemma matchReplies_cert (q round : ℕ) (sigs : ExtTreeMap ℕ Bytes compare)
    (rs seen : List (ℕ × Reply)) (s : ℕ × Option Cert) :
    (matchReplies q round sigs rs seen s).2 = s.2 ∨
      ∃ (key : ReplyKey) (ms : List (ℕ × Reply)),
        (matchReplies q round sigs rs seen s).2 = some (makeCert sigs key ms) ∧
        key.round = round ∧ q ≤ ms.length ∧ ms.Sublist (seen ++ rs) ∧ ∀ x ∈ ms, x.2.key = key := by
  induction rs generalizing seen s with
  | nil => exact .inl rfl
  | cons x rs ih =>
      obtain ⟨id, r⟩ := x
      rw [matchReplies]
      split
      · rcases ih seen s with h | ⟨key, ms, h, hround, hq, hsub, hkey⟩
        · exact .inl h
        · exact .inr ⟨key, ms, h, hround, hq,
            hsub.trans ((List.sublist_cons_self _ _).append_left seen), hkey⟩
      · rename_i hround
        simp only
        rw [List.append_cons seen (id, r) rs]
        rcases ih (seen ++ [(id, r)]) (max s.1 _, _) with h | hmade
        · rw [h]
          dsimp only
          split
          · rename_i hq
            refine .inr ⟨r.key, _, rfl, not_not.mp hround, hq.1,
              List.filter_sublist.trans (List.sublist_append_left _ rs), fun x hx => ?_⟩
            simpa using (List.mem_filter.mp hx).2
          · exact .inl rfl
        · exact .inr hmade

@[simp] lemma insertReply_replies (cfg : Config) (c : CertCollector) (reply : Reply)
    (sig : Bytes) :
    (c.insertReply cfg reply sig).replies = c.replies.insert reply.replicaId reply := rfl

/-- The number is the largest there has been after any call. -/
lemma insertReply_maxMatchSize_eq (cfg : Config) (c : CertCollector) (reply : Reply)
    (sig : Bytes) : (c.insertReply cfg reply sig).maxMatchSize =
      max c.maxMatchSize (c.insertReply cfg reply sig).largestMatch := by
  refine eq_of_forall_ge_iff fun n => ?_
  rw [max_le_iff, largestMatch_le_iff]
  refine (matchReplies_le_iff _ _ _ _ [] _ n).trans (and_congr_right fun _ => ?_)
  constructor
  · intro h key hkey
    rcases ((c.insertReply cfg reply sig).matching key).eq_empty_or_nonempty with hempty | ⟨i, hi⟩
    · simp [hempty]
    · obtain ⟨r, hr, rfl⟩ := mem_matching.mp hi
      rw [card_matching]
      exact h (i, r) (ExtTreeMap.mem_toList_iff_getElem?_eq_some.mpr hr) hkey
  · intro h x _ hround
    have hcard := h x.2.key hround
    rwa [card_matching] at hcard

/-- **A newly reached number of matching replies** is that of the replicas whose replies
have one key. -/
theorem insertReply_maxMatchSize (cfg : Config) (c : CertCollector) (reply : Reply)
    (sig : Bytes) :
    (c.insertReply cfg reply sig).maxMatchSize = c.maxMatchSize ∨
      ∃ key, (c.insertReply cfg reply sig).maxMatchSize ≤
        ((c.insertReply cfg reply sig).matching key).card := by
  rw [insertReply_maxMatchSize_eq]
  rcases max_choice c.maxMatchSize (c.insertReply cfg reply sig).largestMatch with h | h
  · exact .inl h
  · obtain ⟨key, -, hcard⟩ := (c.insertReply cfg reply sig).exists_card_matching
    exact .inr ⟨key, by rw [h, hcard]⟩

end CertCollector

end DomBft
