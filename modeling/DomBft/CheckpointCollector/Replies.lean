import DomBft.Lib.OrderedMap
import DomBft.CheckpointCollector

/-!
The certificate that a collector makes of replies, and the proof that it cannot make one.

* `group`: the replicas whose stored replies have a key.
* `matchReplies_spec`: what the loop over the replies finds: the size of the largest group, and a
  certificate of a group with the own reply if there is a large one.
* `feed`: a collector after a list of replies.  `Vouched` is what is known of its certificate.
* `reply_collector_sound`, `reply_collector_complete_iff`: **what is set, and when.**
-/

namespace DomBft

open Std (ExtTreeMap)

namespace ReplyCollector

/-! ### Groups of matching replies -/

/-- The replicas whose replies have a key. -/
def group (m : ExtTreeMap ℕ Reply compare) (k : ReplyKeyTuple) : Finset ℕ :=
  ((m.toList.filter (·.2.keyTuple = k)).map (·.1)).toFinset

lemma mem_group {m : ExtTreeMap ℕ Reply compare} {k : ReplyKeyTuple} {i : ℕ} :
    i ∈ group m k ↔ ∃ r, m[i]? = some r ∧ r.keyTuple = k :=
  OrderedMap.mem_keysWhere (p := fun r : Reply => r.keyTuple = k)

/-- Every replica has one reply, so that a group is as large as the list of its replies. -/
lemma card_group (m : ExtTreeMap ℕ Reply compare) (k : ReplyKeyTuple) :
    (group m k).card = (m.toList.filter (·.2.keyTuple = k)).length :=
  OrderedMap.card_keysWhere m fun r : Reply => r.keyTuple = k

/-! ### The loop over the replies -/

/-- What is known of the loop: the replies of a key among the ones looked at are no more than the
maximum, a certificate is made of matching replies with the own one among them, and there is one
if enough of them match the own one. -/
structure Matched (q id : ℕ) (sigs : ExtTreeMap ℕ Bytes compare) (seen : List (ℕ × Reply))
    (maxMatch : ℕ) (cert : Option Cert) : Prop where
  le_max : ∀ k, (seen.filter (·.2.keyTuple = k)).length ≤ maxMatch
  made : ∀ c ∈ cert, ∃ k matching, c = makeCert sigs k matching ∧
    matching.Sublist (seen.filter (·.2.keyTuple = k)) ∧ q ≤ matching.length ∧
    id ∈ matching.map (·.1)
  found : ∀ m, (id, m) ∈ seen → q ≤ (seen.filter (·.2.keyTuple = m.keyTuple)).length →
    cert.isSome

variable {q id : ℕ} {sigs : ExtTreeMap ℕ Bytes compare}

/-- One turn of the loop. -/
lemma Matched.turn {seen : List (ℕ × Reply)} {maxMatch : ℕ} {cert : Option Cert}
    (h : Matched q id sigs seen maxMatch cert) (x : ℕ × Reply) :
    let matching := (seen ++ [x]).filter (·.2.keyTuple = x.2.keyTuple)
    Matched q id sigs (seen ++ [x]) (max maxMatch matching.length)
      (if q ≤ matching.length ∧ id ∈ matching.map (·.1) then
        some (makeCert sigs x.2.keyTuple matching) else cert) := by
  intro matching
  have hother : ∀ k, k ≠ x.2.keyTuple → (seen ++ [x]).filter (·.2.keyTuple = k) =
      seen.filter (·.2.keyTuple = k) := by
    intro k hk
    rw [List.filter_append, List.filter_singleton, decide_eq_false (Ne.symm hk)]
    exact List.append_nil _
  refine ⟨fun k => ?_, fun c hc => ?_, fun m hm hquorum => ?_⟩
  · by_cases hk : k = x.2.keyTuple
    · subst hk
      exact le_max_right _ _
    · rw [hother k hk]
      exact (h.le_max k).trans (le_max_left _ _)
  · split_ifs at hc with hmade
    · cases hc
      exact ⟨_, matching, rfl, List.Sublist.refl _, hmade.1, hmade.2⟩
    · obtain ⟨k, l, rfl, hl, hq, hid⟩ := h.made c hc
      exact ⟨k, l, rfl, hl.trans ((List.sublist_append_left _ _).filter _), hq, hid⟩
  · split_ifs with hmade
    · rfl
    · -- the own reply does not match this one, so that its group is the old one
      have hne : m.keyTuple ≠ x.2.keyTuple := by
        intro hkey
        rw [hkey] at hquorum
        refine hmade ⟨hquorum, List.mem_map.mpr ⟨(id, m), List.mem_filter.mpr ⟨hm, ?_⟩, rfl⟩⟩
        exact decide_eq_true hkey
      rw [hother _ hne] at hquorum
      refine h.found m ((List.mem_append.mp hm).resolve_right fun hx => hne ?_) hquorum
      rw [← List.mem_singleton.mp hx]

/-- **What the loop finds.** -/
lemma matchReplies_spec (rs : List (ℕ × Reply)) (ret : Bool) {seen : List (ℕ × Reply)}
    {maxMatch : ℕ} {cert : Option Cert} (h : Matched q id sigs seen maxMatch cert) :
    Matched q id sigs (seen ++ rs) (matchReplies q id sigs rs seen (maxMatch, cert, ret)).1
      (matchReplies q id sigs rs seen (maxMatch, cert, ret)).2.1 := by
  induction rs generalizing seen maxMatch cert ret with
  | nil =>
      rw [List.append_nil]
      exact h
  | cons x rs ih =>
      have hturn := h.turn x
      rw [List.append_cons, matchReplies]
      by_cases hmade : q ≤ ((seen ++ [x]).filter (·.2.keyTuple = x.2.keyTuple)).length ∧
          id ∈ ((seen ++ [x]).filter (·.2.keyTuple = x.2.keyTuple)).map (·.1)
      · dsimp only at hturn
        rw [if_pos hmade] at hturn ⊢
        exact ih _ hturn
      · dsimp only at hturn
        rw [if_neg hmade] at hturn ⊢
        exact ih _ hturn

lemma matched_nil : Matched q id sigs [] 0 none :=
  ⟨fun _ => le_rfl, nofun, nofun⟩

/-! ### A collector after some replies -/

variable {cfg : Config}

/-- A fresh collector after a list of replies with their signatures. -/
def feed (cfg : Config) (replicaId round seq : ℕ) (fed : List (Reply × Bytes)) :
    ReplyCollector :=
  fed.foldl (fun c x => (c.addAndCheckReply cfg x.1 x.2).1) { replicaId, round, seq }

/-- The latest reply of a replica, with its signature. -/
def latest (fed : List (Reply × Bytes)) (i : ℕ) : Option (Reply × Bytes) :=
  (fed.filter (·.1.replicaId = i)).getLast?

lemma latest_append (fed : List (Reply × Bytes)) (x : Reply × Bytes) (i : ℕ) :
    latest (fed ++ [x]) i = if x.1.replicaId = i then some x else latest fed i := by
  rw [latest, List.filter_append]
  by_cases hi : x.1.replicaId = i
  · rw [List.filter_cons_of_pos (by simpa using hi), List.filter_nil, List.getLast?_concat,
      if_pos hi]
  · rw [List.filter_cons_of_neg (by simpa using hi), List.filter_nil, List.append_nil, if_neg hi,
      latest]

/-- What a certificate is made of: matching replies of enough replicas, the own one among them,
each with the signature it came with. -/
structure Vouched (cfg : Config) (id : ℕ) (fed : List (Reply × Bytes)) (cert : Cert) : Prop where
  signed : cert.replies.length = cert.signatures.length ∧
    ∀ x ∈ cert.replies.zip cert.signatures, x ∈ fed
  distinct : (cert.replies.map (·.replicaId)).Nodup
  quorum : cfg.superQuorumSize ≤ cert.replies.length
  own : id ∈ cert.replies.map (·.replicaId)
  agree : ∃ k, cert.seq = k.seq ∧ ∀ r ∈ cert.replies, r.keyTuple = k

/-- What is stored are the latest replies. -/
structure Stored (cfg : Config) (id : ℕ) (c : ReplyCollector) (fed : List (Reply × Bytes)) :
    Prop where
  replicaId_eq : c.replicaId = id
  replies : ∀ i, c.replies[i]? = (latest fed i).map (·.1)
  replySigs : ∀ i, c.replySigs[i]? = (latest fed i).map (·.2)
  hasOwn : c.hasOwnReply = (latest fed id).isSome
  vouched : ∀ cert ∈ c.cert, Vouched cfg id fed cert

lemma mem_of_latest {fed : List (Reply × Bytes)} {i : ℕ} {x : Reply × Bytes}
    (h : latest fed i = some x) : x ∈ fed ∧ x.1.replicaId = i := by
  have hmem := List.mem_filter.mp (List.mem_of_getLast? h)
  exact ⟨hmem.1, of_decide_eq_true hmem.2⟩

lemma Vouched.append {id : ℕ} {fed : List (Reply × Bytes)} {cert : Cert}
    (h : Vouched cfg id fed cert) (x : Reply × Bytes) : Vouched cfg id (fed ++ [x]) cert :=
  { h with signed := ⟨h.signed.1, fun y hy => List.mem_append_left _ (h.signed.2 y hy)⟩ }

/-- A certificate that is made of stored replies. -/
lemma vouched_makeCert {id : ℕ} {fed : List (Reply × Bytes)} {m : ExtTreeMap ℕ Reply compare}
    {sigs : ExtTreeMap ℕ Bytes compare} (hm : ∀ i, m[i]? = (latest fed i).map (·.1))
    (hsigs : ∀ i, sigs[i]? = (latest fed i).map (·.2)) {k : ReplyKeyTuple}
    {matching : List (ℕ × Reply)} (hsub : matching.Sublist (m.toList.filter (·.2.keyTuple = k)))
    (hq : cfg.superQuorumSize ≤ matching.length) (hid : id ∈ matching.map (·.1)) :
    Vouched cfg id fed (makeCert sigs k matching) := by
  -- a stored reply is the latest of its replica, and so is its signature
  have hlatest : ∀ x ∈ matching, x.2.keyTuple = k ∧ x.2.replicaId = x.1 ∧
      (x.2, (sigs[x.1]?).getD []) ∈ fed := by
    rintro ⟨i, r⟩ hx
    obtain ⟨hstored, hkey⟩ := List.mem_filter.mp (hsub.subset hx)
    have hget := ExtTreeMap.mem_toList_iff_getElem?_eq_some.mp hstored
    rw [hm] at hget
    obtain ⟨⟨r', sig⟩, hlast, rfl⟩ := Option.map_eq_some_iff.mp hget
    obtain ⟨hmem, hi⟩ := mem_of_latest hlast
    refine ⟨of_decide_eq_true hkey, hi, ?_⟩
    rw [hsigs, hlast]
    exact hmem
  have hids : (matching.map (·.2)).map (·.replicaId) = matching.map (·.1) := by
    rw [List.map_map]
    exact List.map_congr_left fun x hx => (hlatest x hx).2.1
  refine ⟨⟨?_, fun y hy => ?_⟩, ?_, ?_, ?_, k, rfl, fun r hr => ?_⟩
  · rw [makeCert, List.length_map, List.length_map]
  · rw [makeCert, List.zip_map'] at hy
    obtain ⟨x, hx, rfl⟩ := List.mem_map.mp hy
    exact (hlatest x hx).2.2
  · rw [makeCert, hids]
    exact OrderedMap.nodup_map_fst_of_sublist (hsub.trans List.filter_sublist)
  · rw [makeCert, List.length_map]
    exact hq
  · rw [makeCert, hids]
    exact hid
  · obtain ⟨x, hx, rfl⟩ := List.mem_map.mp hr
    exact (hlatest x hx).1

/-- A reply is stored, in place of an earlier one of its replica. -/
def store (c : ReplyCollector) (x : Reply × Bytes) : ReplyCollector :=
  { c with
    replies := c.replies.insert x.1.replicaId x.1
    replySigs := c.replySigs.insert x.1.replicaId x.2
    hasOwnReply := c.hasOwnReply || x.1.replicaId == c.replicaId }

/-- **What a call does**: the reply is stored; a certificate and a proof are made of all that are
stored if the replica is a new one, the own reply is there and no certificate has been made. -/
lemma addAndCheckReply_eq (cfg : Config) (c : ReplyCollector) (x : Reply × Bytes) :
    (x.1.replicaId ∈ c.replies ∨ (c.store x).hasOwnReply = false ∨ c.cert.isSome) ∧
        (c.addAndCheckReply cfg x.1 x.2).1 = c.store x ∨
      x.1.replicaId ∉ c.replies ∧ ∃ maxMatch cert,
        Matched cfg.superQuorumSize c.replicaId (c.store x).replySigs (c.store x).replies.toList
          maxMatch cert ∧
        (c.addAndCheckReply cfg x.1 x.2).1 =
          { c.store x with
            cert
            repairReplyProof :=
              if (cfg.numReplicas : ℤ) - (c.store x).replies.size <
                  (cfg.superQuorumSize : ℤ) - maxMatch then
                some (makeProof (c.store x).replies (c.store x).replySigs)
              else c.repairReplyProof } := by
  have hempty : Matched cfg.superQuorumSize c.replicaId (c.store x).replySigs [] 0 none :=
    matched_nil
  have hspec := matchReplies_spec (c.store x).replies.toList false hempty
  rw [List.nil_append] at hspec
  have hsize : (c.store x).replies.size = c.replies.size ↔ x.1.replicaId ∈ c.replies := by
    rw [store, ExtTreeMap.size_insert, ← ExtTreeMap.contains_iff_mem]
    split_ifs with hmem
    · simp [hmem]
    · simp [hmem]
  rw [addAndCheckReply]
  by_cases hold : (c.store x).replies.size = c.replies.size
  · exact .inl ⟨.inl (hsize.mp hold), congrArg Prod.fst (if_pos hold)⟩
  by_cases hown : (c.store x).hasOwnReply = false
  · refine .inl ⟨.inr (.inl hown), congrArg Prod.fst ((if_neg hold).trans (if_pos ?_))⟩
    rw [Bool.not_eq_true']
    exact hown
  have hown' : ¬(!(c.store x).hasOwnReply) = true := by simpa using hown
  by_cases hcert : c.cert.isSome
  · exact .inl ⟨.inr (.inr hcert),
      congrArg Prod.fst ((if_neg hold).trans ((if_neg hown').trans (if_pos hcert)))⟩
  · exact .inr ⟨fun h => hold (hsize.mpr h), _, _, hspec,
      congrArg Prod.fst ((if_neg hold).trans ((if_neg hown').trans (if_neg hcert)))⟩

/-- What is stored after a reply are the latest replies. -/
lemma Stored.store {id : ℕ} {c : ReplyCollector} {fed : List (Reply × Bytes)}
    (hc : Stored cfg id c fed) (x : Reply × Bytes) : Stored cfg id (c.store x) (fed ++ [x]) where
  replicaId_eq := hc.replicaId_eq
  replies i := by
    rw [ReplyCollector.store, ExtTreeMap.getElem?_insert, latest_append, hc.replies]
    by_cases hi : x.1.replicaId = i
    · rw [if_pos (Std.compare_eq_iff_eq.mpr hi), if_pos hi, Option.map_some]
    · rw [if_neg fun h => hi (Std.compare_eq_iff_eq.mp h), if_neg hi]
  replySigs i := by
    rw [ReplyCollector.store, ExtTreeMap.getElem?_insert, latest_append, hc.replySigs]
    by_cases hi : x.1.replicaId = i
    · rw [if_pos (Std.compare_eq_iff_eq.mpr hi), if_pos hi, Option.map_some]
    · rw [if_neg fun h => hi (Std.compare_eq_iff_eq.mp h), if_neg hi]
  hasOwn := by
    rw [ReplyCollector.store, latest_append, hc.hasOwn, hc.replicaId_eq]
    by_cases hi : x.1.replicaId = id
    · simp [hi]
    · simp [hi]
  vouched cert hcert := (hc.vouched cert hcert).append x

lemma Stored.addAndCheckReply {id : ℕ} {c : ReplyCollector} {fed : List (Reply × Bytes)}
    (hc : Stored cfg id c fed) (x : Reply × Bytes) :
    Stored cfg id (c.addAndCheckReply cfg x.1 x.2).1 (fed ++ [x]) := by
  have hstored := hc.store x
  rcases c.addAndCheckReply_eq cfg x with ⟨-, heq⟩ | ⟨-, maxMatch, cert, hmatched, heq⟩
  · rw [heq]
    exact hstored
  · rw [heq]
    refine { hstored with vouched := fun cert' hcert' => ?_ }
    obtain ⟨k, matching, rfl, hsub, hq, hid⟩ := hmatched.made cert' hcert'
    exact vouched_makeCert hstored.replies hstored.replySigs hsub hq (hc.replicaId_eq ▸ hid)

/-- A collector that has been fed a list has the latest replies, and a certificate of them. -/
lemma feed_stored (cfg : Config) (id round seq : ℕ) (fed : List (Reply × Bytes)) :
    Stored cfg id (feed cfg id round seq fed) fed := by
  induction fed using List.reverseRecOn with
  | nil =>
      refine ⟨rfl, fun i => ?_, fun i => ?_, rfl, nofun⟩
      · simp [feed, latest]
      · simp [feed, latest]
  | append_singleton fed x ih =>
      rw [feed, List.foldl_append]
      exact ih.addAndCheckReply x

lemma feed_append (id round seq : ℕ) (fed : List (Reply × Bytes)) (x : Reply × Bytes) :
    feed cfg id round seq (fed ++ [x]) =
      ((feed cfg id round seq fed).addAndCheckReply cfg x.1 x.2).1 := by
  rw [feed, List.foldl_append]
  rfl

/-! ### Soundness -/

/-- The call sets the proof: it would, had there been none. -/
def SetsProof (cfg : Config) (c : ReplyCollector) (x : Reply × Bytes) : Prop :=
  (({ c with repairReplyProof := none } : ReplyCollector).addAndCheckReply cfg x.1 x.2
    ).1.repairReplyProof.isSome = true

/-- No replies of the replicas that have not been heard from can make a superquorum. -/
def Hopeless (cfg : Config) (replies : ExtTreeMap ℕ Reply compare) : Prop :=
  ∀ replies' : ExtTreeMap ℕ Reply compare,
    (∀ (i : ℕ) (r : Reply), replies[i]? = some r → replies'[i]? = some r) →
    (∀ i ∈ replies', i < cfg.numReplicas) → ∀ k, (group replies' k).card < cfg.superQuorumSize

/-- A group grows by the replicas that have not been heard from at most. -/
lemma card_group_le {n : ℕ} {m m' : ExtTreeMap ℕ Reply compare}
    (hext : ∀ (i : ℕ) (r : Reply), m[i]? = some r → m'[i]? = some r) (hm : ∀ i ∈ m', i < n)
    (k : ReplyKeyTuple) :
    (group m' k).card + m.size ≤ (group m k).card + n := by
  have hmem : ∀ i, i ∈ m.keys.toFinset ↔ ∃ r, m[i]? = some r := by
    intro i
    rw [List.mem_toFinset, ExtTreeMap.mem_keys, ExtTreeMap.mem_iff_isSome_getElem?,
      Option.isSome_iff_exists]
  have hsize : m.keys.toFinset.card = m.size := by
    rw [List.toFinset_card_of_nodup ExtTreeMap.nodup_keys, ExtTreeMap.length_keys]
  have hheard : m.keys.toFinset ⊆ Finset.range n := by
    intro i hi
    obtain ⟨r, hr⟩ := (hmem i).mp hi
    refine Finset.mem_range.mpr (hm i (ExtTreeMap.mem_iff_isSome_getElem?.mpr ?_))
    rw [hext i r hr]
    rfl
  have hsub : group m' k ⊆ group m k ∪ (Finset.range n \ m.keys.toFinset) := by
    intro i hi
    obtain ⟨r, hr, hk⟩ := mem_group.mp hi
    by_cases hmi : i ∈ m.keys.toFinset
    · obtain ⟨r', hr'⟩ := (hmem i).mp hmi
      obtain rfl : r' = r := Option.some.inj ((hext i r' hr').symm.trans hr)
      exact Finset.mem_union_left _ (mem_group.mpr ⟨r', hr', hk⟩)
    · have hlt : i < n := hm i (ExtTreeMap.mem_iff_isSome_getElem?.mpr (by rw [hr]; rfl))
      exact Finset.mem_union_right _ (Finset.mem_sdiff.mpr ⟨Finset.mem_range.mpr hlt, hmi⟩)
  have hcard := (Finset.card_le_card hsub).trans (Finset.card_union_le _ _)
  have hrest := Finset.card_sdiff_add_card_eq_card hheard
  rw [Finset.card_range, hsize] at hrest
  omega

/-- **The collector is sound**: a certificate is vouched for by a superquorum, and a proof is made
only when no superquorum can come about any more. -/
theorem reply_collector_sound (cfg : Config) (id round seq : ℕ) (fed : List (Reply × Bytes))
    (x : Reply × Bytes) :
    (∀ cert ∈ (feed cfg id round seq fed).cert, Vouched cfg id fed cert) ∧
      (SetsProof cfg (feed cfg id round seq fed) x →
        Hopeless cfg (feed cfg id round seq (fed ++ [x])).replies) := by
  refine ⟨(feed_stored cfg id round seq fed).vouched, fun hset replies' hext hids k => ?_⟩
  rw [feed_append] at hext
  generalize feed cfg id round seq fed = c at hset hext
  -- the call has evaluated what is stored
  have hreplies : (c.addAndCheckReply cfg x.1 x.2).1.replies = (c.store x).replies := by
    rcases c.addAndCheckReply_eq cfg x with ⟨-, heq⟩ | ⟨-, maxMatch, cert, -, heq⟩
    · rw [heq]
    · rw [heq]
  rw [hreplies] at hext
  rw [SetsProof] at hset
  rcases addAndCheckReply_eq cfg { c with repairReplyProof := none } x with
    ⟨-, heq⟩ | ⟨-, maxMatch, cert, hmatched, heq⟩
  · rw [heq] at hset
    cases hset
  · rw [heq] at hset
    dsimp only at hset
    split_ifs at hset with hshort
    · have hgroup := hmatched.le_max k
      have hgrow := card_group_le hext hids k
      rw [card_group (c.store x).replies] at hgrow
      have hsame : (({ c with repairReplyProof := none } : ReplyCollector).store x).replies =
          (c.store x).replies := rfl
      rw [hsame] at hgroup hshort
      omega
    · cases hset

/-! ### Completeness -/

/-- The latest replies of a superquorum, the own one among them, agree. -/
def Agreed (cfg : Config) (id : ℕ) (fed : List (Reply × Bytes)) : Prop :=
  ∃ (S : Finset ℕ) (k : ReplyKeyTuple), cfg.superQuorumSize ≤ S.card ∧ id ∈ S ∧
    ∀ i ∈ S, ∃ x, latest fed i = some x ∧ x.1.keyTuple = k

/-- A certificate stays. -/
lemma cert_mono {id round seq : ℕ} {fed fed' : List (Reply × Bytes)} (hpre : fed <+: fed')
    (h : (feed cfg id round seq fed).cert.isSome) : (feed cfg id round seq fed').cert.isSome := by
  obtain ⟨rest, rfl⟩ := hpre
  induction rest using List.reverseRecOn with
  | nil => rwa [List.append_nil]
  | append_singleton rest x ih =>
      rw [← List.append_assoc, feed_append, addAndCheckReply]
      dsimp only
      split_ifs
      · exact ih
      · exact ih
      · exact ih

/-- A new reply with which the latest replies agree makes a certificate, if there is none. -/
lemma cert_of_agreed {id round seq : ℕ} {fed : List (Reply × Bytes)} {x : Reply × Bytes}
    (hnew : latest fed x.1.replicaId = none) (h : Agreed cfg id (fed ++ [x])) :
    (feed cfg id round seq (fed ++ [x])).cert.isSome := by
  obtain ⟨S, k, hS, hown, hall⟩ := h
  have hstored := feed_stored cfg id round seq fed
  have hstored' := feed_stored cfg id round seq (fed ++ [x])
  rw [feed_append] at hstored' ⊢
  obtain ⟨own, hlatest, rfl⟩ := hall id hown
  rcases addAndCheckReply_eq cfg (feed cfg id round seq fed) x with
    ⟨hkept, heq⟩ | ⟨-, maxMatch, cert, hmatched, heq⟩
  · rcases hkept with hold | hno | hcert
    · rw [ExtTreeMap.mem_iff_isSome_getElem?, hstored.replies, hnew] at hold
      cases hold
    · rw [heq] at hstored'
      rw [hstored'.hasOwn, hlatest] at hno
      cases hno
    · rw [heq]
      exact hcert
  · rw [heq] at hstored' ⊢
    rw [hstored.replicaId_eq] at hmatched
    refine hmatched.found own.1 ?_ (hS.trans ?_)
    · rw [ExtTreeMap.mem_toList_iff_getElem?_eq_some]
      have hget := hstored'.replies id
      rw [hlatest] at hget
      exact hget
    · rw [← card_group]
      refine Finset.card_le_card fun i hi => mem_group.mpr ?_
      obtain ⟨y, hy, hk⟩ := hall i hi
      have hget := hstored'.replies i
      rw [hy] at hget
      exact ⟨y.1, hget, hk⟩

/-- Where a certificate has been made the latest replies had agreed. -/
lemma agreed_of_cert (id round seq : ℕ) {fed : List (Reply × Bytes)}
    (h : (feed cfg id round seq fed).cert.isSome) : ∃ pre, pre <+: fed ∧ Agreed cfg id pre := by
  induction fed using List.reverseRecOn with
  | nil => cases h
  | append_singleton fed x ih =>
      by_cases hold : (feed cfg id round seq fed).cert.isSome
      · obtain ⟨pre, hpre, hagreed⟩ := ih hold
        exact ⟨pre, hpre.trans (List.prefix_append _ _), hagreed⟩
      · refine ⟨fed ++ [x], List.prefix_rfl, ?_⟩
        have hstored := feed_stored cfg id round seq fed
        have hstored' := feed_stored cfg id round seq (fed ++ [x])
        rw [feed_append] at hstored' h
        rcases addAndCheckReply_eq cfg (feed cfg id round seq fed) x with
          ⟨-, heq⟩ | ⟨-, maxMatch, cert, hmatched, heq⟩
        · rw [heq] at h
          exact absurd h hold
        · rw [heq] at h hstored'
          rw [hstored.replicaId_eq] at hmatched
          obtain ⟨cert', hcert'⟩ := Option.isSome_iff_exists.mp h
          obtain ⟨k, matching, -, hsub, hq, hid⟩ := hmatched.made cert' hcert'
          -- the replicas of the matching replies
          have hgroup : ∀ i ∈ matching.map (·.1), ∃ y, latest (fed ++ [x]) i = some y ∧
              y.1.keyTuple = k := by
            intro i hi
            obtain ⟨⟨i, r⟩, hr, rfl⟩ := List.mem_map.mp hi
            obtain ⟨hmem, hk⟩ := List.mem_filter.mp (hsub.subset hr)
            have hget := hstored'.replies i
            have hr' := ExtTreeMap.mem_toList_iff_getElem?_eq_some.mp hmem
            obtain ⟨y, hy, rfl⟩ := Option.map_eq_some_iff.mp (hget.symm.trans hr')
            exact ⟨y, hy, of_decide_eq_true hk⟩
          have hnodup : (matching.map (·.1)).Nodup :=
            OrderedMap.nodup_map_fst_of_sublist (hsub.trans List.filter_sublist)
          refine ⟨(matching.map (·.1)).toFinset, k, ?_, List.mem_toFinset.mpr hid, fun i hi =>
            hgroup i (List.mem_toFinset.mp hi)⟩
          rw [List.toFinset_card_of_nodup hnodup, List.length_map]
          exact hq

/-- **When the collector is complete**: after each call there is a certificate if the latest
replies agree, exactly if a reply in place of an earlier one of its replica never is the first
with which they agree. -/
theorem reply_collector_complete_iff (cfg : Config) (id round seq : ℕ)
    (fed : List (Reply × Bytes)) :
    (∀ pre, pre <+: fed → Agreed cfg id pre → (feed cfg id round seq pre).cert.isSome) ↔
      ∀ pre x, pre ++ [x] <+: fed → (latest pre x.1.replicaId).isSome →
        Agreed cfg id (pre ++ [x]) → ∃ earlier, earlier <+: pre ∧ Agreed cfg id earlier := by
  constructor
  · intro hcomplete pre x hpre hheard hagreed
    have hcert := hcomplete _ hpre hagreed
    refine agreed_of_cert id round seq ?_
    have hstored := feed_stored cfg id round seq pre
    rw [feed_append] at hcert
    rcases addAndCheckReply_eq cfg (feed cfg id round seq pre) x with
      ⟨-, heq⟩ | ⟨hnew, -⟩
    · rw [heq] at hcert
      exact hcert
    · refine absurd ?_ hnew
      rw [ExtTreeMap.mem_iff_isSome_getElem?, hstored.replies, Option.isSome_map]
      exact hheard
  · intro hfirst pre hpre hagreed
    induction hlen : pre.length using Nat.strong_induction_on generalizing pre with
    | h n ih =>
        rcases pre.eq_nil_or_concat with rfl | ⟨pre, x, rfl⟩
        · obtain ⟨S, k, -, hown, hall⟩ := hagreed
          obtain ⟨x, hx, -⟩ := hall id hown
          cases hx
        · rw [List.concat_eq_append] at *
          by_cases hnew : latest pre x.1.replicaId = none
          · exact cert_of_agreed hnew hagreed
          · -- they have agreed before, so that a certificate has been made then
            obtain ⟨earlier, hearlier, hagreed'⟩ := hfirst pre x hpre
              (Option.isSome_iff_ne_none.mpr hnew) hagreed
            have hshort : earlier.length < n := by
              rw [← hlen, List.length_append]
              exact Nat.lt_succ_of_le hearlier.length_le
            have hpre' : earlier <+: pre ++ [x] := hearlier.trans (List.prefix_append _ _)
            exact cert_mono hpre' (ih _ hshort earlier (hpre'.trans hpre) hagreed' rfl)

/-- The replies of all four replicas, replica 3 with another digest first. -/
def realigned : List (Reply × Bytes) :=
  [(0, [0]), (1, [0]), (2, [0]), (3, [1]), (3, [0])].map fun (i, digest) =>
    ({ round := 1, seq := 1, replicaId := i, digest }, [])

/-- **A replaced reply is not evaluated**: all latest replies agree, and there is no
certificate. -/
theorem realigned_not_certified : ¬∀ fed : List (Reply × Bytes), Agreed .oneFault 0 fed →
    (feed .oneFault 0 1 1 fed).cert.isSome := by
  intro hcomplete
  have hagreed : Agreed .oneFault 0 realigned := by
    refine ⟨{0, 1, 2, 3}, ⟨[0], 1, 1⟩, by decide, by decide, fun i hi => ?_⟩
    have hall : ∀ i ∈ ({0, 1, 2, 3} : Finset ℕ),
        (latest realigned i).map (·.1.keyTuple) = some ⟨[0], 1, 1⟩ := by decide
    exact Option.map_eq_some_iff.mp (hall i hi)
  exact absurd (hcomplete realigned hagreed) (by decide +kernel)

end ReplyCollector

end DomBft
