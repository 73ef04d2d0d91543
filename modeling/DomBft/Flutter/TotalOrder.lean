import DomBft.Flutter.Order

/-!
The total order of Flutter, with correct replicas only.

* `exists_of_link`: what a replica receives is cut out of what the other one has sent.
* `InOrder`: the invariant of the cluster. What has been received of a link has been seen, and
  every replica keeps its own invariant.
* `commits_in_order`: in every run with clocks that never go back **each replica commits in the
  order of the keys**, and any two replicas commit what both commit in the same order.
-/

namespace DomBft

open Std (ExtTreeMap)
open Fallible Transition

/-! ### Links -/

/-- An element of a filtered list comes from one place of the list. -/
lemma exists_of_filterMap {α β : Type*} {f : α → Option β} {l : List α} {p : ℕ} {b : β}
    (h : (l.filterMap f)[p]? = some b) :
    ∃ l₁ a l₂, l = l₁ ++ a :: l₂ ∧ f a = some b ∧ (l₁.filterMap f).length = p := by
  induction l generalizing p with
  | nil => cases h
  | cons a l ih =>
      cases hfa : f a with
      | none =>
          rw [List.filterMap_cons_none hfa] at h
          obtain ⟨l₁, a', l₂, rfl, hb, hp⟩ := ih h
          exact ⟨a :: l₁, a', l₂, rfl, hb, by rw [List.filterMap_cons_none hfa, hp]⟩
      | some b' =>
          rw [List.filterMap_cons_some hfa] at h
          cases p with
          | zero =>
              cases h
              exact ⟨[], a, l, rfl, hfa, rfl⟩
          | succ p =>
              obtain ⟨l₁, a', l₂, rfl, hb, hp⟩ := ih h
              exact ⟨a :: l₁, a', l₂, rfl, hb, by
                rw [List.filterMap_cons_some hfa, List.length_cons, hp]⟩

namespace FlutterReplica

variable {r : FlutterReplica} {i p : ℕ} {msg : FlutterMsg}

/-- What is at a place of a link has been sent behind what the link has in front of it. -/
lemma exists_of_link (h : (r.link i)[p]? = some msg) :
    ∃ l₁ d l₂, r.sent = l₁ ++ (d, msg) :: l₂ ∧ (l₁.filterMap (onLink i)).length = p := by
  obtain ⟨l₁, ⟨d, m⟩, l₂, hsent, hlink, hp⟩ := exists_of_filterMap h
  rw [onLink] at hlink
  split_ifs at hlink
  cases hlink
  exact ⟨l₁, d, l₂, hsent, hp⟩

end FlutterReplica

/-- The request of a vote has been sent before whatever comes behind the vote. -/
lemma WellOrdered.exists_observe {l₁ l₂ : List (FlutterDest × FlutterMsg)} {d : FlutterDest}
    {key : CandidateKey} {accept : Bool} (h : WellOrdered (l₁ ++ l₂))
    (hmem : (d, .rbcProposal key accept) ∈ l₁) :
    ∃ request : FlutterClientRequest, request.key = key ∧ (.replicas, .observe request) ∈ l₁ := by
  obtain ⟨l, l', rfl⟩ := List.append_of_mem hmem
  obtain ⟨-, ⟨request, hkey, hobserve⟩, -⟩ := h l (d, .rbcProposal key accept) (l' ++ l₂) (by simp)
  exact ⟨request, hkey, List.mem_append_left _ hobserve⟩

/-! ### The cluster -/

namespace FlutterCluster

variable {cfg : FlutterConfig} {c c' : FlutterCluster} {clock : ℕ → ℕ × ℕ} {a : FlutterAction}

/-- The clock of a replica never goes back. -/
def ClockForward (_ : List FlutterAction) (c : FlutterCluster) (a : FlutterAction) : Prop :=
  c.time a.replica ≤ a.now

/-- **The invariant of the cluster.** -/
structure InOrder (cfg : FlutterConfig) (c : FlutterCluster) : Prop where
  ids : ∀ i, (c.replicas i).replicaId = i
  keeps : ∀ i < cfg.numReplicas, (c.replicas i).Local cfg c.Said c.time
  bounded : ∀ i j, c.received i j ≤ ((c.replicas j).link i).length
  seen : ∀ i j p request, p < c.received i j →
    ((c.replicas j).link i)[p]? = some (.observe request) → (c.replicas i).Seen request.key

lemma InOrder.consistent (h : InOrder cfg c) (hn : cfg.numReplicas = 5 * cfg.f + 1) :
    Consistent cfg c.Said where
  rejects := fun j key hj ⟨_, hd⟩ => ((h.keeps j hj).backs _ hd).2 rfl
  proposals := fun j _ _ hj ⟨_, hd⟩ => (h.keeps j hj).justified.sent _ hd
  values := fun _ _ ⟨_, hd⟩ =>
    ((h.keeps leaderId (by rw [hn, leaderId]; omega)).justified.sent _ hd).2

/-- What goes before a place of a link that has been received has been seen. -/
lemma InOrder.seen_of_link (h : InOrder cfg c) {i j : ℕ} {d : FlutterDest} {msg : FlutterMsg}
    {l₁ l₂ : List (FlutterDest × FlutterMsg)} (hsent : (c.replicas j).sent = l₁ ++ (d, msg) :: l₂)
    (hp : (l₁.filterMap (onLink i)).length = c.received i j) {request : FlutterClientRequest}
    (hmem : (.replicas, .observe request) ∈ l₁) : (c.replicas i).Seen request.key := by
  have hlink : .observe request ∈ l₁.filterMap (onLink i) :=
    List.mem_filterMap.mpr ⟨_, hmem, rfl⟩
  obtain ⟨q, hq, hget⟩ := List.getElem_of_mem hlink
  refine h.seen i j q request (hp ▸ hq) ?_
  rw [FlutterReplica.link, hsent, List.filterMap_append, List.getElem?_append_left hq,
    List.getElem?_eq_getElem hq, hget]

/-- What is known of the next message on a link. -/
lemma InOrder.knows (h : InOrder cfg c) {T : ℕ → ℕ} (hT : ∀ j, c.time j ≤ T j) {i j : ℕ}
    {msg : FlutterMsg} (hj : j < cfg.numReplicas)
    (hget : ((c.replicas j).link i)[c.received i j]? = some msg) :
    (c.replicas i).Knows cfg c.Said T (.message j msg) := by
  obtain ⟨l₁, d, l₂, hsent, hp⟩ := FlutterReplica.exists_of_link hget
  have hmem : (d, msg) ∈ (c.replicas j).sent := by simp [hsent]
  have hordered := (h.keeps j hj).ordered
  -- the request of a vote that has been sent before is seen
  have hseen : ∀ d' key accept, (d', .rbcProposal key accept) ∈ l₁ → (c.replicas i).Seen key := by
    intro d' key accept hvote
    obtain ⟨request, rfl, hobserve⟩ := (hsent ▸ hordered).exists_observe hvote
    exact h.seen_of_link hsent hp hobserve
  refine ⟨⟨hj, d, hmem⟩, ?_, ?_, ?_, fun hleader m hm => ?_⟩
  · rintro _ key accept ⟨⟩
    obtain ⟨-, ⟨request, rfl, hobserve⟩, -⟩ := hordered l₁ _ l₂ hsent
    exact h.seen_of_link hsent hp hobserve
  · rintro _ key accept a ⟨⟩ ⟨d', hvote⟩
    rw [hsent] at hvote
    rcases List.mem_append.mp hvote with hvote | hvote
    · exact hseen d' key a hvote
    · -- no vote behind a slow proposal
      have hvote := (List.mem_cons.mp hvote).resolve_left (by simp)
      obtain ⟨l, l', rfl⟩ := List.append_of_mem hvote
      rw [← List.cons_append, ← List.append_assoc] at hsent
      obtain ⟨-, -, -, hnone⟩ := hordered _ _ l' hsent
      exact absurd (List.mem_append_right _ List.mem_cons_self) (hnone d accept)
  · rintro _ t ⟨⟩
    have ht : t ≤ c.time (c.replicas j).replicaId := (h.keeps j hj).backs _ hmem
    refine ⟨(ht.trans_eq (congrArg c.time (h.ids j))).trans (hT j), fun key ⟨d', hvote⟩ hlt => ?_⟩
    rw [hsent] at hvote
    rcases List.mem_append.mp hvote with hvote | hvote
    · exact hseen d' key true hvote
    · -- no vote for a bet that the clock has passed
      have hvote := (List.mem_cons.mp hvote).resolve_left (by simp)
      obtain ⟨l, l', rfl⟩ := List.append_of_mem hvote
      rw [← List.cons_append, ← List.append_assoc] at hsent
      obtain ⟨-, -, htimes, -⟩ := hordered _ _ l' hsent
      exact absurd (htimes rfl d t (List.mem_append_right _ List.mem_cons_self)) hlt.not_ge
  · exact (h.ids i).symm.trans hleader ▸ hm

/-! ### The steps of the cluster -/

lemma local_fresh {T : ℕ → ℕ} {Said : ℕ → FlutterMsg → Prop} {i t₀ t₁ : ℕ}
    (hi : i < cfg.numReplicas) (ht : t₁ ≤ T i) (hsaid : ∀ m, ¬Said i m) :
    (FlutterReplica.fresh i t₀ t₁).Local cfg Said T where
  justified := FlutterReplica.justified_fresh i t₀ t₁
  current key c hc := by cases ExtTreeMap.getElem?_empty.symm.trans hc
  backs x hx := absurd hx List.not_mem_nil
  ordered l₁ x l₂ hnil := by
    have hmem : x ∈ l₁ ++ x :: l₂ := List.mem_append_right _ List.mem_cons_self
    rw [← hnil] at hmem
    exact absurd hmem List.not_mem_nil
  heard _ key c _ _ _ hc := by cases ExtTreeMap.getElem?_empty.symm.trans hc
  clocks j t hj := by
    rcases OrderedMap.getElem?_insert_cases hj with ⟨rfl, rfl⟩ | ⟨-, hempty⟩
    · exact ⟨hi, ht, fun key hvote => absurd hvote (hsaid _)⟩
    · cases ExtTreeMap.getElem?_empty.symm.trans hempty
  lock := .inl rfl
  sorted := .nil
  closed key hkey := absurd hkey List.not_mem_nil

lemma inOrder_fresh (clock : ℕ → ℕ × ℕ) : InOrder cfg (.fresh clock) where
  ids _ := rfl
  keeps _ hi := local_fresh hi le_rfl fun _ ⟨_, hd⟩ => List.not_mem_nil hd
  bounded _ _ := Nat.zero_le _
  seen _ _ _ _ hp := absurd hp (Nat.not_lt_zero _)

/-- A request that is handled has been seen. -/
lemma seen_of_handle {r r' : FlutterReplica} {now j : ℕ} {request : FlutterClientRequest}
    (h : r.handle cfg now (.message j (.observe request)) = .ok r') : r'.Seen request.key := by
  cases h
  rw [FlutterReplica.initializeCandidate]
  split_ifs with hcommitted hbet
  · exact .inl hcommitted
  · refine .inr ?_
    cases hget : r.clientCurrentBets[request.key.2]? with
    | none =>
        rw [hget] at hbet
        cases hbet
    | some bet =>
        rw [hget] at hbet
        exact ⟨bet, rfl, of_decide_eq_true hbet⟩
  · exact FlutterReplica.seen_addCandidate

lemma time_le_update (hclock : c.time a.replica ≤ a.now) (j : ℕ) :
    c.time j ≤ Function.update c.time a.replica a.now j := by
  by_cases hj : j = a.replica
  · rw [hj, Function.update_self]
    exact hclock
  · rw [Function.update_of_ne hj]

/-- What an action makes of its replica. -/
lemma InOrder.takes (hn : cfg.numReplicas = 5 * cfg.f + 1) (h : InOrder cfg c)
    (hclock : c.time a.replica ≤ a.now) (hallowed : a.Allowed cfg ∅) {e : FlutterInput}
    {r : FlutterReplica} (hinput : c.input a.replica a.source = some e)
    (hhandle : (c.replicas a.replica).handle cfg a.now e = .ok r) :
    FlutterReplica.Takes cfg c.Said (Function.update c.time a.replica a.now) a.now e
      (c.replicas a.replica) r := by
  have hw := h.consistent hn
  have hT := time_le_update hclock
  have hlocal : (c.replicas a.replica).Local cfg c.Said
      (Function.update c.time a.replica a.now) :=
    (h.keeps a.replica hallowed.1).mono (fun _ _ => id) hT (fun _ _ => .inl) fun _ _ _ _ hv _ => hv
  have hown : (c.replicas a.replica).replicaId = leaderId → ∀ m, c.Said leaderId m →
      ∃ d, (d, m) ∈ (c.replicas a.replica).sent :=
    fun hleader m hm => (h.ids a.replica).symm.trans hleader ▸ hm
  refine (FlutterReplica.handle_steps hhandle).takes hn hw hallowed.2.2.1 ?_ hlocal ?_
  · rw [h.ids, Function.update_self]
  · obtain ⟨-, -, -, hsource⟩ := hallowed
    cases hs : a.source with
    | client request =>
        rw [hs] at hinput
        cases hinput
        exact ⟨trivial, nofun, nofun, nofun, hown⟩
    | link src =>
        rw [hs] at hinput hsource
        obtain ⟨msg, hget, rfl⟩ := input_link hinput
        exact h.knows hT hsource.1 hget
    | faulty src msg =>
        rw [hs] at hsource
        exact absurd hsource.2.1 (Finset.notMem_empty src)
    | timer =>
        rw [hs] at hinput
        cases hinput
        exact ⟨trivial, nofun, nofun, nofun, hown⟩

/-- Only the link that is read from moves on. -/
lemma receive_cases (c : FlutterCluster) (a : FlutterAction) (i j : ℕ) :
    c.receive a i j = c.received i j ∨
      i = a.replica ∧ a.source = .link j ∧ c.receive a i j = c.received i j + 1 := by
  rw [receive]
  cases a.source with
  | link src =>
      dsimp only
      by_cases hi : i = a.replica
      · rw [hi, Function.update_self]
        by_cases hj : j = src
        · rw [hj, Function.update_self]
          exact .inr ⟨rfl, rfl, rfl⟩
        · rw [Function.update_of_ne hj]
          exact .inl rfl
      · rw [Function.update_of_ne hi]
        exact .inl rfl
  | client request | faulty src msg | timer => exact .inl rfl

/-- A vote that is cast now is behind none of the slow proposals that have been sent. -/
lemma vote_of_slowProposal {l l' : List (FlutterDest × FlutterMsg)} (hgrows : l <+: l')
    (hordered : WellOrdered l') {d d' : FlutterDest} {key : CandidateKey} {accept accept' : Bool}
    (hvote : (d, .rbcProposal key accept) ∈ l') (hslow : (d', .rbcSlowProposal key accept') ∈ l) :
    (d, .rbcProposal key accept) ∈ l := by
  obtain ⟨l₀, rfl⟩ := hgrows
  refine (List.mem_append.mp hvote).resolve_right fun hnew => ?_
  obtain ⟨l₁, l₂, rfl⟩ := List.append_of_mem hnew
  obtain ⟨-, -, -, hnone⟩ := hordered (l ++ l₁) _ l₂ (List.append_assoc _ _ _).symm
  exact hnone d' accept' (List.mem_append_left _ hslow)

/-- **Every action keeps the invariant of the cluster.** -/
lemma InOrder.next (hn : cfg.numReplicas = 5 * cfg.f + 1) (h : InOrder cfg c)
    (hclock : c.time a.replica ≤ a.now) (hallowed : a.Allowed cfg ∅)
    (hnext : c.next cfg a = .ok c') : InOrder cfg c' := by
  rcases next_cases hnext with rfl | ⟨e, r, hinput, hhandle, heq⟩
  · exact h
  have htakes := h.takes hn hclock hallowed hinput hhandle
  have hT := time_le_update hclock
  have hreplica : c'.replicas a.replica = r := by rw [heq]; exact Function.update_self ..
  have hother : ∀ j, j ≠ a.replica → c'.replicas j = c.replicas j := fun j hj => by
    rw [heq]
    exact Function.update_of_ne hj ..
  have htime : c'.time = Function.update c.time a.replica a.now := by rw [heq]
  have hreceived : c'.received = c.receive a := by rw [heq]
  clear heq
  -- whatever has been sent before is still there
  have hgrows : ∀ j, (c.replicas j).sent <+: (c'.replicas j).sent := by
    intro j
    by_cases hj : j = a.replica
    · rw [hj, hreplica]
      exact htakes.grows.2
    · rw [hother j hj]
  have hlink : ∀ i j, (c.replicas j).link i <+: (c'.replicas j).link i := fun i j =>
    (hgrows j).filterMap (onLink i)
  have hmono : ∀ {r₀ : FlutterReplica},
      r₀.Local cfg c.Said c'.time → r₀.Local cfg c'.Said c'.time := by
    refine fun hr₀ => hr₀.mono (fun j m ⟨d, hd⟩ => ⟨d, (hgrows j).subset hd⟩) (fun _ => le_rfl) ?_ ?_
    · rintro j key ⟨d, hvote⟩
      by_cases hj : j = a.replica
      · rw [hj, hreplica] at hvote
        rw [htime, hj, Function.update_self]
        exact (htakes.votes d key hvote).imp_left fun hold => ⟨d, hold⟩
      · rw [hother j hj] at hvote
        exact .inl ⟨d, hvote⟩
    · rintro j key accept accept' ⟨d, hvote⟩ ⟨d', hslow⟩
      by_cases hj : j = a.replica
      · rw [hj, hreplica] at hvote
        rw [hj] at hslow ⊢
        exact ⟨d, vote_of_slowProposal htakes.grows.2 htakes.keeps.ordered hvote hslow⟩
      · rw [hother j hj] at hvote
        exact ⟨d, hvote⟩
  have hseen : ∀ i key, (c.replicas i).Seen key → (c'.replicas i).Seen key := by
    intro i key hseen
    by_cases hi : i = a.replica
    · rw [hi] at hseen
      rw [hi, hreplica]
      exact htakes.seen key hseen
    · rwa [hother i hi]
  refine ⟨fun i => ?_, fun i hi => ?_, fun i j => ?_, fun i j p request hp hget => ?_⟩
  · by_cases hi : i = a.replica
    · rw [hi, hreplica, htakes.grows.1, h.ids]
    · rw [hother i hi, h.ids]
  · refine hmono ?_
    rw [htime]
    by_cases hia : i = a.replica
    · rw [hia, hreplica]
      exact htakes.keeps
    · rw [hother i hia]
      exact (h.keeps i hi).mono (fun _ _ => id) hT (fun _ _ => .inl) fun _ _ _ _ hv _ => hv
  · rw [hreceived]
    refine le_trans ?_ (hlink i j).length_le
    rcases c.receive_cases a i j with heq | ⟨rfl, hs, heq⟩
    · rw [heq]
      exact h.bounded i j
    · rw [heq]
      obtain ⟨msg, hget, -⟩ := input_link (hs ▸ hinput)
      exact (List.getElem?_eq_some_iff.mp hget).1
  · -- what has been received was on the link before
    rw [hreceived] at hp
    have hold : p < ((c.replicas j).link i).length →
        ((c.replicas j).link i)[p]? = some (.observe request) := fun hlen => by
      obtain ⟨l, hl⟩ := hlink i j
      rwa [← hl, List.getElem?_append_left hlen] at hget
    have hseenOf : p < c.received i j → (c'.replicas i).Seen request.key := fun hlt =>
      hseen i _ (h.seen i j p request hlt (hold (hlt.trans_le (h.bounded i j))))
    rcases c.receive_cases a i j with heq | ⟨rfl, hs, heq⟩
    · exact hseenOf (heq ▸ hp)
    · rcases Nat.lt_succ_iff_lt_or_eq.mp (heq ▸ hp) with hlt | rfl
      · exact hseenOf hlt
      · obtain ⟨msg, hm, rfl⟩ := input_link (hs ▸ hinput)
        obtain rfl := Option.some.inj
          (hm.symm.trans (hold (List.getElem?_eq_some_iff.mp hm).1))
        rw [hreplica]
        exact seen_of_handle hhandle

/-- **The invariant of the cluster** holds along every run. -/
lemma inOrder_of_run (hn : cfg.numReplicas = 5 * cfg.f + 1) {as : List FlutterAction}
    (hrun : Run (flutterSystem cfg ∅ clock) ClockForward as c) : InOrder cfg c := by
  refine hrun.invariant (P := fun _ c => InOrder cfg c) ?_ ?_
  · rintro _ rfl
    exact inOrder_fresh clock
  · intro as c a c' _ h hclock hstep
    exact h.next hn hclock hstep.1 hstep.2

/-! ### The order of the commits -/

/-- Two elements of a strictly ordered list stand in their order. -/
lemma sublist_pair_iff {l : List CandidateKey}
    (h : l.Pairwise fun key key' => candidateCmp key key' = .lt) {key key' : CandidateKey}
    (hkey : key ∈ l) (hkey' : key' ∈ l) : [key, key'].Sublist l ↔ candidateCmp key key' = .lt := by
  refine ⟨fun hsub => (List.pairwise_cons.mp (h.sublist hsub)).1 key' List.mem_cons_self,
    fun hlt => ?_⟩
  induction l with
  | nil => cases hkey
  | cons k l ih =>
      obtain ⟨hfirst, hrest⟩ := List.pairwise_cons.mp h
      rcases List.mem_cons.mp hkey with rfl | hmem
      · rcases List.mem_cons.mp hkey' with rfl | hmem'
        · have hself : candidateCmp key' key' = .eq := Std.ReflCmp.compare_self
          rw [hself] at hlt
          cases hlt
        · exact (List.singleton_sublist.mpr hmem').cons_cons key
      · rcases List.mem_cons.mp hkey' with rfl | hmem'
        · have hgt := Std.OrientedCmp.gt_of_lt (hfirst key hmem)
          rw [hlt] at hgt
          cases hgt
        · exact (ih hrest hmem hmem').cons k

/-- **Flutter commits in the order of the keys**: so does every replica, and what two of them
commit both, they commit in the same order. -/
theorem commits_in_order (hn : cfg.numReplicas = 5 * cfg.f + 1) {as : List FlutterAction}
    (hrun : Run (flutterSystem cfg ∅ clock) ClockForward as c) :
    (∀ i < cfg.numReplicas,
      (c.replicas i).commits.Pairwise fun key key' => candidateCmp key key' = .lt) ∧
    ∀ i < cfg.numReplicas, ∀ j < cfg.numReplicas, ∀ key key',
      key ∈ (c.replicas i).commits → key' ∈ (c.replicas i).commits →
      key ∈ (c.replicas j).commits → key' ∈ (c.replicas j).commits →
      ([key, key'].Sublist (c.replicas i).commits ↔
        [key, key'].Sublist (c.replicas j).commits) := by
  have h := inOrder_of_run hn hrun
  refine ⟨fun i hi => (h.keeps i hi).sorted, fun i hi j hj key key' hki hki' hkj hkj' => ?_⟩
  rw [sublist_pair_iff (h.keeps i hi).sorted hki hki',
    sublist_pair_iff (h.keeps j hj).sorted hkj hkj']

/-! ### Two bets of a client -/

/-- A client bets on time 50 first and on time 40 for its second request, both at replica 0. All
but the last replica vote, two of them receive the votes, and then the clocks at time 100. -/
def twoBets : List FlutterAction :=
  [{ replica := 0, now := 10, source := .client { clientId := 0, clientSeq := 1, bet := 50 } },
    { replica := 0, now := 10, source := .client { clientId := 0, clientSeq := 2, bet := 40 } }] ++
  (List.range 5).flatMap (fun i => reads i 20 0 4) ++
  (List.range 2).flatMap (fun i => [1, 2, 3, 4].flatMap fun j => reads i 20 j 4) ++
  (List.range 5).map (fun i => { replica := i, now := 100, source := .timer }) ++
  (List.range 2).flatMap fun i => (List.range 5).flatMap fun j => reads i 100 j 1

/-- Two replicas commit the lower bet first, though its request has come second. -/
theorem two_bets_in_order : ∃ c,
    Run (flutterSystem .sixReplicas ∅ fun _ => (0, 0)) ClockForward twoBets c ∧
    (c.replicas 0).commits = [(40, 0, 2), (50, 0, 1)] ∧
    (c.replicas 1).commits = [(40, 0, 2), (50, 0, 1)] ∧
    [(40, 0, 2), (50, 0, 1)].Sublist (c.replicas 1).commits := by
  have hsome : ∃ c, twoBets.foldlM
        (fun (c : FlutterCluster) (a : FlutterAction) =>
          if c.time a.replica ≤ a.now then c.next .sixReplicas a else .error .assertion)
        (fresh fun _ => (0, 0)) = .ok c ∧
      (c.replicas 0).commits = [(40, 0, 2), (50, 0, 1)] ∧
      (c.replicas 1).commits = [(40, 0, 2), (50, 0, 1)] := by
    decide +kernel
  obtain ⟨c, hfold, hzero, hone⟩ := hsome
  have hrun : Run (flutterSystem .sixReplicas ∅ fun _ => (0, 0)) ClockForward ([] ++ twoBets) c :=
    run_of_foldlM (.start rfl) (by decide +kernel) (fun _ _ _ h => h) hfold
  refine ⟨c, hrun, hzero, hone, ?_⟩
  have horder := (commits_in_order (by decide) hrun).2 0 (by decide) 1 (by decide) (40, 0, 2)
    (50, 0, 1) (by simp [hzero]) (by simp [hzero]) (by simp [hone]) (by simp [hone])
  exact horder.mp (hzero ▸ List.Sublist.refl _)

end FlutterCluster

end DomBft
