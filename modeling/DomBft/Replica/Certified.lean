import DomBft.Client.Soundness
import DomBft.Replica.Replies
import DomBft.Verify.Soundness

/-!
Certificates of one round, among replicas some of which are Byzantine.

* `Backed`: enough replicas have signed replies for a position of a round with one digest.
* `Backed.continues`: **two of these in one round are about one history**, since two quorums share
  a correct replica, and a correct replica speaks with one voice.
* `Msg.certs`, `backed_of_accepted`: the certificates that a replica takes from a message are
  backed; `FastAt`, `FastAt.backed`: so is what a client takes for committed on the fast path.
* `certificates_agree`: what follows for all certificates and all clients over whole runs.
-/

namespace DomBft

open Fallible Transition
open HashChain (Continues)

namespace Replica

/-! ### Quorums that have spoken -/

section

variable {A : Type}

/-- Replies for the position in the round, with the digest, of as many replicas as a certificate
takes: those among them that are correct have sent theirs. -/
def Backed (cfg : Config) (F : Finset ℕ) (s : ℕ → Replica A) (round seq : ℕ) (digest : Bytes) :
    Prop :=
  ∃ S : Finset ℕ, min cfg.superQuorumSize cfg.quorumSize ≤ S.card ∧ ∀ i ∈ S, i ∉ F →
    ∃ m ∈ (s i).replies, m.round = round ∧ m.seq = seq ∧ m.digest = digest

variable {cfg : Config} {F : Finset ℕ} {s s' : ℕ → Replica A} {round p q : ℕ} {D D' : Bytes}

lemma replies_subset {r r' : Replica A} (h : r.sent <+: r'.sent) : r.replies ⊆ r'.replies :=
  (h.filterMap _).subset

lemma Backed.mono (h : Backed cfg F s round p D) (hs : ∀ i, (s i).replies ⊆ (s' i).replies) :
    Backed cfg F s' round p D := by
  obtain ⟨S, hS, hsent⟩ := h
  refine ⟨S, hS, fun i hi hF => ?_⟩
  obtain ⟨m, hm, heq⟩ := hsent i hi hF
  exact ⟨m, hs i hm, heq⟩

/-- The replies that a replica has signed are those that it has sent. -/
lemma signed_reply_iff {r : Replica A} {m : Reply} :
    r.Signed (Msg.reply m).body ↔ m ∈ r.replies := by
  constructor
  · rintro ⟨⟨dst, msg⟩, hx, hbody⟩
    refine List.mem_filterMap.mpr ⟨(dst, msg), hx, ?_⟩
    cases msg with
    | reply m' =>
        cases hbody
        rfl
    | _ => cases hbody
  · intro hm
    obtain ⟨⟨dst, msg⟩, hx, hmsg⟩ := List.mem_filterMap.mp hm
    refine ⟨(dst, msg), hx, ?_⟩
    cases msg with
    | reply m' =>
        cases hmsg
        rfl
    | _ => cases hmsg

/-- **Two quorums of one round** share a correct replica, which has sent both replies. -/
lemma Backed.exists_common (hwf : cfg.WellFormed) (hrange : F ⊆ Finset.range cfg.numReplicas)
    (hF : F.card ≤ cfg.f) (hids : ∀ i, cfg.numReplicas ≤ i → (s i).replies = [])
    (h : Backed cfg F s round p D) (h' : Backed cfg F s round q D') :
    ∃ i, ∃ m ∈ (s i).replies, ∃ m' ∈ (s i).replies,
      (m.round = round ∧ m.seq = p ∧ m.digest = D) ∧
      (m'.round = round ∧ m'.seq = q ∧ m'.digest = D') := by
  obtain ⟨S, hS, hsent⟩ := h
  obtain ⟨S', hS', hsent'⟩ := h'
  -- who has sent something is one of the replicas
  have hsub : ∀ {T : Finset ℕ} {p : ℕ} {D : Bytes}, (∀ i ∈ T, i ∉ F →
      ∃ m ∈ (s i).replies, m.round = round ∧ m.seq = p ∧ m.digest = D) →
      T ⊆ Finset.range cfg.numReplicas := by
    intro T p D hT i hi
    by_cases hiF : i ∈ F
    · exact hrange hiF
    · obtain ⟨m, hm, -⟩ := hT i hi hiF
      by_contra hout
      rw [hids i (not_lt.mp fun hlt => hout (Finset.mem_range.mpr hlt))] at hm
      cases hm
  obtain ⟨i, hi, hi', hiF⟩ : ∃ i, i ∈ S ∧ i ∈ S' ∧ i ∉ F := by
    refine Quorum.exists_common (hsub hsent) (hsub hsent') ?_
    rw [Finset.card_range]
    simp only [Config.WellFormed, Config.quorumSize, Config.superQuorumSize] at *
    omega
  obtain ⟨m, hm, heq⟩ := hsent i hi hiF
  obtain ⟨m', hm', heq'⟩ := hsent' i hi' hiF
  exact ⟨i, m, hm, m', hm', heq, heq'⟩

/-- **Two quorums of one round are about one history.** -/
lemma Backed.continues [Sha256] (hwf : cfg.WellFormed)
    (hrange : F ⊆ Finset.range cfg.numReplicas) (hF : F.card ≤ cfg.f)
    (hids : ∀ i, cfg.numReplicas ≤ i → (s i).replies = []) (hs : ∀ i, (s i).Spoken)
    (h : Backed cfg F s round p D) (h' : Backed cfg F s round q D') (hle : p ≤ q) :
    Continues entryDigest p D q D' := by
  obtain ⟨i, m, hm, m', hm', ⟨hround, rfl, rfl⟩, hround', rfl, rfl⟩ :=
    h.exists_common hwf hrange hF hids h'
  exact (hs i).chained m hm m' hm' (hround.trans hround'.symm) hle

end

end Replica

/-! ### Certificates and what clients take for committed -/

/-- The certificates in a message of which all signatures are verified: a certificate of a client,
and those in the logs of a proposal. -/
def Msg.certs : Msg → List Cert
  | .cert c => [c]
  | .prePrepare m => m.proposal.startMsgs.flatMap fun m => m.log.cert.toList
  | _ => []

section

variable [SignatureProvider] {cfg : Config}

/-- Each message of a list that verifies has a signature of its own. -/
lemma exists_signature {α : Type} {signer : α → ℕ} {body : α → Msg} {ms : List α}
    {sigs : List Bytes} (h : verifyAll signer body ms sigs = true)
    (hlen : ms.length = sigs.length) {m : α} (hm : m ∈ ms) :
    ∃ sig, (m, sig) ∈ ms.zip sigs ∧
      SignatureProvider.verify (signer m) (body m).body sig = true := by
  obtain ⟨i, hi, rfl⟩ := List.getElem_of_mem hm
  have hzip : (ms[i], sigs[i]) ∈ ms.zip sigs := by
    rw [List.mem_iff_getElem]
    exact ⟨i, by simpa using ⟨hi, hlen ▸ hi⟩, List.getElem_zip⟩
  exact ⟨sigs[i], hzip, List.all_eq_true.mp h _ hzip⟩

/-- All certificates in a proposal that verifies do so. -/
lemma verifyCert_of_mem_proposal {proposal : RepairProposal}
    (h : verifyRepairProposal cfg proposal = .ok true) {m : RepairStart}
    (hm : m ∈ proposal.startMsgs) {c : Cert} (hc : c ∈ m.log.cert) : verifyCert cfg c = true := by
  have hpass : ∀ x ∈ proposal.startMsgs.zip proposal.signatures, StartMsgPasses cfg x := by
    by_contra hno
    exact (verifyStartMsgs_of_not_passes hno).2 h
  have hlen : proposal.startMsgs.length ≤ proposal.signatures.length := by
    by_contra hno
    rw [verifyRepairProposal, verifyStartMsgs_of_passes hpass, if_neg hno] at h
    cases h
  obtain ⟨i, hi, rfl⟩ := List.getElem_of_mem hm
  have hzip : (proposal.startMsgs[i], proposal.signatures[i]) ∈
      proposal.startMsgs.zip proposal.signatures := by
    rw [List.mem_iff_getElem]
    exact ⟨i, by simpa using ⟨hi, hi.trans_le hlen⟩, List.getElem_zip⟩
  have hstart := (hpass _ hzip).2
  rw [verifyRepairStart] at hstart
  by_contra hbad
  have hany : (proposal.startMsgs[i].log.cert.any fun cert => !verifyCert cfg cert) = true := by
    rw [Option.mem_def.mp hc]
    simpa using hbad
  rw [if_pos hany] at hstart
  split_ifs at hstart
  cases hstart

/-- A certificate in a message that has been verified does so itself, and its signatures are among
those of the message. -/
lemma Msg.certs_verified [Sha256] {msg : Msg} {sig : Bytes}
    (h : verifyMessage cfg msg sig = .ok true) {c : Cert} (hc : c ∈ msg.certs) :
    verifyCert cfg c = true ∧ c.signed ⊆ msg.signed sig := by
  cases msg with
  | cert c' =>
      cases List.mem_singleton.mp hc
      exact ⟨Except.ok.inj h, List.subset_cons_self _ _⟩
  | prePrepare m =>
      obtain ⟨m₀, hm₀, hc⟩ := List.mem_flatMap.mp hc
      rw [Option.mem_toList] at hc
      refine ⟨?_, ?_⟩
      · rw [verifyMessage] at h
        dsimp only at h
        split_ifs at h
        · cases h
        · cases h
        · obtain ⟨ok, hok, h⟩ := bind_eq_ok.mp h
          cases ok with
          | true => exact verifyCert_of_mem_proposal hok hm₀ hc
          | false => cases h
      · intro x hx
        have hstart : x ∈ m₀.signed := by
          refine List.mem_append_left _ (List.mem_append_right _ ?_)
          rw [Option.mem_def.mp hc]
          exact hx
        exact List.mem_cons_of_mem _
          (List.mem_append_right _ (List.mem_flatMap.mpr ⟨m₀, hm₀, hstart⟩))
  | _ => cases hc

/-- The replies that a client has counted for the fast path, with what they have in common. -/
def FastAt (cfg : Config) (ms : List (Msg × Bytes)) (clientSeq : UInt32) (round seq : ℕ)
    (digest : Bytes) : Prop :=
  ∃ S : Finset ℕ, cfg.superQuorumSize ≤ S.card ∧ ∃ result, ∀ i ∈ S,
    ∃ m : Reply, SignedBy ms i (.reply m) ∧ m.replicaId = i ∧ m.clientSeq = clientSeq ∧
      m.seq = seq ∧ m.round = round ∧ m.digest = digest ∧ m.result = result

lemma fastJustified_iff {ms : List (Msg × Bytes)} {clientSeq : UInt32} :
    FastJustified cfg ms clientSeq ↔
      ∃ round seq digest, FastAt cfg ms clientSeq round seq digest := by
  constructor
  · rintro ⟨S, hS, seq, round, digest, result, h⟩
    exact ⟨round, seq, digest, S, hS, result, h⟩
  · rintro ⟨round, seq, digest, S, hS, result, h⟩
    exact ⟨S, hS, seq, round, digest, result, h⟩

end

namespace Replica

section

variable {A : Type} [Application A] [Sha256] [PaddedRequestData] [SignatureProvider]
  {cfg : Config} {app : ℕ → A} {F : Finset ℕ} {s : ℕ → Replica A} {e : ReplicaEvent}

/-- **A certificate that is accepted is backed**: by the replies in it, of which none of a correct
replica is made up. -/
lemma backed_of_accepted {now : ℕ} {msg : Msg} {sig : Bytes}
    (hver : (ReplicaEvent.message now msg sig).Verified cfg)
    (hforged : (network cfg app).Unforged F s (.message now msg sig)) {c : Cert}
    (hc : c ∈ msg.certs) {m : Reply} (hm : m ∈ c.replies) :
    Backed cfg F s m.round m.seq m.digest := by
  obtain ⟨hcert, hsub⟩ := Msg.certs_verified hver hc
  obtain ⟨hsize, hlen, hverify, hkeys, hids⟩ := verifyCert_eq_true hcert
  refine ⟨(c.replies.map (·.replicaId)).toFinset, ?_, fun i hi hF => ?_⟩
  · rw [List.card_toFinset]
    exact hsize.trans hids
  · obtain ⟨m', hm', rfl⟩ := List.mem_map.mp (List.mem_toFinset.mp hi)
    obtain ⟨sig', hzip, hsig⟩ := exists_signature hverify hlen hm'
    have hkey : m'.key = m.key := eq_of_dedup_length_le_one hkeys
      (List.mem_map_of_mem hm') (List.mem_map_of_mem hm)
    have hsigned : ((Msg.reply m').body, sig') ∈ c.signed := by
      rw [Cert.signed, List.zip_map_left]
      exact List.mem_map_of_mem hzip
    have hsent := hforged m'.replicaId hF _ ⟨_, hsub hsigned, rfl, hsig⟩
    exact ⟨m', signed_reply_iff.mp hsent, congrArg ReplyKey.round hkey,
      congrArg ReplyKey.seq hkey, congrArg ReplyKey.digest hkey⟩

omit [Application A] [Sha256] [PaddedRequestData] in
/-- **What a client takes for committed on the fast path is backed.** -/
lemma backed_of_fastAt {ms : List (Msg × Bytes)} {clientSeq : UInt32} {round seq : ℕ}
    {digest : Bytes}
    (hms : ∀ x ∈ ms, ∀ j ∉ F, SignatureProvider.verify j x.1.body x.2 = true →
      (s j).Signed x.1.body)
    (h : FastAt cfg ms clientSeq round seq digest) : Backed cfg F s round seq digest := by
  obtain ⟨S, hS, result, hreplies⟩ := h
  refine ⟨S, (min_le_left _ _).trans hS, fun i hi hF => ?_⟩
  obtain ⟨m, ⟨sig, hmem, hsig⟩, -, -, hseq, hround, hdigest, -⟩ := hreplies i hi
  exact ⟨m, signed_reply_iff.mp (hms _ hmem i hF hsig), hround, hseq, hdigest⟩

/-! ### Runs of the network -/

/-- What has been decided in a run that stands at `(es, s)`: what a certificate says that some
replica has accepted, and what a client takes for committed on the fast path, where none of the
signatures that it has counted is made up. -/
inductive Decides (cfg : Config) (F : Finset ℕ) (es : List (ℕ × ReplicaEvent))
    (s : ℕ → Replica A) : ℕ → ℕ → Bytes → Prop
  | accepted {i now : ℕ} {msg : Msg} {sig : Bytes} {c : Cert} {m : Reply} :
      (i, .message now msg sig) ∈ es → c ∈ msg.certs → m ∈ c.replies →
      Decides cfg F es s m.round m.seq m.digest
  | fast {ms : List (Msg × Bytes)} {clientSeq : UInt32} {round seq : ℕ} {digest : Bytes} :
      (∀ x ∈ ms, ∀ j ∉ F, SignatureProvider.verify j x.1.body x.2 = true →
        (s j).Signed x.1.body) →
      FastAt cfg ms clientSeq round seq digest → Decides cfg F es s round seq digest

variable {es : List (ℕ × ReplicaEvent)}

/-- The invariant of the network: every replica speaks with one voice, who is no replica says
nothing, and the certificates that have been accepted are backed. -/
structure Agreeing (cfg : Config) (F : Finset ℕ) (es : List (ℕ × ReplicaEvent))
    (s : ℕ → Replica A) : Prop where
  spoken : ∀ i, (s i).Spoken
  wellFormed : ∀ i, (s i).log.WellFormed
  inRange : ∀ i, (s i).core.InRange
  ids : ∀ i, cfg.numReplicas ≤ i → (s i).replies = []
  backed : ∀ i now msg sig, (i, .message now msg sig) ∈ es → ∀ c ∈ msg.certs, ∀ m ∈ c.replies,
    Backed cfg F s m.round m.seq m.digest

lemma Agreeing.step (hs : Agreeing cfg F es s) {i : ℕ} (hv : (s i).OneVoice cfg e)
    {s' : ℕ → Replica A}
    (h : ((network cfg app).system F).step s (i, e) s') : Agreeing cfg F (es ++ [(i, e)]) s' := by
  obtain ⟨-, hforged, t, ⟨hi, hver, hrange, hhandle⟩, rfl⟩ := h
  dsimp only at hforged hi hver hrange hhandle
  have hgrow : ∀ j, (s j).replies ⊆ (Function.update s i t j).replies := by
    intro j
    by_cases hj : j = i
    · subst hj
      rw [Function.update_self]
      exact replies_subset (handle_views hhandle).sent
    · rw [Function.update_of_ne hj]
      exact List.Subset.refl _
  have hupdate : ∀ {P : Replica A → Prop}, (∀ j, P (s j)) → P t →
      ∀ j, P (Function.update s i t j) := by
    intro P hP ht j
    by_cases hj : j = i
    · subst hj
      rwa [Function.update_self]
    · rw [Function.update_of_ne hj]
      exact hP j
  refine ⟨?_, ?_, ?_, fun j hj => ?_, ?_⟩
  · exact hupdate hs.spoken
      (handle_spoken hv (hs.spoken i) (hs.wellFormed i) hrange (hs.inRange i) hhandle)
  · exact hupdate (P := fun r => r.log.WellFormed) hs.wellFormed (hv.wellFormed t hhandle)
  · exact hupdate (P := fun r => r.core.InRange) hs.inRange
      ((handle_core hhandle).le hv.keepsRound hrange (hs.inRange i)).2.2
  · rw [Function.update_of_ne (by omega)]
    exact hs.ids j hj
  · intro j now msg sig hmem c hc m hm
    rcases List.mem_append.mp hmem with hold | hnew
    · exact (hs.backed j now msg sig hold c hc m hm).mono hgrow
    · obtain ⟨rfl, rfl⟩ := Prod.mk.inj (List.mem_singleton.mp hnew)
      exact (backed_of_accepted hver hforged hc hm).mono hgrow

lemma run_agreeing
    (h : Run ((network cfg app).system F) (fun _ s x => (s x.1).OneVoice cfg x.2) es s) :
    Agreeing cfg F es s := by
  refine h.invariant (P := fun es s => Agreeing cfg F es s) (fun s hs => ?_)
    fun es s x s' _ ih hv hstep => ih.step hv hstep
  have hfresh : ∀ i, s i = Replica.fresh i (app i) := hs
  refine ⟨fun i => ?_, fun i => ?_, fun i => ?_, fun i _ => ?_, nofun⟩
  · rw [hfresh i]
    exact .fresh i (app i)
  · rw [hfresh i]
    exact Log.wellFormed_fresh (app i)
  · rw [hfresh i]
    exact ⟨Nat.one_pos, Nat.one_lt_two_pow (by decide), by simp [core, Replica.fresh]⟩
  · rw [hfresh i]
    rfl

omit [Application A] [PaddedRequestData] in
lemma Decides.backed {round seq : ℕ} {digest : Bytes} (hs : Agreeing cfg F es s)
    (h : Decides cfg F es s round seq digest) : Backed cfg F s round seq digest := by
  cases h with
  | accepted hmem hc hm => exact hs.backed _ _ _ _ hmem _ hc _ hm
  | fast hms hfast => exact backed_of_fastAt hms hfast

/-- **Agreement within a round.**  Whatever two certificates that replicas have accepted, and two
clients that have committed on the fast path, say of one round is about one history: that with the
earlier position can be continued to the other one, so that no two requests are certified or
committed at one position. -/
theorem certificates_agree (hc : CollisionFree) (hwf : cfg.WellFormed)
    (hids : F ⊆ Finset.range cfg.numReplicas) (hF : F.card ≤ cfg.f) :
    ∀ es s, Run ((network cfg app).system F) (fun _ s x => (s x.1).OneVoice cfg x.2) es s →
      ∀ round p D q D', Decides cfg F es s round p D → Decides cfg F es s round q D' → p ≤ q →
        Continues entryDigest p D q D' ∧ (p = q → D = D') ∧
        ∀ h h' : List Request, h.length = p → h'.length = q → logDigest h = D →
          logDigest h' = D' → h <+: h' := by
  intro es s hrun round p D q D' hp hq hle
  have hs := run_agreeing hrun
  have hcont := (hp.backed hs).continues hwf hids hF hs.ids hs.spoken (hq.backed hs) hle
  refine ⟨hcont, fun heq => (hcont.digest_eq heq.ge).symm, ?_⟩
  rintro h h' rfl rfl rfl rfl
  exact hcont.isPrefix (fun _ _ => logDigest_inj_of_length hc)

end

/-! ### A run with a certificate -/

section

attribute [local instance] prefixSha shortPaddedRequestData counterWire fourKeys

/-- The digest of the first `k` requests of the client `0`, without a payload. -/
def countedDigest : ℕ → Bytes
  | 0 => []
  | k + 1 => (LogEntry.create (k + 1) 0 (UInt32.ofNat (k + 1)) [] (countedDigest k)).digest

/-- The reply of the replica `i` to the request `k`. -/
def countedReply (k i : ℕ) : Reply where
  clientSeq := UInt32.ofNat k
  round := 1
  seq := k
  replicaId := i
  result := [9, UInt8.ofNat k, 0, 0, 0, 0, 0, 0, 0]
  digest := countedDigest k

/-- A certificate for the first request. -/
def countedCert : Cert where
  seq := 1
  round := 1
  replies := [0, 1, 2].map (countedReply 1)
  signatures := [[0], [1], [2]]

/-- Two requests at three replicas, of which one then receives the certificate. -/
def countedEvents : List (ℕ × ReplicaEvent) :=
  ([0, 1, 2].flatMap fun i => [(i, .request 1 5 { clientId := 0, clientSeq := 1 }),
    (i, .request 1 6 { clientId := 0, clientSeq := 2 })]) ++
    [(0, .message 2 (.cert countedCert) [])]

/-- The replies of all four replicas to the second request, as a client counts them. -/
def countedMessages : List (Msg × Bytes) :=
  (List.range 4).map fun i => (.reply (countedReply 2 i), [UInt8.ofNat i])

/-- The correct ones of the four replicas speak in order. -/
def AllInOrder (s : ℕ → Replica Counter) (e : ReplicaEvent) : Prop :=
  ∀ i ∈ [0, 1, 2], (s i).SpeaksInOrder .oneFault e

instance (s : ℕ → Replica Counter) (e : ReplicaEvent) : Decidable (AllInOrder s e) :=
  inferInstanceAs (Decidable (∀ i ∈ [0, 1, 2], (s i).SpeaksInOrder .oneFault e))

lemma run_allInOrder {es : List (ℕ × ReplicaEvent)} {s : ℕ → Replica Counter}
    (h : Run ((network .oneFault fun _ => {}).system {3}) (fun _ s x => AllInOrder s x.2) es s) :
    Run ((network .oneFault fun _ => {}).system {3})
      (fun _ s x => (s x.1).OneVoice .oneFault x.2) es s := by
  induction h with
  | start hinit => exact .start hinit
  | @step es s s' x _ horder hstep ih =>
      obtain ⟨hF, -, t, ⟨hlt, -⟩, -⟩ := id hstep
      have hmem : x.1 ∈ [0, 1, 2] := by
        have hlt' : x.1 < 4 := hlt
        rw [Finset.mem_singleton] at hF
        simp only [List.mem_cons, List.not_mem_nil, or_false]
        omega
      exact ih.step ((horder x.1 hmem).oneVoice ((run_agreeing ih).inRange x.1)) hstep

/-- The replies of the correct replicas to the second request make it committed. -/
lemma decides_second {cfg : Config} {es : List (ℕ × ReplicaEvent)} {s : ℕ → Replica Counter}
    (hcfg : cfg.superQuorumSize ≤ 4) (hsent : ∀ i ∈ [0, 1, 2], countedReply 2 i ∈ (s i).replies) :
    Decides cfg {3} es s 1 2 (countedDigest 2) := by
  have hms : ∀ x ∈ countedMessages, ∀ j ∉ ({3} : Finset ℕ),
      SignatureProvider.verify j x.1.body x.2 = true → (s j).Signed x.1.body := by
    intro x hx j hj hverify
    obtain ⟨i, hi, rfl⟩ := List.mem_map.mp hx
    obtain ⟨hlt, hsig⟩ := Bool.and_eq_true_iff.mp hverify
    rw [decide_eq_true_eq] at hlt
    rw [List.mem_range] at hi
    have hij : i = j := by
      revert hsig
      interval_cases i <;> interval_cases j <;> decide
    rw [Finset.mem_singleton] at hj
    have hmem : j ∈ [0, 1, 2] := by
      simp only [List.mem_cons, List.not_mem_nil, or_false]
      omega
    rw [hij]
    exact signed_reply_iff.mpr (hsent j hmem)
  have hat : FastAt cfg countedMessages 2 1 2 (countedDigest 2) := by
    refine ⟨Finset.range 4, hcfg, _, fun i hi => ⟨countedReply 2 i, ⟨[UInt8.ofNat i], ?_, ?_⟩,
      rfl, rfl, rfl, rfl, rfl, rfl⟩⟩
    · exact List.mem_map_of_mem (List.mem_range.mpr (Finset.mem_range.mp hi))
    · exact Bool.and_eq_true_iff.mpr
        ⟨decide_eq_true (Finset.mem_range.mp hi), beq_self_eq_true _⟩
  exact .fast hms hat

/-- A certificate for the first request, and the replies of all four replicas to the second one. -/
theorem certificates_agree_counted : ∃ s : ℕ → Replica Counter,
    Run ((network .oneFault fun _ => {}).system {3})
      (fun _ s x => (s x.1).OneVoice .oneFault x.2) countedEvents s ∧
    Decides .oneFault {3} countedEvents s 1 1 (countedDigest 1) ∧
    Decides .oneFault {3} countedEvents s 1 2 (countedDigest 2) ∧
    Continues entryDigest 1 (countedDigest 1) 2 (countedDigest 2) := by
  have hsome : ∃ s, countedEvents.foldlM (deliver .oneFault {3} AllInOrder)
        (fun i => fresh i ({} : Counter)) = .ok s ∧
      ∀ i ∈ [0, 1, 2], countedReply 2 i ∈ (s i).replies := by
    decide +kernel
  obtain ⟨s, hfold, hsent⟩ := hsome
  have hrun : Run ((network .oneFault fun _ => ({} : Counter)).system {3})
      (fun _ s x => AllInOrder s x.2) ([] ++ countedEvents) s :=
    run_of_deliver (.start fun _ => rfl) hfold
  replace hrun := run_allInOrder hrun
  have hcert : Decides .oneFault {3} countedEvents s 1 1 (countedDigest 1) :=
    .accepted (m := countedReply 1 0) (List.mem_append_right _ (List.mem_singleton.mpr rfl))
      (List.mem_singleton.mpr rfl) (by decide)
  have hfast : Decides .oneFault {3} countedEvents s 1 2 (countedDigest 2) :=
    decides_second le_rfl hsent
  have hwf : Config.oneFault.WellFormed := rfl
  exact ⟨s, hrun, hcert, hfast, (certificates_agree prefixSha_collisionFree hwf (by decide)
    (by decide) _ _ hrun _ _ _ _ _ hcert hfast (by decide)).1⟩

end

end Replica

end DomBft
