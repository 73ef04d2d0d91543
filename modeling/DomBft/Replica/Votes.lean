import DomBft.Lib.OrderedMap
import DomBft.Log.Operations
import DomBft.Replica.Frame

/-!
Equal logs, equal votes for a checkpoint: what a stream of requests leaves behind beside the
entries of the log.

* `ClientRecord.Counts`: a record that counts a list of requests, and has seen some clients
  beside.  `digest_inj`: its digest tells which clients.
* `Log.SameEntries`, `Log.replay`: the log without its record, as a function of its requests.
* `RequestEvent`, `requestSystem`: the runs of `processClientRequest` and `Log::addEntry`.
* `ownCommit`: the commit of a replica for a checkpoint at the end of its log.
* `equal_logs_equal_votes`: two runs that end with the same entries vote alike exactly if the
  same clients have sent a request.  `zero_splits_votes`: a request with number `0` is never
  added to the log, but its client is added to the record.
-/

namespace DomBft

open Std Transition Fallible

/-! ### Records -/

/-- The sequence of a client after its requests in a list. -/
def ClientSequence.ofRequests (c : UInt32) (rs : List Request) : ClientSequence :=
  ((rs.filter (·.clientId = c)).map (·.clientSeq)).foldl (fun s x => (s.update x).1) {}

namespace ClientSequence

lemma ofRequests_concat_self {c : UInt32} {rs : List Request} {a : Request} (h : a.clientId = c) :
    ofRequests c (rs ++ [a]) = ((ofRequests c rs).update a.clientSeq).1 := by
  simp [ofRequests, h]

lemma ofRequests_concat_ne {c : UInt32} {rs : List Request} {a : Request} (h : a.clientId ≠ c) :
    ofRequests c (rs ++ [a]) = ofRequests c rs := by
  simp [ofRequests, h]

lemma ofRequests_eq_default {c : UInt32} {rs : List Request} (h : ∀ a ∈ rs, a.clientId ≠ c) :
    ofRequests c rs = {} := by
  have hnil : rs.filter (·.clientId = c) = [] := by simpa [List.filter_eq_nil_iff] using h
  rw [ofRequests, hnil]
  rfl

/-- A number that is not new changes nothing. -/
lemma update_of_not_isNew {s : ClientSequence} {x : UInt32} (h : (s.update x).2 = false) :
    (s.update x).1 = s := by
  rw [update] at h ⊢
  split_ifs at h ⊢
  rfl

end ClientSequence

namespace ClientRecord

/-- The record of a list of requests, which has seen some clients. -/
structure Counts (r : ClientRecord) (seen : UInt32 → Prop) (rs : List Request) : Prop where
  seen_of_mem : ∀ a ∈ rs, seen a.clientId
  of_seen : ∀ c, seen c → r.sequences[c]? = some (.ofRequests c rs)
  of_not_seen : ∀ c, ¬seen c → r.sequences[c]? = none

namespace Counts

variable {r r' : ClientRecord} {seen seen' : UInt32 → Prop} {rs : List Request}

lemma empty : Counts {} (fun _ => False) [] :=
  ⟨by simp, by simp, fun _ _ => ExtTreeMap.getElem?_empty⟩

lemma getD (h : r.Counts seen rs) (c : UInt32) :
    (r.sequences[c]?).getD {} = .ofRequests c rs := by
  by_cases hc : seen c
  · rw [h.of_seen c hc, Option.getD_some]
  · rw [h.of_not_seen c hc, Option.getD_none, ClientSequence.ofRequests_eq_default]
    intro a ha hac
    exact hc (hac ▸ h.seen_of_mem a ha)

/-- A request that is new, or one that is not: the client has been seen in both cases. -/
lemma update (h : r.Counts seen rs) (a : Request) :
    (r.update a.clientId a.clientSeq).1.Counts (fun c => seen c ∨ c = a.clientId)
      (if (r.update a.clientId a.clientSeq).2 then rs ++ [a] else rs) := by
  have hget : (r.update a.clientId a.clientSeq).1.sequences =
      r.sequences.insert a.clientId
        ((ClientSequence.ofRequests a.clientId rs).update a.clientSeq).1 := by
    rw [ClientRecord.update, h.getD]
  have hnew : (r.update a.clientId a.clientSeq).2 =
      ((ClientSequence.ofRequests a.clientId rs).update a.clientSeq).2 := by
    rw [ClientRecord.update, h.getD]
  refine ⟨?_, ?_, ?_⟩
  · intro b hb
    split_ifs at hb
    · rcases List.mem_append.mp hb with hb | hb
      · exact .inl (h.seen_of_mem b hb)
      · exact .inr (by rw [List.mem_singleton.mp hb])
    · exact .inl (h.seen_of_mem b hb)
  · intro c hc
    rw [hget, ExtTreeMap.getElem?_insert, hnew]
    by_cases hca : a.clientId = c
    · subst hca
      rw [if_pos ReflCmp.compare_self]
      split_ifs with hn
      · rw [ClientSequence.ofRequests_concat_self rfl]
      · rw [ClientSequence.update_of_not_isNew (by simpa using hn)]
    · rw [if_neg (by rwa [Std.compare_eq_iff_eq]),
        h.of_seen c (hc.resolve_right fun h => hca h.symm)]
      split_ifs
      · rw [ClientSequence.ofRequests_concat_ne hca]
      · rfl
  · intro c hc
    rw [not_or] at hc
    rw [hget, OrderedMap.getElem?_insert_of_ne hc.2, h.of_not_seen c hc.1]

/-- The clients in the record are those that have been seen. -/
lemma mem_iff (h : r.Counts seen rs) (c : UInt32) : c ∈ r.sequences ↔ seen c := by
  rw [ExtTreeMap.mem_iff_isSome_getElem?]
  by_cases hc : seen c
  · simp [h.of_seen c hc, hc]
  · simp [h.of_not_seen c hc, hc]

/-- What the digest of a client covers. -/
def encode (rs : List Request) (c : UInt32) : Bytes :=
  le32 c ++ le32 (ClientSequence.ofRequests c rs).lastSeq ++
    (ClientSequence.ofRequests c rs).missedSeqs.toList.flatMap le32

lemma digestInput_eq (h : r.Counts seen rs) :
    r.digestInput = r.sequences.keys.flatMap (encode rs) := by
  rw [digestInput, ← ExtTreeMap.map_fst_toList_eq_keys, List.flatMap_map]
  refine List.flatMap_congr fun x hx => ?_
  have hget := ExtTreeMap.mem_toList_iff_getElem?_eq_some.mp hx
  have hseen := (h.mem_iff x.1).mp (ExtTreeMap.mem_iff_isSome_getElem?.mpr (by simp [hget]))
  rw [h.of_seen x.1 hseen, Option.some_inj] at hget
  simp only [encode, hget]

/-- A list of clients can be read back from what is hashed. -/
lemma flatMap_encode_inj {cs cs' : List UInt32}
    (h : cs.flatMap (encode rs) = cs'.flatMap (encode rs)) : cs = cs' := by
  induction cs generalizing cs' with
  | nil =>
      cases cs' with
      | nil => rfl
      | cons c cs' => simp [encode, le32] at h
  | cons c cs ih =>
      cases cs' with
      | nil => simp [encode, le32] at h
      | cons c' cs' =>
          rw [List.flatMap_cons, List.flatMap_cons] at h
          have hc : c = c' := by
            simp only [encode, List.append_assoc] at h
            exact le32_injective (List.append_inj h rfl).1
          subst hc
          rw [ih (List.append_cancel_left h)]

/-- Records of the same requests have the same digest exactly if they have seen the same
clients. -/
lemma digest_eq_iff [Sha256] (hc : CollisionFree) (h : r.Counts seen rs) (h' : r'.Counts seen' rs) :
    r.digest = r'.digest ↔ ∀ c, seen c ↔ seen' c := by
  constructor
  · intro hd c
    have hin := hc.injective hd
    rw [h.digestInput_eq, h'.digestInput_eq] at hin
    rw [← h.mem_iff, ← h'.mem_iff, ← ExtTreeMap.mem_keys, ← ExtTreeMap.mem_keys,
      flatMap_encode_inj hin]
  · intro hs
    have hseq : r.sequences = r'.sequences := by
      refine ExtTreeMap.ext_getElem? fun c => ?_
      by_cases hc : seen c
      · rw [h.of_seen c hc, h'.of_seen c ((hs c).mp hc)]
      · rw [h.of_not_seen c hc, h'.of_not_seen c fun hc' => hc ((hs c).mpr hc')]
    rw [digest, digest, digestInput, digestInput, hseq]

end Counts

end ClientRecord

/-! ### Logs -/

/-- The entry without the deadline of its request, which no digest covers. -/
def LogEntry.dropDeadline (e : LogEntry) : LogEntry := { e with deadline := 0 }

namespace Log

variable {A : Type} {l l' l'' l₁ : Log A}

/-- Two logs with the same entries and the same application, deadlines and records apart. -/
structure SameEntries (l l' : Log A) : Prop where
  log : l.log.map LogEntry.dropDeadline = l'.log.map LogEntry.dropDeadline
  nextSeq : l.nextSeq = l'.nextSeq
  stable : l.stableCheckpoint = l'.stableCheckpoint
  app : l.app = l'.app

namespace SameEntries

lemma refl (l : Log A) : SameEntries l l := ⟨rfl, rfl, rfl, rfl⟩

lemma symm (h : SameEntries l l') : SameEntries l' l :=
  ⟨h.log.symm, h.nextSeq.symm, h.stable.symm, h.app.symm⟩

lemma trans (h : SameEntries l l') (h' : SameEntries l' l'') : SameEntries l l'' :=
  ⟨h.log.trans h'.log, h.nextSeq.trans h'.nextSeq, h.stable.trans h'.stable, h.app.trans h'.app⟩

/-- What is read of an entry but its deadline is the same in both logs. -/
lemma map_eq {β : Type} (h : SameEntries l l') {g : LogEntry → β}
    (hg : ∀ e : LogEntry, g e.dropDeadline = g e) : l.log.map g = l'.log.map g := by
  have hmap := congrArg (List.map g) h.log
  simpa only [List.map_map, Function.comp_def, hg] using hmap

lemma setDeadline {seq deadline : ℕ} (h : l.setDeadline seq deadline = .ok l') :
    SameEntries l l' := by
  obtain ⟨i, rfl⟩ := setDeadline_eq h
  refine ⟨List.ext_getElem? fun j => ?_, rfl, rfl, rfl⟩
  rw [List.getElem?_map, List.getElem?_map, List.getElem?_modify]
  cases l.log[j]? with
  | none => rfl
  | some e => by_cases hij : i = j <;> simp [hij, LogEntry.dropDeadline]

lemma prevDigest (h : SameEntries l l') : l.prevDigest = l'.prevDigest := by
  have hlast := congrArg List.getLast? (h.map_eq (g := (·.digest)) fun _ => rfl)
  rw [List.getLast?_map, List.getLast?_map] at hlast
  rw [Log.prevDigest, Log.prevDigest, h.nextSeq, h.stable]
  cases hl : l.log.getLast? <;> cases hl' : l'.log.getLast? <;> simp_all

/-- The digests that are read at a position. -/
lemma slot_digest (h : SameEntries l l') (p : ℕ) :
    (·.digest) <$> l.slot p = (·.digest) <$> l'.slot p := by
  have hhead := congrArg List.head? (h.map_eq (g := (·.seq)) fun _ => rfl)
  rw [List.head?_map, List.head?_map] at hhead
  have hget : ∀ i : ℕ, (l.log[i]?).map (fun e => (e.seq, e.digest)) =
      (l'.log[i]?).map fun e => (e.seq, e.digest) := fun i => by
    rw [← List.getElem?_map, ← List.getElem?_map, h.map_eq fun _ => rfl]
  rw [slot, slot]
  cases hl : l.log.head? with
  | none =>
      rw [hl, Option.map_none, eq_comm, Option.map_eq_none_iff] at hhead
      rw [hhead]
  | some e =>
      rw [hl, Option.map_some, eq_comm, Option.map_eq_some_iff] at hhead
      obtain ⟨e', hl', hseq⟩ := hhead
      simp only [hl', hseq]
      specialize hget (p - e.seq)
      cases hi : l.log[p - e.seq]? <;> cases hi' : l'.log[p - e.seq]? <;> simp_all
      split_ifs <;> simp_all [Functor.map, Except.map]

lemma getDigestAt (h : SameEntries l l') (p : ℕ) : l.getDigestAt p = l'.getDigestAt p := by
  have hnil : l.log = [] ↔ l'.log = [] := by
    have hlen := congrArg List.length h.log
    rw [List.length_map, List.length_map] at hlen
    rw [← List.length_eq_zero_iff, ← List.length_eq_zero_iff, hlen]
  have hin : l.inRange p ↔ l'.inRange p := by
    rw [inRange, inRange, h.stable, h.nextSeq, ne_eq, ne_eq, hnil]
  rw [Log.getDigestAt, Log.getDigestAt, h.stable, h.slot_digest, if_congr hin rfl rfl]

end SameEntries

variable [Sha256] [PaddedRequestData] [Application A]

/-- An entry behind logs with the same entries. -/
lemma SameEntries.append (h : SameEntries l l') {c s : UInt32} {req : Bytes} {res : Option Bytes}
    (ha : l.append c s req = .ok (l₁, res)) :
    ∃ l₁', l'.append c s req = .ok (l₁', res) ∧ SameEntries l₁ l₁' := by
  rw [Log.append, bind_eq_ok] at ha
  obtain ⟨d, hd, ha⟩ := ha
  rw [Log.append, ← h.prevDigest, hd, ok_bind, ← h.nextSeq, ← h.app]
  cases hreq : reqData req with
  | none =>
      rw [hreq] at ha
      cases pure_eq_ok.mp ha
      refine ⟨_, rfl, ?_, rfl, h.stable, rfl⟩
      rw [List.map_append, List.map_append, h.log]
  | some data =>
      rw [hreq] at ha
      obtain ⟨⟨app, r⟩, happ, ha⟩ := bind_eq_ok.mp ha
      cases pure_eq_ok.mp ha
      simp only [happ, ok_bind]
      refine ⟨_, rfl, ?_, rfl, h.stable, rfl⟩
      rw [List.map_append, List.map_append, h.log]

/-- The log after a list of requests, none of which is held against the record. -/
def replay (l : Log A) (rs : List Request) : Except Fault (Log A) :=
  rs.foldlM (fun l a => (·.1) <$> l.append a.clientId a.clientSeq a.request) l

/-- A log that its requests determine, record and deadlines apart. -/
def Replays (app : A) (l : Log A) : Prop :=
  ∃ l', (fresh app).replay (l.log.map LogEntry.toRequest) = .ok l' ∧ SameEntries l' l

namespace Replays

variable {app : A}

lemma fresh (app : A) : Replays app (fresh app) := ⟨_, rfl, .refl _⟩

lemma sameEntries (h : Replays app l) (hl : SameEntries l l') : Replays app l' := by
  obtain ⟨l₀, h₀, hs⟩ := h
  refine ⟨l₀, ?_, hs.trans hl⟩
  rw [← hl.map_eq (g := LogEntry.toRequest) fun _ => rfl]
  exact h₀

lemma append (h : Replays app l) {c s : UInt32} {req : Bytes} {res : Option Bytes}
    (ha : l.append c s req = .ok (l', res)) :
    Replays app l' ∧
      l'.log.map LogEntry.toRequest = l.log.map LogEntry.toRequest ++ [⟨c, s, req⟩] := by
  have hreqs : l'.log.map LogEntry.toRequest =
      l.log.map LogEntry.toRequest ++ [⟨c, s, req⟩] := by
    rw [Log.append, bind_eq_ok] at ha
    obtain ⟨d, -, ha⟩ := ha
    split at ha
    · cases pure_eq_ok.mp ha
      rw [List.map_append]
      rfl
    · obtain ⟨⟨app, r⟩, -, ha⟩ := bind_eq_ok.mp ha
      cases pure_eq_ok.mp ha
      rw [List.map_append]
      rfl
  obtain ⟨l₀, h₀, hs⟩ := h
  obtain ⟨l₁, h₁, hs₁⟩ := hs.symm.append ha
  refine ⟨⟨l₁, ?_, hs₁.symm⟩, hreqs⟩
  rw [hreqs, replay, List.foldlM_append, ← replay, h₀, ok_bind, List.foldlM_cons, h₁]
  rfl

/-- **The requests determine the entries.** -/
lemma unique (h : Replays app l) (h' : Replays app l')
    (hreqs : l.log.map LogEntry.toRequest = l'.log.map LogEntry.toRequest) :
    SameEntries l l' := by
  obtain ⟨l₀, h₀, hs⟩ := h
  obtain ⟨l₁, h₁, hs'⟩ := h'
  rw [hreqs, h₁] at h₀
  cases h₀
  exact hs.symm.trans hs'

end Replays

end Log

/-! ### Runs -/

namespace Replica

variable {A : Type} [Application A] [Sha256] [PaddedRequestData]

/-- An element of a stream of requests. -/
inductive RequestEvent where
  | processClientRequest (now : ℕ) (m : ClientRequestProto) (queued : Bool)
  | addEntry (clientId clientSeq : UInt32) (req : Bytes)
deriving DecidableEq, Repr

namespace RequestEvent

/-- A replica takes a request. -/
def Step (cfg : Config) (r : Replica A) (e : RequestEvent) (r' : Replica A) : Prop :=
  match e with
  | .processClientRequest now m queued => r.processClientRequest cfg now m queued = .ok r'
  | .addEntry c s req => ∃ log res, r.log.addEntry c s req = .ok (log, res) ∧ r' = { r with log }

/-- The request comes from a client, and the replica serves it. -/
def ComesFrom (cfg : Config) (c : UInt32) : RequestEvent → Prop
  | .processClientRequest _ m _ => c = m.clientId ∧ c.toNat ≤ cfg.numClients
  | .addEntry c' _ _ => c = c'

end RequestEvent

/-- A replica on a stream of requests. -/
def requestSystem (cfg : Config) (replicaId : ℕ) (app : A) :
    System (Replica A) RequestEvent where
  init r := r = .fresh replicaId app
  step := RequestEvent.Step cfg

/-- A request of the client is in the stream. -/
def Heard (cfg : Config) (es : List RequestEvent) (c : UInt32) : Prop :=
  ∃ e ∈ es, e.ComesFrom cfg c

/-- The commit of a replica for a checkpoint at the end of its log: `getOwnCommit` of a collector
with the state that `startCheckpoint` gives it. -/
def ownCommit (r : Replica A) (needsSnapshot : Bool) : Except Fault Commit := do
  let seq := r.log.nextSeq - 1
  let digest ← r.log.getDigestAt seq
  let coll := CheckpointCollector.create r.replicaId r.round seq needsSnapshot
  ((coll.addOwnState digest r.log.clientRecord).addOwnSnapshot
    (Application.takeSnapshot r.log.app)).getOwnCommit

/-- Two replicas vote alike for a checkpoint at the end of their logs. -/
def SameVotes (r r' : Replica A) : Prop :=
  r.log.clientRecord.digest = r'.log.clientRecord.digest ∧
    ∀ needsSnapshot, Commit.keyTuple <$> r.ownCommit needsSnapshot =
      Commit.keyTuple <$> r'.ownCommit needsSnapshot

/-- What a stream of requests leaves behind. -/
structure Counted (cfg : Config) (app : A) (es : List RequestEvent) (r : Replica A) : Prop where
  round : r.round = 1
  committed : r.log.committedCheckpoint = {}
  replays : r.log.Replays app
  counts : r.log.clientRecord.Counts (Heard cfg es) (r.log.log.map LogEntry.toRequest)

namespace Counted

variable {cfg : Config} {app : A} {es : List RequestEvent} {r r' : Replica A}

omit [Sha256] [PaddedRequestData] in
lemma heard_concat (e : RequestEvent) (c : UInt32) :
    Heard cfg (es ++ [e]) c ↔ Heard cfg es c ∨ e.ComesFrom cfg c := by
  simp [Heard, or_and_right, exists_or]

/-- A request of a client that is served, with its entry where it is new. -/
lemma addEntry (h : Counted cfg app es r) {e : RequestEvent} {c s : UInt32} {req : Bytes}
    {log : Log A} {res : Option Bytes} (he : ∀ c', e.ComesFrom cfg c' ↔ c' = c)
    (ha : r.log.addEntry c s req = .ok (log, res)) (hround : r'.round = r.round)
    (hcommitted : r'.log.committedCheckpoint = log.committedCheckpoint)
    (hrecord : r'.log.clientRecord = log.clientRecord) (hlog : log.SameEntries r'.log) :
    Counted cfg app (es ++ [e]) r' := by
  have hcounts := h.counts.update ⟨c, s, req⟩
  have hheard : (fun c' => Heard cfg es c' ∨ c' = c) = Heard cfg (es ++ [e]) := by
    funext c'
    rw [eq_iff_iff, heard_concat, he]
  simp only [hheard] at hcounts
  have hreqs := hlog.map_eq (g := LogEntry.toRequest) fun _ => rfl
  simp only [Log.addEntry, if_true] at ha
  cases hnew : (r.log.clientRecord.update c s).2 with
  | false =>
      rw [hnew, if_neg (by simp)] at ha hcounts
      cases Except.ok.inj ha
      refine ⟨hround.trans h.round, hcommitted.trans h.committed,
        h.replays.sameEntries ⟨hlog.log, hlog.nextSeq, hlog.stable, hlog.app⟩, ?_⟩
      rw [hrecord, ← hreqs]
      exact hcounts
  | true =>
      rw [hnew, if_pos rfl] at ha hcounts
      have hreplays : Log.Replays app
          { r.log with clientRecord := (r.log.clientRecord.update c s).1 } :=
        h.replays.sameEntries ⟨rfl, rfl, rfl, rfl⟩
      obtain ⟨hrep, hentries⟩ := hreplays.append ha
      have hkept : log.committedCheckpoint = r.log.committedCheckpoint ∧
          log.clientRecord = (r.log.clientRecord.update c s).1 := by
        rw [Log.append, bind_eq_ok] at ha
        obtain ⟨d, -, ha⟩ := ha
        split at ha
        · cases pure_eq_ok.mp ha
          exact ⟨rfl, rfl⟩
        · obtain ⟨⟨app, x⟩, -, ha⟩ := bind_eq_ok.mp ha
          cases pure_eq_ok.mp ha
          exact ⟨rfl, rfl⟩
      refine ⟨hround.trans h.round, (hcommitted.trans hkept.1).trans h.committed,
        hrep.sameEntries hlog, ?_⟩
      rw [hrecord, hkept.2, ← hreqs, hentries]
      exact hcounts

/-- **What one request leaves behind.** -/
lemma step (h : Counted cfg app es r) {e : RequestEvent} (hs : e.Step cfg r r') :
    Counted cfg app (es ++ [e]) r' := by
  cases e with
  | addEntry c s req =>
      obtain ⟨log, res, ha, rfl⟩ := hs
      exact h.addEntry (fun c' => Iff.rfl) ha rfl rfl rfl (.refl _)
  | processClientRequest now m queued =>
      obtain ⟨hq, hcases⟩ := processClientRequest_cases hs
      have hround : r'.round = r.round := by rw [hq.eq]
      have hempty : r.log.committedCheckpoint.clientRecord.contains m.clientId m.clientSeq =
          false := by
        rw [h.committed, ClientRecord.contains, ExtTreeMap.getElem?_empty]
      rcases hcases with ⟨hdrop, hlog⟩ | ⟨hid, -, log, res, ha, hlog⟩
      · have hid := hdrop.resolve_right (by rw [hempty]; simp)
        have hheard : Heard cfg (es ++ [.processClientRequest now m queued]) = Heard cfg es := by
          funext c
          rw [eq_iff_iff, heard_concat, RequestEvent.ComesFrom, or_iff_left]
          rintro ⟨rfl, hle⟩
          omega
        refine ⟨hround.trans h.round, hlog ▸ h.committed, hlog ▸ h.replays, ?_⟩
        rw [hheard, hlog]
        exact h.counts
      · have he : ∀ c', RequestEvent.ComesFrom cfg c' (.processClientRequest now m queued) ↔
            c' = m.clientId := fun c' => ⟨And.left, fun hc => ⟨hc, hc ▸ hid⟩⟩
        rcases hlog with ⟨-, hlog⟩ | ⟨-, hset⟩
        · exact h.addEntry he ha hround (by rw [hlog]) (by rw [hlog]) (by rw [hlog]; exact .refl _)
        · obtain ⟨i, hr'⟩ := Log.setDeadline_eq hset
          exact h.addEntry he ha hround (by rw [hr']) (by rw [hr']) (.setDeadline hset)

/-- **What every stream of requests leaves behind.** -/
lemma of_run {i : ℕ} (h : Run (requestSystem cfg i app) anyStep es r) : Counted cfg app es r := by
  refine h.invariant ?_ fun es r e r' _ ih _ hs => ih.step hs
  rintro r rfl
  refine ⟨rfl, rfl, .fresh app, ?_⟩
  have hnone : Heard cfg [] = fun _ => False := by
    funext c
    simp [Heard]
  rw [hnone]
  exact .empty

end Counted

omit [PaddedRequestData] in
/-- The commits of replicas with the same entries differ in the record only. -/
lemma keyTuple_ownCommit {r r' : Replica A} (hround : r.round = r'.round)
    (hlog : r.log.SameEntries r'.log)
    (hrecord : r.log.clientRecord.digest = r'.log.clientRecord.digest) (needsSnapshot : Bool) :
    Commit.keyTuple <$> r.ownCommit needsSnapshot =
      Commit.keyTuple <$> r'.ownCommit needsSnapshot := by
  rw [ownCommit, ownCommit, hlog.nextSeq, hlog.getDigestAt]
  cases r'.log.getDigestAt (r'.log.nextSeq - 1) with
  | error fault => rfl
  | ok digest =>
      cases needsSnapshot <;>
        simp [CheckpointCollector.getOwnCommit, CheckpointCollector.addOwnState,
          CheckpointCollector.addOwnSnapshot, CheckpointCollector.create, Commit.keyTuple,
          ClientRecord.toProto, Functor.map, Except.map, hround, hrecord, hlog.app]

/-- **Equal logs, equal votes**: two runs whose logs end with the same requests vote alike for a
checkpoint exactly if they have heard of the same clients. -/
theorem equal_logs_equal_votes (hc : CollisionFree) {cfg : Config} {app : A} {i j : ℕ}
    {es es' : List RequestEvent} {r r' : Replica A}
    (hrun : Run (requestSystem cfg i app) anyStep es r)
    (hrun' : Run (requestSystem cfg j app) anyStep es' r')
    (hlog : r.log.log.map LogEntry.toRequest = r'.log.log.map LogEntry.toRequest) :
    SameVotes r r' ↔ ∀ c, Heard cfg es c ↔ Heard cfg es' c := by
  have h := Counted.of_run hrun
  have h' := Counted.of_run hrun'
  have hdigest := h.counts.digest_eq_iff hc (hlog ▸ h'.counts)
  constructor
  · exact fun hv => hdigest.mp hv.1
  · intro hs
    have hrecord := hdigest.mpr hs
    exact ⟨hrecord, keyTuple_ownCommit (h.round.trans h'.round.symm)
      (h.replays.unique h'.replays hlog) hrecord⟩

end Replica

namespace Replica

section

attribute [local instance] prefixSha shortPaddedRequestData counterWire

/-- The first increment of client `0`, and a request of client `1` with number `0`. -/
def firstRequest : RequestEvent := .processClientRequest 0 { clientId := 0, clientSeq := 1 } false

/-- A request with the number that no client starts with. -/
def zeroRequest : RequestEvent := .processClientRequest 0 { clientId := 1, clientSeq := 0 } false

lemma run_step {i : ℕ} {es : List RequestEvent} {r r' : Replica Counter} {e : RequestEvent}
    (h : Run (requestSystem .oneFault i {}) anyStep es r) (hs : e.Step .oneFault r r') :
    Run (requestSystem .oneFault i {}) anyStep (es ++ [e]) r' := .step h trivial hs

/-- A replica that receives a request twice votes like one that receives it once. -/
theorem equal_logs_equal_votes_twice :
    ∃ r r' : Replica Counter,
      Run (requestSystem .oneFault 0 {}) anyStep [firstRequest] r ∧
      Run (requestSystem .oneFault 1 {}) anyStep [firstRequest, firstRequest] r' ∧
      SameVotes r r' := by
  have hrun := run_step (e := firstRequest) (i := 0) (.start rfl) (Eq.refl (Except.ok _))
  have hrun₁ := run_step (e := firstRequest) (i := 1) (.start rfl) (Eq.refl (Except.ok _))
  have hrun' := run_step (e := firstRequest) hrun₁ (Eq.refl (Except.ok _))
  refine ⟨_, _, hrun, hrun', ?_⟩
  refine (equal_logs_equal_votes prefixSha_collisionFree hrun hrun' (by decide)).mpr fun c => ?_
  simp [Heard]

/-- **A request with number `0` splits the votes**: it is dropped, and the logs are equal, but its
client is in the record. -/
theorem zero_splits_votes :
    ∃ r r' : Replica Counter,
      Run (requestSystem .oneFault 0 {}) anyStep [firstRequest] r ∧
      Run (requestSystem .oneFault 1 {}) anyStep [firstRequest, zeroRequest] r' ∧
      r.log.log = r'.log.log ∧ ¬SameVotes r r' := by
  have hrun := run_step (e := firstRequest) (i := 0) (.start rfl) (Eq.refl (Except.ok _))
  have hrun₁ := run_step (e := firstRequest) (i := 1) (.start rfl) (Eq.refl (Except.ok _))
  have hrun' := run_step (e := zeroRequest) hrun₁ (Eq.refl (Except.ok _))
  exact ⟨_, _, hrun, hrun', by decide, fun hv => absurd hv.1 (by decide)⟩

end

end Replica

end DomBft
