import DomBft.KVStore
import DomBft.Lib.Fallible
import DomBft.Lib.OrderedMap
import DomBft.Rollback

/-!
The key-value store goes back by executing the uncommitted requests again on the committed
data: `KVStore.rollback`.

* `recorded`: the requests that the store keeps of a list of payloads.
* `parseData_serializeData`: a snapshot is read back, if no key and no value holds one of the
  separators.
* `HoldsAt`: the data, the committed data and the kept requests after a list of payloads.

A snapshot replaces the data but not the kept requests, so that the store follows the log
only if there are none; and `abort` reads the last of them even if there is none.
-/

namespace DomBft

open Fallible OrderedMap

/-! ### Snapshots -/

/-- A string without the separators of a snapshot. -/
def Plain (s : Bytes) : Prop := (58 : UInt8) ∉ s ∧ (44 : UInt8) ∉ s

instance (s : Bytes) : Decidable (Plain s) := inferInstanceAs (Decidable (_ ∧ _))

lemma getlines_sep {sep : UInt8} {piece s : Bytes} (hs : sep ∉ s) (rest : Bytes) :
    getlines sep piece (s ++ sep :: rest) = (piece ++ s) :: getlines sep [] rest := by
  induction s generalizing piece with
  | nil => rw [List.nil_append, getlines, if_pos rfl, List.append_nil]
  | cons b s ih =>
      have hb : b ≠ sep := fun h => hs (h ▸ List.mem_cons_self)
      rw [List.cons_append, getlines, if_neg hb, ih fun h => hs (List.mem_cons_of_mem _ h),
        List.append_assoc]
      rfl

lemma getlines_end {sep : UInt8} {piece s : Bytes} (hs : sep ∉ s) :
    getlines sep piece s = if piece ++ s = [] then [] else [piece ++ s] := by
  induction s generalizing piece with
  | nil =>
      rw [List.append_nil]
      cases piece with
      | nil => rfl
      | cons b bs => rfl
  | cons b s ih =>
      have hb : b ≠ sep := fun h => hs (h ▸ List.mem_cons_self)
      rw [getlines, if_neg hb, ih fun h => hs (List.mem_cons_of_mem _ h), List.append_assoc]
      rfl

/-- An entry without separators is read back. -/
lemma parseEntry_plain {key value : Bytes} (hkey : Plain key) (hvalue : Plain value) :
    parseEntry (key ++ 58 :: value) = (key, value) := by
  rw [parseEntry, getlines_sep hkey.1, getlines_end hvalue.1, List.nil_append, List.nil_append]
  split_ifs with h
  · rw [h]
    rfl
  · rfl

/-- The pieces of a snapshot are its entries. -/
lemma getlines_serialize {l : List (Bytes × Bytes)} (h : ∀ e ∈ l, Plain e.1 ∧ Plain e.2) :
    getlines 44 [] (l.flatMap serializeEntry) = l.map fun e => e.1 ++ 58 :: e.2 := by
  induction l with
  | nil => rfl
  | cons e l ih =>
      obtain ⟨hkey, hvalue⟩ := h e List.mem_cons_self
      have hsep : (44 : UInt8) ∉ e.1 ++ 58 :: e.2 := by
        rw [List.mem_append, List.mem_cons]
        rintro (hmem | hmem | hmem)
        · exact hkey.2 hmem
        · cases hmem
        · exact hvalue.2 hmem
      have hentry : serializeEntry e ++ l.flatMap serializeEntry =
          (e.1 ++ 58 :: e.2) ++ 44 :: l.flatMap serializeEntry := by
        simp [serializeEntry]
      rw [List.flatMap_cons, hentry, getlines_sep hsep, List.nil_append, List.map_cons,
        ih fun e he => h e (List.mem_cons_of_mem _ he)]

/-- **A snapshot is read back**, if no key and no value holds a separator. -/
lemma parseData_serializeData [UnorderedWalk] {data : KVData}
    (h : ∀ e ∈ data.toList, Plain e.1 ∧ Plain e.2) : parseData (serializeData data) = data := by
  have hperm := UnorderedWalk.walk_perm data
  have hwalk : ∀ e ∈ UnorderedWalk.walk data, Plain e.1 ∧ Plain e.2 := fun e he =>
    h e (hperm.mem_iff.mp he)
  rw [parseData, serializeData, getlines_serialize hwalk, List.foldl_map]
  conv_rhs => rw [← foldl_insert_of_perm hperm]
  refine List.foldl_ext _ _ _ fun m e he => ?_
  rw [parseEntry_plain (hwalk e he).1 (hwalk e he).2]

namespace KVStore

variable [KVCodec]

/-! ### The kept requests -/

/-- What a payload does to the data. -/
def effect (data : KVData) (d : Bytes) : KVData :=
  match KVCodec.parseRequest d with
  | none => data
  | some ⟨type, key, value⟩ => type.write key value data

/-- What the store keeps of a payload that it executes at a position. -/
def record (idx : ℕ) (d : Bytes) : List KVStoreRequest :=
  match KVCodec.parseRequest d with
  | none => []
  | some ⟨type, key, value⟩ => if type = .other then [] else [⟨idx, key, value, type⟩]

/-- What the store keeps of a list of payloads, executed from position `p + 1` on. -/
def recorded (p : ℕ) : List Bytes → List KVStoreRequest
  | [] => []
  | d :: ds => record (p + 1) d ++ recorded (p + 1) ds

lemma record_idx {idx : ℕ} {d : Bytes} {r : KVStoreRequest} (h : r ∈ record idx d) :
    r.idx = idx := by
  rw [record] at h
  split at h
  · cases h
  · split_ifs at h
    · cases h
    · rw [List.mem_singleton.mp h]

lemma foldl_record (idx : ℕ) (d : Bytes) (data : KVData) :
    (record idx d).foldl KVStoreRequest.write data = effect data d := by
  rw [record, effect]
  split
  · rfl
  · split_ifs with hother
    · rw [hother]
      rfl
    · rfl

lemma recorded_append (p : ℕ) (ds ds' : List Bytes) :
    recorded p (ds ++ ds') = recorded p ds ++ recorded (p + ds.length) ds' := by
  induction ds generalizing p with
  | nil => rfl
  | cons d ds ih =>
      rw [List.cons_append, recorded, ih, recorded, List.append_assoc, List.length_cons,
        show p + 1 + ds.length = p + (ds.length + 1) by omega]

/-- The positions of the kept requests. -/
lemma recorded_mem {p : ℕ} {ds : List Bytes} {r : KVStoreRequest} (h : r ∈ recorded p ds) :
    p < r.idx ∧ r.idx ≤ p + ds.length := by
  induction ds generalizing p with
  | nil => cases h
  | cons d ds ih =>
      rw [List.length_cons]
      rcases List.mem_append.mp h with h | h
      · have := record_idx h
        omega
      · have := ih h
        omega

/-- Executing the kept requests again has the effect of the payloads. -/
lemma foldl_recorded (p : ℕ) (ds : List Bytes) (data : KVData) :
    (recorded p ds).foldl KVStoreRequest.write data = ds.foldl effect data := by
  induction ds generalizing p data with
  | nil => rfl
  | cons d ds ih => rw [recorded, List.foldl_append, foldl_record, ih, List.foldl_cons]

/-- The kept requests are cut behind a position. -/
lemma recorded_cut {c p : ℕ} (ds : List Bytes) (hc : c ≤ p) (hp : p ≤ ds.length) :
    (recorded c (ds.drop c)).takeWhile (·.idx ≤ p) = recorded c ((ds.take p).drop c) ∧
      (recorded c (ds.drop c)).dropWhile (·.idx ≤ p) = recorded p (ds.drop p) := by
  have hdrop : ds.drop c = (ds.take p).drop c ++ ds.drop p := by
    rw [← List.drop_append_of_le_length (by rw [List.length_take]; omega),
      List.take_append_drop]
  have hlen : ((ds.take p).drop c).length = p - c := by
    rw [List.length_drop, List.length_take, Nat.min_eq_left hp]
  have hbelow : ∀ r ∈ recorded c ((ds.take p).drop c), decide (r.idx ≤ p) = true := by
    intro r hr
    have hle := (recorded_mem hr).2
    exact decide_eq_true (by omega)
  have habove : ∀ r ∈ recorded p (ds.drop p), ¬decide (r.idx ≤ p) = true := by
    intro r hr
    rw [decide_eq_true_eq, Nat.not_le]
    exact (recorded_mem hr).1
  rw [hdrop, recorded_append, hlen, Nat.add_sub_cancel' hc]
  exact ⟨takeWhile_cut hbelow habove, dropWhile_cut hbelow habove⟩

/-! ### The operations -/

/-- What `execute` does where it returns. -/
lemma execute_effect {a a' : KVStore} {d res : Bytes} {idx : ℕ}
    (h : a.execute d idx = .ok (a', res)) :
    a'.committedIdx = a.committedIdx ∧ a'.committedData = a.committedData ∧
      a'.requests = a.requests ++ record idx d ∧ a'.data = effect a.data d ∧
      (record idx d = [] → a'.dataIdx = a.dataIdx) ∧ (record idx d ≠ [] → a'.dataIdx = idx) := by
  rw [execute] at h
  rw [record, effect]
  cases hparse : KVCodec.parseRequest d with
  | none =>
      rw [hparse] at h
      cases h
      exact ⟨rfl, rfl, (List.append_nil _).symm, rfl, fun _ => rfl, fun hne => absurd rfl hne⟩
  | some req =>
      obtain ⟨type, key, value⟩ := req
      rw [hparse] at h
      dsimp only at h ⊢
      split_ifs at h with hother hseq
      · cases h
        rw [hother]
        exact ⟨rfl, rfl, (List.append_nil _).symm, rfl, fun _ => rfl, fun hne => absurd rfl hne⟩
      · cases h
        rw [if_neg hother]
        exact ⟨rfl, rfl, rfl, rfl, fun hnil => (List.cons_ne_nil _ _ hnil).elim, fun _ => rfl⟩

/-- The data after some payloads. -/
abbrev dataOf (numKeys : ℕ) (ds : List Bytes) : KVData := ds.foldl effect (initialData numKeys)

/-- A store at which the payloads `ds` have been executed and the first `c` committed. -/
structure HoldsAt (numKeys : ℕ) (a : KVStore) (c : ℕ) (ds : List Bytes) : Prop where
  committed_le : c ≤ ds.length
  committedIdx : a.committedIdx = c
  committedData : a.committedData = dataOf numKeys (ds.take c)
  requests : a.requests = recorded c (ds.drop c)
  data : a.data = dataOf numKeys ds

namespace HoldsAt

variable {numKeys : ℕ} {a a' b b' : KVStore} {c : ℕ} {ds : List Bytes}

/-- The committed data and the kept requests make the data. -/
lemma foldl_requests (h : HoldsAt numKeys a c ds) :
    a.requests.foldl KVStoreRequest.write a.committedData = dataOf numKeys ds := by
  rw [h.requests, h.committedData, foldl_recorded, ← List.foldl_append, List.take_append_drop]

lemma execute {d res : Bytes} (h : HoldsAt numKeys a c ds)
    (hexec : a.execute d (ds.length + 1) = .ok (a', res)) : HoldsAt numKeys a' c (ds ++ [d]) := by
  have hc := h.committed_le
  obtain ⟨hidx, hcommitted, hrequests, hdata, -⟩ := execute_effect hexec
  refine ⟨by rw [List.length_append]; omega, hidx.trans h.committedIdx, ?_, ?_, ?_⟩
  · rw [hcommitted, h.committedData, List.take_append_of_le_length hc]
  · rw [hrequests, h.requests, List.drop_append_of_le_length hc, recorded_append,
      List.length_drop, Nat.add_sub_cancel' hc, recorded, recorded, List.append_nil]
  · rw [hdata, h.data, dataOf, dataOf, List.foldl_append]
    rfl

lemma commit {i : ℕ} (h : HoldsAt numKeys a c ds) (hc : c < i) (hi : i ≤ ds.length) :
    HoldsAt numKeys (a.commit i) i ds := by
  obtain ⟨htake, hdrop⟩ := recorded_cut ds hc.le hi
  refine ⟨hi, rfl, ?_, ?_, h.data⟩
  · have hbefore : (ds.take i).take c = ds.take c := by
      rw [List.take_take, Nat.min_eq_left hc.le]
    show (a.requests.takeWhile (·.idx ≤ i)).foldl KVStoreRequest.write a.committedData = _
    rw [h.requests, htake, h.committedData, foldl_recorded, ← hbefore, ← List.foldl_append,
      List.take_append_drop]
  · show a.requests.dropWhile (·.idx ≤ i) = _
    rw [h.requests, hdrop]

lemma abort {p : ℕ} (h : HoldsAt numKeys a c ds) (hc : c < p) (hp : p ≤ ds.length)
    (hcan : a.requests ≠ []) :
    ∃ a', a.abort p = .ok a' ∧ HoldsAt numKeys a' c (ds.take (p - 1)) := by
  obtain ⟨last, hlast⟩ := Option.isSome_iff_exists.mp (List.getLast?_isSome.mpr hcan)
  have hle : c ≤ p - 1 := Nat.le_sub_one_of_lt hc
  have hbefore : (ds.take (p - 1)).take c = ds.take c := by
    rw [List.take_take, Nat.min_eq_left hle]
  have hkept : a.requests.takeWhile (·.idx < p) = recorded c ((ds.take (p - 1)).drop c) := by
    rw [h.requests, ← (recorded_cut ds hle (by omega)).1]
    congr 1
    funext r
    exact decide_eq_decide.mpr (by omega)
  have hdata : (recorded c ((ds.take (p - 1)).drop c)).foldl KVStoreRequest.write a.committedData =
      dataOf numKeys (ds.take (p - 1)) := by
    rw [h.committedData, foldl_recorded, ← hbefore, ← List.foldl_append, List.take_append_drop]
  have hlen : c ≤ (ds.take (p - 1)).length := by
    rw [List.length_take]
    omega
  have hcommitted : a.committedData = dataOf numKeys ((ds.take (p - 1)).take c) := by
    rw [hbefore]
    exact h.committedData
  rw [KVStore.abort, hlast]
  dsimp only
  rw [if_neg (by rw [h.committedIdx]; omega)]
  split_ifs with hnewer
  · -- no request from the position on has been kept
    have hsplit : a.requests =
        recorded c ((ds.take (p - 1)).drop c) ++ recorded (p - 1) (ds.drop (p - 1)) := by
      obtain ⟨htake, hdrop⟩ := recorded_cut ds hle (by omega : p - 1 ≤ ds.length)
      rw [h.requests, ← htake, ← hdrop, List.takeWhile_append_dropWhile]
    have habove : recorded (p - 1) (ds.drop (p - 1)) = [] := by
      by_contra hne
      rw [hsplit, List.getLast?_append_of_ne_nil _ hne] at hlast
      have hlt := (recorded_mem (List.mem_of_getLast? hlast)).1
      omega
    have hsame : a.requests = recorded c ((ds.take (p - 1)).drop c) := by
      rw [hsplit, habove, List.append_nil]
    refine ⟨a, rfl, hlen, h.committedIdx, hcommitted, hsame, ?_⟩
    rw [← hdata, ← hsame, h.foldl_requests, h.data]
  · exact ⟨_, rfl, hlen, h.committedIdx, hcommitted, hkept, by rw [← hdata, ← hkept]⟩

/-- A snapshot of plain data replaces the data of a store that keeps no requests. -/
lemma applySnapshot [Sha256] [UnorderedWalk] {digest : Bytes} (h : HoldsAt numKeys a c ds)
    (hplain : ∀ e ∈ a.data.toList, Plain e.1 ∧ Plain e.2) (hnone : b.requests = [])
    (happly : b.applySnapshot a.takeSnapshot.snapshot digest ds.length = some b') :
    HoldsAt numKeys b' ds.length ds := by
  have hsnapshot : parseData a.takeSnapshot.snapshot = dataOf numKeys ds := by
    show parseData (serializeData (a.requests.foldl KVStoreRequest.write a.committedData)) = _
    rw [h.foldl_requests, ← h.data, parseData_serializeData hplain]
  rw [KVStore.applySnapshot] at happly
  split_ifs at happly
  cases Option.some.inj happly
  refine ⟨le_rfl, rfl, ?_, ?_, hsnapshot⟩
  · rw [List.take_length]
    exact hsnapshot
  · rw [List.drop_length]
    exact hnone

end HoldsAt

/-- **The key-value store goes back** to every position above the committed one, as long as
it keeps a request to go back from; a snapshot must be plain, and must not be applied over
kept requests. -/
def rollback [Sha256] [UnorderedWalk] (numKeys : ℕ) : Rollback KVStore where
  State := KVData
  state a := a.data
  start := initialData numKeys
  effect := effect
  Initial a := ∃ dataIdx, a = create numKeys dataIdx
  CanAbort a := a.requests ≠ []
  CanSnapshot a := ∀ e ∈ a.data.toList, Plain e.1 ∧ Plain e.2
  CanReplace a := a.requests = []
  Holds := HoldsAt numKeys
  holds_initial := by
    rintro _ ⟨dataIdx, rfl⟩
    exact ⟨le_rfl, rfl, rfl, rfl, rfl⟩
  committed_le h := h.committed_le
  state_eq h := h.data
  execute h := h.execute
  commit h hc hi := ⟨_, rfl, h.commit hc hi⟩
  abort h := h.abort
  applySnapshot h hplain hnone happly := h.applySnapshot hplain hnone (Except.ok.inj happly)

end KVStore

end DomBft
