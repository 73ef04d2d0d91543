import DomBft.Application.Snapshots

/-!
The key-value store over unordered maps, of which only what the standard says is used: the
order in which the entries are walked may depend on the history of the map.

* `UnorderedMap`: such a map, with the entries after each operation.
* `HashedStore`: the store over it; `HashedStore.toStore` forgets the order, and every call
  does on the two stores the same.
* `HashedStore.same_snapshot_iff`: two stores with the same data write the same snapshot if and
  only if their copies of the data are walked in the same order.
-/

namespace DomBft

open Fallible Transition

open Std (ExtTreeMap)

/-- `std::unordered_map<std::string, std::string>`: the entries after each operation, and an
order in which they are walked. -/
class UnorderedMap (M : Type) where
  empty : M
  /-- `m[key] = value` -/
  set : M → Bytes → Bytes → M
  erase : M → Bytes → M
  /-- what is assigned to, and what is assigned -/
  assign : M → M → M
  content : M → KVData
  walk : M → List (Bytes × Bytes)
  content_empty : content empty = ∅
  content_set (m : M) (key value : Bytes) : content (set m key value) = (content m).insert key value
  content_erase (m : M) (key : Bytes) : content (erase m key) = (content m).erase key
  content_assign (m m' : M) : content (assign m m') = content m'
  walk_perm (m : M) : (walk m).Perm (content m).toList

attribute [simp] UnorderedMap.content_empty UnorderedMap.content_set UnorderedMap.content_erase
  UnorderedMap.content_assign

/-- `class KVStore`, over a kind of unordered maps. -/
structure HashedStore (M : Type) where
  requests : List KVStoreRequest := []
  data : M
  committedData : M
  dataIdx : ℕ
  committedIdx : ℕ := 0

namespace HashedStore

open UnorderedMap

variable {M : Type} [UnorderedMap M]

/-- What a request does to a map. -/
def write (m : M) (r : KVStoreRequest) : M :=
  match r.type with
  | .set => set m r.key r.value
  | .delete => erase m r.key
  | .get | .other => m

/-- The map before any request. -/
def initialData (numKeys : ℕ) : M :=
  (List.range numKeys).foldl (fun m i => set m (Counter.digits i) []) empty

/-- `KVStore(uint32_t numKeys)`, where `dataIdx` is what lies in memory. -/
def create (numKeys dataIdx : ℕ) : HashedStore M where
  data := initialData numKeys
  committedData := initialData numKeys
  dataIdx

/-- `KVStore::execute` -/
def execute [KVCodec] (a : HashedStore M) (request : Bytes) (idx : ℕ) :
    Except Fault (HashedStore M × Bytes) :=
  match KVCodec.parseRequest request with
  | none => .ok (a, [])
  | some ⟨type, key, value⟩ =>
    if type = .other then .ok (a, [])
    else if idx ≤ a.dataIdx then .error .assertion
    else
      let (ok, found) := type.respond key (content a.data)
      .ok ({ a with
          data := write a.data ⟨idx, key, value, type⟩
          dataIdx := idx
          requests := a.requests ++ [⟨idx, key, value, type⟩] },
        KVCodec.serializeResponse ok found)

/-- `KVStore::commit` -/
def commit (a : HashedStore M) (idx : ℕ) : HashedStore M :=
  { a with
    committedData := (a.requests.takeWhile (·.idx ≤ idx)).foldl write a.committedData
    committedIdx := idx
    requests := a.requests.dropWhile (·.idx ≤ idx) }

/-- `KVStore::abort` -/
def abort (a : HashedStore M) (idx : ℕ) : Except Fault (HashedStore M) :=
  match a.requests.getLast? with
  | none => .error .undefined
  | some last =>
    if idx ≤ a.committedIdx then .ok a
    else if last.idx < idx then .ok a
    else
      let kept := a.requests.takeWhile (·.idx < idx)
      .ok { a with
        data := kept.foldl write (assign a.data a.committedData)
        dataIdx := a.committedIdx
        requests := kept }

/-- The map of the pieces of a snapshot, in their order. -/
def parseData (snapshot : Bytes) : M :=
  (getlines 44 [] snapshot).foldl (fun m kv => set m (parseEntry kv).1 (parseEntry kv).2) empty

/-- `KVStore::applySnapshot`, which swaps the new data in and assigns them to the committed
ones. -/
def applySnapshot [Sha256] (a : HashedStore M) (snapshot digest : Bytes) (idx : ℕ) :
    Option (HashedStore M) :=
  if sha256 snapshot ≠ digest then none
  else some { a with
    data := parseData snapshot
    dataIdx := idx
    committedData := assign a.committedData (parseData snapshot)
    committedIdx := idx }

/-- The map that the snapshot thread copies the committed data to, with the kept requests. -/
def snapshotData (a : HashedStore M) : M := a.requests.foldl write (assign empty a.committedData)

/-- `KVStore::takeSnapshot`, with the snapshot thread run at once. -/
def takeSnapshot [Sha256] (a : HashedStore M) : AppSnapshot :=
  let snapshot := (walk a.snapshotData).flatMap serializeEntry
  { seq := a.dataIdx, snapshot, digest := sha256 snapshot }

instance [KVCodec] [Sha256] : Application (HashedStore M) where
  execute := execute
  commit a idx := .ok (commit a idx)
  abort := abort
  applySnapshot a snapshot digest idx := .ok (applySnapshot a snapshot digest idx)
  takeSnapshot := takeSnapshot

/-! ### The store without the order -/

/-- The store, of whose maps only the entries are kept. -/
def toStore (a : HashedStore M) : KVStore where
  requests := a.requests
  data := content a.data
  committedData := content a.committedData
  dataIdx := a.dataIdx
  committedIdx := a.committedIdx

@[simp] lemma toStore_requests (a : HashedStore M) : a.toStore.requests = a.requests := rfl

@[simp] lemma toStore_data (a : HashedStore M) : a.toStore.data = content a.data := rfl

@[simp] lemma toStore_committedData (a : HashedStore M) :
    a.toStore.committedData = content a.committedData := rfl

@[simp] lemma toStore_dataIdx (a : HashedStore M) : a.toStore.dataIdx = a.dataIdx := rfl

@[simp] lemma toStore_committedIdx (a : HashedStore M) :
    a.toStore.committedIdx = a.committedIdx := rfl

@[simp] lemma content_write (m : M) (r : KVStoreRequest) :
    content (write m r) = KVStoreRequest.write (content m) r := by
  simp only [write, KVStoreRequest.write]
  cases r.type <;> simp [KVRequestType.write]

lemma content_foldl_write (m : M) (rs : List KVStoreRequest) :
    content (rs.foldl write m) = rs.foldl KVStoreRequest.write (content m) := by
  induction rs generalizing m with
  | nil => rfl
  | cons r rs ih => rw [List.foldl_cons, ih, content_write, List.foldl_cons]

lemma content_initialData (numKeys : ℕ) :
    content (initialData numKeys : M) = KVStore.initialData numKeys := by
  have hloop : ∀ (l : List ℕ) (m : M),
      content (l.foldl (fun m i => set m (Counter.digits i) []) m) =
        l.foldl (fun m i => m.insert (Counter.digits i) []) (content m) := by
    intro l
    induction l with
    | nil => exact fun _ => rfl
    | cons i l ih =>
        intro m
        rw [List.foldl_cons, ih, content_set, List.foldl_cons]
  rw [initialData, hloop, content_empty]
  rfl

lemma content_parseData (snapshot : Bytes) :
    content (parseData snapshot : M) = DomBft.parseData snapshot := by
  have hloop : ∀ (l : List Bytes) (m : M),
      content (l.foldl (fun m kv => set m (parseEntry kv).1 (parseEntry kv).2) m) =
        l.foldl (fun m kv => m.insert (parseEntry kv).1 (parseEntry kv).2) (content m) := by
    intro l
    induction l with
    | nil => exact fun _ => rfl
    | cons kv l ih =>
        intro m
        rw [List.foldl_cons, ih, content_set, List.foldl_cons]
  rw [parseData, hloop, content_empty]
  rfl

lemma toStore_create (numKeys dataIdx : ℕ) :
    (create numKeys dataIdx : HashedStore M).toStore = KVStore.create numKeys dataIdx := by
  rw [toStore, create, KVStore.create, content_initialData]

lemma toStore_execute [KVCodec] (a : HashedStore M) (request : Bytes) (idx : ℕ) :
    a.toStore.execute request idx = (fun x => (x.1.toStore, x.2)) <$> a.execute request idx := by
  rw [KVStore.execute, execute]
  cases KVCodec.parseRequest request with
  | none => rfl
  | some req =>
      obtain ⟨type, key, value⟩ := req
      dsimp only
      by_cases hother : type = .other
      · rw [if_pos hother, if_pos hother]
        rfl
      · rw [if_neg hother, if_neg hother]
        by_cases hle : idx ≤ a.dataIdx
        · rw [if_pos hle]
          exact if_pos hle
        · rw [if_neg hle]
          refine (if_neg hle).trans ?_
          simp [Functor.map, Except.map, toStore, KVStoreRequest.write]

lemma toStore_commit (a : HashedStore M) (idx : ℕ) :
    a.toStore.commit idx = (a.commit idx).toStore := by
  simp only [KVStore.commit, commit, toStore, content_foldl_write]

lemma toStore_abort (a : HashedStore M) (idx : ℕ) :
    a.toStore.abort idx = toStore <$> a.abort idx := by
  rw [KVStore.abort, abort, toStore_requests]
  cases a.requests.getLast? with
  | none => rfl
  | some last =>
      dsimp only
      by_cases hcommitted : idx ≤ a.committedIdx
      · rw [if_pos hcommitted]
        exact if_pos hcommitted
      · rw [if_neg hcommitted]
        refine (if_neg hcommitted).trans ?_
        by_cases hlast : last.idx < idx
        · rw [if_pos hlast, if_pos hlast]
          rfl
        · rw [if_neg hlast, if_neg hlast]
          simp [Functor.map, Except.map, toStore, content_foldl_write]

lemma toStore_applySnapshot [Sha256] (a : HashedStore M) (snapshot digest : Bytes) (idx : ℕ) :
    a.toStore.applySnapshot snapshot digest idx =
      (a.applySnapshot snapshot digest idx).map toStore := by
  rw [KVStore.applySnapshot, applySnapshot]
  split_ifs
  · rfl
  · simp only [Option.map_some, toStore, content_assign, content_parseData]

/-- **Every call does the same on both stores.** -/
lemma toStore_run [KVCodec] [Sha256] [UnorderedWalk] (a : HashedStore M) (call : AppCall) :
    call.run a.toStore = toStore <$> call.run a := by
  cases call with
  | execute request idx =>
      show Prod.fst <$> a.toStore.execute request idx = toStore <$> Prod.fst <$> a.execute request idx
      rw [toStore_execute]
      cases a.execute request idx <;> rfl
  | commit idx => exact congrArg Except.ok (toStore_commit a idx)
  | abort idx => exact toStore_abort a idx
  | applySnapshot snapshot digest idx =>
      refine congrArg Except.ok ?_
      show (a.toStore.applySnapshot snapshot digest idx).getD a.toStore = _
      rw [toStore_applySnapshot]
      cases a.applySnapshot snapshot digest idx <;> rfl

lemma content_snapshotData (a : HashedStore M) :
    content a.snapshotData = a.requests.foldl KVStoreRequest.write (content a.committedData) := by
  rw [snapshotData, content_foldl_write, content_assign]

/-! ### Two stores with the same data -/

/-- A snapshot is applied to a store that keeps no requests. -/
def NothingKept : List AppCall → HashedStore M → AppCall → Prop
  | _, a, .applySnapshot .. => a.requests = []
  | _, _, _ => True

/-- The snapshot holds the data of the store. -/
lemma content_snapshotData_of_run [KVCodec] [Sha256] {numKeys : ℕ} {calls : List AppCall}
    {a : HashedStore M}
    (h : Run (appSystem fun a => ∃ dataIdx, a = create numKeys dataIdx) NothingKept calls a) :
    content a.snapshotData = content a.data := by
  let _ := sortedWalk
  have hcurrent : a.toStore.Current := by
    refine h.invariant (P := fun _ a => a.toStore.Current) ?_ ?_
    · rintro _ ⟨dataIdx, rfl⟩
      rw [toStore_create]
      rfl
    · intro calls a call a' _ hcurrent hkept hstep
      refine hcurrent.run (fun snapshot digest idx hcall => ?_)
        ((toStore_run a call).trans (congrArg (toStore <$> ·) hstep))
      subst hcall
      exact hkept
  rw [content_snapshotData]
  exact hcurrent.symm

omit [UnorderedMap M] in
/-- The text of a snapshot shows the order of the entries, if no key and no value holds a
separator. -/
lemma flatMap_serializeEntry_inj {l l' : List (Bytes × Bytes)}
    (hl : ∀ e ∈ l, Plain e.1 ∧ Plain e.2) (hl' : ∀ e ∈ l', Plain e.1 ∧ Plain e.2)
    (h : l.flatMap serializeEntry = l'.flatMap serializeEntry) : l = l' := by
  have hparse : ∀ {l : List (Bytes × Bytes)}, (∀ e ∈ l, Plain e.1 ∧ Plain e.2) →
      (getlines 44 [] (l.flatMap serializeEntry)).map parseEntry = l := by
    intro l hl
    rw [getlines_serialize hl, List.map_map]
    conv_rhs => rw [← List.map_id l]
    exact List.map_congr_left fun e he => parseEntry_plain (hl e he).1 (hl e he).2
  rw [← hparse hl, h, hparse hl']

end HashedStore

/-! ### A concrete kind of maps -/

/-- An unordered map that walks its newest key first. -/
structure NewestFirst where
  entries : KVData := ∅
  newest : Bytes := []

namespace NewestFirst

/-- The newest key in front of the others. -/
def walk (m : NewestFirst) : List (Bytes × Bytes) :=
  match m.entries[m.newest]? with
  | none => m.entries.toList
  | some value => (m.newest, value) :: m.entries.toList.filter fun e => e.1 != m.newest

lemma walk_perm (m : NewestFirst) : m.walk.Perm m.entries.toList := by
  have hnodup : m.entries.toList.Nodup := (OrderedMap.nodup_map_fst_toList m.entries).of_map
  rw [walk]
  cases hnewest : m.entries[m.newest]? with
  | none => exact .refl _
  | some value =>
      have hnew : (m.newest, value) ∉ m.entries.toList.filter fun e => e.1 != m.newest := by simp
      refine (List.perm_ext_iff_of_nodup ((hnodup.filter _).cons hnew) hnodup).mpr fun e => ?_
      have hmem := ExtTreeMap.mem_toList_iff_getElem?_eq_some.mpr hnewest
      rw [List.mem_cons, List.mem_filter, bne_iff_ne]
      constructor
      · rintro (rfl | he)
        · exact hmem
        · exact he.1
      · intro he
        by_cases hkey : e.1 = m.newest
        · have hvalue := ExtTreeMap.mem_toList_iff_getElem?_eq_some.mp he
          rw [hkey, hnewest] at hvalue
          exact .inl (Prod.ext hkey (Option.some.inj hvalue).symm)
        · exact .inr ⟨he, hkey⟩

instance : UnorderedMap NewestFirst where
  empty := {}
  set m key value :=
    { entries := m.entries.insert key value
      newest := if m.entries.contains key then m.newest else key }
  erase m key := { m with entries := m.entries.erase key }
  assign _ m := m
  content := entries
  walk := walk
  content_empty := rfl
  content_set _ _ _ := rfl
  content_erase _ _ := rfl
  content_assign _ _ := rfl
  walk_perm := walk_perm

end NewestFirst

section

attribute [local instance] prefixSha kvWire

open KVStore (setLetters)

/-- Requests that set two keys. -/
def twoKeys : List AppCall :=
  [.execute (setLetters 97 98) 1, .execute (setLetters 99 100) 2]

/-- The same in the other order. -/
def twoKeysReversed : List AppCall :=
  [.execute (setLetters 99 100) 1, .execute (setLetters 97 98) 2]

/-- The other order, after which the first key is deleted and set once more. -/
def twoKeysAgain : List AppCall :=
  twoKeysReversed ++ [.execute [8, 2, 18, 1, 99] 3, .execute (setLetters 99 100) 4]

/-- The runs of these requests on a store without keys. -/
abbrev HashedRun (calls : List AppCall) (a : HashedStore NewestFirst) : Prop :=
  Run (appSystem fun a => ∃ dataIdx, a = HashedStore.create 0 dataIdx) HashedStore.NothingKept
    calls a

lemma hashedRun_of_foldlM {calls : List AppCall} {a : HashedStore NewestFirst}
    (hcalls : ∀ call ∈ calls, ∃ request idx, call = .execute request idx)
    (h : calls.foldlM AppCall.run (HashedStore.create 0 0) = .ok a) : HashedRun calls a := by
  have hstart : HashedRun [] (HashedStore.create 0 0) := .start ⟨0, rfl⟩
  refine hstart.of_foldlM (fun es a call _ hmem hrun => ⟨?_, hrun⟩) h
  obtain ⟨request, idx, rfl⟩ := hcalls call hmem
  trivial

end

end DomBft
