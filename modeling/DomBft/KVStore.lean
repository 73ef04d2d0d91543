import DomBft.Application

/-!
`kv_store.h`, `kv_store.cc`: the key-value store, the second application.

* `KVRequestType.write`: what a request does to the data; `execute`, `commit`, `abort` and
  `takeSnapshot` share it.
* `KVStore`: the data, the committed data, and the requests executed since.
* `serializeData`, `parseData`: the format of a snapshot.
* `kvWire`, `sortedWalk`: concrete parameters, to evaluate the model with.

The parser and the serializer that `protoc` generates are the parameter `KVCodec`, the order
in which an `unordered_map` is walked is the parameter `UnorderedWalk`.
-/

namespace DomBft

open Std (ExtTreeMap)

/-- `KVRequestType`, and a value outside the enumeration. -/
inductive KVRequestType where
  | get
  | set
  | delete
  | other
deriving DecidableEq, Repr

/-- The fields of a `KVRequest`. -/
structure KVRequest where
  type : KVRequestType
  key : Bytes
  value : Bytes := []
deriving DecidableEq, Repr

/-- `KVRequest::ParseFromString` and `KVResponse::SerializeToString`, the latter of the fields
`ok` and `value`. -/
class KVCodec where
  parseRequest : Bytes → Option KVRequest
  serializeResponse : Bool → Option Bytes → Bytes

/-- The content of a `std::unordered_map<std::string, std::string>`. -/
abbrev KVData := ExtTreeMap Bytes Bytes compare

/-- The order in which the entries of an unordered map are walked. -/
class UnorderedWalk where
  walk : KVData → List (Bytes × Bytes)
  walk_perm : ∀ m, (walk m).Perm m.toList

/-- `struct KVStoreRequest` -/
structure KVStoreRequest where
  idx : ℕ
  key : Bytes
  value : Bytes
  type : KVRequestType
deriving DecidableEq, Repr

/-- `class KVStore` -/
structure KVStore where
  requests : List KVStoreRequest := []
  data : KVData
  committedData : KVData
  /-- not set by the constructor -/
  dataIdx : ℕ
  committedIdx : ℕ := 0

/-- What a request does to the data. -/
def KVRequestType.write (type : KVRequestType) (key value : Bytes) (data : KVData) : KVData :=
  match type with
  | .set => data.insert key value
  | .delete => data.erase key
  | .get | .other => data

/-- The fields of the response to a request, from the data before it. -/
def KVRequestType.respond (type : KVRequestType) (key : Bytes) (data : KVData) :
    Bool × Option Bytes :=
  match type with
  | .get => (data.contains key, data[key]?)
  | .set => (true, none)
  | .delete => (data.contains key, none)
  | .other => (false, none)

/-- The step of the loops over the executed requests. -/
def KVStoreRequest.write (data : KVData) (r : KVStoreRequest) : KVData :=
  r.type.write r.key r.value data

/-! ### Snapshots -/

/-- The loop around `std::getline`: the pieces between separators, of which the last one is
left out if it is empty; the first argument is the piece read so far. -/
def getlines (sep : UInt8) : Bytes → Bytes → List Bytes
  | [], [] => []
  | piece@(_ :: _), [] => [piece]
  | piece, b :: bs =>
    if b = sep then piece :: getlines sep [] bs else getlines sep (piece ++ [b]) bs

/-- One entry of a snapshot. -/
def serializeEntry (e : Bytes × Bytes) : Bytes := e.1 ++ 58 :: e.2 ++ [44]

/-- The snapshot of some data. -/
def serializeData [UnorderedWalk] (data : KVData) : Bytes :=
  (UnorderedWalk.walk data).flatMap serializeEntry

/-- The key and the value of one piece of a snapshot. -/
def parseEntry (kv : Bytes) : Bytes × Bytes :=
  let pieces := getlines 58 [] kv
  (pieces[0]?.getD [], pieces[1]?.getD [])

/-- The data of a snapshot. -/
def parseData (snapshot : Bytes) : KVData :=
  (getlines 44 [] snapshot).foldl (fun m kv => m.insert (parseEntry kv).1 (parseEntry kv).2) ∅

namespace KVStore

/-- The data before any request. -/
def initialData (numKeys : ℕ) : KVData :=
  (List.range numKeys).foldl (fun m i => m.insert (Counter.digits i) []) ∅

/-- `KVStore(uint32_t numKeys)`, where `dataIdx` is what lies in memory. -/
def create (numKeys dataIdx : ℕ) : KVStore where
  data := initialData numKeys
  committedData := initialData numKeys
  dataIdx

/-- `KVStore::execute` -/
def execute [KVCodec] (a : KVStore) (request : Bytes) (idx : ℕ) :
    Except Fault (KVStore × Bytes) :=
  match KVCodec.parseRequest request with
  | none => .ok (a, [])
  | some ⟨type, key, value⟩ =>
    if type = .other then .ok (a, [])
    else if idx ≤ a.dataIdx then .error .assertion
    else
      let (ok, found) := type.respond key a.data
      .ok ({ a with
          data := type.write key value a.data
          dataIdx := idx
          requests := a.requests ++ [⟨idx, key, value, type⟩] },
        KVCodec.serializeResponse ok found)

/-- `KVStore::commit` -/
def commit (a : KVStore) (idx : ℕ) : KVStore :=
  { a with
    committedData := (a.requests.takeWhile (·.idx ≤ idx)).foldl KVStoreRequest.write a.committedData
    committedIdx := idx
    requests := a.requests.dropWhile (·.idx ≤ idx) }

/-- `KVStore::abort`.  The two warnings read the first and the last request, also where there
is none. -/
def abort (a : KVStore) (idx : ℕ) : Except Fault KVStore :=
  match a.requests.getLast? with
  | none => .error .undefined
  | some last =>
    if idx ≤ a.committedIdx then .ok a
    else if last.idx < idx then .ok a
    else
      let kept := a.requests.takeWhile (·.idx < idx)
      .ok { a with
        data := kept.foldl KVStoreRequest.write a.committedData
        dataIdx := a.committedIdx
        requests := kept }

/-- `KVStore::applySnapshot`, which keeps the requests. -/
def applySnapshot [Sha256] (a : KVStore) (snapshot digest : Bytes) (idx : ℕ) : Option KVStore :=
  if sha256 snapshot ≠ digest then none
  else some { a with
    data := parseData snapshot
    dataIdx := idx
    committedData := parseData snapshot
    committedIdx := idx }

/-- `KVStore::takeSnapshot`, with the snapshot thread run at once. -/
def takeSnapshot [Sha256] [UnorderedWalk] (a : KVStore) : AppSnapshot :=
  let snapshot := serializeData (a.requests.foldl KVStoreRequest.write a.committedData)
  { seq := a.dataIdx, snapshot, digest := sha256 snapshot }

instance [KVCodec] [Sha256] [UnorderedWalk] : Application KVStore where
  execute := execute
  commit a idx := .ok (commit a idx)
  abort := abort
  applySnapshot a snapshot digest idx := .ok (applySnapshot a snapshot digest idx)
  takeSnapshot := takeSnapshot

end KVStore

/-! ### Concrete parameters -/

/-- The fields of a `KVRequest` on the wire, read onto the message so far; the number bounds
the fields that are read. -/
def KVRequest.parseFields : ℕ → KVRequest → Bytes → Option KVRequest
  | _, r, [] => some r
  | n + 1, r, 8 :: b :: bs =>
    if b = 0 then parseFields n { r with type := .get } bs
    else if b = 1 then parseFields n { r with type := .set } bs
    else if b = 2 then parseFields n { r with type := .delete } bs
    else if b < 128 then parseFields n { r with type := .other } bs
    else none
  | n + 1, r, 18 :: b :: bs =>
    if b < 128 ∧ b.toNat ≤ bs.length then
      parseFields n { r with key := bs.take b.toNat } (bs.drop b.toNat)
    else none
  | n + 1, r, 26 :: b :: bs =>
    if b < 128 ∧ b.toNat ≤ bs.length then
      parseFields n { r with value := bs.take b.toNat } (bs.drop b.toNat)
    else none
  | _, _, _ => none

/-- The wire format of the two messages, for strings of fewer than 128 bytes. -/
abbrev kvWire : KVCodec where
  parseRequest bs := KVRequest.parseFields bs.length ⟨.get, [], []⟩ bs
  serializeResponse ok value :=
    (if ok then [8, 1] else []) ++ (value.map fun v => 18 :: UInt8.ofNat v.length :: v).getD []

/-- An unordered map that is walked in the order of its keys. -/
abbrev sortedWalk : UnorderedWalk := ⟨ExtTreeMap.toList, fun _ => .refl _⟩

end DomBft
