import DomBft.Rollback.Counter
import DomBft.Rollback.KVStore

/-!
Whether an application can execute what another one has executed.

* `KVStore.Indexed`: where the two indexes of a store lie, whatever data it holds.
* `KVStore.executeAll_isOk`: a store executes requests at positions above its index.
* `Counter.HoldsOperations`: a counter that has executed operations only.
* `Counter.executeAll_isOk`: a counter executes what another one has executed.

Both are a `Rollback`, `KVStore.indexed` and `Counter.transfer`, so that the logs keep them in
every run; the store may be replaced over kept requests, and its snapshots need not be plain.
-/

namespace DomBft

open Fallible

/-! ### The key-value store -/

namespace KVStore

variable [KVCodec] {a a' b b' : KVStore} {c : ℕ} {ds : List Bytes}

/-- The indexes of a store that has executed the payloads `ds`, of which `c` are committed: the
committed one is not above `c`, the other one not above the last kept request. -/
structure Indexed (a : KVStore) (c : ℕ) (ds : List Bytes) : Prop where
  committed_le : c ≤ ds.length
  committedIdx_le : a.committedIdx ≤ c
  dataIdx_le : ∀ last, a.requests.getLast? = some last → a.dataIdx ≤ max last.idx c

/-- A payload is executed unless it is kept at a position that is not above the index. -/
lemma execute_cases (a : KVStore) (d : Bytes) (p : ℕ) :
    record p d = [] ∧ a.execute d p = .ok (a, []) ∨
      ∃ r, record p d = [r] ∧ r.idx = p ∧
        (p ≤ a.dataIdx ∧ a.execute d p = .error .assertion ∨
          a.dataIdx < p ∧ ∃ data res, a.execute d p = .ok ({ a with
            data, dataIdx := p, requests := a.requests ++ [r] }, res)) := by
  rw [record, KVStore.execute]
  cases KVCodec.parseRequest d with
  | none => exact .inl ⟨rfl, rfl⟩
  | some req =>
      obtain ⟨type, key, value⟩ := req
      dsimp only
      by_cases hother : type = .other
      · rw [if_pos hother, if_pos hother]
        exact .inl ⟨rfl, rfl⟩
      · rw [if_neg hother, if_neg hother]
        refine .inr ⟨_, rfl, rfl, ?_⟩
        by_cases hle : p ≤ a.dataIdx
        · exact .inl ⟨hle, if_pos hle⟩
        · exact .inr ⟨not_le.mp hle, _, _, if_neg hle⟩

/-- **A store executes payloads** exactly if its index is below the positions of the kept ones. -/
lemma executeAll_isOk [Sha256] [UnorderedWalk] {p : ℕ} :
    (∃ a', executeAll a p ds = .ok a') ↔ ∀ r ∈ recorded p ds, a.dataIdx < r.idx := by
  induction ds generalizing a p with
  | nil => simp [executeAll, recorded]
  | cons d ds ih =>
      rw [executeAll, recorded]
      change (∃ a', (a.execute d (p + 1) >>= fun x => executeAll x.1 (p + 1) ds) = .ok a') ↔ _
      rcases execute_cases a d (p + 1) with ⟨hrecord, hexec⟩ | ⟨r, hrecord, hr, hexec⟩
      · rw [hrecord, hexec, List.nil_append]
        exact ih
      · rw [hrecord]
        rcases hexec with ⟨hle, hexec⟩ | ⟨hlt, data, res, hexec⟩
        · rw [hexec]
          constructor
          · rintro ⟨a', h⟩
            cases h
          · intro h
            have hlt := h r List.mem_cons_self
            omega
        · rw [hexec]
          refine (ih (a := { a with data, dataIdx := p + 1, requests := a.requests ++ [r] })).trans ?_
          constructor
          · intro h r' hr'
            rcases List.mem_cons.mp hr' with rfl | hr'
            · rwa [hr]
            · exact hlt.trans (h r' hr')
          · intro _ r' hr'
            exact (recorded_mem hr').1

namespace Indexed

lemma execute {d res : Bytes} (h : Indexed a c ds)
    (hexec : a.execute d (ds.length + 1) = .ok (a', res)) : Indexed a' c (ds ++ [d]) := by
  have hc : c ≤ (ds ++ [d]).length := by
    rw [List.length_append]
    exact Nat.le_add_right_of_le h.committed_le
  rcases execute_cases a d (ds.length + 1) with
    ⟨-, hok⟩ | ⟨r, -, hr, ⟨-, herr⟩ | ⟨-, data, res', hok⟩⟩
  · rw [hok] at hexec
    cases hexec
    exact ⟨hc, h.committedIdx_le, h.dataIdx_le⟩
  · rw [herr] at hexec
    cases hexec
  · rw [hok] at hexec
    cases hexec
    refine ⟨hc, h.committedIdx_le, fun last hlast => ?_⟩
    rw [List.getLast?_concat] at hlast
    cases hlast
    exact le_max_of_le_left hr.ge

omit [KVCodec] in
lemma commit {i : ℕ} (h : Indexed a c ds) (hc : c < i) (hi : i ≤ ds.length) :
    Indexed (a.commit i) i ds where
  committed_le := hi
  committedIdx_le := le_rfl
  dataIdx_le last hlast := by
    change (a.requests.dropWhile (·.idx ≤ i)).getLast? = some last at hlast
    have hne : a.requests.dropWhile (·.idx ≤ i) ≠ [] := by
      rintro hnil
      rw [hnil] at hlast
      cases hlast
    rw [← List.getLast?_append_of_ne_nil (a.requests.takeWhile (·.idx ≤ i)) hne,
      List.takeWhile_append_dropWhile] at hlast
    exact (h.dataIdx_le last hlast).trans (max_le_max le_rfl hc.le)

omit [KVCodec] in
/-- Going back leaves the index below the position. -/
lemma abort {p : ℕ} (h : Indexed a c ds) (hc : c < p) (hp : p ≤ ds.length)
    (hcan : a.requests ≠ []) :
    ∃ a', a.abort p = .ok a' ∧ Indexed a' c (ds.take (p - 1)) ∧ a'.dataIdx < p := by
  obtain ⟨last, hlast⟩ := Option.isSome_iff_exists.mp (List.getLast?_isSome.mpr hcan)
  have hidx := h.committedIdx_le
  have hlen : c ≤ (ds.take (p - 1)).length := by
    rw [List.length_take]
    omega
  rw [KVStore.abort, hlast]
  dsimp only
  rw [if_neg (by omega)]
  split_ifs with hnewer
  · have hdata := h.dataIdx_le last hlast
    exact ⟨a, rfl, ⟨hlen, hidx, h.dataIdx_le⟩, by omega⟩
  · exact ⟨_, rfl, ⟨hlen, hidx, fun _ _ => le_max_of_le_right hidx⟩,
      Nat.lt_of_le_of_lt hidx hc⟩

end Indexed

omit [KVCodec] in
/-- A store that goes back keeps requests. -/
lemma abort_requests {p : ℕ} (h : a.abort p = .ok a') : a.requests ≠ [] := by
  rintro hnil
  rw [KVStore.abort, hnil] at h
  cases h

/-- A store applies every snapshot with its digest, and its index is at the position then. -/
lemma applySnapshot_isOk [Sha256] [UnorderedWalk] (a b : KVStore) (idx : ℕ) :
    ∃ a', Application.applySnapshot a (Application.takeSnapshot b).snapshot
      (Application.takeSnapshot b).digest idx = .ok (some a') ∧ a'.dataIdx = idx :=
  ⟨_, congrArg Except.ok (if_neg (not_not.mpr rfl)), rfl⟩

/-- **The indexes of a store** in every run: it may be replaced over kept requests. -/
def indexed [Sha256] [UnorderedWalk] (numKeys : ℕ) : Rollback KVStore where
  State := Unit
  state _ := ()
  start := ()
  effect _ _ := ()
  Initial a := ∃ dataIdx, a = create numKeys dataIdx
  CanAbort a := a.requests ≠ []
  CanSnapshot _ := True
  CanReplace _ := True
  Holds := Indexed
  holds_initial := by
    rintro _ ⟨dataIdx, rfl⟩
    exact ⟨le_rfl, le_rfl, nofun⟩
  committed_le h := h.committed_le
  state_eq _ := rfl
  execute h := h.execute
  commit h hc hi := ⟨_, rfl, h.commit hc hi⟩
  abort h hc hp hcan := by
    obtain ⟨a', habort, h', -⟩ := h.abort hc hp hcan
    exact ⟨a', habort, h'⟩
  applySnapshot {a b b' c ds digest} _ _ _ happly := by
    have happly := Except.ok.inj happly
    rw [KVStore.applySnapshot] at happly
    split_ifs at happly
    cases happly
    exact ⟨le_rfl, le_rfl, fun _ _ => le_max_right _ _⟩

end KVStore

/-! ### The counter -/

namespace Counter

variable [CounterCodec] {a a' b b' : Counter} {c : ℕ} {ds ds' : List Bytes}

/-- A payload that is an operation on the counter. -/
def IsOperation (d : Bytes) : Prop :=
  ∃ op, CounterCodec.parseRequest d = some op ∧ op ≠ .other

/-- A counter that has executed operations only. -/
structure HoldsOperations (a : Counter) (c : ℕ) (ds : List Bytes) : Prop extends
    HoldsAt a c ds where
  operations : ∀ d ∈ ds, IsOperation d

/-- The snapshot of a counter gives its value back. -/
def Decodes (a : Counter) : Prop :=
  ∃ b, applySnapshot a.takeSnapshot.snapshot a.takeSnapshot.seq = .ok b ∧ b.counter = a.counter

/-- An operation is executed as long as the counter stays in range. -/
lemma execute_isOk {d : Bytes} {p : ℕ} (hd : IsOperation d)
    (hrange : InRange (effect a.counter d)) :
    ∃ a' res, a.execute d p = .ok (a', res) := by
  obtain ⟨op, hop, hother⟩ := hd
  rw [effect, hop] at hrange
  rw [Counter.execute, hop]
  cases op with
  | other => exact absurd rfl hother
  | increment => exact ⟨_, _, if_neg (not_not.mpr hrange)⟩
  | decrement => exact ⟨_, _, if_neg (not_not.mpr hrange)⟩

lemma isOperation_of_execute {d res : Bytes} {p : ℕ} (h : a.execute d p = .ok (a', res)) :
    IsOperation d := by
  rw [Counter.execute] at h
  rw [IsOperation]
  split at h
  · cases h
  · cases h
  · rename_i op hother hop
    exact ⟨op, hop, hother⟩

/-- **A counter executes what another one has executed** after the same requests. -/
lemma executeAll_isOk (h : HoldsAt a c ds) (hds : ∀ d ∈ ds', IsOperation d)
    (hrange : ∀ k, InRange (valueOf ((ds ++ ds').take k))) :
    ∃ a', executeAll a ds.length ds' = .ok a' := by
  induction ds' generalizing a ds with
  | nil => exact ⟨a, rfl⟩
  | cons d ds' ih =>
      have hstep : InRange (effect a.counter d) := by
        have hnext := hrange (ds.length + 1)
        rwa [List.take_length_add_append, List.take_succ_cons, List.take_zero, valueOf_concat,
          ← h.counter] at hnext
      obtain ⟨a₁, res, hexec⟩ := execute_isOk (p := ds.length + 1) (hds d List.mem_cons_self) hstep
      have h₁ := h.execute hexec
      obtain ⟨a', ha'⟩ := ih h₁ (fun d' hd' => hds d' (List.mem_cons_of_mem _ hd'))
        (by rwa [List.append_assoc])
      rw [List.length_append, List.length_singleton] at ha'
      exact ⟨a', bind_eq_ok.mpr ⟨_, hexec, ha'⟩⟩

omit [CounterCodec] in
/-- What a counter takes over from a snapshot. -/
lemma applySnapshot_eq {snapshot : Bytes} {idx idx' : ℕ} (h : applySnapshot snapshot idx = .ok b)
    (h' : applySnapshot snapshot idx' = .ok b') :
    b' = { b with committedIdx := idx' } ∧
      b.committedValue = b.counter ∧ b.values = ∅ := by
  rw [applySnapshot] at h h'
  obtain ⟨i, hi, h⟩ := bind_eq_ok.mp h
  obtain ⟨v, hv, h⟩ := bind_eq_ok.mp h
  rw [hi, ok_bind, hv, ok_bind] at h'
  split at h
  · cases h
  split at h'
  · cases h'
  cases pure_eq_ok.mp h
  cases pure_eq_ok.mp h'
  exact ⟨rfl, rfl, rfl⟩

/-- The position of a snapshot. -/
lemma HoldsAt.takeSnapshot_seq (h : HoldsAt a c ds) : a.takeSnapshot.seq = ds.length := by
  rcases h.values.getLast? h.committed_le with ⟨hnone, hall⟩ | hlast
  · rw [Counter.takeSnapshot, hnone]
    exact h.committedIdx.trans hall
  · rw [Counter.takeSnapshot, hlast]

/-- A counter that is replaced by a snapshot that gives its value back. -/
lemma HoldsOperations.applySnapshot (h : HoldsOperations a c ds) (hdec : a.Decodes)
    (happly : Counter.applySnapshot a.takeSnapshot.snapshot ds.length = .ok b') :
    HoldsOperations b' ds.length ds := by
  obtain ⟨b, hb, hcounter⟩ := hdec
  have hvalue : b.counter = valueOf ds := hcounter.trans h.counter
  obtain ⟨rfl, hcommitted, hvalues⟩ := applySnapshot_eq hb happly
  refine ⟨⟨le_rfl, h.inRange, rfl, ?_, hvalue, .inl ?_⟩, h.operations⟩
  · rw [List.take_length]
    exact hcommitted.trans hvalue
  · rw [List.drop_length, hvalues]
    rfl

/-- **The counter in every run** whose snapshots give the values back. -/
def transfer : Rollback Counter where
  State := ℤ
  state a := a.counter
  start := 0
  effect := effect
  Initial a := a = {}
  CanAbort _ := True
  CanSnapshot := Decodes
  CanReplace _ := True
  Holds := HoldsOperations
  holds_initial h := ⟨rollback.holds_initial h, nofun⟩
  committed_le h := h.committed_le
  state_eq h := h.counter
  execute {a a' c ds d res} h hexec := by
    refine ⟨h.execute hexec, fun d' hd' => ?_⟩
    rcases List.mem_append.mp hd' with hd' | hd'
    · exact h.operations d' hd'
    · rw [List.mem_singleton.mp hd']
      exact isOperation_of_execute hexec
  commit h hc hi := by
    obtain ⟨a', hcommit, h'⟩ := h.commit hc hi
    exact ⟨a', hcommit, h', h.operations⟩
  abort h hc hp _ :=
    ⟨_, rfl, h.abort hc hp, fun d hd => h.operations d (List.mem_of_mem_take hd)⟩
  applySnapshot h hdec _ happly := by
    obtain ⟨b', hb', happly⟩ := bind_eq_ok.mp happly
    cases pure_eq_ok.mp happly
    exact h.applySnapshot hdec hb'

end Counter

end DomBft
