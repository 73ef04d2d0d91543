import DomBft.Lib.Run
import DomBft.Rollback.Counter
import DomBft.Rollback.KVStore

/-!
Whether a snapshot is read back, for both applications and every sequence of calls.

* `AppCall`, `appSystem`: the calls that change an application, as a transition system.
* `Counter.snapshot_restored_iff`: when a fresh counter takes over the value and the position of
  another one from its snapshot.
* `KVStore.data_restored_iff`: when a store takes over the data of another one from its snapshot.
-/

namespace DomBft

open Fallible Transition

open Std (ExtTreeMap)

/-! ### The calls of an application -/

/-- The calls that change an application. -/
inductive AppCall where
  | execute (request : Bytes) (idx : ℕ)
  | commit (idx : ℕ)
  | abort (idx : ℕ)
  | applySnapshot (snapshot digest : Bytes) (idx : ℕ)
deriving DecidableEq, Repr

section

variable {A : Type} [Application A]

/-- The application after a call. -/
def AppCall.run (a : A) : AppCall → Except Fault A
  | .execute request idx => Prod.fst <$> Application.execute a request idx
  | .commit idx => Application.commit a idx
  | .abort idx => Application.abort a idx
  | .applySnapshot snapshot digest idx =>
    (Option.getD · a) <$> Application.applySnapshot a snapshot digest idx

/-- All sequences of calls. -/
def appSystem (Initial : A → Prop) : System A AppCall where
  init := Initial
  step a call a' := call.run a = .ok a'

/-- Positions are `uint32_t`, and no snapshot is applied. -/
def Executing : List AppCall → A → AppCall → Prop
  | _, _, .execute _ idx => idx < 2 ^ 32
  | _, _, .applySnapshot .. => False
  | _, _, _ => True

/-- A list of calls that return is a run. -/
lemma run_of_calls {Initial : A → Prop} {a₀ a : A} {calls : List AppCall} (h₀ : Initial a₀)
    (hcalls : ∀ call ∈ calls, ∀ (es : List AppCall) (a : A), Executing es a call)
    (h : calls.foldlM AppCall.run a₀ = .ok a) : Run (appSystem Initial) Executing calls a := by
  have hstart : Run (appSystem Initial) Executing [] a₀ := .start h₀
  exact hstart.of_foldlM (fun es a call _ hmem hrun => ⟨hcalls call hmem es a, hrun⟩) h

end

/-! ### The counter -/

namespace Counter

section

attribute [local irreducible] toSigned toUnsigned

variable [CounterCodec]

/-- A fresh counter reads the snapshot, and has the value and the position of this one. -/
def Restored (a : Counter) : Prop :=
  ∃ b : Counter, Application.applySnapshot ({} : Counter) a.takeSnapshot.snapshot
      a.takeSnapshot.digest a.takeSnapshot.seq = .ok (some b) ∧
    b.counter = a.counter ∧ b.committedIdx = a.takeSnapshot.seq

/-- What every call keeps: positions and values are in range, and where no value is left the
counter is the committed one. -/
structure Sound (a : Counter) : Prop where
  idx : ∀ e ∈ a.values.toList, e.1 < 2 ^ 32
  value : ∀ e ∈ a.values.toList, ∃ v, InRange v ∧ e.2 = toUnsigned v
  committedIdx : a.committedIdx < 2 ^ 32
  committedValue : InRange a.committedValue
  counter : InRange a.counter
  empty : a.values.toList = [] → a.counter = a.committedValue

namespace Sound

variable {a a' : Counter}

lemma execute (h : a.Sound) {request res : Bytes} {idx : ℕ} (hidx : idx < 2 ^ 32)
    (hexec : a.execute request idx = .ok (a', res)) : a'.Sound := by
  obtain ⟨hrange, rfl⟩ := execute_effect hexec
  have hcases : ∀ e ∈ (a.values.insert idx (toUnsigned (effect a.counter request))).toList,
      e = (idx, toUnsigned (effect a.counter request)) ∨ e ∈ a.values.toList := fun e he => by
    rcases OrderedMap.getElem?_insert_cases
      (ExtTreeMap.mem_toList_iff_getElem?_eq_some.mp he) with ⟨hk, hv⟩ | ⟨-, hold⟩
    · exact .inl (Prod.ext hk hv)
    · exact .inr (ExtTreeMap.mem_toList_iff_getElem?_eq_some.mpr hold)
  refine ⟨fun e he => ?_, fun e he => ?_, h.committedIdx, h.committedValue, hrange, fun hnil => ?_⟩
  · rcases hcases e he with rfl | hold
    · exact hidx
    · exact h.idx e hold
  · rcases hcases e he with rfl | hold
    · exact ⟨_, hrange, rfl⟩
    · exact h.value e hold
  · have hmem : (idx, toUnsigned (effect a.counter request)) ∈
        (a.values.insert idx (toUnsigned (effect a.counter request))).toList :=
      ExtTreeMap.mem_toList_iff_getElem?_eq_some.mpr ExtTreeMap.getElem?_insert_self
    rw [hnil] at hmem
    cases hmem

omit [CounterCodec] in
/-- A part of the values is ordered by position. -/
lemma toList_ofList_sublist {l : List (ℕ × ℕ)} (hl : l.Sublist a.values.toList) :
    (ExtTreeMap.ofList l compare).toList = l :=
  OrderedMap.toList_ofList (ExtTreeMap.ordered_keys_toList.sublist hl)

omit [CounterCodec] in
lemma commit (h : a.Sound) {idx : ℕ} (hcommit : a.commit idx = .ok a') : a'.Sound := by
  rw [Counter.commit] at hcommit
  have hsub := List.dropWhile_sublist (fun e : ℕ × ℕ => decide (e.1 < idx)) (l := a.values.toList)
  split at hcommit
  · cases hcommit
  · rename_i i v l hdrop
    rw [hdrop] at hsub
    cases Except.ok.inj hcommit
    have hlist := toList_ofList_sublist hsub
    have hfirst := hsub.subset List.mem_cons_self
    obtain ⟨x, hx, hvx⟩ := h.value _ hfirst
    have hvx : v = toUnsigned x := hvx
    refine ⟨fun e he => ?_, fun e he => ?_, h.idx _ hfirst, ?_, h.counter, fun hnil => ?_⟩
    · exact h.idx e (hsub.subset (hlist ▸ he))
    · exact h.value e (hsub.subset (hlist ▸ he))
    · show InRange (toSigned v)
      rw [hvx, toSigned_toUnsigned hx]
      exact hx
    · cases hlist.symm.trans hnil

omit [CounterCodec] in
lemma abort (h : a.Sound) (idx : ℕ) : (a.abort idx).Sound := by
  have hsub := List.takeWhile_sublist (fun e : ℕ × ℕ => decide (e.1 < idx)) (l := a.values.toList)
  have hlist := toList_ofList_sublist hsub
  rw [Counter.abort]
  refine ⟨fun e he => ?_, fun e he => ?_, h.committedIdx, h.committedValue, ?_, fun hnil => ?_⟩
  · exact h.idx e (hsub.subset (hlist ▸ he))
  · exact h.value e (hsub.subset (hlist ▸ he))
  · dsimp only
    split
    · exact h.committedValue
    · rename_i i v hlast
      obtain ⟨x, hx, hvx⟩ := h.value _ (hsub.subset (List.mem_of_getLast? hlast))
      have hvx : v = toUnsigned x := hvx
      rw [hvx, toSigned_toUnsigned hx]
      exact hx
  · have hkept := hlist.symm.trans hnil
    dsimp only
    rw [hkept]
    rfl

end Sound

omit [CounterCodec] in
/-- A snapshot is read if its value is. -/
lemma read_snapshot {i : ℕ} (hi : i < 2 ^ 32) (text : Bytes) :
    applySnapshot (digits i ++ 44 :: text) i =
      (fun v => { counter := v, committedValue := v, committedIdx := i }) <$> stoi text := by
  rw [applySnapshot_text, stoull_digits_eq (hi.trans (by norm_num)), ok_bind]
  cases stoi text with
  | error fault => rfl
  | ok v => exact if_neg (not_not.mpr (Nat.mod_eq_of_lt hi))

/-- A fresh counter takes over what the text of a snapshot says. -/
lemma restored_of_text {a : Counter} {i : ℕ} (hi : i < 2 ^ 32) (text : Bytes)
    (htake : a.takeSnapshot = ⟨i, digits i ++ 44 :: text, digits i ++ 44 :: text⟩) :
    a.Restored ↔ stoi text = .ok a.counter := by
  rw [Restored, htake]
  simp only [Application.applySnapshot, read_snapshot hi]
  cases stoi text with
  | error fault => simp [Functor.map, Except.map]
  | ok v => simp [Functor.map, Except.map, pure, Except.pure]

/-- **What a fresh counter reads of a snapshot**: it takes over the value and the position if
no value by position is left, or if the last one is the counter, and is not negative. -/
lemma Sound.restored_iff {a : Counter} (h : a.Sound) :
    a.Restored ↔ a.values.toList = [] ∨
      0 ≤ a.counter ∧ ∃ i, a.values.toList.getLast? = some (i, toUnsigned a.counter) := by
  cases hlast : a.values.toList.getLast? with
  | none =>
      have hnil := List.getLast?_eq_none_iff.mp hlast
      rw [restored_of_text h.committedIdx (signedDigits a.committedValue)
        (by rw [takeSnapshot, hlast]), stoi_signedDigits h.committedValue, h.empty hnil]
      simp [hnil]
  | some last =>
      obtain ⟨i, v⟩ := last
      have hmem := List.mem_of_getLast? hlast
      have hne : a.values.toList ≠ [] := List.ne_nil_of_mem hmem
      obtain ⟨x, hx, hvx⟩ := h.value _ hmem
      have hvx : v = toUnsigned x := hvx
      rw [restored_of_text (h.idx _ hmem) (digits v) (by rw [takeSnapshot, hlast])]
      simp only [hne, false_or, Option.some.injEq, Prod.mk.injEq, exists_and_right, exists_eq',
        true_and]
      constructor
      · intro hread
        have hcast := stoi_digits_ok hread
        have hnonneg : 0 ≤ a.counter := hcast ▸ Int.natCast_nonneg v
        refine ⟨hnonneg, ?_⟩
        have hunsigned := toUnsigned_of_nonneg h.counter hnonneg
        omega
      · rintro ⟨hnonneg, rfl⟩
        have hunsigned := toUnsigned_of_nonneg h.counter hnonneg
        rw [stoi_digits (by rw [hunsigned]; exact h.counter), hunsigned]

/-- Every sequence of increments, decrements, commits and aborts keeps this. -/
lemma sound_of_run {calls : List AppCall} {a : Counter}
    (h : Run (appSystem (· = ({} : Counter))) Executing calls a) : a.Sound := by
  refine h.invariant (P := fun _ a => a.Sound) ?_ ?_
  · rintro _ rfl
    have hzero : InRange 0 := by decide
    exact ⟨by simp, by simp, by decide, hzero, hzero, fun _ => rfl⟩
  · intro calls a call a' _ hsound hexec hstep
    cases call with
    | execute request idx =>
        obtain ⟨⟨a₁, res⟩, hok, rfl⟩ := map_eq_ok.mp hstep
        exact hsound.execute hexec hok
    | commit idx => exact hsound.commit hstep
    | abort idx =>
        cases Except.ok.inj hstep
        exact hsound.abort idx
    | applySnapshot snapshot digest idx => cases hexec

/-- **The snapshot of a counter is read back**, at every point of every sequence of increments,
decrements, commits and aborts, if no value by position is left, or if the last one is the
counter, and is not negative. -/
theorem snapshot_restored_iff {calls : List AppCall} {a : Counter}
    (h : Run (appSystem (· = ({} : Counter))) Executing calls a) :
    a.Restored ↔ a.values.toList = [] ∨
      0 ≤ a.counter ∧ ∃ i, a.values.toList.getLast? = some (i, toUnsigned a.counter) :=
  (sound_of_run h).restored_iff

end

section

attribute [local instance] counterWire

/-- Two increments and a decrement, of which two requests are committed: the counter is read
back. -/
theorem increment_restored :
    ∃ a : Counter, Run (appSystem (· = ({} : Counter))) Executing
        [.execute [] 1, .execute [8, 1] 2, .execute [] 3, .commit 2] a ∧ a.Restored := by
  obtain ⟨a, hcalls, hlast⟩ : ∃ a : Counter,
      [AppCall.execute [] 1, .execute [8, 1] 2, .execute [] 3, .commit 2].foldlM AppCall.run {} =
        .ok a ∧ 0 ≤ a.counter ∧ a.values.toList.getLast? = some (3, toUnsigned a.counter) := by
    decide +kernel
  have hrun : Run (appSystem (· = ({} : Counter))) Executing _ a :=
    run_of_calls rfl (by simp [Executing]) hcalls
  exact ⟨a, hrun, (snapshot_restored_iff hrun).mpr (.inr ⟨hlast.1, 3, hlast.2⟩)⟩

/-- After one decrement the snapshot does not have a value that `std::stoi` reads. -/
theorem negative_not_restored :
    ∃ a : Counter, Run (appSystem (· = ({} : Counter))) Executing [.execute [8, 1] 1] a ∧
      ¬a.Restored := by
  obtain ⟨a, hcalls, hfails⟩ : ∃ a : Counter,
      [AppCall.execute [8, 1] 1].foldlM AppCall.run {} = .ok a ∧
        (Application.applySnapshot ({} : Counter) a.takeSnapshot.snapshot a.takeSnapshot.digest
          a.takeSnapshot.seq).isOk = false := by
    decide +kernel
  refine ⟨a, run_of_calls rfl (by simp [Executing]) hcalls, ?_⟩
  rintro ⟨b, hread, -⟩
  rw [hread] at hfails
  cases hfails

end

end Counter

/-! ### The key-value store -/

namespace KVStore

lemma not_mem_of_mem_getlines {sep : UInt8} {acc s p : Bytes} (hacc : sep ∉ acc)
    (hp : p ∈ getlines sep acc s) : sep ∉ p := by
  fun_induction getlines sep acc s with
  | case1 => cases hp
  | case2 b bs =>
      rw [List.mem_singleton.mp hp]
      exact hacc
  | case3 acc bs ih =>
      rcases List.mem_cons.mp hp with rfl | hp
      · exact hacc
      · exact ih (by simp) hp
  | case4 acc b bs hb ih =>
      refine ih (fun hmem => ?_) hp
      rcases List.mem_append.mp hmem with hmem | hmem
      · exact hacc hmem
      · exact hb (List.mem_singleton.mp hmem).symm

lemma mem_of_mem_getlines {sep b : UInt8} {acc s p : Bytes} (hp : p ∈ getlines sep acc s)
    (hb : b ∈ p) : b ∈ acc ∨ b ∈ s := by
  fun_induction getlines sep acc s with
  | case1 => cases hp
  | case2 c cs =>
      rw [List.mem_singleton.mp hp] at hb
      exact .inl hb
  | case3 acc bs ih =>
      rcases List.mem_cons.mp hp with rfl | hp
      · exact .inl hb
      · rcases ih hp with hmem | hmem
        · cases hmem
        · exact .inr (List.mem_cons_of_mem _ hmem)
  | case4 acc c bs hc ih =>
      rcases ih hp with hmem | hmem
      · rcases List.mem_append.mp hmem with hmem | hmem
        · exact .inl hmem
        · exact .inr (List.mem_singleton.mp hmem ▸ List.mem_cons_self)
      · exact .inr (List.mem_cons_of_mem _ hmem)

/-- What is read of one piece holds no separators. -/
lemma parseEntry_separated {kv : Bytes} (hkv : (44 : UInt8) ∉ kv) :
    Plain (parseEntry kv).1 ∧ Plain (parseEntry kv).2 := by
  have hpiece : ∀ i : ℕ, Plain ((getlines 58 [] kv)[i]?.getD []) := fun i => by
    cases hi : (getlines 58 [] kv)[i]? with
    | none => exact ⟨by simp, by simp⟩
    | some p =>
        have hp := List.mem_of_getElem? hi
        refine ⟨not_mem_of_mem_getlines (by simp) hp, fun hmem => hkv ?_⟩
        rcases mem_of_mem_getlines hp hmem with hnil | hmem
        · cases hnil
        · exact hmem
  exact ⟨hpiece 0, hpiece 1⟩

/-- What is read of a snapshot holds no separators, whatever the snapshot is. -/
lemma parseData_separated (snapshot : Bytes) :
    ∀ e ∈ (parseData snapshot).toList, Plain e.1 ∧ Plain e.2 := by
  have hpieces : ∀ kv ∈ getlines 44 [] snapshot, (44 : UInt8) ∉ kv := fun kv hkv =>
    not_mem_of_mem_getlines (by simp) hkv
  have hloop : ∀ (l : List Bytes) (m : KVData), (∀ kv ∈ l, (44 : UInt8) ∉ kv) →
      (∀ e ∈ m.toList, Plain e.1 ∧ Plain e.2) →
      ∀ e ∈ (l.foldl (fun m kv => m.insert (parseEntry kv).1 (parseEntry kv).2) m).toList,
        Plain e.1 ∧ Plain e.2 := by
    intro l
    induction l with
    | nil => exact fun m _ hm => hm
    | cons kv l ih =>
        intro m hl hm
        refine ih _ (fun kv' hkv' => hl kv' (List.mem_cons_of_mem _ hkv')) fun e he => ?_
        rcases OrderedMap.getElem?_insert_cases
          (ExtTreeMap.mem_toList_iff_getElem?_eq_some.mp he) with ⟨hk, hv⟩ | ⟨-, hold⟩
        · rw [hk, hv]
          exact parseEntry_separated (hl kv List.mem_cons_self)
        · exact hm e (ExtTreeMap.mem_toList_iff_getElem?_eq_some.mpr hold)
  exact hloop _ ∅ hpieces (by simp)

/-- **The text of a snapshot gives back the data** exactly if no key and no value holds a
separator. -/
lemma parseData_serializeData_iff [UnorderedWalk] {data : KVData} :
    parseData (serializeData data) = data ↔ ∀ e ∈ data.toList, Plain e.1 ∧ Plain e.2 :=
  ⟨fun h => h ▸ parseData_separated _, parseData_serializeData⟩

section

variable [KVCodec] [Sha256] [UnorderedWalk]

/-- Every store takes over the data of this one from its snapshot. -/
def Restored (a : KVStore) : Prop :=
  ∀ (b : KVStore) (idx : ℕ), ∃ b' : KVStore, Application.applySnapshot b
      a.takeSnapshot.snapshot a.takeSnapshot.digest idx = .ok (some b') ∧ b'.data = a.data

/-- The data are those that the kept requests make of the committed ones. -/
def Current (a : KVStore) : Prop := a.data = a.requests.foldl KVStoreRequest.write a.committedData

/-- A snapshot is read back exactly if the data are. -/
lemma Current.restored_iff {a : KVStore} (h : a.Current) :
    a.Restored ↔ ∀ e ∈ a.data.toList, Plain e.1 ∧ Plain e.2 := by
  have htake : a.takeSnapshot.snapshot = serializeData a.data := by
    rw [h]
    rfl
  rw [← parseData_serializeData_iff, ← htake]
  constructor
  · intro hrestored
    obtain ⟨b', hread, hdata⟩ := hrestored a 0
    have happly := Except.ok.inj hread
    rw [applySnapshot, if_neg (fun hne => hne rfl)] at happly
    cases Option.some.inj happly
    exact hdata
  · intro hparse b idx
    refine ⟨_, congrArg Except.ok (if_neg fun hne => hne rfl), hparse⟩

/-- A call keeps the data current, if no snapshot is applied over kept requests. -/
lemma Current.run {a a' : KVStore} (h : a.Current) {call : AppCall}
    (hcall : ∀ snapshot digest idx, call = .applySnapshot snapshot digest idx → a.requests = [])
    (hrun : call.run a = .ok a') : a'.Current := by
  cases call with
  | execute request idx =>
      obtain ⟨⟨a₁, res⟩, hok, rfl⟩ := map_eq_ok.mp hrun
      obtain ⟨-, hcommitted, hrequests, hdata, -⟩ := execute_effect hok
      show a₁.data = _
      rw [hdata, hrequests, hcommitted, List.foldl_append, foldl_record, h]
  | commit idx =>
      cases Except.ok.inj hrun
      show a.data = (a.requests.dropWhile _).foldl KVStoreRequest.write
        ((a.requests.takeWhile _).foldl KVStoreRequest.write a.committedData)
      rw [← List.foldl_append, List.takeWhile_append_dropWhile, h]
  | abort idx =>
      have habort : a.abort idx = .ok a' := hrun
      rw [KVStore.abort] at habort
      split at habort
      · cases habort
      · split_ifs at habort
        · cases Except.ok.inj habort
          exact h
        · cases Except.ok.inj habort
          exact h
        · cases Except.ok.inj habort
          rfl
  | applySnapshot snapshot digest idx =>
      have happly : (a.applySnapshot snapshot digest idx).getD a = a' := Except.ok.inj hrun
      rw [applySnapshot] at happly
      split_ifs at happly
      · rwa [← happly]
      · rw [← happly, Option.getD_some, Current, hcall snapshot digest idx rfl]
        rfl

/-- **The snapshot of a store is read back**, at every point of every sequence of executions,
commits and aborts, exactly if no key and no value holds a separator. -/
theorem data_restored_iff {numKeys : ℕ} {calls : List AppCall} {a : KVStore}
    (h : Run (appSystem fun a => ∃ dataIdx, a = create numKeys dataIdx) Executing calls a) :
    a.Restored ↔ ∀ e ∈ a.data.toList, Plain e.1 ∧ Plain e.2 := by
  have hcurrent : a.Current := by
    refine h.invariant (P := fun _ a => a.Current) ?_ ?_
    · rintro _ ⟨dataIdx, rfl⟩
      rfl
    · intro calls a call a' _ hcurrent hexec hstep
      refine hcurrent.run (fun snapshot digest idx hcall => ?_) hstep
      subst hcall
      cases hexec
  exact hcurrent.restored_iff

end

section

attribute [local instance] prefixSha kvWire sortedWalk

/-- `SET` with key and value of one letter each. -/
def setLetters (key value : UInt8) : Bytes := [8, 1, 18, 1, key, 26, 1, value]

/-- A store with one entry, of plain letters, is read back. -/
theorem letters_restored :
    ∃ a : KVStore, Run (appSystem fun a => ∃ dataIdx, a = create 0 dataIdx) Executing
        [.execute (setLetters 97 98) 1] a ∧ a.Restored := by
  obtain ⟨a, hcalls, hplain⟩ : ∃ a : KVStore,
      [AppCall.execute (setLetters 97 98) 1].foldlM AppCall.run (create 0 0) = .ok a ∧
        ∀ e ∈ a.data.toList, Plain e.1 ∧ Plain e.2 := by
    decide +kernel
  have hrun : Run (appSystem fun a => ∃ dataIdx, a = create 0 dataIdx) Executing _ a :=
    run_of_calls ⟨0, rfl⟩ (by simp [Executing]) hcalls
  exact ⟨a, hrun, (data_restored_iff hrun).mpr hplain⟩

/-- A value with a colon is read up to the colon. -/
theorem colon_not_restored :
    ∃ a : KVStore, Run (appSystem fun a => ∃ dataIdx, a = create 0 dataIdx) Executing
        [.execute (setLetters 97 58) 1] a ∧ ¬a.Restored := by
  obtain ⟨a, hcalls, hread⟩ : ∃ a : KVStore,
      [AppCall.execute (setLetters 97 58) 1].foldlM AppCall.run (create 0 0) = .ok a ∧
        ∃ b', Application.applySnapshot (create 0 0) a.takeSnapshot.snapshot a.takeSnapshot.digest
          1 = .ok b' ∧ (b'.map fun b => b.data.toList) = some [([97], [])] ∧
          a.data.toList = [([97], [58])] := by
    decide +kernel
  refine ⟨a, run_of_calls ⟨0, rfl⟩ (by simp [Executing]) hcalls, fun hrestored => ?_⟩
  obtain ⟨b, happly, hb, hdata⟩ := hread
  obtain ⟨b', happly', hsame⟩ := hrestored (create 0 0) 1
  cases happly.symm.trans happly'
  have hlist : b'.data.toList = [([97], [])] := Option.some.inj hb
  rw [hsame, hdata] at hlist
  cases hlist

end

end KVStore

end DomBft
