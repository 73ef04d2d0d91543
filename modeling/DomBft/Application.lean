import DomBft.Basic

/-!
`application.h`: the interface between the log and the replicated application, and
`counter.h`, `counter.cc`, the simpler of the two applications that implement it.

* `Application`: `execute`, `commit`, `abort`, `applySnapshot` and `takeSnapshot`.  Every
  result about the log and the replica holds for an arbitrary application.
* `Counter`: the counter application, with its parser and serializer, which `protoc`
  generates, as the parameter `CounterCodec`; `counterWire` is a concrete one.
-/

namespace DomBft

open Std

/-- `struct AppSnapshot` -/
structure AppSnapshot where
  seq : ℕ := 0
  snapshot : Bytes := []
  digest : Bytes := []
deriving DecidableEq, Repr, Inhabited

/-- `class Application`.  `applySnapshot` gives `none` where the method returns `false`,
which leaves the application as it was; the results of `commit` and `abort` are ignored by
their callers. -/
class Application (A : Type) where
  execute : A → Bytes → ℕ → Except Fault (A × Bytes)
  commit : A → ℕ → Except Fault A
  abort : A → ℕ → Except Fault A
  applySnapshot : A → Bytes → Bytes → ℕ → Except Fault (Option A)
  takeSnapshot : A → AppSnapshot

/-! ### The counter -/

/-- `CounterOperation`, and a value outside the enumeration. -/
inductive CounterOperation where
  | increment
  | decrement
  | other
deriving DecidableEq, Repr

/-- The counter after an operation. -/
def CounterOperation.apply (op : CounterOperation) (v : ℤ) : ℤ :=
  match op with
  | .increment => v + 1
  | .decrement => v - 1
  | .other => v

/-- `CounterRequest::ParseFromString` and `CounterResponse::SerializeAsString`. -/
class CounterCodec where
  parseRequest : Bytes → Option CounterOperation
  serializeResponse : ℤ → Bytes

/-- `class Counter`: the values by position are the counter as a `uint64_t`. -/
structure Counter where
  counter : ℤ := 0
  values : ExtTreeMap ℕ ℕ compare := ∅
  committedValue : ℤ := 0
  committedIdx : ℕ := 0
deriving Inhabited

namespace Counter

/-- `std::to_string` -/
def digits (n : ℕ) : Bytes := (Nat.toDigits 10 n).map fun c => UInt8.ofNat c.toNat

/-- `std::to_string` of an `int` -/
def signedDigits : ℤ → Bytes
  | .ofNat n => digits n
  | .negSucc n => UInt8.ofNat '-'.toNat :: digits (n + 1)

/-- The number that the digits at the beginning of a string spell. -/
def spelled (s : Bytes) : Except Fault ℕ :=
  match s.takeWhile fun b => 48 ≤ b && b ≤ 57 with
  | [] => .error .runtimeError
  | ds => .ok (ds.foldl (fun n b => 10 * n + (b.toNat - 48)) 0)

/-- What `std::stoull` and `std::stoi` read: the number behind white space and a sign, and
whether the sign is a minus. -/
def scanned (s : Bytes) : Except Fault (Bool × ℕ) :=
  match s.dropWhile fun b => b = 32 || (9 ≤ b && b ≤ 13) with
  | 45 :: s => (true, ·) <$> spelled s
  | 43 :: s => (false, ·) <$> spelled s
  | s => (false, ·) <$> spelled s

/-- `std::stoull` -/
def stoull (s : Bytes) : Except Fault ℕ := do
  let (negative, n) ← scanned s
  if 2 ^ 64 ≤ n then .error .runtimeError
  else return if negative then (2 ^ 64 - n) % 2 ^ 64 else n

/-- The range of `int`. -/
def InRange (v : ℤ) : Prop := -2 ^ 31 ≤ v ∧ v < 2 ^ 31

instance (v : ℤ) : Decidable (InRange v) := inferInstanceAs (Decidable (_ ∧ _))

/-- `std::stoi` -/
def stoi (s : Bytes) : Except Fault ℤ := do
  let (negative, n) ← scanned s
  let v : ℤ := if negative then -n else n
  if InRange v then return v else .error .runtimeError

/-- The conversion from `int` to `uint64_t`. -/
def toUnsigned (v : ℤ) : ℕ := (v % 2 ^ 64).toNat

/-- The conversion from `uint64_t` to `int`. -/
def toSigned (n : ℕ) : ℤ := (n : ℤ).bmod (2 ^ 32)

variable [CounterCodec]

/-- `Counter::execute`.  Signed overflow is undefined. -/
def execute (a : Counter) (request : Bytes) (idx : ℕ) : Except Fault (Counter × Bytes) :=
  match CounterCodec.parseRequest request with
  | none | some .other => .error .exit
  | some op =>
    let counter := op.apply a.counter
    if ¬InRange counter then .error .undefined
    else .ok ({ a with counter, values := a.values.insert idx (toUnsigned counter) },
      CounterCodec.serializeResponse counter)

/-- `Counter::commit`: dereferences `values.lower_bound(idx)`. -/
def commit (a : Counter) (idx : ℕ) : Except Fault Counter :=
  match a.values.toList.dropWhile (·.1 < idx) with
  | [] => .error .undefined
  | (i, v) :: l =>
    .ok { a with
      committedIdx := i
      committedValue := toSigned v
      values := ExtTreeMap.ofList ((i, v) :: l) compare }

/-- `Counter::abort` -/
def abort (a : Counter) (idx : ℕ) : Counter :=
  let kept := a.values.toList.takeWhile (·.1 < idx)
  { a with
    counter := match kept.getLast? with
      | none => a.committedValue
      | some (_, v) => toSigned v
    values := ExtTreeMap.ofList kept compare }

/-- `Counter::applySnapshot`.  Where the snapshot has no comma, both numbers are read from
its beginning; the digest is not looked at. -/
def applySnapshot (snapshot : Bytes) (idx : ℕ) : Except Fault Counter := do
  let idxStr := snapshot.takeWhile (· != 44)
  let valueStr := if 44 ∈ snapshot then (snapshot.dropWhile (· != 44)).tail else snapshot
  let committedIdx ← stoull idxStr
  let committedValue ← stoi valueStr
  if committedIdx % 2 ^ 32 ≠ idx then .error .assertion
  else return { counter := committedValue, committedValue, committedIdx := idx }

/-- `Counter::takeSnapshot`.  A value by position is written as the `uint64_t` it is, the
committed one as an `int`. -/
def takeSnapshot (a : Counter) : AppSnapshot :=
  let (idx, value) := match a.values.toList.getLast? with
    | none => (a.committedIdx, signedDigits a.committedValue)
    | some (i, v) => (i, digits v)
  let snapshot := digits idx ++ 44 :: value
  { seq := idx, snapshot, digest := snapshot }

instance : Application Counter where
  execute := execute
  commit := commit
  abort a idx := .ok (abort a idx)
  applySnapshot _ snapshot _ idx := return some (← applySnapshot snapshot idx)
  takeSnapshot := takeSnapshot

end Counter

/-- The wire format of the two counter messages: an operation of value `0` is left out, and
the response is a fixed field of eight bytes, left out where it is `0`. -/
abbrev counterWire : CounterCodec where
  parseRequest
    | [] | [8, 0] => some .increment
    | [8, 1] => some .decrement
    | [8, n] => if n < 128 then some .other else none
    | _ => none
  serializeResponse v :=
    if v = 0 then []
    else 9 :: (List.range 8).map fun i => UInt8.ofNat ((v % 2 ^ 64).toNat / 2 ^ (8 * i))

end DomBft
