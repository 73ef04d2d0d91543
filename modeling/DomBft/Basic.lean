import Mathlib.Tactic

/-!
What the rest of the development stands on: byte strings, the ways a process can stop, and
the parts that are linked in and not written in the repository.

* `Bytes`, `le32`: `std::string` and the four bytes of a `uint32_t` as they lie in memory.
* `Fault`: a failed `assert`, a thrown exception, `exit(1)`, and undefined behaviour.  A
  handler that reaches one of them has no next state.
* `Sha256`, `PaddedRequestData`: CryptoPP's hash and the parser that `protoc` generates,
  as parameters.  `CollisionFree` is what the protocol relies on: no collisions, and no
  digest a proper prefix of another, since all have the same length.
* `prefixSha`, `shortPaddedRequestData`: concrete parameters, to evaluate the model with;
  `prefixSha_collisionFree` says that the assumption can be met.
-/

namespace DomBft

/-- A `std::string` of bytes. -/
abbrev Bytes := List UInt8

/-- The bytes of a `uint32_t` in memory order, least significant first. -/
def le32 (x : UInt32) : Bytes :=
  [UInt8.ofNat x.toNat, UInt8.ofNat (x.toNat / 2 ^ 8), UInt8.ofNat (x.toNat / 2 ^ 16),
    UInt8.ofNat (x.toNat / 2 ^ 24)]

@[simp] lemma le32_length (x : UInt32) : (le32 x).length = 4 := rfl

lemma le32_injective : Function.Injective le32 := by
  intro x y h
  simp only [le32, List.cons.injEq, ← UInt8.toNat_inj, UInt8.toNat_ofNat', and_true] at h
  obtain ⟨h0, h1, h2, h3⟩ := h
  have hx := x.toNat_lt
  have hy := y.toNat_lt
  refine UInt32.toNat_inj.mp ?_
  omega

/-- Why a process stops inside a handler. -/
inductive Fault where
  /-- a failed `assert` -/
  | assertion
  /-- an uncaught exception -/
  | runtimeError
  /-- `exit(1)` -/
  | exit
  /-- an access outside a container, or through a null pointer or an empty `optional` -/
  | undefined
deriving DecidableEq, Repr

/-! ### Parts that are linked in -/

/-- `CryptoPP::SHA256`. -/
class Sha256 where
  sha256 : Bytes → Bytes

export Sha256 (sha256)

/-- `PaddedRequestData::ParseFromString` followed by `req_data()`: the request inside the
padding, if the bytes parse. -/
class PaddedRequestData where
  reqData : Bytes → Option Bytes

export PaddedRequestData (reqData)

/-- SHA-256 has no collisions.  All its digests are 32 bytes long, of which only this is
used: no digest is a proper prefix of another. -/
structure CollisionFree [Sha256] : Prop where
  injective : Function.Injective sha256
  eq_of_prefix : ∀ a b, sha256 a <+: sha256 b → sha256 a = sha256 b

namespace CollisionFree

variable [Sha256]

/-- A digest is not the empty string, the digest of the empty log. -/
lemma ne_nil (hc : CollisionFree) (a : Bytes) : sha256 a ≠ [] := by
  intro ha
  have hall : ∀ b, sha256 b = [] := fun b => by
    rw [← hc.eq_of_prefix a b (ha ▸ List.nil_prefix), ha]
  exact absurd (hc.injective ((hall []).trans (hall [0]).symm)) (by simp)

/-- A digest in front of a byte string can be split off in one way only. -/
lemma append_inj (hc : CollisionFree) {a b r s : Bytes} (h : sha256 a ++ r = sha256 b ++ s) :
    a = b ∧ r = s := by
  have hab : sha256 a = sha256 b := by
    have ha : sha256 a <+: sha256 b ++ s := h ▸ List.prefix_append _ _
    rcases List.prefix_or_prefix_of_prefix ha (List.prefix_append _ s) with hp | hp
    · exact hc.eq_of_prefix a b hp
    · exact (hc.eq_of_prefix b a hp).symm
  rw [hab] at h
  exact ⟨hc.injective hab, List.append_cancel_left h⟩

end CollisionFree

/-! ### Concrete parameters -/

/-- Every byte behind a marker, and an end mark. -/
def prefixDigest : Bytes → Bytes
  | [] => [0]
  | b :: bs => 1 :: b :: prefixDigest bs

/-- A hash without collisions. -/
abbrev prefixSha : Sha256 := ⟨prefixDigest⟩

lemma prefixDigest_of_isPrefix : ∀ a b : Bytes, prefixDigest a <+: prefixDigest b → a = b
  | [], [], _ => rfl
  | [], _ :: _, h => by simp [prefixDigest] at h
  | _ :: _, [], h => by simp [prefixDigest] at h
  | a :: as, b :: bs, h => by
      rw [prefixDigest, prefixDigest, List.cons_prefix_cons, List.cons_prefix_cons] at h
      obtain ⟨-, rfl, h⟩ := h
      rw [prefixDigest_of_isPrefix as bs h]

/-- What is assumed of the hash can be met. -/
lemma prefixSha_collisionFree : @CollisionFree prefixSha :=
  letI : Sha256 := prefixSha
  { injective := fun a b h =>
      prefixDigest_of_isPrefix a b (show sha256 a <+: sha256 b from h ▸ List.prefix_rfl)
    eq_of_prefix := fun a b h => congrArg prefixDigest (prefixDigest_of_isPrefix a b h) }

/-- The wire format of `PaddedRequestData` without padding, for requests of fewer than 128
bytes: the tag of field `1`, the length, and the request; the empty message is valid. -/
abbrev shortPaddedRequestData : PaddedRequestData where
  reqData
    | [] => some []
    | 10 :: n :: data => if n < 128 ∧ data.length = n.toNat then some data else none
    | _ => none

end DomBft
