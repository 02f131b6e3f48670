import AceChain.Lib.Bytes
import Mathlib.Data.List.AList
import Mathlib.Data.List.Sort
import Mathlib.Data.BitVec

namespace AceChain

/-- A 32-byte array read as a big-endian number, so that `≤` is the byte-wise lexicographic order. -/
abbrev Hash := BitVec 256

structure AccountId where
  bytes : Hash
deriving DecidableEq

namespace AccountId

def zero : AccountId := ⟨0⟩

instance : Ord AccountId := ⟨fun a b => compare a.bytes b.bytes⟩

instance : Std.TransOrd AccountId where
  eq_swap := by
    intro a b
    show compare a.bytes b.bytes = (compare b.bytes a.bytes).swap
    exact Std.OrientedCmp.eq_swap
  isLE_trans := by
    intro a b c first second
    show (compare a.bytes c.bytes).isLE
    exact Std.TransCmp.isLE_trans (b := b.bytes) first second

instance : Std.LawfulEqOrd AccountId where
  eq_of_compare := by
    intro a b same
    have bytes : compare a.bytes b.bytes = .eq := same
    cases a
    cases b
    cases Std.LawfulEqCmp.eq_of_compare bytes
    rfl

end AccountId

inductive SignatureAlgorithm where
  | ed25519
  | secp256k1
  | mlDsa44
  | hmacSha256
deriving DecidableEq

structure TaggedSignature where
  algorithm : SignatureAlgorithm
  bytes : List UInt8
deriving DecidableEq

structure TaggedPubkey where
  algorithm : SignatureAlgorithm
  bytes : List UInt8
deriving DecidableEq

def beHash (bytes : List UInt8) : Hash := BitVec.ofNat 256 (leNat bytes.reverse)

def hashBytes (h : Hash) : List UInt8 := (leBytes 32 h.toNat).reverse

@[simp] theorem length_hashBytes (h : Hash) : (hashBytes h).length = 32 := by simp [hashBytes]

theorem hashBytes_injective {h h' : Hash} (same : hashBytes h = hashBytes h') : h = h' := by
  apply BitVec.eq_of_toNat_eq
  exact leBytes_injective h.isLt h'.isLt (List.reverse_injective same)

theorem beHash_hashBytes (h : Hash) : beHash (hashBytes h) = h := by
  unfold beHash hashBytes
  have small : h.toNat < 256 ^ 32 := h.isLt
  rw [List.reverse_reverse, leNat_leBytes, Nat.mod_eq_of_lt small, BitVec.ofNat_toNat, BitVec.setWidth_eq]

theorem hashBytes_beHash {bytes : List UInt8} (length : bytes.length = 32) : hashBytes (beHash bytes) = bytes := by
  have size : bytes.reverse.length = 32 := by rw [List.length_reverse, length]
  have small : leNat bytes.reverse < 2 ^ 256 := by
    have bound := leNat_lt bytes.reverse
    rw [size] at bound
    exact bound
  unfold beHash hashBytes
  rw [BitVec.toNat_ofNat, Nat.mod_eq_of_lt small, ← size, leBytes_leNat, List.reverse_reverse]

def SignatureAlgorithm.fromTag (tag : UInt8) : Option SignatureAlgorithm :=
  if tag = 0 then some .ed25519
  else if tag = 1 then some .secp256k1
  else if tag = 2 then some .mlDsa44
  else if tag = 3 then some .hmacSha256
  else none

def SignatureAlgorithm.pubkeyLen : SignatureAlgorithm → Nat
  | .ed25519 => 32
  | .secp256k1 => 33
  | .mlDsa44 => 1312
  | .hmacSha256 => 32

def SignatureAlgorithm.signatureLen : SignatureAlgorithm → Nat
  | .ed25519 => 64
  | .secp256k1 => 64
  | .mlDsa44 => 2420
  | .hmacSha256 => 32

def SignatureAlgorithm.tag : SignatureAlgorithm → UInt8
  | .ed25519 => 0
  | .secp256k1 => 1
  | .mlDsa44 => 2
  | .hmacSha256 => 3

def SignatureAlgorithm.name : SignatureAlgorithm → String
  | .ed25519 => "Ed25519"
  | .secp256k1 => "Secp256k1"
  | .mlDsa44 => "MlDsa44"
  | .hmacSha256 => "HmacSha256"

namespace TaggedPubkey

def ed25519 (bytes : List UInt8) : TaggedPubkey := ⟨.ed25519, bytes⟩

def mlDsa44 (bytes : List UInt8) : TaggedPubkey := ⟨.mlDsa44, bytes⟩

def isZero (key : TaggedPubkey) : Bool := key.bytes.all (· == 0)

def default : TaggedPubkey := ed25519 (List.replicate 32 0)

def fromWireBytes (data : List UInt8) : Except String (TaggedPubkey × Nat) :=
  match data with
  | tag :: lo :: hi :: rest =>
    match SignatureAlgorithm.fromTag tag with
    | none => .error "unknown signature algorithm tag"
    | some algorithm =>
      let keyLen := leNat [lo, hi]
      if keyLen ≠ algorithm.pubkeyLen then .error "key length does not match algorithm"
      else if rest.length < keyLen then .error "tagged pubkey bytes truncated"
      else .ok (⟨algorithm, rest.take keyLen⟩, 3 + keyLen)
  | _ => .error "tagged pubkey too short"

end TaggedPubkey

/-- An empty ML-DSA-44 signature is the placeholder of a stripped credential. -/
def TaggedSignature.fromWireBytes (data : List UInt8) : Except String (TaggedSignature × Nat) :=
  match data with
  | tag :: lo :: hi :: rest =>
    match SignatureAlgorithm.fromTag tag with
    | none => .error "unknown signature algorithm tag"
    | some algorithm =>
      let sigLen := leNat [lo, hi]
      if ¬(algorithm = .mlDsa44 ∧ sigLen = 0) ∧ sigLen ≠ algorithm.signatureLen then
        .error "signature length does not match algorithm"
      else if rest.length < sigLen then .error "tagged signature bytes truncated"
      else .ok (⟨algorithm, rest.take sigLen⟩, 3 + sigLen)
  | _ => .error "tagged signature too short"

variable (a b : Nat)

/-- Release builds wrap `u32` and `u64` additions. -/
def u32Add : Nat := (a + b) % 2 ^ 32

def u64Add : Nat := (a + b) % 2 ^ 64

def u32Max : Nat := 2 ^ 32 - 1

def u64Max : Nat := 2 ^ 64 - 1

/-- `saturating_add`; subtraction of naturals saturates by itself. -/
def u64SatAdd : Nat := min (a + b) u64Max

def u64SatMul : Nat := min (a * b) u64Max

def u64CheckedAdd : Option Nat := if a + b ≤ u64Max then some (a + b) else none

def u64CheckedMul : Option Nat := if a * b ≤ u64Max then some (a * b) else none

def u64CheckedPow (a n : Nat) : Option Nat := if a ^ n ≤ u64Max then some (a ^ n) else none

def quorumNumerator : Nat := 2

def quorumDenominator : Nat := 3

def hasQuorum (votes totalStake : Nat) : Bool :=
  if totalStake = 0 then false
  else decide (quorumNumerator * totalStake ≤ votes * quorumDenominator)

theorem u32Add_one_of_lt (round : Nat) (bound : round + 1 < 2 ^ 32) : u32Add round 1 = round + 1 :=
  Nat.mod_eq_of_lt bound

theorem u64Add_of_lt (a b : Nat) (bound : a + b < 2 ^ 64) : u64Add a b = a + b :=
  Nat.mod_eq_of_lt bound

theorem u64CheckedAdd_eq {a b sum : Nat} (fits : u64CheckedAdd a b = some sum) : sum = a + b := by
  unfold u64CheckedAdd at fits
  split at fits
  · exact (Option.some.inj fits).symm
  · cases fits

theorem u64CheckedAdd_lt {a b sum : Nat} (added : u64CheckedAdd a b = some sum) : sum < 2 ^ 64 := by
  unfold u64CheckedAdd at added
  split at added
  · rename_i fits
    cases added
    unfold u64Max at fits
    omega
  · cases added

theorem hasQuorum_iff (votes totalStake : Nat) :
    hasQuorum votes totalStake = true ↔ 0 < totalStake ∧ 2 * totalStake ≤ 3 * votes := by
  unfold hasQuorum quorumNumerator quorumDenominator
  split
  · simp only [Bool.false_eq_true, false_iff]
    omega
  · simp only [decide_eq_true_eq]
    omega

end AceChain
