import AceChain.Lib.MerkleTree
import AceChain.Runtime.Wire

namespace AceChain.Runtime

open Lib MerkleTree

section

variable (sha : List UInt8 → Hash)

def hashPair (a b : Hash) : Hash := sha (hashBytes a ++ hashBytes b)

def computeMerkleRootFromHashes (hashes : List Hash) : Hash :=
  if hashes.isEmpty then 0 else (pairUpAll (hashPair sha) hashes.length hashes).headD 0

def Transaction.wireHash (tx : Transaction) : Hash := sha tx.toBytes

variable (txs : List Transaction)

def computeTxMerkleRoot : Hash := computeMerkleRootFromHashes sha (txs.map (·.wireHash sha))

def preimage : List UInt8 ⊕ Hash × Hash → List UInt8
  | .inl bytes => bytes
  | .inr (a, b) => hashBytes a ++ hashBytes b

def txTrees : List (MerkleTree (List UInt8)) :=
  pairUpAll .node txs.length (txs.map (fun tx => .leaf tx.toBytes))

/-- The byte strings that are hashed for the root: the wire encodings, and the pairs of hashes on the way up. -/
def rootInputs : List (List UInt8) :=
  ((txTrees txs).flatMap (inputs (sha ∘ preimage))).map preimage

end

variable {sha : List UInt8 → Hash} {txs txs' : List Transaction} {t t' : MerkleTree (List UInt8)}

theorem preimage_injective {x y : List UInt8 ⊕ Hash × Hash} (leaf : ∀ bytes, x = .inl bytes → bytes.length ≠ 64)
    (leaf' : ∀ bytes, y = .inl bytes → bytes.length ≠ 64) (same : preimage x = preimage y) : x = y := by
  have lengths := congrArg List.length same
  cases x with
  | inl bytes =>
    cases y with
    | inl bytes' => exact congrArg Sum.inl same
    | inr pair => exact absurd (lengths.trans (by simp [preimage])) (leaf bytes rfl)
  | inr pair =>
    cases y with
    | inl bytes => exact absurd (lengths.symm.trans (by simp [preimage])) (leaf' bytes rfl)
    | inr pair' =>
      obtain ⟨first, second⟩ := List.append_inj same (by simp)
      rw [Prod.ext (hashBytes_injective first) (hashBytes_injective second)]

theorem txTrees_single (sha : List UInt8 → Hash) (some_ : txs ≠ []) : ∃ t, txTrees txs = [t] ∧
    t.leaves = txs.map (·.toBytes) ∧ computeTxMerkleRoot sha txs = t.root (sha ∘ preimage) := by
  have listed : txs.map (fun tx => leaf tx.toBytes) ≠ [] := by simpa using some_
  obtain ⟨t, top⟩ := pairUpAll_single node txs.length listed (by simp)
  have leaves := leaves_pairUpAll txs.length (txs.map (fun tx => .leaf tx.toBytes))
  have joins : ∀ l r : MerkleTree (List UInt8), (l.node r).root (sha ∘ preimage) =
      hashPair sha (l.root (sha ∘ preimage)) (r.root (sha ∘ preimage)) := fun _ _ => rfl
  have roots := map_pairUpAll joins txs.length (txs.map (fun tx => .leaf tx.toBytes))
  rw [top] at leaves roots
  refine ⟨t, top, ?_, ?_⟩
  · simpa [MerkleTree.leaves, List.flatMap_map, ← List.map_eq_flatMap] using leaves
  · unfold computeTxMerkleRoot computeMerkleRootFromHashes
    rw [List.map_map] at roots
    have hashes : txs.map (root (sha ∘ preimage) ∘ fun tx => .leaf tx.toBytes) = txs.map (·.wireHash sha) := rfl
    rw [if_neg (by simpa using some_), List.length_map, ← hashes, ← roots]
    rfl

theorem root_ne_zero (nonzero : ∀ x ∈ rootInputs sha txs, sha x ≠ 0) (some_ : txs ≠ []) : computeTxMerkleRoot sha txs ≠ 0 := by
  obtain ⟨t, top, -, root⟩ := txTrees_single sha some_
  obtain ⟨x, member, digest⟩ := t.root_mem (sha ∘ preimage)
  rw [root, digest]
  apply nonzero
  simp only [rootInputs, top, List.flatMap_singleton]
  exact List.mem_map_of_mem member

/-- Without a collision and without a zero hash among what is hashed, and with no wire encoding of the length of a pair
of hashes, the root determines the wire encodings and their order. -/
theorem tx_merkle_root_binds (free : ∀ x ∈ rootInputs sha txs, ∀ y ∈ rootInputs sha txs', sha x = sha y → x = y)
    (nonzero : ∀ x ∈ rootInputs sha txs ++ rootInputs sha txs', sha x ≠ 0)
    (sizes : ∀ tx ∈ txs ++ txs', tx.toBytes.length ≠ 64)
    (same : computeTxMerkleRoot sha txs = computeTxMerkleRoot sha txs') : txs.map (·.toBytes) = txs'.map (·.toBytes) := by
  have first := fun x member => nonzero x (List.mem_append_left _ member)
  have second := fun x member => nonzero x (List.mem_append_right _ member)
  by_cases none_ : txs = []
  · by_cases none' : txs' = []
    · rw [none_, none']
    · rw [none_] at same
      exact absurd same.symm (root_ne_zero second none')
  by_cases none' : txs' = []
  · rw [none'] at same
    exact absurd same (root_ne_zero first none_)
  obtain ⟨t, top, leaves, root⟩ := txTrees_single sha none_
  obtain ⟨t', top', leaves', root'⟩ := txTrees_single sha none'
  simp only [rootInputs, top, top', List.flatMap_singleton] at free
  rw [← leaves, ← leaves']
  apply congrArg
  refine eq_of_root_eq (fun x member y member' equal => ?_) (root.symm.trans (same.trans root'))
  have bytes := free _ (List.mem_map_of_mem member) _ (List.mem_map_of_mem member') equal
  apply preimage_injective _ _ bytes
  · rintro content rfl
    have inside := mem_leaves_of_mem_inputs member
    rw [leaves] at inside
    obtain ⟨tx, listed, rfl⟩ := List.mem_map.mp inside
    exact sizes tx (List.mem_append_left _ listed)
  · rintro content rfl
    have inside := mem_leaves_of_mem_inputs member'
    rw [leaves'] at inside
    obtain ⟨tx, listed, rfl⟩ := List.mem_map.mp inside
    exact sizes tx (List.mem_append_right _ listed)

namespace SmallBlocks

def sum (bytes : List UInt8) : Hash := BitVec.ofNat 256 (bytes.foldl (fun h b => (h * 263 + b.toNat + 1) % (2 ^ 61 - 1)) 0)

def tx (byte : UInt8) : Transaction := ⟨[byte], ⟨0, 0, ⟨1, 2⟩, 0, ⟨.ed25519, []⟩⟩, none, none⟩

/-- A block with one transaction more, whose hash goes up unpaired, has another root. -/
theorem longer_block_other_root : computeTxMerkleRoot sum [tx 7, tx 8] ≠ computeTxMerkleRoot sum [tx 7, tx 8, tx 9] := by
  intro same
  have equal := tx_merkle_root_binds (by decide +kernel) (by decide +kernel) (by decide +kernel) same
  exact absurd (congrArg List.length equal) (by decide)

end SmallBlocks

end AceChain.Runtime
