import AceChain.Engine.Transfer
import AceChain.Runtime.Payload

namespace AceChain.Vm

open AceChain.Runtime Engine State StateTree

def wordOf (bytes : List UInt8) : Hash := beHash (bytes ++ List.replicate (32 - bytes.length) 0)

def wordU64 (word : Hash) : Nat := leNat (slice (hashBytes word) 0 8)

def u64Word (n : Nat) : Hash := wordOf (leBytes 8 n)

theorem hashBytes_wordOf {bytes : List UInt8} (short : bytes.length ≤ 32) :
    hashBytes (wordOf bytes) = bytes ++ List.replicate (32 - bytes.length) 0 := by
  apply hashBytes_beHash
  rw [List.length_append, List.length_replicate]
  omega

theorem wordU64_u64Word {n : Nat} (small : n < 2 ^ 64) : wordU64 (u64Word n) = n := by
  unfold wordU64 u64Word slice
  rw [hashBytes_wordOf (by simp), List.drop_zero, List.take_append_of_le_length (by simp), List.take_of_length_le (by simp),
    leNat_leBytes]
  exact Nat.mod_eq_of_lt small

theorem wordU64_zero : wordU64 0 = 0 := by decide

theorem wordU64_lt (word : Hash) : wordU64 word < 2 ^ 64 := by
  have small := leNat_lt (((hashBytes word).drop 0).take 8)
  have size : (((hashBytes word).drop 0).take 8).length = 8 := by simp
  rw [size] at small
  exact small

def writeSlot (owner : AccountId) (acc : List StateChange × StateTree) (write : Hash × Hash) :
    List StateChange × StateTree :=
  (acc.1 ++ [.storageChange owner write.1 (acc.2.getStorage owner write.1) write.2],
    acc.2.setStorage owner write.1 write.2)

section

variable {t : StateTree} {owner : AccountId} {acc : List StateChange × StateTree}

/-- Changes that leave the accounts of a state alone and pay no fee. -/
structure StorageOnly (t : StateTree) (acc : List StateChange × StateTree) : Prop where
  accounts : acc.2.accounts = t.accounts
  free : feeOf acc.1 = 0

theorem StorageOnly.writeSlot (only : StorageOnly t acc) (write : Hash × Hash) :
    StorageOnly t (Vm.writeSlot owner acc write) where
  accounts := only.accounts
  free := by
    unfold Vm.writeSlot
    rw [feeOf_append, only.free]
    rfl

theorem StorageOnly.refl : StorageOnly t ([], t) := ⟨rfl, rfl⟩

theorem StorageOnly.get (only : StorageOnly t acc) (id : AccountId) : acc.2.get id = t.get id := by
  unfold StateTree.get
  rw [only.accounts]

theorem StorageOnly.balanceOf (only : StorageOnly t acc) (id : AccountId) : acc.2.balanceOf id = t.balanceOf id := by
  rw [balanceOf_eq, only.get, balanceOf_eq]

end

end AceChain.Vm
