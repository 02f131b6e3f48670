import AceChain.Basic

namespace AceChain.Engine

inductive StateChange where
  | balanceChange (account : AccountId) (old new : Nat)
  | nonceIncrement (account : AccountId) (newNonce : Nat)
  | accountCreated (account : AccountId)
  | storageChange (account : AccountId) (slot oldValue newValue : Hash)
  | codeDeployed (account : AccountId) (codeHash : Hash)
  | fee (amount : Nat)
  | addressBound (account : AccountId) (addressType : UInt8)
  | intentChange (intentId : Hash) (oldStatus newStatus : UInt8) (claimTag : Option Hash)
  | authKeyUpdated (account : AccountId) (algorithm : UInt8)
  | zkReplayConsumed (rpCom : Hash) (account : AccountId)
deriving DecidableEq

def StateChange.account? : StateChange → Option AccountId
  | balanceChange account _ _ => some account
  | nonceIncrement account _ => some account
  | accountCreated account => some account
  | storageChange account _ _ _ => some account
  | codeDeployed account _ => some account
  | addressBound account _ => some account
  | authKeyUpdated account _ => some account
  | zkReplayConsumed _ account => some account
  | fee _ => none
  | intentChange _ _ _ _ => none

def feeOf (changes : List StateChange) : Nat :=
  (changes.map (fun change => match change with | .fee amount => amount | _ => 0)).sum

@[simp] theorem feeOf_nil : feeOf [] = 0 := rfl

@[simp] theorem feeOf_append (first second : List StateChange) : feeOf (first ++ second) = feeOf first + feeOf second := by
  simp [feeOf]

end AceChain.Engine
