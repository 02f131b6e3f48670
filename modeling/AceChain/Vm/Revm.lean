import AceChain.State.StateTree

namespace AceChain.Vm

open State

inductive AddressNamespace where
  | evm
  | tron
deriving DecidableEq

/-- An empty code hash is `none`. -/
structure AccountInfo where
  balance : Nat
  nonce : Nat
  codeHash : Option Hash
  code : Option (List UInt8)
deriving DecidableEq

structure EvmStorageSlot where
  originalValue : Hash
  presentValue : Hash
deriving DecidableEq

structure EvmAccount where
  info : AccountInfo
  storage : List (Hash × EvmStorageSlot)
deriving DecidableEq

/-- The state `revm` returns, in the order in which its map is walked; the addresses are distinct. -/
structure EvmState where
  entries : List (Address × EvmAccount)
  nodup : (entries.map Prod.fst).Nodup

inductive ExecutionResult where
  | call (gasUsed : Nat) (data : List UInt8)
  | create (gasUsed : Nat) (data : List UInt8) (address : Option Address)
  | revert (gasUsed : Nat) (output : List UInt8)
  | halt (gasUsed : Nat) (reason : String)
deriving DecidableEq

structure TxEnv where
  caller : Address
  transactTo : Option Address
  value : Nat
  gasLimit : Nat
  data : List UInt8
  nonce : Option Nat
deriving DecidableEq

structure StateDb where
  basic : Address → Option AccountInfo
  storage : Address → Hash → Hash

def resolveAccountId (derive : Derivations) (t : StateTree) : AddressNamespace → Address → Option AccountId
  | .evm, address => t.resolveEvmAccountId derive address
  | .tron, address => t.resolveTronAccountId derive address

def accountInfo (a : Account) : AccountInfo := ⟨a.balance, a.nonce, a.codeHash, a.code⟩

def aceStateDb (derive : Derivations) (t : StateTree) (ns : AddressNamespace) : StateDb where
  basic address := ((resolveAccountId derive t ns address).bind t.get).map accountInfo
  storage address slot :=
    match resolveAccountId derive t ns address with
    | none => 0
    | some id => t.getStorage id slot

end AceChain.Vm
