import AceChain.Engine.Executor
import AceChain.Vm.Revm
import AceChain.Vm.TokenRuntime
import AceChain.Vm.Utxo

namespace AceChain.Vm

open AceChain.Runtime Engine State

inductive VmId where
  | aceNative
  | evm
  | svm
  | bvm
  | tvm
  | move
deriving DecidableEq

def VmId.fromOpcode (opcode : UInt8) : Option VmId :=
  if 0x01 ≤ opcode ∧ opcode ≤ 0x0F then some .aceNative
  else if 0x10 ≤ opcode ∧ opcode ≤ 0x1F then some .evm
  else if 0x20 ≤ opcode ∧ opcode ≤ 0x2F then some .svm
  else if 0x30 ≤ opcode ∧ opcode ≤ 0x3F then some .bvm
  else if 0x40 ≤ opcode ∧ opcode ≤ 0x4F then some .tvm
  else if 0x50 ≤ opcode ∧ opcode ≤ 0x5F then some .move
  else none

inductive NVmError where
  | unknownOpcode (opcode : UInt8)
  | emptyPayload
  | nativeError (text : String)
  | evmError (text : String)
  | svmError (text : String)
  | bvmError (text : String)
  | tvmError (text : String)
  | invalidCredential (id : AccountId)
  | rawChainVerify (text : String)
  | nonceOverflow
deriving DecidableEq

/-- The logs and the `simulated` flag of a receipt are carried along unread and are left out. -/
structure VmReceipt where
  vmId : VmId
  txHash : Hash
  success : Bool
  sender : AccountId
  stateChanges : List StateChange
  error : Option String
  gasUsed : Option Nat
  contractAddress : Option Address
  returnData : Option (List UInt8)
deriving DecidableEq

def VmReceipt.fee (receipt : VmReceipt) : Nat := feeOf receipt.stateChanges

structure VerifiedBtcIngress where
  senderIdcom : Hash
  inputOwners : List AccountId
  payload : List UInt8
  txid : Hash
deriving DecidableEq

/-- The Bitcoin script interpreter: one state for the unlocking and the locking script of an input. -/
structure Interpreter where
  State : Type
  fresh : Hash → State
  eval : State → List UInt8 → Except String (Bool × State)
  top : State → Option (List UInt8)

/-- What the engines take from elsewhere: hashes, the verifiers of raw transactions, the script interpreter, the SVM
programs, `revm` and the Move VM. -/
structure Externals where
  native : Engine.Externals
  slots : UtxoSlots
  deriveOutputTxid : Hash → Nat → Hash
  hash160 : Hash → List UInt8
  interpreter : Interpreter
  verifyRawBtc : StateTree → List UInt8 → Except NVmError VerifiedBtcIngress
  solanaSignature : List UInt8 → Except String (List UInt8)
  solanaReplaySlot : List UInt8 → Hash
  invokeProgram : StateTree → AccountId → List UInt8 → Outcome String (List StateChange)
  tokens : TokenSlots
  deriveContractAccountId : AddressNamespace → Address → AccountId
  rawEvmNonce : List UInt8 → Except NVmError Nat
  revm : StateDb → TxEnv → Except String (ExecutionResult × EvmState)
  executeMove : StateTree → Transaction → Outcome NVmError VmReceipt

theorem isEmpty_of_head {bytes : List UInt8} {first : UInt8} (head : bytes.head? = some first) : bytes.isEmpty = false := by
  cases bytes with
  | nil => cases head
  | cons first rest => rfl

namespace Externals

variable (x : Externals)

def derive : Derivations := x.native.derive

def isRaw (kind : RawChainKind) (tx : Transaction) : Option RawChainPayload :=
  tx.rawChain.filter (fun raw => raw.kind = kind)

def receiptOf (vmId : VmId) (tx : Transaction) (changes : List StateChange) (returnData : Option (List UInt8)) :
    VmReceipt where
  vmId := vmId
  txHash := x.native.txHash tx
  success := true
  sender := tx.sender
  stateChanges := changes
  error := none
  gasUsed := none
  contractAddress := none
  returnData := returnData

def executeNative (t : StateTree) (tx : Transaction) : Outcome NVmError VmReceipt :=
  match x.native.executeTransaction t tx with
  | (.error error, t) => (.error (.nativeError error.text), t)
  | (.ok changes, t) => (.ok (x.receiptOf .aceNative tx changes none), t)

theorem executeNative_settles (t : StateTree) {tx : Transaction} (opcode : tx.payload.head? = some opTransfer) :
    Settles VmReceipt.fee t tx.sender (x.native.debitsLate t tx) (x.executeNative t tx) := by
  have settles := x.native.executeTransaction_settles t opcode
  unfold executeNative
  cases done : x.native.executeTransaction t tx with
  | mk result after =>
    rw [done] at settles
    cases result <;> exact settles

end Externals

end AceChain.Vm
