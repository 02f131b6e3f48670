import AceChain.Vm.Erc20

namespace AceChain.Vm

open AceChain.Runtime Engine State StateChange

def defaultGasLimit : Nat := 30000000

structure EvmPayload where
  target : Option Address
  value : Nat
  gasLimit : Nat
  data : List UInt8

variable (payload : List UInt8)

def addressAt (start : Nat) : Address := BitVec.ofNat 160 (beNat (slice payload start 20))

def gasOrDefault (gasLimit : Nat) : Nat := if gasLimit = 0 then defaultGasLimit else gasLimit

def parseCall : Except NVmError EvmPayload :=
  if payload.length < 37 then .error (.evmError "call payload too short")
  else .ok ⟨some (addressAt payload 1), u64At payload 21, gasOrDefault (u64At payload 29), payload.drop 37⟩

def parseCreate : Except NVmError EvmPayload :=
  if payload.length < 17 then .error (.evmError "create payload too short")
  else .ok ⟨none, u64At payload 1, gasOrDefault (u64At payload 9), payload.drop 17⟩

def parseTransfer : Except NVmError EvmPayload :=
  if payload.length < 29 then .error (.evmError "transfer payload too short")
  else .ok ⟨some (addressAt payload 1), u64At payload 21, 21000, []⟩

def parseEvmPayload : Except NVmError EvmPayload :=
  let opcode := payload.headD 0
  if opcode = 0x10 then parseCall payload
  else if opcode = 0x11 then parseCreate payload
  else if opcode = 0x12 then parseTransfer payload
  else .error (.evmError ("unsupported EVM opcode: 0x" ++ opcode.toBitVec.toHex))

def txAddressNamespace (tx : Transaction) : AddressNamespace :=
  if tx.rawChain.any (fun raw => raw.kind = .tron) then .tron else .evm

def bindNamespaceAddress (ns : AddressNamespace) (address : Address) (a : Account) : Account :=
  match ns with
  | .evm => { a with evmAddress := some address }
  | .tron => { a with tronAddress := some address }

namespace Externals

variable (x : Externals) (t : StateTree)

def senderVmAddress (ns : AddressNamespace) (sender : AccountId) : Address :=
  match ns with
  | .evm => (t.evmAddress x.derive sender).getD (x.derive.evmAddress sender)
  | .tron => (t.tronAddress x.derive sender).getD (x.derive.tronAddress sender)

/-- The account an address is written back to: an address that resolves to no account gets the id of a contract or of
a raw-chain account. -/
def writeTarget (ns : AddressNamespace) (created : Option Address) (entry : Address × EvmAccount) :
    AccountId :=
  let isContract := created = some entry.1 || entry.2.info.codeHash.isSome
  (resolveAccountId x.derive t ns entry.1).getD
    (if isContract then x.deriveContractAccountId ns entry.1 else x.legacyRuntimeOwnerAccountId ns entry.1)

def writeCode (id : AccountId) (info : AccountInfo) (acc : List StateChange × StateTree) :
    List StateChange × StateTree :=
  match info.codeHash, info.code with
  | some _, some code =>
    if !code.isEmpty && (acc.2.get id).bind (·.code) ≠ some code then
      match acc.2.setCode x.derive id code with
      | (some hash, t) => (acc.1 ++ [.codeDeployed id hash], t)
      | (none, t) => (acc.1, t)
    else acc
  | _, _ => acc

def writeStorage (id : AccountId) (acc : List StateChange × StateTree) (entry : Hash × EvmStorageSlot) :
    List StateChange × StateTree :=
  if entry.2.presentValue ≠ entry.2.originalValue then
    (acc.1 ++ [.storageChange id entry.1 entry.2.originalValue entry.2.presentValue],
      acc.2.setStorage id entry.1 entry.2.presentValue)
  else acc

/-- One entry of the diff: balance and nonce are overwritten, and the address becomes the account's alias. -/
def applyAccount (ns : AddressNamespace) (created : Option Address) (acc : List StateChange × StateTree)
    (entry : Address × EvmAccount) : Except NVmError (List StateChange × StateTree) :=
  let id := x.writeTarget acc.2 ns created entry
  let account := (acc.2.get id).getD (Account.new id)
  let info := entry.2.info
  if u64Max < info.balance then .error (.evmError "EVM account balance exceeds u64::MAX")
  else
    let balanceChange :=
      if account.balance ≠ info.balance then [balanceChange id account.balance info.balance] else []
    let nonceChange := if account.nonce ≠ info.nonce then [nonceIncrement id info.nonce] else []
    let createdChange := if acc.2.contains id then [] else [accountCreated id]
    let t := acc.2.insert x.derive
      { bindNamespaceAddress ns entry.1 account with balance := info.balance, nonce := info.nonce }
    .ok (entry.2.storage.foldl (writeStorage id)
      (x.writeCode id info (acc.1 ++ balanceChange ++ nonceChange ++ createdChange, t)))

/-- A balance beyond 64 bits restores the snapshot. -/
def applyRevmStateDiff (diff : EvmState) (ns : AddressNamespace) (created : Option Address) :
    Outcome NVmError (List StateChange) :=
  match diff.entries.foldlM (x.applyAccount ns created) ([], t) with
  | .error error => (.error error, t)
  | .ok (changes, after) => (.ok changes, after)

/-- A failed execution only counts nonces. -/
def applyNonce (ns : AddressNamespace) (acc : List StateChange × StateTree) (entry : Address × EvmAccount) :
    List StateChange × StateTree :=
  let id := x.runtimeOwnerAccountId acc.2 ns entry.1
  match acc.2.get id with
  | none => acc
  | some account =>
    if account.nonce ≠ entry.2.info.nonce then
      (acc.1 ++ [.nonceIncrement id entry.2.info.nonce],
        acc.2.modify id (fun a => { a with nonce := entry.2.info.nonce }))
    else acc

variable (tx : Transaction)

def evmReceipt (result : ExecutionResult) (changes : List StateChange) : VmReceipt where
  vmId := .evm
  txHash := x.native.txHash tx
  success := match result with
    | .call _ _ | .create _ _ _ => true
    | .revert _ _ | .halt _ _ => false
  sender := tx.sender
  stateChanges := changes
  error := match result with
    | .call _ _ | .create _ _ _ => none
    | .revert _ output => some ("revert: 0x" ++ String.join (output.map (fun byte => byte.toBitVec.toHex)))
    | .halt _ reason => some ("halt: " ++ reason)
  gasUsed := match result with
    | .call gasUsed _ | .create gasUsed _ _ | .revert gasUsed _ | .halt gasUsed _ => some gasUsed
  contractAddress := match result with
    | .create _ _ address => address
    | _ => none
  returnData := match result with
    | .call _ data | .create _ data _ => some data
    | .revert _ output => some output
    | .halt _ _ => none

def applyResult (ns : AddressNamespace) (result : ExecutionResult) (diff : EvmState) :
    Outcome NVmError VmReceipt :=
  let succeeded (created : Option Address) : Outcome NVmError VmReceipt :=
    match x.applyRevmStateDiff t diff ns created with
    | (.error error, t) => (.error error, t)
    | (.ok changes, t) => (.ok (x.evmReceipt tx result changes), t)
  match result with
  | .call _ _ => succeeded none
  | .create _ _ address => succeeded address
  | .revert _ _ | .halt _ _ =>
    let (changes, t) := diff.entries.foldl (x.applyNonce ns) ([], t)
    (.ok (x.evmReceipt tx result changes), t)

def rawNonce : Except NVmError (Option Nat) :=
  match isRaw .evm tx with
  | none => .ok none
  | some raw => (x.rawEvmNonce raw.rawBytes).map some

def txEnv : Except NVmError TxEnv :=
  match x.rawNonce tx with
  | .error error => .error error
  | .ok nonce =>
    match parseEvmPayload tx.payload with
    | .error error => .error error
    | .ok payload =>
      .ok ⟨x.senderVmAddress t (txAddressNamespace tx) tx.sender, payload.target, payload.value, payload.gasLimit,
        payload.data, nonce⟩

def executeEvm : Outcome NVmError VmReceipt :=
  if tx.payload.isEmpty then (.error .emptyPayload, t)
  else
    let ns := txAddressNamespace tx
    match x.txEnv t tx with
    | .error error => (.error error, t)
    | .ok env =>
      match x.maybeExecuteRuntimeErc20 t tx ns env with
      | some outcome => outcome
      | none =>
        match x.revm (aceStateDb x.derive t ns) env with
        | .error text => (.error (.evmError text), t)
        | .ok (result, diff) => x.applyResult t tx ns result diff

def tvmOpcode (opcode : UInt8) : Option UInt8 :=
  if opcode = 0x40 then some 0x10
  else if opcode = 0x41 then some 0x11
  else if opcode = 0x42 then some 0x12
  else none

def errorText : NVmError → String
  | .unknownOpcode opcode => "unknown opcode: 0x" ++ opcode.toBitVec.toHex
  | .emptyPayload => "empty transaction payload"
  | .nativeError text => "native execution error: " ++ text
  | .evmError text => "EVM execution error: " ++ text
  | .svmError text => "SVM execution error: " ++ text
  | .bvmError text => "BVM execution error: " ++ text
  | .tvmError text => "TVM execution error: " ++ text
  | .invalidCredential id => "invalid credential for sender " ++ id.bytes.toHex
  | .rawChainVerify text => "raw chain tx verification failed: " ++ text
  | .nonceOverflow => "nonce overflow: account nonce reached u64::MAX"

def asEvm (opcode : UInt8) : Transaction := { tx with payload := opcode :: tx.payload.tail }

def executeTvm : Outcome NVmError VmReceipt :=
  match tx.payload with
  | [] => (.error .emptyPayload, t)
  | opcode :: _ =>
    match tvmOpcode opcode with
    | none => (.error (.tvmError ("unsupported TVM opcode: 0x" ++ opcode.toBitVec.toHex)), t)
    | some evmOpcode =>
      match x.executeEvm t (asEvm tx evmOpcode) with
      | (.error error, t) => (.error (.tvmError ("VM execution failed: " ++ errorText error)), t)
      | (.ok receipt, t) => (.ok { receipt with vmId := .tvm }, t)

end Externals

end AceChain.Vm
