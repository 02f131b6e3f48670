import AceChain.Vm.Engine

namespace AceChain.Vm

open AceChain.Runtime Engine State

def erc20TransferSelector : List UInt8 := [0xa9, 0x05, 0x9c, 0xbb]

def erc20ApproveSelector : List UInt8 := [0x09, 0x5e, 0xa7, 0xb3]

def erc20TransferFromSelector : List UInt8 := [0x23, 0xb8, 0x72, 0xdd]

def erc20BalanceOfSelector : List UInt8 := [0x70, 0xa0, 0x82, 0x31]

def erc20AllowanceSelector : List UInt8 := [0xdd, 0x62, 0xed, 0x3e]

def erc20TotalSupplySelector : List UInt8 := [0x18, 0x16, 0x0d, 0xdd]

def erc20DecimalsSelector : List UInt8 := [0x31, 0x3c, 0xe5, 0x67]

def bytesAt (data : List UInt8) (start len : Nat) : List UInt8 :=
  if start + len ≤ data.length then slice data start len else []

def beNat (bytes : List UInt8) : Nat := leNat bytes.reverse

def abiDecodeAddress (word : List UInt8) : Except String Address :=
  if word.length ≠ 32 then .error "EVM execution error: invalid ABI address word"
  else .ok (BitVec.ofNat 160 (beNat (word.drop 12)))

def abiDecodeU64 (word : List UInt8) : Except String Nat :=
  if word.length ≠ 32 then .error "EVM execution error: invalid ABI uint256 word"
  else if (word.take 24).any (· ≠ 0) then .error "EVM execution error: runtime token amount exceeds u64 range"
  else .ok (beNat (word.drop 24))

def abiEncodeU64 (value : Nat) : List UInt8 := List.replicate 24 0 ++ (leBytes 8 value).reverse

def abiEncodeBool (value : Bool) : List UInt8 := abiEncodeU64 value.toNat

def runtimeErc20GasUsed (selector : List UInt8) (gasLimit : Nat) : Nat :=
  let estimate :=
    if selector = erc20TransferSelector then 50000
    else if selector = erc20ApproveSelector then 45000
    else if selector = erc20TransferFromSelector then 60000
    else if selector ∈ [erc20BalanceOfSelector, erc20AllowanceSelector, erc20TotalSupplySelector,
        erc20DecimalsSelector] then 12000
    else 25000
  min estimate gasLimit

namespace Externals

variable (x : Externals)

def legacyRuntimeOwnerAccountId (ns : AddressNamespace) (address : Address) : AccountId :=
  match ns with
  | .evm => x.derive.legacyIdcomEvm address
  | .tron => x.derive.legacyIdcomTron address

variable (t : StateTree)

def runtimeOwnerAccountId (ns : AddressNamespace) (address : Address) : AccountId :=
  (resolveAccountId x.derive t ns address).getD (x.legacyRuntimeOwnerAccountId ns address)

/-- What the calls of a runtime ERC-20 contract share: the ledger's error text gets a prefix, and a success returns
`true`. -/
def ledgerCall (label : String) (outcome : Outcome String (List StateChange)) :
    Outcome String (List StateChange × List UInt8) :=
  match outcome with
  | (.error text, t) => (.error (label ++ text), t)
  | (.ok changes, t) => (.ok (changes, abiEncodeBool true), t)

def erc20Transfer (ns : AddressNamespace) (mint : Hash) (sender : AccountId) (data : List UInt8) :
    Outcome String (List StateChange × List UInt8) :=
  match abiDecodeAddress (bytesAt data 4 32), abiDecodeU64 (bytesAt data 36 32) with
  | .error text, _ => (.error text, t)
  | .ok _, .error text => (.error text, t)
  | .ok recipient, .ok amount =>
    ledgerCall "erc20 transfer failed: "
      (x.tokens.transferBetweenOwners x.derive t mint sender (x.runtimeOwnerAccountId t ns recipient) amount)

def erc20Approve (ns : AddressNamespace) (mint : Hash) (sender : AccountId) (data : List UInt8) :
    Outcome String (List StateChange × List UInt8) :=
  match abiDecodeAddress (bytesAt data 4 32), abiDecodeU64 (bytesAt data 36 32) with
  | .error text, _ => (.error text, t)
  | .ok _, .error text => (.error text, t)
  | .ok spender, .ok amount =>
    ledgerCall "erc20 approve failed: "
      (x.tokens.setAllowance x.derive t mint sender (x.runtimeOwnerAccountId t ns spender) amount)

def erc20TransferFrom (ns : AddressNamespace) (mint : Hash) (sender : AccountId) (data : List UInt8) :
    Outcome String (List StateChange × List UInt8) :=
  match abiDecodeAddress (bytesAt data 4 32), abiDecodeAddress (bytesAt data 36 32), abiDecodeU64 (bytesAt data 68 32) with
  | .error text, _, _ => (.error text, t)
  | .ok _, .error text, _ => (.error text, t)
  | .ok _, .ok _, .error text => (.error text, t)
  | .ok owner, .ok recipient, .ok amount =>
    ledgerCall "erc20 transferFrom failed: "
      (x.tokens.transferFrom x.derive t mint sender (x.runtimeOwnerAccountId t ns owner)
        (x.runtimeOwnerAccountId t ns recipient) amount)

def erc20View (ns : AddressNamespace) (mint : Hash) (selector data : List UInt8) :
    Option (Except String (List UInt8)) :=
  let owner (start : Nat) : Except String AccountId :=
    (abiDecodeAddress (bytesAt data start 32)).map (x.runtimeOwnerAccountId t ns)
  let read (value : MintMeta → Nat) : Except String (List UInt8) :=
    match x.tokens.getMintMeta t mint with
    | none => .error "runtime ERC-20 mint does not exist"
    | some found => .ok (abiEncodeU64 (value found))
  if selector = erc20BalanceOfSelector then
    some ((owner 4).map (fun owner => abiEncodeU64 (x.tokens.tokenBalance t mint owner)))
  else if selector = erc20AllowanceSelector then
    match owner 4, owner 36 with
    | .error text, _ => some (.error text)
    | .ok _, .error text => some (.error text)
    | .ok owner, .ok spender => some (.ok (abiEncodeU64 (x.tokens.allowanceOf t mint owner spender)))
  else if selector = erc20TotalSupplySelector then some (read (·.supply))
  else if selector = erc20DecimalsSelector then some (read (·.decimals.toNat))
  else none

def erc20Call (ns : AddressNamespace) (mint : Hash) (sender : AccountId) (data : List UInt8) :
    Option (Outcome String (List StateChange × List UInt8)) :=
  let selector := bytesAt data 0 4
  if selector = erc20TransferSelector then some (x.erc20Transfer t ns mint sender data)
  else if selector = erc20ApproveSelector then some (x.erc20Approve t ns mint sender data)
  else if selector = erc20TransferFromSelector then some (x.erc20TransferFrom t ns mint sender data)
  else (x.erc20View t ns mint selector data).map (fun result => (result.map (fun bytes => ([], bytes)), t))

def consumeRuntimeErc20Nonce (sender : AccountId) : Outcome NVmError (List StateChange) :=
  match t.get sender with
  | none => (.ok [], t)
  | some account =>
    match u64CheckedAdd account.nonce 1 with
    | none => (.error .nonceOverflow, t)
    | some nonce => (.ok [.nonceIncrement sender nonce], t.modify sender (fun a => { a with nonce := nonce }))

variable (tx : Transaction)

def runtimeErc20Receipt (success : Bool) (changes : List StateChange) (error : Option String)
    (gasUsed : Nat) (returnData : List UInt8) : VmReceipt where
  vmId := .evm
  txHash := x.native.txHash tx
  success := success
  sender := tx.sender
  stateChanges := changes
  error := error
  gasUsed := some gasUsed
  contractAddress := none
  returnData := some returnData

/-- A call that is refused before the ledger: the nonce is counted unless it cannot be. -/
def runtimeErc20FailureReceipt (error : String) (gasUsed : Nat) :
    Outcome NVmError VmReceipt :=
  match consumeRuntimeErc20Nonce t tx.sender with
  | (.error _, t) => (.ok (x.runtimeErc20Receipt tx false [] (some error) gasUsed []), t)
  | (.ok changes, t) => (.ok (x.runtimeErc20Receipt tx false changes (some error) gasUsed []), t)

/-- Calls to the address of a runtime ERC-20 contract do not reach `revm`. -/
def maybeExecuteRuntimeErc20 (ns : AddressNamespace) (env : TxEnv) :
    Option (Outcome NVmError VmReceipt) :=
  match env.transactTo.bind (x.tokens.mintForRuntimeErc20Address t) with
  | none => none
  | some mint =>
    if env.value ≠ 0 then
      some (x.runtimeErc20FailureReceipt t tx "runtime ERC-20 calls do not accept native value" (min env.gasLimit 25000))
    else
      let gasUsed := runtimeErc20GasUsed (bytesAt env.data 0 4) env.gasLimit
      match x.erc20Call t ns mint (x.runtimeOwnerAccountId t ns env.caller) env.data with
      | none =>
        some (x.runtimeErc20FailureReceipt t tx "unsupported runtime ERC-20 selector" (min env.gasLimit 25000))
      | some (result, t) =>
        match consumeRuntimeErc20Nonce t tx.sender with
        | (.error error, t) => some (.error error, t)
        | (.ok counted, t) =>
          match result with
          | .error text => some (.ok (x.runtimeErc20Receipt tx false counted (some text) gasUsed []), t)
          | .ok (changes, data) => some (.ok (x.runtimeErc20Receipt tx true (changes ++ counted) none gasUsed data), t)

end Externals

end AceChain.Vm
