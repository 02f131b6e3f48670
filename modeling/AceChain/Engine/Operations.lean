import AceChain.Engine.Executor
import AceChain.Runtime.HfiPayload

namespace AceChain.Engine

open AceChain.Runtime State

def addrTypeEvm : UInt8 := 0x01

def addrTypeTron : UInt8 := 0x02

def addrTypeSolana : UInt8 := 0x03

def addrTypeBtc : UInt8 := 0x04

def addrTypeXid : UInt8 := 0x10

def addrTypeXaddress : UInt8 := 0x11

structure AddressBinding where
  addressType : UInt8
  address : List UInt8
  proofPubkey : Option (List UInt8)
  proofSig : TaggedSignature
deriving DecidableEq

variable (payload : List UInt8)

def decodeBindingProof (offset : Nat) :
    Except PayloadError (Option (List UInt8) × TaggedSignature × Nat) :=
  let signature (key : Option (List UInt8)) (offset : Nat) :
      Except PayloadError (Option (List UInt8) × TaggedSignature × Nat) :=
    match TaggedSignature.fromWireBytes (payload.drop offset) with
    | .error text => .error (.invalid ("binding proof_sig: " ++ text))
    | .ok (sig, consumed) => .ok (key, sig, offset + consumed)
  match payload[offset]? with
  | none => .error (.invalid "binding: missing has_pubkey flag")
  | some flag =>
    if flag = 0 then signature none (offset + 1)
    else
      match TaggedPubkey.fromWireBytes (payload.drop (offset + 1)) with
      | .error text => .error (.invalid ("binding proof_pubkey: " ++ text))
      | .ok (key, consumed) => signature (some key.bytes) (offset + 1 + consumed)

def decodeBinding (offset : Nat) : Except PayloadError (AddressBinding × Nat) :=
  if payload.length - offset < 4 then .error (.invalid "binding: truncated header")
  else
    let addressLen := u16At payload (offset + 1)
    if payload.length - (offset + 3) < addressLen then .error (.invalid "binding: truncated address")
    else
      match decodeBindingProof payload (offset + 3 + addressLen) with
      | .error error => .error error
      | .ok (key, sig, next) =>
        .ok (⟨payload.getD offset 0, slice payload (offset + 3) addressLen, key, sig⟩, next)

def decodeBindings (payload : List UInt8) : Nat → Nat → Except PayloadError (List AddressBinding)
  | 0, _ => .ok []
  | count + 1, offset =>
    match decodeBinding payload offset with
    | .error error => .error error
    | .ok (binding, next) =>
      match decodeBindings payload count next with
      | .error error => .error error
      | .ok rest => .ok (binding :: rest)

/-- The nonce and the bindings of `RegisterAddresses`; bytes after the last binding are not looked at. -/
def decodeRegisterAddresses : Except PayloadError (Nat × List AddressBinding) :=
  if payload.length < 10 then .error (.invalid "RegisterAddresses payload too short")
  else
    let count := (payload.getD 9 0).toNat
    if count = 0 ∨ 6 < count then .error (.invalid "RegisterAddresses binding count must be 1..=6")
    else
      match decodeBindings payload count 10 with
      | .error error => .error error
      | .ok bindings => .ok (u64At payload 1, bindings)

structure BindingProofs where
  registerAddressMessage : Hash → UInt8 → List UInt8 → Hash
  verifySignature : TaggedPubkey → Hash → TaggedSignature → Bool
  evmAddressFromSecp256k1 : List UInt8 → Option Address
  btcHash160 : List UInt8 → List UInt8
  idcomXid : Hash → Hash
  xaddressHash : List UInt8 → Hash

namespace BindingProofs

variable (proofs : BindingProofs) (account : Account) (sender : Hash) (binding : AddressBinding)

def addressOf (bytes : List UInt8) : Address := BitVec.ofNat 160 (leNat bytes.reverse)

/-- An address that is indexed must be indexed to the account that binds it. -/
def checkFree (indexed : Option AccountId) : Except EngineError Unit :=
  match indexed with
  | none => .ok ()
  | some existing => if existing ≠ account.idCom then .error (.addressAlreadyBound existing) else .ok ()

def checkSignature (key : TaggedPubkey) : Except EngineError Unit :=
  if proofs.verifySignature key (proofs.registerAddressMessage sender binding.addressType binding.address)
      binding.proofSig then .ok ()
  else .error (.invalidBindingProof binding.addressType)

def provenKey : Except EngineError (List UInt8) :=
  match binding.proofPubkey with
  | none => .error (.invalidBindingProof binding.addressType)
  | some key =>
    if key.length ≠ 33 then .error (.invalidBindingProof binding.addressType)
    else
      match proofs.checkSignature sender binding ⟨.secp256k1, key⟩ with
      | .error error => .error error
      | .ok () => .ok key

def secpAddress (resolve : Address → Option AccountId) (chain : String) : Except EngineError Address :=
  match proofs.provenKey sender binding with
  | .error error => .error error
  | .ok key =>
    match proofs.evmAddressFromSecp256k1 key with
    | none => .error (.invalidPayload "invalid secp256k1 pubkey")
    | some derived =>
      if binding.address.length ≠ 20 then .error (.invalidPayload (chain ++ " address must be 20 bytes"))
      else if derived ≠ addressOf binding.address then .error (.invalidBindingProof binding.addressType)
      else
        match checkFree account (resolve (addressOf binding.address)) with
        | .error error => .error error
        | .ok () => .ok (addressOf binding.address)

def wordAddress (what : String) : Except EngineError Hash :=
  if binding.address.length ≠ 32 then .error (.invalidPayload (what ++ " must be 32 bytes"))
  else .ok (beHash binding.address)

variable (t : StateTree)

def bindEvm : Except EngineError Account :=
  (proofs.secpAddress account sender binding t.resolveEvm "EVM").map (fun address =>
    { account with evmAddress := some address })

def bindTron : Except EngineError Account :=
  (proofs.secpAddress account sender binding t.resolveTron "TRON").map (fun address =>
    { account with tronAddress := some address })

def bindSolana : Except EngineError Account :=
  match wordAddress binding "Solana address" with
  | .error error => .error error
  | .ok pubkey =>
    match proofs.checkSignature sender binding (.ed25519 binding.address) with
    | .error error => .error error
    | .ok () =>
      (checkFree account (t.resolveSolana pubkey)).map (fun _ => { account with solanaAddress := some pubkey })

def btcScriptMatches (hash address : List UInt8) : Option Bool :=
  if address.length = 25 ∧ address.take 3 = [0x76, 0xa9, 0x14] ∧ address.drop 23 = [0x88, 0xac] then
    some (slice address 3 20 = hash)
  else if address.length = 22 ∧ address.take 2 = [0x00, 0x14] then some (slice address 2 20 = hash)
  else none

def bindBtc : Except EngineError Account :=
  match proofs.provenKey sender binding with
  | .error error => .error error
  | .ok key =>
    match btcScriptMatches (proofs.btcHash160 key) binding.address with
    | none => .error (.invalidPayload "BTC binding with proof_pubkey requires P2PKH or P2WPKH script")
    | some false => .error (.invalidBindingProof binding.addressType)
    | some true =>
      (checkFree account (t.resolveBtc binding.address)).map (fun _ =>
        { account with btcAddress := some binding.address })

/-- An XID needs no signature: it must hash to the sender's own id. -/
def bindXid : Except EngineError Account :=
  match wordAddress binding "XID" with
  | .error error => .error error
  | .ok xid =>
    if proofs.idcomXid xid ≠ sender then .error (.invalidBindingProof binding.addressType)
    else (checkFree account (t.resolveXid xid)).map (fun _ => { account with xid := some xid })

def bindXaddress : Except EngineError Account :=
  match binding.proofPubkey with
  | none => .error (.invalidBindingProof binding.addressType)
  | some key =>
    match wordAddress binding "xaddress" with
    | .error error => .error error
    | .ok declared =>
      if proofs.xaddressHash key ≠ declared then .error (.invalidBindingProof binding.addressType)
      else
        match proofs.checkSignature sender binding (.mlDsa44 key) with
        | .error error => .error error
        | .ok () =>
          (checkFree account (t.resolveXaddress declared)).map (fun _ => { account with xaddress := some declared })

def verifyAndApplyBinding : Except EngineError Account :=
  let addressType := binding.addressType
  if addressType = addrTypeEvm then proofs.bindEvm account sender binding t
  else if addressType = addrTypeTron then proofs.bindTron account sender binding t
  else if addressType = addrTypeSolana then proofs.bindSolana account sender binding t
  else if addressType = addrTypeBtc then proofs.bindBtc account sender binding t
  else if addressType = addrTypeXid then proofs.bindXid account sender binding t
  else if addressType = addrTypeXaddress then proofs.bindXaddress account sender binding t
  else .error (.invalidPayload ("unknown address type: 0x" ++ addressType.toBitVec.toHex))

def applyBindings (t : StateTree) : List AddressBinding → Account → Except EngineError (Account × List StateChange)
  | [], account => .ok (account, [])
  | binding :: rest, account =>
    match proofs.verifyAndApplyBinding account sender binding t with
    | .error error => .error error
    | .ok account =>
      match applyBindings t rest account with
      | .error error => .error error
      | .ok (final, changes) => .ok (final, .addressBound account.idCom binding.addressType :: changes)

end BindingProofs

def consumeAccountNonce (account : Account) (sender : AccountId) (nonce : Nat) : Except EngineError Nat :=
  if account.nonce ≠ nonce then .error (.invalidNonce account.nonce nonce)
  else
    match u64CheckedAdd account.nonce 1 with
    | none => .error (.nonceOverflow sender)
    | some next => .ok next

/-- The keys of an account after `SetAuthPubkey`: the key of the same algorithm is replaced wherever it is. -/
def placeAuthKey (a : Account) (key : TaggedPubkey) : Except String Account :=
  let same (k : TaggedPubkey) : Bool := k.algorithm = key.algorithm
  if a.authPubkey.isZero then .ok { a with authPubkey := key, authKeys := a.authKeys.eraseP same }
  else if key.algorithm = a.authPubkey.algorithm then .ok { a with authPubkey := key }
  else if a.authKeys.any same then .ok { a with authKeys := a.authKeys.set (a.authKeys.findIdx same) key }
  else a.addAuthKey key

/-- What `SetAuthPubkey` and `AddAuthKey` share. The nonce stays counted when the key is refused. -/
def updateAuthKey (place : Account → TaggedPubkey → Except String Account) (t : StateTree) (sender : AccountId)
    (nonce : Nat) (key : TaggedPubkey) : Outcome EngineError (List StateChange) :=
  match t.get sender with
  | none => (.error (.accountNotFound sender), t)
  | some account =>
    match consumeAccountNonce account sender nonce with
    | .error error => (.error error, t)
    | .ok next =>
      match place { account with nonce := next } key with
      | .error text => (.error (.invalidPayload text), t.modify sender (fun a => { a with nonce := next }))
      | .ok updated =>
        (.ok [.nonceIncrement sender next, .authKeyUpdated sender key.algorithm.tag],
          t.modify sender (fun _ => updated))

def setAuthPubkey : StateTree → AccountId → Nat → TaggedPubkey → Outcome EngineError (List StateChange) :=
  updateAuthKey placeAuthKey

def addAuthKey : StateTree → AccountId → Nat → TaggedPubkey → Outcome EngineError (List StateChange) :=
  updateAuthKey Account.addAuthKey

def createAccount (derive : Derivations) (t : StateTree) (sender idCom : AccountId) (key : TaggedPubkey) :
    Outcome EngineError (List StateChange) :=
  if idCom ≠ sender then (.error (.invalidPayload "CreateAccount id_com must equal sender"), t)
  else if t.contains idCom then (.error (.accountAlreadyExists idCom), t)
  else (.ok [.accountCreated idCom], t.insert derive { Account.new idCom with authPubkey := key })

def validateApproveValidatorSender (founder : Option AccountId) (sender : AccountId) : Except EngineError Unit :=
  match founder with
  | none => .error (.invalidPayload "validator admission is disabled (no founder_id_com in genesis)")
  | some founder =>
    if sender ≠ founder then
      .error (.invalidPayload ("OP_APPROVE_VALIDATOR sender " ++ sender.bytes.toHex ++ " is not the founder"))
    else .ok ()

def applyApproveValidatorNonce (founder : Option AccountId) (t : StateTree) (sender : AccountId) (nonce : Nat) :
    Outcome EngineError (List StateChange) :=
  match validateApproveValidatorSender founder sender with
  | .error error => (.error error, t)
  | .ok () =>
    match t.get sender with
    | none => (.error (.accountNotFound sender), t)
    | some account =>
      match consumeAccountNonce account sender nonce with
      | .error error => (.error error, t)
      | .ok next => (.ok [.nonceIncrement sender next], t.modify sender (fun a => { a with nonce := next }))

def registerAddresses (derive : Derivations) (proofs : BindingProofs) (t : StateTree) (sender : AccountId) (nonce : Nat)
    (bindings : List AddressBinding) : Outcome EngineError (List StateChange) :=
  match t.get sender with
  | none => (.error (.accountNotFound sender), t)
  | some account =>
    match consumeAccountNonce account sender nonce with
    | .error error => (.error error, t)
    | .ok next =>
      let t := t.modify sender (fun a => { a with nonce := next })
      match proofs.applyBindings sender.bytes t bindings { account with nonce := next } with
      | .error error => (.error error, t)
      | .ok (updated, changes) => (.ok (.nonceIncrement sender next :: changes), t.insert derive updated)

structure Operations where
  derive : Derivations
  txHash : Transaction → Hash
  verifyCredential : Attestation → List UInt8 → TaggedPubkey → Bool
  verifyZkAuth : Transaction → ZkAuth → Except String Unit
  proofs : BindingProofs
  founder : Option AccountId

namespace Operations

variable (o : Operations)

def decodeOther (payload : List UInt8) : Except PayloadError Unit :=
  if payload.head? = some opRegisterAddresses then (decodeRegisterAddresses payload).map (fun _ => ())
  else (HfiOp.decode payload).map (fun _ => ())

def executeOther (t : StateTree) (tx : Transaction) (op : TransactionOp) : Outcome EngineError (List StateChange) :=
  match op with
  | .transfer _ _ _ => (.error (.invalidPayload "transfer"), t)
  | .createAccount idCom key => createAccount o.derive t tx.sender idCom key
  | .setAuthPubkey nonce key => setAuthPubkey t tx.sender nonce key
  | .addAuthKey nonce key => addAuthKey t tx.sender nonce key
  | .approveValidator nonce _ _ => applyApproveValidatorNonce o.founder t tx.sender nonce
  | .other opcode =>
    if opcode = opRegisterAddresses then
      match decodeRegisterAddresses tx.payload with
      | .error error => (.error (.ofPayload error), t)
      | .ok (nonce, bindings) => registerAddresses o.derive o.proofs t tx.sender nonce bindings
    else (.error (.invalidPayload "HFI Pay opcode (0x06..=0x0B) is executed by the n-VM HFI hook"), t)

def externals : Externals where
  derive := o.derive
  txHash := o.txHash
  verifyCredential := o.verifyCredential
  verifyZkAuth := o.verifyZkAuth
  decodeOther := decodeOther
  executeOther := o.executeOther

end Operations

end AceChain.Engine
