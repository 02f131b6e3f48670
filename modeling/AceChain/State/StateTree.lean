import AceChain.Basic

namespace AceChain.State

open Std

abbrev Address := BitVec 160

structure Account where
  idCom : AccountId
  balance : Nat
  nonce : Nat
  codeHash : Option Hash
  code : Option (List UInt8)
  storageRoot : Hash
  xid : Option Hash
  xaddress : Option Hash
  evmAddress : Option Address
  tronAddress : Option Address
  solanaAddress : Option Hash
  btcAddress : Option (List UInt8)
  authPubkey : TaggedPubkey
  authKeys : List TaggedPubkey
  lastTouchedSlot : Nat
deriving DecidableEq

namespace Account

def new (idCom : AccountId) : Account where
  idCom := idCom
  balance := 0
  nonce := 0
  codeHash := none
  code := none
  storageRoot := 0
  xid := none
  xaddress := none
  evmAddress := none
  tronAddress := none
  solanaAddress := none
  btcAddress := none
  authPubkey := .default
  authKeys := []
  lastTouchedSlot := 0

variable (a : Account)

/-- The primary key comes first and is skipped while it is the zero placeholder. -/
def authKeyForAlgorithm (algorithm : SignatureAlgorithm) : Option TaggedPubkey :=
  if !a.authPubkey.isZero && a.authPubkey.algorithm = algorithm then some a.authPubkey
  else a.authKeys.find? (fun key => key.algorithm = algorithm)

def hasProvisionedAuthKey : Bool :=
  !a.authPubkey.isZero || a.authKeys.any (fun key => !key.isZero)

def allAuthKeys : List TaggedPubkey := a.authPubkey :: a.authKeys

def maxAuthKeys : Nat := 4

/-- An unprovisioned primary key is replaced; otherwise the algorithm must be new. -/
def addAuthKey (key : TaggedPubkey) : Except String Account :=
  if a.authPubkey.isZero then .ok { a with authPubkey := key }
  else if a.authPubkey.algorithm = key.algorithm then .error ("primary key already uses " ++ key.algorithm.name)
  else if a.authKeys.any (fun k => k.algorithm = key.algorithm) then
    .error ("auth key for " ++ key.algorithm.name ++ " already exists")
  else if maxAuthKeys ≤ a.authKeys.length + 1 then .error "maximum auth keys reached"
  else
    .ok { a with
      authKeys := (a.authKeys ++ [key]).insertionSort (fun k k' => k.algorithm.tag ≤ k'.algorithm.tag) }

end Account

structure AccountStub where
  idCom : AccountId
  hash : Hash
  expiredAtSlot : Nat
deriving DecidableEq

abbrev Storage := TreeMap Hash Hash

structure ResurrectionProof where
  account : Account
  storage : Storage

/-- The SHA-256 derivations the state tree rests on. -/
structure Derivations where
  evmAddress : AccountId → Address
  tronAddress : AccountId → Address
  legacyIdcomEvm : Address → AccountId
  legacyIdcomTron : Address → AccountId
  stubHash : Account → Option Storage → Hash
  codeHash : List UInt8 → Hash

/-- Derivations to compute with: ids are cut to addresses and addresses padded to ids. -/
def Derivations.ofWidths (stubHash : Account → Option Storage → Hash) (codeHash : List UInt8 → Hash) : Derivations where
  evmAddress id := id.bytes.setWidth 160
  tronAddress id := id.bytes.setWidth 160
  legacyIdcomEvm address := ⟨address.setWidth 256⟩
  legacyIdcomTron address := ⟨address.setWidth 256⟩
  stubHash := stubHash
  codeHash := codeHash

structure StateTree where
  accounts : TreeMap AccountId Account
  stubs : TreeMap AccountId AccountStub
  contractStorage : TreeMap AccountId Storage
  xidIndex : Hash → Option AccountId
  evmIndex : Address → Option AccountId
  tronIndex : Address → Option AccountId
  solanaIndex : Hash → Option AccountId
  btcIndex : List UInt8 → Option AccountId
  xaddressIndex : Hash → Option AccountId
  hfiIntents : TreeMap Hash (List UInt8)
  hfiRecipients : TreeMap Hash (List UInt8)
  hfiIdcomIndex : TreeMap Hash Hash
  zkReplayRegistry : TreeMap Hash Hash

def unindex {κ : Type} [DecidableEq κ] (index : κ → Option AccountId) (old : Option κ) : κ → Option AccountId :=
  match old with
  | some key => Function.update index key none
  | none => index

/-- What `insert` does to one alias index: the old alias goes, the new one is taken if it is free or
already ours. -/
def reindex {κ : Type} [DecidableEq κ] (index : κ → Option AccountId) (old new : Option κ) (id : AccountId) :
    κ → Option AccountId :=
  let index := unindex index old
  match new with
  | some key => if index key = none ∨ index key = some id then Function.update index key (some id) else index
  | none => index

namespace StateTree

def new : StateTree where
  accounts := ∅
  stubs := ∅
  contractStorage := ∅
  xidIndex := fun _ => none
  evmIndex := fun _ => none
  tronIndex := fun _ => none
  solanaIndex := fun _ => none
  btcIndex := fun _ => none
  xaddressIndex := fun _ => none
  hfiIntents := ∅
  hfiRecipients := ∅
  hfiIdcomIndex := ∅
  zkReplayRegistry := ∅

section

variable (derive : Derivations) (a : Account)

def accountEvmAddress : Address := a.evmAddress.getD (derive.evmAddress a.idCom)

def accountTronAddress : Address := a.tronAddress.getD (derive.tronAddress a.idCom)

variable (t : StateTree) (id : AccountId)

def get : Option Account := t.accounts[id]?

def contains : Bool := (t.get id).isSome

theorem contains_of_get {t : StateTree} {id : AccountId} {a : Account} (found : t.get id = some a) : t.contains id = true :=
  Option.isSome_of_eq_some found

def isStubbed : Bool := t.stubs.contains id

def insertStub (stub : AccountStub) : StateTree := { t with stubs := t.stubs.insert stub.idCom stub }

/-- The commitment is taken unless it was consumed before. -/
def zkReplayConsume (rpCom idcom : Hash) : Option StateTree :=
  if t.zkReplayRegistry.contains rpCom then none
  else some { t with zkReplayRegistry := t.zkReplayRegistry.insert rpCom idcom }

/-- Writing through `get_mut`: the account changes in place and no index is touched. -/
def modify (f : Account → Account) : StateTree :=
  { t with accounts := t.accounts.modify id f }

def insert (a : Account) : StateTree :=
  let old := t.get a.idCom
  { t with
    stubs := t.stubs.erase a.idCom
    evmIndex := reindex t.evmIndex (old.map (accountEvmAddress derive)) (some (accountEvmAddress derive a)) a.idCom
    tronIndex := reindex t.tronIndex (old.map (accountTronAddress derive)) (some (accountTronAddress derive a)) a.idCom
    xidIndex := reindex t.xidIndex (old.bind (·.xid)) a.xid a.idCom
    solanaIndex := reindex t.solanaIndex (old.bind (·.solanaAddress)) a.solanaAddress a.idCom
    btcIndex := reindex t.btcIndex (old.bind (·.btcAddress)) a.btcAddress a.idCom
    xaddressIndex := reindex t.xaddressIndex (old.bind (·.xaddress)) a.xaddress a.idCom
    accounts := t.accounts.insert a.idCom a }

/-- What `remove` and `expire_account` share: the account leaves the hot tier with its aliases and storage. -/
def detach (a : Account) (id : AccountId) : StateTree :=
  { t with
    accounts := t.accounts.erase id
    evmIndex := unindex t.evmIndex (some (accountEvmAddress derive a))
    tronIndex := unindex t.tronIndex (some (accountTronAddress derive a))
    xidIndex := unindex t.xidIndex a.xid
    solanaIndex := unindex t.solanaIndex a.solanaAddress
    btcIndex := unindex t.btcIndex a.btcAddress
    xaddressIndex := unindex t.xaddressIndex a.xaddress
    contractStorage := t.contractStorage.erase id }

def remove : StateTree :=
  match t.get id with
  | some a => t.detach derive a id
  | none => t

def expireAccount (currentSlot : Nat) : StateTree :=
  match t.get id with
  | some a =>
    let stub : AccountStub := ⟨id, derive.stubHash a (t.contractStorage[id]?), currentSlot⟩
    let t := t.detach derive a id
    { t with stubs := t.stubs.insert id stub }
  | none => t

def sweepExpired (currentSlot expiryPeriod : Nat) : StateTree :=
  let cutoff := currentSlot - expiryPeriod
  let toExpire := t.accounts.toList.filter
    (fun entry => entry.2.lastTouchedSlot < cutoff && entry.2.balance == 0 && entry.2.codeHash.isNone)
  toExpire.foldl (fun t entry => t.expireAccount derive entry.1 currentSlot) t

def getStorage (slot : Hash) : Hash :=
  match t.contractStorage[id]? with
  | some storage => storage[slot]?.getD 0
  | none => 0

def setStorage (slot value : Hash) : StateTree :=
  { t with contractStorage := t.contractStorage.insert id ((t.contractStorage[id]?.getD ∅).insert slot value) }

/-- The account comes back with the slot of its resurrection, and its storage on top of what is there. -/
def resurrectAccount (proof : ResurrectionProof) (newSlot : Nat) : Except String StateTree :=
  match t.stubs[proof.account.idCom]? with
  | none => .error "account is not expired"
  | some stub =>
    if proof.account.idCom ≠ stub.idCom ∨ derive.stubHash proof.account (some proof.storage) ≠ stub.hash then
      .error "resurrection proof does not match stub hash"
    else
      let t := { t with stubs := t.stubs.erase proof.account.idCom }
      let t := t.insert derive { proof.account with lastTouchedSlot := newSlot }
      .ok (proof.storage.toList.foldl (fun t entry => t.setStorage proof.account.idCom entry.1 entry.2) t)

def hasStorage (slot : Hash) : Bool :=
  ((t.contractStorage[id]?).map (·.contains slot)).getD false

def setCode (code : List UInt8) : Option Hash × StateTree :=
  if t.contains id then
    (some (derive.codeHash code),
      t.modify id (fun a => { a with codeHash := some (derive.codeHash code), code := some code }))
  else (none, t)

def evmAddress : Option Address := (t.get id).map (accountEvmAddress derive)

def tronAddress : Option Address := (t.get id).map (accountTronAddress derive)

def resolveXid (xid : Hash) : Option AccountId := t.xidIndex xid

def resolveSolana (pubkey : Hash) : Option AccountId := t.solanaIndex pubkey

def resolveBtc (script : List UInt8) : Option AccountId := t.btcIndex script

def resolveXaddress (xaddress : Hash) : Option AccountId := t.xaddressIndex xaddress

variable (address : Address)

def resolveEvm : Option AccountId := t.evmIndex address

def resolveEvmAccountId : Option AccountId :=
  match t.resolveEvm address with
  | some id => some id
  | none => if t.contains (derive.legacyIdcomEvm address) then some (derive.legacyIdcomEvm address) else none

def resolveTron : Option AccountId := t.tronIndex address

def resolveTronAccountId : Option AccountId :=
  match t.resolveTron address with
  | some id => some id
  | none => if t.contains (derive.legacyIdcomTron address) then some (derive.legacyIdcomTron address) else none

end

end StateTree

end AceChain.State
