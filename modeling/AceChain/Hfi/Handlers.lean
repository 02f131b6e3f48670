import AceChain.Engine.Operations
import AceChain.Hfi.Recipient
import AceChain.Lib.Handler

namespace AceChain.Hfi

open AceChain.Runtime State Engine Lib Handler IntentStatus

def maxExpiryWindow : Nat := 31536000

def maxRegisterIdentifierLen : Nat := 256

abbrev HfiM := Handler StateTree String

structure Hook where
  derive : Derivations
  sha : List UInt8 → Hash
  idcomXid : Hash → Hash
  verifySignature : TaggedPubkey → Hash → TaggedSignature → Bool
  committedTx : Option (Hash → Option Transaction)
  claimRelay : Option AccountId
  claimSalt : Option (List UInt8)

def loadIntent (t : StateTree) (intentId : Hash) : Except String OnChainIntent :=
  match t.hfiIntent intentId with
  | none => .error ("intent " ++ intentId.toHex ++ " not found on chain")
  | some bytes => OnChainIntent.decode bytes

def storeIntent (intent : OnChainIntent) (t : StateTree) : StateTree := t.hfiIntentPut intent.intentId intent.encode

structure Payment where
  source : AccountId
  destination : AccountId
  amount : Nat
deriving DecidableEq

structure Moved where
  sourceBefore : Nat
  sourceAfter : Nat
  destinationBefore : Nat
  destinationAfter : Nat
deriving DecidableEq

def optionWord (word : Hash) : Option Hash := if word = 0 then none else some word

def consumeNonce (sender : AccountId) (nonce : Nat) : HfiM StateChange := do
  let account ← demand (fun t => t.get sender) ("sender " ++ sender.bytes.toHex ++ " not found")
  require (account.nonce = nonce)
    ("invalid nonce: expected " ++ toString account.nonce ++ ", got " ++ toString nonce)
  let next ← demand (fun _ => u64CheckedAdd account.nonce 1) "nonce overflow"
  write (fun t => t.modify sender (fun a => { a with nonce := next }))
  pure (.nonceIncrement sender next)

namespace Hook

variable (hook : Hook)

def nativeTransfer (p : Payment) : HfiM Moved := do
  write (fun t => ensureAccount hook.derive t p.destination)
  let sourceBefore ← read (fun t => t.balanceOf p.source)
  require (p.amount ≤ sourceBefore)
    ("insufficient balance at " ++ p.source.bytes.toHex ++ ": have " ++ toString sourceBefore ++ ", need " ++
      toString p.amount)
  let destinationBefore ← read (fun t => t.balanceOf p.destination)
  let destinationAfter ← demand (fun _ => u64CheckedAdd destinationBefore p.amount) "balance overflow"
  let _ ← demand (fun t => t.get p.source) ("account " ++ p.source.bytes.toHex ++ " missing")
  write (fun t => t.modify p.source (fun a => { a with balance := sourceBefore - p.amount }))
  let _ ← demand (fun t => t.get p.destination) ("account " ++ p.destination.bytes.toHex ++ " missing")
  write (fun t => t.modify p.destination (fun a => { a with balance := destinationAfter }))
  pure ⟨sourceBefore, sourceBefore - p.amount, destinationBefore, destinationAfter⟩

def paymentChanges (p : Payment) (moved : Moved) : List StateChange :=
  [.balanceChange p.source moved.sourceBefore moved.sourceAfter,
    .balanceChange p.destination moved.destinationBefore moved.destinationAfter]

def deriveIntentAddress (chain : ChainId) (intentId : Hash) : AccountId :=
  ⟨hook.sha (asciiBytes chain.domain ++ hashBytes intentId)⟩

/-- The checks every creation passes, with the record of a recipient that is enrolled for auto-claim. -/
def createChecks (f : HfiCreate) (slot : Nat) : HfiM (ChainId × Option (List UInt8)) := do
  require (f.amount ≠ 0) "amount must be non-zero"
  require (f.expirySlot ≤ u64SatAdd slot maxExpiryWindow) "expiry too far in the future"
  let known ← read (fun t => (t.hfiIntent f.intentId).isSome)
  require (known = false) "intent already exists"
  let chain ← demand (fun _ => ChainId.fromTag f.chainId) ("invalid chain_id " ++ toString f.chainId)
  let record ← read (fun t => if f.identityCommitment = 0 then none else t.hfiRecipientByIdcom f.identityCommitment)
  pure (chain, record)

variable (sender : AccountId)

def autoClaimPlan (f : HfiCreate) (record : List UInt8) :
    HfiM (Payment × DecodedRecipient × StateChange) := do
  let decoded ← fetch (fun _ => decodeRecipientRecord record)
  require (decoded.identityCommitment = f.identityCommitment) "registry idcom index inconsistent with stored record"
  require (optionWord f.mint = none) ("auto-claim not yet supported for non-native mints; " ++
    "resubmit with identity_commitment = 0 to use the standard claim flow (nonce NOT consumed)")
  let counted ← consumeNonce sender f.nonce
  pure (⟨sender, decoded.accountId, f.amount⟩, decoded, counted)

def autoClaimed (f : HfiCreate) (chain : ChainId) (slot : Nat) (decoded : DecodedRecipient) : OnChainIntent where
  intentId := f.intentId
  blindedBinding := f.blindedBinding
  amount := f.amount
  chain := chain
  mint := optionWord f.mint
  depositAddress := decoded.accountId
  bindingEpoch := decoded.bindingEpoch
  expiry := f.expirySlot
  refundDest := none
  refundAuthorizer := none
  createdAt := slot
  status := .claimed
  claimNonce := 0
  refundNonce := 0
  withdrawnAmount := f.amount
  owner := some decoded.accountId

def finishAutoClaim (f : HfiCreate) (chain : ChainId) (slot : Nat) (plan : Payment × DecodedRecipient × StateChange)
    (moved : Moved) : HfiM (List StateChange) := do
  let (payment, decoded, counted) := plan
  write (storeIntent (autoClaimed f chain slot decoded))
  pure (counted :: paymentChanges payment moved ++
    [.intentChange f.intentId 0xFF claimed.tag
      (some (hook.sha (asciiBytes "ace:claim:tag:v1" ++ hashBytes f.intentId)))])

def autoClaim (f : HfiCreate) (chain : ChainId) (slot : Nat) (record : List UInt8) :
    HfiM (List StateChange) := do
  let plan ← autoClaimPlan sender f record
  let moved ← hook.nativeTransfer plan.1
  hook.finishAutoClaim f chain slot plan moved

def escrowed (f : HfiCreate) (chain : ChainId) (slot : Nat) : OnChainIntent where
  intentId := f.intentId
  blindedBinding := f.blindedBinding
  amount := f.amount
  chain := chain
  mint := optionWord f.mint
  depositAddress := ⟨f.depositAddress⟩
  bindingEpoch := f.bindingEpoch
  expiry := f.expirySlot
  refundDest := (optionWord f.refundDest).map AccountId.mk
  refundAuthorizer := (optionWord f.refundAuthorizer).map AccountId.mk
  createdAt := slot
  status := .created
  claimNonce := 0
  refundNonce := 0
  withdrawnAmount := 0
  owner := none

def createEscrow (f : HfiCreate) (chain : ChainId) (slot : Nat) : HfiM (List StateChange) := do
  let expected := hook.deriveIntentAddress chain f.intentId
  require ((⟨f.depositAddress⟩ : AccountId) = expected)
    ("deposit_address does not match derived address for this intent: expected " ++ expected.bytes.toHex ++ ", got " ++
      f.depositAddress.toHex)
  require ((optionWord f.refundDest).isSome = (optionWord f.refundAuthorizer).isSome)
    "refund_dest and refund_authorizer must be set together"
  let counted ← consumeNonce sender f.nonce
  write (fun t => ensureAccount hook.derive t ⟨f.depositAddress⟩)
  write (storeIntent (escrowed f chain slot))
  pure [counted, .intentChange f.intentId 0xFF created.tag none]

def handleCreate (f : HfiCreate) (slot : Nat) : HfiM (List StateChange) := do
  let (chain, record) ← createChecks f slot
  match record with
  | some record => hook.autoClaim sender f chain slot record
  | none => hook.createEscrow sender f chain slot

def checkEvidence (evidence : Hash) (intent : OnChainIntent) : Except String Unit :=
  match hook.committedTx with
  | none => .error "HfiPayFund requires committed_tx lookup (node must attach block store)"
  | some lookup =>
    match lookup evidence with
    | none => .error ("deposit_evidence tx " ++ evidence.toHex ++ " not found in block store")
    | some deposit =>
      if deposit.sender ≠ sender then
        .error "deposit evidence tx sender must match fund tx sender (same idcom)"
      else if intent.refundAuthorizer.any (· ≠ sender) then
        .error "fund transaction sender must match intent refund_authorizer when refund metadata is set"
      else
        match TransactionOp.decode Operations.decodeOther deposit.payload with
        | .error error => .error (EngineError.ofPayload error).text
        | .ok (.transfer _ recipient amount) =>
          if recipient ≠ intent.depositAddress then
            .error "deposit evidence is not a transfer to the intent deposit address"
          else if amount ≠ intent.amount then
            .error ("deposit transfer amount " ++ toString amount ++ " must match intent amount " ++
              toString intent.amount)
          else .ok ()
        | .ok _ => .error "deposit evidence must be a native Transfer (0x01)"

variable (nonce : Nat)

def handleFund (intentId evidence : Hash) (depositAmount : Nat) :
    HfiM (List StateChange) := do
  let intent ← fetch (fun t => loadIntent t intentId)
  require (intent.status = .created) ("intent not in Created state (is " ++ intent.status.name ++ ")")
  require (depositAmount = intent.amount)
    ("deposit_amount " ++ toString depositAmount ++ " must match intent amount " ++ toString intent.amount)
  require (evidence ≠ 0) "deposit_evidence (funding transfer tx hash) required"
  fetch (fun _ => hook.checkEvidence sender evidence intent)
  let held ← read (fun t => t.balanceOf intent.depositAddress)
  require (intent.amount ≤ held)
    ("intent underfunded: have " ++ toString held ++ ", need " ++ toString intent.amount)
  let counted ← consumeNonce sender nonce
  write (storeIntent { intent with status := .funded })
  pure [counted, .intentChange intentId intent.status.tag funded.tag none]

variable (intentId : Hash)

def handleExpire (slot : Nat) : HfiM (List StateChange) := do
  let intent ← fetch (fun t => loadIntent t intentId)
  require (intent.status = .funded) ("intent not in Funded state (is " ++ intent.status.name ++ ")")
  require (intent.expiry < slot)
    ("intent not yet expired: slot " ++ toString slot ++ " <= expiry " ++ toString intent.expiry)
  write (storeIntent { intent with status := .expired })
  pure [.intentChange intentId intent.status.tag expired.tag none]

def computeRefundMessage (intent : OnChainIntent) (intentId : Hash) (authorizer dest : AccountId) (nonce : Nat) : Hash :=
  hook.sha (asciiBytes "hfipay:refund" ++ asciiBytes "ace-hfi-pay:v1" ++ [intent.chain.tag] ++
    (match intent.mint with
      | some mint => 1 :: hashBytes mint
      | none => [0]) ++
    hashBytes intentId ++ hashBytes intent.blindedBinding ++ leBytes 8 intent.amount ++ hashBytes authorizer.bytes ++
    hashBytes dest.bytes ++ leBytes 8 intent.expiry ++ leBytes 8 nonce)

variable (t : StateTree)

def checkRefundAuth (intent : OnChainIntent) (intentId : Hash) (authorizer dest : AccountId)
    (nonce : Nat) (pubkey signature : List UInt8) : Except String Unit :=
  if nonce ≠ intent.refundNonce then
    .error ("refund_auth nonce mismatch: got " ++ toString nonce ++ ", expected " ++ toString intent.refundNonce)
  else if pubkey.length ≠ 1312 then .error ("refund_auth: unexpected pubkey length " ++ toString pubkey.length)
  else if signature.length ≠ 2420 then .error ("refund_auth: unexpected sig length " ++ toString signature.length)
  else
    match (t.get authorizer).bind (·.authKeyForAlgorithm .mlDsa44) with
    | none => .error "refund_auth: refund_authorizer has no ML-DSA-44 key on chain"
    | some key =>
      if key.bytes ≠ pubkey then
        .error "refund_auth: pubkey does not match refund_authorizer's on-chain ML-DSA-44 key"
      else if !hook.verifySignature (.mlDsa44 pubkey) (hook.computeRefundMessage intent intentId authorizer dest nonce)
          ⟨.mlDsa44, signature⟩ then
        .error "refund_auth signature verification failed"
      else .ok ()

def authoriseRefund (intent : OnChainIntent) (intentId : Hash)
    (authorizer dest : AccountId) (refundAuth : Option (List UInt8 × List UInt8)) : HfiM (List StateChange) :=
  match refundAuth with
  | some (pubkey, signature) => do
    fetch (fun t => hook.checkRefundAuth t intent intentId authorizer dest nonce pubkey signature)
    pure []
  | none => do
    require (sender = authorizer) "sender is not the refund authorizer"
    let counted ← consumeNonce sender nonce
    pure [counted]

def refundPlan (intentId : Hash) (refundAuth : Option (List UInt8 × List UInt8))
    (slot : Nat) : HfiM (Payment × OnChainIntent × List StateChange) := do
  let intent ← fetch (fun t => loadIntent t intentId)
  require (intent.status = .expired ∨
      (refundAuth.isSome ∧ (intent.status = .funded ∨ intent.status = .created) ∧ intent.expiry < slot))
    ("intent not eligible for refund (status=" ++ intent.status.name ++ ", slot=" ++ toString slot ++ ", expiry=" ++
      toString intent.expiry ++ ")")
  let dest ← demand (fun _ => intent.refundDest) "intent has no refund destination"
  let authorizer ← demand (fun _ => intent.refundAuthorizer) "intent has no refund authorizer"
  let counted ← hook.authoriseRefund sender nonce intent intentId authorizer dest refundAuth
  pure (⟨intent.depositAddress, dest, intent.amount⟩, intent, counted)

def finishRefund (plan : Payment × OnChainIntent × List StateChange) (moved : Moved) :
    HfiM (List StateChange) := do
  let (payment, intent, counted) := plan
  let withdrawn ← demand (fun _ => u64CheckedAdd intent.withdrawnAmount intent.amount) "withdrawn overflow"
  let refundNonce ← demand (fun _ => u64CheckedAdd intent.refundNonce 1) "refund nonce overflow"
  write (storeIntent { intent with status := .refunded, withdrawnAmount := withdrawn, refundNonce := refundNonce })
  pure (counted ++ paymentChanges payment moved ++
    [.intentChange intentId intent.status.tag refunded.tag none])

def handleRefund (intentId : Hash) (refundAuth : Option (List UInt8 × List UInt8))
    (slot : Nat) : HfiM (List StateChange) := do
  let plan ← hook.refundPlan sender nonce intentId refundAuth slot
  let moved ← hook.nativeTransfer plan.1
  finishRefund intentId plan moved

inductive VmAddress where
  | native (id : AccountId)
  | evm (address : Address)
  | svm (id : AccountId)
  | bvm (id : AccountId)
  | tvm (address : Address)
deriving DecidableEq

def vmAddressFromRaw (chain : ChainId) (dest : List UInt8) : Except String VmAddress :=
  let width := match chain with
    | .native | .svm | .bvm => 32
    | .evm | .tvm => 20
  if dest.length ≠ width then
    .error ("destination must be " ++ toString width ++ " bytes for chain " ++ chain.name ++ ", got " ++
      toString dest.length)
  else
    let id : AccountId := ⟨beHash dest⟩
    let address : Address := BitVec.ofNat 160 (leNat dest.reverse)
    match chain with
    | .native => .ok (.native id)
    | .svm => .ok (.svm id)
    | .bvm => .ok (.bvm id)
    | .evm => .ok (.evm address)
    | .tvm => .ok (.tvm address)

/-- A claim may bring the first key of its native destination. -/
def materialise (id : AccountId) (auth : Option TaggedPubkey) (t : StateTree) : StateTree :=
  match auth.filter (fun key => !key.isZero) with
  | some key =>
    let account := (t.get id).getD { Account.new id with authPubkey := key }
    t.insert hook.derive (if account.authPubkey.isZero then { account with authPubkey := key } else account)
  | none => ensureAccount hook.derive t id

def destinationAccount (address : VmAddress) (auth : Option TaggedPubkey) : HfiM AccountId :=
  match address with
  | .native id => do
    write (hook.materialise id auth)
    pure id
  | .evm address => do
    write (fun t => ensureAccount hook.derive t (hook.derive.legacyIdcomEvm address))
    pure (hook.derive.legacyIdcomEvm address)
  | .svm id => do
    write (fun t => ensureAccount hook.derive t id)
    pure id
  | _ => fetch (fun _ => .error "unsupported destination chain for Claim")

def claimPlan (dest : List UInt8) (auth : Option TaggedPubkey)
    (authCommitment : Hash) (slot : Nat) : HfiM (Payment × OnChainIntent) := do
  require (hook.claimRelay.all (· = sender)) "HFI claim must be submitted by the authorized relay"
  let intent ← fetch (fun t => loadIntent t intentId)
  require (intent.status = .funded) ("intent not in Funded state (is " ++ intent.status.name ++ ")")
  require (slot ≤ intent.expiry) "intent expired"
  require (hook.sha (asciiBytes "hfipay:bind" ++ hashBytes authCommitment ++ hashBytes intentId) = intent.blindedBinding)
    "auth_commitment does not match intent blinded_binding"
  let address ← fetch (fun _ => vmAddressFromRaw intent.chain dest)
  let destination ← hook.destinationAccount address auth
  pure (⟨intent.depositAddress, destination, intent.amount⟩, intent)

def finishClaim (plan : Payment × OnChainIntent) (moved : Moved) : HfiM (List StateChange) := do
  let (payment, intent) := plan
  let withdrawn ← demand (fun _ => u64CheckedAdd intent.withdrawnAmount intent.amount) "withdrawn overflow"
  let claimNonce ← demand (fun _ => u64CheckedAdd intent.claimNonce 1) "claim nonce overflow"
  write (storeIntent { intent with
    status := .claimed, owner := some payment.destination, withdrawnAmount := withdrawn, claimNonce := claimNonce })
  let salt ← demand (fun _ => hook.claimSalt) "ACE_CLAIM_SALT is not configured"
  pure (paymentChanges payment moved ++
    [.intentChange intentId intent.status.tag claimed.tag
      (some (hook.sha (hashBytes intentId ++ salt)))])

def handleClaim (dest : List UInt8) (auth : Option TaggedPubkey)
    (authCommitment : Hash) (slot : Nat) : HfiM (List StateChange) := do
  let plan ← hook.claimPlan sender intentId dest auth authCommitment slot
  let moved ← hook.nativeTransfer plan.1
  hook.finishClaim intentId plan moved

def onchainIdHash (identifier : List UInt8) : Hash := hook.sha (asciiBytes "hfipay:idhash:v1" ++ identifier)

variable (f : HfiRegistration)

def registrationMessageV2 : Hash :=
  hook.sha (asciiBytes "hfipay:register:v2" ++ hashBytes f.xid ++ f.identifier ++ hashBytes f.identityCommitment ++
    hashBytes f.claimBindingHandle ++ leBytes 8 f.bindingEpoch ++ [f.chainTag] ++ leBytes 8 f.validUntilSlot)

/-- The signature of a registration must be by a key of the account of its identity. -/
def checkRegistration (slot : Nat) : Except String Unit :=
  if f.chainTag ≠ ChainId.native.tag then
    .error ("register: chain_tag " ++ toString f.chainTag ++ " does not match this chain (" ++
      toString ChainId.native.tag ++ ")")
  else if f.validUntilSlot < slot then
    .error ("register: registration expired (slot " ++ toString slot ++ " > valid_until " ++
      toString f.validUntilSlot ++ ")")
  else if f.identifier.isEmpty then .error "identifier must not be empty"
  else if maxRegisterIdentifierLen < f.identifier.length then
    .error ("identifier too long: " ++ toString f.identifier.length ++ " bytes > max " ++
      toString maxRegisterIdentifierLen)
  else
    match TaggedPubkey.fromWireBytes f.pubkey with
    | .error text => .error ("invalid pubkey wire: " ++ text)
    | .ok (key, _) =>
      match TaggedSignature.fromWireBytes f.signature with
      | .error text => .error ("invalid signature wire: " ++ text)
      | .ok (signature, _) =>
        if !hook.verifySignature key (hook.registrationMessageV2 f) signature then
          .error "registration signature verification failed"
        else
          match t.get ⟨hook.idcomXid f.xid⟩ with
          | none => .error ("register: recipient account not found on-chain — create the account and register an auth " ++
              "key for this xid before enrolling auto-claim")
          | some account =>
            if !account.allAuthKeys.any (fun own => own = key) then
              .error ("register: signer pubkey is not an auth key for the account derived from xid; refusing " ++
                "potentially-hijacked registration")
            else .ok ()

def recipientOf : DecodedRecipient :=
  ⟨f.xid, ⟨hook.idcomXid f.xid⟩, f.identityCommitment, f.claimBindingHandle, f.bindingEpoch⟩

def handleRegisterRecipient (slot : Nat) : HfiM (List StateChange) := do
  fetch (fun t => hook.checkRegistration t f slot)
  write (fun t => t.hfiRecipientPut (hook.onchainIdHash f.identifier) f.identityCommitment
    (encodeRecipientRecord (hook.recipientOf f) f.pubkey f.signature))
  let counted ← consumeNonce sender f.nonce
  pure [counted]

def perform (op : HfiOp) (slot : Nat) : HfiM (List StateChange) :=
  match op with
  | .claim intentId dest auth authCommitment => hook.handleClaim sender intentId dest auth authCommitment slot
  | .create f => hook.handleCreate sender f slot
  | .fund nonce intentId evidence amount => hook.handleFund sender nonce intentId evidence amount
  | .expire intentId => handleExpire intentId slot
  | .refund nonce intentId refundAuth => hook.handleRefund sender nonce intentId refundAuth slot
  | .registerRecipient f => hook.handleRegisterRecipient sender f slot

variable (tx : Transaction)

def execute (slot : Nat) : Outcome String (List StateChange) :=
  match tx.payload.head? with
  | none => (.error "empty payload", t)
  | some opcode =>
    if opcode < opHfiPayClaim ∨ opHfiPayRegisterRecipient < opcode then
      (.error ("HfiPayHook: unsupported opcode 0x" ++ opcode.toBitVec.toHex), t)
    else
      match HfiOp.decode tx.payload with
      | .error error => (.error (EngineError.ofPayload error).text, t)
      | .ok op => hook.perform tx.sender op slot t

def operation : Option HfiOp :=
  match tx.payload.head? with
  | none => none
  | some opcode =>
    if opcode < opHfiPayClaim ∨ opHfiPayRegisterRecipient < opcode then none else (HfiOp.decode tx.payload).toOption

/-- The state the dispatcher leaves: it puts everything back when the hook fails. -/
def land (slot : Nat) : StateTree :=
  match hook.execute t tx slot with
  | (.ok _, after) => after
  | (.error _, _) => t

theorem execute_cases (t : StateTree) (tx : Transaction) (slot : Nat) :
    (operation tx = none ∧ ∃ text, hook.execute t tx slot = (.error text, t)) ∨
      ∃ op, operation tx = some op ∧ hook.execute t tx slot = hook.perform tx.sender op slot t := by
  unfold execute operation
  cases tx.payload.head? with
  | none => exact .inl ⟨rfl, _, rfl⟩
  | some opcode =>
    dsimp only
    by_cases foreign : opcode < opHfiPayClaim ∨ opHfiPayRegisterRecipient < opcode
    · rw [if_pos foreign, if_pos foreign]
      exact .inl ⟨rfl, _, rfl⟩
    · rw [if_neg foreign, if_neg foreign]
      cases HfiOp.decode tx.payload with
      | error error => exact .inl ⟨rfl, _, rfl⟩
      | ok op => exact .inr ⟨op, rfl, rfl⟩

end Hook

namespace SmallHfi

def account (n : Nat) : AccountId := ⟨BitVec.ofNat 256 n⟩

def hook : Hook where
  derive :=
    { evmAddress := fun id => id.bytes.setWidth 160
      tronAddress := fun id => id.bytes.setWidth 160
      legacyIdcomEvm := fun address => ⟨BitVec.ofNat 256 (2 ^ 200 + address.toNat)⟩
      legacyIdcomTron := fun address => ⟨BitVec.ofNat 256 (2 ^ 201 + address.toNat)⟩
      stubHash := fun _ _ => 0
      codeHash := fun _ => 0 }
  sha bytes := BitVec.ofNat 256 (leNat bytes)
  idcomXid xid := xid
  verifySignature key _ signature := key.bytes == signature.bytes.take 32
  committedTx := none
  claimRelay := none
  claimSalt := some []

def txOf (sender : Nat) (payload : List UInt8) : Transaction where
  payload := payload
  attestation :=
    { objHash := 0
      idcom := (account sender).bytes
      domain := ⟨1, 2⟩
      contextTag := 0
      credential := ⟨.ed25519, []⟩ }
  rawChain := none
  zkAuth := none

def creation (sender : Nat) (f : HfiCreate) : Transaction :=
  txOf sender (opHfiPayCreate :: leBytes 8 f.nonce ++ hashBytes f.intentId ++ hashBytes f.blindedBinding ++
    leBytes 8 f.amount ++ [f.chainId] ++ hashBytes f.mint ++ hashBytes f.depositAddress ++ leBytes 8 f.bindingEpoch ++
    leBytes 8 f.expirySlot ++ hashBytes f.refundDest ++ hashBytes f.refundAuthorizer ++ hashBytes f.identityCommitment)

def toOne : HfiCreate where
  nonce := 0
  intentId := 77
  blindedBinding := 0
  amount := 100
  chainId := 0
  mint := 0
  depositAddress := 0
  bindingEpoch := 0
  expirySlot := 1000
  refundDest := 0
  refundAuthorizer := 0
  identityCommitment := 9

def genesis : StateTree :=
  ((StateTree.new.insert hook.derive { Account.new (account 1) with balance := 100 }).insert hook.derive
    { Account.new (account 2) with balance := 100 }).hfiRecipientPut 5 9 (encodeRecipientRecord ⟨1, account 1, 9, 0, 0⟩ [] [])

theorem genesis_keyed : genesis.Keyed := by
  have empty : StateTree.new.Keyed := by
    intro id a found
    cases found
  exact ((empty.insert hook.derive _).insert hook.derive _).of_accounts rfl

end SmallHfi

end AceChain.Hfi
