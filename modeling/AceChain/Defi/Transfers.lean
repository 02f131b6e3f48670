import AceChain.Defi.Reserve

namespace AceChain.Defi

open AceChain.Runtime State Lib Handler Vm Engine

def validateExternalDestination (asset : ExternalAsset) (externalDest : List UInt8) : Bool :=
  match asset with
  | .native .ethereum | .erc20 _ => externalDest.length = 20
  | .native .bsc | .bep20 _ => externalDest.length = 20
  | .native .solana | .splToken _ => externalDest.length = 32
  | .native .tron | .trc20 _ => externalDest.length = 20
  | .native .bitcoin => externalDest.length = 20 || externalDest.length = 32 || externalDest.length = 33

structure OAssetWithdrawRequest where
  nonce : Nat
  intentId : Hash
  canonicalAsset : Hash
  amount : Nat
  targetAsset : ExternalAsset
  externalDest : List UInt8
deriving DecidableEq

def ExternalChain.discriminant : ExternalChain → UInt8
  | ethereum => 1
  | solana => 2
  | bitcoin => 3
  | tron => 4
  | bsc => 5

namespace Bridge

variable [Formats] (b : Bridge) (d : DepositRecord)

/-- The slot of the deposit is not part of what a relayer signs. -/
def depositBytes : List UInt8 :=
  asciiBytes "ace-deposit-v1:" ++ (hashBytes d.depositId ++ (hashBytes d.intentId ++
    (leBytes 4 d.asset.label.length ++ d.asset.label ++ (leBytes 8 d.amount ++ hashBytes d.recipient.bytes))))

def hashDepositRecord : Hash := b.sha (depositBytes d)

variable (r : WithdrawalRecord)

def hashWithdrawalRecord : Hash :=
  b.sha (asciiBytes "ace-withdrawal-v1:" ++ leBytes 8 r.withdrawalId ++ hashBytes r.intentId ++
    leBytes 4 r.asset.label.length ++ r.asset.label ++ leBytes 8 r.amount ++ hashBytes r.sender.bytes ++
    leBytes 4 r.externalDest.length ++ r.externalDest)

variable (c : WithdrawalCompletionRecord)

def hashWithdrawalCompletion : Hash :=
  b.sha (asciiBytes "ace-withdrawal-completed-v1:" ++ leBytes 8 c.withdrawalId ++ [c.destinationChain.discriminant] ++
    hashBytes c.externalTxHash ++ hashBytes c.withdrawalRecordHash ++ leBytes 4 c.releasedAsset.label.length ++
    c.releasedAsset.label ++ leBytes 4 c.releasedRecipient.length ++ c.releasedRecipient ++ leBytes 8 c.releasedAmount ++
    leBytes 4 c.gatewayAddress.length ++ c.gatewayAddress ++ hashBytes c.relayerPubkey)

def requireRelayer (pubkey : Hash) : BridgeM Unit := do
  let approved ← read (fun t => isMarked (b.cell t (.relayer pubkey)))
  require (approved = true) (.invalidDepositProof "relayer not in state-approved set")

def checkSignature (pubkey message : Hash) (signature : List UInt8) : BridgeM Unit :=
  fetch (fun _ =>
    match b.verifySignature pubkey message signature with
    | .ok () => .ok ()
    | .error text => .error (.invalidDepositProof text))

variable (signed : SignedDepositRecord)

def verifySignedDepositAgainstState : BridgeM Unit := do
  b.requireRelayer signed.relayerPubkey
  b.checkSignature signed.relayerPubkey (b.hashDepositRecord signed.deposit) signed.relayerSignature

def isProcessed (t : StateTree) (depositId : Hash) : Bool := isMarked (t.getStorage b.authorityId depositId)

def markProcessed (depositId : Hash) (t : StateTree) : StateTree := t.setStorage b.authorityId depositId marker

def mint (mintId : AccountId) (recipient : AccountId) (amount : Nat) : BridgeM Unit := do
  let _ ← adapt .mintError (fun t => b.tokens.mintToOwner b.derive t mintId.bytes recipient amount b.authorityId)
  pure ()

def creditDeposit (mapping : ExternalAssetMapping) (canonical : CanonicalAsset) (amount slot : Nat) :
    BridgeM AccountId := do
  b.recordDeposit d.asset mapping.canonicalAsset amount slot
  b.mint canonical.mint d.recipient amount
  b.increaseSupply mapping.canonicalAsset amount
  write (b.markProcessed d.depositId)
  b.checkInvariant mapping.canonicalAsset
  pure canonical.mint

def processDepositToOassetInner (currentSlot : Nat) : BridgeM AccountId := do
  b.verifySignedDepositAgainstState signed
  let d := signed.deposit
  require (d.amount ≠ 0) .invalidAmount
  let processed ← read (fun t => b.isProcessed t d.depositId)
  require (processed = false) (.depositAlreadyProcessed d.depositId)
  let found ← fetch (b.getMapping d.asset)
  let mapping ← demand (fun _ => found) (.assetNotMapped d.asset)
  require (mapping.mintEnabled = true) .mintDisabled
  b.checkAndRecordDeposit mapping.risk d.asset d.amount currentSlot
  let found ← fetch (b.getCanonicalAsset mapping.canonicalAsset)
  let canonical ← demand (fun _ => found) (.canonicalAssetNotFound mapping.canonicalAsset)
  require (canonical.active = true) (.canonicalAssetInactive canonical.symbol)
  let amount ← fetch (fun _ => normalizeAmount d.amount mapping.externalDecimals mapping.canonicalDecimals)
  b.creditDeposit d mapping canonical amount currentSlot

def processDepositToOasset (currentSlot : Nat) : BridgeM AccountId :=
  atomically (b.processDepositToOassetInner signed currentSlot)

def writeWithdrawalRecord : BridgeM Unit :=
  write (b.putRecord withdrawalCodec (.withdrawal r.withdrawalId) r)

def indexWithdrawalRecord : BridgeM Unit := do
  let existing ← fetch (b.loadIndexedWithdrawalRecord r.withdrawalId)
  if existing.isNone then
    let index ← read (fun t => b.number t .indexCount)
    write (b.setNumber (.indexId index) r.withdrawalId)
    write (b.setNumber .indexCount (index + 1))
  b.writeWithdrawalRecord r

def burn (mintId : AccountId) (sender : AccountId) (amount : Nat) : BridgeM Unit := do
  let _ ← adapt .burnError (fun t => b.tokens.transferBetweenOwners b.derive t mintId.bytes sender b.authorityId amount)
  pure ()

variable (sender : AccountId) (r : OAssetWithdrawRequest)

def debitWithdrawal (canonical : CanonicalAsset)
    (externalAmount currentSlot nextWithdrawalId : Nat) : BridgeM WithdrawalRecord := do
  b.reserveWithdrawal r.targetAsset r.canonicalAsset r.amount currentSlot
  b.burn canonical.mint sender r.amount
  b.decreaseSupply r.canonicalAsset r.amount
  let record : WithdrawalRecord :=
    ⟨nextWithdrawalId, r.intentId, r.targetAsset, externalAmount, sender, r.externalDest, currentSlot, false⟩
  b.indexWithdrawalRecord record
  b.checkInvariant r.canonicalAsset
  pure record

variable (currentSlot nextWithdrawalId : Nat)

def requestOassetWithdrawalInner :
    BridgeM WithdrawalRecord := do
  require (r.amount ≠ 0) .invalidAmount
  let found ← fetch (b.getCanonicalAsset r.canonicalAsset)
  let canonical ← demand (fun _ => found) (.canonicalAssetNotFound r.canonicalAsset)
  require (canonical.active = true) (.canonicalAssetInactive canonical.symbol)
  let found ← fetch (b.getMapping r.targetAsset)
  let mapping ← demand (fun _ => found) (.assetNotMapped r.targetAsset)
  require (mapping.canonicalAsset = r.canonicalAsset) .mappingMismatch
  require (mapping.withdrawEnabled = true) .withdrawDisabled
  b.checkAndRecordWithdrawal mapping.risk r.targetAsset r.amount currentSlot
  require (validateExternalDestination r.targetAsset r.externalDest = true)
    (.invalidDestination r.targetAsset r.externalDest.length)
  let externalAmount ← fetch (fun _ => normalizeAmount r.amount mapping.canonicalDecimals mapping.externalDecimals)
  let balance ← read (fun t => b.tokens.tokenBalance t canonical.mint.bytes sender)
  require (r.amount ≤ balance) (.insufficientBalance balance r.amount)
  b.debitWithdrawal sender r canonical externalAmount currentSlot nextWithdrawalId

def requestOassetWithdrawal :
    BridgeM WithdrawalRecord :=
  atomically (b.requestOassetWithdrawalInner sender r currentSlot nextWithdrawalId)

def verifyWithdrawalCompletionAgainstState : BridgeM WithdrawalRecord := do
  b.requireRelayer c.relayerPubkey
  let found ← fetch (b.loadIndexedWithdrawalRecord c.withdrawalId)
  let record ← demand (fun _ => found) (.invalidDepositProof ("withdrawal " ++ toString c.withdrawalId ++ " not found"))
  require (record.completed = false) (.invalidDepositProof ("withdrawal " ++ toString c.withdrawalId ++ " already completed"))
  require (record.asset.chain = c.destinationChain) (.invalidDepositProof ("withdrawal chain mismatch: record " ++
    record.asset.chain.name ++ ", completion " ++ c.destinationChain.name))
  require (record.asset = c.releasedAsset)
    (.invalidDepositProof ("withdrawal " ++ toString c.withdrawalId ++ " released asset mismatch"))
  require (record.externalDest = c.releasedRecipient)
    (.invalidDepositProof ("withdrawal " ++ toString c.withdrawalId ++ " released recipient mismatch"))
  require (record.amount = c.releasedAmount)
    (.invalidDepositProof ("withdrawal " ++ toString c.withdrawalId ++ " released amount mismatch"))
  require (c.withdrawalRecordHash = b.hashWithdrawalRecord record)
    (.invalidDepositProof ("withdrawal " ++ toString c.withdrawalId ++ " record hash mismatch"))
  b.checkSignature c.relayerPubkey (b.hashWithdrawalCompletion c) c.relayerSignature
  pure record

/-- The reserve set aside at the request is computed a second time from the floored external amount. -/
def settleReserve (record : WithdrawalRecord) : BridgeM Unit := do
  let found ← fetch (b.getMapping record.asset)
  match found with
  | none => pure ()
  | some mapping => do
    let amount ← fetch (fun _ => normalizeAmount record.amount mapping.externalDecimals mapping.canonicalDecimals)
    b.finalizeWithdrawal record.asset amount record.requestedAt

def completeIndexedWithdrawalInner : BridgeM WithdrawalRecord := do
  let record ← b.verifyWithdrawalCompletionAgainstState c
  let completed := { record with completed := true }
  b.writeWithdrawalRecord completed
  b.settleReserve completed
  write (b.setCell (.completed c.withdrawalId) marker)
  pure completed

def completeIndexedWithdrawal : BridgeM WithdrawalRecord :=
  atomically (b.completeIndexedWithdrawalInner c)

end Bridge

end AceChain.Defi
