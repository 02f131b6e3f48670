import AceChain.Defi.Transfers

namespace AceChain.Defi

open AceChain.Runtime State Lib Handler Vm Engine

inductive SystemTxError where
  | bridge (error : BridgeError)
  | unknownSender (sender : AccountId)
  | invalidNonce (expected got : Nat)
  | nonceOverflow (sender : AccountId)
  | canonicalAssetNotFound
  | mappingWithoutAsset
  | withdrawalIdOverflow
  | completionIdcom
deriving DecidableEq

abbrev SystemM := Handler StateTree SystemTxError

def opBridgeDeposit : UInt8 := 0x0d

def opWithdrawalCompleted : UInt8 := 0x0e

def decodeFramed {α : Type} (opcode : UInt8) (name record encoded : String) (codec : Codec α) (payload : List UInt8) :
    Except BridgeError α :=
  if payload.length < 5 ∨ payload.head? ≠ some opcode then
    .error (.invalidDepositProof ("not an ACE DeFi " ++ name ++ " payload"))
  else
    let stop := 5 + leNat (slice payload 1 4)
    if payload.length ≠ stop then
      .error (.invalidDepositProof ("invalid " ++ record ++ " payload length: expected " ++ toString stop ++ ", got " ++
        toString payload.length))
    else
      match codec.decode (payload.drop 5) with
      | .ok value => .ok value
      | .error e => .error (.invalidDepositProof ("invalid " ++ encoded ++ " encoding: " ++ e))

variable [Formats]

def decodeSignedDepositPayload (payload : List UInt8) : Except BridgeError SignedDepositRecord :=
  decodeFramed opBridgeDeposit "bridge deposit" "deposit" "signed deposit" signedDepositCodec payload

def decodeWithdrawalCompletionPayload (payload : List UInt8) : Except BridgeError WithdrawalCompletionRecord :=
  let name := "withdrawal completion"
  decodeFramed opWithdrawalCompleted name name name completionCodec payload

def assetDecimals : ExternalAsset → UInt8
  | .native chain => nativeDecimals chain
  | .erc20 _ | .bep20 _ => 18
  | .splToken _ => 9
  | .trc20 _ => 6

abbrev AssetRegistry := List AccountId

namespace Bridge

variable (b : Bridge) (registry : AssetRegistry) (asset : ExternalAsset)

def isRegistered (t : StateTree) : Bool :=
  registry.contains (b.wrappedMintId asset) || (b.tokens.getMintMeta t (b.wrappedMintId asset).bytes).isSome

def registerAsset (decimals : UInt8) : BridgeM AssetRegistry := do
  write (fun t => ensureAccount b.derive t b.authorityId)
  let registered ← read (b.isRegistered registry asset)
  if registered then pure (b.wrappedMintId asset :: registry)
  else do
    let _ ← adapt .mintError (fun t =>
      b.tokens.createMint b.derive b.erc20Address t (b.wrappedMintId asset).bytes decimals b.authorityId.bytes)
    pure (b.wrappedMintId asset :: registry)

def registerAllNatives : List ExternalChain → AssetRegistry → BridgeM AssetRegistry
  | [], registry => pure registry
  | chain :: chains, registry => do
    let registry ← b.registerAsset registry (.native chain) (nativeDecimals chain)
    registerAllNatives chains registry

def checkDepositLimits (amount : Nat) : BridgeM Unit := do
  let multiplier := 10 ^ (assetDecimals asset).toNat
  require (amount / multiplier ≤ 50000) (.riskLimitExceeded "single tx limit 50k")
  let supply ← read (fun t => ((b.tokens.getMintMeta t (b.wrappedMintId asset).bytes).map (·.supply)).getD 0)
  require (supply / multiplier + amount / multiplier ≤ 1000000) (.riskLimitExceeded "TVL limit 1M")

def wrapDeposit (d : DepositRecord) : BridgeM Unit := do
  require (¬ (d.amount = 0 ∨ u64Max / 2 < d.amount)) .invalidAmount
  let registered ← read (b.isRegistered registry d.asset)
  require (registered = true) (.assetNotRegistered d.asset)
  write (fun t => ensureAccount b.derive t d.recipient)
  b.mint (b.wrappedMintId d.asset) d.recipient d.amount

def processDeposit (d : DepositRecord) : BridgeM Unit := do
  let processed ← read (fun t => b.isProcessed t d.depositId)
  require (processed = false) (.depositAlreadyProcessed d.depositId)
  b.checkDepositLimits d.asset d.amount
  b.wrapDeposit registry d
  write (b.markProcessed d.depositId)

variable (signed : SignedDepositRecord)

def processStateApprovedSignedDeposit : BridgeM Unit := do
  b.verifySignedDepositAgainstState signed
  let registered ← read (b.isRegistered registry signed.deposit.asset)
  let registry ← if registered then pure registry
    else b.registerAsset registry signed.deposit.asset (assetDecimals signed.deposit.asset)
  b.processDeposit registry signed.deposit

def processPlainDeposit : BridgeM Unit := do
  let registry ← b.registerAllNatives ExternalChain.all []
  b.processStateApprovedSignedDeposit registry signed

def depositInner : SystemM Unit := do
  let mapping ← adapt .bridge (fetch (b.getMapping signed.deposit.asset))
  match mapping with
  | some mapping => do
    let found ← adapt .bridge (fetch (b.getCanonicalAsset mapping.canonicalAsset))
    let _ ← demand (fun _ => found) .mappingWithoutAsset
    let _ ← adapt .bridge (b.processDepositToOasset signed signed.deposit.processedAt)
    pure ()
  | none => adapt .bridge (b.processPlainDeposit signed)

/-- A system transaction that fails leaves no trace: the node restores its snapshot. -/
def executeBridgeDeposit (payload : List UInt8) : SystemM Unit := atomically do
  let signed ← adapt .bridge (fetch (fun _ => decodeSignedDepositPayload payload))
  b.depositInner signed

def consumeNonce (sender : AccountId) (nonce : Nat) : SystemM Unit := do
  let account ← demand (fun t => t.get sender) (.unknownSender sender)
  require (account.nonce = nonce) (.invalidNonce account.nonce nonce)
  let next ← demand (fun _ => u64CheckedAdd account.nonce 1) (.nonceOverflow sender)
  write (fun t => t.modify sender (fun a => { a with nonce := next }))

def executeOassetWithdraw (sender : AccountId) (r : OAssetWithdrawRequest) (blockSlot : Nat) : SystemM WithdrawalRecord :=
  atomically do
    consumeNonce sender r.nonce
    let id ← read (fun t => b.number t .nextWithdrawal)
    let found ← adapt .bridge (fetch (b.getCanonicalAsset r.canonicalAsset))
    let _ ← demand (fun _ => found) .canonicalAssetNotFound
    let record ← adapt .bridge (b.requestOassetWithdrawal sender r blockSlot id)
    let next ← demand (fun _ => u64CheckedAdd id 1) .withdrawalIdOverflow
    write (b.setNumber .nextWithdrawal next)
    pure record

def withdrawalCompletionTxIdcom (c : WithdrawalCompletionRecord) : Hash :=
  b.sha (asciiBytes "ace-defi:withdrawal-completed:v1:" ++ hashBytes c.relayerPubkey)

def completionInner (idcom : Hash) (c : WithdrawalCompletionRecord) : SystemM WithdrawalRecord := do
  require (idcom = b.withdrawalCompletionTxIdcom c) .completionIdcom
  let _ ← adapt .bridge (b.verifyWithdrawalCompletionAgainstState c)
  adapt .bridge (b.completeIndexedWithdrawal c)

def executeWithdrawalCompletion (idcom : Hash) (payload : List UInt8) : SystemM WithdrawalRecord := atomically do
  let completion ← adapt .bridge (fetch (fun _ => decodeWithdrawalCompletionPayload payload))
  b.completionInner idcom completion

end Bridge

end AceChain.Defi
