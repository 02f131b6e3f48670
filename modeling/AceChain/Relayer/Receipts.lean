import AceChain.Defi.Transfers

namespace AceChain.Relayer

open Defi State Lib

def hexDigit (c : Char) : Option Nat :=
  if '0' ≤ c ∧ c ≤ '9' then some (c.toNat - '0'.toNat)
  else if 'a' ≤ c ∧ c ≤ 'f' then some (c.toNat - 'a'.toNat + 10)
  else if 'A' ≤ c ∧ c ≤ 'F' then some (c.toNat - 'A'.toNat + 10)
  else none

def decodeHex : List Char → Option (List UInt8)
  | [] => some []
  | [_] => none
  | high :: low :: rest => do
    let high ← hexDigit high
    let low ← hexDigit low
    let bytes ← decodeHex rest
    return (16 * high + low).toUInt8 :: bytes

def withoutMark : List Char → List Char
  | '0' :: 'x' :: rest => rest
  | text => text

def parseHexBytes (text : String) : Option (List UInt8) := decodeHex (withoutMark text.toList)

/-- `parse_evm_address` and `parse_hex_32`: the text of exactly `width` bytes. -/
def parseHexOf (width : Nat) (text : String) : Option (List UInt8) :=
  (parseHexBytes text).filter (fun bytes => bytes.length = width)

def hexText (bytes : List UInt8) : String :=
  String.ofList ('0' :: 'x' :: bytes.flatMap (fun b => [Nat.digitChar (b.toNat / 16), Nat.digitChar (b.toNat % 16)]))

def wordText (n : Nat) : String := hexText (leBytes 32 n).reverse

def addressTopic (address : List UInt8) : String := hexText (List.replicate 12 0 ++ address)

def eqIgnoreAsciiCase (a b : String) : Bool := a.toList.map Char.toLower = b.toList.map Char.toLower

structure Log where
  address : Option String
  topics : Option (List (Option String))
  data : Option String
deriving DecidableEq

structure Receipt where
  status : Option String
  blockNumber : Option Nat
  logs : Option (List Log)
deriving DecidableEq

structure GatewayRelease where
  gateway : List UInt8
  withdrawalId : Nat
  token : Address
  recipient : List UInt8
  amount : Nat
deriving DecidableEq

structure RelayerKey where
  pubkey : Hash
  sign : Hash → List UInt8

structure Config where
  bridge : Bridge
  keccak : List UInt8 → Hash
  executor : ExternalChain → Bool
  bridgeContract : ExternalChain → Option String
  egressConfirmations : Nat
  relayerKey : Option RelayerKey

variable (cfg : Config)

def releaseTopic : String := hexText (hashBytes (cfg.keccak (asciiBytes "Release(bytes32,address,address,uint256)")))

def logMatches (release : GatewayRelease) (log : Log) : Bool :=
  (log.address.map (fun address => eqIgnoreAsciiCase address (hexText release.gateway))).getD false &&
  (log.data.map (fun data => eqIgnoreAsciiCase data (wordText release.amount))).getD false &&
  (log.topics.map (fun topics =>
    topics[0]?.join == some (releaseTopic cfg) &&
    topics[1]?.join == some (wordText release.withdrawalId) &&
    topics[2]?.join == some (addressTopic (addressBytes release.token)) &&
    topics[3]?.join == some (addressTopic release.recipient))).getD false

def validateGatewayReleaseReceipt (receipt : Receipt) (release : GatewayRelease) : Bool :=
  match receipt.logs with
  | none => false
  | some logs => logs.any (logMatches cfg release)

def confirmed (receiptBlock currentBlock : Nat) : Bool :=
  u64SatAdd receiptBlock (max cfg.egressConfirmations 1) ≤ u64SatAdd currentBlock 1

def gatewayAddress (chain : ExternalChain) : Option (List UInt8) := (cfg.bridgeContract chain).bind (parseHexOf 20)

variable (w : WithdrawalRecord)

def executable : Bool :=
  cfg.executor w.asset.chain && w.externalDest.length = 20 &&
    match w.asset with
    | .native .ethereum | .native .bsc => true
    | .erc20 _ | .bep20 _ => (cfg.bridgeContract w.asset.chain).isNone || (gatewayAddress cfg w.asset.chain).isSome
    | _ => false

def expectedGatewayRelease : Option GatewayRelease :=
  match w.asset with
  | .erc20 token | .bep20 token =>
    (gatewayAddress cfg w.asset.chain).map (fun gateway => ⟨gateway, w.withdrawalId, token, w.externalDest, w.amount⟩)
  | _ => none

def completionGatewayAddress : List UInt8 :=
  ((expectedGatewayRelease cfg w).map GatewayRelease.gateway).getD []

def releaseReported (receipt : Receipt) : Bool :=
  ((expectedGatewayRelease cfg w).map (validateGatewayReleaseReceipt cfg receipt)).getD true

/-- `sign_withdrawal_completion`; nothing is submitted if it fails. -/
def signWithdrawalCompletion (externalTxHash : String) (gateway : List UInt8) :
    Option WithdrawalCompletionRecord := do
  let key ← cfg.relayerKey
  let hash ← parseHexOf 32 externalTxHash
  let completion : WithdrawalCompletionRecord :=
    { withdrawalId := w.withdrawalId
      destinationChain := w.asset.chain
      externalTxHash := BitVec.ofNat 256 (leNat hash.reverse)
      withdrawalRecordHash := cfg.bridge.hashWithdrawalRecord w
      releasedAsset := w.asset
      releasedRecipient := w.externalDest
      releasedAmount := w.amount
      gatewayAddress := gateway
      relayerPubkey := key.pubkey
      relayerSignature := List.replicate 64 0 }
  return { completion with relayerSignature := key.sign (cfg.bridge.hashWithdrawalCompletion completion) }

theorem signWithdrawalCompletion_id {w : WithdrawalRecord} {hash : String} {gateway : List UInt8}
    {completion : WithdrawalCompletionRecord} (signed : signWithdrawalCompletion cfg w hash gateway = some completion) :
    completion.withdrawalId = w.withdrawalId := by
  unfold signWithdrawalCompletion at signed
  cases key : cfg.relayerKey with
  | none => simp [key] at signed
  | some key' =>
    cases parsed : parseHexOf 32 hash with
    | none => simp [key, parsed] at signed
    | some bytes =>
      simp only [key, parsed, Option.bind_eq_bind, Option.bind_some, Option.pure_def, Option.some.injEq] at signed
      rw [← signed]

end AceChain.Relayer
