import AceChain.State.AccountHash

namespace AceChain.Defi

open Lib State

inductive ExternalChain where
  | ethereum
  | solana
  | bitcoin
  | tron
  | bsc
deriving DecidableEq

def ExternalChain.name : ExternalChain → String
  | ethereum => "ethereum"
  | solana => "solana"
  | bitcoin => "bitcoin"
  | tron => "tron"
  | bsc => "bsc"

def ExternalChain.all : List ExternalChain := [.ethereum, .solana, .bitcoin, .tron, .bsc]

inductive ExternalAsset where
  | native (chain : ExternalChain)
  | erc20 (address : Address)
  | bep20 (address : Address)
  | splToken (mint : Hash)
  | trc20 (address : Address)
deriving DecidableEq

namespace ExternalAsset

def chain : ExternalAsset → ExternalChain
  | native c => c
  | erc20 _ => .ethereum
  | bep20 _ => .bsc
  | splToken _ => .solana
  | trc20 _ => .tron

def label : ExternalAsset → List UInt8
  | native c => asciiBytes (c.name ++ ":native")
  | erc20 address => asciiBytes "ethereum:erc20:" ++ addressBytes address
  | bep20 address => asciiBytes "bsc:bep20:" ++ addressBytes address
  | splToken mint => asciiBytes "solana:spl:" ++ hashBytes mint
  | trc20 address => asciiBytes "tron:trc20:" ++ addressBytes address

end ExternalAsset

def nativeDecimals : ExternalChain → UInt8
  | .ethereum => 18
  | .solana => 9
  | .bitcoin => 8
  | .tron => 6
  | .bsc => 18

structure DepositRecord where
  depositId : Hash
  intentId : Hash
  asset : ExternalAsset
  amount : Nat
  recipient : AccountId
  processedAt : Nat
deriving DecidableEq

structure SignedDepositRecord where
  deposit : DepositRecord
  relayerPubkey : Hash
  relayerSignature : List UInt8
deriving DecidableEq

structure WithdrawalRecord where
  withdrawalId : Nat
  intentId : Hash
  asset : ExternalAsset
  amount : Nat
  sender : AccountId
  externalDest : List UInt8
  requestedAt : Nat
  completed : Bool
deriving DecidableEq

structure WithdrawalCompletionRecord where
  withdrawalId : Nat
  destinationChain : ExternalChain
  externalTxHash : Hash
  withdrawalRecordHash : Hash
  releasedAsset : ExternalAsset
  releasedRecipient : List UInt8
  releasedAmount : Nat
  gatewayAddress : List UInt8
  relayerPubkey : Hash
  relayerSignature : List UInt8
deriving DecidableEq

inductive RiskTier where
  | tier1
  | tier2
  | tier3
  | experimental
deriving DecidableEq

structure RiskConfig where
  depositPaused : Bool
  withdrawPaused : Bool
  maxSingleDeposit : Nat
  maxSingleWithdrawal : Nat
  dailyDepositLimit : Nat
  dailyWithdrawalLimit : Nat
  finalityBlocks : Nat
  requiredRelayerQuorum : UInt8
deriving DecidableEq

structure CanonicalAsset where
  id : Hash
  symbol : List UInt8
  decimals : UInt8
  mint : AccountId
  active : Bool
  riskTier : RiskTier
deriving DecidableEq

structure ExternalAssetMapping where
  externalAsset : ExternalAsset
  reserveMint : AccountId
  canonicalAsset : Hash
  externalDecimals : UInt8
  canonicalDecimals : UInt8
  mintEnabled : Bool
  withdrawEnabled : Bool
  risk : RiskConfig
deriving DecidableEq

structure ReservePosition where
  externalAsset : ExternalAsset
  canonicalAsset : Hash
  totalDeposited : Nat
  totalWithdrawn : Nat
  pendingWithdrawal : Nat
  available : Nat
  lastUpdatedSlot : Nat
deriving DecidableEq

structure CanonicalSupply where
  canonicalAsset : Hash
  totalMinted : Nat
  totalBurned : Nat
  activeSupply : Nat
  safetyBuffer : Nat
deriving DecidableEq

structure CanonicalReserveTotal where
  canonicalAsset : Hash
  backingTotal : Nat
deriving DecidableEq

/-- The debug text of an asset inside an error is the asset itself here. -/
inductive BridgeError where
  | assetNotRegistered (asset : ExternalAsset)
  | depositAlreadyProcessed (id : Hash)
  | riskLimitExceeded (text : String)
  | invalidDepositProof (text : String)
  | insufficientBalance (have_ need : Nat)
  | mintError (text : String)
  | burnError (text : String)
  | invalidAmount
  | invalidDestination (asset : ExternalAsset) (length : Nat)
  | serialization (text : String)
  | canonicalAssetNotFound (id : Hash)
  | canonicalAssetInactive (symbol : List UInt8)
  | invalidDecimals (decimals : UInt8)
  | assetNotMapped (asset : ExternalAsset)
  | mappingMismatch
  | mintDisabled
  | withdrawDisabled
  | depositPaused
  | withdrawPaused
  | limitExceeded (text : String)
  | amountTooSmall
  | insufficientReserve (have_ need : Nat)
  | reserveInvariantViolation (text : String)
  | arithmeticOverflow
deriving DecidableEq

structure Codec (α : Type) where
  encode : α → List UInt8
  decode : List UInt8 → Except String α

/-- The bincode encodings of the records. -/
class Formats where
  canonicalCodec : Codec CanonicalAsset
  mappingCodec : Codec ExternalAssetMapping
  positionCodec : Codec ReservePosition
  supplyCodec : Codec CanonicalSupply
  reserveTotalCodec : Codec CanonicalReserveTotal
  withdrawalCodec : Codec WithdrawalRecord
  signedDepositCodec : Codec SignedDepositRecord
  completionCodec : Codec WithdrawalCompletionRecord

export Formats (canonicalCodec mappingCodec positionCodec supplyCodec reserveTotalCodec withdrawalCodec signedDepositCodec
  completionCodec)

end AceChain.Defi
