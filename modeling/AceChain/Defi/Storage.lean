import AceChain.Defi.Types
import AceChain.Lib.Handler
import AceChain.Vm.TokenRuntime

namespace AceChain.Defi

open State Lib Handler Vm

/-- The bridge with what it takes from elsewhere: hashing, Ed25519, the token ledger and the slot duration. -/
structure Bridge where
  sha : List UInt8 → Hash
  derive : Derivations
  tokens : TokenSlots
  erc20Address : Hash → Address
  verifySignature : Hash → Hash → List UInt8 → Except String Unit
  slotDurationMs : Nat

abbrev BridgeM := Handler StateTree BridgeError

inductive RecordKey where
  | canonical (id : Hash)
  | mapping (asset : ExternalAsset)
  | position (asset : ExternalAsset)
  | supply (id : Hash)
  | reserveTotal (id : Hash)
deriving DecidableEq

inductive Place where
  | record (key : RecordKey)
  | withdrawal (id : Nat)
deriving DecidableEq

inductive Cell where
  | chunks (place : Place)
  | length (place : Place)
  | chunk (place : Place) (index : Nat)
  | dailyDeposit (asset : ExternalAsset) (day : Nat)
  | dailyWithdraw (asset : ExternalAsset) (day : Nat)
  | indexCount
  | indexId (index : Nat)
  | relayer (pubkey : Hash)
  | completed (id : Nat)
  | nextWithdrawal
deriving DecidableEq

namespace Bridge

variable [Formats] (b : Bridge)

def authorityId : AccountId := ⟨b.sha (asciiBytes "ace-bridge-authority")⟩

variable (asset : ExternalAsset)

def wrappedMintId : AccountId := ⟨b.sha (asciiBytes "ace-wrapped:" ++ asset.label)⟩

def domainSlot (domain : String) (data : List UInt8) : Hash := b.sha (asciiBytes domain ++ data)

def keySlot : RecordKey → Hash
  | .canonical id => b.domainSlot "omni:canonical-asset:v1:" (hashBytes id)
  | .mapping asset => b.domainSlot "omni:external-mapping:v1:" asset.label
  | .position asset => b.domainSlot "omni:reserve-position:v1:" asset.label
  | .supply id => b.domainSlot "omni:canonical-supply:v1:" (hashBytes id)
  | .reserveTotal id => b.domainSlot "omni:canonical-reserve-total:v1:" (hashBytes id)

def recordSlot (domain : String) (key : RecordKey) (index : Nat) : Hash :=
  b.domainSlot domain (hashBytes (b.keySlot key) ++ leBytes 8 index)

/-- The next withdrawal id alone stands under a readable slot. -/
def slot : Cell → Hash
  | .chunks (.record key) => b.recordSlot "omni:record-chunks:v1:" key 0
  | .length (.record key) => b.recordSlot "omni:record-len:v1:" key 0
  | .chunk (.record key) index => b.recordSlot "omni:record-chunk:v1:" key index
  | .chunks (.withdrawal id) => b.domainSlot "ace-defi:withdrawal-record-chunks:v1:" (leBytes 8 id)
  | .length (.withdrawal id) => b.domainSlot "ace-defi:withdrawal-record-len:v1:" (leBytes 8 id)
  | .chunk (.withdrawal id) index => b.domainSlot "ace-defi:withdrawal-record-chunk:v1:" (leBytes 8 id ++ leBytes 8 index)
  | .dailyDeposit asset day => b.domainSlot "omni:risk-daily-deposit:v1:" (asset.label ++ leBytes 8 day)
  | .dailyWithdraw asset day => b.domainSlot "omni:risk-daily-withdraw:v1:" (asset.label ++ leBytes 8 day)
  | .indexCount => b.domainSlot "ace-defi:withdrawal-index-count:v1" []
  | .indexId index => b.domainSlot "ace-defi:withdrawal-index-id:v1:" (leBytes 8 index)
  | .relayer pubkey => b.domainSlot "ace-defi:relayer-approved:v1:" (hashBytes pubkey)
  | .completed id => b.domainSlot "ace-withdrawal-completed:" (leBytes 8 id)
  | .nextWithdrawal => wordOf (asciiBytes "nxt_w_id")

variable (t : StateTree) (c : Cell)

def cell : Hash := t.getStorage b.authorityId (b.slot c)

def setCell (value : Hash) (t : StateTree) : StateTree := t.setStorage b.authorityId (b.slot c) value

def number : Nat := wordU64 (b.cell t c)

def setNumber (n : Nat) (t : StateTree) : StateTree := b.setCell c (u64Word n) t

def isMarked (word : Hash) : Bool := (hashBytes word).head? = some 1

def marker : Hash := wordOf [1]

def chunkCount (bytes : List UInt8) : Nat := (bytes.length + 31) / 32

def chunkAt (bytes : List UInt8) (index : Nat) : List UInt8 := (bytes.drop (32 * index)).take 32

def putBytes (place : Place) (bytes : List UInt8) (t : StateTree) : StateTree :=
  let t := b.setNumber (.chunks place) (chunkCount bytes) t
  let t := b.setNumber (.length place) bytes.length t
  (List.range (chunkCount bytes)).foldl (fun t index => b.setCell (.chunk place index) (wordOf (chunkAt bytes index)) t) t

def lengthError : Place → String
  | .record _ => "record byte length exceeds stored chunks"
  | .withdrawal _ => "withdrawal byte length exceeds stored chunks"

def decodeError (e : String) : Place → String
  | .record _ => e
  | .withdrawal _ => "withdrawal decode failed: " ++ e

def getBytes (place : Place) (t : StateTree) : Except BridgeError (Option (List UInt8)) :=
  let count := b.number t (.chunks place)
  if count = 0 then .ok none
  else
    let length := b.number t (.length place)
    let bytes := (List.range count).flatMap (fun index => hashBytes (b.cell t (.chunk place index)))
    if bytes.length < length then .error (.serialization (lengthError place))
    else .ok (some (bytes.take length))

def putRecord {α : Type} (codec : Codec α) (place : Place) (value : α) (t : StateTree) : StateTree :=
  b.putBytes place (codec.encode value) t

def getRecord {α : Type} (codec : Codec α) (place : Place) (t : StateTree) : Except BridgeError (Option α) :=
  match b.getBytes place t with
  | .error e => .error e
  | .ok none => .ok none
  | .ok (some bytes) =>
    match codec.decode bytes with
    | .ok value => .ok (some value)
    | .error e => .error (.serialization (decodeError e place))

def getCanonicalAsset (id : Hash) (t : StateTree) : Except BridgeError (Option CanonicalAsset) :=
  b.getRecord canonicalCodec (.record (.canonical id)) t

def getMapping : Except BridgeError (Option ExternalAssetMapping) :=
  b.getRecord mappingCodec (.record (.mapping asset)) t

def getPosition : Except BridgeError (Option ReservePosition) :=
  b.getRecord positionCodec (.record (.position asset)) t

def getSupply (id : Hash) (t : StateTree) : Except BridgeError (Option CanonicalSupply) :=
  b.getRecord supplyCodec (.record (.supply id)) t

def getReserveTotal (id : Hash) (t : StateTree) : Except BridgeError (Option CanonicalReserveTotal) :=
  b.getRecord reserveTotalCodec (.record (.reserveTotal id)) t

def loadIndexedWithdrawalRecord (id : Nat) (t : StateTree) : Except BridgeError (Option WithdrawalRecord) :=
  b.getRecord withdrawalCodec (.withdrawal id) t

end Bridge

end AceChain.Defi
