import AceChain.Runtime.Transaction

namespace AceChain.Runtime

def opTransfer : UInt8 := 0x01

def opCreateAccount : UInt8 := 0x02

def opSetAuthPubkey : UInt8 := 0x03

def opAddAuthKey : UInt8 := 0x04

def opCrossVmSettle : UInt8 := 0x05

def opApproveValidator : UInt8 := 0x0C

def opBridgeDeposit : UInt8 := 0x0D

def opWithdrawalCompleted : UInt8 := 0x0E

def opLiquid : UInt8 := 0x0F

def opOassetWithdraw : UInt8 := 0x13

def opMevAceOmissionEvidence : UInt8 := 0x14

/-- The decoded operations. The address registration and HFI Pay operations (`0x05` to `0x0B`) are read by
their own handlers only and appear here as `other`. -/
inductive TransactionOp where
  | transfer (nonce : Nat) (recipient : AccountId) (amount : Nat)
  | createAccount (idCom : AccountId) (authPubkey : TaggedPubkey)
  | setAuthPubkey (nonce : Nat) (authPubkey : TaggedPubkey)
  | addAuthKey (nonce : Nat) (authPubkey : TaggedPubkey)
  | approveValidator (nonce : Nat) (candidateIdCom : AccountId) (signingPubkey : List UInt8)
  | other (opcode : UInt8)
deriving DecidableEq

inductive PayloadError where
  | empty
  | unknownOpcode (opcode : UInt8)
  | invalid (text : String)
deriving DecidableEq

variable (payload : List UInt8)

def slice (start len : Nat) : List UInt8 := (payload.drop start).take len

def accountAt (start : Nat) : AccountId := ⟨beHash (slice payload start 32)⟩

def u64At (start : Nat) : Nat := leNat (slice payload start 8)

theorem u64At_le (payload : List UInt8) (start : Nat) : u64At payload start ≤ u64Max := by
  unfold u64At u64Max
  have bound := leNat_lt (slice payload start 8)
  have short : (slice payload start 8).length ≤ 8 := by
    exact List.length_take_le 8 _
  have powers : 256 ^ (slice payload start 8).length ≤ 256 ^ 8 := Nat.pow_le_pow_right (by decide) short
  omega

namespace TransactionOp

variable (payload : List UInt8)

def decodeTransfer : Except PayloadError TransactionOp :=
  if payload.length ≠ 49 then .error (.invalid "transfer payload must be exactly 49 bytes")
  else .ok (.transfer (u64At payload 1) (accountAt payload 9) (u64At payload 41))

def decodeCreateKey : Except PayloadError TaggedPubkey :=
  if payload.length = 65 then .ok (.ed25519 (slice payload 33 32))
  else if payload.length < 36 then .error (.invalid "create_account extended payload too short for alg+len")
  else
    let pkLen := leNat (slice payload 34 2)
    if payload.length ≠ 36 + pkLen then .error (.invalid "create_account extended payload length mismatch")
    else
      match SignatureAlgorithm.fromTag (payload.getD 33 0) with
      | none => .error (.invalid "create_account unknown alg_tag")
      | some algorithm => .ok ⟨algorithm, slice payload 36 pkLen⟩

def decodeCreateAccount : Except PayloadError TransactionOp :=
  if payload.length < 33 then .error (.invalid "create_account payload too short")
  else
    match decodeCreateKey payload with
    | .error error => .error error
    | .ok key =>
      if key.isZero then .error (.invalid "create_account auth_pubkey must be non-zero")
      else .ok (.createAccount (accountAt payload 1) key)

def wholeTaggedKey (operation : String) (bytes : List UInt8) : Except PayloadError TaggedPubkey :=
  match TaggedPubkey.fromWireBytes bytes with
  | .error text => .error (.invalid (operation ++ ": " ++ text))
  | .ok (key, consumed) =>
    if consumed ≠ bytes.length then .error (.invalid (operation ++ ": trailing bytes after pubkey"))
    else .ok key

/-- The legacy shapes without a nonce are told apart by their exact length. -/
def decodeSetAuthPubkey : Except PayloadError TransactionOp :=
  if payload.length = 33 then .ok (.setAuthPubkey 0 (.ed25519 (slice payload 1 32)))
  else if payload.length = 41 then .ok (.setAuthPubkey (u64At payload 1) (.ed25519 (slice payload 9 32)))
  else if payload.length = 1313 then .ok (.setAuthPubkey 0 (.mlDsa44 (payload.drop 1)))
  else if payload.length = 1321 then .ok (.setAuthPubkey (u64At payload 1) (.mlDsa44 (payload.drop 9)))
  else if 12 ≤ payload.length then
    match wholeTaggedKey "SetAuthPubkey" (payload.drop 9) with
    | .error error => .error error
    | .ok key => .ok (.setAuthPubkey (u64At payload 1) key)
  else .error (.invalid "SetAuthPubkey: invalid payload length")

/-- Nonce-bearing if the bytes from offset 9 are a whole tagged key, legacy otherwise. -/
def decodeAddAuthKey : Except PayloadError TransactionOp :=
  let legacy :=
    match wholeTaggedKey "AddAuthKey" (payload.drop 1) with
    | .error error => .error error
    | .ok key => .ok (.addAuthKey 0 key)
  if 12 ≤ payload.length then
    match TaggedPubkey.fromWireBytes (payload.drop 9) with
    | .ok (key, consumed) =>
      if consumed = payload.length - 9 then .ok (.addAuthKey (u64At payload 1) key) else legacy
    | .error _ => legacy
  else legacy

def decodeApproveValidator : Except PayloadError TransactionOp :=
  if payload.length < 73 then .error (.invalid "ApproveValidator payload too short")
  else
    let signingPubkey := payload.drop 41
    if signingPubkey.length ≠ 32 ∧ signingPubkey.length ≠ 1312 then
      .error (.invalid "ApproveValidator: signing_pubkey must be 32 or 1312 bytes")
    else .ok (.approveValidator (u64At payload 1) (accountAt payload 9) signingPubkey)

/-- `decodeOther` is the decoder of the operations `0x05` to `0x0B`. -/
def decode (decodeOther : List UInt8 → Except PayloadError Unit) (payload : List UInt8) :
    Except PayloadError TransactionOp :=
  match payload.head? with
  | none => .error .empty
  | some opcode =>
    if opcode = opTransfer then decodeTransfer payload
    else if opcode = opCreateAccount then decodeCreateAccount payload
    else if opcode = opSetAuthPubkey then decodeSetAuthPubkey payload
    else if opcode = opAddAuthKey then decodeAddAuthKey payload
    else if opcode = opApproveValidator then decodeApproveValidator payload
    else if 0x05 ≤ opcode ∧ opcode ≤ 0x0B then
      match decodeOther payload with
      | .error error => .error error
      | .ok () => .ok (.other opcode)
    else .error (.unknownOpcode opcode)

end TransactionOp

end AceChain.Runtime
