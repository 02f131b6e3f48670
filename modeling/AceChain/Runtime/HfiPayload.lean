import AceChain.Runtime.Payload

namespace AceChain.Runtime

def opRegisterAddresses : UInt8 := 0x05

def opHfiPayClaim : UInt8 := 0x06

def opHfiPayCreate : UInt8 := 0x07

def opHfiPayFund : UInt8 := 0x08

def opHfiPayExpire : UInt8 := 0x09

def opHfiPayRefund : UInt8 := 0x0A

def opHfiPayRegisterRecipient : UInt8 := 0x0B

def hashAt (payload : List UInt8) (start : Nat) : Hash := beHash (slice payload start 32)

def u16At (payload : List UInt8) (start : Nat) : Nat := leNat (slice payload start 2)

/-- The fields of `HfiPayCreate`; all-zero mints, refund accounts and commitments stand for none. -/
structure HfiCreate where
  nonce : Nat
  intentId : Hash
  blindedBinding : Hash
  amount : Nat
  chainId : UInt8
  mint : Hash
  depositAddress : Hash
  bindingEpoch : Nat
  expirySlot : Nat
  refundDest : Hash
  refundAuthorizer : Hash
  identityCommitment : Hash
deriving DecidableEq

structure HfiRegistration where
  nonce : Nat
  xid : Hash
  identifier : List UInt8
  identityCommitment : Hash
  claimBindingHandle : Hash
  bindingEpoch : Nat
  chainTag : UInt8
  validUntilSlot : Nat
  pubkey : List UInt8
  signature : List UInt8
deriving DecidableEq

inductive HfiOp where
  | claim (intentId : Hash) (destination : List UInt8) (destinationAuth : Option TaggedPubkey) (authCommitment : Hash)
  | create (fields : HfiCreate)
  | fund (nonce : Nat) (intentId depositEvidence : Hash) (depositAmount : Nat)
  | expire (intentId : Hash)
  | refund (nonce : Nat) (intentId : Hash) (refundAuth : Option (List UInt8 × List UInt8))
  | registerRecipient (fields : HfiRegistration)
deriving DecidableEq

namespace HfiOp

variable (payload : List UInt8)

def decodeCreate : Except PayloadError HfiOp :=
  if payload.length ≠ 258 then .error (.invalid "HfiPayCreate payload must be 258 bytes")
  else
    .ok (.create
      { nonce := u64At payload 1
        intentId := hashAt payload 9
        blindedBinding := hashAt payload 41
        amount := u64At payload 73
        chainId := payload.getD 81 0
        mint := hashAt payload 82
        depositAddress := hashAt payload 114
        bindingEpoch := u64At payload 146
        expirySlot := u64At payload 154
        refundDest := hashAt payload 162
        refundAuthorizer := hashAt payload 194
        identityCommitment := hashAt payload 226 })

def decodeFund : Except PayloadError HfiOp :=
  if payload.length ≠ 81 then .error (.invalid "HfiPayFund payload must be 81 bytes")
  else .ok (.fund (u64At payload 1) (hashAt payload 9) (hashAt payload 41) (u64At payload 73))

def decodeExpire : Except PayloadError HfiOp :=
  if payload.length ≠ 33 then .error (.invalid "HfiPayExpire payload must be 33 bytes")
  else .ok (.expire (hashAt payload 1))

/-- Forty-one bytes are the short form; a longer payload carries a key and a signature and nothing after them. -/
def decodeRefund : Except PayloadError HfiOp :=
  if payload.length < 41 then .error (.invalid "HfiPayRefund payload must be at least 41 bytes")
  else if payload.length = 41 then .ok (.refund (u64At payload 1) (hashAt payload 9) none)
  else if payload.getD 41 0 ≠ 1 then .error (.invalid "HfiPayRefund extended: auth_present must be 0x01")
  else if payload.length < 44 then .error (.invalid "HfiPayRefund extended: truncated")
  else
    let pkLen := u16At payload 42
    if payload.length < 44 + pkLen + 2 then .error (.invalid "HfiPayRefund extended: pubkey truncated")
    else
      let sigOffset := 44 + pkLen
      let total := sigOffset + 2 + u16At payload sigOffset
      if payload.length < total then .error (.invalid "HfiPayRefund extended: sig truncated")
      else if payload.length ≠ total then .error (.invalid "HfiPayRefund extended: trailing bytes after sig")
      else
        .ok (.refund (u64At payload 1) (hashAt payload 9)
          (some (slice payload 44 pkLen, slice payload (sigOffset + 2) (u16At payload sigOffset))))

def maxIdLen : Nat := 256

def decodeRegisterRecipient : Except PayloadError HfiOp :=
  if payload.length < 128 then .error (.invalid "HfiPayRegisterRecipient payload must be at least 128 bytes")
  else
    let idLen := u16At payload 41
    if maxIdLen < idLen then
      .error (.invalid ("HfiPayRegisterRecipient: identifier length " ++ toString idLen ++ " exceeds max " ++
        toString maxIdLen))
    else
      let p := 43 + idLen
      if payload.length < p + 85 then .error (.invalid "HfiPayRegisterRecipient: identifier truncated")
      else
        let pkLen := u16At payload (p + 81)
        let q := p + 83
        if payload.length < q + pkLen + 2 then .error (.invalid "HfiPayRegisterRecipient: pubkey truncated")
        else
          let sigLen := u16At payload (q + pkLen)
          if payload.length ≠ q + pkLen + 2 + sigLen then
            .error (.invalid "HfiPayRegisterRecipient: trailing or truncated signature")
          else
            .ok (.registerRecipient
              { nonce := u64At payload 1
                xid := hashAt payload 9
                identifier := slice payload 43 idLen
                identityCommitment := hashAt payload p
                claimBindingHandle := hashAt payload (p + 32)
                bindingEpoch := u64At payload (p + 64)
                chainTag := payload.getD (p + 72) 0
                validUntilSlot := u64At payload (p + 73)
                pubkey := slice payload q pkLen
                signature := slice payload (q + pkLen + 2) sigLen })

def decodeDestinationAuth (p : Nat) : Except PayloadError (Option TaggedPubkey × Nat) :=
  let hasAuth := payload.getD p 0
  if hasAuth = 0 then .ok (none, p + 1)
  else if hasAuth ≠ 1 then .error (.invalid "HFI claim: has_auth must be 0 or 1")
  else if payload.length < p + 3 then .error (.invalid "HFI claim: truncated dest auth length")
  else
    let authLen := u16At payload (p + 1)
    if payload.length < p + 3 + authLen + 32 then .error (.invalid "HFI claim: truncated dest auth pubkey")
    else
      match TaggedPubkey.fromWireBytes (slice payload (p + 3) authLen) with
      | .error text => .error (.invalid ("HFI claim dest auth: " ++ text))
      | .ok (key, consumed) =>
        if consumed ≠ authLen then .error (.invalid "HFI claim: dest auth wire format mismatch")
        else .ok (some key, p + 3 + authLen)

def decodeClaim : Except PayloadError HfiOp :=
  if payload.length < 67 then .error (.invalid "HFI claim payload too short")
  else
    let destLen := (payload.getD 33 0).toNat
    if 32 < destLen ∨ payload.length < 34 + destLen + 33 then
      .error (.invalid "HFI claim: invalid dest_len or truncated payload")
    else
      match decodeDestinationAuth payload (34 + destLen) with
      | .error error => .error error
      | .ok (destinationAuth, p) =>
        if p + 32 ≠ payload.length then
          .error (.invalid ("HFI claim: expected 32-byte auth_commitment at end, remaining " ++
            toString (payload.length - p)))
        else .ok (.claim (hashAt payload 1) (slice payload 34 destLen) destinationAuth (hashAt payload p))

def decode : Except PayloadError HfiOp :=
  match payload.head? with
  | none => .error .empty
  | some opcode =>
    if opcode = opHfiPayClaim then decodeClaim payload
    else if opcode = opHfiPayCreate then decodeCreate payload
    else if opcode = opHfiPayFund then decodeFund payload
    else if opcode = opHfiPayExpire then decodeExpire payload
    else if opcode = opHfiPayRefund then decodeRefund payload
    else if opcode = opHfiPayRegisterRecipient then decodeRegisterRecipient payload
    else .error (.unknownOpcode opcode)

end HfiOp

end AceChain.Runtime
