import AceChain.Basic

namespace AceChain.Runtime

inductive CommitteeDomain where
  | btcPayments
  | solanaLight
deriving DecidableEq

inductive RawChainKind where
  | evm
  | solana
  | btc
  | tron
deriving DecidableEq

def RawChainKind.committeeDomain : RawChainKind → Option CommitteeDomain
  | evm => none
  | solana => some .solanaLight
  | btc => some .btcPayments
  | tron => none

/-- A committee certificate stands for its wire bytes: only the certificate verifier looks inside. -/
structure RawChainPayload where
  kind : RawChainKind
  rawBytes : List UInt8
  committeeCertificate : Option (List UInt8)
deriving DecidableEq

structure ZkAuth where
  proof : List UInt8
  target : Hash
  rpCom : Hash
  nonce : Nat
deriving DecidableEq

structure Domain where
  chainId : Nat
  slot : Nat
deriving DecidableEq

structure Attestation where
  objHash : Hash
  idcom : Hash
  domain : Domain
  contextTag : BitVec 128
  credential : TaggedSignature
deriving DecidableEq

namespace Attestation

def fixedSize : Nat := 32 + 32 + 8 + 16

def wireSize (a : Attestation) : Nat := fixedSize + 3 + a.credential.bytes.length

end Attestation

structure Transaction where
  payload : List UInt8
  attestation : Attestation
  rawChain : Option RawChainPayload
  zkAuth : Option ZkAuth
deriving DecidableEq

namespace Transaction

variable (tx : Transaction)

def isZkAuth : Bool := tx.zkAuth.isSome

def sender : AccountId := ⟨tx.attestation.idcom⟩

def wireSize : Nat :=
  let base := tx.payload.length + tx.attestation.wireSize
  match tx.rawChain with
  | some raw =>
    let certSize :=
      match raw.committeeCertificate with
      | some cert => 4 + cert.length
      | none => 0
    base + 1 + 4 + raw.rawBytes.length + 1 + certSize
  | none =>
    match tx.zkAuth with
    | some zk => base + 1 + 4 + zk.proof.length + 32 + 32 + 8
    | none => base

end Transaction

end AceChain.Runtime
