import AceChain.Runtime.Transaction

namespace AceChain

/-- Material of more than `u16::MAX` bytes panics; none that is well formed is that long. -/
def TaggedSignature.toWireBytes (s : TaggedSignature) : List UInt8 := s.algorithm.tag :: leBytes 2 s.bytes.length ++ s.bytes

namespace Runtime

def RawChainKind.tag : RawChainKind → UInt8
  | evm => 1
  | solana => 2
  | btc => 3
  | tron => 4

def Domain.toBytes (d : Domain) : List UInt8 := leBytes 4 d.chainId ++ leBytes 4 d.slot

def Attestation.toBytes (a : Attestation) : List UInt8 :=
  hashBytes a.objHash ++ hashBytes a.idcom ++ a.domain.toBytes ++ (leBytes 16 a.contextTag.toNat).reverse ++
    a.credential.toWireBytes

def RawChainPayload.certificateBytes (raw : RawChainPayload) : List UInt8 :=
  match raw.committeeCertificate with
  | some cert => 1 :: leBytes 4 cert.length ++ cert
  | none => [0]

namespace Transaction

def encodeBytes (tx : Transaction) (includeCommitteeCertificate : Bool) : List UInt8 :=
  leBytes 4 tx.payload.length ++ tx.payload ++ tx.attestation.toBytes ++
    match tx.rawChain with
    | some raw =>
      raw.kind.tag :: leBytes 4 raw.rawBytes.length ++ raw.rawBytes ++
        if includeCommitteeCertificate then raw.certificateBytes else []
    | none =>
      match tx.zkAuth with
      | some zk =>
        0xFF :: leBytes 4 zk.proof.length ++ zk.proof ++ hashBytes zk.target ++ hashBytes zk.rpCom ++ leBytes 8 zk.nonce
      | none => []

def toBytes (tx : Transaction) : List UInt8 := tx.encodeBytes true

end Transaction

end Runtime

end AceChain
