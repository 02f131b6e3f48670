import AceChain.Hfi.Intent
import AceChain.State.StateTree

namespace AceChain.Hfi

open AceChain.Runtime State

/-- The fixed part of a stored recipient; the key and the signature after it are kept for audits only. -/
structure DecodedRecipient where
  xid : Hash
  accountId : AccountId
  identityCommitment : Hash
  claimBindingHandle : Hash
  bindingEpoch : Nat
deriving DecidableEq

def encodeRecipientRecord (r : DecodedRecipient) (pubkeyWire signatureWire : List UInt8) : List UInt8 :=
  hashBytes r.xid ++ (hashBytes r.accountId.bytes ++ (hashBytes r.identityCommitment ++
    (hashBytes r.claimBindingHandle ++ (leBytes 8 r.bindingEpoch ++ (leBytes 2 pubkeyWire.length ++ (pubkeyWire ++
      (leBytes 2 signatureWire.length ++ signatureWire)))))))

def decodeRecipientRecord (bytes : List UInt8) : Except String DecodedRecipient :=
  if bytes.length < 136 then
    .error ("registered recipient record too short: " ++ toString bytes.length ++ " < 136 bytes")
  else
    let (xid, bytes) := readHash bytes
    let (accountId, bytes) := readHash bytes
    let (identityCommitment, bytes) := readHash bytes
    let (claimBindingHandle, bytes) := readHash bytes
    let (bindingEpoch, _) := readU64 bytes
    .ok ⟨xid, ⟨accountId⟩, identityCommitment, claimBindingHandle, bindingEpoch⟩

theorem decode_encodeRecipientRecord {r : DecodedRecipient} (small : r.bindingEpoch < 2 ^ 64)
    (pubkeyWire signatureWire : List UInt8) :
    decodeRecipientRecord (encodeRecipientRecord r pubkeyWire signatureWire) = .ok r := by
  have long : ¬ (encodeRecipientRecord r pubkeyWire signatureWire).length < 136 := by
    simp only [encodeRecipientRecord, List.length_append, length_hashBytes, length_leBytes]
    omega
  unfold decodeRecipientRecord
  rw [if_neg long]
  unfold encodeRecipientRecord
  simp only [readHash_append, readU64_append _ small]

end AceChain.Hfi

namespace AceChain.State.StateTree

open AceChain.Runtime Hfi

variable (t : StateTree)

def hfiIntent (intentId : Hash) : Option (List UInt8) := t.hfiIntents[intentId]?

def hfiIntentPut (intentId : Hash) (bytes : List UInt8) : StateTree :=
  { t with hfiIntents := t.hfiIntents.insert intentId bytes }

def hfiRecipientByIdcom (idcom : Hash) : Option (List UInt8) :=
  t.hfiIdcomIndex[idcom]?.bind (fun idHash => t.hfiRecipients[idHash]?)

def recordIdcom (bytes : List UInt8) : Option Hash := if 96 ≤ bytes.length then some (hashAt bytes 64) else none

/-- The old commitment of the record loses its index entry, whoever the entry names. -/
def hfiRecipientPut (idHash identityCommitment : Hash) (bytes : List UInt8) : StateTree :=
  let index :=
    match t.hfiRecipients[idHash]?.bind recordIdcom with
    | some previous => if previous ≠ identityCommitment then t.hfiIdcomIndex.erase previous else t.hfiIdcomIndex
    | none => t.hfiIdcomIndex
  { t with
    hfiRecipients := t.hfiRecipients.insert idHash bytes
    hfiIdcomIndex := index.insert identityCommitment idHash }

end AceChain.State.StateTree
