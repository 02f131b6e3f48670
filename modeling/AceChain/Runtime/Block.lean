import AceChain.Runtime.Transaction

namespace AceChain.Runtime

def maxTxsPerBlock : Nat := 80000

def maxBlockBytes : Nat := 32 * 1024 * 1024

def slotDurationMs : Nat := 400

structure BlockHeader where
  slot : Nat
  parentHash : Hash
  stateRoot : Hash
  txMerkleRoot : Hash
  attestMerkleRoot : Hash
  pohHash : Hash
  leaderIdcom : Hash
  timestamp : Nat
  txCount : Nat
  round : Nat
  mevAceMaterialHash : Hash
deriving DecidableEq

def BlockHeader.approxWireSize : Nat := 256

/-- The proposal material stands for its encoding: only the material check looks inside. -/
structure Block where
  header : BlockHeader
  transactions : List Transaction
  mevAce : Option (List UInt8)
deriving DecidableEq

def Block.wireSize (b : Block) : Nat :=
  BlockHeader.approxWireSize + (b.transactions.map Transaction.wireSize).sum +
    match b.mevAce with
    | some material => material.length
    | none => 0

inductive FinalityState where
  | pending
  | soft
  | backupWait
  | hard
  | rolledBack
deriving DecidableEq

namespace FinalityState

def isTerminal : FinalityState → Bool
  | hard => true
  | rolledBack => true
  | _ => false

def isConfirmed : FinalityState → Bool
  | soft => true
  | backupWait => true
  | hard => true
  | _ => false

/-- How far along the transitions `Pending → Soft → BackupWait → Hard` a state is. -/
def rank : FinalityState → Nat
  | pending => 0
  | rolledBack => 0
  | soft => 1
  | backupWait => 2
  | hard => 3

theorem isConfirmed_iff_rank (state : FinalityState) : state.isConfirmed = true ↔ 0 < state.rank := by
  cases state <;> decide

end FinalityState

structure FinalityCertificate where
  blockHash : Hash
  slot : Nat
  proof : List UInt8
  idComCommitment : Hash
  statementRoot : Hash
  txCount : Nat
deriving DecidableEq

structure BlockSyncRecord where
  block : Block
  finalityState : Option FinalityState
  finalityCert : Option FinalityCertificate
deriving DecidableEq

end AceChain.Runtime
