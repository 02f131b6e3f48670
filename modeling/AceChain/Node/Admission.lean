import AceChain.Node.Inbound
import AceChain.Node.Settlement

namespace AceChain.Node

open AceChain.Runtime Consensus Governance State ConsensusEngine

def Enters (before after : ChainNode) (candidate : AccountId) : Prop :=
  (candidate ∈ ids after.governance.approvedValidators ∧ candidate ∉ ids before.governance.approvedValidators) ∨
    (candidate ∈ ids after.engine.fullValidatorSet.validators ∧
      candidate ∉ ids before.engine.fullValidatorSet.validators)

namespace Rules

variable (r : Rules)

/-- The transaction approves the candidate in the founder's name. -/
def Names (founder : Option AccountId) (tx : Transaction) (candidate : AccountId) : Prop :=
  r.Approves tx candidate ∧ founder = some tx.sender

variable (node : ChainNode)

def verifyAt (slot : Nat) : Transaction → Option (Except TxError Unit) :=
  r.machine.preVerify node.engine.validatorSet node.state.defaultShard slot

variable {r} {node base : ChainNode} {block : Block} {governance : RuntimeGovernance}

theorem replayBlock_error (failed : r.replayBlock node block = .error governance) :
    governance.state = node.governance.state := by
  cases settled : r.syncSettlement node block with
  | none =>
    obtain ⟨rolledBack, result, same⟩ := replayBlock_of_unsettled settled
    rw [result] at failed
    cases failed
    exact same
  | some settlement =>
    obtain ⟨settledGovernance, state⟩ := settlement
    rw [replayBlock_of_settled settled] at failed
    dsimp only at failed
    split at failed
    · cases failed
      apply rollback_state
      have kept : Official (node.governance.snapshot block.header.slot) settledGovernance :=
        official_syncSettlement settled
      apply processBlockValidatorAdmissions_invariant
        (P := fun g _ => g.snapshots = (node.governance.snapshot block.header.slot).snapshots)
      · intro g fullSet sender v g' fullSet' admitted same
        rw [admitted.written]
        exact same
      · exact kept.snapshots
    · cases failed

theorem applyBlockRecord_rejected {record : BlockSyncRecord} (rejected : (r.applyBlockRecord node record).1 = false) :
    ∃ governance, (r.applyBlockRecord node record).2 = { node with governance := governance } ∧
      governance.state = node.governance.state := by
  unfold applyBlockRecord at rejected ⊢
  dsimp only at rejected ⊢
  split
  · exact ⟨node.governance, rfl, rfl⟩
  rename_i allowed
  split
  · exact ⟨node.governance, rfl, rfl⟩
  rename_i material
  rw [if_neg allowed, if_neg material] at rejected
  cases replayed : r.replayBlock node record.block with
  | error governance => exact ⟨governance, rfl, replayBlock_error replayed⟩
  | ok result =>
    rw [replayed] at rejected
    cases rejected

end Rules

namespace SmallChain

def candidate : AccountId := account 9

def approval (credential : List UInt8) : Transaction where
  payload := opApproveValidator :: List.replicate 8 0 ++ (List.replicate 31 0 ++ [9]) ++ List.replicate 32 9
  attestation :=
    { objHash := 77
      idcom := 1
      domain := ⟨1, 1⟩
      contextTag := 0
      credential := ⟨.ed25519, credential⟩ }
  rawChain := none
  zkAuth := none

def blockOf (tx : Transaction) : Block :=
  let node := freshNode none
  let executed := rules.executeBlock validatorSet node.store node.state node.governance [tx] 1
  blockWith 1 0 (computeRoot executed.2.2.1) [tx]

def signed : Block := blockOf (approval (List.replicate 32 1))

def forged : Block := blockOf (approval [])

end SmallChain

open SmallChain

end AceChain.Node
