import AceChain.Node.Chain

namespace AceChain.Node

open AceChain.Runtime Consensus Governance State

structure PreparedBlockExecution where
  height : Nat
  postTxState : ShardedState
  receipts : List VmReceipt
  chargedTxCount : Nat

structure FinalizedCommit where
  block : Block
  snapshot : ShardedState
  postCommitState : ShardedState
  governance : RuntimeGovernance
  rpcReceipts : List RpcReceipt

inductive CommitError where
  | heightMismatch (prepared committed : Nat)
  | receiptCount (prepared txs : Nat)
  | governance (error : GovernanceError)
  | stateRootMismatch
deriving DecidableEq

namespace Rules

variable (r : Rules)

/-- The execution of a block on a copy of the state. The governance it is given is a preview and is dropped with
what the execution wrote to it. -/
def prepareBlockExecution (validatorSet : ValidatorSet) (height : Nat) (baseState : ShardedState) (store : BlockStore)
    (txs : List Transaction) (governance : RuntimeGovernance) : PreparedBlockExecution × RuntimeGovernance :=
  let (receipts, charged, state, governance) := r.executeBlock validatorSet store baseState governance txs height
  (⟨height, state, receipts, charged⟩, governance)

variable (node : ChainNode)

def prepareCommit (height : Nat) (txs : List Transaction) : PreparedBlockExecution :=
  (r.prepareBlockExecution node.engine.validatorSet height node.state node.store txs
    node.governance.cloneForPreview).1

variable (prepared : PreparedBlockExecution)

def finalizeCommit (block : Block) (snapshot : ShardedState)
    (validatorSet : ValidatorSet) (governance : RuntimeGovernance) : Except CommitError FinalizedCommit :=
  let slot := block.header.slot
  let time := r.slotTimeMs slot
  if prepared.height ≠ slot then .error (.heightMismatch prepared.height slot)
  else if prepared.receipts.length ≠ block.transactions.length then
    .error (.receiptCount prepared.receipts.length block.transactions.length)
  else
    match governance.applyCompletedBlock r.machine.derive prepared.postTxState validatorSet prepared.chargedTxCount
        time with
    | .error error => .error (.governance error)
    | .ok (governance, state) =>
      if r.computeRoot state ≠ block.header.stateRoot then .error .stateRootMismatch
      else
        let (failures, governance, _) :=
          r.processBlockValidatorAdmissions time (governance, validatorSet) block.transactions
        .ok ⟨block, snapshot, state, governance, r.rpcReceipts block prepared.receipts failures⟩

/-- `maybe_start_pending_commit_application`: the task gets the current state as its snapshot, the full validator
set and a fresh preview of the governance. -/
def startCommit (block : Block) :
    Except CommitError FinalizedCommit :=
  r.finalizeCommit prepared block node.state node.engine.fullValidatorSet node.governance.cloneForPreview

/-- The `CommitFinalized` event for the pending block. When the validator set cannot be rebuilt, the state and the
governance are the new ones already, but the block is not stored. -/
def commitFinalized (finalized : FinalizedCommit) : Bool × ChainNode :=
  let block := finalized.block
  let slot := block.header.slot
  let governance := node.governance.replaceFromPreview finalized.governance
  match node.engine.rebuildFullValidatorSet governance.approvedValidators with
  | .error _ => (false, { node with state := finalized.postCommitState, governance := governance })
  | .ok engine =>
    let engine := (r.syncEffectiveValidatorSet engine governance (r.slotTimeMs slot)).storeSnapshot slot
      finalized.snapshot
    (true,
      { engine := { engine with lastBlockHash := r.blockHash block }
        state := finalized.postCommitState
        store := r.storeRecord node.store ⟨block, some .soft, none⟩
        governance := governance
        receipts := Function.update node.receipts slot finalized.rpcReceipts })

end Rules

end AceChain.Node
