import AceChain.Node.Admission
import AceChain.State.Snapshots

namespace AceChain.Node

open AceChain.Runtime Consensus Governance State ShardedState

namespace Rules

variable (r : Rules) {Pool : Type} (remove : Pool → Transaction → Pool)

section

variable (abandoned : RuntimeGovernance → ShardedState → GovernanceState × ShardedState)

/-- `apply_block_record` as it works on the node in place. `abandoned` is what a settlement that fails has written by
then, which may be anything. -/
def applyBlockRecordInPlace (node : ChainNode) (pool : Pool) (record : BlockSyncRecord) : Bool × ChainNode × Pool :=
  let block := record.block
  let slot := block.header.slot
  let time := r.slotTimeMs slot
  if !r.checkpointAllows slot (r.blockHash block) block.header.stateRoot then (false, node, pool)
  else if !r.satisfiesFullMaterial block node.engine.validatorSet node.state then (false, node, pool)
  else
    let snapshot := node.state.snapshot
    let undo (state : ShardedState) (governance : RuntimeGovernance) : Bool × ChainNode × Pool :=
      (false, { node with state := state.rollback snapshot, governance := governance.rollback slot }, pool)
    let (receipts, charged, state, governance) := r.executeBlock node.engine.validatorSet node.store node.state
      (node.governance.snapshot slot) block.transactions slot
    match governance.applyCompletedBlock r.machine.derive state node.engine.validatorSet charged time with
    | .error _ =>
      let left := abandoned governance state
      undo left.2 { governance with state := left.1 }
    | .ok (governance, state) =>
      if r.computeRoot state ≠ block.header.stateRoot then undo state governance
      else
        let (failures, governance, _) := r.processBlockValidatorAdmissions time
          (governance, node.engine.fullValidatorSet) block.transactions
        match node.engine.rebuildFullValidatorSet governance.approvedValidators with
        | .error _ => undo state governance
        | .ok engine =>
          let engine := (r.syncEffectiveValidatorSet engine governance time).storeSnapshot slot node.state
          (true,
            { engine := { engine with lastBlockHash := r.blockHash block }.advanceToSyncedBlock slot
              state := state
              store := r.storeRecord node.store record
              governance := governance
              receipts := Function.update node.receipts slot (r.rpcReceipts block receipts failures) },
            block.transactions.foldl remove pool)

variable (node : ChainNode) (pool : Pool) (record : BlockSyncRecord)

theorem applyBlockRecordInPlace_cases :
    (∃ state governance, r.applyBlockRecordInPlace remove abandoned node pool record =
        (false, { node with state := state, governance := governance }, pool) ∧
      r.applyBlockRecord node record = (false, { node with governance := governance }) ∧ state.Same node.state) ∨
    ∃ after, r.applyBlockRecordInPlace remove abandoned node pool record =
        (true, after, record.block.transactions.foldl remove pool) ∧ r.applyBlockRecord node record = (true, after) := by
  have official := (official_syncExecution r node record.block).snapshots
  unfold applyBlockRecordInPlace applyBlockRecord replayBlock
  unfold syncExecution at official
  dsimp only
  by_cases allowed : (!r.checkpointAllows record.block.header.slot (r.blockHash record.block)
    record.block.header.stateRoot) = true
  · rw [if_pos allowed, if_pos allowed]
    exact Or.inl ⟨node.state, node.governance, rfl, rfl, .refl _⟩
  rw [if_neg allowed, if_neg allowed]
  by_cases material : (!r.satisfiesFullMaterial record.block node.engine.validatorSet node.state) = true
  · rw [if_pos material, if_pos material]
    exact Or.inl ⟨node.state, node.governance, rfl, rfl, .refl _⟩
  rw [if_neg material, if_neg material]
  generalize r.executeBlock _ _ _ _ _ _ = executed at official ⊢
  obtain ⟨receipts, charged, state, governance⟩ := executed
  cases settled : governance.applyCompletedBlock r.machine.derive state node.engine.validatorSet charged
      (r.slotTimeMs record.block.header.slot) with
  | error error =>
    refine Or.inl ⟨_, _, rfl, ?_, same_rollback_snapshot _ _⟩
    -- the state that governance is left with does not matter, since it is taken from the snapshot
    have stored : governance.snapshots[record.block.header.slot]? = some node.governance.state := by
      rw [official]
      exact Std.TreeMap.getElem?_insert_self
    unfold RuntimeGovernance.rollback
    simp only [stored, Option.getD_some]
  | ok settlement =>
    obtain ⟨governance', state'⟩ := settlement
    dsimp only
    by_cases root : r.computeRoot state' ≠ record.block.header.stateRoot
    · rw [if_pos root, if_pos root]
      exact Or.inl ⟨_, _, rfl, rfl, same_rollback_snapshot _ _⟩
    · rw [if_neg root, if_neg root]
      generalize r.processBlockValidatorAdmissions _ _ _ = pass
      cases rebuilt : node.engine.rebuildFullValidatorSet pass.2.1.approvedValidators with
      | error error => exact Or.inl ⟨_, _, rfl, rfl, same_rollback_snapshot _ _⟩
      | ok engine => exact Or.inr ⟨_, rfl, rfl⟩

/-- A block that is rejected, at whichever point, leaves the state, the governance state, the engine with its validator
sets, the store, the receipts and the mempool as they were. -/
theorem rejected_block_leaves_no_trace
    (rejected : (r.applyBlockRecordInPlace remove abandoned node pool record).1 = false) :
    let out := (r.applyBlockRecordInPlace remove abandoned node pool record).2
    out.1.state.Same node.state ∧ out.1.governance.state = node.governance.state ∧ out.1.engine = node.engine ∧
      out.1.store = node.store ∧ out.1.receipts = node.receipts ∧ out.2 = pool := by
  rcases applyBlockRecordInPlace_cases r remove abandoned node pool record with
    ⟨state, governance, done, computed, same⟩ | ⟨after, done, -⟩
  · have refused : (r.applyBlockRecord node record).1 = false := by rw [computed]
    obtain ⟨restored, left, sameState⟩ := applyBlockRecord_rejected refused
    rw [computed] at left
    obtain rfl : governance = restored := congrArg ChainNode.governance left
    rw [done]
    exact ⟨same, sameState, rfl, rfl, rfl, rfl⟩
  · rw [done] at rejected
    cases rejected

end

end Rules

namespace SmallChain

def followed : ChainNode := (rules.applyBlockRecord (freshNode none) ⟨emptyBlock 1 0, some .soft, none⟩).2

def removeTx (pool : List Transaction) (tx : Transaction) : List Transaction :=
  pool.filter (fun other => other.attestation.objHash ≠ tx.attestation.objHash)

/-- The block of slot 2 has a transaction of the pool, and promises a state root that its execution does not give. -/
def falseBlock : BlockSyncRecord :=
  ⟨blockWith 2 (headerHash (emptyBlock 1 0).header) 0 [approval (List.replicate 32 1)], none, none⟩

def rejection : Bool × ChainNode × List Transaction :=
  rules.applyBlockRecordInPlace removeTx (fun g s => (g.state, s)) followed [approval (List.replicate 32 1)] falseBlock

theorem falseBlock_leaves_no_trace : followed.store.latestSlot = 1 ∧ rejection.1 = false ∧
    rejection.2.1.state.Same followed.state ∧ rejection.2.1.governance.state = followed.governance.state ∧
    rejection.2.2 = [approval (List.replicate 32 1)] := by
  have rejected : rejection.1 = false := by decide +kernel
  obtain ⟨state, governance, -, -, -, pool⟩ := Rules.rejected_block_leaves_no_trace rules removeTx (fun g s => (g.state, s))
    followed [approval (List.replicate 32 1)] falseBlock rejected
  exact ⟨by decide +kernel, rejected, state, governance, pool⟩

end SmallChain

end AceChain.Node
