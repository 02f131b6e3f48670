import AceChain.Node.AdmissionPass

namespace AceChain.Node

open AceChain.Runtime Consensus Governance State ConsensusEngine RuntimeGovernance

def ChainNode.Coherent (node : ChainNode) : Prop :=
  addAll node.engine.genesisValidatorSet node.governance.approvedValidators =
    .ok node.engine.fullValidatorSet

namespace Rules

variable (r : Rules)

def acceptedSettlement (governance : RuntimeGovernance) (state : ShardedState) (validatorSet : ValidatorSet)
    (charged time : Nat) (stateRoot : Hash) : Option (RuntimeGovernance × ShardedState) :=
  match governance.applyCompletedBlock r.machine.derive state validatorSet charged time with
  | .error _ => none
  | .ok (governance, state) => if r.computeRoot state ≠ stateRoot then none else some (governance, state)

variable (node : ChainNode) (block : Block)

def syncExecution : List VmReceipt × Nat × ShardedState × RuntimeGovernance :=
  r.executeBlock node.engine.validatorSet node.store node.state (node.governance.snapshot block.header.slot)
    block.transactions block.header.slot

def syncSettlement : Option (RuntimeGovernance × ShardedState) :=
  let (_, charged, state, governance) := r.syncExecution node block
  r.acceptedSettlement governance state node.engine.validatorSet charged (r.slotTimeMs block.header.slot)
    block.header.stateRoot

def admissionPass (governance : RuntimeGovernance) :
    List (Option (PayloadError ⊕ AdmissionError)) × RuntimeGovernance × ValidatorSet :=
  r.processBlockValidatorAdmissions (r.slotTimeMs block.header.slot) (governance, node.engine.fullValidatorSet)
    block.transactions

variable {r} {node : ChainNode} {block : Block} {governance : RuntimeGovernance} {state : ShardedState}

theorem acceptedSettlement_keeps {governance' : RuntimeGovernance} {state' : ShardedState}
    {validatorSet : ValidatorSet} {charged time : Nat} {stateRoot : Hash}
    (settled : r.acceptedSettlement governance state validatorSet charged time stateRoot = some (governance', state')) :
    governance' = { governance with state := governance'.state } ∧
      governance'.approvedValidators = governance.approvedValidators ∧ r.computeRoot state' = stateRoot := by
  unfold acceptedSettlement at settled
  split at settled <;> rename_i applied
  · cases settled
  split at settled <;> rename_i root
  · cases settled
  rw [Decidable.not_not] at root
  cases settled
  obtain ⟨kept, approved⟩ := applyCompletedBlock_keeps applied
  exact ⟨kept, approved, root⟩

theorem syncExecution_governance {P : RuntimeGovernance → Prop} (kept : KeptByPenalties P)
    (holds : P (node.governance.snapshot block.header.slot)) : P (r.syncExecution node block).2.2.2 := by
  exact Machine.executeTransactionsWithFees_governance r.machine kept holds

/-- Execution and settlement leave the approved validators, the founder and the snapshots alone. -/
structure Official (before after : RuntimeGovernance) : Prop where
  approved : after.approvedValidators = before.approvedValidators
  founder : after.founderIdCom = before.founderIdCom
  policy : after.validatorAdmissionPolicy = before.validatorAdmissionPolicy
  misses : after.leaderMissCounts = before.leaderMissCounts
  genesisTime : after.genesisTimeMs = before.genesisTimeMs
  snapshots : after.snapshots = before.snapshots

theorem official_keptByPenalties (before : RuntimeGovernance) : KeptByPenalties (Official before) where
  suspend _ _ official :=
    ⟨official.approved, official.founder, official.policy, official.misses, official.genesisTime, official.snapshots⟩
  failure _ _ official :=
    ⟨official.approved, official.founder, official.policy, official.misses, official.genesisTime, official.snapshots⟩

theorem Official.settled {before governance' : RuntimeGovernance} (official : Official before governance)
    {state' : ShardedState} {validatorSet : ValidatorSet} {charged time : Nat} {stateRoot : Hash}
    (settled : r.acceptedSettlement governance state validatorSet charged time stateRoot = some (governance', state')) :
    Official before governance' := by
  obtain ⟨kept, approved, _⟩ := acceptedSettlement_keeps settled
  rw [kept]
  exact ⟨approved.trans official.approved, official.founder, official.policy, official.misses, official.genesisTime,
    official.snapshots⟩

theorem official_syncExecution (r : Rules) (node : ChainNode) (block : Block) :
    Official (node.governance.snapshot block.header.slot) (r.syncExecution node block).2.2.2 :=
  syncExecution_governance (official_keptByPenalties _) ⟨rfl, rfl, rfl, rfl, rfl, rfl⟩

theorem official_syncSettlement
    (settled : r.syncSettlement node block = some (governance, state)) :
    Official (node.governance.snapshot block.header.slot) governance :=
  (official_syncExecution r node block).settled settled

theorem rollback_state {slot : Nat}
    (snapshots : governance.snapshots = (node.governance.snapshot slot).snapshots) :
    (governance.rollback slot).state = node.governance.state := by
  unfold rollback
  rw [snapshots]
  simp [snapshot]

theorem replayBlock_of_unsettled (unsettled : r.syncSettlement node block = none) :
    ∃ governance, r.replayBlock node block = .error governance ∧ governance.state = node.governance.state := by
  have official := official_syncExecution r node block
  unfold syncSettlement acceptedSettlement at unsettled
  unfold replayBlock
  unfold syncExecution at official unsettled
  dsimp only at unsettled official ⊢
  split <;> rename_i applied
  · exact ⟨_, rfl, rollback_state official.snapshots⟩
  · rw [applied] at unsettled
    dsimp only at unsettled
    split at unsettled <;> rename_i root
    · rw [if_pos root]
      refine ⟨_, rfl, rollback_state ?_⟩
      rw [(applyCompletedBlock_keeps applied).1]
      exact official.snapshots
    · cases unsettled

theorem replayBlock_of_settled
    (settled : r.syncSettlement node block = some (governance, state)) :
    r.replayBlock node block =
      let pass := r.admissionPass node block governance
      match node.engine.rebuildFullValidatorSet pass.2.1.approvedValidators with
      | .error _ => .error (pass.2.1.rollback block.header.slot)
      | .ok engine =>
        .ok (pass.2.1, r.syncEffectiveValidatorSet engine pass.2.1 (r.slotTimeMs block.header.slot), state,
          r.rpcReceipts block (r.syncExecution node block).1 pass.1) := by
  unfold syncSettlement acceptedSettlement at settled
  unfold replayBlock admissionPass
  unfold syncExecution at settled ⊢
  dsimp only at settled ⊢
  generalize applyCompletedBlock _ _ _ _ _ _ = applied at settled ⊢
  cases applied with
  | error error => cases settled
  | ok pair =>
    dsimp only at settled ⊢
    by_cases root : r.computeRoot pair.2 ≠ block.header.stateRoot
    · rw [if_pos root] at settled
      cases settled
    · rw [if_neg root] at settled ⊢
      cases settled
      rfl

end Rules

end AceChain.Node
