import AceChain.Node.Admission

namespace AceChain.Node

open AceChain.Runtime Consensus Governance State

abbrev Outcome := Option (ShardedState × List RpcReceipt × RuntimeGovernance)

def Outcome.Agrees : Outcome → Outcome → Prop
  | none, none => True
  | some (state, receipts, governance), some (state', receipts', governance') =>
    state = state' ∧ receipts = receipts' ∧ governance.Same governance'
  | _, _ => False

namespace Rules

variable (r : Rules) (node : ChainNode)

/-- Evidence that convicts nobody: its verification fails in the state before the block, it is not evidence of its sender, or
it does not hold against a block of the store. -/
def Unconvicting (node : ChainNode) (slot : Nat) (tx : Transaction) : Prop :=
  (∃ error, r.verifyAt node slot tx = some (.error error)) ∨
    ∀ proof, r.machine.decodeOmissionProof tx.payload = .ok proof → tx.attestation.idcom ≠ r.machine.evidenceIdcom proof ∨
      ∀ state producer,
        r.machine.convictedProducer node.store r.headerHash state node.engine.validatorSet proof ≠ .ok producer

/-- The block convicts nobody, and the two validator sets earn the same in an epoch the block completes. -/
structure Undisturbed (node : ChainNode) (block : Block) : Prop where
  evidence : ∀ tx ∈ block.transactions, hasOpcode opMevAceOmissionEvidence tx = true →
    r.Unconvicting node block.header.slot tx
  profiles : blocksPerEpoch ≤ u64Add node.governance.state.epochTracker.blocksInEpoch 1 →
    let endMs := u64Add (node.governance.epochStartMs node.governance.state.epochTracker.currentEpoch) epochDurationMs
    let g := node.governance.state.rollEpochPerformance endMs
    g.rewardProfiles node.engine.validatorSet endMs = g.rewardProfiles node.engine.fullValidatorSet endMs

variable {r} {node : ChainNode} {block : Block}

theorem Undisturbed.governance (undisturbed : r.Undisturbed node block) :
    (r.syncExecution node block).2.2.2.state = node.governance.state := by
  unfold syncExecution executeBlock
  rw [Machine.executeTransactionsWithFees_quiet r.machine]
  · rfl
  intro tx member opcode accepted current g done executed
  obtain ⟨proof, producer, decoded, sender, convicted⟩ := Machine.executeOmissionEvidence_ok r.machine executed
  rcases undisturbed.evidence tx member opcode with ⟨error, refused⟩ | unconvicting
  · exact accepted error refused
  · rcases unconvicting proof decoded with other | nobody
    · exact other sender
    · exact nobody current producer convicted

end Rules

namespace SmallChain

def evidenceNode : ChainNode :=
  (rules.applyBlockRecord (freshNode none) ⟨{ emptyBlock 1 0 with mevAce := some [] }, none, none⟩).2

def evidence : Transaction where
  payload := opMevAceOmissionEvidence :: (List.replicate 23 0 ++ [1] ++ List.replicate 7 0 ++ [1]) ++ [1]
  attestation :=
    { objHash := 78
      idcom := headerHash (emptyBlock 1 0).header
      domain := ⟨1, 2⟩
      contextTag := 0
      credential := ⟨.ed25519, []⟩ }
  rawChain := none
  zkAuth := none

def secondBlock (txs : List Transaction) : Block :=
  let node := evidenceNode
  let executed := rules.executeBlock validatorSet node.store node.state node.governance txs 2
  blockWith 2 (headerHash (emptyBlock 1 0).header) (computeRoot executed.2.2.1) txs

def approvalRecord : BlockSyncRecord := ⟨secondBlock [approval (List.replicate 32 1)], none, none⟩

end SmallChain

open SmallChain

end AceChain.Node
