import AceChain.Node.Execution

namespace AceChain.Node

open AceChain.Runtime Consensus Engine Governance State RuntimeGovernance

structure KeptByPenalties (P : RuntimeGovernance → Prop) : Prop where
  suspend : ∀ g id, P g → P (g.suspend id)
  failure : ∀ g id, P g → P (g.noteValidatorFailure id)

theorem KeptByPenalties.slash {P : RuntimeGovernance → Prop} (kept : KeptByPenalties P) {σ : Type}
    (ops : LedgerOps σ) (penaltyOf : Nat → Nat) {g : RuntimeGovernance} (id : AccountId) (state : σ) (holds : P g) :
    P (g.slash ops penaltyOf id state).2.1 := by
  unfold RuntimeGovernance.slash
  split
  · exact kept.suspend g id holds
  dsimp only
  split
  · exact kept.suspend g id holds
  split
  · exact holds
  split
  · exact holds
  · exact kept.failure _ id (kept.suspend g id holds)

namespace Progress

structure SameLedger (p q : Progress) : Prop where
  state : p.state = q.state
  receipts : p.receipts = q.receipts
  chargedTxCount : p.chargedTxCount = q.chargedTxCount

theorem SameLedger.record {p q : Progress} (same : p.SameLedger q) (index : Nat) (receipt : VmReceipt) :
    (p.record index receipt).SameLedger (q.record index receipt) where
  state := same.state
  receipts := by
    unfold Progress.record
    rw [same.receipts]
  chargedTxCount := same.chargedTxCount

end Progress

open Progress

namespace Machine

variable (m : Machine) (hashOf : BlockHeader → Hash) (store : BlockStore) (activeSet : ValidatorSet) (blockSlot : Nat)

theorem executeOmissionEvidence_governance {P : RuntimeGovernance → Prop} (kept : KeptByPenalties P)
    {state state' : StateTree} {gov gov' : RuntimeGovernance} {tx : Transaction} {receipt : VmReceipt}
    (executed : m.executeOmissionEvidence hashOf store activeSet state gov tx = .ok (state', gov', receipt))
    (holds : P gov) : P gov' := by
  unfold executeOmissionEvidence at executed
  split at executed
  · cases executed
  dsimp only at executed
  split at executed
  · cases executed
  split at executed
  · cases executed
  split at executed
  · cases executed
  rename_i producer _
  have slashed := kept.slash (treeOps m.derive) builderSlashAmount producer state holds
  split at executed <;> rename_i result
  · cases executed
  · cases executed
    unfold slashBuilderInTree at result
    rw [result] at slashed
    exact slashed

/-- What one transaction can do to the progress of a block. Only a transaction whose verification did not fail gets
another receipt than a failure, and only omission evidence writes governance. -/
inductive TxStep (verified : Option (Except TxError Unit)) (index : Nat) (tx : Transaction) (p : Progress) :
    Progress → Prop
  | failed (error : TxError) : TxStep verified index tx p (p.record index (m.failureReceipt tx error))
  | executed (accepted : ∀ error, verified ≠ some (.error error)) (state : StateTree) (charged : Nat)
      (receipt : VmReceipt) :
    TxStep verified index tx p ({ p with state := state, chargedTxCount := charged }.record index receipt)
  | convicted (accepted : ∀ error, verified ≠ some (.error error))
      (opcode : hasOpcode opMevAceOmissionEvidence tx = true) (state : StateTree) (governance : RuntimeGovernance)
      (receipt : VmReceipt)
      (evidence : m.executeOmissionEvidence hashOf store activeSet p.state p.governance tx =
        .ok (state, governance, receipt)) :
    TxStep verified index tx p ({ p with state := state, governance := governance }.record index receipt)

variable {m hashOf store activeSet} {verified : Option (Except TxError Unit)} {index : Nat} {tx : Transaction}
  {p : Progress}

theorem settleUncharged_step (accepted : ∀ error, verified ≠ some (.error error))
    (result : Except String (StateTree × VmReceipt)) :
    TxStep m hashOf store activeSet verified index tx p (m.settleUncharged p index tx result) := by
  cases result with
  | error text => exact .failed (.vm text)
  | ok done => exact .executed accepted done.1 p.chargedTxCount done.2

theorem settleCharged_step (accepted : ∀ error, verified ≠ some (.error error)) (feeChange : Option StateChange)
    (result : Except String (StateTree × VmReceipt)) :
    TxStep m hashOf store activeSet verified index tx p (m.settleCharged p index tx feeChange result) := by
  cases result with
  | error text => exact .failed (.vm text)
  | ok done => exact .executed accepted done.1 (p.chargedTxCount + 1) _

theorem executeSingle_step (verified : Option (Except TxError Unit)) (p : Progress) (index : Nat) (tx : Transaction) :
    TxStep m hashOf store activeSet verified index tx p
      (m.executeSingle hashOf store activeSet blockSlot verified p index tx) := by
  unfold executeSingle
  split
  · exact .failed _
  rename_i accepted
  split
  · exact settleUncharged_step accepted _
  split
  · exact settleUncharged_step accepted _
  split <;> rename_i opcode
  · split <;> rename_i evidence
    · exact .convicted accepted opcode _ _ _ evidence
    · exact .failed _
  split
  · exact .failed _
  split
  · exact .failed _
  · exact settleCharged_step accepted _ _

theorem executeParallel_step (verified : Option (Except TxError Unit)) (start : StateTree) (p : Progress) (index : Nat)
    (tx : Transaction) :
    TxStep m hashOf store activeSet verified index tx p (m.executeParallel blockSlot verified start p index tx) := by
  unfold executeParallel
  split
  · exact .failed _
  rename_i accepted
  split
  · exact .failed _
  · exact settleCharged_step accepted _ _

theorem TxStep.governance {P : RuntimeGovernance → Prop} (kept : KeptByPenalties P) {p' : Progress}
    (step : TxStep m hashOf store activeSet verified index tx p p') (holds : P p.governance) : P p'.governance := by
  cases step with
  | failed error => exact holds
  | executed accepted state charged receipt => exact holds
  | convicted accepted opcode state governance receipt evidence =>
    exact executeOmissionEvidence_governance m hashOf store activeSet kept evidence holds

theorem executeBatch_invariant {P : Progress → Prop} {verify : Transaction → Option (Except TxError Unit)}
    {txs : List Transaction}
    (keep : ∀ p p' index tx, txs[index]? = some tx → TxStep m hashOf store activeSet (verify tx) index tx p p' →
      P p → P p')
    (p : Progress) (batch : List Nat) (start : P p) :
    P (m.executeBatch hashOf store activeSet blockSlot verify txs p batch) := by
  apply List.foldlRecOn (motive := P)
  · exact start
  · intro p holds index _
    split <;> rename_i found
    · exact holds
    · split
      · exact keep p _ index _ found (executeSingle_step blockSlot _ p index _) holds
      · exact keep p _ index _ found (executeParallel_step blockSlot _ _ p index _) holds

section Ledger

variable {q : Progress} (same : p.SameLedger q)

include same

end Ledger

section Block

variable (m) {blockSlot} {state : StateTree} {txs : List Transaction} {gov : RuntimeGovernance}

theorem executeTransactionsWithFees_governance {P : RuntimeGovernance → Prop} (kept : KeptByPenalties P)
    (holds : P gov) : P (m.executeTransactionsWithFees hashOf activeSet store state txs blockSlot gov).2.2.2 := by
  apply List.foldlRecOn (motive := fun p : Progress => P p.governance)
  · exact holds
  · intro p holds batch _
    apply executeBatch_invariant blockSlot (P := fun p => P p.governance) _ p batch holds
    exact fun p p' index tx _ step => step.governance kept

theorem executeTransactionsWithFees_quiet
    (quiet : ∀ tx ∈ txs, hasOpcode opMevAceOmissionEvidence tx = true →
      (∀ error, m.preVerify activeSet state blockSlot tx ≠ some (.error error)) →
      ∀ current g done, m.executeOmissionEvidence hashOf store activeSet current g tx ≠ .ok done) :
    (m.executeTransactionsWithFees hashOf activeSet store state txs blockSlot gov).2.2.2 = gov := by
  apply List.foldlRecOn (motive := fun p : Progress => p.governance = gov)
  · rfl
  · intro p same batch _
    apply executeBatch_invariant blockSlot (P := fun p => p.governance = gov) _ p batch same
    intro p p' index tx found step same
    cases step with
    | failed error => exact same
    | executed accepted state charged receipt => exact same
    | convicted accepted opcode state governance receipt evidence =>
      exact absurd evidence (quiet tx (List.mem_of_getElem? found) opcode accepted _ _ _)

theorem executeOmissionEvidence_ok {current : StateTree} {done : StateTree × RuntimeGovernance × VmReceipt}
    (executed : m.executeOmissionEvidence hashOf store activeSet current gov tx = .ok done) :
    ∃ proof producer, m.decodeOmissionProof tx.payload = .ok proof ∧ tx.attestation.idcom = m.evidenceIdcom proof ∧
      m.convictedProducer store hashOf current activeSet proof = .ok producer := by
  unfold executeOmissionEvidence at executed
  split at executed <;> rename_i decoded
  · cases executed
  dsimp only at executed
  split at executed <;> rename_i sender
  · cases executed
  split at executed
  · cases executed
  split at executed <;> rename_i convicted
  · cases executed
  · exact ⟨_, _, decoded, Decidable.not_not.mp sender, convicted⟩

end Block

end Machine

end AceChain.Node
