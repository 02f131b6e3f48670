import AceChain.Node.Chain

namespace AceChain.Node

open AceChain.Runtime Consensus Governance State BlockStore

structure ConsensusEngine.SameBase (e e' : ConsensusEngine) : Prop where
  genesis : e'.genesisValidatorSet = e.genesisValidatorSet
  genesisHash : e'.genesisHash = e.genesisHash
  snapshots : e'.stateSnapshots = e.stateSnapshots

theorem ConsensusEngine.SameBase.trans {e e' e'' : ConsensusEngine} (first : e.SameBase e') (second : e'.SameBase e'') :
    e.SameBase e'' :=
  ⟨second.genesis.trans first.genesis, second.genesisHash.trans first.genesisHash, second.snapshots.trans first.snapshots⟩

theorem ConsensusEngine.rebuildFullValidatorSet_ok {e e' : ConsensusEngine} {admitted : List Validator}
    (rebuilt : e.rebuildFullValidatorSet admitted = .ok e') :
    e.SameBase e' ∧ addAll e.genesisValidatorSet admitted = .ok e'.fullValidatorSet := by
  unfold rebuildFullValidatorSet at rebuilt
  split at rebuilt <;> rename_i added
  · cases rebuilt
  · cases rebuilt
    exact ⟨⟨rfl, rfl, rfl⟩, added⟩

theorem ConsensusEngine.advanceToSyncedBlock_base (e : ConsensusEngine) (slot : Nat) :
    e.SameBase (e.advanceToSyncedBlock slot) ∧ (e.advanceToSyncedBlock slot).fullValidatorSet = e.fullValidatorSet := by
  unfold advanceToSyncedBlock
  dsimp only
  split <;> exact ⟨⟨rfl, rfl, rfl⟩, rfl⟩

namespace Rules

variable (r : Rules)

theorem syncEffectiveValidatorSet_base (e : ConsensusEngine) (governance : RuntimeGovernance) (nowMs : Nat) :
    e.SameBase (r.syncEffectiveValidatorSet e governance nowMs) ∧
      (r.syncEffectiveValidatorSet e governance nowMs).fullValidatorSet = e.fullValidatorSet := by
  unfold syncEffectiveValidatorSet ConsensusEngine.setEffectiveValidatorSet
  split <;> exact ⟨⟨rfl, rfl, rfl⟩, rfl⟩

theorem replayBlock_base {node : ChainNode} {block : Block} {governance : RuntimeGovernance} {engine : ConsensusEngine}
    {state : ShardedState} {receipts : List RpcReceipt}
    (replayed : r.replayBlock node block = .ok (governance, engine, state, receipts)) :
    node.engine.SameBase engine ∧ r.computeRoot state = block.header.stateRoot := by
  unfold replayBlock at replayed
  dsimp only at replayed
  split at replayed
  · cases replayed
  split at replayed <;> rename_i root
  · cases replayed
  split at replayed <;> rename_i rebuilt
  · cases replayed
  cases replayed
  exact ⟨(ConsensusEngine.rebuildFullValidatorSet_ok rebuilt).1.trans (syncEffectiveValidatorSet_base r _ _ _).1,
    Decidable.not_not.mp root⟩

variable (store : BlockStore) (slots : List Nat)

theorem getBlockBySlot_deleteRange (other : Nat) :
    (r.deleteRange store slots).2.getBlockBySlot other =
      if other ∈ slots then none else store.getBlockBySlot other := by
  induction slots generalizing store with
  | nil => rfl
  | cons slot slots ih =>
    have deleted := getBlockBySlot_deleteBlockBySlot r.headerHash store slot other
    unfold deleteRange
    split <;> rename_i result <;> rw [result] at deleted <;> rw [ih, deleted] <;>
      by_cases first : other = slot <;> simp [first]

theorem getFinalityState_deleteRange (other : Nat) (kept : other ∉ slots) :
    (r.deleteRange store slots).2.getFinalityState other = store.getFinalityState other := by
  induction slots generalizing store with
  | nil => rfl
  | cons slot slots ih =>
    rw [List.mem_cons, not_or] at kept
    have deleted := getFinalityState_deleteBlockBySlot r.headerHash store slot other
    rw [if_neg (fun both => kept.1 both.1)] at deleted
    unfold deleteRange
    split <;> rename_i result <;> rw [result] at deleted
    · exact (ih _ kept.2).trans deleted
    · exact (ih _ kept.2).trans deleted

variable (node : ChainNode)

theorem dropBranch_store (engine : ConsensusEngine) (state : ShardedState) (slot : Nat)
    (snapshotSlot : Option Nat) :
    (r.dropBranch node engine state slot snapshotSlot).2.store =
      (r.deleteRange node.store (range slot node.store.latestSlot)).2 := by
  unfold dropBranch
  dsimp only
  split <;> rfl

theorem doRollback_store (slot : Nat) :
    (r.doRollback node slot).2.store = node.store ∨
      (r.doRollback node slot).2.store =
        (r.deleteRange node.store (range slot node.store.latestSlot)).2 := by
  unfold doRollback
  dsimp only
  split
  · exact .inr (dropBranch_store r _ _ _ _ _)
  split
  · exact .inl rfl
  split
  · exact .inl rfl
  · exact .inr (dropBranch_store r _ _ _ _ _)

variable (record : BlockSyncRecord)

theorem applyBlockRecord_cases :
    (∃ governance, r.applyBlockRecord node record = (false, { node with governance := governance })) ∨
      ∃ governance engine state receipts,
        r.replayBlock node record.block = .ok (governance, engine, state, receipts) ∧
        r.applyBlockRecord node record = (true,
          { engine := { engine.storeSnapshot record.block.header.slot node.state with
              lastBlockHash := r.blockHash record.block }.advanceToSyncedBlock record.block.header.slot
            state := state
            store := r.storeRecord node.store record
            governance := governance
            receipts := Function.update node.receipts record.block.header.slot receipts }) := by
  unfold applyBlockRecord
  dsimp only
  split
  · exact .inl ⟨_, rfl⟩
  split
  · exact .inl ⟨_, rfl⟩
  cases replayed : r.replayBlock node record.block with
  | error governance => exact .inl ⟨governance, rfl⟩
  | ok result => exact .inr ⟨result.1, result.2.1, result.2.2.1, result.2.2.2, rfl, rfl⟩

theorem applyBlockRecord_store :
    (r.applyBlockRecord node record).2.store =
      if (r.applyBlockRecord node record).1 then r.storeRecord node.store record else node.store := by
  rcases applyBlockRecord_cases r node record with ⟨_, result⟩ | ⟨_, _, _, _, _, result⟩
  · rw [result]
    rfl
  · rw [result]
    rfl

@[simp] theorem getBlockBySlot_persistRecordFinality :
    (r.persistRecordFinality store record).getBlockBySlot = store.getBlockBySlot := by
  unfold persistRecordFinality persistBlockFinality
  dsimp only
  cases (r.sanitizeSyncFinality record).2 <;> rfl

theorem getFinalityState_persistRecordFinality (slot : Nat) :
    (r.persistRecordFinality store record).getFinalityState slot =
      if slot = record.block.header.slot then some ((r.sanitizeSyncFinality record).1.getD .pending)
      else store.getFinalityState slot := by
  unfold persistRecordFinality persistBlockFinality
  dsimp only
  cases (r.sanitizeSyncFinality record).2 <;> exact getFinalityState_setFinalityState store _ _ slot

section

variable (currentSlot nowMs : Nat) (isSync : Bool) (record : BlockSyncRecord)

inductive FinalStep (node : ChainNode) : Bool × ChainNode → Prop
  | apply (decision : r.assessInboundBlock node currentSlot nowMs isSync record.block = .apply) :
    FinalStep node (r.applyBlockRecord node record)
  | known (decision : r.assessInboundBlock node currentSlot nowMs isSync record.block = .alreadyKnown) :
    FinalStep node (false, { node with store := r.persistRecordFinality node.store record })
  | leave : FinalStep node (false, node)
  | stuck (rollbackSlot : Nat)
      (decision : r.assessInboundBlock node currentSlot nowMs isSync record.block = .reorg rollbackSlot) :
    FinalStep node (false, (r.doRollback node rollbackSlot).2)

theorem settle_finalStep (node : ChainNode) :
    r.FinalStep currentSlot nowMs isSync record node
      (r.settle record node (r.assessInboundBlock node currentSlot nowMs isSync record.block)) := by
  cases decision : r.assessInboundBlock node currentSlot nowMs isSync record.block with
  | apply => exact .apply decision
  | alreadyKnown => exact .known decision
  | requestSync start => exact .leave
  | reject => exact .leave
  | reorg rollbackSlot => exact .leave

def assessed : Nat → ChainNode → List ChainNode
  | 0, node => [node]
  | attempts + 1, node =>
    node ::
      match r.assessInboundBlock node currentSlot nowMs isSync record.block with
      | .reorg rollbackSlot =>
        match r.doRollback node rollbackSlot with
        | (false, _) => []
        | (true, node) => assessed attempts node
      | _ => []

theorem ingestLoop_induction {Q : ChainNode → Prop} {P : ChainNode → Bool × ChainNode → Prop}
    (final : ∀ node result, Q node → r.FinalStep currentSlot nowMs isSync record node result → P node result)
    (rollback : ∀ node rollbackSlot result, Q node →
      r.assessInboundBlock node currentSlot nowMs isSync record.block = .reorg rollbackSlot →
      P (r.doRollback node rollbackSlot).2 result → P node result)
    (attempts : Nat) (node : ChainNode) (met : ∀ n ∈ r.assessed currentSlot nowMs isSync record attempts node, Q n) :
    P node (r.ingestLoop currentSlot nowMs isSync record attempts node) := by
  induction attempts generalizing node with
  | zero =>
    exact final node _ (met node List.mem_cons_self) (settle_finalStep r currentSlot nowMs isSync record node)
  | succ attempts ih =>
    unfold assessed at met
    have here : Q node := met node List.mem_cons_self
    unfold ingestLoop
    split <;> rename_i decision
    · rename_i rollbackSlot
      rw [decision] at met
      dsimp only at met ⊢
      have stuck := final node _ here (.stuck rollbackSlot decision)
      have onward := fun result => rollback node rollbackSlot result here decision
      generalize r.doRollback node rollbackSlot = rolled at stuck onward met ⊢
      obtain ⟨succeeded, after⟩ := rolled
      cases succeeded
      · exact stuck
      · exact onward _ (ih after (fun n member => met n (List.mem_cons_of_mem _ member)))
    · exact final node _ here (settle_finalStep r currentSlot nowMs isSync record node)

end

end Rules

/-! A chain small enough to run: a credential verifies if it repeats the key, every transaction the n-VM sees
succeeds and bumps its sender's nonce, and the root folds the balances. -/

namespace SmallChain

def derive : Derivations := .ofWidths (fun a _ => a.idCom.bytes) beHash

def bumpNonce (state : StateTree) (tx : Transaction) : StateTree × VmReceipt :=
  (state.modify tx.sender (fun a => { a with nonce := a.nonce + 1 }),
    ⟨tx.attestation.objHash, true, tx.sender, [], none, none⟩)

def machine : Machine where
  derive := derive
  txHash tx := tx.attestation.objHash
  verifyCredential attestation _ key := attestation.credential.bytes = key.bytes
  verifyCertificate _ _ _ := .error "no committee"
  verifyZkAuth _ _ := .error "no proof"
  decodeOther _ := .error .empty
  buildBatches txs := (List.range txs.length).map (fun index => [index])
  extractWriteSet _ := .global
  executeTransaction state tx _ := .ok (bumpNonce state tx)
  executeBridgeDeposit _ _ := .error "no bridge"
  executeWithdrawalCompletion _ _ := .error "no bridge"
  executeOassetWithdraw _ _ _ := .error "no bridge"
  executeLiquid _ _ := .error "no market"
  decodeOmissionProof payload := .ok ⟨beHash (slice payload 1 32), leNat (payload.drop 33), 0, []⟩
  evidenceIdcom proof := proof.blockHash
  evidenceMarkerSlot proof := proof.blockHash
  verifyOmissionProof _ _ _ _ := .ok ()

def headerHash (h : BlockHeader) : Hash := BitVec.ofNat 256 (h.slot + 2 ^ 64 * (1 + h.timestamp % 2 ^ 64))

def computeRoot (s : ShardedState) : Hash :=
  BitVec.ofNat 256 (s.defaultShard.accounts.values.foldl (fun acc a => 31 * acc + a.balance + 1) 0)

def rules : Rules where
  machine := machine
  headerHash := headerHash
  txMerkleRoot txs := BitVec.ofNat 256 txs.length
  attestMerkleRoot txs := BitVec.ofNat 256 txs.length
  isFairOrdered _ _ _ := true
  fullMaterialHolds _ _ _ := true
  leaderForSlot _ set := (set.validators.head?.map (·.idCom)).getD .zero
  verifyCertificate _ _ := false
  computeRoot := computeRoot
  reconcile collector _ := collector
  devnetKey _ := .default
  checkpointAllows _ _ _ := true
  genesisTimeMs := 0
  mevAceActivationSlot := u64Max
  mevAceFullActivationSlot := u64Max

def account (n : Nat) : AccountId := ⟨BitVec.ofNat 256 n⟩

def key (byte : UInt8) : TaggedPubkey := .ed25519 (List.replicate 32 byte)

def validator (n : Nat) : Validator := ⟨account n, 1, n - 1, key n.toUInt8, ⟨true, false, false⟩⟩

def validatorSet : ValidatorSet := .new [validator 1, validator 2, validator 3]

def tree : StateTree :=
  [1, 2, 3].foldl (fun tree n =>
    tree.insert derive { Account.new (account n) with balance := 1000000, authPubkey := key n.toUInt8 }) .new

def node (n : Nat) : NodeInfo := { RuntimeGovernance.admittedNode (account n) 0 with idCom := account n }

def governance : RuntimeGovernance where
  state :=
    { epochTracker := .new
      nodeRegistry := ⟨[1, 2, 3].foldl (fun nodes n => nodes.insert (account n) (node n)) ∅, defaultMaxNodes⟩
      affiliateRegistry := .empty 0
      admissionController := .new 3
      approvedValidators := [] }
  snapshots := ∅
  genesisTimeMs := 0
  leaderMissCounts := fun _ => 0
  founderIdCom := some (account 1)
  validatorAdmissionPolicy := .founderProvided

def freshNode (maxBlocks : Option Nat) : ChainNode where
  engine :=
    { validatorSet := validatorSet
      genesisValidatorSet := validatorSet
      fullValidatorSet := validatorSet
      tendermint := .new 1 3
      finalityMachines := fun _ => none
      voteCollectors := fun _ => none
      stateSnapshots := fun _ => none
      lastBlockHash := 0
      genesisHash := 0 }
  state := .fromStateTree tree
  store := .new maxBlocks
  governance := governance
  receipts := fun _ => []

def blockWith (slot : Nat) (parentHash stateRoot : Hash) (txs : List Transaction) : Block where
  header :=
    { slot := slot
      parentHash := parentHash
      stateRoot := stateRoot
      txMerkleRoot := BitVec.ofNat 256 txs.length
      attestMerkleRoot := BitVec.ofNat 256 txs.length
      pohHash := 0
      leaderIdcom := 1
      timestamp := 0
      txCount := txs.length
      round := 0
      mevAceMaterialHash := 0 }
  transactions := txs
  mevAce := none

def emptyBlock (slot : Nat) (parentHash : Hash) : Block :=
  blockWith slot parentHash (computeRoot (.fromStateTree tree)) []

end SmallChain

end AceChain.Node
