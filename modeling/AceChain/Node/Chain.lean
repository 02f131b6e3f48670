import AceChain.Consensus.Calls
import AceChain.Node.Execution

namespace AceChain.Node

open AceChain.Runtime Consensus Governance State Function BlockStore

def sweepIntervalSlots : Nat := 9000

def stateExpiryPeriodSlots : Nat := 39312000

def maxDriftMs : Nat := 30000

def maxReorgAttempts : Nat := 3

/-- The machine with what the chain logic takes from elsewhere: hashes, the MEV-ACE checks, the leader schedule, the
verifiers and the configuration. -/
structure Rules where
  machine : Machine
  headerHash : BlockHeader → Hash
  txMerkleRoot : List Transaction → Hash
  attestMerkleRoot : List Transaction → Hash
  isFairOrdered : Hash → Nat → List Transaction → Bool
  fullMaterialHolds : Block → ValidatorSet → ShardedState → Bool
  leaderForSlot : Nat → ValidatorSet → AccountId
  verifyCertificate : FinalityCertificate → Block → Bool
  computeRoot : ShardedState → Hash
  reconcile : VoteCollector → ValidatorSet → VoteCollector
  devnetKey : AccountId → TaggedPubkey
  checkpointAllows : Nat → Hash → Hash → Bool
  genesisTimeMs : Nat
  mevAceActivationSlot : Nat
  mevAceFullActivationSlot : Nat

structure ConsensusEngine where
  validatorSet : ValidatorSet
  genesisValidatorSet : ValidatorSet
  fullValidatorSet : ValidatorSet
  tendermint : TendermintState
  finalityMachines : Nat → Option FinalityState
  voteCollectors : Nat → Option VoteCollector
  stateSnapshots : Nat → Option ShardedState
  lastBlockHash : Hash
  genesisHash : Hash

namespace ConsensusEngine

def addAll (full : ValidatorSet) : List Validator → Except AddValidatorError ValidatorSet
  | [] => .ok full
  | v :: vs =>
    match full.addValidator v with
    | .error error => .error error
    | .ok full => addAll full vs

variable (e : ConsensusEngine)

def rebuildFullValidatorSet (admitted : List Validator) :
    Except AddValidatorError ConsensusEngine :=
  match addAll e.genesisValidatorSet admitted with
  | .error error => .error error
  | .ok full => .ok { e with fullValidatorSet := full }

def setEffectiveValidatorSet (r : Rules) (e : ConsensusEngine) (validatorSet : ValidatorSet) : ConsensusEngine :=
  if e.validatorSet.differs validatorSet then
    let validatorSet := { validatorSet with generation := u64Add e.validatorSet.generation 1 }
    { e with
      validatorSet := validatorSet
      voteCollectors := fun slot => (e.voteCollectors slot).map (fun c => r.reconcile c validatorSet) }
  else e

variable (slot : Nat)

def storeSnapshot (snapshot : ShardedState) : ConsensusEngine :=
  { e with
    stateSnapshots := update e.stateSnapshots slot (some snapshot)
    finalityMachines := update e.finalityMachines slot (some ((e.finalityMachines slot).getD .pending))
    voteCollectors := update e.voteCollectors slot
      (some ((e.voteCollectors slot).getD (.new slot e.validatorSet.totalStake))) }

def takeSnapshot : Option ShardedState × ConsensusEngine :=
  (e.stateSnapshots slot, { e with stateSnapshots := update e.stateSnapshots slot none })

def resetSlot : ConsensusEngine :=
  { e with
    finalityMachines := update e.finalityMachines slot none
    voteCollectors := update e.voteCollectors slot none
    stateSnapshots := update e.stateSnapshots slot none }

def quorumBlockHash : Option Hash :=
  match e.voteCollectors slot with
  | some collector => collector.quorumBlockHash
  | none => none

def votedStakeFor (hash : Hash) : Nat :=
  match e.voteCollectors slot with
  | some collector => collector.votedStakeFor hash
  | none => 0

/-- Whether the incoming hash is preferred (`Ordering::Greater`): the quorum's hash first, then voted stake,
then the lower hash. -/
def prefersIncoming (localHash incomingHash : Hash) : Bool :=
  let byStake :=
    e.votedStakeFor slot localHash < e.votedStakeFor slot incomingHash ||
      (e.votedStakeFor slot localHash = e.votedStakeFor slot incomingHash && incomingHash < localHash)
  match e.quorumBlockHash slot with
  | some quorumHash =>
    if incomingHash = quorumHash ∧ localHash ≠ quorumHash then true
    else if localHash = quorumHash ∧ incomingHash ≠ quorumHash then false
    else byStake
  | none => byStake

def advanceToSyncedBlock (blockSlot : Nat) : ConsensusEngine :=
  let nextHeight := u64SatAdd blockSlot 1
  if nextHeight ≤ e.tendermint.height then e
  else { e with tendermint := e.tendermint.newHeight nextHeight e.validatorSet.totalStake }

end ConsensusEngine

structure RpcReceipt where
  vm : VmReceipt
  slot : Nat
  blockHash : Hash
  status : Bool
  admissionError : Option (PayloadError ⊕ AdmissionError)
deriving DecidableEq

structure ChainNode where
  engine : ConsensusEngine
  state : ShardedState
  store : BlockStore
  governance : RuntimeGovernance
  receipts : Nat → List RpcReceipt

inductive InboundBlockDecision where
  | apply
  | alreadyKnown
  | requestSync (startSlot : Nat)
  | reorg (rollbackSlot : Nat)
  | reject
deriving DecidableEq

def hasConfirmedRealBlockInRange (store : BlockStore) (start finish : Nat) : Bool :=
  (range start finish).any store.confirmedAt

def hasTransactionsInRange (store : BlockStore) (start finish : Nat) : Bool :=
  (range start finish).any (fun slot =>
    ((store.getBlockBySlot slot).map (fun block => !block.transactions.isEmpty)).getD false)

namespace Rules

variable (r : Rules)

def blockHash (b : Block) : Hash := r.headerHash b.header

def slotTimeMs (slot : Nat) : Nat := u64SatAdd r.genesisTimeMs (u64SatMul slot slotDurationMs)

def verifyFinalityCertificateForBlock (cert : FinalityCertificate) (block : Block) : Bool :=
  cert.slot = block.header.slot && cert.blockHash = r.blockHash block && r.verifyCertificate cert block

def satisfiesFairOrder (block : Block) : Bool :=
  block.header.slot < r.mevAceActivationSlot ||
    r.isFairOrdered block.header.parentHash block.header.slot block.transactions

def satisfiesFullMaterial (block : Block) (validatorSet : ValidatorSet) (state : ShardedState) : Bool :=
  block.header.slot < r.mevAceFullActivationSlot || r.fullMaterialHolds block validatorSet state

/-- The leader check of an announced block: the claimed leader is compared, no signature is. -/
def hasValidLeader (engine : ConsensusEngine) (block : Block) : Bool :=
  block.header.leaderIdcom = (r.leaderForSlot block.header.slot engine.validatorSet).bytes

def wellFormed (engine : ConsensusEngine) (currentSlot nowMs : Nat) (isSync : Bool) (block : Block) : Bool :=
  let header := block.header
  (isSync || header.slot ≤ u64Add currentSlot 2) &&
  block.transactions.length ≤ maxTxsPerBlock &&
  block.wireSize ≤ maxBlockBytes &&
  !engine.validatorSet.isEmpty && engine.validatorSet.totalStake ≠ 0 &&
  header.txCount = block.transactions.length % 2 ^ 32 &&
  header.txMerkleRoot = r.txMerkleRoot block.transactions &&
  header.attestMerkleRoot = r.attestMerkleRoot block.transactions &&
  r.satisfiesFairOrder block &&
  (isSync || (header.timestamp ≤ u64SatAdd nowMs maxDriftMs && nowMs - maxDriftMs ≤ header.timestamp))

variable (node : ChainNode)

def assessOccupied (existing block : Block) : InboundBlockDecision :=
  let slot := block.header.slot
  if node.store.hasConfirmedState slot then .reject
  else if node.engine.prefersIncoming slot (r.blockHash existing) (r.blockHash block) then .reorg slot
  else .reject

def assessBranch (isSync : Bool) (parent block : Block) : InboundBlockDecision :=
  let slot := block.header.slot
  let parentSlot := parent.header.slot
  let latest := node.store.latestSlot
  if !isSync && !r.hasValidLeader node.engine block then .reject
  else if slot ≤ parentSlot then .reject
  else if hasConfirmedRealBlockInRange node.store (u64SatAdd parentSlot 1) latest then .reject
  else
    match node.store.firstPresentSlot (u64SatAdd parentSlot 1) latest with
    | some firstLocalSlot => if slot < firstLocalSlot then .reorg firstLocalSlot else .reject
    | none => .apply

def assessFree (isSync : Bool) (block : Block) : InboundBlockDecision :=
  let genesisHash := node.engine.genesisHash
  let tipHash := node.store.canonicalTipHash r.headerHash genesisHash
  let parentHash := block.header.parentHash
  if parentHash = genesisHash ∧ tipHash ≠ genesisHash then .reject
  else if parentHash = tipHash then
    if !isSync && !r.hasValidLeader node.engine block then .reject else .apply
  else
    match node.store.getBlockByHash parentHash with
    | none => .requestSync (max (min (u64SatAdd node.store.latestSlot 1) (block.header.slot - 1)) 1)
    | some parent => r.assessBranch node isSync parent block

def assessInboundBlock (currentSlot nowMs : Nat) (isSync : Bool) (block : Block) :
    InboundBlockDecision :=
  let slot := block.header.slot
  let store := node.store
  if !r.wellFormed node.engine currentSlot nowMs isSync block then .reject
  else if ((store.getBlockByHash block.header.parentHash).map
      (fun parent => decide (block.header.timestamp < parent.header.timestamp))).getD false then .reject
  else if ((store.getBlockByHash (r.blockHash block)).map (fun known => decide (known.header.slot = slot))).getD false then
    .alreadyKnown
  else
    match store.getBlockBySlot slot with
    | some existing =>
      if r.blockHash existing = r.blockHash block then .alreadyKnown else r.assessOccupied node existing block
    | none => r.assessFree node isSync block

variable (store : BlockStore)

def persistBlockFinality (slot : Nat) (state : Option FinalityState)
    (cert : Option FinalityCertificate) : BlockStore :=
  let store := store.setFinalityState slot (state.getD .pending)
  match cert with
  | some cert => store.putFinalityCert cert
  | none => store

variable (record : BlockSyncRecord)

/-- A certificate is kept only if it verifies; `Hard` without one becomes `Soft`, and every other claimed
state is taken as it is. -/
def sanitizeSyncFinality : Option FinalityState × Option FinalityCertificate :=
  let verified := record.finalityCert.filter (fun cert => r.verifyFinalityCertificateForBlock cert record.block)
  if record.finalityState = some .hard then
    if verified.isSome then (some .hard, record.finalityCert) else (some .soft, none)
  else (record.finalityState, verified)

def syncEffectiveValidatorSet (engine : ConsensusEngine) (governance : RuntimeGovernance) (nowMs : Nat) :
    ConsensusEngine :=
  engine.setEffectiveValidatorSet r (governance.effectiveValidatorSet engine.fullValidatorSet nowMs)

def admitTransaction (blockTimeMs : Nat) (acc : RuntimeGovernance × ValidatorSet) (tx : Transaction) :
    Option (PayloadError ⊕ AdmissionError) × RuntimeGovernance × ValidatorSet :=
  if !hasOpcode opApproveValidator tx then (none, acc)
  else
    match TransactionOp.decode r.machine.decodeOther tx.payload with
    | .ok (.approveValidator _ candidate signingPubkey) =>
      match acc.1.admitValidator r.devnetKey tx.sender candidate signingPubkey acc.2 blockTimeMs with
      | (.ok _, acc) => (none, acc)
      | (.error error, acc) => (some (.inr error), acc)
    | .ok _ => (none, acc)
    | .error error => (some (.inl error), acc)

/-- The admission pass over a block: the outcome of every transaction, with the governance and the validator
set after it. -/
def processBlockValidatorAdmissions (blockTimeMs : Nat) (acc : RuntimeGovernance × ValidatorSet) :
    List Transaction → List (Option (PayloadError ⊕ AdmissionError)) × RuntimeGovernance × ValidatorSet
  | [] => ([], acc)
  | tx :: txs =>
    let (failure, acc) := r.admitTransaction blockTimeMs acc tx
    let (failures, acc) := processBlockValidatorAdmissions blockTimeMs acc txs
    (failure :: failures, acc)

def rpcReceipts (block : Block) (receipts : List VmReceipt)
    (failures : List (Option (PayloadError ⊕ AdmissionError))) : List RpcReceipt :=
  (receipts.zip failures).map (fun pair =>
    ⟨pair.1, block.header.slot, r.blockHash block, pair.1.success && pair.2.isNone, pair.2⟩)

def executeBlock (activeSet : ValidatorSet) (store : BlockStore) (state : ShardedState)
    (governance : RuntimeGovernance) (txs : List Transaction) (slot : Nat) :
    List VmReceipt × Nat × ShardedState × RuntimeGovernance :=
  let (receipts, charged, tree, governance) := r.machine.executeTransactionsWithFees r.headerHash activeSet store
    state.defaultShard txs slot governance
  let state := { state with defaultShard := updateTouchedSlots tree receipts slot }
  let state :=
    if slot % sweepIntervalSlots = 0 then state.sweepExpired r.machine.derive slot stateExpiryPeriodSlots else state
  (receipts, charged, state, governance)

/-- What the sync path computes for a block before it stores anything: governance, the engine with the admitted
validators, the state and the receipts; or the governance left after a rejection. -/
def replayBlock (block : Block) :
    Except RuntimeGovernance (RuntimeGovernance × ConsensusEngine × ShardedState × List RpcReceipt) :=
  let slot := block.header.slot
  let time := r.slotTimeMs slot
  let (receipts, charged, state, governance) := r.executeBlock node.engine.validatorSet node.store node.state
    (node.governance.snapshot slot) block.transactions slot
  match governance.applyCompletedBlock r.machine.derive state node.engine.validatorSet charged time with
  | .error _ => .error (governance.rollback slot)
  | .ok (governance, state) =>
    if r.computeRoot state ≠ block.header.stateRoot then .error (governance.rollback slot)
    else
      let (failures, governance, _) := r.processBlockValidatorAdmissions time
        (governance, node.engine.fullValidatorSet) block.transactions
      match node.engine.rebuildFullValidatorSet governance.approvedValidators with
      | .error _ => .error (governance.rollback slot)
      | .ok engine =>
        .ok (governance, r.syncEffectiveValidatorSet engine governance time, state,
          r.rpcReceipts block receipts failures)

def persistRecordFinality (record : BlockSyncRecord) : BlockStore :=
  let finality := r.sanitizeSyncFinality record
  persistBlockFinality store record.block.header.slot finality.1 finality.2

def storeRecord (record : BlockSyncRecord) : BlockStore :=
  r.persistRecordFinality (store.putBlock r.headerHash record.block) record

def applyBlockRecord : Bool × ChainNode :=
  let block := record.block
  let slot := block.header.slot
  if !r.checkpointAllows slot (r.blockHash block) block.header.stateRoot then (false, node)
  else if !r.satisfiesFullMaterial block node.engine.validatorSet node.state then (false, node)
  else
    match r.replayBlock node block with
    | .error governance => (false, { node with governance := governance })
    | .ok (governance, engine, state, receipts) =>
      let engine := { engine.storeSnapshot slot node.state with lastBlockHash := r.blockHash block }
      (true,
        { engine := engine.advanceToSyncedBlock slot
          state := state
          store := r.storeRecord node.store record
          governance := governance
          receipts := update node.receipts slot receipts })

def rollbackSnapshot (engine : ConsensusEngine) (slot : Nat) (firstPresent : Option Nat) :
    Option Nat × Option ShardedState × ConsensusEngine :=
  match engine.takeSnapshot slot with
  | (some snapshot, engine) => (some slot, some snapshot, engine)
  | (none, engine) =>
    match firstPresent with
    | some existing =>
      if slot < existing then
        let (snapshot, engine) := engine.takeSnapshot existing
        (some existing, snapshot, engine)
      else (none, none, engine)
    | none => (none, none, engine)

def deleteRange (store : BlockStore) : List Nat → List Nat × BlockStore
  | [] => ([], store)
  | slot :: slots =>
    match store.deleteBlockBySlot r.headerHash slot with
    | (some _, store) =>
      let (removed, store) := deleteRange store slots
      (slot :: removed, store)
    | (none, store) => deleteRange store slots

/-- The second half of a rollback: blocks, per-slot tracking and receipts from the slot on go, governance
returns to its own snapshot. -/
def dropBranch (engine : ConsensusEngine) (state : ShardedState) (slot : Nat)
    (snapshotSlot : Option Nat) : Bool × ChainNode :=
  let (removed, store) := r.deleteRange node.store (range slot node.store.latestSlot)
  let engine := removed.foldl ConsensusEngine.resetSlot (engine.resetSlot slot)
  let engine := { engine with lastBlockHash := store.canonicalTipHash r.headerHash engine.genesisHash }
  let governance := node.governance.rollback (snapshotSlot.getD slot)
  let receipts := removed.foldl (fun receipts slot => update receipts slot []) node.receipts
  match engine.rebuildFullValidatorSet governance.approvedValidators with
  | .error _ => (false, ⟨engine, state, store, governance, receipts⟩)
  | .ok engine =>
    let tipSlot := (store.canonicalTip.map (·.header.slot)).getD 0
    (true, ⟨r.syncEffectiveValidatorSet engine governance (r.slotTimeMs tipSlot), state, store, governance, receipts⟩)

def doRollback (slot : Nat) : Bool × ChainNode :=
  let latest := node.store.latestSlot
  let firstPresent := node.store.firstPresentSlot slot latest
  let (snapshotSlot, snapshot, engine) := rollbackSnapshot node.engine slot firstPresent
  match snapshot with
  | some state => r.dropBranch node engine state slot snapshotSlot
  | none =>
    if firstPresent.isNone then (true, { node with engine := engine.resetSlot slot })
    else if hasTransactionsInRange node.store slot latest then (false, { node with engine := engine })
    -- without a snapshot the state stays: the code takes it that empty blocks changed nothing
    else r.dropBranch node engine node.state slot snapshotSlot

/-- What `ingest_block_record` does with a decision after which it returns, a reorg without attempts left among
them; the flag tells whether `apply_block_record` returned true. -/
def settle (node : ChainNode) : InboundBlockDecision → Bool × ChainNode
  | .apply => r.applyBlockRecord node record
  | .alreadyKnown => (false, { node with store := r.persistRecordFinality node.store record })
  | .requestSync _ => (false, node)
  | .reject => (false, node)
  | .reorg _ => (false, node)

def ingestLoop (currentSlot nowMs : Nat) (isSync : Bool) (record : BlockSyncRecord) :
    Nat → ChainNode → Bool × ChainNode
  | 0, node => r.settle record node (r.assessInboundBlock node currentSlot nowMs isSync record.block)
  | attempts + 1, node =>
    match r.assessInboundBlock node currentSlot nowMs isSync record.block with
    | .reorg rollbackSlot =>
      match r.doRollback node rollbackSlot with
      | (false, node) => (false, node)
      | (true, node) => ingestLoop currentSlot nowMs isSync record attempts node
    | decision => r.settle record node decision

def ingestBlockRecord (currentSlot nowMs : Nat) (isSync : Bool) :
    Bool × ChainNode :=
  r.ingestLoop currentSlot nowMs isSync record maxReorgAttempts node

end Rules

end AceChain.Node
