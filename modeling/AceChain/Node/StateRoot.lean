import AceChain.Node.Events
import AceChain.Node.PathAgreement

namespace AceChain.Node

open AceChain.Runtime Consensus Governance State BlockStore ConsensusEngine Lib

def rootOf (genesisRoot : Hash) (block : Option Block) : Hash := (block.map (·.header.stateRoot)).getD genesisRoot

def tipRoot (genesisRoot : Hash) (store : BlockStore) : Hash := rootOf genesisRoot store.canonicalTip

def rootBelow (genesisRoot : Hash) (store : BlockStore) (slot : Nat) : Hash :=
  rootOf genesisRoot (store.highestBelow slot)

namespace Rules

variable (r : Rules) (genesisRoot : Hash)

def landsOnTop (store : BlockStore) (block : Block) : Bool :=
  (store.canonicalTip.map (fun tip => decide (tip.header.slot < block.header.slot))).getD true &&
    (store.evictedBy r.headerHash block).isEmpty

variable (node : ChainNode)

/-- A rollback without a snapshot, which keeps the state, leads back to a block with the same root. -/
def rollsBackSoundly (slot : Nat) : Bool :=
  let firstPresent := node.store.firstPresentSlot slot node.store.latestSlot
  (rollbackSnapshot node.engine slot firstPresent).2.1.isSome || firstPresent.isNone ||
    hasTransactionsInRange node.store slot node.store.latestSlot ||
    r.computeRoot node.state = rootBelow genesisRoot node.store slot

/-- A pending commit that still fits: it starts from the root of the current state, comes to lie on top, and the
validator set can be rebuilt. -/
def commitFits (finalized : FinalizedCommit) : Bool :=
  r.landsOnTop node.store finalized.block && r.computeRoot finalized.snapshot = r.computeRoot node.state &&
    (addAll node.engine.genesisValidatorSet finalized.governance.approvedValidators).isOk

def decisionFits (record : BlockSyncRecord) (node : ChainNode) : InboundBlockDecision → Bool
  | .apply => r.landsOnTop node.store record.block
  | .reorg rollbackSlot => r.rollsBackSoundly genesisRoot node rollbackSlot
  | _ => true

def nothingToSlash (id : AccountId) : Bool := (node.state.get id).all (fun account => account.balance = 0)

def equivocatorsFit (equivocators : AccountId → Option (Hash × Hash)) (order : List AccountId) : Bool :=
  order.all (fun validator => (equivocators validator).isNone || nothingToSlash node validator)

def observationFits (slot : Nat) (order : List AccountId) : Bool :=
  node.store.getFinalityState slot = some .soft || node.engine.finalityMachines slot ≠ some .soft ||
    (node.engine.voteCollectors slot).all (fun collector => equivocatorsFit node collector.equivocators order)

def builderFits (slot : Nat) : Bool :=
  (node.store.getBlockBySlot slot).all (fun block => nothingToSlash node ⟨block.header.leaderIdcom⟩)

/-- The condition on a finality action: there is nothing to slash, and a rollback does not take the state off the chain. -/
def actionFits (slot : Nat) (action : FinalityAction) (order : List AccountId) : Bool :=
  observationFits node slot order &&
    match action with
    | .none => true
    | .slashBuilder => builderFits node slot
    | .requeueTxs => r.rollsBackSoundly genesisRoot node slot
    | .slashAndRequeue => builderFits node slot && r.rollsBackSoundly genesisRoot node slot

def eventFits (n : RunningNode) : NodeEvent → Bool
  | .consensus _ => true
  | .checkEquivocators order _ => equivocatorsFit n.chain n.chain.engine.tendermint.equivocators order
  | .startCommit _ _ => true
  | .commitFinalized => (n.pending.map (r.commitFits n.chain)).getD true
  | .blockRecord call =>
    (r.assessed call.currentSlot call.nowMs call.isSync call.record maxReorgAttempts n.chain).all (fun node =>
      r.decisionFits genesisRoot call.record node
        (r.assessInboundBlock node call.currentSlot call.nowMs call.isSync call.record.block))
  | .finality slot state action order _ => r.actionFits genesisRoot (withFinality n.chain slot state) slot action order
  | .cleanup _ => true

/-- The state has the root of the tip, and every snapshot the root below its slot. -/
structure OnChain (node : ChainNode) : Prop where
  keyed : ∀ slot block, node.store.getBlockBySlot slot = some block → block.header.slot = slot
  bounded : node.store.Bounded
  root : r.computeRoot node.state = tipRoot genesisRoot node.store
  snapshots : ∀ slot snapshot, node.engine.stateSnapshots slot = some snapshot →
    (node.store.getBlockBySlot slot).isSome = true ∧ r.computeRoot snapshot = rootBelow genesisRoot node.store slot

structure RunInv (n : RunningNode) : Prop where
  chain : r.OnChain genesisRoot n.chain
  pending : ∀ finalized, n.pending = some finalized →
    r.computeRoot finalized.postCommitState = finalized.block.header.stateRoot

variable {r} {genesisRoot} {node : ChainNode}

theorem canonicalTip_congr {s t : BlockStore} (blocks : t.getBlockBySlot = s.getBlockBySlot)
    (latest : t.latestSlot = s.latestSlot) : t.canonicalTip = s.canonicalTip := by
  unfold canonicalTip
  rw [latest]
  exact highestFrom_congr (fun other _ => congrFun blocks other)

theorem OnChain.transport (on : r.OnChain genesisRoot node) (after : ChainNode)
    (blocks : after.store.getBlockBySlot = node.store.getBlockBySlot)
    (latest : after.store.latestSlot = node.store.latestSlot)
    (root : r.computeRoot after.state = r.computeRoot node.state)
    (snapshots : ∀ slot snapshot, after.engine.stateSnapshots slot = some snapshot →
      node.engine.stateSnapshots slot = some snapshot) : r.OnChain genesisRoot after where
  keyed := by
    rw [blocks]
    exact on.keyed
  bounded := by
    intro slot above
    rw [blocks]
    exact on.bounded slot (latest ▸ above)
  root := by
    unfold tipRoot
    rw [root, on.root, canonicalTip_congr blocks latest]
    rfl
  snapshots slot snapshot found := by
    obtain ⟨stored, below⟩ := on.snapshots slot snapshot (snapshots slot snapshot found)
    unfold rootBelow
    rw [blocks, below, highestBelow_congr (fun other _ => congrFun blocks other)]
    exact ⟨stored, rfl⟩

theorem getBlockBySlot_storeRecord {store : BlockStore} {record : BlockSyncRecord}
    (kept : (store.evictedBy r.headerHash record.block).isEmpty = true) (slot : Nat) :
    (r.storeRecord store record).getBlockBySlot slot =
      if slot = record.block.header.slot then some record.block else store.getBlockBySlot slot := by
  rw [List.isEmpty_iff] at kept
  unfold storeRecord
  rw [getBlockBySlot_persistRecordFinality, getBlockBySlot_putBlock, kept, if_neg List.not_mem_nil]

theorem bounded_storeRecord {store : BlockStore} (bounded : store.Bounded) (record : BlockSyncRecord) :
    (r.storeRecord store record).Bounded := by
  have put := bounded.putBlock r.headerHash record.block
  intro slot above
  unfold storeRecord at above ⊢
  rw [getBlockBySlot_persistRecordFinality]
  apply put slot
  have latest : (r.persistRecordFinality (store.putBlock r.headerHash record.block) record).latestSlot =
      (store.putBlock r.headerHash record.block).latestSlot := by
    unfold persistRecordFinality persistBlockFinality
    dsimp only
    cases (r.sanitizeSyncFinality record).2 <;> rfl
  rw [← latest]
  exact above

theorem OnChain.extend (on : r.OnChain genesisRoot node) (record : BlockSyncRecord) (snapshot : ShardedState)
    {after : ChainNode} (top : r.landsOnTop node.store record.block = true)
    (store : after.store = r.storeRecord node.store record)
    (root : r.computeRoot after.state = record.block.header.stateRoot)
    (before : r.computeRoot snapshot = r.computeRoot node.state)
    (snapshots : after.engine.stateSnapshots =
      Function.update node.engine.stateSnapshots record.block.header.slot (some snapshot)) :
    r.OnChain genesisRoot after := by
  unfold landsOnTop at top
  rw [Bool.and_eq_true] at top
  have free := free_of_above_tip on.bounded on.keyed top.1
  have blocks := getBlockBySlot_storeRecord top.2
  have bounded := bounded_storeRecord (r := r) on.bounded record
  have own := blocks record.block.header.slot
  rw [if_pos rfl] at own
  have below : ∀ slot ≤ record.block.header.slot,
      (r.storeRecord node.store record).highestBelow slot = node.store.highestBelow slot := by
    intro slot lower
    apply highestBelow_congr
    intro other less
    rw [blocks, if_neg (by omega)]
  constructor
  · intro slot block found
    rw [store, blocks] at found
    split at found <;> rename_i same
    · cases found
      exact same.symm
    · exact on.keyed slot block found
  · rw [store]
    exact bounded
  · rw [store, root]
    unfold tipRoot
    rw [canonicalTip_eq_of_stored bounded own]
    · rfl
    · intro slot above
      rw [blocks, if_neg (by omega)]
      exact free slot (Nat.le_of_lt above)
  · intro slot other found
    rw [snapshots, Function.update_apply] at found
    rw [store]
    unfold rootBelow
    split at found <;> rename_i same
    · cases found
      rw [same, own, below _ (Nat.le_refl _), before, on.root, tipRoot,
        canonicalTip_eq_highestBelow on.bounded _ free]
      exact ⟨rfl, rfl⟩
    · obtain ⟨stored, atRoot⟩ := on.snapshots slot other found
      have lower : slot < record.block.header.slot := by
        by_contra high
        rw [free slot (by omega)] at stored
        cases stored
      rw [blocks, if_neg same, below slot (Nat.le_of_lt lower), atRoot]
      exact ⟨stored, rfl⟩

section Rollback

theorem bounded_deleteRange {store : BlockStore} (bounded : store.Bounded) (slots : List Nat) :
    (r.deleteRange store slots).2.Bounded := by
  induction slots generalizing store with
  | nil => exact bounded
  | cons slot slots ih =>
    have deleted := bounded.deleteBlockBySlot r.headerHash slot
    unfold deleteRange
    split <;> rename_i result <;> rw [result] at deleted
    · exact ih deleted
    · exact ih deleted

theorem mem_deleteRange (store : BlockStore) (slots : List Nat) (other : Nat) :
    other ∈ (r.deleteRange store slots).1 ↔ other ∈ slots ∧ (store.getBlockBySlot other).isSome = true := by
  induction slots generalizing store with
  | nil => simp [deleteRange]
  | cons slot slots ih =>
    have deleted := getBlockBySlot_deleteBlockBySlot r.headerHash store slot other
    have first : (store.deleteBlockBySlot r.headerHash slot).1 = store.getBlockBySlot slot := by
      unfold deleteBlockBySlot
      split <;> rename_i found
      · exact found.symm
      · exact found.symm
    unfold deleteRange
    split <;> rename_i result <;> rw [result] at deleted first
    · rw [List.mem_cons, ih, deleted, List.mem_cons]
      by_cases same : other = slot
      · simp [same, ← first]
      · simp [same]
    · rw [ih, deleted, List.mem_cons]
      by_cases same : other = slot
      · simp [same, ← first]
      · simp [same]

theorem resetSlots_snapshots (e : ConsensusEngine) (slots : List Nat) {slot : Nat} {snapshot : ShardedState}
    (found : (slots.foldl resetSlot e).stateSnapshots slot = some snapshot) :
    slot ∉ slots ∧ e.stateSnapshots slot = some snapshot := by
  induction slots generalizing e with
  | nil => exact ⟨List.not_mem_nil, found⟩
  | cons first slots ih =>
    obtain ⟨outside, before⟩ := ih (e.resetSlot first) found
    simp only [resetSlot, Function.update_apply] at before
    split at before <;> rename_i same
    · cases before
    · exact ⟨by simp [same, outside], before⟩

theorem dropBranch_fields (r : Rules) (node : ChainNode) (engine : ConsensusEngine) (state : ShardedState) (slot : Nat)
    (snapshotSlot : Option Nat) :
    let after := (r.dropBranch node engine state slot snapshotSlot).2
    after.state = state ∧ ∀ other snapshot, after.engine.stateSnapshots other = some snapshot →
      other ∉ (r.deleteRange node.store (range slot node.store.latestSlot)).1 ∧
        engine.stateSnapshots other = some snapshot := by
  have reset : ∀ other snapshot,
      (((r.deleteRange node.store (range slot node.store.latestSlot)).1.foldl resetSlot
        (engine.resetSlot slot)).stateSnapshots other = some snapshot) →
      other ∉ (r.deleteRange node.store (range slot node.store.latestSlot)).1 ∧
        engine.stateSnapshots other = some snapshot := by
    intro other snapshot found
    obtain ⟨outside, before⟩ := resetSlots_snapshots _ _ found
    exact ⟨outside, (resetSlots_snapshots engine [slot] before).2⟩
  unfold dropBranch
  dsimp only
  split <;> rename_i rebuilt
  · exact ⟨rfl, reset⟩
  · apply And.intro rfl
    intro other snapshot found
    rw [(syncEffectiveValidatorSet_base r _ _ _).1.snapshots, (rebuildFullValidatorSet_ok rebuilt).1.snapshots] at found
    exact reset other snapshot found

theorem OnChain.dropBranch (on : r.OnChain genesisRoot node) {engine : ConsensusEngine} {state : ShardedState}
    {slot : Nat} (snapshotSlot : Option Nat)
    (fewer : ∀ other snapshot, engine.stateSnapshots other = some snapshot →
      node.engine.stateSnapshots other = some snapshot)
    (root : r.computeRoot state = rootBelow genesisRoot node.store slot) :
    r.OnChain genesisRoot (r.dropBranch node engine state slot snapshotSlot).2 := by
  have store := dropBranch_store r node engine state slot snapshotSlot
  have fields := dropBranch_fields r node engine state slot snapshotSlot
  obtain ⟨isState, snapshots⟩ := fields
  have bounded := bounded_deleteRange (r := r) on.bounded (range slot node.store.latestSlot)
  have blocks : ∀ other, (r.deleteRange node.store (range slot node.store.latestSlot)).2.getBlockBySlot other =
      if slot ≤ other then none else node.store.getBlockBySlot other := by
    intro other
    rw [getBlockBySlot_deleteRange]
    simp only [mem_range]
    by_cases beyond : node.store.latestSlot < other
    · rw [on.bounded other beyond]
      simp
    · simp [Nat.le_of_not_lt beyond]
  have below : ∀ other ≤ slot, (r.deleteRange node.store
      (range slot node.store.latestSlot)).2.highestBelow other = node.store.highestBelow other := by
    intro other lower
    apply highestBelow_congr
    intro further less
    rw [blocks, if_neg (by omega)]
  constructor
  · intro other block found
    rw [store, blocks] at found
    split at found
    · cases found
    · exact on.keyed other block found
  · rw [store]
    exact bounded
  · rw [isState, root, store, tipRoot, canonicalTip_eq_highestBelow bounded slot]
    · rw [below slot (Nat.le_refl _)]
      rfl
    · intro other above
      rw [blocks, if_pos above]
  · intro other snapshot found
    obtain ⟨outside, taken⟩ := snapshots other snapshot found
    obtain ⟨stored, atRoot⟩ := on.snapshots other snapshot (fewer other snapshot taken)
    have lower : other < slot := by
      by_contra high
      apply outside
      rw [mem_deleteRange, mem_range]
      refine ⟨⟨by omega, ?_⟩, stored⟩
      by_contra beyond
      rw [on.bounded other (by omega)] at stored
      cases stored
    rw [store, blocks, if_neg (by omega), rootBelow, below other (Nat.le_of_lt lower)]
    exact ⟨stored, atRoot⟩

theorem rollbackSnapshot_fields (e : ConsensusEngine) (slot : Nat) (firstPresent : Option Nat) :
    (∀ other snapshot, (rollbackSnapshot e slot firstPresent).2.2.stateSnapshots other = some snapshot →
        e.stateSnapshots other = some snapshot) ∧
      ∀ snapshot, (rollbackSnapshot e slot firstPresent).2.1 = some snapshot →
        e.stateSnapshots slot = some snapshot ∨
          ∃ existing, firstPresent = some existing ∧ slot < existing ∧ e.stateSnapshots existing = some snapshot := by
  have taken : ∀ (e : ConsensusEngine) gone other snapshot, (e.takeSnapshot gone).2.stateSnapshots other = some snapshot →
      e.stateSnapshots other = some snapshot := by
    intro e gone other snapshot found
    simp only [takeSnapshot, Function.update_apply] at found
    split at found
    · cases found
    · exact found
  have first := taken e slot
  unfold rollbackSnapshot
  cases own : e.stateSnapshots slot with
  | some snapshot =>
    simp only [takeSnapshot, own]
    exact ⟨first, fun other same => .inl same⟩
  | none =>
    simp only [takeSnapshot, own]
    cases firstPresent with
    | none => exact ⟨first, fun snapshot missing => by cases missing⟩
    | some existing =>
      dsimp only
      split <;> rename_i above
      · constructor
        · intro other snapshot found
          exact first other snapshot (taken (e.takeSnapshot slot).2 existing other snapshot found)
        · intro snapshot found
          exact .inr ⟨existing, rfl, above, first existing snapshot found⟩
      · exact ⟨first, fun snapshot missing => by cases missing⟩

theorem OnChain.doRollback (on : r.OnChain genesisRoot node) {slot : Nat}
    (sound : r.rollsBackSoundly genesisRoot node slot = true) : r.OnChain genesisRoot (r.doRollback node slot).2 := by
  obtain ⟨fewer, restored⟩ := rollbackSnapshot_fields node.engine slot
    (node.store.firstPresentSlot slot node.store.latestSlot)
  unfold rollsBackSoundly at sound
  unfold Rules.doRollback
  dsimp only at sound ⊢
  split <;> rename_i taken
  · apply on.dropBranch _ fewer
    rcases restored _ taken with own | ⟨existing, isFirst, above, found⟩
    · exact (on.snapshots slot _ own).2
    · -- there is no block between the slot and the first one present
      rw [(on.snapshots existing _ found).2, rootBelow, rootBelow, highestBelow_eq (Nat.le_of_lt above)]
      exact free_below_firstPresentSlot isFirst
  · split <;> rename_i absent
    · apply on.transport
      · rfl
      · rfl
      · rfl
      · intro other snapshot found
        exact fewer other snapshot (resetSlots_snapshots _ [slot] found).2
    · split <;> rename_i empty
      · exact on.transport { node with engine := _ } rfl rfl rfl fewer
      · apply on.dropBranch _ fewer
        simpa [taken, absent, empty] using sound

end Rollback

section Events

section

variable (on : r.OnChain genesisRoot node)

include on

theorem OnChain.applyBlockRecord {record : BlockSyncRecord}
    (top : r.landsOnTop node.store record.block = true) :
    r.OnChain genesisRoot (r.applyBlockRecord node record).2 := by
  rcases applyBlockRecord_cases r node record with ⟨governance, result⟩ | ⟨_, engine, _, _, replayed, result⟩
  · rw [result]
    exact on.transport { node with governance := governance } rfl rfl rfl (fun _ _ found => found)
  obtain ⟨same, root⟩ := replayBlock_base r replayed
  rw [result]
  apply on.extend record node.state top
  · rfl
  · exact root
  · rfl
  · rw [(advanceToSyncedBlock_base _ _).1.snapshots, ← same.snapshots]
    rfl

theorem OnChain.persistRecordFinality (record : BlockSyncRecord) :
    r.OnChain genesisRoot { node with store := r.persistRecordFinality node.store record } := by
  apply on.transport
  · exact getBlockBySlot_persistRecordFinality r node.store record
  · dsimp only
    unfold Rules.persistRecordFinality persistBlockFinality
    dsimp only
    cases (r.sanitizeSyncFinality record).2 <;> rfl
  · rfl
  · exact fun _ _ found => found

theorem OnChain.ingest {call : IngestCall}
    (fits : ∀ n ∈ r.assessed call.currentSlot call.nowMs call.isSync call.record maxReorgAttempts node,
      r.decisionFits genesisRoot call.record n
        (r.assessInboundBlock n call.currentSlot call.nowMs call.isSync call.record.block) = true) :
    r.OnChain genesisRoot (r.ingest node call) := by
  revert on
  apply ingestLoop_induction r call.currentSlot call.nowMs call.isSync call.record
    (P := fun node result => r.OnChain genesisRoot node → r.OnChain genesisRoot result.2)
    ?_ ?_ maxReorgAttempts node fits
  · intro node result fit step on
    cases step with
    | apply decision =>
      rw [decision] at fit
      exact on.applyBlockRecord fit
    | known decision => exact on.persistRecordFinality call.record
    | leave => exact on
    | stuck rollbackSlot decision =>
      rw [decision] at fit
      exact on.doRollback fit
  · intro node rollbackSlot result fit decision later on
    rw [decision] at fit
    exact later (on.doRollback fit)

theorem OnChain.commitFinalized {finalized : FinalizedCommit}
    (fits : r.commitFits node finalized = true)
    (root : r.computeRoot finalized.postCommitState = finalized.block.header.stateRoot) :
    r.OnChain genesisRoot (r.commitFinalized node finalized).2 := by
  unfold commitFits at fits
  simp only [Bool.and_eq_true, decide_eq_true_eq] at fits
  obtain ⟨⟨top, before⟩, addable⟩ := fits
  unfold Rules.commitFinalized
  dsimp only
  split <;> rename_i rebuilt
  · unfold rebuildFullValidatorSet at rebuilt
    split at rebuilt <;> rename_i added
    · change addAll _ finalized.governance.approvedValidators = _ at added
      rw [added] at addable
      cases addable
    · cases rebuilt
  · apply on.extend ⟨finalized.block, some .soft, none⟩ finalized.snapshot top
    · rfl
    · exact root
    · exact before
    · change Function.update (r.syncEffectiveValidatorSet _ _ _).stateSnapshots _ _ = _
      rw [(syncEffectiveValidatorSet_base r _ _ _).1.snapshots, (rebuildFullValidatorSet_ok rebuilt).1.snapshots]

end

theorem startCommit_ok {prepared : PreparedBlockExecution} {block : Block} {finalized : FinalizedCommit}
    (started : r.startCommit node prepared block = .ok finalized) : finalized.block = block ∧ finalized.snapshot = node.state ∧
      r.computeRoot finalized.postCommitState = finalized.block.header.stateRoot := by
  unfold startCommit finalizeCommit at started
  dsimp only at started
  split at started
  · cases started
  split at started
  · cases started
  split at started
  · cases started
  split at started <;> rename_i root
  · cases started
  rw [Decidable.not_not] at root
  cases started
  exact ⟨rfl, rfl, root⟩

structure SameHistory (before after : ChainNode) : Prop where
  blocks : after.store.getBlockBySlot = before.store.getBlockBySlot
  latest : after.store.latestSlot = before.store.latestSlot
  snapshots : after.engine.stateSnapshots = before.engine.stateSnapshots
  state : after.state = before.state

theorem SameHistory.trans {first second third : ChainNode} (before : SameHistory first second)
    (after : SameHistory second third) : SameHistory first third :=
  ⟨after.blocks.trans before.blocks, after.latest.trans before.latest, after.snapshots.trans before.snapshots,
    after.state.trans before.state⟩

theorem OnChain.sameHistory (on : r.OnChain genesisRoot node) {after : ChainNode} (same : SameHistory node after) :
    r.OnChain genesisRoot after := by
  apply on.transport after same.blocks same.latest (by rw [same.state])
  intro slot snapshot found
  rwa [same.snapshots] at found

theorem SameHistory.rollsBackSoundly {after : ChainNode} (same : SameHistory node after) {slot : Nat}
    (sound : r.rollsBackSoundly genesisRoot node slot = true) : r.rollsBackSoundly genesisRoot after slot = true := by
  have first : after.store.firstPresentSlot slot after.store.latestSlot =
      node.store.firstPresentSlot slot node.store.latestSlot := by
    unfold firstPresentSlot
    rw [same.blocks, same.latest]
  have taken : ∀ firstPresent, (rollbackSnapshot after.engine slot firstPresent).2.1 =
      (rollbackSnapshot node.engine slot firstPresent).2.1 := by
    intro firstPresent
    unfold rollbackSnapshot takeSnapshot
    rw [same.snapshots]
    cases node.engine.stateSnapshots slot with
    | some snapshot => rfl
    | none =>
      cases firstPresent with
      | none => rfl
      | some existing =>
        dsimp only
        split <;> rfl
  have below : rootBelow genesisRoot after.store slot = rootBelow genesisRoot node.store slot := by
    unfold rootBelow
    rw [highestBelow_congr (fun other _ => congrFun same.blocks other)]
  unfold Rules.rollsBackSoundly hasTransactionsInRange at sound ⊢
  dsimp only at sound ⊢
  rwa [first, taken, below, same.state, same.blocks, same.latest]

theorem slash_nothing {penaltyOf : Nat → Nat} (free : penaltyOf 0 = 0) (derive : Derivations) (g : RuntimeGovernance)
    {id : AccountId} (nothing : nothingToSlash node id = true) :
    (g.slash (shardedOps derive) penaltyOf id node.state).2.2 = node.state := by
  unfold nothingToSlash at nothing
  unfold RuntimeGovernance.slash
  cases found : (shardedOps derive).get node.state id with
  | none => rfl
  | some account =>
    rw [show node.state.get id = some account from found, Option.all_some, decide_eq_true_eq] at nothing
    dsimp only
    rw [nothing, if_pos free]

theorem slashEquivocators_sameHistory (r : Rules) {equivocators : AccountId → Option (Hash × Hash)}
    {order : List AccountId} (fits : equivocatorsFit node equivocators order = true) (nowMs : Nat) :
    SameHistory node (r.slashEquivocators equivocators order nowMs node) := by
  have kept : ((order.filter (fun validator => (equivocators validator).isSome)).foldl r.slashOneEquivocator
      (node.governance, node.state)).2 = node.state := by
    apply List.foldlRecOn (motive := fun acc : RuntimeGovernance × ShardedState => acc.2 = node.state)
    · rfl
    · intro acc same validator member
      obtain ⟨listed, found⟩ := List.mem_filter.mp member
      have nothing := List.all_eq_true.mp fits validator listed
      rw [Option.isNone_eq_false_iff.mpr found, Bool.false_or] at nothing
      unfold slashOneEquivocator
      rw [same]
      exact slash_nothing rfl _ _ nothing
  unfold slashEquivocators
  dsimp only
  split
  · exact ⟨rfl, rfl, rfl, rfl⟩
  · exact ⟨rfl, rfl, (syncEffectiveValidatorSet_base r _ _ _).1.snapshots, kept⟩

theorem slashBuilderOf_sameHistory (r : Rules) (resync : Option Nat → Bool) {slot : Nat}
    (fits : builderFits node slot = true) (nowMs : Nat) : SameHistory node (r.slashBuilderOf resync node slot nowMs) := by
  unfold slashBuilderOf
  split <;> rename_i found
  · exact ⟨rfl, rfl, rfl, rfl⟩
  · unfold builderFits at fits
    rw [found, Option.all_some] at fits
    have kept := slash_nothing (show builderSlashAmount 0 = 0 from rfl) r.machine.derive node.governance fits
    split <;> rename_i slashed <;> rw [RuntimeGovernance.slashBuilder] at slashed <;> rw [slashed] at kept
    · exact ⟨rfl, rfl, rfl, kept⟩
    · refine ⟨rfl, rfl, ?_, kept⟩
      split
      · exact (syncEffectiveValidatorSet_base r _ _ _).1.snapshots
      · rfl

theorem recordFinality_sameHistory (node : ChainNode) (slot : Nat) : SameHistory node (recordFinality node slot) := by
  unfold recordFinality
  dsimp only
  split
  · exact ⟨rfl, rfl, rfl, rfl⟩
  split
  · split <;> exact ⟨rfl, rfl, rfl, rfl⟩
  · exact ⟨rfl, rfl, rfl, rfl⟩

theorem observeFinality_sameHistory (r : Rules) {slot : Nat} {order : List AccountId}
    (fits : observationFits node slot order = true) (nowMs : Nat) :
    SameHistory node (r.observeFinality node slot order nowMs) := by
  have recorded := recordFinality_sameHistory node slot
  unfold observeFinality
  split <;> rename_i turned
  · split <;> rename_i collector collected
    · apply recorded.trans (slashEquivocators_sameHistory r _ nowMs)
      have here : equivocatorsFit node collector.equivocators order = true := by
        simpa [observationFits, turned, collected] using fits
      unfold equivocatorsFit nothingToSlash at here ⊢
      rwa [recorded.state]
    · exact recorded
  · exact recorded

theorem OnChain.handleFinalityAction (on : r.OnChain genesisRoot node) {slot : Nat} {action : FinalityAction}
    {order : List AccountId} (fits : r.actionFits genesisRoot node slot action order = true) (nowMs : Nat) :
    r.OnChain genesisRoot (r.handleFinalityAction node slot action order nowMs) := by
  unfold actionFits at fits
  rw [Bool.and_eq_true] at fits
  have observed := observeFinality_sameHistory r fits.1 nowMs
  have slashed : builderFits node slot = true → ∀ resync, SameHistory node (r.slashBuilderOf resync
      (r.noteAbsentLeader (r.observeFinality node slot order nowMs) slot) slot nowMs) := by
    intro builder resync
    have absent : SameHistory node (r.noteAbsentLeader (r.observeFinality node slot order nowMs) slot) :=
      ⟨observed.blocks, observed.latest, observed.snapshots, observed.state⟩
    apply absent.trans (slashBuilderOf_sameHistory r resync _ nowMs)
    unfold builderFits nothingToSlash
    rw [absent.blocks, absent.state]
    exact builder
  cases action with
  | none => exact on.sameHistory observed
  | slashBuilder => exact on.sameHistory (slashed fits.2 _)
  | requeueTxs => exact (on.sameHistory observed).doRollback (observed.rollsBackSoundly fits.2)
  | slashAndRequeue =>
    have both := fits.2
    rw [Bool.and_eq_true] at both
    have same := slashed both.1 (fun _ => true)
    exact (on.sameHistory same).doRollback (same.rollsBackSoundly both.2)

theorem RunInv.handle {n : RunningNode} (inv : r.RunInv genesisRoot n) (event : NodeEvent)
    (fits : r.eventFits genesisRoot n event = true) : r.RunInv genesisRoot (r.handle n event) := by
  cases event with
  | consensus call => exact ⟨inv.chain.sameHistory ⟨rfl, rfl, rfl, rfl⟩, inv.pending⟩
  | checkEquivocators order nowMs =>
    exact ⟨inv.chain.sameHistory (slashEquivocators_sameHistory r fits nowMs), inv.pending⟩
  | startCommit prepared block =>
    refine ⟨inv.chain, ?_⟩
    intro finalized started
    change (r.startCommit n.chain prepared block).toOption = some finalized at started
    cases result : r.startCommit n.chain prepared block with
    | error error =>
      rw [result] at started
      cases started
    | ok done =>
      rw [result] at started
      cases started
      exact (startCommit_ok result).2.2
  | commitFinalized =>
    unfold Rules.handle
    cases pending : n.pending with
    | none => exact inv
    | some finalized =>
      refine ⟨inv.chain.commitFinalized ?_ (inv.pending finalized pending), fun other missing => by cases missing⟩
      simpa [eventFits, pending] using fits
  | blockRecord call =>
    refine ⟨inv.chain.ingest ?_, ?_⟩
    · simpa [eventFits] using fits
    · intro finalized pending
      simp only [Rules.handle] at pending
      split at pending
      · cases pending
      · exact inv.pending finalized pending
  | finality slot state action order nowMs =>
    have moved : r.OnChain genesisRoot (withFinality n.chain slot state) :=
      inv.chain.sameHistory ⟨rfl, rfl, rfl, rfl⟩
    exact ⟨moved.handleFinalityAction fits nowMs, inv.pending⟩
  | cleanup currentSlot =>
    refine ⟨?_, inv.pending⟩
    apply inv.chain.transport
    · rfl
    · rfl
    · rfl
    · intro slot snapshot found
      simp only [Rules.handle, cleanupFinalized] at found
      split at found
      · exact found
      · cases found

theorem RunInv.fresh {maxBlocks : Option Nat} {n : RunningNode} (root : r.computeRoot n.chain.state = genesisRoot)
    (store : n.chain.store = .new maxBlocks) (snapshots : ∀ slot, n.chain.engine.stateSnapshots slot = none)
    (pending : n.pending = none) : r.RunInv genesisRoot n where
  chain :=
    { keyed := by
        intro slot block found
        rw [store] at found
        simp [getBlockBySlot, new] at found
      bounded := by
        intro slot _
        rw [store]
        simp [getBlockBySlot, new]
      root := by
        rw [root, store]
        rfl
      snapshots := by
        intro slot snapshot found
        rw [snapshots slot] at found
        cases found }
  pending finalized found := by
    rw [pending] at found
    cases found

end Events

end Rules

/-- In every run whose events keep the state with the chain, the state has the root of the canonical tip, so nodes with
the same tip have the same root. -/
theorem state_follows_chain (r : Rules) (genesisRoot : Hash) (start : RunningNode) (events : List NodeEvent)
    (inv : r.RunInv genesisRoot start)
    (fits : Meets r.handle (fun n event => r.eventFits genesisRoot n event = true) start events) :
    let final := run r.handle start events
    r.computeRoot final.chain.state = tipRoot genesisRoot final.chain.store ∧
      ∀ (other : RunningNode) (others : List NodeEvent), r.RunInv genesisRoot other →
        Meets r.handle (fun n event => r.eventFits genesisRoot n event = true) other others →
        (run r.handle other others).chain.store.canonicalTip = final.chain.store.canonicalTip →
        r.computeRoot (run r.handle other others).chain.state = r.computeRoot final.chain.state := by
  have follows : ∀ (n : RunningNode) (es : List NodeEvent), r.RunInv genesisRoot n →
      Meets r.handle (fun n event => r.eventFits genesisRoot n event = true) n es →
      r.computeRoot (run r.handle n es).chain.state = tipRoot genesisRoot (run r.handle n es).chain.store := by
    intro n es before meets
    have after : r.RunInv genesisRoot (run r.handle n es) :=
      run_invariant (fun n event _ inv fit => inv.handle event fit) before meets
    exact after.chain.root
  have own := follows start events inv fits
  apply And.intro own
  intro other others inv' fits' sameTip
  rw [follows other others inv' fits', own, tipRoot, tipRoot, sameTip]

namespace SmallChain

def genesisRoot : Hash := computeRoot (.fromStateTree tree)

def freshRun : RunningNode := ⟨freshNode none, none⟩

def quietRun : List NodeEvent :=
  [.blockRecord softCall,
    .startCommit (rules.prepareCommit evidenceNode 2 approvalRecord.block.transactions) approvalRecord.block,
    .consensus (.onPrevote 1 0 9 (account 2) 1),
    .checkEquivocators [account 2] 0,
    .commitFinalized,
    .finality 2 .rolledBack .requeueTxs [] 0]

def equivocation : List NodeEvent :=
  [.consensus (.onPrevote 1 0 9 (account 2) 1), .consensus (.onPrevote 1 0 8 (account 2) 1),
    .checkEquivocators [account 2] 0]

end SmallChain

open SmallChain

theorem state_follows_chain_quietRun :
    let final := run rules.handle freshRun quietRun
    final.chain.store.canonicalTip.map (·.header.slot) = some 1 ∧
      rules.computeRoot final.chain.state = tipRoot genesisRoot final.chain.store := by
  have inv : rules.RunInv genesisRoot freshRun :=
    Rules.RunInv.fresh rfl rfl (fun _ => rfl) rfl
  exact ⟨by decide, (state_follows_chain rules genesisRoot freshRun quietRun
    inv (by decide)).1⟩

/-- An equivocator is slashed in the live state of the node that saw both votes: of two nodes without a block, it has
another root than the genesis root. -/
theorem equivocator_slashed_off_chain :
    let final := run rules.handle freshRun equivocation
    final.chain.store.canonicalTip = none ∧ freshRun.chain.store.canonicalTip = none ∧
      rules.computeRoot freshRun.chain.state = genesisRoot ∧
      rules.computeRoot final.chain.state ≠ genesisRoot := by
  decide

end AceChain.Node
