import AceChain.Lib.Maps
import AceChain.Node.StateRoot
import AceChain.State.BlockRemoval

namespace AceChain.Node

open AceChain.Runtime Consensus Governance State BlockStore ConsensusEngine Lib Function

/-- Blocks that are applied, by sync or by a commit that is finalised at once, and the clean-up between them. -/
inductive ChainOp where
  | sync (record : BlockSyncRecord)
  | commit (prepared : PreparedBlockExecution) (block : Block)
  | cleanup (currentSlot : Nat)

def ChainOp.block : ChainOp → Option Block
  | .sync record => some record.block
  | .commit _ block => some block
  | .cleanup _ => none

structure Restored (point after : ChainNode) : Prop where
  state : after.state = point.state
  governance : after.governance.state = point.governance.state
  fullValidatorSet : after.engine.fullValidatorSet = point.engine.fullValidatorSet
  store : after.store.Same point.store

/-- The state snapshot of the first block to be removed is still held, or the state is the earlier one anyway; and so for
the governance. -/
def Recoverable (start : Nat) (point node : ChainNode) : Prop :=
  let first := (node.store.firstPresentSlot start node.store.latestSlot).getD start
  ((node.engine.stateSnapshots first).isSome = true ∨ node.state = point.state) ∧
    (node.governance.snapshots[first]?.isSome = true ∨ node.governance.state = point.governance.state)

namespace Rules

variable (r : Rules)

def perform (node : ChainNode) : ChainOp → Bool × ChainNode
  | .sync record => r.applyBlockRecord node record
  | .commit prepared block =>
    match r.startCommit node prepared block with
    | .error _ => (false, node)
    | .ok finalized => r.commitFinalized node finalized
  | .cleanup currentSlot => (true, { node with engine := node.engine.cleanupFinalized currentSlot })

def chainStep (node : ChainNode) (op : ChainOp) : ChainNode := (r.perform node op).2

structure Lands (node : ChainNode) (op : ChainOp) : Prop where
  accepted : (r.perform node op).1 = true
  fits : ∀ block, op.block = some block → node.store.Fits r.headerHash block

/-- A node in order, with state snapshots of stored blocks only. -/
structure Sane (node : ChainNode) : Prop where
  tidy : node.store.Tidy r.headerHash
  coherent : node.Coherent
  snapshots : ∀ slot, (node.engine.stateSnapshots slot).isSome = true → (node.store.getBlockBySlot slot).isSome = true

/-- What both paths do with a block they accept. A commit clears the governance snapshots. -/
structure Applied (node : ChainNode) (block : Block) (after : ChainNode) : Prop where
  sane : r.Sane after
  adds : Adds block node.store after.store
  genesis : after.engine.genesisValidatorSet = node.engine.genesisValidatorSet
  snapshots : after.engine.stateSnapshots = update node.engine.stateSnapshots block.header.slot (some node.state)
  governance : ∀ slot snapshot, after.governance.snapshots[slot]? = some snapshot →
    if slot = block.header.slot then snapshot = node.governance.state else node.governance.snapshots[slot]? = some snapshot

section

variable {r} {node after point : ChainNode} {block : Block} {record : BlockSyncRecord}

theorem sanitizeSyncFinality_slot {cert : FinalityCertificate} (kept : (r.sanitizeSyncFinality record).2 = some cert) :
    cert.slot = record.block.header.slot := by
  have verified : ∀ c, record.finalityCert.filter (fun cert => r.verifyFinalityCertificateForBlock cert record.block) =
      some c →
      c.slot = record.block.header.slot ∧ record.finalityCert = some c := by
    intro c found
    obtain ⟨claimed, passed⟩ := Option.filter_eq_some_iff.mp found
    unfold verifyFinalityCertificateForBlock at passed
    simp only [Bool.and_eq_true, decide_eq_true_eq] at passed
    exact ⟨passed.1.1, claimed⟩
  unfold sanitizeSyncFinality at kept
  dsimp only at kept
  split at kept
  · split at kept <;> rename_i valid
    · obtain ⟨c, found⟩ := Option.isSome_iff_exists.mp valid
      obtain ⟨slot, claimed⟩ := verified c found
      rw [claimed] at kept
      cases kept
      exact slot
    · cases kept
  · exact (verified cert kept).1

theorem storeRecord_adds (record : BlockSyncRecord) {store : BlockStore} (fits : store.Fits r.headerHash record.block)
    (tidy : store.Tidy r.headerHash) :
    Adds record.block store (r.storeRecord store record) ∧ (r.storeRecord store record).Tidy r.headerHash := by
  have put := fits.tidy_putBlock tidy
  have blocks := getBlockBySlot_putBlock r.headerHash store record.block
  rw [fits.kept] at blocks
  have written : ∃ records : Nat → Option FinalityState × Option FinalityCertificate, r.storeRecord store record =
      { store.putBlock r.headerHash record.block with
      finalityStates := fun slot => (records slot).1
      finalityCerts := fun slot => (records slot).2 } ∧
      ∀ slot, slot ≠ record.block.header.slot → records slot = store.finalityRecord slot := by
    refine ⟨(r.storeRecord store record).finalityRecord, ?_, fun slot other => ?_⟩
    · unfold storeRecord persistRecordFinality persistBlockFinality
      dsimp only
      cases (r.sanitizeSyncFinality record).2 <;> rfl
    · have same : (store.putBlock r.headerHash record.block).finalityRecord = store.finalityRecord := by
        rw [fits.putBlock_eq]
        rfl
      rw [← same]
      unfold storeRecord persistRecordFinality persistBlockFinality
      dsimp only
      cases kept : (r.sanitizeSyncFinality record).2 with
      | none => simp [finalityRecord, setFinalityState, other]
      | some cert =>
        have slotOf := sanitizeSyncFinality_slot kept
        simp [finalityRecord, setFinalityState, putFinalityCert, slotOf, other]
  obtain ⟨records, same, others⟩ := written
  rw [same]
  refine ⟨⟨blocks, others, ?_, ?_⟩, ⟨put.indexed.of_same rfl rfl, put.listed, put.bounded, put.latest, put.ordered⟩⟩
  · rw [fits.putBlock_eq]
  · rw [fits.putBlock_eq]

theorem replayBlock_governance {governance : RuntimeGovernance} {engine : ConsensusEngine} {state : ShardedState}
    {receipts : List RpcReceipt} (replayed : r.replayBlock node block = .ok (governance, engine, state, receipts)) :
    governance.snapshots = (node.governance.snapshot block.header.slot).snapshots ∧
      addAll node.engine.genesisValidatorSet governance.approvedValidators = .ok engine.fullValidatorSet := by
  cases settled : r.syncSettlement node block with
  | none =>
    obtain ⟨rolledBack, result, -⟩ := replayBlock_of_unsettled settled
    rw [result] at replayed
    cases replayed
  | some settlement =>
    rw [replayBlock_of_settled settled] at replayed
    dsimp only at replayed
    split at replayed <;> rename_i rebuilt
    · cases replayed
    · cases replayed
      rw [(syncEffectiveValidatorSet_base r _ _ _).2]
      refine ⟨?_, (rebuildFullValidatorSet_ok rebuilt).2⟩
      apply processBlockValidatorAdmissions_invariant
        (P := fun g _ => g.snapshots = (node.governance.snapshot block.header.slot).snapshots)
      · intro g fullSet sender v g' fullSet' admitted same
        rw [admitted.written]
        exact same
      · exact (official_syncSettlement settled).snapshots

theorem snapshots_stored {snapshots : Nat → Option ShardedState} (adds : Adds block node.store after.store)
    (sane : r.Sane node) (updated : snapshots = update node.engine.stateSnapshots block.header.slot (some node.state))
    (slot : Nat) (held : (snapshots slot).isSome = true) : (after.store.getBlockBySlot slot).isSome = true := by
  rw [adds.blocks]
  by_cases own : slot = block.header.slot
  · rw [if_pos own]
    rfl
  · rw [if_neg own]
    rw [updated, update_of_ne own] at held
    exact sane.snapshots slot held

theorem applied_sync (sane : r.Sane node) (fits : node.store.Fits r.headerHash record.block)
    (accepted : (r.applyBlockRecord node record).1 = true) :
    r.Applied node record.block (r.applyBlockRecord node record).2 := by
  obtain ⟨adds, tidy⟩ := storeRecord_adds record fits sane.tidy
  rcases applyBlockRecord_cases r node record with ⟨governance, result⟩ |
    ⟨governance, engine, state, receipts, replayed, result⟩
  · rw [result] at accepted
    cases accepted
  obtain ⟨base, -⟩ := replayBlock_base r replayed
  obtain ⟨snapshots, rebuilt⟩ := replayBlock_governance replayed
  obtain ⟨advanced, full⟩ := advanceToSyncedBlock_base
    { engine.storeSnapshot record.block.header.slot node.state with lastBlockHash := r.blockHash record.block }
    record.block.header.slot
  have genesis := advanced.genesis.trans base.genesis
  have held : (engine.storeSnapshot record.block.header.slot node.state).stateSnapshots =
      update node.engine.stateSnapshots record.block.header.slot (some node.state) := by
    rw [← base.snapshots]
    rfl
  have updated := advanced.snapshots.trans held
  rw [result]
  refine ⟨⟨tidy, ?_, snapshots_stored adds sane updated⟩, adds, genesis, updated, ?_⟩
  · unfold ChainNode.Coherent
    rw [genesis, full]
    exact rebuilt
  · intro slot snapshot found
    rw [snapshots] at found
    change (node.governance.snapshots.insert _ _)[slot]? = _ at found
    rw [lookup_insert] at found
    split at found <;> rename_i own
    · rw [if_pos own]
      exact (Option.some.inj found).symm
    · rw [if_neg own]
      exact found

theorem applied_commit {finalized : FinalizedCommit} (sane : r.Sane node) (fits : node.store.Fits r.headerHash finalized.block)
    (snapshot : finalized.snapshot = node.state) (accepted : (r.commitFinalized node finalized).1 = true) :
    r.Applied node finalized.block (r.commitFinalized node finalized).2 := by
  obtain ⟨adds, tidy⟩ := storeRecord_adds ⟨finalized.block, some .soft, none⟩ fits sane.tidy
  unfold commitFinalized at accepted ⊢
  dsimp only at accepted ⊢
  split at accepted <;> rename_i engine rebuilt
  · cases accepted
  · obtain ⟨base, full⟩ := rebuildFullValidatorSet_ok rebuilt
    obtain ⟨synced, same⟩ := syncEffectiveValidatorSet_base r engine (node.governance.replaceFromPreview finalized.governance)
      (r.slotTimeMs finalized.block.header.slot)
    have genesis := synced.genesis.trans base.genesis
    have updated : ((r.syncEffectiveValidatorSet engine (node.governance.replaceFromPreview finalized.governance)
        (r.slotTimeMs finalized.block.header.slot)).storeSnapshot finalized.block.header.slot
          finalized.snapshot).stateSnapshots =
        update node.engine.stateSnapshots finalized.block.header.slot (some node.state) := by
      rw [← snapshot, ← base.snapshots, ← synced.snapshots]
      rfl
    refine ⟨⟨tidy, ?_, snapshots_stored adds sane updated⟩, adds, genesis, updated, ?_⟩
    · unfold ChainNode.Coherent
      dsimp only [storeSnapshot]
      rw [genesis, same]
      exact full
    · intro slot held found
      simp [RuntimeGovernance.replaceFromPreview] at found

variable {op : ChainOp}

theorem Lands.applied (lands : r.Lands node op) (sane : r.Sane node) (carried : op.block = some block) :
    r.Applied node block (r.chainStep node op) := by
  have fits := lands.fits block carried
  have accepted := lands.accepted
  unfold chainStep
  cases op with
  | sync record =>
    cases carried
    exact applied_sync sane fits accepted
  | commit prepared candidate =>
    injection carried with same
    subst same
    unfold perform at accepted ⊢
    dsimp only at accepted ⊢
    split at accepted
    · cases accepted
    rename_i finalized started
    obtain ⟨rfl, snapshot, -⟩ := startCommit_ok started
    exact applied_commit sane fits snapshot accepted
  | cleanup currentSlot => cases carried

variable {slot : Nat}

theorem cleanupFinalized_snapshots {e : ConsensusEngine} {currentSlot : Nat} {snapshot : ShardedState}
    (held : (e.cleanupFinalized currentSlot).stateSnapshots slot = some snapshot) : e.stateSnapshots slot = some snapshot := by
  unfold cleanupFinalized at held
  dsimp only at held
  split at held
  · exact held
  · cases held

theorem Sane.cleanup (sane : r.Sane node) (currentSlot : Nat) :
    r.Sane { node with engine := node.engine.cleanupFinalized currentSlot } where
  tidy := sane.tidy
  coherent := sane.coherent
  snapshots slot held := by
    obtain ⟨snapshot, found⟩ := Option.isSome_iff_exists.mp held
    exact sane.snapshots slot (Option.isSome_iff_exists.mpr ⟨snapshot, cleanupFinalized_snapshots found⟩)

theorem Lands.sane (lands : r.Lands node op) (sane : r.Sane node) : r.Sane (r.chainStep node op) := by
  cases carried : op.block with
  | some block => exact (lands.applied sane carried).sane
  | none =>
    cases op with
    | sync record => cases carried
    | commit prepared candidate => cases carried
    | cleanup currentSlot => exact sane.cleanup currentSlot

/-- A node after `point` that has added blocks from `start` on. Without any, nothing has changed; the snapshots of the
first one, as far as they are held, are those of `point`. -/
structure Since (r : Rules) (start : Nat) (point node : ChainNode) : Prop where
  sane : r.Sane node
  store : Extends start point.store node.store
  genesis : node.engine.genesisValidatorSet = point.engine.genesisValidatorSet
  quiet : (∀ slot, start ≤ slot → node.store.getBlockBySlot slot = none) →
    node.state = point.state ∧ node.governance.state = point.governance.state ∧
      node.engine.fullValidatorSet = point.engine.fullValidatorSet
  first : ∀ slot, start ≤ slot → (node.store.getBlockBySlot slot).isSome = true →
    (∀ earlier, start ≤ earlier → earlier < slot → node.store.getBlockBySlot earlier = none) →
    (∀ snapshot, node.engine.stateSnapshots slot = some snapshot → snapshot = point.state) ∧
      ∀ snapshot, node.governance.snapshots[slot]? = some snapshot → snapshot = point.governance.state

variable {start : Nat}

theorem Since.refl (sane : r.Sane node) (free : ∀ slot, start ≤ slot → node.store.getBlockBySlot slot = none) :
    r.Since start node node where
  sane := sane
  store := .refl sane.tidy free
  genesis := rfl
  quiet _ := ⟨rfl, rfl, rfl⟩
  first slot late stored := by
    rw [free slot late] at stored
    cases stored

theorem Since.applied (since : r.Since start point node) (late : start ≤ block.header.slot)
    (fits : node.store.Fits r.headerHash block) (applied : r.Applied node block after) : r.Since start point after where
  sane := applied.sane
  store := since.store.add late fits applied.adds
  genesis := applied.genesis.trans since.genesis
  quiet none := by
    have own := none _ late
    rw [applied.adds.blocks, if_pos rfl] at own
    cases own
  first slot reach stored before := by
    have earlier : ∀ k, start ≤ k → k < slot → node.store.getBlockBySlot k = none := by
      intro k reach below
      have missing := before k reach below
      rw [applied.adds.blocks] at missing
      split at missing
      · cases missing
      · exact missing
    rw [applied.snapshots]
    by_cases own : slot = block.header.slot
    · -- the first block of all: what its snapshots hold is the node before it, where nothing had changed
      have none : ∀ k, start ≤ k → node.store.getBlockBySlot k = none := by
        intro k reach
        rcases Nat.lt_or_ge k slot with below | above
        · exact earlier k reach below
        · exact fits.above k (own ▸ above)
      obtain ⟨state, governance, -⟩ := since.quiet none
      subst own
      rw [update_self]
      refine ⟨fun snapshot held => ?_, fun snapshot held => ?_⟩
      · rw [← state]
        exact (Option.some.inj held).symm
      · have same := applied.governance _ snapshot held
        rw [if_pos rfl] at same
        exact same.trans governance
    · rw [applied.adds.blocks, if_neg own] at stored
      rw [update_of_ne own]
      obtain ⟨states, governances⟩ := since.first slot reach stored earlier
      refine ⟨states, fun snapshot held => ?_⟩
      have same := applied.governance slot snapshot held
      rw [if_neg own] at same
      exact governances snapshot same

theorem Since.cleanup (since : r.Since start point node) (currentSlot : Nat) :
    r.Since start point { node with engine := node.engine.cleanupFinalized currentSlot } where
  sane := since.sane.cleanup currentSlot
  store := since.store
  genesis := since.genesis
  quiet := since.quiet
  first slot reach stored before := by
    obtain ⟨states, governances⟩ := since.first slot reach stored before
    exact ⟨fun snapshot held => states snapshot (cleanupFinalized_snapshots held), governances⟩

theorem Since.step (since : r.Since start point node) (lands : r.Lands node op)
    (late : ∀ block, op.block = some block → start ≤ block.header.slot) : r.Since start point (r.chainStep node op) := by
  cases carried : op.block with
  | some block => exact since.applied (late block carried) (lands.fits block carried) (lands.applied since.sane carried)
  | none =>
    cases op with
    | sync record => cases carried
    | commit prepared candidate => cases carried
    | cleanup currentSlot => exact since.cleanup currentSlot

theorem deleteRange_removed {store : BlockStore} (tidy : store.Tidy r.headerHash) (slots : List Nat) :
    Removed slots store (r.deleteRange store slots).2 ∧ (r.deleteRange store slots).2.Tidy r.headerHash := by
  induction slots generalizing store with
  | nil => exact ⟨.nil store, tidy⟩
  | cons slot slots ih =>
    obtain ⟨first, tidy⟩ := tidy.deleteBlockBySlot slot
    obtain ⟨rest, tidy⟩ := ih tidy
    have next : (r.deleteRange store (slot :: slots)).2 =
        (r.deleteRange (store.deleteBlockBySlot r.headerHash slot).2 slots).2 := by
      rw [deleteRange]
      split <;> rename_i result <;> rw [result]
    rw [next]
    exact ⟨first.cons rest, tidy⟩

theorem rollbackSnapshot_present {e : ConsensusEngine} {first : Nat} (le : slot ≤ first)
    (own : (e.stateSnapshots slot).isSome = true → first = slot) :
    (rollbackSnapshot e slot (some first)).1.getD slot = first ∧
      (rollbackSnapshot e slot (some first)).2.1 = e.stateSnapshots first ∧
      (rollbackSnapshot e slot (some first)).2.2.genesisValidatorSet = e.genesisValidatorSet := by
  unfold rollbackSnapshot takeSnapshot
  cases held : e.stateSnapshots slot with
  | some snapshot =>
    have same : first = slot := own (by rw [held]; rfl)
    subst same
    exact ⟨rfl, held.symm, rfl⟩
  | none =>
    dsimp only
    by_cases later : slot < first
    · rw [if_pos later, update_of_ne (by omega)]
      exact ⟨rfl, rfl, rfl⟩
    · have same : first = slot := by omega
      rw [if_neg later, same]
      exact ⟨rfl, held.symm, rfl⟩

theorem dropBranch_accepted {engine : ConsensusEngine} {state : ShardedState} {snapshotSlot : Option Nat}
    (accepted : (r.dropBranch node engine state slot snapshotSlot).1 = true) :
    (r.dropBranch node engine state slot snapshotSlot).2.state = state ∧
      (r.dropBranch node engine state slot snapshotSlot).2.governance = node.governance.rollback (snapshotSlot.getD slot) ∧
      addAll engine.genesisValidatorSet
        (node.governance.rollback (snapshotSlot.getD slot)).approvedValidators =
          .ok (r.dropBranch node engine state slot snapshotSlot).2.engine.fullValidatorSet := by
  unfold dropBranch at accepted ⊢
  dsimp only at accepted ⊢
  split at accepted <;> rename_i rebuilt
  · cases accepted
  · refine ⟨rfl, rfl, ?_⟩
    obtain ⟨-, full⟩ := rebuildFullValidatorSet_ok rebuilt
    rw [(foldl_resetSlot_genesis _ _).2] at full
    rw [(syncEffectiveValidatorSet_base r _ _ _).2]
    exact full

theorem Sane.doRollback_present (sane : r.Sane node) {first : Nat}
    (present : node.store.firstPresentSlot slot node.store.latestSlot = some first)
    (accepted : (r.doRollback node slot).1 = true) :
    (r.doRollback node slot).2.state = (node.engine.stateSnapshots first).getD node.state ∧
      (r.doRollback node slot).2.governance = node.governance.rollback first ∧
      (r.doRollback node slot).2.store = (r.deleteRange node.store (range slot node.store.latestSlot)).2 ∧
      addAll node.engine.genesisValidatorSet (node.governance.rollback first).approvedValidators =
        .ok (r.doRollback node slot).2.engine.fullValidatorSet := by
  have le : slot ≤ first := (mem_range.mp (List.mem_of_find?_eq_some present)).1
  have own : (node.engine.stateSnapshots slot).isSome = true → first = slot := by
    intro held
    by_contra other
    have stored := sane.snapshots slot held
    rw [free_below_firstPresentSlot present slot (Nat.le_refl _) (by omega)] at stored
    cases stored
  have dropped : ∃ engine key, engine.genesisValidatorSet = node.engine.genesisValidatorSet ∧ Option.getD key slot = first ∧
      r.doRollback node slot = r.dropBranch node engine ((node.engine.stateSnapshots first).getD node.state) slot key := by
    obtain ⟨key, state, genesis⟩ := rollbackSnapshot_present le own
    refine ⟨_, _, genesis, key, ?_⟩
    unfold doRollback at accepted ⊢
    dsimp only at accepted ⊢
    rw [present] at accepted ⊢
    rw [state] at accepted ⊢
    cases held : node.engine.stateSnapshots first with
    | some snapshot => rfl
    | none =>
      rw [held] at accepted
      dsimp only [Option.isNone_some] at accepted ⊢
      rw [if_neg Bool.false_ne_true] at accepted ⊢
      split at accepted <;> rename_i spent
      · cases accepted
      · rw [if_neg spent]
        rfl
  obtain ⟨engine, key, genesis, same, result⟩ := dropped
  rw [result] at accepted ⊢
  obtain ⟨state, governance, full⟩ := dropBranch_accepted accepted
  rw [same] at governance full
  rw [genesis] at full
  exact ⟨state, governance, dropBranch_store r _ _ _ _ _, full⟩

theorem Sane.doRollback_absent (sane : r.Sane node)
    (absent : node.store.firstPresentSlot slot node.store.latestSlot = none) :
    ∃ engine, engine.fullValidatorSet = node.engine.fullValidatorSet ∧
      r.doRollback node slot = (true, { node with engine := engine }) := by
  have free : node.engine.stateSnapshots slot = none := by
    by_contra held
    have stored := sane.snapshots slot (Option.isSome_iff_ne_none.mpr held)
    have missing := List.find?_eq_none.mp absent slot
    by_cases low : slot ≤ node.store.latestSlot
    · exact missing (mem_range.mpr ⟨Nat.le_refl _, low⟩) stored
    · rw [sane.tidy.bounded slot (by omega)] at stored
      cases stored
  unfold doRollback rollbackSnapshot takeSnapshot
  dsimp only
  rw [absent, free]
  exact ⟨(node.engine.takeSnapshot slot).2.resetSlot slot, rfl, rfl⟩

theorem Since.restored_iff (since : r.Since start point node) (coherent : point.Coherent)
    (tidy : point.store.Tidy r.headerHash) (accepted : (r.doRollback node start).1 = true) :
    Restored point (r.doRollback node start).2 ↔ Recoverable start point node := by
  unfold Recoverable
  dsimp only
  cases present : node.store.firstPresentSlot start node.store.latestSlot with
  | none =>
    obtain ⟨engine, full, result⟩ := since.sane.doRollback_absent present
    have none : ∀ slot, start ≤ slot → node.store.getBlockBySlot slot = none := by
      intro slot reach
      by_cases low : slot ≤ node.store.latestSlot
      · simpa using List.find?_eq_none.mp present slot (mem_range.mpr ⟨reach, low⟩)
      · exact since.sane.tidy.bounded slot (by omega)
    obtain ⟨state, governance, same⟩ := since.quiet none
    have removed : Removed (range start node.store.latestSlot) node.store node.store :=
      since.sane.tidy.removed_of_free fun slot member => none slot (mem_range.mp member).1
    rw [result]
    refine ⟨fun _ => ⟨Or.inr state, Or.inr governance⟩, fun _ => ⟨state, governance, full.trans same, ?_⟩⟩
    exact since.store.same_of_removed tidy since.sane.tidy (fun slot => mem_range) removed since.sane.tidy
  | some first =>
    obtain ⟨state, governance, store, full⟩ := since.sane.doRollback_present present accepted
    have member := mem_range.mp (List.mem_of_find?_eq_some present)
    have stored := List.find?_some present
    obtain ⟨states, governances⟩ := since.first first member.1 stored (free_below_firstPresentSlot present)
    obtain ⟨removed, tidy'⟩ := deleteRange_removed since.sane.tidy (range start node.store.latestSlot)
    have same := since.store.same_of_removed tidy since.sane.tidy (fun slot => mem_range) removed tidy'
    have returned : (node.engine.stateSnapshots first).getD node.state = point.state ↔
        (node.engine.stateSnapshots first).isSome = true ∨ node.state = point.state := by
      cases held : node.engine.stateSnapshots first with
      | some snapshot => simp [states snapshot held]
      | none => simp
    have governed : (node.governance.rollback first).state = point.governance.state ↔
        node.governance.snapshots[first]?.isSome = true ∨ node.governance.state = point.governance.state := by
      change node.governance.snapshots[first]?.getD node.governance.state = _ ↔ _
      cases held : node.governance.snapshots[first]? with
      | some snapshot => simp [governances snapshot held]
      | none => simp
    rw [Option.getD_some, ← returned, ← governed]
    constructor
    · intro restored
      exact ⟨state.symm.trans restored.state, (congrArg _ governance).symm.trans restored.governance⟩
    · rintro ⟨sameState, sameGovernance⟩
      refine ⟨state.trans sameState, (congrArg _ governance).trans sameGovernance, ?_, store ▸ same⟩
      unfold RuntimeGovernance.approvedValidators at full
      rw [since.genesis, sameGovernance] at full
      exact Except.ok.inj (full.symm.trans coherent)

end

/-- Blocks from `start` on are applied to the node `point` and then rolled back. -/
theorem rollback_restores_iff (node : ChainNode) (sane : r.Sane node) (before after : List ChainOp) (start : Nat)
    (lands : Meets r.chainStep r.Lands node (before ++ after))
    (free : ∀ slot, start ≤ slot → (run r.chainStep node before).store.getBlockBySlot slot = none)
    (late : ∀ op ∈ after, ∀ block, op.block = some block → start ≤ block.header.slot)
    (accepted : (r.doRollback (run r.chainStep node (before ++ after)) start).1 = true) :
    Restored (run r.chainStep node before) (r.doRollback (run r.chainStep node (before ++ after)) start).2 ↔
      Recoverable start (run r.chainStep node before) (run r.chainStep node (before ++ after)) := by
  obtain ⟨landed, lands⟩ := meets_append.mp lands
  have sanePoint : r.Sane (run r.chainStep node before) :=
    run_invariant (fun _ _ _ sane lands => lands.sane sane) sane landed
  rw [run_append] at accepted ⊢
  have since : r.Since start (run r.chainStep node before) (run r.chainStep (run r.chainStep node before) after) :=
    run_invariant (fun _ op member since lands => since.step lands (late op member)) (.refl sanePoint free) lands
  exact since.restored_iff sanePoint.coherent sanePoint.tidy accepted

end Rules

namespace SmallChain

def syncedOp : ChainOp := .sync ⟨emptyBlock 1 0, none, none⟩

def committedOp : ChainOp := .commit (rules.prepareCommit (freshNode none) 1 []) (emptyBlock 1 0)

theorem freshNode_sane : rules.Sane (freshNode none) where
  tidy := .new none
  coherent := rfl
  snapshots slot held := by cases held

theorem freshNode_lands {op : ChainOp} (carried : op.block = some (emptyBlock 1 0))
    (accepted : (rules.perform (freshNode none) op).1 = true) : rules.Lands (freshNode none) op := by
  refine ⟨accepted, fun block same => ?_⟩
  rw [carried] at same
  cases same
  refine ⟨fun slot _ => ?_, rfl, rfl, by decide +kernel⟩
  simp [getBlockBySlot, freshNode, new]

theorem synced_rolled_back :
    Restored (freshNode none) (rules.doRollback (run rules.chainStep (freshNode none) [syncedOp]) 1).2 := by
  have lands : rules.Lands (freshNode none) syncedOp := freshNode_lands rfl (by decide +kernel)
  apply (Rules.rollback_restores_iff rules (freshNode none) freshNode_sane [] [syncedOp] 1 ⟨lands, trivial⟩
    ?_ ?_ (by decide +kernel)).mpr
  · exact ⟨Or.inl (by decide +kernel), Or.inl (by decide +kernel)⟩
  · intro slot _
    simp [getBlockBySlot, freshNode, new]
  · intro op member block carried
    rw [List.mem_singleton.mp member] at carried
    cases carried
    decide

/-- The commit cleared the snapshot that the rollback would take the governance from: the epoch still counts the block. -/
theorem committed_still_counted :
    rules.Lands (freshNode none) committedOp ∧
      (rules.doRollback (run rules.chainStep (freshNode none) [committedOp]) 1).1 = true ∧
      (rules.doRollback (run rules.chainStep (freshNode none) [committedOp]) 1).2.store.latestSlot = 0 ∧
      ¬Restored (freshNode none) (rules.doRollback (run rules.chainStep (freshNode none) [committedOp]) 1).2 := by
  refine ⟨freshNode_lands rfl (by decide +kernel), by decide +kernel, by decide +kernel, fun restored => ?_⟩
  have counted :
      (rules.doRollback (run rules.chainStep (freshNode none) [committedOp]) 1).2.governance.state.epochTracker.blocksInEpoch ≠
        (freshNode none).governance.state.epochTracker.blocksInEpoch := by decide +kernel
  exact counted (by rw [restored.governance])

end SmallChain

end AceChain.Node
