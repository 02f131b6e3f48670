import AceChain.Lib.Walk
import AceChain.Node.Inbound
import AceChain.State.BlockIndex

namespace AceChain.Node

open AceChain.Runtime Consensus Governance State BlockStore ConsensusEngine Lib

/-- One call of `ingest_block_record`; a slot on the wire is a `u64`. -/
structure IngestCall where
  record : BlockSyncRecord
  currentSlot : Nat
  nowMs : Nat
  isSync : Bool
  slotFits : record.block.header.slot ≤ u64Max

variable (store : BlockStore)

def finalityRank (slot : Nat) : Nat := ((store.getFinalityState slot).getD .pending).rank

def ConfirmedKept (before after : BlockStore) : Prop :=
  ∀ slot block, before.getBlockBySlot slot = some block → before.hasConfirmedState slot = true →
    after.getBlockBySlot slot = some block ∧ finalityRank before slot ≤ finalityRank after slot

theorem hasConfirmedState_iff_rank (slot : Nat) :
    store.hasConfirmedState slot = true ↔ 0 < finalityRank store slot := by
  unfold hasConfirmedState finalityRank
  cases store.getFinalityState slot with
  | none => simp [FinalityState.rank]
  | some state => exact state.isConfirmed_iff_rank

theorem ConfirmedKept.refl : ConfirmedKept store store :=
  fun _ _ found _ => ⟨found, Nat.le_refl _⟩

theorem ConfirmedKept.trans {first second third : BlockStore} (before : ConfirmedKept first second)
    (after : ConfirmedKept second third) : ConfirmedKept first third := by
  intro slot block found confirmed
  obtain ⟨stays, rises⟩ := before slot block found confirmed
  rw [hasConfirmedState_iff_rank] at confirmed
  have still := (hasConfirmedState_iff_rank second slot).mpr (Nat.lt_of_lt_of_le confirmed rises)
  obtain ⟨stays, risesOn⟩ := after slot block stays still
  exact ⟨stays, Nat.le_trans rises risesOn⟩

theorem ConfirmedKept.of_same {before after : BlockStore}
    (same : ∀ slot, before.confirmedAt slot = true →
      after.getBlockBySlot slot = before.getBlockBySlot slot ∧
        after.getFinalityState slot = before.getFinalityState slot) : ConfirmedKept before after := by
  intro slot block found confirmed
  obtain ⟨blocks, states⟩ := same slot (by simp [confirmedAt, found, confirmed])
  rw [blocks]
  apply And.intro found
  unfold finalityRank
  rw [states]

namespace Rules

variable (r : Rules) (inPlay : Set BlockHeader) (node : ChainNode) (call : IngestCall)

def ingest : ChainNode :=
  (r.ingestBlockRecord node call.record call.currentSlot call.nowMs call.isSync).2

def AboveParent (block : Block) : Prop :=
  ∀ header ∈ inPlay, r.headerHash header = block.header.parentHash → header.slot < block.header.slot

def AppliesAboveParent : Prop :=
  (r.ingestBlockRecord node call.record call.currentSlot call.nowMs call.isSync).1 = true →
    r.AboveParent inPlay call.record.block

def parentOf (store : BlockStore) (block : Block) : Option Block := store.getBlockByHash block.header.parentHash

def risesAboveTip (block : Block) : Bool :=
  block.header.parentHash ≠ node.store.canonicalTipHash r.headerHash node.engine.genesisHash ||
    ((node.store.canonicalTip).map (fun tip => decide (tip.header.slot < block.header.slot))).getD true

/-- What a decision of the inbound path must meet to leave confirmed history alone: an applied block rises above the
tip and evicts no confirmed block, a known block does not lose finality, and a rollback deletes
no confirmed block. -/
def sparesHistory (record : BlockSyncRecord) (node : ChainNode) : InboundBlockDecision → Bool
  | .apply =>
    r.risesAboveTip node record.block &&
      (node.store.evictedBy r.headerHash record.block).all (fun slot => !node.store.confirmedAt slot)
  | .alreadyKnown =>
    !node.store.confirmedAt record.block.header.slot ||
      decide (finalityRank node.store record.block.header.slot ≤
        ((r.sanitizeSyncFinality record).1.getD .pending).rank)
  | .requestSync _ => true
  | .reject => true
  | .reorg rollbackSlot => !hasConfirmedRealBlockInRange node.store rollbackSlot node.store.latestSlot

def SparesHistory : Prop :=
  ∀ n ∈ r.assessed call.currentSlot call.nowMs call.isSync call.record maxReorgAttempts node,
    r.sparesHistory call.record n
      (r.assessInboundBlock n call.currentSlot call.nowMs call.isSync call.record.block) = true

instance (node : ChainNode) (call : IngestCall) : Decidable (r.SparesHistory node call) :=
  inferInstanceAs (Decidable (∀ n ∈ _, _))

/-- The hash of a header in play tells its slot, and is not the genesis hash. -/
structure HashesFixSlots (genesisHash : Hash) : Prop where
  slot : ∀ h ∈ inPlay, ∀ h' ∈ inPlay, r.headerHash h = r.headerHash h' → h.slot = h'.slot
  genesis : ∀ h ∈ inPlay, r.headerHash h ≠ genesisHash

structure Linked (store : BlockStore) : Prop where
  indexed : store.Indexed r.headerHash
  known : ∀ slot block, store.getBlockBySlot slot = some block → block.header ∈ inPlay
  above : ∀ slot block, store.getBlockBySlot slot = some block → r.AboveParent inPlay block

theorem Linked.new (maxBlocks : Option Nat) : r.Linked inPlay (.new maxBlocks) where
  indexed := .new maxBlocks
  known slot block found := by simp [BlockStore.getBlockBySlot, BlockStore.new] at found
  above slot block found := by simp [BlockStore.getBlockBySlot, BlockStore.new] at found

section Confirmed

variable (store : BlockStore)

theorem deleteRange_confirmedKept (slots : List Nat) (spared : slots.any store.confirmedAt = false) :
    ConfirmedKept store (r.deleteRange store slots).2 := by
  apply ConfirmedKept.of_same
  intro slot confirmed
  have outside : slot ∉ slots := by
    intro member
    rw [List.any_eq_false] at spared
    exact spared slot member confirmed
  rw [getBlockBySlot_deleteRange, if_neg outside, getFinalityState_deleteRange r store slots slot outside]
  exact ⟨rfl, rfl⟩

theorem doRollback_confirmedKept (node : ChainNode) (rollbackSlot : Nat)
    (spared : hasConfirmedRealBlockInRange node.store rollbackSlot node.store.latestSlot = false) :
    ConfirmedKept node.store (r.doRollback node rollbackSlot).2.store := by
  rcases doRollback_store r node rollbackSlot with same | deleted
  · rw [same]
    exact .refl _
  · rw [deleted]
    exact deleteRange_confirmedKept r node.store _ spared

theorem persistRecordFinality_confirmedKept (record : BlockSyncRecord)
    (rises : store.confirmedAt record.block.header.slot = true →
      finalityRank store record.block.header.slot ≤ ((r.sanitizeSyncFinality record).1.getD .pending).rank) :
    ConfirmedKept store (r.persistRecordFinality store record) := by
  intro slot block found confirmed
  rw [getBlockBySlot_persistRecordFinality]
  apply And.intro found
  unfold finalityRank
  rw [getFinalityState_persistRecordFinality]
  split <;> rename_i own
  · rw [own] at found confirmed ⊢
    exact rises (by simp [confirmedAt, found, confirmed])
  · exact Nat.le_refl _

theorem putBlock_confirmedKept (block : Block)
    (free : store.getBlockBySlot block.header.slot = none)
    (spared : ∀ slot ∈ store.evictedBy r.headerHash block, store.confirmedAt slot = false) :
    ConfirmedKept store (store.putBlock r.headerHash block) := by
  apply ConfirmedKept.of_same
  intro slot confirmed
  have kept : slot ∉ store.evictedBy r.headerHash block := by
    intro member
    rw [spared slot member] at confirmed
    cases confirmed
  have other : slot ≠ block.header.slot := by
    intro own
    simp [confirmedAt, own, free] at confirmed
  rw [getBlockBySlot_putBlock, if_neg kept, if_neg other, getFinalityState_putBlock, if_neg kept]
  exact ⟨rfl, rfl⟩

theorem storeRecord_confirmedKept (record : BlockSyncRecord)
    (free : store.getBlockBySlot record.block.header.slot = none)
    (spared : ∀ slot ∈ store.evictedBy r.headerHash record.block, store.confirmedAt slot = false) :
    ConfirmedKept store (r.storeRecord store record) := by
  intro slot block found confirmed
  have other : slot ≠ record.block.header.slot := by
    intro own
    rw [own, free] at found
    cases found
  obtain ⟨stays, rises⟩ := putBlock_confirmedKept r store record.block free spared slot block found confirmed
  unfold storeRecord finalityRank
  rw [getBlockBySlot_persistRecordFinality, getFinalityState_persistRecordFinality, if_neg other]
  exact ⟨stays, rises⟩

end Confirmed

section Applied

variable {r inPlay} {currentSlot nowMs : Nat} {isSync : Bool} {record : BlockSyncRecord} {node : ChainNode} {block : Block}

theorem assessInboundBlock_apply (decision : r.assessInboundBlock node currentSlot nowMs isSync block = .apply) :
    node.store.getBlockBySlot block.header.slot = none ∧
      (block.header.parentHash = node.store.canonicalTipHash r.headerHash node.engine.genesisHash ∨
        ∃ parent, node.store.getBlockByHash block.header.parentHash = some parent ∧
          parent.header.slot < block.header.slot) := by
  unfold assessInboundBlock at decision
  dsimp only at decision
  split at decision
  · cases decision
  split at decision
  · cases decision
  split at decision
  · cases decision
  split at decision <;> rename_i found
  · split at decision
    · cases decision
    unfold assessOccupied at decision
    dsimp only at decision
    split at decision
    · cases decision
    · split at decision <;> cases decision
  · apply And.intro found
    unfold assessFree at decision
    dsimp only at decision
    split at decision
    · cases decision
    split at decision <;> rename_i parentHash
    · exact .inl parentHash
    split at decision <;> rename_i stored
    · cases decision
    rename_i parent
    unfold assessBranch at decision
    dsimp only at decision
    split at decision
    · cases decision
    split at decision <;> rename_i above
    · cases decision
    · exact .inr ⟨parent, stored, Nat.lt_of_not_le above⟩

theorem Linked.aboveParent_of_apply (linked : r.Linked inPlay node.store)
    (hashes : r.HashesFixSlots inPlay node.engine.genesisHash)
    (decision : r.assessInboundBlock node currentSlot nowMs isSync block = .apply)
    (rises : r.risesAboveTip node block = true) : r.AboveParent inPlay block := by
  intro header used named
  -- the parent the node knows has the same hash, hence the same slot
  have lower : ∀ parent, node.store.getBlockBySlot parent.header.slot = some parent →
      r.headerHash parent.header = block.header.parentHash → parent.header.slot < block.header.slot →
      header.slot < block.header.slot := by
    intro parent stored sameHash below
    rw [hashes.slot header used parent.header (linked.known _ _ stored) (named.trans sameHash.symm)]
    exact below
  rcases (assessInboundBlock_apply decision).2 with onTip | ⟨parent, found, below⟩
  · cases tip : node.store.canonicalTip with
    | none =>
      simp only [canonicalTipHash, tip] at onTip
      exact absurd (named.trans onTip) (hashes.genesis header used)
    | some tipBlock =>
      apply lower tipBlock (linked.indexed.canonicalTip tip)
      · rw [onTip]
        simp only [canonicalTipHash, tip]
      · simpa [risesAboveTip, onTip, tip] using rises
  · obtain ⟨sameHash, stored⟩ := linked.indexed.getBlockByHash found
    exact lower parent stored sameHash below

end Applied

section Links

variable {r inPlay} {store : BlockStore}

theorem Linked.of_sub (linked : r.Linked inPlay store) {after : BlockStore} (indexed : after.Indexed r.headerHash)
    (sub : ∀ slot block, after.getBlockBySlot slot = some block → store.getBlockBySlot slot = some block) :
    r.Linked inPlay after where
  indexed := indexed
  known slot block found := linked.known slot block (sub slot block found)
  above slot block found := linked.above slot block (sub slot block found)

theorem Linked.persistRecordFinality (linked : r.Linked inPlay store) (record : BlockSyncRecord) :
    r.Linked inPlay (r.persistRecordFinality store record) := by
  have blocks := getBlockBySlot_persistRecordFinality r store record
  apply linked.of_sub
  · apply linked.indexed.of_same blocks
    unfold Rules.persistRecordFinality persistBlockFinality
    dsimp only
    cases (r.sanitizeSyncFinality record).2 <;> rfl
  · intro slot block found
    rwa [blocks] at found

theorem indexed_deleteRange (indexed : store.Indexed r.headerHash) (slots : List Nat) :
    (r.deleteRange store slots).2.Indexed r.headerHash := by
  induction slots generalizing store with
  | nil => exact indexed
  | cons slot slots ih =>
    have deleted := indexed.deleteBlockBySlot slot
    unfold deleteRange
    split <;> rename_i result <;> rw [result] at deleted
    · exact ih deleted
    · exact ih deleted

theorem Linked.doRollback {node : ChainNode} (linked : r.Linked inPlay node.store) (rollbackSlot : Nat) :
    r.Linked inPlay (r.doRollback node rollbackSlot).2.store := by
  rcases doRollback_store r node rollbackSlot with same | deleted
  · rw [same]
    exact linked
  · rw [deleted]
    apply linked.of_sub (indexed_deleteRange linked.indexed _)
    intro slot block found
    rw [getBlockBySlot_deleteRange] at found
    split at found
    · cases found
    · exact found

theorem Linked.storeRecord (linked : r.Linked inPlay store) {record : BlockSyncRecord}
    (used : record.block.header ∈ inPlay) (above : r.AboveParent inPlay record.block) :
    r.Linked inPlay (r.storeRecord store record) := by
  apply Linked.persistRecordFinality
  have stored : ∀ slot block, (store.putBlock r.headerHash record.block).getBlockBySlot slot = some block →
      (slot = record.block.header.slot ∧ block = record.block) ∨ store.getBlockBySlot slot = some block := by
    intro slot block found
    rw [getBlockBySlot_putBlock] at found
    split at found
    · cases found
    split at found <;> rename_i own
    · cases found
      exact .inl ⟨own, rfl⟩
    · exact .inr found
  constructor
  · exact linked.indexed.putBlock record.block
  · intro slot block found
    rcases stored slot block found with ⟨_, own⟩ | before
    · rw [own]
      exact used
    · exact linked.known slot block before
  · intro slot block found
    rcases stored slot block found with ⟨_, own⟩ | before
    · rw [own]
      exact above
    · exact linked.above slot block before

theorem Linked.ancestors_decreasing (linked : r.Linked inPlay store) {tip : Block} (found : store.canonicalTip = some tip)
    (steps : Nat) : ((walk (parentOf store) steps tip).map (·.header.slot)).Pairwise (· > ·) := by
  apply pairwise_walk (P := fun block => store.getBlockBySlot block.header.slot = some block)
  · intro block parent stored isParent
    obtain ⟨hashes, parentStored⟩ := linked.indexed.getBlockByHash isParent
    exact ⟨parentStored, linked.above _ _ stored parent.header (linked.known _ _ parentStored) hashes⟩
  · exact linked.indexed.canonicalTip found

end Links

section Genesis

variable {r}

theorem foldl_resetSlot_genesis (e : ConsensusEngine) (slots : List Nat) :
    (slots.foldl resetSlot e).genesisHash = e.genesisHash ∧
      (slots.foldl resetSlot e).genesisValidatorSet = e.genesisValidatorSet := by
  induction slots generalizing e with
  | nil => exact ⟨rfl, rfl⟩
  | cons slot slots ih => exact ih (e.resetSlot slot)

theorem rollbackSnapshot_genesisHash (e : ConsensusEngine) (slot : Nat) (firstPresent : Option Nat) :
    (rollbackSnapshot e slot firstPresent).2.2.genesisHash = e.genesisHash := by
  unfold rollbackSnapshot takeSnapshot
  cases e.stateSnapshots slot with
  | some snapshot => rfl
  | none =>
    cases firstPresent with
    | none => rfl
    | some existing =>
      dsimp only
      split <;> rfl

variable (node : ChainNode)

theorem dropBranch_genesisHash (engine : ConsensusEngine) (state : ShardedState) (slot : Nat)
    (snapshotSlot : Option Nat) :
    (r.dropBranch node engine state slot snapshotSlot).2.engine.genesisHash = engine.genesisHash := by
  unfold dropBranch
  dsimp only
  split <;> rename_i rebuilt
  · exact (foldl_resetSlot_genesis _ _).1
  · rw [(syncEffectiveValidatorSet_base r _ _ _).1.genesisHash, (rebuildFullValidatorSet_ok rebuilt).1.genesisHash]
    exact (foldl_resetSlot_genesis _ _).1

theorem doRollback_genesisHash (slot : Nat) :
    (r.doRollback node slot).2.engine.genesisHash = node.engine.genesisHash := by
  have taken := rollbackSnapshot_genesisHash node.engine slot
    (node.store.firstPresentSlot slot node.store.latestSlot)
  unfold doRollback
  dsimp only
  split
  · rw [dropBranch_genesisHash, taken]
  split
  · exact taken
  split
  · exact taken
  · rw [dropBranch_genesisHash, taken]

theorem applyBlockRecord_genesisHash (record : BlockSyncRecord) :
    (r.applyBlockRecord node record).2.engine.genesisHash = node.engine.genesisHash := by
  rcases applyBlockRecord_cases r node record with ⟨_, result⟩ | ⟨_, _, _, _, replayed, result⟩
  · rw [result]
  · rw [result, (advanceToSyncedBlock_base _ _).1.genesisHash]
    exact (replayBlock_base r replayed).1.genesisHash

end Genesis

section Call

variable {r inPlay} {node : ChainNode} {call : IngestCall}

theorem ingest_confirmedKept (spares : r.SparesHistory node call) :
    ConfirmedKept node.store (r.ingest node call).store := by
  apply ingestLoop_induction r call.currentSlot call.nowMs call.isSync call.record
    (P := fun node result => ConfirmedKept node.store result.2.store) ?_ ?_ maxReorgAttempts node spares
  · intro node result spared step
    cases step with
    | apply decision =>
      rw [decision] at spared
      simp only [sparesHistory, Bool.and_eq_true, List.all_eq_true, Bool.not_eq_true'] at spared
      rw [applyBlockRecord_store]
      split
      · exact storeRecord_confirmedKept r node.store call.record (assessInboundBlock_apply decision).1 spared.2
      · exact .refl _
    | known decision =>
      rw [decision] at spared
      apply persistRecordFinality_confirmedKept
      intro confirmed
      simpa [sparesHistory, confirmed] using spared
    | leave => exact .refl _
    | stuck rollbackSlot decision =>
      rw [decision] at spared
      exact doRollback_confirmedKept r node rollbackSlot (by simpa [sparesHistory] using spared)
  · intro node rollbackSlot result spared decision later
    rw [decision] at spared
    exact (doRollback_confirmedKept r node rollbackSlot (by simpa [sparesHistory] using spared)).trans later

structure HistoryInv (r : Rules) (inPlay : Set BlockHeader) (node : ChainNode) : Prop where
  hashes : r.HashesFixSlots inPlay node.engine.genesisHash
  linked : r.Linked inPlay node.store

theorem HistoryInv.doRollback (inv : HistoryInv r inPlay node) (rollbackSlot : Nat) :
    HistoryInv r inPlay (r.doRollback node rollbackSlot).2 where
  hashes := by
    rw [doRollback_genesisHash]
    exact inv.hashes
  linked := inv.linked.doRollback rollbackSlot

theorem HistoryInv.applyBlockRecord (inv : HistoryInv r inPlay node) {record : BlockSyncRecord}
    (used : record.block.header ∈ inPlay) (above : r.AboveParent inPlay record.block) :
    HistoryInv r inPlay (r.applyBlockRecord node record).2 where
  hashes := by
    rw [applyBlockRecord_genesisHash]
    exact inv.hashes
  linked := by
    rw [applyBlockRecord_store]
    split
    · exact inv.linked.storeRecord used above
    · exact inv.linked

theorem HistoryInv.ingest (inv : HistoryInv r inPlay node) (used : call.record.block.header ∈ inPlay)
    (spares : r.SparesHistory node call) :
    HistoryInv r inPlay (r.ingest node call) ∧ r.AppliesAboveParent inPlay node call := by
  revert inv
  apply ingestLoop_induction r call.currentSlot call.nowMs call.isSync call.record
    (P := fun node result =>
      HistoryInv r inPlay node → HistoryInv r inPlay result.2 ∧ (result.1 = true → r.AboveParent inPlay call.record.block))
    ?_ ?_ maxReorgAttempts node spares
  · intro node result spared step inv
    cases step with
    | apply decision =>
      rw [decision] at spared
      simp only [sparesHistory, Bool.and_eq_true] at spared
      have above := inv.linked.aboveParent_of_apply inv.hashes decision spared.1
      exact ⟨inv.applyBlockRecord used above, fun _ => above⟩
    | known => exact ⟨⟨inv.hashes, inv.linked.persistRecordFinality call.record⟩, fun applied => by cases applied⟩
    | leave => exact ⟨inv, fun applied => by cases applied⟩
    | stuck rollbackSlot => exact ⟨inv.doRollback rollbackSlot, fun applied => by cases applied⟩
  · intro node rollbackSlot result _ _ later inv
    exact later (inv.doRollback rollbackSlot)

end Call

end Rules

open Rules

/-- Over any sequence of inbound records whose decisions spare confirmed history, no confirmed block is lost, replaced
or made less final, every applied block rises above its parent, and the parents from the tip have strictly
falling slots. The headers in play are those of the records and of the blocks the node starts with. -/
theorem inbound_history_kept (r : Rules) (inPlay : Set BlockHeader) (node : ChainNode) (calls : List IngestCall)
    (used : ∀ call ∈ calls, call.record.block.header ∈ inPlay)
    (hashes : r.HashesFixSlots inPlay node.engine.genesisHash) (linked : r.Linked inPlay node.store)
    (spares : Meets r.ingest r.SparesHistory node calls) :
    ConfirmedKept node.store (run r.ingest node calls).store ∧
      Meets r.ingest (r.AppliesAboveParent inPlay) node calls ∧
      ∀ tip, (run r.ingest node calls).store.canonicalTip = some tip → ∀ steps,
        ((walk (parentOf (run r.ingest node calls).store) steps tip).map (·.header.slot)).Pairwise
          (· > ·) := by
  have inv : HistoryInv r inPlay node := ⟨hashes, linked⟩
  clear hashes linked
  induction calls generalizing node with
  | nil => exact ⟨.refl _, trivial, fun tip found steps => inv.linked.ancestors_decreasing found steps⟩
  | cons call calls ih =>
    rw [List.forall_mem_cons] at used
    obtain ⟨after, above⟩ := inv.ingest used.1 spares.1
    obtain ⟨kept, applied, falling⟩ := ih (r.ingest node call) used.2 spares.2 after
    exact ⟨(ingest_confirmedKept spares.1).trans kept, ⟨above, applied⟩, falling⟩

namespace SmallChain

theorem headerHash_toNat {h : BlockHeader} (fits : h.slot ≤ u64Max) :
    (headerHash h).toNat = h.slot + 2 ^ 64 * (1 + h.timestamp % 2 ^ 64) := by
  unfold u64Max at fits
  apply Nat.mod_eq_of_lt
  omega

def onTheWire : Set BlockHeader := {h | h.slot ≤ u64Max}

theorem hashesFixSlots : rules.HashesFixSlots onTheWire 0 where
  slot h fits h' fits' same := by
    have values := congrArg BitVec.toNat same
    simp only [rules, headerHash_toNat fits, headerHash_toNat fits'] at values
    change h.slot ≤ u64Max at fits
    change h'.slot ≤ u64Max at fits'
    unfold u64Max at fits fits'
    omega
  genesis h fits same := by
    have values := congrArg BitVec.toNat same
    simp only [rules, headerHash_toNat fits] at values
    change h.slot + 2 ^ 64 * (1 + h.timestamp % 2 ^ 64) = 0 at values
    omega

def syncedAt (timestamp : Nat) (slot : Fin 16) (parentHash : Hash) (state : Option FinalityState) : IngestCall where
  record :=
    let block := emptyBlock slot parentHash
    ⟨{ block with header := { block.header with timestamp := timestamp } }, state, none⟩
  currentSlot := 1
  nowMs := 0
  isSync := true
  slotFits := Nat.le_trans (Nat.le_of_lt slot.isLt) (by decide)

def synced : Fin 16 → Hash → Option FinalityState → IngestCall := syncedAt 0

def hashAt (slot : Nat) : Hash := headerHash (emptyBlock slot 0).header

def softCall : IngestCall := synced 1 0 (some .soft)

def softNode : ChainNode := rules.ingest (freshNode none) softCall

def extension : List IngestCall := [synced 1 0 (some .hard), synced 2 (hashAt 1) none]

end SmallChain

open SmallChain

theorem inbound_history_kept_extension :
    let after := run rules.ingest softNode extension
    softNode.store.confirmedAt 1 = true ∧
      (ConfirmedKept softNode.store after.store ∧
        Meets rules.ingest (rules.AppliesAboveParent onTheWire) softNode extension ∧
        ∀ tip, after.store.canonicalTip = some tip → ∀ steps,
          ((walk (parentOf after.store) steps tip).map (·.header.slot)).Pairwise (· > ·)) := by
  have inv : HistoryInv rules onTheWire softNode :=
    (Rules.HistoryInv.ingest ⟨hashesFixSlots, .new _ _ none⟩ softCall.slotFits (by decide)).1
  exact ⟨by decide, inbound_history_kept rules onTheWire softNode extension (fun call _ => call.slotFits) inv.hashes
    inv.linked (by decide)⟩

/-- A `Soft` block sent again without a state becomes `Pending`, and a block with a lower hash then replaces it; and
a block of slot 1 is applied on a parent of slot 5. -/
theorem confirmed_block_replaced :
    let rules := rules
    let soft := rules.ingest (freshNode none) (syncedAt 1 1 0 (some .soft))
    let forgotten := rules.ingest soft (syncedAt 1 1 0 none)
    let replaced := rules.ingest forgotten (synced 1 0 none)
    let ahead := rules.ingest (freshNode none) (synced 5 0 none)
    soft.store.confirmedAt 1 = true ∧ forgotten.store.getFinalityState 1 = some .pending ∧
      (soft.store.getBlockBySlot 1).map (·.header.timestamp) = some 1 ∧
      (replaced.store.getBlockBySlot 1).map (·.header.timestamp) = some 0 ∧
      ahead.store.canonicalTip.map (·.header.slot) = some 5 ∧
      (rules.ingestBlockRecord ahead (synced 1 (hashAt 5) none).record 1 0 true).1 = true := by
  decide

end AceChain.Node
