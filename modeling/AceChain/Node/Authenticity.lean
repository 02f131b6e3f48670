import AceChain.Node.Inbound

namespace AceChain.Node

open AceChain.Runtime Consensus Governance State BlockStore SmallChain

def claimsConfirmed (record : BlockSyncRecord) : Bool := (record.finalityState.map (·.isConfirmed)).getD false

def ConsensusEngine.seenQuorum (e : ConsensusEngine) (slot : Nat) (hash : Hash) : Bool :=
  hasQuorum (e.votedStakeFor slot hash) e.validatorSet.totalStake ||
    (e.tendermint.height = slot &&
      hasQuorum (e.tendermint.precommits.votedStakeFor hash) e.validatorSet.totalStake)

namespace Rules

variable (r : Rules) (node : ChainNode) (record : BlockSyncRecord)

def authenticated : Bool :=
  (record.finalityCert.map (fun cert => r.verifyFinalityCertificateForBlock cert record.block)).getD false ||
    node.engine.seenQuorum record.block.header.slot (r.blockHash record.block)

def holds (store : BlockStore) (block : Block) : Prop :=
  (∃ known, store.getBlockByHash (r.blockHash block) = some known ∧ known.header.slot = block.header.slot) ∨
    ∃ existing, store.getBlockBySlot block.header.slot = some existing ∧ r.blockHash existing = r.blockHash block

/-- A block of another leader than the announced slot has, or one that does not extend the chain: its parent is the genesis
without being the tip, or not stored, or not below it, or below a confirmed block. -/
def Stray (isSync : Bool) (block : Block) : Prop :=
  (isSync = false ∧ r.hasValidLeader node.engine block = false) ∨
    block.header.parentHash ≠ node.store.canonicalTipHash r.headerHash node.engine.genesisHash ∧
      (block.header.parentHash = node.engine.genesisHash ∨
        node.store.getBlockByHash block.header.parentHash = none ∨
        ∃ parent, node.store.getBlockByHash block.header.parentHash = some parent ∧
          (block.header.slot ≤ parent.header.slot ∨
            hasConfirmedRealBlockInRange node.store (u64SatAdd parent.header.slot 1) node.store.latestSlot = true))

/-- The records the node has no use for, by what it has stored. -/
inductive Refused (currentSlot nowMs : Nat) (isSync : Bool) : Prop
  | malformed (malformed : r.wellFormed node.engine currentSlot nowMs isSync record.block = false)
  | early (parent : Block) (found : node.store.getBlockByHash record.block.header.parentHash = some parent)
    (early : record.block.header.timestamp < parent.header.timestamp)
  | held (held : r.holds node.store record.block)
    (quiet : claimsConfirmed record = false ∨ node.store.confirmedAt record.block.header.slot = true)
  | taken (existing : Block) (new : ¬r.holds node.store record.block)
    (found : node.store.getBlockBySlot record.block.header.slot = some existing)
    (kept : node.store.hasConfirmedState record.block.header.slot = true ∨
      node.engine.prefersIncoming record.block.header.slot (r.blockHash existing) (r.blockHash record.block) = false)
  | stray (new : ¬r.holds node.store record.block)
    (free : node.store.getBlockBySlot record.block.header.slot = none) (stray : r.Stray node isSync record.block)

def SyncAuthenticated (currentSlot nowMs : Nat) (isSync : Bool) : Prop :=
  let result := r.ingestBlockRecord node record currentSlot nowMs isSync
  (result.1 = true → r.authenticated node record = true) ∧
    ∀ slot, node.store.confirmedAt slot = false → result.2.store.confirmedAt slot = true →
      slot = record.block.header.slot ∧ r.authenticated node record = true

theorem sanitizeSyncFinality_isConfirmed :
    ((r.sanitizeSyncFinality record).1.getD .pending).isConfirmed = claimsConfirmed record := by
  unfold sanitizeSyncFinality claimsConfirmed
  dsimp only
  split <;> rename_i hard
  · split <;> simp [hard, FinalityState.isConfirmed]
  · cases record.finalityState <;> rfl

theorem confirmedAt_persistRecordFinality (store : BlockStore) (slot : Nat) :
    (r.persistRecordFinality store record).confirmedAt slot =
      if slot = record.block.header.slot then (store.getBlockBySlot slot).isSome && claimsConfirmed record
      else store.confirmedAt slot := by
  unfold confirmedAt hasConfirmedState
  rw [getBlockBySlot_persistRecordFinality, getFinalityState_persistRecordFinality]
  split
  · rw [Option.map_some, Option.getD_some, sanitizeSyncFinality_isConfirmed]
  · rfl

variable {node : ChainNode}

variable (currentSlot nowMs : Nat) (isSync : Bool) (record : BlockSyncRecord)

variable {record} in
theorem assessInboundBlock_held (held : r.holds node.store record.block) :
    r.assessInboundBlock node currentSlot nowMs isSync record.block = .reject ∨
      r.assessInboundBlock node currentSlot nowMs isSync record.block = .alreadyKnown := by
  unfold assessInboundBlock
  dsimp only
  split
  · exact .inl rfl
  split
  · exact .inl rfl
  split
  · exact .inr rfl
  · rename_i elsewhere
    rcases held with ⟨known, found, slot⟩ | ⟨existing, found, hash⟩
    · simp [found, slot] at elsewhere
    · rw [found]
      exact .inr (if_pos hash)

variable {record} in
theorem assessInboundBlock_new (new : ¬r.holds node.store record.block) :
    r.assessInboundBlock node currentSlot nowMs isSync record.block = .reject ∨
      r.assessInboundBlock node currentSlot nowMs isSync record.block =
        match node.store.getBlockBySlot record.block.header.slot with
        | some existing => r.assessOccupied node existing record.block
        | none => r.assessFree node isSync record.block := by
  obtain ⟨elsewhere, other⟩ := not_or.mp new
  unfold assessInboundBlock
  dsimp only
  split
  · exact .inl rfl
  split
  · exact .inl rfl
  split
  · rename_i known
    cases found : node.store.getBlockByHash (r.blockHash record.block) with
    | none => simp [found] at known
    | some block => exact absurd ⟨block, found, by simpa [found] using known⟩ elsewhere
  · right
    cases found : node.store.getBlockBySlot record.block.header.slot with
    | none => rfl
    | some existing => exact if_neg (fun hash => other ⟨existing, found, hash⟩)

variable {isSync} in
theorem Stray.decision {block : Block} (stray : r.Stray node isSync block) :
    r.assessFree node isSync block = .reject ∨ ∃ start, r.assessFree node isSync block = .requestSync start := by
  unfold assessFree
  dsimp only
  split
  · exact .inl rfl
  rename_i onward
  rcases stray with ⟨rfl, usurped⟩ | ⟨apart, reason⟩
  · split
    · exact .inl (by simp [usurped])
    · cases node.store.getBlockByHash block.header.parentHash with
      | none => exact .inr ⟨_, rfl⟩
      | some parent => exact .inl (by simp [assessBranch, usurped])
  · rw [if_neg apart]
    rcases reason with genesis | unknown | ⟨parent, found, behind⟩
    · exact absurd ⟨genesis, fun tip => apart (genesis.trans tip.symm)⟩ onward
    · rw [unknown]
      exact .inr ⟨_, rfl⟩
    · rw [found]
      rcases behind with below | confirmed
      · exact .inl (by simp [assessBranch, below])
      · exact .inl (by simp [assessBranch, confirmed])

variable {record currentSlot nowMs isSync} in
theorem Refused.decision (refused : r.Refused node record currentSlot nowMs isSync) :
    (r.assessInboundBlock node currentSlot nowMs isSync record.block = .reject ∨
      ∃ start, r.assessInboundBlock node currentSlot nowMs isSync record.block = .requestSync start) ∨
      r.assessInboundBlock node currentSlot nowMs isSync record.block = .alreadyKnown ∧
        (claimsConfirmed record = false ∨ node.store.confirmedAt record.block.header.slot = true) := by
  cases refused with
  | malformed malformed => exact .inl (.inl (by simp [assessInboundBlock, malformed]))
  | early parent found early => exact .inl (.inl (by simp [assessInboundBlock, found, early]))
  | held held quiet =>
    exact (r.assessInboundBlock_held currentSlot nowMs isSync held).imp .inl fun known => ⟨known, quiet⟩
  | taken existing new found kept =>
    refine .inl (.inl ((r.assessInboundBlock_new currentSlot nowMs isSync new).elim id fun decided => ?_))
    rw [decided, found]
    rcases kept with confirmed | outvoted
    · simp [assessOccupied, confirmed]
    · simp [assessOccupied, outvoted]
  | stray new free stray =>
    rcases r.assessInboundBlock_new currentSlot nowMs isSync new with rejected | decided
    · exact .inl (.inl rejected)
    · rw [decided, free]
      exact .inl (stray.decision r)

theorem ingestBlockRecord_settle
    (settled : ∀ slot, r.assessInboundBlock node currentSlot nowMs isSync record.block ≠ .reorg slot) :
    r.ingestBlockRecord node record currentSlot nowMs isSync =
      r.settle record node (r.assessInboundBlock node currentSlot nowMs isSync record.block) := by
  unfold ingestBlockRecord maxReorgAttempts ingestLoop
  split
  · exact absurd ‹_› (settled _)
  · rfl

variable {record currentSlot nowMs isSync} in
theorem Refused.authenticated (refused : r.Refused node record currentSlot nowMs isSync) :
    r.SyncAuthenticated node record currentSlot nowMs isSync := by
  have settled (free : ∀ slot, r.assessInboundBlock node currentSlot nowMs isSync record.block ≠ .reorg slot) :=
    r.ingestBlockRecord_settle currentSlot nowMs isSync record free
  have untouched : r.ingestBlockRecord node record currentSlot nowMs isSync = (false, node) →
      r.SyncAuthenticated node record currentSlot nowMs isSync := by
    intro same
    unfold SyncAuthenticated
    rw [same]
    refine ⟨nofun, fun slot before after => ?_⟩
    rw [before] at after
    cases after
  rcases refused.decision with (rejected | ⟨start, missing⟩) | ⟨known, quiet⟩
  · exact untouched (by rw [settled (by simp [rejected]), rejected]; rfl)
  · exact untouched (by rw [settled (by simp [missing]), missing]; rfl)
  · unfold SyncAuthenticated
    rw [settled (by simp [known]), known]
    refine ⟨nofun, fun slot before after => ?_⟩
    change (r.persistRecordFinality node.store record).confirmedAt slot = true at after
    rw [confirmedAt_persistRecordFinality] at after
    split at after <;> rename_i own
    · rw [Bool.and_eq_true] at after
      rcases quiet with unclaimed | confirmed
      · rw [unclaimed] at after
        cases after.2
      · rw [own, confirmed] at before
        cases before
    · rw [before] at after
      cases after

end Rules

open Rules

end AceChain.Node
