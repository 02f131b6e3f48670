import AceChain.State.CanonicalTip

namespace AceChain.State.BlockStore

open AceChain.Runtime BlockStore

variable {hashOf : BlockHeader → Hash} {s : BlockStore}

structure Indexed (hashOf : BlockHeader → Hash) (s : BlockStore) : Prop where
  keyed : ∀ slot block, s.getBlockBySlot slot = some block → block.header.slot = slot
  hashed : ∀ hash slot, s.blocksByHash hash = some slot →
    ∃ block, s.getBlockBySlot slot = some block ∧ hashOf block.header = hash

theorem Indexed.new (maxBlocks : Option Nat) : Indexed hashOf (.new maxBlocks) where
  keyed slot block found := by simp [getBlockBySlot, BlockStore.new] at found
  hashed hash slot found := by cases found

section

variable (indexed : Indexed hashOf s)

include indexed

theorem Indexed.of_same {t : BlockStore} (blocks : t.getBlockBySlot = s.getBlockBySlot)
    (hashes : t.blocksByHash = s.blocksByHash) : Indexed hashOf t where
  keyed := by
    rw [blocks]
    exact indexed.keyed
  hashed := by
    rw [blocks, hashes]
    exact indexed.hashed

theorem Indexed.getBlockByHash {hash : Hash} {block : Block}
    (found : s.getBlockByHash hash = some block) :
    hashOf block.header = hash ∧ s.getBlockBySlot block.header.slot = some block := by
  unfold BlockStore.getBlockByHash at found
  split at found <;> rename_i slot listed
  · obtain ⟨stored, atSlot, hashes⟩ := indexed.hashed hash _ listed
    rw [found] at atSlot
    cases atSlot
    rw [indexed.keyed _ _ found]
    exact ⟨hashes, found⟩
  · cases found

theorem Indexed.listed {hash : Hash} {slot : Nat} (listed : s.blocksByHash hash = some slot) :
    (s.getBlockBySlot slot).map (fun block => hashOf block.header) = some hash := by
  obtain ⟨block, found, hashes⟩ := indexed.hashed hash slot listed
  rw [found, Option.map_some, hashes]

theorem Indexed.drop (slot : Nat) : Indexed hashOf (s.drop hashOf slot) where
  keyed other block found := by
    rw [getBlockBySlot_drop] at found
    split at found
    · cases found
    · exact indexed.keyed other block found
  hashed hash other listed := by
    have before : s.blocksByHash hash = some other ∧ other ≠ slot := by
      unfold BlockStore.drop at listed
      cases old : s.getBlockBySlot slot with
      | none =>
        simp only [old] at listed
        apply And.intro listed
        rintro rfl
        simpa [old] using indexed.listed listed
      | some block =>
        simp only [old, Function.update_apply] at listed
        split at listed <;> rename_i differs
        · cases listed
        · apply And.intro listed
          rintro rfl
          apply differs
          simpa [old, eq_comm] using indexed.listed listed
    rw [getBlockBySlot_drop, if_neg before.2]
    exact indexed.hashed hash other before.1

theorem Indexed.evict (order : List Nat) :
    Indexed hashOf (evict hashOf order s) := by
  induction order generalizing s with
  | nil => exact indexed.of_same rfl rfl
  | cons oldest order ih =>
    unfold evict
    split
    · exact ih (indexed.drop oldest)
    · exact indexed.of_same rfl rfl

theorem Indexed.index (block : Block) : Indexed hashOf (s.index hashOf block) where
  keyed slot stored found := by
    rw [getBlockBySlot_index] at found
    split at found <;> rename_i own
    · cases found
      exact own.symm
    · exact indexed.keyed slot stored found
  hashed hash slot listed := by
    rw [getBlockBySlot_index]
    simp only [BlockStore.index, Function.update_apply] at listed
    split at listed <;> rename_i own
    · cases listed
      exact ⟨block, if_pos rfl, own.symm⟩
    · -- the hash was listed before, and not for the block that is replaced
      have before : s.blocksByHash hash = some slot ∧ slot ≠ block.header.slot := by
        cases old : s.getBlockBySlot block.header.slot with
        | none =>
          simp only [old] at listed
          apply And.intro listed
          rintro rfl
          simpa [old] using indexed.listed listed
        | some replaced =>
          simp only [old] at listed
          split at listed <;> rename_i other
          · rw [Function.update_apply] at listed
            split at listed <;> rename_i differs
            · cases listed
            · apply And.intro listed
              rintro rfl
              apply differs
              simpa [old, eq_comm] using indexed.listed listed
          · apply And.intro listed
            rintro rfl
            have same := indexed.listed listed
            simp only [old, Option.map_some, Option.some.injEq] at same
            rw [Decidable.not_not] at other
            exact own (same.symm.trans other)
      rw [if_neg before.2]
      exact indexed.hashed hash slot before.1

theorem Indexed.putBlock (block : Block) : Indexed hashOf (s.putBlock hashOf block) :=
  (indexed.index block).evict _

theorem Indexed.deleteBlockBySlot (slot : Nat) :
    Indexed hashOf (s.deleteBlockBySlot hashOf slot).2 := by
  unfold BlockStore.deleteBlockBySlot
  split
  · exact indexed
  · exact (indexed.drop slot).of_same rfl rfl

theorem Indexed.canonicalTip {tip : Block} (found : s.canonicalTip = some tip) :
    s.getBlockBySlot tip.header.slot = some tip := by
  obtain ⟨slot, _, stored, _⟩ := highestFrom_top found
  rw [indexed.keyed slot tip stored]
  exact stored

end

end AceChain.State.BlockStore
