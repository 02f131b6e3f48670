import AceChain.State.BlockIndex

namespace AceChain.State.BlockStore

open AceChain.Runtime BlockStore Function

variable {hashOf : BlockHeader → Hash} {s t u : BlockStore} {slot : Nat} {block : Block}

/-- A store whose indexes, latest slot and insertion order say no more than its blocks do. -/
structure Tidy (hashOf : BlockHeader → Hash) (s : BlockStore) : Prop where
  indexed : s.Indexed hashOf
  listed : ∀ slot block, s.getBlockBySlot slot = some block → s.blocksByHash (hashOf block.header) = some slot
  bounded : s.Bounded
  latest : s.latestSlot = 0 ∨ (s.getBlockBySlot s.latestSlot).isSome = true
  ordered : ∀ slot ∈ s.insertionOrder, (s.getBlockBySlot slot).isSome = true

theorem Tidy.new (maxBlocks : Option Nat) : Tidy hashOf (.new maxBlocks) where
  indexed := .new maxBlocks
  listed slot block found := by simp [getBlockBySlot, BlockStore.new] at found
  bounded slot _ := by simp [getBlockBySlot, BlockStore.new]
  latest := Or.inl rfl
  ordered slot member := by cases member

theorem Tidy.latestSlot_eq (tidy : Tidy hashOf s) (tidy' : Tidy hashOf t) (same : t.getBlockBySlot = s.getBlockBySlot) :
    t.latestSlot = s.latestSlot := by
  have le : ∀ {a b : BlockStore}, Tidy hashOf a → Tidy hashOf b → b.getBlockBySlot = a.getBlockBySlot →
      b.latestSlot ≤ a.latestSlot := by
    intro a b tidyA tidyB same
    rcases tidyB.latest with zero | stored
    · omega
    · by_contra above
      rw [same, tidyA.bounded _ (Nat.lt_of_not_le above)] at stored
      cases stored
  exact Nat.le_antisymm (le tidy tidy' same) (le tidy' tidy same.symm)

theorem Tidy.blocksByHash_eq (tidy : Tidy hashOf s) (tidy' : Tidy hashOf t) (same : t.getBlockBySlot = s.getBlockBySlot) :
    t.blocksByHash = s.blocksByHash := by
  funext hash
  apply Option.ext
  intro slot
  constructor
  · intro listed
    obtain ⟨block, stored, rfl⟩ := tidy'.indexed.hashed hash slot listed
    exact tidy.listed slot block (same ▸ stored)
  · intro listed
    obtain ⟨block, stored, rfl⟩ := tidy.indexed.hashed hash slot listed
    exact tidy'.listed slot block (same ▸ stored)

def finalityRecord (s : BlockStore) (slot : Nat) : Option FinalityState × Option FinalityCertificate :=
  (s.finalityStates slot, s.finalityCerts slot)

structure Removed (slots : List Nat) (s t : BlockStore) : Prop where
  blocks : ∀ slot, t.getBlockBySlot slot = if slot ∈ slots then none else s.getBlockBySlot slot
  records : ∀ slot, t.finalityRecord slot =
    if slot ∈ slots ∧ (s.getBlockBySlot slot).isSome = true then (none, none) else s.finalityRecord slot
  order : t.insertionOrder = s.insertionOrder.filter (· ∉ slots)
  capacity : t.maxBlocks = s.maxBlocks

theorem Removed.nil (s : BlockStore) : Removed [] s s := by
  constructor <;> simp

theorem Removed.cons {slots : List Nat} (first : Removed [slot] s t) (rest : Removed slots t u) :
    Removed (slot :: slots) s u where
  blocks other := by
    rw [rest.blocks, first.blocks]
    by_cases head : other = slot <;> simp [head]
  records other := by
    rw [rest.records, first.records, first.blocks]
    by_cases head : other = slot <;> simp [head]
  order := by
    rw [rest.order, first.order, List.filter_filter]
    congr 1
    funext other
    by_cases head : other = slot <;> simp [head]
  capacity := rest.capacity.trans first.capacity

theorem Tidy.removed_of_free (tidy : Tidy hashOf s) {slots : List Nat} (free : ∀ slot ∈ slots, s.getBlockBySlot slot = none) :
    Removed slots s s := by
  have kept : ∀ slot, (s.getBlockBySlot slot).isSome = true → slot ∉ slots := by
    intro slot stored member
    rw [free slot member] at stored
    cases stored
  refine ⟨fun slot => ?_, fun slot => ?_, ?_, rfl⟩
  · split
    · exact free slot ‹_›
    · rfl
  · rw [if_neg]
    rintro ⟨member, stored⟩
    exact kept slot stored member
  · symm
    rw [List.filter_eq_self]
    exact fun slot member => decide_eq_true (kept slot (tidy.ordered slot member))

theorem deleteBlockBySlot_absent (missing : s.getBlockBySlot slot = none) : (s.deleteBlockBySlot hashOf slot).2 = s := by
  unfold deleteBlockBySlot
  rw [missing]

theorem deleteBlockBySlot_stored (hashOf : BlockHeader → Hash)
    {removed : Block} (found : s.getBlockBySlot slot = some removed) :
    (s.deleteBlockBySlot hashOf slot).2.finalityRecord = update s.finalityRecord slot (none, none) ∧
    (s.deleteBlockBySlot hashOf slot).2.blocksByHash = update s.blocksByHash (hashOf removed.header) none ∧
    (s.deleteBlockBySlot hashOf slot).2.insertionOrder = s.insertionOrder.filter (· ≠ slot) ∧
    (s.deleteBlockBySlot hashOf slot).2.maxBlocks = s.maxBlocks ∧
    ((s.deleteBlockBySlot hashOf slot).2.latestSlot = s.latestSlot ∧ s.latestSlot ≠ slot ∨
      (s.deleteBlockBySlot hashOf slot).2.latestSlot = 0 ∨
      ((s.deleteBlockBySlot hashOf slot).2.getBlockBySlot (s.deleteBlockBySlot hashOf slot).2.latestSlot).isSome = true) := by
  unfold deleteBlockBySlot
  rw [found]
  refine ⟨?_, ?_, rfl, rfl, ?_⟩
  · funext other
    by_cases own : other = slot <;> simp [finalityRecord, drop, own]
  · simp only [drop, found]
  · by_cases last : s.latestSlot = slot
    · refine Or.inr ?_
      have still : (s.drop hashOf slot).latestSlot = slot := last
      simp only [still, if_true]
      cases top : (s.drop hashOf slot).blocksBySlot.keys.getLast? with
      | none => exact Or.inl rfl
      | some key =>
        have member := List.mem_of_getLast? top
        rw [Std.TreeMap.mem_keys, Std.TreeMap.mem_iff_isSome_getElem?] at member
        exact Or.inr member
    · exact Or.inl ⟨if_neg last, last⟩

theorem Tidy.deleteBlockBySlot (tidy : Tidy hashOf s) (slot : Nat) :
    Removed [slot] s (s.deleteBlockBySlot hashOf slot).2 ∧ Tidy hashOf (s.deleteBlockBySlot hashOf slot).2 := by
  have blocks := getBlockBySlot_deleteBlockBySlot hashOf s slot
  cases found : s.getBlockBySlot slot with
  | none =>
    rw [deleteBlockBySlot_absent found]
    refine ⟨tidy.removed_of_free fun k member => ?_, tidy⟩
    rw [List.mem_singleton.mp member]
    exact found
  | some removed =>
    obtain ⟨records, hashes, order, capacity, latest⟩ := deleteBlockBySlot_stored hashOf found
    refine ⟨⟨fun k => ?_, fun k => ?_, ?_, capacity⟩,
      ⟨tidy.indexed.deleteBlockBySlot slot, fun k block stored => ?_, tidy.bounded.deleteBlockBySlot hashOf slot, ?_,
        fun k member => ?_⟩⟩
    · simpa using blocks k
    · rw [records]
      by_cases own : k = slot <;> simp [own, found]
    · rw [order]
      congr 1
      funext k
      simp
    · rw [blocks] at stored
      split at stored <;> rename_i own
      · cases stored
      · have listed := tidy.listed k block stored
        rw [hashes, update_of_ne]
        · exact listed
        · intro same
          rw [same, tidy.listed slot removed found] at listed
          exact own (Option.some.inj listed).symm
    · rcases latest with ⟨same, kept⟩ | latest
      · rw [same, blocks, if_neg kept]
        exact tidy.latest
      · exact latest
    · rw [order] at member
      obtain ⟨member, kept⟩ := List.mem_filter.mp member
      rw [blocks, if_neg (of_decide_eq_true kept)]
      exact tidy.ordered k member

/-- What it takes for a block to be added with nothing else changed: its slot is above all others, its hash is new, nothing
is recorded under the slot and nothing has to be evicted. -/
structure Fits (hashOf : BlockHeader → Hash) (s : BlockStore) (block : Block) : Prop where
  above : ∀ slot, block.header.slot ≤ slot → s.getBlockBySlot slot = none
  unseen : s.blocksByHash (hashOf block.header) = none
  unrecorded : s.finalityRecord block.header.slot = (none, none)
  kept : s.evictedBy hashOf block = []

theorem evict_of_kept (order : List Nat) (kept : evictions hashOf order s = []) :
    evict hashOf order s = { s with insertionOrder := order } := by
  cases order with
  | nil => rfl
  | cons oldest order =>
    unfold evictions at kept
    unfold evict
    by_cases full : s.overCapacity = true
    · rw [if_pos full] at kept
      cases kept
    · rw [if_neg full]

theorem Fits.putBlock_eq (fits : Fits hashOf s block) : s.putBlock hashOf block = { s with
    latestSlot := max s.latestSlot block.header.slot
    blocksByHash := update s.blocksByHash (hashOf block.header) (some block.header.slot)
    blocksBySlot := s.blocksBySlot.insert block.header.slot block
    insertionOrder := s.insertionOrder ++ [block.header.slot] } := by
  have free := fits.above block.header.slot (Nat.le_refl _)
  unfold putBlock
  rw [evict_of_kept _ fits.kept]
  unfold index
  simp [free]

theorem Fits.tidy_putBlock (fits : Fits hashOf s block) (tidy : Tidy hashOf s) : Tidy hashOf (s.putBlock hashOf block) := by
  have blocks := getBlockBySlot_putBlock hashOf s block
  rw [fits.kept] at blocks
  simp only [List.not_mem_nil, if_false] at blocks
  have stored : ∀ slot, (s.getBlockBySlot slot).isSome = true →
      ((s.putBlock hashOf block).getBlockBySlot slot).isSome = true := by
    intro slot stored
    rw [blocks]
    split
    · rfl
    · exact stored
  refine ⟨tidy.indexed.putBlock block, fun slot found there => ?_, tidy.bounded.putBlock hashOf block, Or.inr ?_,
    fun slot member => ?_⟩
  · rw [blocks] at there
    rw [fits.putBlock_eq]
    split at there <;> rename_i own
    · cases there
      rw [own]
      exact update_self ..
    · have listed := tidy.listed slot found there
      refine (update_of_ne ?_ _ _).trans listed
      intro same
      rw [same, fits.unseen] at listed
      cases listed
  · -- the new block is the latest one
    have top : (s.putBlock hashOf block).latestSlot = block.header.slot := by
      have lower : s.latestSlot ≤ block.header.slot := by
        rcases tidy.latest with zero | stored
        · omega
        · by_contra above
          rw [fits.above s.latestSlot (by omega)] at stored
          cases stored
      rw [fits.putBlock_eq]
      exact Nat.max_eq_right lower
    rw [top, blocks, if_pos rfl]
    rfl
  · rw [fits.putBlock_eq] at member
    rcases List.mem_append.mp member with before | own
    · exact stored slot (tidy.ordered slot before)
    · rw [blocks, if_pos (List.mem_singleton.mp own)]
      rfl

/-- The store `t` is `s` with blocks from the slot `start` on. -/
structure Extends (start : Nat) (s t : BlockStore) : Prop where
  free : ∀ slot, start ≤ slot → s.getBlockBySlot slot = none
  blocks : ∀ slot, slot < start → t.getBlockBySlot slot = s.getBlockBySlot slot
  records : ∀ slot, s.finalityRecord slot =
    if start ≤ slot ∧ (t.getBlockBySlot slot).isSome = true then (none, none) else t.finalityRecord slot
  order : s.insertionOrder = t.insertionOrder.filter (· < start)
  capacity : t.maxBlocks = s.maxBlocks

theorem Extends.refl (tidy : Tidy hashOf s) {start : Nat} (free : ∀ slot, start ≤ slot → s.getBlockBySlot slot = none) :
    Extends start s s := by
  have below : ∀ slot, (s.getBlockBySlot slot).isSome = true → slot < start := by
    intro slot stored
    by_contra above
    rw [free slot (Nat.le_of_not_lt above)] at stored
    cases stored
  refine ⟨free, fun _ _ => rfl, fun slot => ?_, ?_, rfl⟩
  · rw [if_neg (fun both => absurd (below slot both.2) (Nat.not_lt.mpr both.1))]
  · symm
    rw [List.filter_eq_self]
    exact fun slot member => decide_eq_true (below slot (tidy.ordered slot member))

structure Adds (block : Block) (s t : BlockStore) : Prop where
  blocks : ∀ slot, t.getBlockBySlot slot = if slot = block.header.slot then some block else s.getBlockBySlot slot
  records : ∀ slot, slot ≠ block.header.slot → t.finalityRecord slot = s.finalityRecord slot
  order : t.insertionOrder = s.insertionOrder ++ [block.header.slot]
  capacity : t.maxBlocks = s.maxBlocks

theorem Extends.add {start : Nat} (extends_ : Extends start s t) (late : start ≤ block.header.slot)
    (fits : Fits hashOf t block) (adds : Adds block t u) : Extends start s u where
  free := extends_.free
  blocks slot below := by
    rw [adds.blocks, if_neg (by omega)]
    exact extends_.blocks slot below
  records slot := by
    rw [extends_.records slot, adds.blocks]
    by_cases own : slot = block.header.slot
    · rw [own, if_neg, fits.unrecorded, if_pos rfl, if_pos ⟨late, rfl⟩]
      rintro ⟨-, stored⟩
      rw [fits.above _ (Nat.le_refl _)] at stored
      cases stored
    · rw [if_neg own, adds.records slot own]
  order := by
    rw [extends_.order, adds.order, List.filter_append]
    simp [late]
  capacity := adds.capacity.trans extends_.capacity

structure Same (s t : BlockStore) : Prop where
  blocksBySlot : s.blocksBySlot.Equiv t.blocksBySlot
  blocksByHash : s.blocksByHash = t.blocksByHash
  finality : s.finalityRecord = t.finalityRecord
  latestSlot : s.latestSlot = t.latestSlot
  insertionOrder : s.insertionOrder = t.insertionOrder
  maxBlocks : s.maxBlocks = t.maxBlocks

theorem Extends.same_of_removed {start : Nat} {slots : List Nat} (extends_ : Extends start s t) (tidy : Tidy hashOf s)
    (tidy' : Tidy hashOf t) (all : ∀ slot, slot ∈ slots ↔ start ≤ slot ∧ slot ≤ t.latestSlot) (removed : Removed slots t u)
    (tidy'' : Tidy hashOf u) : Same u s := by
  have gone : ∀ slot, (t.getBlockBySlot slot).isSome = true → (slot ∈ slots ↔ start ≤ slot) := by
    intro slot stored
    rw [all]
    refine ⟨fun both => both.1, fun late => ⟨late, ?_⟩⟩
    by_contra above
    rw [tidy'.bounded slot (Nat.lt_of_not_le above)] at stored
    cases stored
  have blocks : u.getBlockBySlot = s.getBlockBySlot := by
    funext slot
    rw [removed.blocks]
    by_cases late : start ≤ slot
    · rw [extends_.free slot late]
      by_cases member : slot ∈ slots
      · rw [if_pos member]
      · rw [if_neg member]
        by_contra stored
        exact member ((gone slot (Option.isSome_iff_ne_none.mpr stored)).mpr late)
    · rw [if_neg (fun member => late ((all slot).mp member).1)]
      exact extends_.blocks slot (Nat.lt_of_not_le late)
  refine ⟨.of_forall_constGet?_eq (congrFun blocks), tidy.blocksByHash_eq tidy'' blocks, ?_, tidy.latestSlot_eq tidy'' blocks,
    ?_, removed.capacity.trans extends_.capacity⟩
  · funext slot
    rw [removed.records, extends_.records]
    by_cases stored : (t.getBlockBySlot slot).isSome = true
    · simp only [stored, and_true, gone slot stored]
    · rw [if_neg (fun both => stored both.2), if_neg (fun both => stored both.2)]
  · rw [removed.order, extends_.order]
    apply List.filter_congr
    intro slot member
    have known := gone slot (tidy'.ordered slot member)
    by_cases late : start ≤ slot
    · simp [known.mpr late, late]
    · simp [mt known.mp late, Nat.lt_of_not_le late]

end AceChain.State.BlockStore
