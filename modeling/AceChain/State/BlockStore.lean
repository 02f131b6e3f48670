import AceChain.Runtime.Block

namespace AceChain.State

open AceChain.Runtime Function

/-- The block store. `maxBlocks` is the capacity of the in-memory store; the RocksDB store has none and
keeps no insertion order. -/
structure BlockStore where
  blocksBySlot : Std.TreeMap Nat Block
  blocksByHash : Hash → Option Nat
  finalityCerts : Nat → Option FinalityCertificate
  finalityStates : Nat → Option FinalityState
  latestSlot : Nat
  insertionOrder : List Nat
  maxBlocks : Option Nat

namespace BlockStore

def new (maxBlocks : Option Nat) : BlockStore where
  blocksBySlot := ∅
  blocksByHash := fun _ => none
  finalityCerts := fun _ => none
  finalityStates := fun _ => none
  latestSlot := 0
  insertionOrder := []
  maxBlocks := maxBlocks

section

variable (hashOf : BlockHeader → Hash) (s : BlockStore) (slot : Nat)

def getBlockBySlot : Option Block := s.blocksBySlot[slot]?

def getBlockByHash (hash : Hash) : Option Block :=
  match s.blocksByHash hash with
  | some slot => s.getBlockBySlot slot
  | none => none

def getFinalityState : Option FinalityState := s.finalityStates slot

def setFinalityState (state : FinalityState) : BlockStore :=
  { s with finalityStates := update s.finalityStates slot (some state) }

def hasConfirmedState : Bool :=
  ((s.getFinalityState slot).map (·.isConfirmed)).getD false

def confirmedAt : Bool := (s.getBlockBySlot slot).isSome && s.hasConfirmedState slot

def putFinalityCert (cert : FinalityCertificate) : BlockStore :=
  { s with finalityCerts := update s.finalityCerts cert.slot (some cert) }

def drop : BlockStore :=
  { s with
    blocksBySlot := s.blocksBySlot.erase slot
    blocksByHash :=
      match s.getBlockBySlot slot with
      | some old => update s.blocksByHash (hashOf old.header) none
      | none => s.blocksByHash
    finalityCerts := update s.finalityCerts slot none
    finalityStates := update s.finalityStates slot none }

def overCapacity : Bool :=
  match s.maxBlocks with
  | some limit => decide (limit < s.blocksBySlot.size)
  | none => false

/-- The loop that pops the insertion order until the store is within its capacity. -/
def evict : List Nat → BlockStore → BlockStore
  | [], s => { s with insertionOrder := [] }
  | oldest :: order, s =>
    if s.overCapacity then evict order (s.drop hashOf oldest)
    else { s with insertionOrder := oldest :: order }

def index (block : Block) : BlockStore :=
  let slot := block.header.slot
  let hash := hashOf block.header
  let old := s.getBlockBySlot slot
  let byHash :=
    match old with
    | some old =>
      if hashOf old.header ≠ hash then update s.blocksByHash (hashOf old.header) none
      else s.blocksByHash
    | none => s.blocksByHash
  { s with
    latestSlot := max s.latestSlot slot
    blocksByHash := update byHash hash (some slot)
    blocksBySlot := s.blocksBySlot.insert slot block
    insertionOrder := if old.isSome then s.insertionOrder else s.insertionOrder ++ [slot] }

def putBlock (block : Block) : BlockStore :=
  let s := s.index hashOf block
  evict hashOf s.insertionOrder s

def deleteBlockBySlot : Option Block × BlockStore :=
  match s.getBlockBySlot slot with
  | none => (none, s)
  | some removed =>
    let s := s.drop hashOf slot
    (some removed, { s with
      insertionOrder := s.insertionOrder.filter (· ≠ slot)
      latestSlot := if s.latestSlot = slot then s.blocksBySlot.keys.getLast?.getD 0 else s.latestSlot })

def range (start finish : Nat) : List Nat := List.range' start (finish + 1 - start)

def firstPresentSlot (start finish : Nat) : Option Nat :=
  (range start finish).find? (fun slot => (s.getBlockBySlot slot).isSome)

def highestFrom (s : BlockStore) : Nat → Option Block
  | 0 => s.getBlockBySlot 0
  | slot + 1 =>
    match s.getBlockBySlot (slot + 1) with
    | some block => some block
    | none => s.highestFrom slot

def canonicalTip : Option Block := s.highestFrom s.latestSlot

def canonicalTipHash (genesisHash : Hash) : Hash :=
  match s.canonicalTip with
  | some block => hashOf block.header
  | none => genesisHash

def evictions : List Nat → BlockStore → List Nat
  | [], _ => []
  | oldest :: order, s => if s.overCapacity then oldest :: evictions order (s.drop hashOf oldest) else []

end

section

variable (hashOf : BlockHeader → Hash) (s : BlockStore) (slot : Nat)

theorem getFinalityState_setFinalityState (state : FinalityState) (other : Nat) :
    (s.setFinalityState slot state).getFinalityState other =
      if other = slot then some state else s.getFinalityState other := by
  exact update_apply _ _ _ _

variable (other : Nat)

theorem getBlockBySlot_drop :
    (s.drop hashOf slot).getBlockBySlot other = if other = slot then none else s.getBlockBySlot other := by
  unfold getBlockBySlot drop
  simp only [Std.TreeMap.getElem?_erase, Nat.compare_eq_eq, @eq_comm Nat slot]

theorem getFinalityState_drop :
    (s.drop hashOf slot).getFinalityState other = if other = slot then none else s.getFinalityState other := by
  exact update_apply _ _ _ _

theorem getBlockBySlot_evict (order : List Nat) (other : Nat) :
    (evict hashOf order s).getBlockBySlot other =
      if other ∈ evictions hashOf order s then none else s.getBlockBySlot other := by
  induction order generalizing s with
  | nil => rfl
  | cons oldest order ih =>
    unfold evict evictions
    split
    · rw [ih, getBlockBySlot_drop]
      by_cases first : other = oldest <;> simp [first]
    · rfl

theorem getFinalityState_evict (order : List Nat) (other : Nat) :
    (evict hashOf order s).getFinalityState other =
      if other ∈ evictions hashOf order s then none else s.getFinalityState other := by
  induction order generalizing s with
  | nil => rfl
  | cons oldest order ih =>
    unfold evict evictions
    split
    · rw [ih, getFinalityState_drop]
      by_cases first : other = oldest <;> simp [first]
    · rfl

variable (block : Block)

theorem getBlockBySlot_index (other : Nat) :
    (s.index hashOf block).getBlockBySlot other =
      if other = block.header.slot then some block else s.getBlockBySlot other := by
  unfold getBlockBySlot index
  simp only [Std.TreeMap.getElem?_insert, Nat.compare_eq_eq, @eq_comm Nat block.header.slot]

@[simp] theorem getFinalityState_index :
    (s.index hashOf block).getFinalityState = s.getFinalityState := rfl

def evictedBy : List Nat :=
  evictions hashOf (s.index hashOf block).insertionOrder (s.index hashOf block)

theorem getBlockBySlot_putBlock (other : Nat) :
    (s.putBlock hashOf block).getBlockBySlot other =
      if other ∈ s.evictedBy hashOf block then none
      else if other = block.header.slot then some block else s.getBlockBySlot other := by
  unfold putBlock evictedBy
  rw [getBlockBySlot_evict, getBlockBySlot_index]

theorem getFinalityState_putBlock (other : Nat) :
    (s.putBlock hashOf block).getFinalityState other =
      if other ∈ s.evictedBy hashOf block then none else s.getFinalityState other := by
  unfold putBlock evictedBy
  rw [getFinalityState_evict, getFinalityState_index]

theorem getBlockBySlot_deleteBlockBySlot :
    (s.deleteBlockBySlot hashOf slot).2.getBlockBySlot other =
      if other = slot then none else s.getBlockBySlot other := by
  unfold deleteBlockBySlot
  split <;> rename_i found
  · split <;> rename_i same
    · rw [same, found]
    · rfl
  · exact getBlockBySlot_drop hashOf s slot other

theorem getFinalityState_deleteBlockBySlot :
    (s.deleteBlockBySlot hashOf slot).2.getFinalityState other =
      if other = slot ∧ (s.getBlockBySlot slot).isSome then none else s.getFinalityState other := by
  unfold deleteBlockBySlot
  split <;> rename_i found
  · simp [found]
  · simp only [found, Option.isSome_some, and_true]
    exact getFinalityState_drop hashOf s slot other

theorem mem_range {start finish other : Nat} : other ∈ range start finish ↔ start ≤ other ∧ other ≤ finish := by
  unfold range
  rw [List.mem_range'_1]
  omega

end

end BlockStore

end AceChain.State
