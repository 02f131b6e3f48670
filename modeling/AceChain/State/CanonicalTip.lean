import AceChain.State.BlockStore

namespace AceChain.State.BlockStore

open AceChain.Runtime BlockStore Std.TreeMap

variable {hashOf : BlockHeader → Hash} {s t : BlockStore}

def highestBelow (s : BlockStore) : Nat → Option Block
  | 0 => none
  | slot + 1 => s.highestFrom slot

def BoundedBy (s : BlockStore) (bound : Nat) : Prop := ∀ slot, bound < slot → s.getBlockBySlot slot = none

def Bounded (s : BlockStore) : Prop := s.BoundedBy s.latestSlot

variable {slot : Nat}

theorem highestFrom_congr (same : ∀ other ≤ slot, s.getBlockBySlot other = t.getBlockBySlot other) :
    s.highestFrom slot = t.highestFrom slot := by
  induction slot with
  | zero => exact same 0 (Nat.le_refl 0)
  | succ slot ih =>
    unfold highestFrom
    rw [same (slot + 1) (Nat.le_refl _), ih (fun other below => same other (Nat.le_succ_of_le below))]

variable {block : Block}

theorem highestFrom_of_stored (stored : s.getBlockBySlot slot = some block) :
    s.highestFrom slot = some block := by
  cases slot with
  | zero => exact stored
  | succ slot =>
    unfold highestFrom
    rw [stored]

theorem BoundedBy.highestFrom {bound : Nat} (bounded : s.BoundedBy bound) (above : bound ≤ slot) :
    s.highestFrom slot = s.highestFrom bound := by
  induction slot with
  | zero =>
    rw [Nat.le_zero.mp above]
  | succ slot ih =>
    by_cases same : bound = slot + 1
    · rw [same]
    · conv_lhs => unfold BlockStore.highestFrom
      rw [bounded (slot + 1) (by omega)]
      exact ih (by omega)

theorem BoundedBy.highestFrom_eq {a b : Nat} (left : s.BoundedBy a) (right : s.BoundedBy b) :
    s.highestFrom a = s.highestFrom b := by
  rcases Nat.le_total a b with below | below
  · exact (left.highestFrom below).symm
  · exact right.highestFrom below

theorem canonicalTip_eq_of_stored (bounded : s.Bounded)
    (stored : s.getBlockBySlot slot = some block) (top : s.BoundedBy slot) : s.canonicalTip = some block := by
  unfold canonicalTip
  rw [bounded.highestFrom_eq top]
  exact highestFrom_of_stored stored

theorem canonicalTip_eq_highestBelow (bounded : s.Bounded) (slot : Nat)
    (free : ∀ other, slot ≤ other → s.getBlockBySlot other = none) : s.canonicalTip = s.highestBelow slot := by
  unfold canonicalTip
  cases slot with
  | zero =>
    have empty : s.BoundedBy 0 := fun other _ => free other (Nat.zero_le _)
    rw [bounded.highestFrom_eq empty]
    exact free 0 (Nat.le_refl 0)
  | succ slot =>
    have top : s.BoundedBy slot := fun other above => free other above
    exact bounded.highestFrom_eq top

theorem highestBelow_congr (same : ∀ other < slot, s.getBlockBySlot other = t.getBlockBySlot other) :
    s.highestBelow slot = t.highestBelow slot := by
  cases slot with
  | zero => rfl
  | succ slot => exact highestFrom_congr (fun other below => same other (Nat.lt_succ_of_le below))

theorem highestBelow_eq {low high : Nat} (below : low ≤ high)
    (free : ∀ other, low ≤ other → other < high → s.getBlockBySlot other = none) :
    s.highestBelow high = s.highestBelow low := by
  induction high with
  | zero => rw [Nat.le_zero.mp below]
  | succ high ih =>
    by_cases same : low = high + 1
    · rw [same]
    rw [← ih (by omega) (fun other above lower => free other above (by omega))]
    have empty := free high (by omega) (Nat.lt_succ_self high)
    cases high with
    | zero => exact empty
    | succ high =>
      change s.highestFrom (high + 1) = s.highestFrom high
      unfold highestFrom
      rw [empty]
      cases high <;> rfl

theorem highestFrom_top (found : s.highestFrom slot = some block) :
    ∃ top ≤ slot, s.getBlockBySlot top = some block ∧
      ∀ other, top < other → other ≤ slot → s.getBlockBySlot other = none := by
  induction slot with
  | zero => exact ⟨0, Nat.le_refl 0, found, by omega⟩
  | succ slot ih =>
    unfold highestFrom at found
    split at found <;> rename_i stored
    · cases found
      exact ⟨slot + 1, Nat.le_refl _, stored, by omega⟩
    · obtain ⟨top, below, atTop, free⟩ := ih found
      refine ⟨top, by omega, atTop, ?_⟩
      intro other above within
      by_cases last : other = slot + 1
      · rw [last]
        exact stored
      · exact free other above (by omega)

theorem highestFrom_none (missing : s.highestFrom slot = none) :
    ∀ other ≤ slot, s.getBlockBySlot other = none := by
  induction slot with
  | zero =>
    intro other below
    rw [Nat.le_zero.mp below]
    exact missing
  | succ slot ih =>
    unfold highestFrom at missing
    split at missing <;> rename_i stored
    · cases missing
    · intro other below
      by_cases last : other = slot + 1
      · rw [last]
        exact stored
      · exact ih missing other (by omega)

theorem free_of_above_tip (bounded : s.Bounded)
    (keyed : ∀ slot block, s.getBlockBySlot slot = some block → block.header.slot = slot)
    (above : (s.canonicalTip.map (fun tip => decide (tip.header.slot < slot))).getD true = true) :
    ∀ other, slot ≤ other → s.getBlockBySlot other = none := by
  intro other high
  by_cases beyond : s.latestSlot < other
  · exact bounded other beyond
  · cases tip : s.canonicalTip with
    | none => exact highestFrom_none tip other (by omega)
    | some block =>
      obtain ⟨top, _, stored, free⟩ := highestFrom_top tip
      have lower : block.header.slot < slot := by simpa [tip] using above
      rw [keyed top block stored] at lower
      exact free other (by omega) (by omega)

theorem free_below_firstPresentSlot {start finish first : Nat} (found : s.firstPresentSlot start finish = some first) :
    ∀ other, start ≤ other → other < first → s.getBlockBySlot other = none := by
  unfold firstPresentSlot range at found
  rw [List.find?_range'_eq_some] at found
  intro other high low
  simpa using found.2.2 other high low

theorem le_getLast_of_mem {slots : List Nat} (ordered : slots.Pairwise (· < ·)) (member : slot ∈ slots) :
    slot ≤ slots.getLast?.getD 0 := by
  induction slots generalizing slot with
  | nil => cases member
  | cons first slots ih =>
    rw [List.pairwise_cons] at ordered
    cases slots with
    | nil =>
      rw [List.mem_singleton] at member
      rw [member]
      exact Nat.le_refl _
    | cons second slots =>
      rcases List.mem_cons.mp member with rfl | later
      · exact Nat.le_of_lt (Nat.lt_of_lt_of_le (ordered.1 second List.mem_cons_self) (ih ordered.2 List.mem_cons_self))
      · exact ih ordered.2 later

theorem Bounded.deleteBlockBySlot (bounded : s.Bounded) (hashOf : BlockHeader → Hash) (slot : Nat) :
    (s.deleteBlockBySlot hashOf slot).2.Bounded := by
  have deleted := getBlockBySlot_deleteBlockBySlot hashOf s slot
  intro other above
  rw [deleted]
  split
  · rfl
  rename_i kept
  unfold BlockStore.deleteBlockBySlot at above
  cases found : s.getBlockBySlot slot with
  | none =>
    simp only [found] at above
    exact bounded other above
  | some removed =>
    simp only [found] at above
    split at above
    · -- the last key that is left bounds the rest
      by_contra stored
      have member : other ∈ (s.drop hashOf slot).blocksBySlot.keys := by
        rw [mem_keys, mem_iff_isSome_getElem?]
        have still := getBlockBySlot_drop hashOf s slot other
        rw [if_neg kept] at still
        unfold getBlockBySlot at still stored
        rw [still, Option.isSome_iff_ne_none]
        exact stored
      have ordered : (s.drop hashOf slot).blocksBySlot.keys.Pairwise (· < ·) := by
        have keys := ordered_keys (t := (s.drop hashOf slot).blocksBySlot)
        exact keys.imp (fun lower => Nat.compare_eq_lt.mp lower)
      exact absurd above (Nat.not_lt.mpr (le_getLast_of_mem ordered member))
    · exact bounded other above

theorem latestSlot_evict (order : List Nat) : (evict hashOf order s).latestSlot = s.latestSlot := by
  induction order generalizing s with
  | nil => rfl
  | cons oldest order ih =>
    unfold evict
    split
    · exact ih
    · rfl

theorem Bounded.putBlock (bounded : s.Bounded) (hashOf : BlockHeader → Hash) (block : Block) :
    (s.putBlock hashOf block).Bounded := by
  intro other above
  have latest : (s.putBlock hashOf block).latestSlot = max s.latestSlot block.header.slot := latestSlot_evict _
  rw [getBlockBySlot_putBlock]
  split
  · rfl
  · rw [if_neg (by omega)]
    exact bounded other (by omega)

end AceChain.State.BlockStore
