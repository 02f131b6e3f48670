import Mathlib.Data.List.Perm.Basic
import Mathlib.Data.Nat.Bitwise

namespace AceChain.Lib.CritBit

open List

/-- A crit-bit tree whose nodes know the handle they are stored under. -/
inductive Trie where
  | leaf (handle key : Nat)
  | node (handle crit : Nat) (left right : Trie)

def AgreeAbove (k k' bit : Nat) : Prop := ∀ i, bit < i → k.testBit i = k'.testBit i

variable {bit k k' : Nat}

theorem AgreeAbove.symm (agree : AgreeAbove k k' bit) : AgreeAbove k' k bit :=
  fun i above => (agree i above).symm

theorem AgreeAbove.trans {k'' : Nat} (first : AgreeAbove k k' bit) (second : AgreeAbove k' k'' bit) :
    AgreeAbove k k'' bit :=
  fun i above => (first i above).trans (second i above)

theorem AgreeAbove.mono {bit' : Nat} (agree : AgreeAbove k k' bit) (le : bit ≤ bit') : AgreeAbove k k' bit' :=
  fun i above => agree i (lt_of_le_of_lt le above)

theorem differ_at_log2 (differ : k ≠ k') :
    k.testBit (k ^^^ k').log2 ≠ k'.testBit (k ^^^ k').log2 ∧ AgreeAbove k k' (k ^^^ k').log2 := by
  have nonzero : k ^^^ k' ≠ 0 := fun same => differ (Nat.xor_eq_zero_iff.mp same)
  constructor
  · have top := Nat.testBit_log2 nonzero
    rw [Nat.testBit_xor] at top
    intro same
    rw [same, Bool.xor_self] at top
    cases top
  · intro i above
    have small : k ^^^ k' < 2 ^ i := (Nat.log2_lt nonzero).mp above
    have clear := Nat.testBit_lt_two_pow small
    simpa using clear

namespace Trie

def handle : Trie → Nat
  | leaf h _ => h
  | node h _ _ _ => h

def handles : Trie → List Nat
  | leaf h _ => [h]
  | node h _ l r => h :: (l.handles ++ r.handles)

def keys : Trie → List Nat
  | leaf _ k => [k]
  | node _ _ l r => l.keys ++ r.keys

theorem handle_mem (t : Trie) : t.handle ∈ t.handles := by cases t <;> simp [handle, handles]

def Ordered : Nat → Trie → Prop
  | _, leaf _ _ => True
  | bound, node _ crit l r =>
    crit < bound ∧ l.Ordered crit ∧ r.Ordered crit ∧ (∀ k ∈ l.keys, k.testBit crit = false) ∧
      (∀ k ∈ r.keys, k.testBit crit = true) ∧ ∀ k ∈ l.keys ++ r.keys, ∀ k' ∈ l.keys ++ r.keys, AgreeAbove k k' crit

variable {bound : Nat} {t : Trie}

theorem Ordered.mono {bound' : Nat} (ordered : t.Ordered bound) (le : bound ≤ bound') :
    t.Ordered bound' := by
  cases t with
  | leaf => trivial
  | node h crit l r => exact ⟨lt_of_lt_of_le ordered.1 le, ordered.2⟩

def find (key : Nat) : Trie → Nat
  | leaf _ k => k
  | node _ crit l r => if key.testBit crit then r.find key else l.find key

theorem find_mem (key : Nat) (t : Trie) : t.find key ∈ t.keys := by
  induction t with
  | leaf => simp [find, keys]
  | node h crit l r left right =>
    rw [find, keys, mem_append]
    by_cases bit : key.testBit crit = true
    · rw [if_pos bit]
      exact Or.inr right
    · rw [if_neg bit]
      exact Or.inl left

theorem find_eq_iff (ordered : t.Ordered bound) (key : Nat) : t.find key = key ↔ key ∈ t.keys := by
  constructor
  · intro found
    have member := t.find_mem key
    rwa [found] at member
  · intro member
    induction t generalizing bound with
    | leaf h k => exact (List.mem_singleton.mp member).symm
    | node h crit l r left right =>
      obtain ⟨-, lo, ro, clear, set, -⟩ := ordered
      rw [find]
      rcases List.mem_append.mp member with inLeft | inRight
      · rw [if_neg (by simp [clear key inLeft])]
        exact left lo inLeft
      · rw [if_pos (set key inRight)]
        exact right ro inRight

def least : Trie → Nat
  | leaf _ k => k
  | node _ _ l _ => l.least

def greatest : Trie → Nat
  | leaf _ k => k
  | node _ _ _ r => r.greatest

theorem least_mem (t : Trie) : t.least ∈ t.keys := by
  induction t with
  | leaf => simp [least, keys]
  | node h crit l r left _ => exact mem_append_left _ left

theorem greatest_mem (t : Trie) : t.greatest ∈ t.keys := by
  induction t with
  | leaf => simp [greatest, keys]
  | node h crit l r _ right => exact mem_append_right _ right

theorem left_lt_right {h crit : Nat} {l r : Trie} (ordered : (node h crit l r).Ordered bound) {k k' : Nat}
    (inLeft : k ∈ l.keys) (inRight : k' ∈ r.keys) : k < k' := by
  obtain ⟨-, -, -, clear, set, agree⟩ := ordered
  exact Nat.lt_of_testBit crit (clear k inLeft) (set k' inRight)
    (agree k (mem_append_left _ inLeft) k' (mem_append_right _ inRight))

theorem least_le (ordered : t.Ordered bound) : ∀ k ∈ t.keys, t.least ≤ k := by
  induction t generalizing bound with
  | leaf h k =>
    intro k' member
    rw [List.mem_singleton.mp member]
    exact le_refl _
  | node h crit l r left _ =>
    intro k member
    rcases List.mem_append.mp member with inLeft | inRight
    · exact left ordered.2.1 k inLeft
    · exact (left_lt_right ordered l.least_mem inRight).le

theorem le_greatest (ordered : t.Ordered bound) : ∀ k ∈ t.keys, k ≤ t.greatest := by
  induction t generalizing bound with
  | leaf h k =>
    intro k' member
    rw [List.mem_singleton.mp member]
    exact le_refl _
  | node h crit l r _ right =>
    intro k member
    rcases List.mem_append.mp member with inLeft | inRight
    · exact (left_lt_right ordered inLeft r.greatest_mem).le
    · exact right ordered.2.2.1 k inRight

section

variable (key bit newLeaf newInner : Nat) (t : Trie)

def graft : Trie :=
  if key.testBit bit then node newInner bit t (leaf newLeaf key) else node newInner bit (leaf newLeaf key) t

def splice : Trie → Trie
  | leaf h k => graft key bit newLeaf newInner (leaf h k)
  | node h crit l r =>
    if bit < crit then
      if key.testBit crit then node h crit l r.splice else node h crit l.splice r
    else graft key bit newLeaf newInner (node h crit l r)

variable {key bit newLeaf newInner}

theorem mem_keys_graft (k : Nat) : k ∈ (graft key bit newLeaf newInner t).keys ↔ k = key ∨ k ∈ t.keys := by
  unfold graft
  by_cases set : key.testBit bit = true
  · rw [if_pos set]
    simp [keys, or_comm]
  · rw [if_neg set]
    simp [keys]

theorem handles_graft :
    (graft key bit newLeaf newInner t).handles.Perm (newInner :: newLeaf :: t.handles) := by
  unfold graft
  by_cases set : key.testBit bit = true
  · rw [if_pos set]
    exact (perm_append_singleton newLeaf t.handles).cons newInner
  · rw [if_neg set]
    exact List.Perm.refl _

theorem mem_keys_splice (k : Nat) : k ∈ (t.splice key bit newLeaf newInner).keys ↔ k = key ∨ k ∈ t.keys := by
  induction t with
  | leaf h k' => exact mem_keys_graft _ _
  | node h crit l r left right =>
    rw [splice]
    by_cases above : bit < crit
    · rw [if_pos above]
      by_cases set : key.testBit crit = true
      · rw [if_pos set, keys, keys, mem_append, mem_append, right]
        grind
      · rw [if_neg set, keys, keys, mem_append, mem_append, left]
        grind
    · rw [if_neg above]
      exact mem_keys_graft _ _

theorem Ordered.graft {bound : Nat} {t : Trie} (ordered : t.Ordered bit) (inside : bit < bound)
    (agree : ∀ k ∈ t.keys, AgreeAbove key k bit) (differ : ∀ k ∈ t.keys, k.testBit bit ≠ key.testBit bit) :
    (t.graft key bit newLeaf newInner).Ordered bound := by
  have same : ∀ k, k = key ∨ k ∈ t.keys → AgreeAbove key k bit := by
    rintro k (rfl | member)
    · exact fun _ _ => rfl
    · exact agree k member
  have pair : ∀ k k', (k = key ∨ k ∈ t.keys) → (k' = key ∨ k' ∈ t.keys) → AgreeAbove k k' bit :=
    fun k k' first second => (same k first).symm.trans (same k' second)
  unfold Trie.graft
  by_cases set : key.testBit bit = true
  · rw [if_pos set]
    refine ⟨inside, ordered, trivial, ?_, ?_, ?_⟩
    · intro k member
      simpa [set] using differ k member
    · intro k member
      rw [List.mem_singleton.mp member]
      exact set
    · intro k first k' second
      apply pair
      · simpa [keys, or_comm] using first
      · simpa [keys, or_comm] using second
  · rw [if_neg set]
    refine ⟨inside, trivial, ordered, ?_, ?_, ?_⟩
    · intro k member
      rw [List.mem_singleton.mp member]
      simpa using set
    · intro k member
      simpa [set] using differ k member
    · intro k first k' second
      apply pair
      · simpa [keys] using first
      · simpa [keys] using second

theorem Ordered.splice {bound : Nat} {t : Trie} (ordered : t.Ordered bound) (inside : bit < bound)
    (agree : AgreeAbove key (t.find key) bit) (differ : (t.find key).testBit bit ≠ key.testBit bit) :
    (t.splice key bit newLeaf newInner).Ordered bound := by
  induction t generalizing bound with
  | leaf h k =>
    refine Ordered.graft trivial inside ?_ ?_
    · intro k' member
      rw [List.mem_singleton.mp member]
      exact agree
    · intro k' member
      rw [List.mem_singleton.mp member]
      exact differ
  | node h crit l r left right =>
    have whole := ordered
    obtain ⟨below, lo, ro, clear, set, together⟩ := ordered
    have reached := (node h crit l r).find_mem key
    rw [Trie.splice]
    by_cases above : bit < crit
    · -- the path goes on: the key shares the bits above this node with the leaf it leads to
      have key_agrees : ∀ k ∈ l.keys ++ r.keys, AgreeAbove key k crit :=
        fun k member => (agree.mono above.le).trans (together _ reached k member)
      have pair : ∀ k k', (k = key ∨ k ∈ l.keys ++ r.keys) → (k' = key ∨ k' ∈ l.keys ++ r.keys) → AgreeAbove k k' crit := by
        have same : ∀ k, k = key ∨ k ∈ l.keys ++ r.keys → AgreeAbove key k crit := by
          rintro k (rfl | member)
          · exact fun _ _ => rfl
          · exact key_agrees k member
        exact fun k k' first second => (same k first).symm.trans (same k' second)
      rw [if_pos above]
      by_cases bitSet : key.testBit crit = true
      · rw [find, if_pos bitSet] at agree differ
        rw [if_pos bitSet]
        refine ⟨below, lo, right ro above agree differ, clear, ?_, ?_⟩
        · intro k member
          rcases (mem_keys_splice r k).mp member with rfl | old
          · exact bitSet
          · exact set k old
        · intro k first k' second
          apply pair
          · rw [mem_append, mem_keys_splice] at first
            grind
          · rw [mem_append, mem_keys_splice] at second
            grind
      · rw [find, if_neg bitSet] at agree differ
        rw [if_neg bitSet]
        refine ⟨below, left lo above agree differ, ro, ?_, set, ?_⟩
        · intro k member
          rcases (mem_keys_splice l k).mp member with rfl | old
          · simpa using bitSet
          · exact clear k old
        · intro k first k' second
          apply pair
          · rw [mem_append, mem_keys_splice] at first
            grind
          · rw [mem_append, mem_keys_splice] at second
            grind
    · rw [if_neg above]
      -- the bit is not this node's own: the path took the key's side there
      have strict : crit < bit := by
        refine lt_of_le_of_ne (not_lt.mp above) ?_
        rintro rfl
        apply differ
        rw [find]
        by_cases bitSet : key.testBit crit = true
        · rw [if_pos bitSet, bitSet]
          exact set _ (r.find_mem key)
        · rw [if_neg bitSet]
          rw [clear _ (l.find_mem key)]
          simpa using bitSet
      refine Ordered.graft ⟨strict, whole.2⟩ inside ?_ ?_
      · intro k member
        exact agree.trans ((together _ reached k member).mono strict.le)
      · intro k member
        rw [← together _ reached k member bit strict]
        exact differ

end

section

variable (key : Nat)

def remove : Trie → Option Trie
  | leaf _ _ => none
  | node h crit l r =>
    if key.testBit crit then
      match r.remove with
      | none => some l
      | some r => some (node h crit l r)
    else
      match l.remove with
      | none => some r
      | some l => some (node h crit l r)

variable {key}

theorem mem_keys_remove {bound : Nat} {t : Trie} (ordered : t.Ordered bound) (present : t.find key = key) (k : Nat) :
    (∃ t', t.remove key = some t' ∧ k ∈ t'.keys) ↔ k ∈ t.keys ∧ k ≠ key := by
  induction t generalizing bound with
  | leaf h k' =>
    rw [find] at present
    simp [remove, keys, present]
  | node h crit l r left right =>
    obtain ⟨-, lo, ro, clear, set, -⟩ := ordered
    rw [remove]
    by_cases bit : key.testBit crit = true
    · rw [find, if_pos bit] at present
      have rest := right ro present
      rw [if_pos bit, keys, mem_append]
      cases removed : r.remove key with
      | none =>
        grind
      | some r' =>
        simp only [Option.some.injEq, exists_eq_left', keys, mem_append] at rest ⊢
        grind
    · rw [find, if_neg bit] at present
      have rest := left lo present
      rw [if_neg bit, keys, mem_append]
      cases removed : l.remove key with
      | none =>
        grind
      | some l' =>
        simp only [Option.some.injEq, exists_eq_left', keys, mem_append] at rest ⊢
        grind

theorem keys_remove_subset {t t' : Trie} (removed : t.remove key = some t') : ∀ k ∈ t'.keys, k ∈ t.keys := by
  induction t generalizing t' with
  | leaf => cases removed
  | node h crit l r left right =>
    rw [remove] at removed
    intro k member
    rw [keys, mem_append]
    by_cases bit : key.testBit crit = true
    · rw [if_pos bit] at removed
      cases inner : r.remove key with
      | none =>
        rw [inner] at removed
        cases removed
        exact Or.inl member
      | some r' =>
        rw [inner] at removed
        cases removed
        rcases List.mem_append.mp member with inLeft | inRight
        · exact Or.inl inLeft
        · exact Or.inr (right inner k inRight)
    · rw [if_neg bit] at removed
      cases inner : l.remove key with
      | none =>
        rw [inner] at removed
        cases removed
        exact Or.inr member
      | some l' =>
        rw [inner] at removed
        cases removed
        rcases List.mem_append.mp member with inLeft | inRight
        · exact Or.inl (left inner k inLeft)
        · exact Or.inr inRight

theorem Ordered.remove {bound : Nat} {t t' : Trie} (ordered : t.Ordered bound) (removed : t.remove key = some t') :
    t'.Ordered bound := by
  induction t generalizing bound t' with
  | leaf => cases removed
  | node h crit l r left right =>
    obtain ⟨below, lo, ro, clear, set, together⟩ := ordered
    rw [Trie.remove] at removed
    by_cases bit : key.testBit crit = true
    · rw [if_pos bit] at removed
      cases inner : r.remove key with
      | none =>
        rw [inner] at removed
        cases removed
        exact lo.mono below.le
      | some r' =>
        rw [inner] at removed
        cases removed
        have part := keys_remove_subset inner
        have sub : ∀ k ∈ l.keys ++ r'.keys, k ∈ l.keys ++ r.keys := by
          intro k member
          rw [mem_append] at member ⊢
          exact member.imp_right (part k)
        exact ⟨below, lo, right ro inner, clear, fun k member => set k (part k member),
          fun k first k' second => together k (sub k first) k' (sub k' second)⟩
    · rw [if_neg bit] at removed
      cases inner : l.remove key with
      | none =>
        rw [inner] at removed
        cases removed
        exact ro.mono below.le
      | some l' =>
        rw [inner] at removed
        cases removed
        have part := keys_remove_subset inner
        have sub : ∀ k ∈ l'.keys ++ r.keys, k ∈ l.keys ++ r.keys := by
          intro k member
          rw [mem_append] at member ⊢
          exact member.imp_left (part k)
        exact ⟨below, left lo inner, ro, fun k member => clear k (part k member), set,
          fun k first k' second => together k (sub k first) k' (sub k' second)⟩

end

end Trie

end AceChain.Lib.CritBit
