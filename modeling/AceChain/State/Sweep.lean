import AceChain.State.Tiers

namespace AceChain.State

open Lib StateTree

variable {derive : Derivations} {t t' : StateTree} {id : AccountId} {a : Account}

def Account.Dormant (a : Account) (currentSlot expiryPeriod : Nat) : Prop :=
  a.lastTouchedSlot < currentSlot - expiryPeriod ∧ a.balance = 0 ∧ a.codeHash = none

instance (a : Account) (currentSlot expiryPeriod : Nat) : Decidable (a.Dormant currentSlot expiryPeriod) :=
  inferInstanceAs (Decidable (_ ∧ _ ∧ _))

theorem dormant_iff (slot period : Nat) :
    (a.lastTouchedSlot < slot - period && a.balance == 0 && a.codeHash.isNone) = true ↔ a.Dormant slot period := by
  simp [Account.Dormant, and_assoc]

theorem Swept.kept {slot : Nat} (swept : Swept derive t t' slot id) (same : t'.get id = t.get id) :
    t'.get id = t.get id ∧ t'.contractStorage[id]? = t.contractStorage[id]? ∧ t'.stubs[id]? = t.stubs[id]? := by
  rcases swept with ⟨_, stubs, storage⟩ | ⟨_, held, gone, -⟩
  · exact ⟨same, storage, stubs⟩
  · rw [gone, held] at same
    cases same

theorem Swept.gone {slot : Nat} (swept : Swept derive t t' slot id) (found : t.get id = some a) (gone : t'.get id = none) :
    t'.get id = none ∧ t'.contractStorage[id]? = none ∧ t'.isStubbed id = true := by
  rcases swept with ⟨same, -, -⟩ | ⟨_, _, _, storage, stub⟩
  · rw [gone, found] at same
    cases same
  · exact ⟨gone, storage, isStubbed_iff.mpr ⟨_, stub⟩⟩

section Fold

variable (derive) (slot : Nat)

def expireAll (t : StateTree) (entries : List (AccountId × Account)) : StateTree :=
  entries.foldl (fun t entry => t.expireAccount derive entry.1 slot) t

theorem get_expireAll (t : StateTree) (entries : List (AccountId × Account)) :
    (expireAll derive slot t entries).get id = if id ∈ entries.map Prod.fst then none else t.get id := by
  induction entries generalizing t with
  | nil => rfl
  | cons entry entries ih =>
    change (expireAll derive slot (t.expireAccount derive entry.1 slot) entries).get id = _
    rw [ih, get_expireAccount]
    by_cases later : id ∈ entries.map Prod.fst
    · simp [later]
    · simp [later]

end Fold

variable (derive) (slot period : Nat)

theorem sweepExpired_dormant (found : t.get id = some a) (dormant : a.Dormant slot period) :
    (t.sweepExpired derive slot period).get id = none ∧ (t.sweepExpired derive slot period).contractStorage[id]? = none ∧
      (t.sweepExpired derive slot period).isStubbed id = true := by
  apply (sweepExpired_swept derive t slot period id).gone found
  refine (get_expireAll derive slot t _).trans (if_pos (List.mem_map.mpr ⟨(id, a), List.mem_filter.mpr ⟨?_, ?_⟩, rfl⟩))
  · exact Std.TreeMap.mem_toList_iff_getElem?_eq_some.mpr found
  · exact (dormant_iff slot period).mpr dormant

theorem sweepExpired_kept (awake : ∀ a, t.get id = some a → ¬a.Dormant slot period) :
    (t.sweepExpired derive slot period).get id = t.get id ∧
      (t.sweepExpired derive slot period).contractStorage[id]? = t.contractStorage[id]? ∧
      (t.sweepExpired derive slot period).stubs[id]? = t.stubs[id]? := by
  apply (sweepExpired_swept derive t slot period id).kept
  apply (get_expireAll derive slot t _).trans (if_neg _)
  intro listed
  obtain ⟨entry, member, rfl⟩ := List.mem_map.mp listed
  obtain ⟨held, dormant⟩ := List.mem_filter.mp member
  exact awake entry.2 (Std.TreeMap.mem_toList_iff_getElem?_eq_some.mp held) ((dormant_iff slot period).mp dormant)

end AceChain.State
