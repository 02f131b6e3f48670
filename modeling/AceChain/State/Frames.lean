import AceChain.State.Tiers

namespace AceChain.State

open Lib StateTree

structure Frame (ids : List AccountId) (t t' : StateTree) : Prop where
  get : ∀ id, id ∉ ids → t'.get id = t.get id
  storage : ∀ id, id ∉ ids → t'.contractStorage[id]? = t.contractStorage[id]?

variable {derive : Derivations} {ids ids' : List AccountId} {t t' t'' : StateTree} {id : AccountId}

theorem Frame.refl (ids : List AccountId) (t : StateTree) : Frame ids t t := ⟨fun _ _ => rfl, fun _ _ => rfl⟩

theorem Frame.trans (first : Frame ids t t') (second : Frame ids t' t'') : Frame ids t t'' where
  get id outside := (second.get id outside).trans (first.get id outside)
  storage id outside := (second.storage id outside).trans (first.storage id outside)

theorem Frame.mono (frame : Frame ids t t') (more : ids ⊆ ids') : Frame ids' t t' where
  get id outside := frame.get id (fun member => outside (more member))
  storage id outside := frame.storage id (fun member => outside (more member))

theorem frame_of_eq (accounts : t'.accounts = t.accounts) (storage : t'.contractStorage = t.contractStorage) :
    Frame ids t t' where
  get id _ := by rw [StateTree.get, accounts, StateTree.get]
  storage id _ := by rw [storage]

theorem frame_modify (f : Account → Account) (member : id ∈ ids) : Frame ids t (t.modify id f) where
  get other outside := by
    rw [get_modify, if_neg (ne_of_mem_of_not_mem member outside).symm]
  storage _ _ := rfl

theorem frame_insert {a : Account} (member : a.idCom ∈ ids) : Frame ids t (t.insert derive a) where
  get other outside := by
    rw [get_insert, if_neg (ne_of_mem_of_not_mem member outside).symm]
  storage _ _ := rfl

theorem storage_setStorage (t : StateTree) (id other : AccountId) (slot value : Hash) :
    (t.setStorage id slot value).contractStorage[other]? =
      if other = id then some ((t.contractStorage[id]?.getD ∅).insert slot value) else t.contractStorage[other]? := by
  exact lookup_insert _ id other _

theorem frame_setStorage (slot value : Hash) (member : id ∈ ids) : Frame ids t (t.setStorage id slot value) where
  get _ _ := rfl
  storage other outside := by
    rw [storage_setStorage, if_neg (ne_of_mem_of_not_mem member outside).symm]

def StateTree.without (t : StateTree) (id : AccountId) : StateTree := { t with accounts := t.accounts.erase id }

theorem get_without (t : StateTree) (id other : AccountId) :
    (t.without id).get other = if other = id then none else t.get other := by
  exact lookup_erase _ id other

end AceChain.State
