import AceChain.State.Supply

namespace AceChain.State

open Lib StateTree Std.TreeMap

variable {derive : Derivations} {t t' t'' : StateTree} {id : AccountId}

theorem isStubbed_iff : t.isStubbed id = true ↔ ∃ stub, t.stubs[id]? = some stub := by
  unfold isStubbed
  rw [contains_eq_isSome_getElem?, Option.isSome_iff_exists]

/-- The two tiers are apart: an expired account is not hot, has no storage and its stub carries its id; a hot account
is stored under its own id. -/
structure TiersApart (t : StateTree) : Prop where
  keyed : Keyed t
  cold : ∀ (id : AccountId) stub, t.stubs[id]? = some stub →
    t.contains id = false ∧ t.contractStorage[id]? = none ∧ stub.idCom = id

/-- A change that leaves the cold tier and the storage alone and revives nobody. -/
structure KeepsCold (t t' : StateTree) : Prop where
  stubs : ∀ id : AccountId, t'.stubs[id]? = t.stubs[id]?
  storage : t'.contractStorage = t.contractStorage
  cold : ∀ id, t.isStubbed id = true → t.contains id = false → t'.contains id = false
  keyed : Keyed t → Keyed t'

theorem KeepsCold.refl (t : StateTree) : KeepsCold t t := ⟨fun _ => rfl, rfl, fun _ _ cold => cold, fun keyed => keyed⟩

theorem KeepsCold.isStubbed (kept : KeepsCold t t') (id : AccountId) : t'.isStubbed id = t.isStubbed id := by
  unfold StateTree.isStubbed
  rw [contains_eq_isSome_getElem?, contains_eq_isSome_getElem?, kept.stubs]

theorem KeepsCold.trans (first : KeepsCold t t') (second : KeepsCold t' t'') : KeepsCold t t'' where
  stubs id := (second.stubs id).trans (first.stubs id)
  storage := second.storage.trans first.storage
  cold id stubbed cold := second.cold id ((first.isStubbed id).trans stubbed) (first.cold id stubbed cold)
  keyed keyed := second.keyed (first.keyed keyed)

theorem TiersApart.keepsCold (apart : TiersApart t) (kept : KeepsCold t t') : TiersApart t' where
  keyed := kept.keyed apart.keyed
  cold id stub found := by
    rw [kept.stubs] at found
    obtain ⟨absent, storage, own⟩ := apart.cold id stub found
    refine ⟨kept.cold id (isStubbed_iff.mpr ⟨stub, found⟩) absent, ?_, own⟩
    rw [kept.storage]
    exact storage

theorem keepsCold_modify {f : Account → Account} (kept : ∀ a, t.get id = some a → (f a).idCom = a.idCom) :
    KeepsCold t (t.modify id f) where
  stubs _ := rfl
  storage := rfl
  cold other _ cold := (contains_modify f other).trans cold
  keyed keyed other found stored := by
    rw [get_modify] at stored
    by_cases same : other = id
    · rw [if_pos same, Option.map_eq_some_iff] at stored
      obtain ⟨a, held, rfl⟩ := stored
      rw [kept a (same ▸ held)]
      exact keyed other a held
    · rw [if_neg same] at stored
      exact keyed other found stored

theorem contains_insert (a : Account) (other : AccountId) :
    (t.insert derive a).contains other = (decide (other = a.idCom) || t.contains other) := by
  unfold StateTree.contains
  rw [get_insert]
  by_cases same : other = a.idCom
  · rw [if_pos same, decide_eq_true same]
    rfl
  · rw [if_neg same, decide_eq_false same]
    rfl

theorem keepsCold_insert {a : Account} (hot : t.isStubbed a.idCom = false) : KeepsCold t (t.insert derive a) where
  stubs other := by
    change (t.stubs.erase a.idCom)[other]? = _
    rw [lookup_erase]
    by_cases same : other = a.idCom
    · rw [if_pos same, same]
      cases found : t.stubs[a.idCom]? with
      | none => rfl
      | some stub =>
        rw [isStubbed_iff.mpr ⟨stub, found⟩] at hot
        cases hot
    · rw [if_neg same]
  storage := rfl
  cold other stubbed cold := by
    rw [contains_insert, cold, Bool.or_false]
    apply decide_eq_false
    intro same
    rw [same, hot] at stubbed
    cases stubbed
  keyed keyed := keyed.insert derive a

def Swept (derive : Derivations) (t t' : StateTree) (slot : Nat) (id : AccountId) : Prop :=
  (t'.get id = t.get id ∧ t'.stubs[id]? = t.stubs[id]? ∧ t'.contractStorage[id]? = t.contractStorage[id]?) ∨
    ∃ a, t.get id = some a ∧ t'.get id = none ∧ t'.contractStorage[id]? = none ∧
      t'.stubs[id]? = some ⟨id, derive.stubHash a t.contractStorage[id]?, slot⟩

theorem get_detach (derive : Derivations) (a : Account) (other : AccountId) :
    (t.detach derive a id).get other = if other = id then none else t.get other := by
  exact lookup_erase _ id other

theorem get_remove (derive : Derivations) (t : StateTree) (id other : AccountId) :
    (t.remove derive id).get other = if other = id then none else t.get other := by
  unfold remove
  cases held : t.get id with
  | none =>
    by_cases same : other = id
    · rw [if_pos same, same]
      exact held
    · rw [if_neg same]
  | some a => exact get_detach derive a other

variable (derive) in
theorem get_expireAccount (t : StateTree) (expired : AccountId) (slot : Nat) :
    (t.expireAccount derive expired slot).get id = if id = expired then none else t.get id := by
  unfold expireAccount
  cases held : t.get expired with
  | none =>
    by_cases same : id = expired
    · rw [if_pos same, same]
      exact held
    · rw [if_neg same]
  | some a => exact get_detach derive a id

theorem stubs_remove (derive : Derivations) (t : StateTree) (id : AccountId) : (t.remove derive id).stubs = t.stubs := by
  unfold remove
  cases t.get id <;> rfl

theorem keyed_remove (keyed : Keyed t) (derive : Derivations) (id : AccountId) : Keyed (t.remove derive id) := by
  intro other b found
  rw [get_remove] at found
  split at found
  · cases found
  · exact keyed other b found

theorem storage_detach (derive : Derivations) (a : Account) (other : AccountId) :
    (t.detach derive a id).contractStorage[other]? = if other = id then none else t.contractStorage[other]? := by
  exact lookup_erase _ id other

theorem expireAccount_swept (t : StateTree) (expired : AccountId) (slot : Nat) (id : AccountId) :
    Swept derive t (t.expireAccount derive expired slot) slot id := by
  unfold expireAccount
  cases held : t.get expired with
  | none => exact .inl ⟨rfl, rfl, rfl⟩
  | some a =>
    by_cases same : id = expired
    · subst same
      refine .inr ⟨a, held, ?_, ?_, ?_⟩
      · exact (get_detach derive a id).trans (if_pos rfl)
      · exact (storage_detach derive a id).trans (if_pos rfl)
      · exact getElem?_insert_self
    · refine .inl ⟨?_, ?_, ?_⟩
      · exact (get_detach derive a id).trans (if_neg same)
      · change ((t.detach derive a expired).stubs.insert expired _)[id]? = _
        rw [getElem?_insert, if_neg (fun equal => same (Std.LawfulEqCmp.eq_of_compare equal).symm)]
        rfl
      · exact (storage_detach derive a id).trans (if_neg same)

theorem Swept.trans {slot : Nat} (first : Swept derive t t' slot id) (second : Swept derive t' t'' slot id) :
    Swept derive t t'' slot id := by
  rcases first with ⟨same, stubs, storage⟩ | ⟨a, held, gone, storage, stub⟩
  · rcases second with ⟨same', stubs', storage'⟩ | ⟨a, held, gone, storage', stub⟩
    · exact .inl ⟨same'.trans same, stubs'.trans stubs, storage'.trans storage⟩
    · refine .inr ⟨a, same ▸ held, gone, storage', ?_⟩
      rw [← storage]
      exact stub
  · rcases second with ⟨same', stubs', storage'⟩ | ⟨a', held', -⟩
    · exact .inr ⟨a, held, same'.trans gone, storage'.trans storage, stubs'.trans stub⟩
    · rw [gone] at held'
      cases held'

theorem sweepExpired_swept (derive : Derivations) (t : StateTree) (slot period : Nat) (id : AccountId) :
    Swept derive t (t.sweepExpired derive slot period) slot id := by
  apply List.foldlRecOn (motive := fun after => Swept derive t after slot id)
  · exact .inl ⟨rfl, rfl, rfl⟩
  · intro after swept entry _
    exact swept.trans (expireAccount_swept after entry.1 slot id)

theorem TiersApart.sweep (apart : TiersApart t) {slot : Nat} (swept : ∀ id, Swept derive t t' slot id) :
    TiersApart t' where
  keyed id a found := by
    rcases swept id with ⟨same, -, -⟩ | ⟨_, _, gone, -⟩
    · exact apart.keyed id a (same ▸ found)
    · rw [gone] at found
      cases found
  cold id stub found := by
    rcases swept id with ⟨same, stubs, storage⟩ | ⟨_, _, gone, storage, expired⟩
    · obtain ⟨absent, none_, own⟩ := apart.cold id stub (stubs ▸ found)
      refine ⟨?_, storage.trans none_, own⟩
      unfold StateTree.contains
      rw [same]
      exact absent
    · rw [expired] at found
      cases found
      refine ⟨?_, storage, rfl⟩
      unfold StateTree.contains
      rw [gone]
      rfl

def Accepted (derive : Derivations) (t : StateTree) (proof : ResurrectionProof) : Prop :=
  ∃ stub, t.stubs[proof.account.idCom]? = some stub ∧ proof.account.idCom = stub.idCom ∧
    derive.stubHash proof.account (some proof.storage) = stub.hash

variable (proof : ResurrectionProof)

def restore (t : StateTree) : StateTree :=
  proof.storage.toList.foldl (fun t entry => t.setStorage proof.account.idCom entry.1 entry.2) t

theorem resurrectAccount_cases (derive : Derivations) (t : StateTree) (proof : ResurrectionProof) (slot : Nat) :
    (∃ text, t.resurrectAccount derive proof slot = .error text) ∨
      (Accepted derive t proof ∧ t.resurrectAccount derive proof slot =
        .ok (restore proof (({ t with stubs := t.stubs.erase proof.account.idCom } : StateTree).insert derive
          { proof.account with lastTouchedSlot := slot }))) := by
  unfold resurrectAccount
  cases found : t.stubs[proof.account.idCom]? with
  | none => exact .inl ⟨_, rfl⟩
  | some stub =>
    dsimp only
    by_cases refused : proof.account.idCom ≠ stub.idCom ∨ derive.stubHash proof.account (some proof.storage) ≠ stub.hash
    · rw [if_pos refused]
      exact .inl ⟨_, rfl⟩
    · rw [if_neg refused]
      rw [not_or, not_not, not_not] at refused
      exact .inr ⟨⟨stub, found, refused.1, refused.2⟩, rfl⟩

theorem restore_frame (t : StateTree) :
    (restore proof t).accounts = t.accounts ∧ (restore proof t).stubs = t.stubs ∧
      ∀ other, other ≠ proof.account.idCom → (restore proof t).contractStorage[other]? = t.contractStorage[other]? := by
  apply List.foldlRecOn (motive := fun after : StateTree => after.accounts = t.accounts ∧ after.stubs = t.stubs ∧
    ∀ other, other ≠ proof.account.idCom → after.contractStorage[other]? = t.contractStorage[other]?)
  · exact ⟨rfl, rfl, fun _ _ => rfl⟩
  · intro after ⟨accounts, stubs, storage⟩ entry _
    refine ⟨accounts, stubs, fun other differ => ?_⟩
    rw [← storage other differ]
    unfold setStorage
    rw [getElem?_insert, if_neg (fun equal => differ (Std.LawfulEqCmp.eq_of_compare equal).symm)]

theorem getStorage_eq (t : StateTree) (id : AccountId) (slot : Hash) :
    t.getStorage id slot = ((t.contractStorage[id]?).getD ∅)[slot]?.getD 0 := by
  unfold getStorage
  cases t.contractStorage[id]? with
  | none => rfl
  | some storage => rfl

theorem getStorage_setStorage (t : StateTree) (id other : AccountId) (slot key value : Hash) :
    (t.setStorage id slot value).getStorage other key = if other = id ∧ key = slot then value else t.getStorage other key := by
  rw [getStorage_eq, getStorage_eq]
  unfold setStorage
  rw [lookup_insert]
  by_cases same : other = id
  · rw [if_pos same, same, Option.getD_some, lookup_insert]
    by_cases hit : key = slot
    · rw [if_pos hit, if_pos ⟨rfl, hit⟩, Option.getD_some]
    · rw [if_neg hit, if_neg (fun both => hit both.2)]
  · rw [if_neg same, if_neg (fun both => same both.1)]

theorem storage_foldl (entries : List (Hash × Hash)) (t : StateTree) :
    ((entries.foldl (fun t entry => t.setStorage id entry.1 entry.2) t).contractStorage[id]?).getD ∅ =
      ((t.contractStorage[id]?).getD ∅).insertMany entries := by
  induction entries generalizing t with
  | nil => rfl
  | cons entry rest ih =>
    rw [List.foldl_cons, ih, insertMany_cons]
    congr 1
    unfold setStorage
    rw [getElem?_insert_self]
    rfl

theorem restore_lookup (empty : t.contractStorage[proof.account.idCom]? = none) (slot : Hash) :
    (((restore proof t).contractStorage[proof.account.idCom]?).getD ∅)[slot]? = proof.storage[slot]? := by
  unfold restore
  rw [storage_foldl, empty]
  cases found : proof.storage[slot]? with
  | none =>
    rw [getElem?_insertMany_list_of_contains_eq_false]
    · rfl
    · rw [map_fst_toList_eq_keys]
      cases listed : proof.storage.keys.contains slot with
      | false => rfl
      | true =>
        have member := mem_keys.mp (List.contains_iff_mem.mp listed)
        rw [getElem?_eq_some_getElem member] at found
        cases found
  | some value =>
    exact getElem?_insertMany_list_of_mem Std.ReflCmp.compare_self distinct_keys_toList
      (mem_toList_iff_getElem?_eq_some.mpr found)

theorem resurrected_get (slot : Nat) (other : AccountId) :
    (restore proof (({ t with stubs := t.stubs.erase proof.account.idCom } : StateTree).insert derive
        { proof.account with lastTouchedSlot := slot })).get other =
      if other = proof.account.idCom then some { proof.account with lastTouchedSlot := slot } else t.get other := by
  unfold StateTree.get
  rw [(restore_frame proof _).1]
  exact get_insert derive other

def resurrected (derive : Derivations) (t : StateTree) (proof : ResurrectionProof) (slot : Nat) : StateTree :=
  restore proof (({ t with stubs := t.stubs.erase proof.account.idCom } : StateTree).insert derive
    { proof.account with lastTouchedSlot := slot })

theorem resurrected_stubs (slot : Nat) (other : AccountId) :
    (resurrected derive t proof slot).stubs[other]? = if other = proof.account.idCom then none else t.stubs[other]? := by
  unfold resurrected
  rw [(restore_frame proof _).2.1]
  change ((t.stubs.erase proof.account.idCom).erase proof.account.idCom)[other]? = _
  rw [lookup_erase, lookup_erase]
  by_cases same : other = proof.account.idCom
  · rw [if_pos same, if_pos same]
  · rw [if_neg same, if_neg same]

theorem resurrected_storage (slot : Nat) {other : AccountId}
    (differ : other ≠ proof.account.idCom) :
    (resurrected derive t proof slot).contractStorage[other]? = t.contractStorage[other]? :=
  (restore_frame proof _).2.2 other differ

theorem resurrected_lookup (slot : Nat) (empty : t.contractStorage[proof.account.idCom]? = none)
    (key : Hash) :
    (((resurrected derive t proof slot).contractStorage[proof.account.idCom]?).getD ∅)[key]? = proof.storage[key]? := by
  apply restore_lookup
  exact empty

theorem TiersApart.resurrect (apart : TiersApart t) (proof : ResurrectionProof) (slot : Nat) :
    TiersApart (resurrected derive t proof slot) where
  keyed other a found := by
    unfold resurrected at found
    rw [resurrected_get] at found
    by_cases same : other = proof.account.idCom
    · rw [if_pos same] at found
      cases found
      exact same.symm
    · rw [if_neg same] at found
      exact apart.keyed other a found
  cold other stub found := by
    rw [resurrected_stubs] at found
    split at found <;> rename_i same
    · cases found
    obtain ⟨absent, storage, own⟩ := apart.cold other stub found
    refine ⟨?_, (resurrected_storage proof slot same).trans storage, own⟩
    unfold StateTree.contains resurrected
    rw [resurrected_get, if_neg same]
    exact absent

end AceChain.State
