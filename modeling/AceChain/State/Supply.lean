import AceChain.Lib.Ledger
import AceChain.Lib.Maps
import AceChain.State.StateTree

namespace AceChain.State.StateTree

open Lib

def supply (t : StateTree) : Nat := total (·.balance) t.accounts

def balanceOf (t : StateTree) (id : AccountId) : Nat := valueAt (·.balance) t.accounts id

variable {t t' : StateTree} {id : AccountId} {a : Account}

theorem balanceOf_eq (t : StateTree) (id : AccountId) : t.balanceOf id = ((t.get id).map (·.balance)).getD 0 := rfl

theorem balanceOf_of_get (found : t.get id = some a) : t.balanceOf id = a.balance := by
  rw [balanceOf_eq, found]
  rfl

theorem supply_congr (same : t'.accounts = t.accounts) : t'.supply = t.supply := by
  unfold supply
  rw [same]

theorem balanceOf_congr (same : t'.accounts = t.accounts) (id : AccountId) : t'.balanceOf id = t.balanceOf id := by
  unfold balanceOf
  rw [same]

variable (f : Account → Account)

theorem get_modify (other : AccountId) :
    (t.modify id f).get other = if other = id then (t.get other).map f else t.get other := by
  exact lookup_modify _ id other f

theorem get_insert (derive : Derivations) (other : AccountId) :
    (t.insert derive a).get other = if other = a.idCom then some a else t.get other := by
  exact lookup_insert _ a.idCom other a

theorem balanceOf_modify_ne {other : AccountId} (differ : other ≠ id) (f : Account → Account) :
    (t.modify id f).balanceOf other = t.balanceOf other := by
  rw [balanceOf_eq, get_modify, if_neg differ]
  rfl

theorem supply_modify_of_kept (kept : ∀ a, (f a).balance = a.balance) :
    (t.modify id f).supply = t.supply := by
  have changed : total (·.balance) (t.accounts.modify id f) + t.balanceOf id =
      t.supply + valueAt (fun a => (f a).balance) t.accounts id := total_modify f
  simp only [kept] at changed
  change (t.modify id f).supply + t.balanceOf id = t.supply + t.balanceOf id at changed
  omega

theorem supply_setBalance (known : t.contains id = true) (balance : Nat) :
    (t.modify id (fun a => { a with balance := balance })).supply + t.balanceOf id = t.supply + balance := by
  obtain ⟨a, found⟩ := Option.isSome_iff_exists.mp known
  have held : t.accounts[id]? = some a := found
  have new : valueAt (fun _ => balance) t.accounts id = balance := by
    unfold valueAt
    rw [held]
    rfl
  have changed : (t.modify id (fun a => { a with balance := balance })).supply + t.balanceOf id =
      t.supply + valueAt (fun _ => balance) t.accounts id := total_modify _
  rw [new] at changed
  exact changed

theorem contains_modify (other : AccountId) :
    (t.modify id f).contains other = t.contains other := by
  unfold contains
  rw [get_modify]
  split
  · rw [Option.isSome_map]
  · rfl

theorem balanceOf_setBalance (known : t.contains id = true) (balance : Nat) :
    (t.modify id (fun a => { a with balance := balance })).balanceOf id = balance := by
  obtain ⟨a, found⟩ := Option.isSome_iff_exists.mp known
  rw [balanceOf_eq, get_modify, if_pos rfl, found]
  rfl

theorem balanceOf_modify_of_kept (kept : ∀ a, (f a).balance = a.balance) (other : AccountId) :
    (t.modify id f).balanceOf other = t.balanceOf other := by
  rw [balanceOf_eq, get_modify, balanceOf_eq]
  split
  · cases t.get other with
    | none => rfl
    | some a => exact kept a
  · rfl

theorem supply_setNonce (t : StateTree) (id : AccountId) (nonce : Nat) :
    (t.modify id (fun a => { a with nonce := nonce })).supply = t.supply :=
  supply_modify_of_kept (fun a => { a with nonce := nonce }) (fun _ => rfl)

theorem balanceOf_setNonce (t : StateTree) (id : AccountId) (nonce : Nat) (other : AccountId) :
    (t.modify id (fun a => { a with nonce := nonce })).balanceOf other = t.balanceOf other :=
  balanceOf_modify_of_kept (fun a => { a with nonce := nonce }) (fun _ => rfl) other

theorem supply_insert (derive : Derivations) :
    (t.insert derive a).supply + t.balanceOf a.idCom = t.supply + a.balance := total_insert a

def Keyed (t : StateTree) : Prop := ∀ id a, t.get id = some a → a.idCom = id

theorem Keyed.insert (keyed : Keyed t) (derive : Derivations) (a : Account) :
    Keyed (t.insert derive a) := by
  intro id found stored
  rw [get_insert] at stored
  by_cases same : id = a.idCom
  · rw [if_pos same] at stored
    cases stored
    exact same.symm
  · rw [if_neg same] at stored
    exact keyed id found stored

theorem Keyed.modify (keyed : Keyed t) {f : Account → Account}
    (kept : ∀ a, (f a).idCom = a.idCom) : Keyed (t.modify id f) := by
  intro other found stored
  rw [get_modify] at stored
  by_cases same : other = id
  · rw [if_pos same, Option.map_eq_some_iff] at stored
    obtain ⟨a, held, rfl⟩ := stored
    rw [kept]
    exact keyed other a held
  · rw [if_neg same] at stored
    exact keyed other found stored

theorem Keyed.of_accounts (keyed : Keyed t) (same : t'.accounts = t.accounts) : Keyed t' := by
  intro id a found
  apply keyed id a
  unfold get at found ⊢
  rw [same] at found
  exact found

structure KeepsBalances (t t' : StateTree) : Prop where
  keyed : Keyed t → Keyed t'
  supply : t'.supply = t.supply
  balanceOf : ∀ id, t'.balanceOf id = t.balanceOf id

theorem KeepsBalances.refl (t : StateTree) : KeepsBalances t t := ⟨fun keyed => keyed, rfl, fun _ => rfl⟩

theorem KeepsBalances.trans {t'' : StateTree} (first : KeepsBalances t t') (second : KeepsBalances t' t'') :
    KeepsBalances t t'' where
  keyed := fun keyed => second.keyed (first.keyed keyed)
  supply := second.supply.trans first.supply
  balanceOf id := (second.balanceOf id).trans (first.balanceOf id)

theorem KeepsBalances.modify {f : Account → Account}
    (balance : ∀ a, (f a).balance = a.balance) (kept : ∀ a, (f a).idCom = a.idCom) : KeepsBalances t (t.modify id f) where
  keyed keyed := keyed.modify kept
  supply := supply_modify_of_kept f balance
  balanceOf := balanceOf_modify_of_kept f balance

theorem KeepsBalances.of_accounts (same : t'.accounts = t.accounts) : KeepsBalances t t' where
  keyed keyed := keyed.of_accounts same
  supply := supply_congr same
  balanceOf := balanceOf_congr same

end AceChain.State.StateTree
