import AceChain.Vm.Words

namespace AceChain.Vm

open AceChain.Runtime Engine State StateTree

structure Utxo where
  txid : Hash
  vout : Nat
  value : Nat
  scriptPubkey : List UInt8
deriving DecidableEq

/-- The SHA-256 storage slots of the UTXO store. -/
structure UtxoSlots where
  outpointHash : Hash → Nat → Hash
  scriptSlot : Hash → Nat → Nat → Hash
  countSlot : Hash

def chunkCount (len : Nat) : Nat := (len + 31) / 32

def Utxo.header (u : Utxo) : Hash := wordOf (leBytes 8 u.value ++ [1] ++ leBytes 4 u.scriptPubkey.length)

namespace UtxoSlots

variable (slots : UtxoSlots) (derive : Derivations) (t : StateTree) (owner : AccountId)

def getUtxo (txid : Hash) (vout : Nat) : Option Utxo :=
  let header := hashBytes (t.getStorage owner (slots.outpointHash txid vout))
  if header.getD 8 0 ≠ 1 then none
  else
    let scriptLen := leNat (slice header 9 4)
    let script := (List.range (chunkCount scriptLen)).foldl (fun script chunk =>
      script ++ (hashBytes (t.getStorage owner (slots.scriptSlot txid vout chunk))).take
        (min (scriptLen - script.length) 32)) []
    some ⟨txid, vout, leNat (slice header 0 8), script⟩

def count : Nat := wordU64 (t.getStorage owner slots.countSlot)

variable (u : Utxo)

def scriptWrites : List (Hash × Hash) :=
  (List.range (chunkCount u.scriptPubkey.length)).map (fun chunk =>
    (slots.scriptSlot u.txid u.vout chunk, wordOf (slice u.scriptPubkey (32 * chunk) 32)))

def storeUtxo : List StateChange × StateTree :=
  let acc := ((slots.outpointHash u.txid u.vout, u.header) :: slots.scriptWrites u).foldl (writeSlot owner) ([], t)
  writeSlot owner acc (slots.countSlot, u64Word (u64Add (slots.count acc.2 owner) 1))

/-- A UTXO is added to its owner's storage, and its value to the owner's balance; an overflow is found after the
storage was written. -/
def addUtxo : Outcome String (List StateChange) :=
  let created := if t.contains owner then [] else [StateChange.accountCreated owner]
  let (changes, t) := slots.storeUtxo (ensureAccount derive t owner) owner u
  let balance := t.balanceOf owner
  match u64CheckedAdd balance u.value with
  | none => (.error ("balance overflow: " ++ toString balance ++ " + " ++ toString u.value), t)
  | some credited =>
    (.ok (created ++ changes ++ [.balanceChange owner balance credited]),
      t.modify owner (fun a => { a with balance := credited }))

def clearUtxo : List StateChange × StateTree :=
  let acc := writeSlot owner ([], t) (slots.outpointHash u.txid u.vout, 0)
  let acc := (List.range (chunkCount u.scriptPubkey.length)).foldl (fun acc chunk =>
    let slot := slots.scriptSlot u.txid u.vout chunk
    if acc.2.hasStorage owner slot then writeSlot owner acc (slot, 0) else acc) acc
  writeSlot owner acc (slots.countSlot, u64Word (slots.count acc.2 owner - 1))

/-- A live UTXO is cleared and its value taken from the owner's balance, as far as the balance goes. -/
def spendUtxo (txid : Hash) (vout : Nat) :
    Option (Utxo × List StateChange × StateTree) :=
  match slots.getUtxo t owner txid vout with
  | none => none
  | some u =>
    let (changes, t) := slots.clearUtxo t owner u
    match t.get owner with
    | none => some (u, changes, t)
    | some account =>
      let left := account.balance - u.value
      some (u, changes ++ [.balanceChange owner account.balance left],
        t.modify owner (fun a => { a with balance := left }))

variable {slots} {derive} {t t' : StateTree} {owner : AccountId}

theorem storeUtxo_storageOnly (slots : UtxoSlots) (t : StateTree) (owner : AccountId) (u : Utxo) :
    StorageOnly t (slots.storeUtxo t owner u) := by
  apply StorageOnly.writeSlot
  apply List.foldlRecOn (motive := StorageOnly t)
  · exact .refl
  · exact fun acc only write _ => only.writeSlot write

theorem clearUtxo_storageOnly (slots : UtxoSlots) (t : StateTree) (owner : AccountId) (u : Utxo) :
    StorageOnly t (slots.clearUtxo t owner u) := by
  apply StorageOnly.writeSlot
  apply List.foldlRecOn (motive := StorageOnly t)
  · exact StorageOnly.refl.writeSlot _
  · intro acc only chunk _
    dsimp only
    split
    · exact only.writeSlot _
    · exact only

theorem addUtxo_supply (slots : UtxoSlots) (derive : Derivations) (t : StateTree) (owner : AccountId) (u : Utxo) :
    match slots.addUtxo derive t owner u with
    | (.ok changes, t') => t'.supply = t.supply + u.value ∧ feeOf changes = 0 ∧ t.balanceOf owner + u.value ≤ u64Max
    | (.error _, t') => t'.supply = t.supply ∧ (∀ id, t'.balanceOf id = t.balanceOf id) ∧
      u64Max < t.balanceOf owner + u.value := by
  have only := storeUtxo_storageOnly slots (ensureAccount derive t owner) owner u
  have kept : (slots.storeUtxo (ensureAccount derive t owner) owner u).2.supply = t.supply :=
    (supply_congr only.accounts).trans supply_ensureAccount
  have balances : ∀ id, (slots.storeUtxo (ensureAccount derive t owner) owner u).2.balanceOf id = t.balanceOf id := by
    intro id
    rw [only.balanceOf, balanceOf_ensureAccount]
  unfold addUtxo u64CheckedAdd
  dsimp only
  by_cases fits : (slots.storeUtxo (ensureAccount derive t owner) owner u).2.balanceOf owner + u.value ≤ u64Max
  · have known : (slots.storeUtxo (ensureAccount derive t owner) owner u).2.contains owner = true := by
      unfold contains
      rw [only.get, get_ensureAccount, if_pos rfl]
      rfl
    have changed := supply_setBalance known
      ((slots.storeUtxo (ensureAccount derive t owner) owner u).2.balanceOf owner + u.value)
    rw [if_pos fits]
    refine ⟨?_, ?_, by rwa [balances] at fits⟩
    · omega
    · rw [feeOf_append, feeOf_append, only.free]
      split <;> rfl
  · rw [if_neg fits]
    exact ⟨kept, balances, by rw [balances] at fits; omega⟩

theorem getUtxo_of_spendUtxo {txid : Hash} {vout : Nat} {u : Utxo} {changes : List StateChange}
    (spent : slots.spendUtxo t owner txid vout = some (u, changes, t')) : slots.getUtxo t owner txid vout = some u := by
  unfold spendUtxo at spent
  cases found : slots.getUtxo t owner txid vout with
  | none =>
    rw [found] at spent
    cases spent
  | some live =>
    rw [found] at spent
    dsimp only at spent
    split at spent
    · cases spent
      rfl
    · cases spent
      rfl

theorem spendUtxo_supply {txid : Hash} {vout : Nat} {u : Utxo} {changes : List StateChange}
    (spent : slots.spendUtxo t owner txid vout = some (u, changes, t')) :
    t'.supply + u.value = t.supply + (u.value - t.balanceOf owner) ∧ feeOf changes = 0 := by
  unfold spendUtxo at spent
  cases found : slots.getUtxo t owner txid vout with
  | none =>
    rw [found] at spent
    cases spent
  | some live =>
    have only := clearUtxo_storageOnly slots t owner live
    have kept := supply_congr only.accounts
    rw [found] at spent
    dsimp only at spent
    cases held : (slots.clearUtxo t owner live).2.get owner with
    | none =>
      rw [held] at spent
      cases spent
      have empty : t.balanceOf owner = 0 := by
        rw [← only.balanceOf, balanceOf_eq, held]
        rfl
      rw [empty, kept]
      exact ⟨rfl, only.free⟩
    | some account =>
      rw [held] at spent
      cases spent
      have changed := supply_setBalance (Option.isSome_of_eq_some held) (account.balance - u.value)
      have own := balanceOf_of_get held
      have same := only.balanceOf owner
      constructor
      · omega
      · rw [feeOf_append, only.free]
        rfl

end UtxoSlots

end AceChain.Vm
