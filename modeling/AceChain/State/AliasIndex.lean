import AceChain.State.Tiers

namespace AceChain.State

open Lib StateTree StateTree

inductive Alias where
  | evm (address : Address)
  | tron (address : Address)
  | solana (pubkey : Hash)
  | btc (script : List UInt8)
  | xid (xid : Hash)
  | xaddress (xaddress : Hash)
deriving DecidableEq

def StateTree.resolve (t : StateTree) : Alias → Option AccountId
  | .evm address => t.resolveEvm address
  | .tron address => t.resolveTron address
  | .solana pubkey => t.resolveSolana pubkey
  | .btc script => t.resolveBtc script
  | .xid xid => t.resolveXid xid
  | .xaddress xaddress => t.resolveXaddress xaddress

def Account.Carries (derive : Derivations) (a : Account) : Alias → Prop
  | .evm address => accountEvmAddress derive a = address
  | .tron address => accountTronAddress derive a = address
  | .solana pubkey => a.solanaAddress = some pubkey
  | .btc script => a.btcAddress = some script
  | .xid xid => a.xid = some xid
  | .xaddress xaddress => a.xaddress = some xaddress

def StateTree.Holds (derive : Derivations) (t : StateTree) (id : AccountId) (k : Alias) : Prop :=
  ∃ a, t.get id = some a ∧ a.Carries derive k

section Index

variable {κ : Type} [DecidableEq κ] (index : κ → Option AccountId) (old new : Option κ) (id owner : AccountId) (key : κ)

theorem unindex_eq_some : unindex index old key = some owner ↔ ¬old = some key ∧ index key = some owner := by
  unfold unindex
  cases old with
  | none => simp
  | some previous =>
    by_cases same : key = previous
    · simp [same]
    · have differ : previous ≠ key := fun equal => same equal.symm
      simp [same, differ]

/-- Who has an address after a change of one account: that account, if it carries the address now and the address was its own
or free, or whoever had it, unless the account carried it before. -/
theorem reindex_eq_some : reindex index old new id key = some owner ↔
    (owner = id ∧ new = some key ∧ (old = some key ∨ index key = none ∨ index key = some id)) ∨
      (¬old = some key ∧ index key = some owner) := by
  unfold reindex
  cases new with
  | none => simp [unindex_eq_some]
  | some current =>
    dsimp only
    have freed : unindex index old current = none ↔ old = some current ∨ index current = none := by
      rw [Option.eq_none_iff_forall_ne_some]
      simp only [ne_eq, unindex_eq_some, not_and]
      constructor
      · intro unbound
        by_cases own : old = some current
        · exact .inl own
        · exact .inr (Option.eq_none_iff_forall_ne_some.mpr (fun owner => unbound owner own))
      · rintro (own | none_) owner differ bound
        · exact differ own
        · rw [none_] at bound
          cases bound
    by_cases same : key = current
    · subst same
      by_cases free : unindex index old key = none ∨ unindex index old key = some id
      · rw [if_pos free, Function.update_self]
        rw [freed, unindex_eq_some] at free
        constructor
        · intro taken
          cases taken
          refine .inl ⟨rfl, rfl, ?_⟩
          grind
        · rintro (⟨rfl, -, -⟩ | ⟨differ, bound⟩)
          · rfl
          · rcases free with (own | none_) | ⟨-, ours⟩
            · exact absurd own differ
            · rw [none_] at bound
              cases bound
            · exact ours.symm.trans bound
      · rw [if_neg free, unindex_eq_some]
        constructor
        · exact .inr
        · rintro (⟨rfl, -, taken⟩ | kept)
          · grind
          · exact kept
    · have other : current ≠ key := fun equal => same equal.symm
      have unchanged : (if unindex index old current = none ∨ unindex index old current = some id then
          Function.update (unindex index old) current (some id) else unindex index old) key = unindex index old key := by
        split
        · exact Function.update_of_ne same _ _
        · rfl
      rw [unchanged, unindex_eq_some]
      simp [other]

end Index

variable {derive : Derivations} {t t' : StateTree} {id owner : AccountId} {a : Account} {k : Alias}

theorem resolve_insert : (t.insert derive a).resolve k = some owner ↔
    (owner = a.idCom ∧ a.Carries derive k ∧ (t.Holds derive a.idCom k ∨ t.resolve k = none ∨ t.resolve k = some a.idCom)) ∨
      (¬t.Holds derive a.idCom k ∧ t.resolve k = some owner) := by
  cases k with
  | evm address =>
    have changed := reindex_eq_some t.evmIndex ((t.get a.idCom).map (accountEvmAddress derive))
      (some (accountEvmAddress derive a)) a.idCom owner address
    rw [Option.map_eq_some_iff, Option.some.injEq] at changed
    exact changed
  | tron address =>
    have changed := reindex_eq_some t.tronIndex ((t.get a.idCom).map (accountTronAddress derive))
      (some (accountTronAddress derive a)) a.idCom owner address
    rw [Option.map_eq_some_iff, Option.some.injEq] at changed
    exact changed
  | solana pubkey =>
    have changed := reindex_eq_some t.solanaIndex ((t.get a.idCom).bind (·.solanaAddress)) a.solanaAddress a.idCom owner pubkey
    rw [Option.bind_eq_some_iff] at changed
    exact changed
  | btc script =>
    have changed := reindex_eq_some t.btcIndex ((t.get a.idCom).bind (·.btcAddress)) a.btcAddress a.idCom owner script
    rw [Option.bind_eq_some_iff] at changed
    exact changed
  | xid xid =>
    have changed := reindex_eq_some t.xidIndex ((t.get a.idCom).bind (·.xid)) a.xid a.idCom owner xid
    rw [Option.bind_eq_some_iff] at changed
    exact changed
  | xaddress xaddress =>
    have changed := reindex_eq_some t.xaddressIndex ((t.get a.idCom).bind (·.xaddress)) a.xaddress a.idCom owner xaddress
    rw [Option.bind_eq_some_iff] at changed
    exact changed

theorem resolve_detach : (t.detach derive a id).resolve k = some owner ↔ ¬a.Carries derive k ∧ t.resolve k = some owner := by
  cases k with
  | evm address =>
    have changed := unindex_eq_some t.evmIndex (some (accountEvmAddress derive a)) owner address
    rw [Option.some.injEq] at changed
    exact changed
  | tron address =>
    have changed := unindex_eq_some t.tronIndex (some (accountTronAddress derive a)) owner address
    rw [Option.some.injEq] at changed
    exact changed
  | solana pubkey => exact unindex_eq_some t.solanaIndex a.solanaAddress owner pubkey
  | btc script => exact unindex_eq_some t.btcIndex a.btcAddress owner script
  | xid xid => exact unindex_eq_some t.xidIndex a.xid owner xid
  | xaddress xaddress => exact unindex_eq_some t.xaddressIndex a.xaddress owner xaddress

def Indexed (derive : Derivations) (t : StateTree) : Prop := ∀ k id, t.resolve k = some id → t.Holds derive id k

inductive AliasOp where
  | insert (a : Account)
  | remove (id : AccountId)
  | expireAccount (id : AccountId) (slot : Nat)
  | resurrectAccount (proof : ResurrectionProof) (slot : Nat)

namespace AliasOp

def subject : AliasOp → AccountId
  | insert a => a.idCom
  | remove id => id
  | expireAccount id _ => id
  | resurrectAccount proof _ => proof.account.idCom

variable (derive : Derivations) (t : StateTree)

def apply : AliasOp → StateTree
  | insert a => t.insert derive a
  | remove id => t.remove derive id
  | expireAccount id slot => t.expireAccount derive id slot
  | resurrectAccount proof slot =>
    match t.resurrectAccount derive proof slot with
    | .ok after => after
    | .error _ => t

def KeepsOthers (op : AliasOp) : Prop :=
  ∀ k owner, t.resolve k = some owner → owner ≠ op.subject → (op.apply derive t).resolve k = some owner

def Undisputed : AliasOp → Prop
  | insert a => ∀ k owner, t.Holds derive a.idCom k → t.resolve k = some owner → owner = a.idCom
  | remove id => ∀ k owner, t.Holds derive id k → t.resolve k = some owner → owner = id
  | expireAccount id _ => ∀ k owner, t.Holds derive id k → t.resolve k = some owner → owner = id
  | resurrectAccount _ _ => True

end AliasOp

open AliasOp

/-- What a run of these operations keeps: the indexes are right, and what is expired is not hot. -/
structure AliasSound (derive : Derivations) (t : StateTree) : Prop where
  indexed : Indexed derive t
  apart : ∀ id, t.isStubbed id = true → t.get id = none

theorem holds_of_get {other : AccountId} (same : t'.get other = t.get other) :
    t'.Holds derive other k ↔ t.Holds derive other k := by
  unfold Holds
  rw [same]

theorem Indexed.insert (indexed : Indexed derive t) (a : Account) : Indexed derive (t.insert derive a) := by
  intro k owner bound
  rcases resolve_insert.mp bound with ⟨rfl, carries, -⟩ | ⟨fresh, kept⟩
  · exact ⟨a, (get_insert derive a.idCom).trans (if_pos rfl), carries⟩
  · have held := indexed k owner kept
    have differ : owner ≠ a.idCom := fun same => fresh (same ▸ held)
    exact (holds_of_get ((get_insert derive owner).trans (if_neg differ))).mpr held

section Drop

variable {after : StateTree} (dropped : ∀ k owner, after.resolve k = some owner ↔ ¬t.Holds derive id k ∧
  t.resolve k = some owner)

include dropped

theorem Indexed.drop (indexed : Indexed derive t) (kept : ∀ other, other ≠ id → after.get other = t.get other) :
    Indexed derive after := by
  intro k owner bound
  obtain ⟨free, before⟩ := (dropped k owner).mp bound
  have held := indexed k owner before
  have differ : owner ≠ id := fun same => free (same ▸ held)
  exact (holds_of_get (kept owner differ)).mpr held

theorem drop_keepsOthers_iff : (∀ k owner, t.resolve k = some owner → owner ≠ id → after.resolve k = some owner) ↔
    ∀ k owner, t.Holds derive id k → t.resolve k = some owner → owner = id := by
  constructor
  · intro kept k owner held bound
    by_contra differ
    exact ((dropped k owner).mp (kept k owner bound differ)).1 held
  · intro undisputed k owner bound differ
    exact (dropped k owner).mpr ⟨fun held => differ (undisputed k owner held bound), bound⟩

end Drop

theorem insert_keepsOthers_iff : (∀ k owner, t.resolve k = some owner → owner ≠ a.idCom →
    (t.insert derive a).resolve k = some owner) ↔
    ∀ k owner, t.Holds derive a.idCom k → t.resolve k = some owner → owner = a.idCom := by
  constructor
  · intro kept k owner held bound
    by_contra differ
    rcases resolve_insert.mp (kept k owner bound differ) with ⟨same, -⟩ | ⟨fresh, -⟩
    · exact differ same
    · exact fresh held
  · intro undisputed k owner bound differ
    exact resolve_insert.mpr (.inr ⟨fun held => differ (undisputed k owner held bound), bound⟩)

theorem resolve_withStubs (stubs : Std.TreeMap AccountId AccountStub) (k : Alias) :
    ({ t with stubs := stubs } : StateTree).resolve k = t.resolve k := by
  cases k <;> rfl

theorem resolve_remove : (t.remove derive id).resolve k = some owner ↔ ¬t.Holds derive id k ∧ t.resolve k = some owner := by
  unfold StateTree.remove StateTree.Holds
  cases t.get id with
  | none => simp
  | some a => simp [resolve_detach]

theorem resolve_expireAccount {slot : Nat} :
    (t.expireAccount derive id slot).resolve k = some owner ↔ ¬t.Holds derive id k ∧ t.resolve k = some owner := by
  unfold StateTree.expireAccount StateTree.Holds
  cases t.get id with
  | none => simp
  | some a => simp [resolve_withStubs, resolve_detach]

theorem resolve_restore (proof : ResurrectionProof) (t : StateTree) (k : Alias) :
    (restore proof t).resolve k = t.resolve k := by
  apply List.foldlRecOn (motive := fun after : StateTree => after.resolve k = t.resolve k)
  · rfl
  · intro after same entry _
    rw [← same]
    cases k <;> rfl

theorem resurrectAccount_apply (derive : Derivations) (t : StateTree) (proof : ResurrectionProof) (slot : Nat) :
    (resurrectAccount proof slot).apply derive t = t ∨
      t.isStubbed proof.account.idCom = true ∧
        (resurrectAccount proof slot).apply derive t = resurrected derive t proof slot := by
  rcases resurrectAccount_cases derive t proof slot with ⟨text, refused⟩ | ⟨⟨stub, found, -⟩, done⟩
  · left
    simp only [apply, refused]
  · right
    refine ⟨isStubbed_iff.mpr ⟨stub, found⟩, ?_⟩
    simp only [apply, done]
    rfl

theorem resolve_resurrected {proof : ResurrectionProof} (cold : t.get proof.account.idCom = none) (slot : Nat) :
    (resurrected derive t proof slot).resolve k = some owner ↔
      (owner = proof.account.idCom ∧ ({ proof.account with lastTouchedSlot := slot } : Account).Carries derive k ∧
        (t.resolve k = none ∨ t.resolve k = some proof.account.idCom)) ∨ t.resolve k = some owner := by
  have bare : ¬t.Holds derive proof.account.idCom k := by
    rintro ⟨a, held, -⟩
    rw [cold] at held
    cases held
  have erased : ¬({ t with stubs := t.stubs.erase proof.account.idCom } : StateTree).Holds derive proof.account.idCom k := bare
  unfold resurrected
  rw [resolve_restore, resolve_insert, resolve_withStubs]
  simp only [erased, false_or, not_false_eq_true, true_and]

namespace AliasSound

section

variable (sound : AliasSound derive t)

include sound

theorem remove (id : AccountId) : AliasSound derive (t.remove derive id) := by
  have get := get_remove derive t id
  refine ⟨sound.indexed.drop (fun _ _ => resolve_remove) fun other differ => (get other).trans (if_neg differ),
    fun other stubbed => ?_⟩
  unfold isStubbed at stubbed
  rw [stubs_remove] at stubbed
  rw [get, sound.apart other stubbed, ite_self]

theorem expireAccount (id : AccountId) (slot : Nat) : AliasSound derive (t.expireAccount derive id slot) := by
  refine ⟨?_, fun other stubbed => ?_⟩
  · exact sound.indexed.drop (fun _ _ => resolve_expireAccount) fun other differ =>
      (get_expireAccount derive t id slot).trans (if_neg differ)
  · have swept : Swept derive t (t.expireAccount derive id slot) slot other := expireAccount_swept t id slot other
    rcases swept with ⟨same, stubs, -⟩ | ⟨_, -, gone, -⟩
    · rw [same]
      obtain ⟨stub, there⟩ := isStubbed_iff.mp stubbed
      exact sound.apart other (isStubbed_iff.mpr ⟨stub, stubs ▸ there⟩)
    · exact gone

theorem insert (a : Account) : AliasSound derive (t.insert derive a) := by
  refine ⟨sound.indexed.insert a, fun other stubbed => ?_⟩
  obtain ⟨stub, there⟩ := isStubbed_iff.mp stubbed
  change (t.stubs.erase a.idCom)[other]? = some stub at there
  rw [lookup_erase] at there
  split at there <;> rename_i same
  · cases there
  rw [get_insert, if_neg same]
  exact sound.apart other (isStubbed_iff.mpr ⟨stub, there⟩)

theorem resurrected {proof : ResurrectionProof} (stubbed : t.isStubbed proof.account.idCom = true)
    (slot : Nat) : AliasSound derive (resurrected derive t proof slot) := by
  have cold := sound.apart proof.account.idCom stubbed
  refine ⟨fun k owner bound => ?_, fun other stubbed' => ?_⟩
  · rcases (resolve_resurrected cold slot).mp bound with ⟨rfl, carries, -⟩ | kept
    · exact ⟨_, (resurrected_get proof slot _).trans (if_pos rfl), carries⟩
    · have held := sound.indexed k owner kept
      have differ : owner ≠ proof.account.idCom := by
        rintro rfl
        obtain ⟨a, here, -⟩ := held
        rw [cold] at here
        cases here
      exact (holds_of_get ((resurrected_get proof slot owner).trans (if_neg differ))).mpr held
  · obtain ⟨stub, there⟩ := isStubbed_iff.mp stubbed'
    rw [resurrected_stubs] at there
    split at there <;> rename_i same
    · cases there
    exact ((resurrected_get proof slot other).trans (if_neg same)).trans
      (sound.apart other (isStubbed_iff.mpr ⟨stub, there⟩))

theorem step (op : AliasOp) : AliasSound derive (op.apply derive t) := by
  cases op with
  | insert a => exact sound.insert a
  | remove id => exact sound.remove id
  | expireAccount id slot => exact sound.expireAccount id slot
  | resurrectAccount proof slot =>
    rcases resurrectAccount_apply derive t proof slot with same | ⟨stubbed, done⟩
    · rw [same]
      exact sound
    · rw [done]
      exact sound.resurrected stubbed slot

end

end AliasSound

theorem keepsOthers_iff (sound : AliasSound derive t) (op : AliasOp) : op.KeepsOthers derive t ↔ op.Undisputed derive t := by
  cases op with
  | insert a => exact insert_keepsOthers_iff
  | remove id => exact drop_keepsOthers_iff fun _ _ => resolve_remove
  | expireAccount id slot => exact drop_keepsOthers_iff fun _ _ => resolve_expireAccount
  | resurrectAccount proof slot =>
    refine ⟨fun _ => trivial, fun _ k owner bound _ => ?_⟩
    rcases resurrectAccount_apply derive t proof slot with same | ⟨stubbed, done⟩
    · rw [same]
      exact bound
    · rw [done]
      exact (resolve_resurrected (sound.apart _ stubbed) slot).mpr (.inr bound)

theorem aliasSound_new : AliasSound derive .new where
  indexed k owner bound := by cases k <;> cases bound
  apart id stubbed := by
    obtain ⟨stub, there⟩ := isStubbed_iff.mp stubbed
    simp [new] at there

theorem run_aliasSound (ops : List AliasOp) : AliasSound derive (run (apply derive) .new ops) :=
  run_invariant (fun _ op _ sound _ => sound.step op) aliasSound_new (meets_true ops)

/-- From the empty tree, every index entry points to a hot account that carries the address, whatever is done. No operation
drops or takes over an address of another account if and only if none is on an account whose hot version carries an address
bound to another one. -/
theorem alias_index_integrity_iff (derive : Derivations) (ops : List AliasOp) :
    ((∀ n, Indexed derive (run (apply derive) .new (ops.take n))) ∧
      ∀ (n : Nat) (op : AliasOp), ops[n]? = some op → op.KeepsOthers derive (run (apply derive) .new (ops.take n))) ↔
    Meets (apply derive) (fun t op => op.Undisputed derive t) .new ops := by
  have indexed : ∀ n, Indexed derive (run (apply derive) .new (ops.take n)) := by
    intro n
    exact (run_aliasSound (ops.take n)).indexed
  rw [meets_iff_getElem?]
  constructor
  · rintro ⟨-, kept⟩ n op at_
    exact (keepsOthers_iff (run_aliasSound (ops.take n)) op).mp (kept n op at_)
  · intro undisputed
    refine ⟨indexed, fun n op at_ => ?_⟩
    exact (keepsOthers_iff (run_aliasSound (ops.take n)) op).mpr (undisputed n op at_)

namespace SmallAlias

def derivations : Derivations := .ofWidths (fun a _ => a.idCom.bytes) (fun _ => 1)

def first : Account := { Account.new ⟨1⟩ with solanaAddress := some 7 }

def second : Account := { Account.new ⟨2⟩ with solanaAddress := some 7 }

def shared : StateTree := run (apply derivations) .new [.insert first, .insert second]

end SmallAlias

open SmallAlias

/-- Writing the second account once more takes the address over; removing or expiring it drops the address. -/
theorem shared_address_taken_over :
    shared.resolveSolana 7 = some ⟨1⟩ ∧
      (shared.insert derivations second).resolveSolana 7 = some ⟨2⟩ ∧
      (shared.remove derivations ⟨2⟩).resolveSolana 7 = none ∧
      (shared.expireAccount derivations ⟨2⟩ 9).resolveSolana 7 = none := by
  decide +kernel

end AceChain.State
