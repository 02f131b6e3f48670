import AceChain.State.AccountHash
import AceChain.State.AliasIndex

namespace AceChain.State

open Lib StateTree Account

def StateTree.storageOf (t : StateTree) (id : AccountId) : Storage := (t.contractStorage[id]?).getD ∅

def StateTree.ownProof (t : StateTree) (a : Account) : ResurrectionProof := ⟨a, t.storageOf a.idCom⟩

structure Restored (derive : Derivations) (t t' : StateTree) (a : Account) (slot : Nat) : Prop where
  account : t'.get a.idCom = some { a with lastTouchedSlot := slot }
  storage : ∀ key : Hash, (t'.storageOf a.idCom)[key]? = (t.storageOf a.idCom)[key]?
  aliases : ∀ k, a.Carries derive k → t'.resolve k = t.resolve k

def ResurrectionProof.Describes (proof : ResurrectionProof) (a : Account) (storage : Storage) : Prop :=
  proof.account = a ∧ proof.storage.toList = storage.toList

/-- The encoding does not tell the proof's account from `a`: where the lengths fit their widths, the two differ at most
in the code, which is not hashed, and in the order of the extra keys, which are sorted first. Beyond the widths it is
ambiguous, and all there is to say is that the bytes are the same. -/
def Indistinct (sha : List UInt8 → Hash) (a : Account) (storage : Storage) (proof : ResurrectionProof) : Prop :=
  if a.Sized ∧ proof.account.Sized then a.Twin proof.account ∧ proof.storage.toList = storage.toList
  else proof.account.idCom = a.idCom ∧ proof.account.stubBytes sha (some proof.storage) = a.stubBytes sha (some storage)

section

variable {sha : List UInt8 → Hash} {derive : Derivations} {t t' : StateTree} {a : Account} {proof : ResurrectionProof}
  {slot : Nat}

theorem stubBytes_getD (storage : Option Storage) : a.stubBytes sha (some (storage.getD ∅)) = a.stubBytes sha storage := by
  unfold stubBytes
  rw [storageBytes_eq, storageBytes_eq, storageList_eq, storageList_eq]
  rfl

theorem resurrectAccount_accepted (accepted : Accepted derive t proof) (slot : Nat) :
    t.resurrectAccount derive proof slot = .ok (resurrected derive t proof slot) := by
  obtain ⟨stub, found, own, hash⟩ := accepted
  unfold resurrectAccount
  rw [found]
  dsimp only
  rw [if_neg (not_or.mpr ⟨not_not.mpr own, not_not.mpr hash⟩)]
  rfl

theorem resurrectAccount_isOk : (t.resurrectAccount derive proof slot).isOk = true ↔ Accepted derive t proof := by
  constructor
  · intro ok
    rcases resurrectAccount_cases derive t proof slot with ⟨text, refused⟩ | ⟨accepted, -⟩
    · rw [refused] at ok
      cases ok
    · exact accepted
  · intro accepted
    rw [resurrectAccount_accepted accepted]
    rfl

section Expired

variable (held : t.get a.idCom = some a)

include held

theorem expireAccount_eq (slot : Nat) : t.expireAccount derive a.idCom slot =
    { t.detach derive a a.idCom with
      stubs := t.stubs.insert a.idCom ⟨a.idCom, derive.stubHash a (t.contractStorage[a.idCom]?), slot⟩ } := by
  unfold expireAccount
  rw [held]
  rfl

theorem accepted_expired_iff (own : proof.account.idCom = a.idCom) (slot : Nat) :
    Accepted derive (t.expireAccount derive a.idCom slot) proof ↔
      derive.stubHash proof.account (some proof.storage) = derive.stubHash a (t.contractStorage[a.idCom]?) := by
  have stub : (t.expireAccount derive a.idCom slot).stubs[a.idCom]? =
      some ⟨a.idCom, derive.stubHash a (t.contractStorage[a.idCom]?), slot⟩ := by
    rw [expireAccount_eq held]
    exact (lookup_insert _ _ _ _).trans (if_pos rfl)
  unfold Accepted
  rw [own, stub]
  simp

theorem resolve_roundTrip (slot newSlot : Nat) {k : Alias} (carries : a.Carries derive k) :
    (resurrected derive (t.expireAccount derive a.idCom slot) (t.ownProof a) newSlot).resolve k = some a.idCom := by
  have cold : (t.expireAccount derive a.idCom slot).get (t.ownProof a).account.idCom = none := by
    rw [expireAccount_eq held]
    exact (get_detach derive a a.idCom).trans (if_pos rfl)
  have free : (t.expireAccount derive a.idCom slot).resolve k = none := by
    rw [expireAccount_eq held, resolve_withStubs, Option.eq_none_iff_forall_ne_some]
    intro owner bound
    exact (resolve_detach.mp bound).1 carries
  rw [resolve_resurrected cold]
  refine .inl ⟨rfl, ?_, .inl free⟩
  cases k <;> exact carries

theorem restored_iff (slot newSlot : Nat) :
    Restored derive t (resurrected derive (t.expireAccount derive a.idCom slot) (t.ownProof a) newSlot) a newSlot ↔
      ∀ k, a.Carries derive k → t.resolve k = some a.idCom := by
  constructor
  · intro restored k carries
    rw [← restored.aliases k carries]
    exact resolve_roundTrip held slot newSlot carries
  · intro bound
    have empty : (t.expireAccount derive a.idCom slot).contractStorage[(t.ownProof a).account.idCom]? = none := by
      rw [expireAccount_eq held]
      exact (lookup_erase _ _ _).trans (if_pos rfl)
    constructor
    · exact (resurrected_get (t.ownProof a) newSlot a.idCom).trans (if_pos rfl)
    · exact resurrected_lookup (t.ownProof a) newSlot empty
    · intro k carries
      rw [bound k carries]
      exact resolve_roundTrip held slot newSlot carries

end Expired

theorem accepted_iff_indistinct (hashed : ∀ a storage, derive.stubHash a storage = a.computeStubHash sha storage)
    (held : t.get a.idCom = some a) (slot : Nat) (own : proof.account.idCom = a.idCom)
    (free : Set.InjOn sha (a.hashInputs sha (some (t.storageOf a.idCom)) ∪
      proof.account.hashInputs sha (some proof.storage))) :
    Accepted derive (t.expireAccount derive a.idCom slot) proof ↔ Indistinct sha a (t.storageOf a.idCom) proof := by
  have bytes : Accepted derive (t.expireAccount derive a.idCom slot) proof ↔
      proof.account.stubBytes sha (some proof.storage) = a.stubBytes sha (some (t.storageOf a.idCom)) := by
    rw [accepted_expired_iff held own, hashed, hashed]
    unfold computeStubHash
    rw [← stubBytes_getD (t.contractStorage[a.idCom]?)]
    exact ⟨fun same => free (.inr (Set.mem_insert _ _)) (.inl (Set.mem_insert _ _)) same, congrArg sha⟩
  rw [bytes]
  unfold Indistinct
  split
  · rename_i sized
    constructor
    · intro same
      exact twin_of_stubBytes sized.1 sized.2 (free.mono keys_subset_hashInputs) same
    · rintro ⟨twin, entries⟩
      unfold stubBytes toHashBytes
      rw [twin.hashedFields, storageBytes_eq, storageBytes_eq]
      change _ ++ entryBytes proof.storage.toList = _ ++ entryBytes (t.storageOf a.idCom).toList
      rw [entries]
  · simp [own]

end

/-- Expiry and resurrection bring an account back, and accept no proof but its own, exactly if its addresses were bound to it
and the proof is not an indistinct one of another record. -/
theorem expire_resurrect_iff (sha : List UInt8 → Hash) (derive : Derivations)
    (hashed : ∀ a storage, derive.stubHash a storage = a.computeStubHash sha storage) (t : StateTree) (a : Account)
    (held : t.get a.idCom = some a) (slot newSlot : Nat) (proof : ResurrectionProof)
    (free : Set.InjOn sha (a.hashInputs sha (some (t.storageOf a.idCom)) ∪
      proof.account.hashInputs sha (some proof.storage))) :
    ((∃ t', (t.expireAccount derive a.idCom slot).resurrectAccount derive (t.ownProof a) newSlot = .ok t' ∧
        Restored derive t t' a newSlot) ∧
      (proof.account.idCom = a.idCom →
        ((t.expireAccount derive a.idCom slot).resurrectAccount derive proof newSlot).isOk = true →
          proof.Describes a (t.storageOf a.idCom))) ↔
      (∀ k, a.Carries derive k → t.resolve k = some a.idCom) ∧
        (Indistinct sha a (t.storageOf a.idCom) proof → proof.Describes a (t.storageOf a.idCom)) := by
  have own : Accepted derive (t.expireAccount derive a.idCom slot) (t.ownProof a) := by
    rw [accepted_expired_iff held rfl, hashed, hashed]
    exact congrArg sha (stubBytes_getD (t.contractStorage[a.idCom]?))
  rw [resurrectAccount_accepted own]
  apply and_congr
  · rw [← restored_iff held slot newSlot]
    constructor
    · rintro ⟨t', same, restored⟩
      cases same
      exact restored
    · exact fun restored => ⟨_, rfl, restored⟩
  · rw [resurrectAccount_isOk]
    constructor
    · intro binds indistinct
      have same : proof.account.idCom = a.idCom := by
        unfold Indistinct at indistinct
        split at indistinct
        · have same := congrArg idCom indistinct.1.rest
          exact same
        · exact indistinct.1
      exact binds same ((accepted_iff_indistinct hashed held slot same free).mpr indistinct)
    · intro binds same accepted
      exact binds ((accepted_iff_indistinct hashed held slot same free).mp accepted)

namespace SmallProofs

def sha (bytes : List UInt8) : Hash := BitVec.ofNat 256 (bytes.foldl (fun h b => (h * 263 + b.toNat + 1) % (2 ^ 61 - 1)) 0)

def derive : Derivations := .ofWidths (Account.computeStubHash sha) sha

def owner : Account := { new ⟨1⟩ with solanaAddress := some 7, authKeys := [⟨.secp256k1, [2]⟩, ⟨.mlDsa44, [3]⟩] }

def tree : StateTree := (StateTree.new.insert derive owner).setStorage ⟨1⟩ 5 42

def forged : ResurrectionProof := ⟨{ owner with nonce := 9 }, tree.storageOf ⟨1⟩⟩

def twin : ResurrectionProof := ⟨{ owner with code := some [0x60], authKeys := owner.authKeys.reverse }, tree.storageOf ⟨1⟩⟩

def rival : Account := { new ⟨2⟩ with solanaAddress := some 7 }

def shared : StateTree := tree.insert derive rival

def inputs (proof : ResurrectionProof) : List (List UInt8) :=
  owner.stubBytes sha (some (tree.storageOf ⟨1⟩)) :: proof.account.stubBytes sha (some proof.storage) ::
    (owner.allAuthKeys ++ proof.account.allAuthKeys).map keyBytes

theorem collisionFree (proof : ResurrectionProof)
    (apart : ∀ x ∈ inputs proof, ∀ y ∈ inputs proof, sha x = sha y → x = y) :
    Set.InjOn sha (owner.hashInputs sha (some (tree.storageOf owner.idCom)) ∪
      proof.account.hashInputs sha (some proof.storage)) := by
  have listed : ∀ x ∈ owner.hashInputs sha (some (tree.storageOf owner.idCom)) ∪
      proof.account.hashInputs sha (some proof.storage), x ∈ inputs proof := by
    rintro x ((rfl | ⟨key, found, rfl⟩) | (rfl | ⟨key, found, rfl⟩))
    · exact List.mem_cons_self
    · exact List.mem_cons_of_mem _ (List.mem_cons_of_mem _ (List.mem_map_of_mem (List.mem_append_left _ found)))
    · exact List.mem_cons_of_mem _ List.mem_cons_self
    · exact List.mem_cons_of_mem _ (List.mem_cons_of_mem _ (List.mem_map_of_mem (List.mem_append_right _ found)))
  intro x hx y hy same
  exact apart x (listed x hx) y (listed y hy) same

theorem owner_aliases (k : Alias) (carries : owner.Carries derive k) : tree.resolve k = some ⟨1⟩ := by
  cases k with
  | evm address =>
    cases carries
    decide +kernel
  | tron address =>
    cases carries
    decide +kernel
  | solana pubkey =>
    cases carries
    decide +kernel
  | btc script => cases carries
  | xid xid => cases carries
  | xaddress xaddress => cases carries

theorem nonce_bound :
    (∃ t', (tree.expireAccount derive ⟨1⟩ 100).resurrectAccount derive (tree.ownProof owner) 200 = .ok t' ∧
      Restored derive tree t' owner 200) ∧
    ((⟨1⟩ : AccountId) = ⟨1⟩ → ((tree.expireAccount derive ⟨1⟩ 100).resurrectAccount derive forged 200).isOk = true →
      forged.Describes owner (tree.storageOf ⟨1⟩)) := by
  apply (expire_resurrect_iff sha derive (fun _ _ => rfl) tree owner (by decide +kernel) 100 200 forged
    (collisionFree forged (by decide +kernel))).mpr
  refine ⟨owner_aliases, fun indistinct => ?_⟩
  have nonces := congrArg nonce indistinct.1.rest
  exact absurd nonces (by decide)

/-- The twin goes through although nothing collides, and the round trip of the rival takes the address from its owner. -/
theorem twin_accepted :
    Set.InjOn sha (owner.hashInputs sha (some (tree.storageOf ⟨1⟩)) ∪ twin.account.hashInputs sha (some twin.storage)) ∧
    ((tree.expireAccount derive ⟨1⟩ 100).resurrectAccount derive twin 200).isOk = true ∧ twin.account ≠ owner ∧
    shared.resolveSolana 7 = some ⟨1⟩ ∧
    ((shared.expireAccount derive ⟨2⟩ 100).resurrectAccount derive (shared.ownProof rival) 200).toOption.map
      (·.resolveSolana 7) = some (some ⟨2⟩) :=
  ⟨collisionFree twin (by decide +kernel), by decide +kernel, by decide +kernel, by decide +kernel, by decide +kernel⟩

end SmallProofs

end AceChain.State
