import AceChain.Hfi.Recipient
import AceChain.State.RootBinding

namespace AceChain.State

open Lib StateTree Std.TreeMap

namespace StateTree

def hfiIntentRemove (t : StateTree) (intentId : Hash) : StateTree := { t with hfiIntents := t.hfiIntents.erase intentId }

end StateTree

open StateTree

/-- The operations that change a tree. A rollback only returns to a tree that a shorter run reaches. -/
inductive TreeOp where
  | insert (a : Account)
  | update (id : AccountId) (f : Account → Account)
  | remove (id : AccountId)
  | setStorage (id : AccountId) (slot value : Hash)
  | setCode (id : AccountId) (code : List UInt8)
  | hfiRecipientPut (idHash identityCommitment : Hash) (bytes : List UInt8)
  | hfiIntentPut (intentId : Hash) (bytes : List UInt8)
  | hfiIntentRemove (intentId : Hash)
  | zkReplayConsume (rpCom idcom : Hash)
  | insertStub (stub : AccountStub)
  | expireAccount (id : AccountId) (slot : Nat)
  | resurrectAccount (proof : ResurrectionProof) (slot : Nat)
  | sweepExpired (slot period : Nat)

def TreeOp.apply (derive : Derivations) (t : StateTree) : TreeOp → StateTree
  | insert a => t.insert derive a
  | update id f => t.modify id f
  | remove id => t.remove derive id
  | setStorage id slot value => t.setStorage id slot value
  | setCode id code => (t.setCode derive id code).2
  | hfiRecipientPut idHash idcom bytes => t.hfiRecipientPut idHash idcom bytes
  | hfiIntentPut id bytes => t.hfiIntentPut id bytes
  | hfiIntentRemove id => t.hfiIntentRemove id
  | zkReplayConsume rpCom idcom => (t.zkReplayConsume rpCom idcom).getD t
  | insertStub stub => t.insertStub stub
  | expireAccount id slot => t.expireAccount derive id slot
  | resurrectAccount proof slot =>
    match t.resurrectAccount derive proof slot with
    | .ok after => after
    | .error _ => t
  | sweepExpired slot period => t.sweepExpired derive slot period

namespace Traced

def new : Traced := ⟨.new, fun id => (Account.new id, none)⟩

/-- The version of an account is the one it last had in the hot tier. -/
def step (derive : Derivations) (s : Traced) (op : TreeOp) : Traced where
  tree := op.apply derive s.tree
  version id :=
    match s.tree.get id with
    | some a => (a, s.tree.contractStorage[id]?)
    | none => s.version id

/-- A write in place keeps the id, and a stub is put back only for the version that expired. -/
def Faithful (sha : List UInt8 → Hash) (s : Traced) : TreeOp → Prop
  | .update id f => ∀ a, s.tree.get id = some a → (f a).idCom = a.idCom
  | .insertStub stub => s.tree.get stub.idCom = none ∧ (s.version stub.idCom).1.idCom = stub.idCom ∧
      stub.hash = (s.version stub.idCom).1.computeStubHash sha (s.version stub.idCom).2
  | _ => True

variable {derive : Derivations} {sha : List UInt8 → Hash} {s : Traced} {op : TreeOp}

theorem version_step_cold {id : AccountId} (cold : s.tree.get id = none) : (s.step derive op).version id = s.version id := by
  change (match s.tree.get id with
    | some a => (a, s.tree.contractStorage[id]?)
    | none => s.version id) = _
  rw [cold]

theorem version_step_hot {id : AccountId} {a : Account} (hot : s.tree.get id = some a) :
    (s.step derive op).version id = (a, s.tree.contractStorage[id]?) := by
  change (match s.tree.get id with
    | some a => (a, s.tree.contractStorage[id]?)
    | none => s.version id) = _
  rw [hot]

section

variable (genuine : s.Genuine sha)

include genuine

theorem Genuine.keep (keyed : Keyed (op.apply derive s.tree))
    (cold : ∀ (id : AccountId) stub, (op.apply derive s.tree).stubs[id]? = some stub →
      s.tree.stubs[id]? = some stub ∧ (s.tree.get id = none → (op.apply derive s.tree).get id = none)) :
    (s.step derive op).Genuine sha where
  keyed := keyed
  cold id stub stubbed := by
    obtain ⟨before, stays⟩ := cold id stub stubbed
    obtain ⟨absent, own, version, hash⟩ := genuine.cold id stub before
    rw [version_step_cold absent]
    exact ⟨stays absent, own, version, hash⟩

theorem Genuine.frame (accounts : (op.apply derive s.tree).accounts = s.tree.accounts)
    (stubs : (op.apply derive s.tree).stubs = s.tree.stubs) : (s.step derive op).Genuine sha := by
  apply genuine.keep (genuine.keyed.of_accounts accounts)
  intro id stub stubbed
  rw [stubs] at stubbed
  refine ⟨stubbed, fun absent => ?_⟩
  unfold StateTree.get
  rw [accounts]
  exact absent

theorem Genuine.modify (id : AccountId) (f : Account → Account)
    (applied : op.apply derive s.tree = s.tree.modify id f) (kept : ∀ a, s.tree.get id = some a → (f a).idCom = a.idCom) :
    (s.step derive op).Genuine sha := by
  have cold := keepsCold_modify kept
  rw [← applied] at cold
  apply genuine.keep (cold.keyed genuine.keyed)
  intro other stub stubbed
  rw [cold.stubs] at stubbed
  refine ⟨stubbed, fun absent => ?_⟩
  rw [applied, get_modify, absent]
  by_cases same : other = id
  · rw [if_pos same, Option.map_none]
  · rw [if_neg same]

theorem Genuine.insert (a : Account) : (s.step derive (.insert a)).Genuine sha := by
  apply genuine.keep
  · exact genuine.keyed.insert derive a
  intro id stub stubbed
  change (s.tree.stubs.erase a.idCom)[id]? = some stub at stubbed
  rw [lookup_erase] at stubbed
  split at stubbed <;> rename_i same
  · cases stubbed
  refine ⟨stubbed, fun absent => ?_⟩
  exact (get_insert derive id).trans ((if_neg same).trans absent)

theorem Genuine.remove (id : AccountId) : (s.step derive (.remove id)).Genuine sha := by
  apply genuine.keep
  · exact keyed_remove genuine.keyed derive id
  intro other stub stubbed
  change (s.tree.remove derive id).stubs[other]? = some stub at stubbed
  rw [stubs_remove] at stubbed
  refine ⟨stubbed, fun absent => ?_⟩
  change (s.tree.remove derive id).get other = none
  rw [get_remove, absent, ite_self]

end

theorem Genuine.swept (hashed : ∀ a storage, derive.stubHash a storage = a.computeStubHash sha storage)
    (genuine : s.Genuine sha) (slot : Nat) (swept : ∀ id, Swept derive s.tree (op.apply derive s.tree) slot id) :
    (s.step derive op).Genuine sha where
  keyed id a found := by
    change (op.apply derive s.tree).get id = some a at found
    rcases swept id with ⟨same, -, -⟩ | ⟨_, _, gone, -⟩
    · exact genuine.keyed id a (same ▸ found)
    · rw [gone] at found
      cases found
  cold id stub stubbed := by
    change (op.apply derive s.tree).stubs[id]? = some stub at stubbed
    rcases swept id with ⟨same, stubs, -⟩ | ⟨a, held, gone, -, expired⟩
    · rw [stubs] at stubbed
      obtain ⟨absent, own, version, hash⟩ := genuine.cold id stub stubbed
      rw [version_step_cold absent]
      exact ⟨same.trans absent, own, version, hash⟩
    · rw [expired] at stubbed
      cases stubbed
      rw [version_step_hot held]
      exact ⟨gone, rfl, genuine.keyed id a held, hashed a _⟩

theorem Genuine.resurrect (genuine : s.Genuine sha) (proof : ResurrectionProof) (slot : Nat) :
    (s.step derive (.resurrectAccount proof slot)).Genuine sha := by
  rcases resurrectAccount_cases derive s.tree proof slot with ⟨text, refused⟩ | ⟨-, done⟩
  · have applied : TreeOp.apply derive s.tree (.resurrectAccount proof slot) = s.tree := by
      simp only [TreeOp.apply, refused]
    exact genuine.frame (congrArg accounts applied) (congrArg stubs applied)
  · have applied : TreeOp.apply derive s.tree (.resurrectAccount proof slot) = resurrected derive s.tree proof slot := by
      simp only [TreeOp.apply, done]
      rfl
    have account : ∀ other, (TreeOp.apply derive s.tree (.resurrectAccount proof slot)).get other =
        if other = proof.account.idCom then some { proof.account with lastTouchedSlot := slot } else s.tree.get other := by
      intro other
      rw [applied]
      exact resurrected_get proof slot other
    apply genuine.keep
    · intro other a found
      rw [account] at found
      by_cases same : other = proof.account.idCom
      · rw [if_pos same] at found
        cases found
        exact same.symm
      · rw [if_neg same] at found
        exact genuine.keyed other a found
    · intro other stub stubbed
      rw [applied, resurrected_stubs] at stubbed
      split at stubbed <;> rename_i same
      · cases stubbed
      exact ⟨stubbed, fun absent => (account other).trans ((if_neg same).trans absent)⟩

theorem Genuine.insertStub (genuine : s.Genuine sha) {stub : AccountStub} (faithful : s.Faithful sha (.insertStub stub)) :
    (s.step derive (.insertStub stub)).Genuine sha where
  keyed := genuine.keyed.of_accounts rfl
  cold id found stubbed := by
    change (s.tree.stubs.insert stub.idCom stub)[id]? = some found at stubbed
    rw [lookup_insert] at stubbed
    by_cases same : id = stub.idCom
    · rw [if_pos same] at stubbed
      cases stubbed
      obtain ⟨absent, version, hash⟩ := faithful
      rw [same, version_step_cold absent]
      exact ⟨absent, rfl, version, hash⟩
    · rw [if_neg same] at stubbed
      obtain ⟨absent, own, version, hash⟩ := genuine.cold id found stubbed
      rw [version_step_cold absent]
      exact ⟨absent, own, version, hash⟩

theorem Genuine.step (hashed : ∀ a storage, derive.stubHash a storage = a.computeStubHash sha storage)
    (genuine : s.Genuine sha) (faithful : s.Faithful sha op) : (s.step derive op).Genuine sha := by
  cases op with
  | insert a => exact genuine.insert a
  | update id f => exact genuine.modify id f rfl faithful
  | remove id => exact genuine.remove id
  | setStorage id slot value => exact genuine.frame rfl rfl
  | setCode id code =>
    cases hot : s.tree.contains id with
    | true =>
      refine genuine.modify id (fun a => { a with codeHash := some (derive.codeHash code), code := some code }) ?_
        (fun _ _ => rfl)
      simp only [TreeOp.apply, setCode, hot, if_true]
    | false =>
      have applied : TreeOp.apply derive s.tree (.setCode id code) = s.tree := by
        simp [TreeOp.apply, setCode, hot]
      exact genuine.frame (congrArg accounts applied) (congrArg stubs applied)
  | hfiRecipientPut idHash idcom bytes => exact genuine.frame rfl rfl
  | hfiIntentPut id bytes => exact genuine.frame rfl rfl
  | hfiIntentRemove id => exact genuine.frame rfl rfl
  | zkReplayConsume rpCom idcom =>
    by_cases taken : s.tree.zkReplayRegistry.contains rpCom = true
    · have applied : TreeOp.apply derive s.tree (.zkReplayConsume rpCom idcom) = s.tree := by
        simp [TreeOp.apply, zkReplayConsume, taken]
      exact genuine.frame (congrArg accounts applied) (congrArg stubs applied)
    · apply genuine.frame <;> simp [TreeOp.apply, zkReplayConsume, taken]
  | insertStub stub => exact genuine.insertStub faithful
  | expireAccount id slot => exact genuine.swept hashed slot (expireAccount_swept s.tree id slot)
  | resurrectAccount proof slot => exact genuine.resurrect proof slot
  | sweepExpired slot period => exact genuine.swept hashed slot (sweepExpired_swept derive s.tree slot period)

theorem genuine_new : new.Genuine sha where
  keyed _ _ found := by simp [new, StateTree.new, StateTree.get] at found
  cold _ _ stubbed := by simp [new, StateTree.new] at stubbed

theorem genuine_run (hashed : ∀ a storage, derive.stubHash a storage = a.computeStubHash sha storage) {ops : List TreeOp}
    (faithful : Meets (step derive) (Faithful sha) new ops) : (run (step derive) new ops).Genuine sha :=
  run_invariant (fun _ _ _ genuine faithful => Genuine.step hashed genuine faithful) genuine_new faithful

/-- Of two trees with one root, nothing may differ but the storage under ids with no hot account and the slots of the
stubs, neither of which is hashed. -/
theorem root_binds_iff (derive : Derivations) (sha : List UInt8 → Hash)
    (hashed : ∀ a storage, derive.stubHash a storage = a.computeStubHash sha storage) (ops ops' : List TreeOp)
    (faithful : Meets (step derive) (Faithful sha) new ops) (faithful' : Meets (step derive) (Faithful sha) new ops')
    (readable : (run (step derive) new ops).Readable) (readable' : (run (step derive) new ops').Readable)
    (free : Set.InjOn sha ((run (step derive) new ops).hashInputs sha ∪ (run (step derive) new ops').hashInputs sha))
    (root : (run (step derive) new ops).tree.computeRoot sha = (run (step derive) new ops').tree.computeRoot sha) :
    Agrees sha (run (step derive) new ops).tree (run (step derive) new ops').tree ↔
      SameColdStorage (run (step derive) new ops).tree (run (step derive) new ops').tree ∧
        SameExpirySlots (run (step derive) new ops).tree (run (step derive) new ops').tree :=
  agrees_iff (genuine_run hashed faithful) (genuine_run hashed faithful') readable readable' free root

end Traced

namespace SmallTree

open Traced

def sha (bytes : List UInt8) : Hash := BitVec.ofNat 256 (bytes.foldl (fun h b => (h * 263 + b.toNat + 1) % (2 ^ 61 - 1)) 0)

def derive : Derivations := .ofWidths (Account.computeStubHash sha) sha

def owner : Account := { Account.new ⟨1⟩ with balance := 5 }

def leaver : Account := { Account.new ⟨3⟩ with nonce := 2 }

/-- One account stays, one expires, and an intent is stored; the slot of account 2 is cold. -/
def funded : List TreeOp := [.insert owner, .insert leaver, .expireAccount ⟨3⟩ 9, .hfiIntentPut 4 [1], .setStorage ⟨2⟩ 7 1]

def fundedLater : List TreeOp := [.setStorage ⟨2⟩ 7 1, .hfiIntentPut 4 [1], .insert leaver, .expireAccount ⟨3⟩ 9,
    .insert owner]

def known : List Leaf := [.account (hashedFields sha owner) [], .stub (hashedFields sha leaver) [], .intent 4 [1]]

theorem readable {s : Traced} (hot : s.tree.accounts.toList = [(⟨1⟩, owner)]) (cold : s.tree.stubs.toList.map Prod.fst = [⟨3⟩])
    (version : (s.version ⟨3⟩).1 = leaver) (intents : s.tree.hfiIntents.toList = [(4, [1])])
    (recipients : s.tree.hfiRecipients.toList = []) : s.Readable where
  accounts id a held := by
    have listed := mem_toList_iff_getElem?_eq_some.mpr held
    rw [hot, List.mem_singleton] at listed
    cases listed
    decide +kernel
  stubs id stubbed := by
    obtain ⟨stub, found⟩ := isStubbed_iff.mp stubbed
    have listed := List.mem_map_of_mem (f := Prod.fst) (mem_toList_iff_getElem?_eq_some.mpr found)
    rw [cold, List.mem_singleton] at listed
    cases listed
    rw [version]
    decide +kernel
  intents id value found := by
    have listed := mem_toList_iff_getElem?_eq_some.mpr found
    rw [intents, List.mem_singleton] at listed
    cases listed
    decide
  recipients id value found := by
    have listed := mem_toList_iff_getElem?_eq_some.mpr found
    rw [recipients] at listed
    cases listed

/-- The last of the three leaves is paired with itself. -/
def inputs : List (List UInt8) :=
  let hashes := known.map (fun l => sha l.bytes)
  let pairs := Merkle.pairs hashes ++ Merkle.pairs (Merkle.level (hashPair sha) hashes)
  asciiBytes "ACE-EMPTY-STATE-V1" :: known.map Leaf.bytes ++ pairs.map (fun pair => hashBytes pair.1 ++ hashBytes pair.2)

theorem hashInputs_known {s : Traced} (leaves : s.leaves sha = known)
    (hashes : s.tree.leafHashes sha = known.map (fun l => sha l.bytes)) : s.hashInputs sha ⊆ {x | x ∈ inputs} := by
  rintro bytes (rfl | ⟨l, listed, rfl⟩ | ⟨pair, listed, rfl⟩)
  · exact List.mem_cons_self
  · rw [leaves] at listed
    exact List.mem_append_left _ (List.mem_cons_of_mem _ (List.mem_map_of_mem listed))
  · rw [hashes, Merkle.combined_of_several (by decide), Merkle.combined_of_several (by decide)] at listed
    apply List.mem_append_right
    apply List.mem_map_of_mem (f := fun pair : Hash × Hash => hashBytes pair.1 ++ hashBytes pair.2)
    rcases listed with low | high | above
    · exact List.mem_append_left _ low
    · exact List.mem_append_right _ high
    · exact (Set.notMem_empty _ ((Merkle.combined_singleton _).subset above)).elim

theorem root_binds_iff_funded : Agrees sha (run (step derive) new funded).tree (run (step derive) new fundedLater).tree ∧
    (run (step derive) new funded).tree.computeRoot sha = (run (step derive) new fundedLater).tree.computeRoot sha := by
  have root : (run (step derive) new funded).tree.computeRoot sha =
      (run (step derive) new fundedLater).tree.computeRoot sha := by
    decide +kernel
  have apart : ∀ x ∈ inputs, ∀ y ∈ inputs, sha x = sha y → x = y := by decide +kernel
  have first := hashInputs_known (s := run (step derive) new funded) (by decide +kernel) (by decide +kernel)
  have second := hashInputs_known (s := run (step derive) new fundedLater) (by decide +kernel) (by decide +kernel)
  have within := Set.union_subset first second
  refine ⟨(root_binds_iff derive sha (fun _ _ => rfl) funded fundedLater ⟨trivial, trivial, trivial, trivial, trivial, trivial⟩
    ⟨trivial, trivial, trivial, trivial, trivial, trivial⟩
    (readable (by decide +kernel) (by decide +kernel) (by decide +kernel) (by decide +kernel) (by decide +kernel))
    (readable (by decide +kernel) (by decide +kernel) (by decide +kernel) (by decide +kernel) (by decide +kernel))
    (fun x hx y hy => apart x (within hx) y (within hy)) root).mpr ⟨?_, ?_⟩, root⟩
  · intro id _ slot
    rfl
  · intro id stub stub' stubbed stubbed'
    have nine : ∀ entry ∈ (run (step derive) new funded).tree.stubs.toList ++
        (run (step derive) new fundedLater).tree.stubs.toList,
        entry.2.expiredAtSlot = 9 := by decide +kernel
    rw [nine (id, stub) (List.mem_append_left _ (mem_toList_iff_getElem?_eq_some.mpr stubbed)),
      nine (id, stub') (List.mem_append_right _ (mem_toList_iff_getElem?_eq_some.mpr stubbed'))]

end SmallTree

open SmallTree

namespace Traced

theorem cold_storage_not_bound (derive : Derivations) (sha : List UInt8 → Hash) :
    (run (step derive) new [.setStorage ⟨2⟩ 7 1]).tree.computeRoot sha = (run (step derive) new []).tree.computeRoot sha ∧
      (run (step derive) new [.setStorage ⟨2⟩ 7 1]).tree.getStorage ⟨2⟩ 7 ≠
        (run (step derive) new []).tree.getStorage ⟨2⟩ 7 := by
  refine ⟨computeRoot_setStorage_cold sha (by decide) 7 1, ?_⟩
  change (StateTree.new.setStorage ⟨2⟩ 7 1).getStorage ⟨2⟩ 7 ≠ StateTree.new.getStorage ⟨2⟩ 7
  decide

theorem cold_slot_keeps_root :
    (run (step derive) new [.setStorage ⟨2⟩ 7 1]).tree.computeRoot sha =
        (run (step derive) new []).tree.computeRoot sha ∧
      (run (step derive) new [.setStorage ⟨2⟩ 7 1]).tree.getStorage ⟨2⟩ 7 ≠
        (run (step derive) new []).tree.getStorage ⟨2⟩ 7 :=
  cold_storage_not_bound derive sha

end Traced

end AceChain.State
