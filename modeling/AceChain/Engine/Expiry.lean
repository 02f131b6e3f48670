import AceChain.Engine.Continuity
import AceChain.State.AccountHash

namespace AceChain.Engine

open AceChain.Runtime State StateTree StateTree Lib

section

variable {derive : Derivations} {t t' t'' : StateTree} {id : AccountId}

/-- Native transactions, whose failure may or may not be undone by the caller, sweeps and resurrections. -/
inductive ExpiryEvent where
  | transaction (tx : Transaction) (undone : Bool)
  | sweep (slot period : Nat)
  | resurrect (proof : ResurrectionProof) (slot : Nat)

structure Tracked where
  tree : StateTree
  versions : AccountId → Option (Account × Option Storage)

/-- What expires and what is shown in a proof has the sizes the hashed encoding gives its fields. -/
def Tracked.Encodable (s : Tracked) : ExpiryEvent → Prop
  | .transaction _ _ => True
  | .sweep _ _ => ∀ entry ∈ s.tree.accounts.toList, entry.2.Sized
  | .resurrect proof _ => proof.account.Sized

namespace Operations

variable (o : Operations)

def expiryStep (t : StateTree) : ExpiryEvent → StateTree
  | .transaction tx undone =>
    match o.externals.executeTransaction t tx with
    | (.ok _, after) => after
    | (.error _, after) => if undone then t else after
  | .sweep slot period => t.sweepExpired o.derive slot period
  | .resurrect proof slot =>
    match t.resurrectAccount o.derive proof slot with
    | .ok after => after
    | .error _ => t

def track (s : Tracked) (e : ExpiryEvent) : Tracked where
  tree := o.expiryStep s.tree e
  versions id :=
    match s.tree.get id with
    | some a => some (a, s.tree.contractStorage[id]?)
    | none => s.versions id

/-- An event that makes an expired account hot is an accepted resurrection of it. -/
def OnlyResurrected (s : Tracked) (e : ExpiryEvent) : Prop :=
  ∀ id, s.tree.isStubbed id = true → (o.expiryStep s.tree e).contains id = true →
    ∃ proof slot, e = .resurrect proof slot ∧ proof.account.idCom = id ∧ Accepted o.derive s.tree proof

/-- What comes back is the version that expired, unless the two hash alike by a collision. -/
def ContinuesExpired (sha : List UInt8 → Hash) (s : Tracked) (e : ExpiryEvent) : Prop :=
  ∀ id a storage, s.tree.isStubbed id = true → s.versions id = some (a, storage) →
    ∀ b, (o.expiryStep s.tree e).get id = some b →
      ∀ proof slot, e = .resurrect proof slot →
        Set.InjOn sha (a.hashInputs sha storage ∪ proof.account.hashInputs sha (some proof.storage)) →
        a.Continues storage b (o.expiryStep s.tree e).contractStorage[id]?

def RevivesNobody (s : Tracked) : ExpiryEvent → Prop
  | .transaction tx _ => o.revives s.tree tx = false
  | _ => True

instance (s : Tracked) (e : ExpiryEvent) : Decidable (s.Encodable e) :=
  match e with
  | .transaction _ _ => .isTrue trivial
  | .sweep _ _ => inferInstanceAs (Decidable (∀ entry ∈ s.tree.accounts.toList, entry.2.Sized))
  | .resurrect proof _ => inferInstanceAs (Decidable proof.account.Sized)

instance (s : Tracked) (e : ExpiryEvent) : Decidable (o.RevivesNobody s e) :=
  match e with
  | .transaction tx _ => inferInstanceAs (Decidable (o.revives s.tree tx = false))
  | .sweep _ _ => .isTrue trivial
  | .resurrect _ _ => .isTrue trivial

variable {o} {s : Tracked}

theorem expiryStep_transaction (apart : TiersApart t) {tx : Transaction} (undone : Bool)
    (kept : o.revives t tx = false) : KeepsCold t (o.expiryStep t (.transaction tx undone)) := by
  have done := executeTransaction_keepsCold apart kept
  change KeepsCold t (match o.externals.executeTransaction t tx with
    | (.ok _, after) => after
    | (.error _, after) => if undone then t else after)
  generalize o.externals.executeTransaction t tx = outcome at done ⊢
  obtain ⟨result, after⟩ := outcome
  cases result with
  | ok changes => exact done
  | error error =>
    cases undone with
    | true => exact .refl t
    | false => exact done

theorem expiryStep_revives {tx : Transaction} (undone : Bool) (revived : o.revives t tx = true) :
    o.expiryStep t (.transaction tx undone) = (o.externals.executeTransaction t tx).2 := by
  have succeeded : (o.externals.executeTransaction t tx).1.isOk = true := by
    unfold revives at revived
    split at revived
    · cases revived
    · exact (Bool.and_eq_true _ _ ▸ revived).2
  change (match o.externals.executeTransaction t tx with
    | (.ok _, after) => after
    | (.error _, after) => if undone then t else after) = _
  generalize o.externals.executeTransaction t tx = outcome at succeeded ⊢
  obtain ⟨result, after⟩ := outcome
  cases result with
  | ok changes => rfl
  | error error => cases succeeded

theorem expiryStep_resurrect (t : StateTree) (proof : ResurrectionProof) (slot : Nat) :
    o.expiryStep t (.resurrect proof slot) = t ∨
      (Accepted o.derive t proof ∧ o.expiryStep t (.resurrect proof slot) = resurrected o.derive t proof slot) := by
  unfold expiryStep
  rcases resurrectAccount_cases o.derive t proof slot with ⟨text, refused⟩ | ⟨accepted, restored⟩
  · dsimp only
    rw [refused]
    exact .inl rfl
  · dsimp only
    rw [restored]
    exact .inr ⟨accepted, rfl⟩

theorem expiryStep_apart (apart : TiersApart t) {e : ExpiryEvent} {versions : AccountId → Option (Account × Option Storage)}
    (kept : o.RevivesNobody ⟨t, versions⟩ e) : TiersApart (o.expiryStep t e) := by
  cases e with
  | transaction tx undone => exact apart.keepsCold (expiryStep_transaction apart undone kept)
  | sweep slot period => exact apart.sweep (sweepExpired_swept o.derive t slot period)
  | resurrect proof slot =>
    rcases expiryStep_resurrect (o := o) t proof slot with same | ⟨-, same⟩
    · rw [same]
      exact apart
    · rw [same]
      exact apart.resurrect proof slot

theorem onlyResurrected_iff (apart : TiersApart s.tree) (e : ExpiryEvent) :
    o.OnlyResurrected s e ↔ o.RevivesNobody s e := by
  have cold : ∀ id, s.tree.isStubbed id = true → s.tree.get id = none := by
    intro id stubbed
    obtain ⟨stub, found⟩ := isStubbed_iff.mp stubbed
    exact Option.isSome_eq_false_iff.mp (apart.cold id stub found).1 |> Option.isNone_iff_eq_none.mp
  constructor
  · intro only
    cases e with
    | transaction tx undone =>
      change o.revives s.tree tx = false
      cases revived : o.revives s.tree tx with
      | false => rfl
      | true =>
        obtain ⟨id, stubbed, hot⟩ := executeTransaction_revives revived
        obtain ⟨proof, slot, wrong, -⟩ := only id stubbed (by rw [expiryStep_revives undone revived]; exact hot)
        cases wrong
    | sweep slot period => trivial
    | resurrect proof slot => trivial
  · intro kept id stubbed hot
    cases e with
    | transaction tx undone =>
      have still := (expiryStep_transaction apart undone kept).cold id stubbed (by
        unfold contains
        rw [cold id stubbed]
        rfl)
      rw [still] at hot
      cases hot
    | sweep slot period =>
      have gone : (o.expiryStep s.tree (.sweep slot period)).get id = none := by
        rcases sweepExpired_swept o.derive s.tree slot period id with ⟨same, -⟩ | ⟨_, _, gone, -⟩
        · exact same.trans (cold id stubbed)
        · exact gone
      unfold contains at hot
      rw [gone] at hot
      cases hot
    | resurrect proof slot =>
      rcases expiryStep_resurrect (o := o) s.tree proof slot with same | ⟨accepted, same⟩
      · unfold contains at hot
        rw [same, cold id stubbed] at hot
        cases hot
      · refine ⟨proof, slot, rfl, ?_, accepted⟩
        unfold contains at hot
        unfold resurrected at same
        rw [same, resurrected_get] at hot
        by_cases own : id = proof.account.idCom
        · exact own.symm
        · rw [if_neg own, cold id stubbed] at hot
          cases hot

/-- Every stub whose account was seen hot is the stub of that version. -/
structure Remembers (o : Operations) (s : Tracked) : Prop where
  apart : TiersApart s.tree
  stubs : ∀ (id : AccountId) stub, s.tree.stubs[id]? = some stub → ∀ a storage, s.versions id = some (a, storage) →
    a.Sized ∧ stub.hash = o.derive.stubHash a storage

theorem Remembers.track (remembers : Remembers o s) {e : ExpiryEvent} (kept : o.RevivesNobody s e) (fits : s.Encodable e) :
    Remembers o (o.track s e) where
  apart := expiryStep_apart remembers.apart kept
  stubs id stub found a storage version := by
    -- a stub that was there belongs to an account that was not hot, so its version has not changed
    have old : s.tree.stubs[id]? = some stub → a.Sized ∧ stub.hash = o.derive.stubHash a storage := by
      intro before
      have absent := (remembers.apart.cold id stub before).1
      apply remembers.stubs id stub before
      unfold Operations.track at version
      dsimp only at version
      unfold contains at absent
      cases held : s.tree.get id with
      | none => rwa [held] at version
      | some hot =>
        rw [held] at absent
        cases absent
    cases e with
    | transaction tx undone =>
      apply old
      rw [← (expiryStep_transaction remembers.apart undone kept).stubs id]
      exact found
    | sweep slot period =>
      rcases sweepExpired_swept o.derive s.tree slot period id with ⟨-, stubs, -⟩ | ⟨b, held, -, -, expired⟩
      · exact old (stubs ▸ found)
      have stub_eq : some (⟨id, o.derive.stubHash b s.tree.contractStorage[id]?, slot⟩ : AccountStub) = some stub :=
        expired.symm.trans found
      unfold Operations.track at version
      dsimp only at version
      rw [held] at version
      cases version
      cases stub_eq
      exact ⟨fits (id, a) (Std.TreeMap.mem_toList_iff_getElem?_eq_some.mpr held), rfl⟩
    | resurrect proof slot =>
      apply old
      change (o.expiryStep s.tree (.resurrect proof slot)).stubs[id]? = some stub at found
      rcases expiryStep_resurrect (o := o) s.tree proof slot with same | ⟨-, same⟩
      · rwa [same] at found
      · rw [same, resurrected_stubs] at found
        by_cases own : id = proof.account.idCom
        · rw [if_pos own] at found
          cases found
        · rwa [if_neg own] at found

theorem Remembers.continues {sha : List UInt8 → Hash} (remembers : Remembers o s)
    (hashed : ∀ a storage, o.derive.stubHash a storage = a.computeStubHash sha storage) {e : ExpiryEvent}
    (fits : s.Encodable e) : o.ContinuesExpired sha s e := by
  intro id a storage stubbed version b found proof slot event free
  subst event
  obtain ⟨stub, here⟩ := isStubbed_iff.mp stubbed
  obtain ⟨absent, none_, -⟩ := remembers.apart.cold id stub here
  unfold contains at absent
  rcases expiryStep_resurrect (o := o) s.tree proof slot with same | ⟨⟨stub', shown, -, hash⟩, same⟩
  · rw [same] at found
    rw [found] at absent
    cases absent
  · rw [same] at found ⊢
    have restored := found
    unfold resurrected at restored
    rw [resurrected_get] at restored
    by_cases own : id = proof.account.idCom
    · rw [if_pos own] at restored
      cases restored
      subst own
      obtain ⟨sized, expired⟩ := remembers.stubs _ stub here a storage version
      rw [shown] at here
      cases here
      have alike : proof.account.computeStubHash sha (some proof.storage) = a.computeStubHash sha storage := by
        rw [← hashed, ← hashed, ← expired]
        exact hash
      have carries := continues_of_stubHash sized fits free alike
      refine ⟨carries.nonce, carries.primary, carries.keys, fun key => ?_⟩
      rw [← carries.storage key]
      exact resurrected_lookup proof slot none_ key
    · rw [if_neg own] at restored
      rw [restored] at absent
      cases absent

theorem expired_only_resurrected (o : Operations) (sha : List UInt8 → Hash)
    (hashed : ∀ a storage, o.derive.stubHash a storage = a.computeStubHash sha storage) (t : StateTree)
    (apart : TiersApart t) (events : List ExpiryEvent) :
    (Meets o.track o.OnlyResurrected ⟨t, fun _ => none⟩ events ↔
        Meets o.track o.RevivesNobody ⟨t, fun _ => none⟩ events) ∧
      (Meets o.track (fun s e => o.RevivesNobody s e ∧ s.Encodable e) ⟨t, fun _ => none⟩ events →
        Meets o.track (fun s e => o.OnlyResurrected s e ∧ o.ContinuesExpired sha s e) ⟨t, fun _ => none⟩ events) := by
  constructor
  · exact meets_congr_of_invariant (I := fun s => TiersApart s.tree)
      (fun s e apart only => expiryStep_apart apart ((onlyResurrected_iff apart e).mp only))
      (fun s e apart => onlyResurrected_iff apart e) apart
  · intro meets
    apply Lib.Meets.imp_of_invariant (I := Remembers o) ?_ ?_ ⟨apart, fun _ _ _ _ _ version => by cases version⟩ meets
    · intro s e remembers ⟨kept, fits⟩
      exact remembers.track kept fits
    · intro s e remembers ⟨kept, fits⟩
      exact ⟨(onlyResurrected_iff remembers.apart e).mpr kept, remembers.continues hashed fits⟩

end Operations

end

namespace SmallChain

def account (n : Nat) : AccountId := ⟨BitVec.ofNat 256 n⟩

def sha (bytes : List UInt8) : Hash := BitVec.ofNat 256 (leNat bytes)

def derive : Derivations := .ofWidths (Account.computeStubHash sha) sha

def operations : Operations where
  derive := derive
  txHash tx := tx.attestation.objHash
  verifyCredential attestation _ key := attestation.credential.bytes == key.bytes
  verifyZkAuth _ _ := .error "no proofs"
  proofs :=
    { registerAddressMessage := fun _ _ _ => 0
      verifySignature := fun _ _ _ => false
      evmAddressFromSecp256k1 := fun _ => none
      btcHash160 := fun _ => []
      idcomXid := fun h => h
      xaddressHash := fun _ => 0 }
  founder := none

def key (n : UInt8) : List UInt8 := List.replicate 32 n

def creation (n : Nat) (signer : UInt8) : Transaction where
  payload := opCreateAccount :: hashBytes (account n).bytes ++ key signer
  attestation :=
    { objHash := 0
      idcom := (account n).bytes
      domain := ⟨1, 2⟩
      contextTag := 0
      credential := ⟨.ed25519, key signer⟩ }
  rawChain := none
  zkAuth := none

def owned : Account := { Account.new (account 1) with nonce := 5, authPubkey := .ed25519 (key 7) }

def genesis : StateTree := new.insert derive owned

theorem genesis_apart : TiersApart genesis := by
  have empty : TiersApart new := by
    refine ⟨fun id a found => ?_, fun id stub found => ?_⟩
    · cases found
    · cases found
  exact empty.keepsCold (keepsCold_insert rfl)

end SmallChain

open SmallChain

namespace Operations

set_option maxRecDepth 8000 in
theorem expired_only_resurrected_small :
    let events := [.sweep 100 10, .transaction (creation 2 9) true, .resurrect ⟨owned, ∅⟩ 120]
    let start : Tracked := ⟨genesis, fun _ => none⟩
    ((run operations.track start events).tree.get (account 1)).map (·.nonce) = some 5 ∧
      Meets operations.track (fun s e => operations.OnlyResurrected s e ∧
        operations.ContinuesExpired sha s e) start events :=
  ⟨by decide, (expired_only_resurrected operations sha (fun _ _ => rfl) genesis
    genesis_apart _).2 (by decide)⟩

/-- Account `1` expires with nonce five and comes back under the key of whoever creates it, with nonce zero. -/
theorem expired_account_taken_over :
    let expired := operations.expiryStep genesis (.sweep 100 10)
    let taken := operations.expiryStep expired (.transaction (creation 1 9) true)
    expired.isStubbed (account 1) = true ∧ taken.isStubbed (account 1) = false ∧
      (taken.get (account 1)).map (fun a => (a.nonce, a.authPubkey)) = some (0, .ed25519 (key 9)) := by
  decide

end Operations

end AceChain.Engine
