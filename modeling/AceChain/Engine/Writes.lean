import AceChain.Engine.Operations
import AceChain.State.Tiers
import Mathlib.Logic.Relation

namespace AceChain.Engine

open AceChain.Runtime State StateTree

def EngineError.isCredential : EngineError → Bool
  | invalidCredential _ => true
  | _ => false

def Credible {α : Type} (result : Except EngineError α) : Prop := ∀ e, result = .error e → e.isCredential = false

inductive Write (derive : Derivations) (P : AccountId → Prop) : StateTree → StateTree → Prop
  | modify {t id f} (inside : P id) (own : ∀ a, t.get id = some a → (f a).idCom = a.idCom) : Write derive P t (t.modify id f)
  | ensure {t id} (inside : P id) (hot : t.isStubbed id = false) : Write derive P t (ensureAccount derive t id)
  | rewrite {t id account updated} (inside : P updated.idCom) (held : t.get id = some account)
      (own : updated.idCom = account.idCom) : Write derive P t (t.insert derive updated)
  | replay {t registry} : Write derive P t { t with zkReplayRegistry := registry }

abbrev Writes (derive : Derivations) (P : AccountId → Prop) :
    StateTree → StateTree → Prop := Relation.ReflTransGen (Write derive P)

structure Performs (derive : Derivations) (P : AccountId → Prop) (t : StateTree)
    (done : Outcome EngineError (List StateChange)) :
    Prop where
  writes : Writes derive P t done.2
  other : Credible done.1

section

variable {derive : Derivations} {P : AccountId → Prop} {t t' : StateTree} {id sender receiver : AccountId} {account : Account}
  {error : EngineError}

theorem credible_ok {α : Type} (value : α) : Credible (.ok value) := by
  intro e failed
  cases failed

theorem credible_error {α : Type} (other : error.isCredential = false) :
    Credible (.error error : Except EngineError α) := by
  intro e failed
  cases failed
  exact other

theorem Credible.map {α β : Type} {result : Except EngineError α} (other : Credible result) (f : α → β) :
    Credible (result.map f) := by
  cases result with
  | error e => exact credible_error (other e rfl)
  | ok value => exact credible_ok (f value)

variable {result : Except EngineError (List StateChange)}

theorem Performs.unchanged (other : Credible result) :
    Performs derive P t (result, t) := ⟨.refl, other⟩

theorem Performs.after {done : Outcome EngineError (List StateChange)} (first : Writes derive P t t')
    (performs : Performs derive P t' done) : Performs derive P t done := ⟨first.trans performs.writes, performs.other⟩

theorem Performs.modified {f : Account → Account} (inside : P id)
    (own : ∀ a, t.get id = some a → (f a).idCom = a.idCom) (other : Credible result) :
    Performs derive P t (result, t.modify id f) := ⟨.single (.modify inside own), other⟩

theorem Write.keepsCold (apart : TiersApart t) (write : Write derive P t t') : KeepsCold t t' := by
  cases write with
  | modify inside own => exact keepsCold_modify own
  | ensure inside hot =>
    unfold ensureAccount
    split
    · exact .refl t
    · exact keepsCold_insert hot
  | @rewrite id account updated inside held own =>
    apply keepsCold_insert
    rw [own, apart.keyed id account held]
    cases stubbed : t.isStubbed id with
    | false => rfl
    | true =>
      obtain ⟨stub, found⟩ := isStubbed_iff.mp stubbed
      have absent := (apart.cold id stub found).1
      unfold StateTree.contains at absent
      rw [held] at absent
      cases absent
  | replay => exact ⟨fun _ => rfl, rfl, fun _ _ cold => cold, fun keyed => keyed⟩

theorem Writes.keepsCold (apart : TiersApart t) (writes : Writes derive P t t') : KeepsCold t t' := by
  induction writes with
  | refl => exact .refl t
  | tail _ last ih => exact ih.trans (last.keepsCold (apart.keepsCold ih))

theorem moveBalance_performs (t : StateTree) (account : Account) (amount : Nat) (incrementNonce : Bool) (payer : P sender)
    (payee : P receiver) : Performs derive P t (moveBalance t sender receiver account amount incrementNonce) := by
  unfold moveBalance
  split
  · split
    · rcases bumpNonce_cases t sender account with ⟨-, refused⟩ | ⟨-, counted⟩
      · rw [refused]
        exact .unchanged (credible_error rfl)
      · rw [counted]
        exact .modified payer (fun _ _ => rfl) (credible_ok _)
    · exact .unchanged (credible_ok _)
  dsimp only
  split
  · exact .unchanged (credible_error rfl)
  have debited : Write derive P t (t.modify sender (fun a => { a with balance := account.balance - amount })) :=
    .modify payer (fun _ _ => rfl)
  split
  · rcases bumpNonce_cases (t.modify sender (fun a => { a with balance := account.balance - amount })) sender account with
      ⟨-, refused⟩ | ⟨-, counted⟩
    · rw [refused]
      exact ⟨.single debited, credible_error rfl⟩
    · rw [counted]
      have counted : Writes derive P t ((t.modify sender
          (fun a => { a with balance := account.balance - amount })).modify sender
          (fun a => { a with nonce := account.nonce + 1 })) := .tail (.single debited) (.modify payer (fun _ _ => rfl))
      exact .after counted (.modified payee (fun _ _ => rfl) (credible_ok _))
  · exact .after (.single debited) (.modified payee (fun _ _ => rfl) (credible_ok _))

theorem transferWithNoncePolicy_performs (derive : Derivations) (t : StateTree) (amount : Nat) (expectedNonce : Option Nat)
    (incrementNonce : Bool) (payer : P sender) (payee : P receiver) :
    Performs derive P t (transferWithNoncePolicy derive t sender receiver amount expectedNonce incrementNonce) := by
  unfold transferWithNoncePolicy
  split
  · exact .unchanged (credible_error rfl)
  split
  · exact .unchanged (credible_error rfl)
  split
  · exact .unchanged (credible_error rfl)
  split
  · exact .unchanged (credible_error rfl)
  split <;> rename_i hot
  · exact .unchanged (credible_error rfl)
  · exact .after (.single (.ensure payee (Bool.eq_false_of_not_eq_true hot)))
      (moveBalance_performs _ _ amount incrementNonce payer payee)

theorem executeTransfer_performs (x : Externals) (t : StateTree) (tx : Transaction) (nonce : Nat) (receiver : AccountId)
    (amount : Nat) (payer : P tx.sender) (payee : P receiver) :
    Performs x.derive P t (x.executeTransfer t tx nonce receiver amount) := by
  unfold Externals.executeTransfer
  split
  · split
    · exact .unchanged (credible_error rfl)
    rename_i after consumed
    have registered : Write x.derive P t after := by
      unfold zkReplayConsume at consumed
      split at consumed
      · cases consumed
      · cases consumed
        exact .replay
    have moved := transferWithNoncePolicy_performs x.derive after amount none false payer payee
    split <;> rename_i done <;> rw [done] at moved
    · exact moved.after (.single registered)
    · exact ⟨.head registered moved.writes, credible_ok _⟩
  · exact transferWithNoncePolicy_performs _ t amount (some nonce) true payer payee

theorem placeAuthKey_idCom {a updated : Account} {key : TaggedPubkey}
    (placed : a.addAuthKey key = .ok updated ∨ placeAuthKey a key = .ok updated) : updated.idCom = a.idCom := by
  have added : ∀ updated, a.addAuthKey key = .ok updated → updated.idCom = a.idCom := by
    intro updated placed
    unfold Account.addAuthKey at placed
    split at placed
    · cases placed
      rfl
    split at placed
    · cases placed
    split at placed
    · cases placed
    split at placed
    · cases placed
    · cases placed
      rfl
  cases placed with
  | inl placed => exact added updated placed
  | inr placed =>
    unfold placeAuthKey at placed
    dsimp only at placed
    split at placed
    · cases placed
      rfl
    split at placed
    · cases placed
      rfl
    split at placed
    · cases placed
      rfl
    · exact added updated placed

theorem consumeAccountNonce_credible (account : Account) (sender : AccountId) (nonce : Nat) :
    Credible (consumeAccountNonce account sender nonce) := by
  unfold consumeAccountNonce
  split
  · exact credible_error rfl
  split
  · exact credible_error rfl
  · exact credible_ok _

theorem updateAuthKey_performs {place : Account → TaggedPubkey → Except String Account}
    (own : ∀ a key updated, place a key = .ok updated → updated.idCom = a.idCom) (t : StateTree) (nonce : Nat)
    (key : TaggedPubkey) (inside : P sender) : Performs derive P t (updateAuthKey place t sender nonce key) := by
  unfold updateAuthKey
  cases held : t.get sender with
  | none => exact .unchanged (credible_error rfl)
  | some account =>
    have counted := consumeAccountNonce_credible account sender nonce
    dsimp only
    split <;> rename_i consumed
    · exact .unchanged (credible_error (counted _ consumed))
    · split
      · exact .modified inside (fun _ _ => rfl) (credible_error rfl)
      rename_i placed
      apply Performs.modified inside _ (credible_ok _)
      intro a found
      rw [held] at found
      cases found
      exact (own _ _ _ placed).trans rfl

theorem validateApproveValidatorSender_credible (founder : Option AccountId) (sender : AccountId) :
    Credible (validateApproveValidatorSender founder sender) := by
  unfold validateApproveValidatorSender
  split
  · exact credible_error rfl
  split
  · exact credible_error rfl
  · exact credible_ok _

theorem applyApproveValidatorNonce_performs (founder : Option AccountId) (t : StateTree) (nonce : Nat) (inside : P sender) :
    Performs derive P t (applyApproveValidatorNonce founder t sender nonce) := by
  have valid := validateApproveValidatorSender_credible founder sender
  unfold applyApproveValidatorNonce
  split <;> rename_i checked
  · exact .unchanged (credible_error (valid _ checked))
  split
  · exact .unchanged (credible_error rfl)
  rename_i account _
  have counted := consumeAccountNonce_credible account sender nonce
  split <;> rename_i consumed
  · exact .unchanged (credible_error (counted _ consumed))
  · exact .modified inside (fun _ _ => rfl) (credible_ok _)

structure Binds (account : Account) (result : Except EngineError Account) : Prop where
  other : Credible result
  own : ∀ updated, result = .ok updated → updated.idCom = account.idCom

theorem Binds.refused (other : error.isCredential = false) : Binds account (.error error) :=
  ⟨credible_error other, fun _ bound => by cases bound⟩

theorem Binds.map {α : Type} {result : Except EngineError α} {f : α → Account} (other : Credible result)
    (own : ∀ value, (f value).idCom = account.idCom) : Binds account (result.map f) := by
  refine ⟨other.map f, fun updated bound => ?_⟩
  cases result with
  | error error => cases bound
  | ok value =>
    cases bound
    exact own value

namespace BindingProofs

variable (proofs : BindingProofs) (account : Account) (word : Hash) (binding : AddressBinding)

theorem checkFree_credible (indexed : Option AccountId) : Credible (checkFree account indexed) := by
  unfold checkFree
  split
  · exact credible_ok _
  split
  · exact credible_error rfl
  · exact credible_ok _

theorem checkSignature_credible (key : TaggedPubkey) : Credible (proofs.checkSignature word binding key) := by
  unfold checkSignature
  split
  · exact credible_ok _
  · exact credible_error rfl

theorem provenKey_credible : Credible (proofs.provenKey word binding) := by
  unfold provenKey
  split
  · exact credible_error rfl
  rename_i key _
  split
  · exact credible_error rfl
  have signed := proofs.checkSignature_credible word binding ⟨.secp256k1, key⟩
  split <;> rename_i checked
  · exact credible_error (signed _ checked)
  · exact credible_ok _

theorem secpAddress_credible (resolve : Address → Option AccountId) (chain : String) :
    Credible (proofs.secpAddress account word binding resolve chain) := by
  have proven := proofs.provenKey_credible word binding
  have free := checkFree_credible account (resolve (addressOf binding.address))
  unfold secpAddress
  split <;> rename_i key
  · exact credible_error (proven _ key)
  split
  · exact credible_error rfl
  split
  · exact credible_error rfl
  split
  · exact credible_error rfl
  split <;> rename_i checked
  · exact credible_error (free _ checked)
  · exact credible_ok _

theorem wordAddress_credible (what : String) : Credible (wordAddress binding what) := by
  unfold wordAddress
  split
  · exact credible_error rfl
  · exact credible_ok _

variable (t : StateTree)

theorem bindSolana_binds : Binds account (proofs.bindSolana account word binding t) := by
  have given := wordAddress_credible binding "Solana address"
  have signed := proofs.checkSignature_credible word binding (.ed25519 binding.address)
  unfold bindSolana
  split <;> rename_i address
  · exact .refused (given _ address)
  split <;> rename_i checked
  · exact .refused (signed _ checked)
  · exact .map (checkFree_credible account _) (fun _ => rfl)

theorem bindBtc_binds : Binds account (proofs.bindBtc account word binding t) := by
  have proven := proofs.provenKey_credible word binding
  unfold bindBtc
  split <;> rename_i key
  · exact .refused (proven _ key)
  split
  · exact .refused rfl
  · exact .refused rfl
  · exact .map (checkFree_credible account _) (fun _ => rfl)

theorem bindXid_binds : Binds account (proofs.bindXid account word binding t) := by
  have given := wordAddress_credible binding "XID"
  unfold bindXid
  split <;> rename_i address
  · exact .refused (given _ address)
  split
  · exact .refused rfl
  · exact .map (checkFree_credible account _) (fun _ => rfl)

theorem bindXaddress_binds : Binds account (proofs.bindXaddress account word binding t) := by
  have given := wordAddress_credible binding "xaddress"
  unfold bindXaddress
  split
  · exact .refused rfl
  rename_i key _
  have signed := proofs.checkSignature_credible word binding (.mlDsa44 key)
  split <;> rename_i address
  · exact .refused (given _ address)
  split
  · exact .refused rfl
  split <;> rename_i checked
  · exact .refused (signed _ checked)
  · exact .map (checkFree_credible account _) (fun _ => rfl)

theorem verifyAndApplyBinding_binds : Binds account (proofs.verifyAndApplyBinding account word binding t) := by
  unfold verifyAndApplyBinding
  dsimp only
  split
  · exact .map (proofs.secpAddress_credible account word binding t.resolveEvm "EVM") (fun _ => rfl)
  split
  · exact .map (proofs.secpAddress_credible account word binding t.resolveTron "TRON") (fun _ => rfl)
  split
  · exact proofs.bindSolana_binds account word binding t
  split
  · exact proofs.bindBtc_binds account word binding t
  split
  · exact proofs.bindXid_binds account word binding t
  split
  · exact proofs.bindXaddress_binds account word binding t
  · exact .refused rfl

theorem applyBindings_binds (bindings : List AddressBinding) (account : Account) :
    Credible (proofs.applyBindings word t bindings account) ∧
      ∀ done, proofs.applyBindings word t bindings account = .ok done → done.1.idCom = account.idCom := by
  induction bindings generalizing account with
  | nil =>
    refine ⟨credible_ok _, fun done bound => ?_⟩
    cases bound
    rfl
  | cons binding rest ih =>
    have bound := proofs.verifyAndApplyBinding_binds account word binding t
    unfold applyBindings
    split <;> rename_i next applied
    · exact ⟨credible_error (bound.other _ applied), fun _ failed => by cases failed⟩
    split <;> rename_i final
    · exact ⟨credible_error ((ih next).1 _ final), fun _ failed => by cases failed⟩
    · refine ⟨credible_ok _, fun done bound' => ?_⟩
      cases bound'
      exact ((ih next).2 _ final).trans (bound.own next applied)

end BindingProofs

theorem registerAddresses_performs (proofs : BindingProofs) (t : StateTree) (sender : AccountId) (nonce : Nat)
    (bindings : List AddressBinding) :
    Performs derive (fun _ => True) t (registerAddresses derive proofs t sender nonce bindings) := by
  unfold registerAddresses
  split
  · exact .unchanged (credible_error rfl)
  rename_i account held
  have counted := consumeAccountNonce_credible account sender nonce
  split <;> rename_i next consumed
  · exact .unchanged (credible_error (counted _ consumed))
  have first : Write derive (fun _ => True) t (t.modify sender (fun a => { a with nonce := next })) :=
    .modify trivial (fun _ _ => rfl)
  have applied := proofs.applyBindings_binds sender.bytes (t.modify sender (fun a => { a with nonce := next })) bindings
    { account with nonce := next }
  dsimp only
  split <;> rename_i bound
  · exact ⟨.single first, credible_error (applied.1 _ bound)⟩
  · have there : (t.modify sender (fun a => { a with nonce := next })).get sender = some { account with nonce := next } := by
      rw [get_modify, if_pos rfl, held]
      rfl
    exact ⟨.head first (.single (.rewrite trivial there (applied.2 _ bound))), credible_ok _⟩

theorem ofPayload_credible (error : PayloadError) : (EngineError.ofPayload error).isCredential = false := by
  unfold EngineError.ofPayload
  split <;> rfl

theorem executeOther_performs (o : Operations) (t : StateTree) (tx : Transaction) {op : TransactionOp}
    (other : ∀ id key, op ≠ .createAccount id key) : Performs o.derive (fun _ => True) t (o.executeOther t tx op) := by
  unfold Operations.executeOther
  cases op with
  | transfer nonce recipient amount => exact .unchanged (credible_error rfl)
  | createAccount id key => exact absurd rfl (other id key)
  | setAuthPubkey nonce key =>
    exact updateAuthKey_performs (fun _ _ _ placed => placeAuthKey_idCom (.inr placed)) t nonce key trivial
  | addAuthKey nonce key =>
    exact updateAuthKey_performs (fun _ _ _ placed => placeAuthKey_idCom (.inl placed)) t nonce key trivial
  | approveValidator nonce candidate key => exact applyApproveValidatorNonce_performs o.founder t nonce trivial
  | other opcode =>
    dsimp only
    split
    · split <;> rename_i decoded
      · exact .unchanged (credible_error (ofPayload_credible _))
      · exact registerAddresses_performs o.proofs t tx.sender _ _
    · exact .unchanged (credible_error rfl)

end

end AceChain.Engine
