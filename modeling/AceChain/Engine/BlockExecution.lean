import AceChain.Engine.Expiry

namespace AceChain.Engine

open AceChain.Runtime State TransactionOp StateTree

structure ExecutionReceipt where
  txHash : Hash
  success : Bool
  sender : AccountId
  stateChanges : List StateChange
  error : Option String
deriving DecidableEq

namespace Externals

variable (x : Externals)

def receiptOf (tx : Transaction) (result : Except EngineError (List StateChange)) : ExecutionReceipt :=
  match result with
  | .ok changes => ⟨x.txHash tx, true, tx.sender, changes, none⟩
  | .error error => ⟨x.txHash tx, false, tx.sender, [], some error.text⟩

variable (t : StateTree)

def executeTransactionPresigned (tx : Transaction) : Outcome EngineError (List StateChange) :=
  match decode x.decodeOther tx.payload with
  | .error error => (.error (.ofPayload error), t)
  | .ok op =>
    if tx.isZkAuth && !isTransfer op then
      (.error (.invalidPayload "ZK-ACE authorization is only permitted for Transfer operations"), t)
    else
      match op with
      | .transfer nonce receiver amount => x.executeTransfer t tx nonce receiver amount
      | op => x.executeOther t tx op

def preResult (tx : Transaction) : Option TaggedPubkey :=
  match decode x.decodeOther tx.payload with
  | .error _ => none
  | .ok op => (verifyPubkey t tx op).toOption

def sigOk (tx : Transaction) : Bool :=
  match tx.zkAuth with
  | some zk => (x.verifyZkAuth tx zk).isOk
  | none =>
    match x.preResult t tx with
    | none => false
    | some key => !key.isZero && x.verifyCredential tx.attestation tx.payload key

def executeEach (step : StateTree → Transaction → ExecutionReceipt × StateTree) :
    StateTree → List Transaction → List ExecutionReceipt × StateTree
  | t, [] => ([], t)
  | t, tx :: txs =>
    let (receipt, t) := step t tx
    let (receipts, t) := executeEach step t txs
    (receipt :: receipts, t)

def unsignedReceipt (tx : Transaction) : ExecutionReceipt :=
  ⟨x.txHash tx, false, tx.sender, [], some "Invalid attestation signature"⟩

def applyPresigned (start : StateTree) (t : StateTree) (tx : Transaction) : ExecutionReceipt × StateTree :=
  if x.sigOk start tx then
    let (result, t) := x.executeTransactionPresigned t tx
    (x.receiptOf tx result, t)
  else (x.unsignedReceipt tx, t)

def executeBlock (txs : List Transaction) : List ExecutionReceipt × StateTree :=
  executeEach (x.applyPresigned t) t txs

def applyTransaction (tx : Transaction) : ExecutionReceipt × StateTree :=
  let (result, t) := x.executeTransaction t tx
  (x.receiptOf tx result, t)

def executeSequentially (txs : List Transaction) : List ExecutionReceipt × StateTree :=
  executeEach x.applyTransaction t txs

def credentialHolds (tx : Transaction) : Bool :=
  match tx.zkAuth with
  | some zk => (x.verifyZkAuth tx zk).isOk
  | none =>
    match x.preResult t tx with
    | none => false
    | some key => x.verifyCredential tx.attestation tx.payload key

end Externals

/-! The texts of the errors, told apart by how they begin. -/

namespace EngineError

def label : EngineError → String
  | insufficientBalance _ _ => "insufficient balance: have "
  | accountNotFound _ => "account not found: "
  | invalidNonce _ _ => "invalid nonce: expected "
  | invalidPayload _ => "invalid transaction payload: "
  | accountExpired _ => "account expired (stubbed): "
  | balanceOverflow _ _ => "balance overflow: crediting "
  | nonceOverflow _ => "nonce overflow for account "
  | invalidCredential _ => "invalid credential for sender "
  | accountAlreadyExists _ => "account already exists: "
  | addressAlreadyBound _ => "address already bound to account "
  | invalidBindingProof _ => "invalid address binding proof for type 0x"

theorem append_parts (a b c d : String) : a ++ b ++ c ++ d = a ++ (b ++ (c ++ d)) := by
  rw [String.append_assoc, String.append_assoc]

variable (e : EngineError)

theorem text_eq : ∃ rest, e.text = e.label ++ rest := by
  cases e with
  | insufficientBalance have_ need => exact ⟨_, append_parts _ (toString have_) ", need " (toString need)⟩
  | invalidNonce expected got => exact ⟨_, append_parts _ (toString expected) ", got " (toString got)⟩
  | balanceOverflow balance amount =>
    exact ⟨_, append_parts _ (toString amount) " to account with balance " (toString balance)⟩
  | accountNotFound id => exact ⟨_, rfl⟩
  | invalidPayload text => exact ⟨_, rfl⟩
  | accountExpired id => exact ⟨_, rfl⟩
  | nonceOverflow id => exact ⟨_, rfl⟩
  | invalidCredential id => exact ⟨_, rfl⟩
  | accountAlreadyExists id => exact ⟨_, rfl⟩
  | addressAlreadyBound id => exact ⟨_, rfl⟩
  | invalidBindingProof addressType => exact ⟨_, rfl⟩

def otherLabels : List String :=
  ["insufficient balance: have ", "account not found: ", "invalid nonce: expected ", "invalid transaction payload: ",
    "account expired (stubbed): ", "balance overflow: crediting ", "nonce overflow for account ", "account already exists: ",
    "address already bound to account ", "invalid address binding proof for type 0x"]

def credentialLabel : String := "invalid credential for sender "

theorem label_cases :
    e.isCredential = true ∧ e.label = credentialLabel ∨ e.isCredential = false ∧ e.label ∈ otherLabels := by
  cases e <;> simp [isCredential, label, otherLabels, credentialLabel]

theorem labels_differ : (∀ label ∈ credentialLabel :: otherLabels, 10 ≤ label.toList.length ∧
      label.toList.take 10 ≠ "Invalid attestation signature".toList.take 10) ∧
    ∀ label ∈ otherLabels, label.toList.take 10 ≠ credentialLabel.toList.take 10 := by
  decide +kernel

theorem label_mem : e.label ∈ credentialLabel :: otherLabels := by
  rcases e.label_cases with ⟨-, same⟩ | ⟨-, member⟩
  · exact List.mem_cons.mpr (.inl same)
  · exact List.mem_cons_of_mem _ member

theorem text_take : e.text.toList.take 10 = e.label.toList.take 10 := by
  obtain ⟨rest, same⟩ := e.text_eq
  rw [same, String.toList_append, List.take_append_of_le_length (labels_differ.1 _ e.label_mem).1]

theorem text_ne_unsigned : e.text ≠ "Invalid attestation signature" := by
  intro same
  have chars := e.text_take
  rw [same] at chars
  exact (labels_differ.1 _ e.label_mem).2 chars.symm

theorem text_ne_credential {e : EngineError} (other : e.isCredential = false) (id : AccountId) :
    e.text ≠ (invalidCredential id).text := by
  intro same
  have chars := e.text_take
  rw [same, text_take] at chars
  rcases e.label_cases with ⟨credential, -⟩ | ⟨-, member⟩
  · rw [other] at credential
    cases credential
  · exact labels_differ.2 _ member chars.symm

end EngineError

structure Grows (t t' : StateTree) : Prop where
  kept : ∀ id, t.contains id = true → t'.contains id = true
  keyed : t.Keyed → t'.Keyed

structure Tame (t : StateTree) (done : Outcome EngineError (List StateChange)) : Prop where
  grows : Grows t done.2
  other : Credible done.1

section

variable {derive : Derivations} {t t' : StateTree} {id sender : AccountId} {account : Account} {nonce : Nat}
  {error : EngineError}
  {result : Except EngineError (List StateChange)}

theorem Grows.refl (t : StateTree) : Grows t t := ⟨fun _ there => there, fun keyed => keyed⟩

theorem Grows.trans {t'' : StateTree} (first : Grows t t') (second : Grows t' t'') : Grows t t'' :=
  ⟨fun id there => second.kept id (first.kept id there), fun keyed => second.keyed (first.keyed keyed)⟩

theorem grows_modify {f : Account → Account} (own : ∀ a, t.get sender = some a → (f a).idCom = a.idCom) :
    Grows t (t.modify sender f) where
  kept id there := by rw [contains_modify]; exact there
  keyed := (keepsCold_modify own).keyed

theorem grows_insert (derive : Derivations) (t : StateTree) (a : Account) : Grows t (t.insert derive a) where
  kept id there := by
    unfold contains at there ⊢
    rw [get_insert]
    split
    · rfl
    · exact there
  keyed keyed := keyed.insert derive a

variable {P : AccountId → Prop}

theorem Write.grows (write : Write derive P t t') : Grows t t' := by
  cases write with
  | modify inside own => exact grows_modify own
  | ensure inside hot =>
    unfold ensureAccount
    split
    · exact .refl t
    · exact grows_insert derive t _
  | rewrite inside held own => exact grows_insert derive t _
  | replay => exact ⟨fun _ there => there, fun keyed => keyed⟩

theorem Writes.grows (writes : Writes derive P t t') : Grows t t' := by
  induction writes with
  | refl => exact .refl t
  | tail _ last ih => exact ih.trans last.grows

theorem Performs.tame {done : Outcome EngineError (List StateChange)} (performs : Performs derive P t done) :
    Tame t done := ⟨Writes.grows performs.writes, performs.other⟩

theorem Tame.unchanged (other : Credible result) : Tame t (result, t) :=
  ⟨.refl t, other⟩

theorem createAccount_tame (derive : Derivations) (t : StateTree) (sender idCom : AccountId) (key : TaggedPubkey) :
    Tame t (createAccount derive t sender idCom key) := by
  unfold createAccount
  split
  · exact .unchanged (credible_error rfl)
  split
  · exact .unchanged (credible_error rfl)
  · exact ⟨grows_insert derive t _, credible_ok _⟩

end

namespace Operations

variable {o : Operations} {t s : StateTree} {tx : Transaction} (o : Operations) (t : StateTree) (tx : Transaction)

theorem executeOther_tame (op : TransactionOp) :
    Tame t (o.executeOther t tx op) := by
  cases op with
  | createAccount id key => exact createAccount_tame o.derive t tx.sender id key
  | _ => exact (executeOther_performs o t tx (fun _ _ same => by cases same)).tame

theorem executeTransactionPresigned_tame :
    Tame t (o.externals.executeTransactionPresigned t tx) := by
  unfold Externals.executeTransactionPresigned
  split
  · exact .unchanged (credible_error (ofPayload_credible _))
  split
  · exact .unchanged (credible_error rfl)
  split
  · exact (executeTransfer_performs (P := fun _ => True) _ t tx _ _ _ trivial trivial).tame
  · exact executeOther_tame o t tx _

theorem executeTransaction_grows :
    Grows t (o.externals.executeTransaction t tx).2 := by
  rcases o.externals.executeTransaction_cases t tx with ⟨error, refused⟩ | ⟨op, -, -, done⟩
  · rw [refused]
    exact .refl t
  · rcases done with ⟨nonce, receiver, amount, -, done⟩ | ⟨-, -, done⟩
    · rw [done]
      exact (executeTransfer_performs (P := fun _ => True) _ t tx nonce receiver amount trivial trivial).tame.grows
    · rw [done]
      exact (executeOther_tame o t tx op).grows

end Operations

namespace Externals

variable {x : Externals} {start t : StateTree} {tx : Transaction} {op : TransactionOp}

theorem verifyPubkey_grows {key : TaggedPubkey} (found : verifyPubkey start tx op = .ok key)
    (grows : Grows start t) : ∃ key', verifyPubkey t tx op = .ok key' := by
  unfold verifyPubkey at found ⊢
  cases held : start.get tx.sender with
  | none =>
    -- without an account only the key of the account's own creation is found
    rw [held] at found
    cases op with
    | createAccount idCom carried =>
      dsimp only at found ⊢
      split at found <;> rename_i own
      · exact ⟨carried, if_pos own⟩
      · cases found
    | _ => cases found
  | some account =>
    have there : start.contains tx.sender = true := by
      unfold contains
      rw [held]
      rfl
    obtain ⟨account', kept⟩ := Option.isSome_iff_exists.mp (grows.kept tx.sender there)
    rw [kept]
    cases op with
    | createAccount idCom carried =>
      dsimp only
      split
      · exact ⟨_, rfl⟩
      · exact ⟨_, rfl⟩
    | _ => exact ⟨_, rfl⟩

theorem authorise_of_holds (decoded : decode x.decodeOther tx.payload = .ok op)
    (holds : x.credentialHolds t tx = true) : x.authorise t tx op = .ok () := by
  unfold credentialHolds preResult at holds
  rw [decoded] at holds
  unfold authorise
  cases zk : tx.zkAuth with
  | some proof =>
    rw [zk] at holds
    dsimp only at holds ⊢
    cases verified : x.verifyZkAuth tx proof with
    | error text =>
      rw [verified] at holds
      cases holds
    | ok _ => rfl
  | none =>
    rw [zk] at holds
    dsimp only at holds ⊢
    cases found : verifyPubkey t tx op with
    | error error =>
      rw [found] at holds
      cases holds
    | ok key =>
      rw [found] at holds
      dsimp only [Except.toOption] at holds ⊢
      rw [if_pos holds]

theorem executeTransaction_of_authorised (decoded : decode x.decodeOther tx.payload = .ok op)
    (authorised : x.authorise t tx op = .ok ()) : x.executeTransaction t tx = x.executeTransactionPresigned t tx := by
  unfold executeTransaction executeTransactionPresigned
  rw [decoded]
  dsimp only
  generalize x.authorise t tx op = verdict at authorised ⊢
  subst authorised
  rfl

theorem executeTransaction_of_holds (holds : x.credentialHolds t tx = true) :
    x.executeTransaction t tx = x.executeTransactionPresigned t tx := by
  cases decoded : decode x.decodeOther tx.payload with
  | error error =>
    unfold executeTransaction executeTransactionPresigned
    rw [decoded]
  | ok op => exact executeTransaction_of_authorised decoded (authorise_of_holds decoded holds)

theorem executeTransaction_of_outdated (grows : Grows start t) (signed : x.sigOk start tx = true)
    (outdated : x.credentialHolds t tx = false) : x.executeTransaction t tx = (.error (.invalidCredential tx.sender), t) := by
  unfold sigOk at signed
  unfold credentialHolds at outdated
  cases zk : tx.zkAuth with
  | some proof =>
    rw [zk] at signed outdated
    rw [signed] at outdated
    cases outdated
  | none =>
    rw [zk] at signed outdated
    unfold preResult at signed outdated
    unfold executeTransaction authorise
    cases decoded : decode x.decodeOther tx.payload with
    | error error =>
      rw [decoded] at signed
      cases signed
    | ok op =>
      rw [decoded] at signed outdated
      dsimp only at signed outdated
      cases found : verifyPubkey start tx op with
      | error error =>
        rw [found] at signed
        cases signed
      | ok key =>
        obtain ⟨key', again⟩ := verifyPubkey_grows found grows
        rw [again] at outdated
        dsimp only [Except.toOption] at outdated
        have plain : (tx.isZkAuth && !isTransfer op) = false := by
          rw [Transaction.isZkAuth, zk]
          rfl
        rw [zk]
        dsimp only
        rw [plain, again]
        dsimp only
        rw [if_neg (by simp), if_neg (by simp [outdated])]

theorem executeEach_cons (step : StateTree → Transaction → ExecutionReceipt × StateTree) (t : StateTree) (tx : Transaction)
    (txs : List Transaction) :
    executeEach step t (tx :: txs) =
      ((step t tx).1 :: (executeEach step (step t tx).2 txs).1, (executeEach step (step t tx).2 txs).2) := rfl

theorem receiptOf_ne_unsigned (result : Except EngineError (List StateChange)) :
    x.receiptOf tx result ≠ x.unsignedReceipt tx := by
  intro same
  cases result with
  | ok changes => cases congrArg ExecutionReceipt.success same
  | error error =>
    have texts : some error.text = some "Invalid attestation signature" := congrArg ExecutionReceipt.error same
    exact error.text_ne_unsigned (Option.some.inj texts)

theorem receiptOf_ne_refused {result : Except EngineError (List StateChange)} (other : Credible result) (id : AccountId) :
    x.receiptOf tx result ≠ x.receiptOf tx (.error (.invalidCredential id)) := by
  intro same
  cases result with
  | ok changes => cases congrArg ExecutionReceipt.success same
  | error error =>
    have texts : some error.text = some (EngineError.invalidCredential id).text := congrArg ExecutionReceipt.error same
    exact EngineError.text_ne_credential (other error rfl) id (Option.some.inj texts)

theorem applyPresigned_of_holds (signed : x.sigOk start tx = true) (holds : x.credentialHolds t tx = true) :
    x.applyPresigned start t tx = x.applyTransaction t tx := by
  unfold applyPresigned applyTransaction
  rw [if_pos signed, executeTransaction_of_holds holds]

theorem signed_of_same_receipt (tame : Tame t (x.executeTransactionPresigned t tx)) (grows : Grows start t)
    (same : (x.applyPresigned start t tx).1 = (x.applyTransaction t tx).1) :
    x.sigOk start tx = true ∧ x.credentialHolds t tx = true := by
  unfold applyPresigned applyTransaction at same
  cases signed : x.sigOk start tx with
  | false =>
    rw [signed] at same
    exact absurd same.symm (receiptOf_ne_unsigned _)
  | true =>
    refine ⟨rfl, ?_⟩
    cases holds : x.credentialHolds t tx with
    | true => rfl
    | false =>
      rw [signed, executeTransaction_of_outdated grows signed holds] at same
      exact absurd same (receiptOf_ne_refused tame.other tx.sender)

end Externals

open Externals

namespace Operations

variable {o : Operations}

def VerifiedAlike (o : Operations) (start t : StateTree) (txs : List Transaction) : Prop :=
  Lib.Meets (fun t tx => (o.externals.applyTransaction t tx).2)
    (fun t tx => o.externals.sigOk start tx = true ∧ o.externals.credentialHolds t tx = true) t txs

theorem executeEach_eq_iff (o : Operations) {start t : StateTree} (grows : Grows start t) (txs : List Transaction) :
    executeEach (o.externals.applyPresigned start) t txs = executeEach o.externals.applyTransaction t txs ↔
      o.VerifiedAlike start t txs := by
  induction txs generalizing t with
  | nil => exact ⟨fun _ => trivial, fun _ => rfl⟩
  | cons tx txs ih =>
    have later := ih (grows.trans (o.executeTransaction_grows t tx))
    rw [executeEach_cons, executeEach_cons, Prod.mk.injEq, List.cons.injEq]
    constructor
    · rintro ⟨⟨receipt, receipts⟩, state⟩
      have alike := signed_of_same_receipt (o.executeTransactionPresigned_tame t tx) grows receipt
      rw [applyPresigned_of_holds alike.1 alike.2] at receipts state
      exact ⟨alike, later.mp (Prod.ext receipts state)⟩
    · rintro ⟨alike, rest⟩
      have same := later.mpr rest
      rw [applyPresigned_of_holds alike.1 alike.2]
      exact ⟨⟨rfl, congrArg Prod.fst same⟩, congrArg Prod.snd same⟩

/-- A block gives the receipts and the state of its transactions in turn exactly if each of them verifies, under a key
that is not zero, in the state before the block, and verifies again in the state it runs in. -/
theorem execute_block_eq_fold_iff (o : Operations) (t : StateTree) (txs : List Transaction) :
    o.externals.executeBlock t txs = o.externals.executeSequentially t txs ↔ o.VerifiedAlike t t txs :=
  executeEach_eq_iff o (.refl t) txs

end Operations

namespace SmallChain

def selfTransfer (n : Nat) (signer : UInt8) : Transaction :=
  { creation n signer with
    payload := opTransfer :: List.replicate 8 0 ++ hashBytes (account n).bytes ++ List.replicate 8 0 }

/-- An account is created and used in one block: in turn both transactions succeed, as a block the second has no key to be
verified with. -/
theorem new_account_refused_in_block :
    ((operations.externals.executeSequentially .new [creation 5 7, selfTransfer 5 7]).1.map (·.error)) = [none, none] ∧
      ((operations.externals.executeBlock .new [creation 5 7, selfTransfer 5 7]).1.map (·.error)) =
        [none, some "Invalid attestation signature"] := by
  decide +kernel

end SmallChain

end AceChain.Engine
