import AceChain.Engine.BlockExecution

namespace AceChain.Engine

open AceChain.Runtime State StateTree TransactionOp Std.TreeMap

/-- Nothing but the map of the accounts may have been rebuilt, and it has the accounts it had. -/
structure Unchanged (t t' : StateTree) : Prop where
  accounts : ∀ id, t'.get id = t.get id
  rest : t' = { t with accounts := t'.accounts }

variable (t : StateTree)

def FailsClean (done : Outcome EngineError (List StateChange)) : Prop :=
  ∀ e, done.1 = .error e → Unchanged t done.2

def Counts (sender : AccountId) (nonce : Nat) : Prop :=
  ∃ account next, t.get sender = some account ∧ consumeAccountNonce account sender nonce = .ok next

/-- The transfer passes its checks, and makes the receiver's account or takes an amount. -/
structure Debits (t : StateTree) (sender receiver : AccountId) (amount nonce : Nat) : Prop where
  sent : t.isStubbed sender = false
  held : ∃ account, t.get sender = some account ∧ account.nonce = nonce ∧ amount ≤ account.balance
  received : t.isStubbed receiver = false
  apart : sender ≠ receiver
  written : t.contains receiver = false ∨ amount ≠ 0 ∧ t.balanceOf receiver + amount ≤ u64Max

/-- The operation has written by the time it can fail. -/
def Late (tx : Transaction) (op : TransactionOp) : Prop :=
  match tx.zkAuth, op with
  | some zk, .transfer _ _ _ => t.zkReplayRegistry[zk.rpCom]? = none
  | none, .transfer nonce receiver amount => Debits t tx.sender receiver amount nonce
  | none, .setAuthPubkey nonce _ => Counts t tx.sender nonce
  | none, .addAuthKey nonce _ => Counts t tx.sender nonce
  | none, .other opcode => opcode = opRegisterAddresses ∧
    ∃ nonce bindings, decodeRegisterAddresses tx.payload = .ok (nonce, bindings) ∧ Counts t tx.sender nonce
  | _, _ => False

variable {derive : Derivations} {t t' : StateTree} {sender receiver : AccountId} {account : Account} {amount nonce next : Nat}
  {e : EngineError} {tx : Transaction}

theorem Unchanged.refl (t : StateTree) : Unchanged t t := ⟨fun _ => rfl, rfl⟩

theorem Unchanged.contains (same : Unchanged t t') (id : AccountId) : t'.contains id = t.contains id := by
  unfold StateTree.contains
  rw [same.accounts]

theorem ensured_unchanged : Unchanged t (ensureAccount derive t receiver) ↔ t.contains receiver = true := by
  constructor
  · intro same
    rw [← same.contains, contains_ensureAccount]
  · intro known
    rw [ensureAccount, if_pos known]
    exact .refl t

section Counting

variable (held : t.get sender = some account)

include held

theorem counted_changed (counted : consumeAccountNonce account sender nonce = .ok next) :
    ¬Unchanged t (t.modify sender (fun a => { a with nonce := next })) := by
  intro same
  have after := same.accounts sender
  rw [get_modify, if_pos rfl, held] at after
  have nonces : next = account.nonce := congrArg Account.nonce (Option.some.inj after)
  unfold consumeAccountNonce at counted
  split at counted
  · cases counted
  split at counted <;> rename_i sum
  · cases counted
  have added := u64CheckedAdd_eq sum
  cases counted
  omega

theorem debited_unchanged (enough : amount ≤ account.balance) :
    Unchanged t ((ensureAccount derive t receiver).modify sender (fun a => { a with balance := account.balance - amount })) ↔
      t.contains receiver = true ∧ amount = 0 := by
  have there : t.contains receiver = true → ensureAccount derive t receiver = t := fun known => if_pos known
  constructor
  · intro same
    have known : t.contains receiver = true := by
      rw [← same.contains, contains_modify, contains_ensureAccount]
    have after := same.accounts sender
    rw [there known, get_modify, if_pos rfl, held] at after
    have balances : account.balance - amount = account.balance := congrArg Account.balance (Option.some.inj after)
    exact ⟨known, by omega⟩
  · rintro ⟨known, rfl⟩
    rw [there known]
    refine ⟨fun id => ?_, rfl⟩
    rw [get_modify]
    split <;> rename_i own
    · rw [own, held]
      rfl
    · rfl

theorem moveBalance_failed (enough : amount ≤ account.balance)
    (failed : moveBalance (ensureAccount derive t receiver) sender receiver account amount true = (.error e, t')) :
    Unchanged t t' ↔ ¬(sender ≠ receiver ∧
      (t.contains receiver = false ∨ amount ≠ 0 ∧ t.balanceOf receiver + amount ≤ u64Max)) := by
  unfold moveBalance at failed
  by_cases self : sender = receiver
  · rw [if_pos self, if_pos rfl] at failed
    rcases bumpNonce_cases (ensureAccount derive t receiver) sender account with ⟨-, refused⟩ | ⟨-, counted⟩
    · rw [refused] at failed
      cases failed
      rw [ensured_unchanged, ← self, contains_of_get held]
      simp
    · rw [counted] at failed
      cases failed
  rw [if_neg self] at failed
  dsimp only at failed
  rw [← balanceOf_eq, balanceOf_ensureAccount] at failed
  cases sum : u64CheckedAdd (t.balanceOf receiver) amount with
  | none =>
    have exceeds : ¬t.balanceOf receiver + amount ≤ u64Max := fun fits => by simp [u64CheckedAdd, fits] at sum
    rw [sum] at failed
    cases failed
    rw [ensured_unchanged]
    simp [self, exceeds]
  | some credited =>
    have fits : t.balanceOf receiver + amount ≤ u64Max := Nat.le_of_lt_succ (u64CheckedAdd_eq sum ▸ u64CheckedAdd_lt sum)
    rw [sum] at failed
    rcases bumpNonce_cases ((ensureAccount derive t receiver).modify sender
        (fun a => { a with balance := account.balance - amount })) sender account with ⟨-, refused⟩ | ⟨-, counted⟩
    · rw [refused] at failed
      cases failed
      rw [debited_unchanged held enough]
      simp [self, fits]
    · rw [counted] at failed
      cases failed

end Counting

theorem updateAuthKey_failed {place : Account → TaggedPubkey → Except String Account} {key : TaggedPubkey}
    (failed : updateAuthKey place t sender nonce key = (.error e, t')) : Unchanged t t' ↔ ¬Counts t sender nonce := by
  unfold updateAuthKey at failed
  split at failed <;> rename_i held
  · cases failed
    exact iff_of_true (.refl t) (by simp [Counts, held])
  split at failed <;> rename_i counted
  · cases failed
    exact iff_of_true (.refl t) (by simp [Counts, held, counted])
  split at failed
  · cases failed
    exact iff_of_false (counted_changed held counted) (by simp [Counts, held, counted])
  · cases failed

theorem registerAddresses_failed {proofs : BindingProofs} {bindings : List AddressBinding}
    (failed : registerAddresses derive proofs t sender nonce bindings = (.error e, t')) :
    Unchanged t t' ↔ ¬Counts t sender nonce := by
  unfold registerAddresses at failed
  split at failed <;> rename_i held
  · cases failed
    exact iff_of_true (.refl t) (by simp [Counts, held])
  split at failed <;> rename_i counted
  · cases failed
    exact iff_of_true (.refl t) (by simp [Counts, held, counted])
  dsimp only at failed
  split at failed
  · cases failed
    exact iff_of_false (counted_changed held counted) (by simp [Counts, held, counted])
  · cases failed

theorem transfer_failed (failed : transfer derive t sender receiver amount (some nonce) = (.error e, t')) :
    Unchanged t t' ↔ ¬Debits t sender receiver amount nonce := by
  unfold transfer transferWithNoncePolicy at failed
  split at failed <;> rename_i sent
  · cases failed
    exact iff_of_true (.refl t) fun debits => by rw [debits.sent] at sent; cases sent
  cases held : t.get sender with
  | none =>
    rw [held] at failed
    cases failed
    exact iff_of_true (.refl t) fun ⟨_, ⟨_, found, _⟩, _, _, _⟩ => by rw [held] at found; cases found
  | some account =>
    rw [held] at failed
    dsimp only at failed
    have own : Debits t sender receiver amount nonce → account.nonce = nonce ∧ amount ≤ account.balance := by
      rintro ⟨_, ⟨_, found, facts⟩, _, _, _⟩
      rw [held] at found
      cases found
      exact facts
    split at failed <;> rename_i expected
    · cases failed
      exact iff_of_true (.refl t) fun debits => by simp [(own debits).1] at expected; omega
    have counted : account.nonce = nonce := by simp at expected; exact expected.symm
    split at failed <;> rename_i short
    · cases failed
      exact iff_of_true (.refl t) fun debits => absurd (own debits).2 (Nat.not_le.mpr short)
    split at failed <;> rename_i cold
    · cases failed
      exact iff_of_true (.refl t) fun debits => by rw [debits.received] at cold; cases cold
    have enough := Nat.le_of_not_lt short
    rw [moveBalance_failed held enough failed]
    refine not_congr ⟨fun moves => ?_, fun debits => ⟨debits.apart, debits.written⟩⟩
    exact ⟨Bool.eq_false_of_not_eq_true sent, ⟨account, held, counted, enough⟩, Bool.eq_false_of_not_eq_true cold,
      moves.1, moves.2⟩

theorem registry_transferWithNoncePolicy (derive : Derivations) (t : StateTree) (sender receiver : AccountId) (amount : Nat) :
    (transferWithNoncePolicy derive t sender receiver amount none false).2.zkReplayRegistry = t.zkReplayRegistry := by
  have ensured : (ensureAccount derive t receiver).zkReplayRegistry = t.zkReplayRegistry := by
    unfold ensureAccount
    split <;> rfl
  unfold transferWithNoncePolicy moveBalance
  simp only [Bool.false_eq_true, if_false]
  repeat' split
  all_goals first | rfl | exact ensured

namespace Externals

variable {x : Externals}

theorem executeTransfer_failed (failed : x.executeTransfer t tx nonce receiver amount = (.error e, t')) :
    Unchanged t t' ↔ ¬Late t tx (.transfer nonce receiver amount) := by
  unfold executeTransfer at failed
  unfold Late
  cases zk : tx.zkAuth with
  | none =>
    rw [zk] at failed
    exact transfer_failed failed
  | some proof =>
    rw [zk] at failed
    dsimp only at failed ⊢
    cases spent : t.zkReplayRegistry[proof.rpCom]? with
    | some idcom =>
      have refused : t.zkReplayConsume proof.rpCom tx.sender.bytes = none := by
        simp [zkReplayConsume, contains_eq_isSome_getElem?, spent]
      rw [refused] at failed
      cases failed
      exact iff_of_true (.refl t) (by simp)
    | none =>
      have taken : t.zkReplayConsume proof.rpCom tx.sender.bytes =
          some { t with zkReplayRegistry := t.zkReplayRegistry.insert proof.rpCom tx.sender.bytes } := by
        simp [zkReplayConsume, contains_eq_isSome_getElem?, spent]
      rw [taken] at failed
      dsimp only at failed
      split at failed <;> rename_i moved
      · cases failed
        refine iff_of_false (fun same => ?_) (by simp)
        have registry := congrArg (fun done => done.2.zkReplayRegistry[proof.rpCom]?) moved
        rw [registry_transferWithNoncePolicy, getElem?_insert_self, same.rest, spent] at registry
        cases registry
      · cases failed

end Externals

open Externals

namespace Operations

variable {o : Operations} {op : TransactionOp}

theorem executeOther_failed (plain : tx.zkAuth = none) (other : isTransfer op = false)
    (failed : o.executeOther t tx op = (.error e, t')) : Unchanged t t' ↔ ¬Late t tx op := by
  unfold executeOther at failed
  unfold Late
  rw [plain]
  cases op with
  | transfer nonce receiver amount => cases other
  | createAccount id key =>
    obtain rfl : t = t' := by
      dsimp only at failed
      unfold createAccount at failed
      repeat' split at failed
      all_goals cases failed
      all_goals rfl
    exact iff_of_true (.refl t) not_false
  | setAuthPubkey nonce key => exact updateAuthKey_failed failed
  | addAuthKey nonce key => exact updateAuthKey_failed failed
  | approveValidator nonce candidate key =>
    obtain rfl : t = t' := by
      dsimp only at failed
      unfold applyApproveValidatorNonce at failed
      repeat' split at failed
      all_goals cases failed
      all_goals rfl
    exact iff_of_true (.refl t) not_false
  | other opcode =>
    dsimp only at failed ⊢
    split at failed <;> rename_i register
    · cases decoded : decodeRegisterAddresses tx.payload with
      | error error =>
        rw [decoded] at failed
        cases failed
        exact iff_of_true (.refl t) (by simp)
      | ok found =>
        obtain ⟨nonce, bindings⟩ := found
        rw [decoded] at failed
        rw [registerAddresses_failed failed]
        simp [register]
    · cases failed
      exact iff_of_true (.refl t) (by simp [register])

theorem presigned_failed (failed : o.externals.executeTransactionPresigned t tx = (.error e, t')) :
    Unchanged t t' ↔ ∀ op, decode o.externals.decodeOther tx.payload = .ok op → ¬Late t tx op := by
  unfold executeTransactionPresigned at failed
  cases decoded : decode o.externals.decodeOther tx.payload with
  | error error =>
    rw [decoded] at failed
    cases failed
    exact iff_of_true (.refl t) (by simp)
  | ok op =>
    rw [decoded] at failed
    simp only [Except.ok.injEq, forall_eq']
    dsimp only at failed
    split at failed <;> rename_i refused
    · cases failed
      obtain ⟨proven, other⟩ := Bool.and_eq_true_iff.mp refused
      obtain ⟨zk, carried⟩ := Option.isSome_iff_exists.mp proven
      refine iff_of_true (.refl t) ?_
      unfold Late
      rw [carried]
      cases op with
      | transfer nonce receiver amount => cases other
      | _ => exact not_false
    · cases op with
      | transfer nonce receiver amount => exact executeTransfer_failed failed
      | _ => exact executeOther_failed (o := o) (plain_of_allowed refused rfl) rfl failed

theorem execute_failed (failed : o.externals.executeTransaction t tx = (.error e, t')) :
    Unchanged t t' ↔ ∀ op, decode o.externals.decodeOther tx.payload = .ok op →
      o.externals.authorise t tx op = .ok () → ¬Late t tx op := by
  cases decoded : decode o.externals.decodeOther tx.payload with
  | error error =>
    unfold executeTransaction at failed
    rw [decoded] at failed
    cases failed
    exact iff_of_true (.refl t) (by simp)
  | ok op =>
    cases authorised : o.externals.authorise t tx op with
    | ok done =>
      rw [executeTransaction_of_authorised decoded authorised] at failed
      rw [presigned_failed failed, decoded]
      simp [authorised]
    | error error =>
      unfold executeTransaction at failed
      rw [decoded] at failed
      dsimp only at failed
      rw [authorised] at failed
      split at failed
      all_goals cases failed
      all_goals exact iff_of_true (.refl t) (by simp [authorised])

theorem failsClean_iff {done : Outcome EngineError (List StateChange)} {P : Prop}
    (fails : ∀ e t', done = (.error e, t') → (Unchanged t t' ↔ P)) : FailsClean t done ↔ done.1.isOk = true ∨ P := by
  obtain ⟨result, t'⟩ := done
  cases result with
  | ok changes => exact iff_of_true (fun e failed => by cases failed) (.inl rfl)
  | error e =>
    rw [← fails e t' rfl]
    exact ⟨fun clean => .inr (clean e rfl), fun same _ _ => same.resolve_left Bool.false_ne_true⟩

/-- A transaction that fails leaves the state as it was exactly if its operation has not written by the time it can fail. -/
theorem failed_transaction_clean_iff (o : Operations) (t : StateTree) (tx : Transaction) :
    (FailsClean t (o.externals.executeTransaction t tx) ↔ (o.externals.executeTransaction t tx).1.isOk = true ∨
      ∀ op, decode o.externals.decodeOther tx.payload = .ok op →
        o.externals.authorise t tx op = .ok () → ¬Late t tx op) ∧
    (FailsClean t (o.externals.executeTransactionPresigned t tx) ↔
      (o.externals.executeTransactionPresigned t tx).1.isOk = true ∨
      ∀ op, decode o.externals.decodeOther tx.payload = .ok op → ¬Late t tx op) := by
  constructor
  · exact failsClean_iff fun _ _ => execute_failed
  · exact failsClean_iff fun _ _ => presigned_failed

end Operations

namespace SmallChain

def secondKey : Transaction :=
  { creation 1 7 with payload := opAddAuthKey :: leBytes 8 5 ++ [SignatureAlgorithm.ed25519.tag, 32, 0] ++ key 8 }

/-- A second key of the primary key's algorithm is refused, and the nonce stays counted. -/
theorem refused_key_counts_nonce :
    ¬FailsClean genesis (operations.externals.executeTransaction genesis secondKey) := by
  intro clean
  have failed : (operations.externals.executeTransaction genesis secondKey).1.isOk = false := by decide +kernel
  cases result : (operations.externals.executeTransaction genesis secondKey).1 with
  | ok changes =>
    rw [result] at failed
    cases failed
  | error e =>
    have same := (clean e result).accounts (account 1)
    exact absurd (congrArg (fun a => a.map (·.nonce)) same) (by decide +kernel)

end SmallChain

end AceChain.Engine
