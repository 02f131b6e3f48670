import AceChain.Engine.Receipt
import AceChain.State.Supply

namespace AceChain.Engine

open State StateTree StateChange Account

inductive EngineError where
  | insufficientBalance (have_ need : Nat)
  | accountNotFound (id : AccountId)
  | invalidNonce (expected got : Nat)
  | invalidPayload (text : String)
  | accountExpired (id : AccountId)
  | balanceOverflow (balance amount : Nat)
  | nonceOverflow (id : AccountId)
  | invalidCredential (id : AccountId)
  | accountAlreadyExists (id : AccountId)
  | addressAlreadyBound (id : AccountId)
  | invalidBindingProof (addressType : UInt8)
deriving DecidableEq

def EngineError.text : EngineError → String
  | insufficientBalance have_ need => "insufficient balance: have " ++ toString have_ ++ ", need " ++ toString need
  | accountNotFound id => "account not found: " ++ id.bytes.toHex
  | invalidNonce expected got => "invalid nonce: expected " ++ toString expected ++ ", got " ++ toString got
  | invalidPayload text => "invalid transaction payload: " ++ text
  | accountExpired id => "account expired (stubbed): " ++ id.bytes.toHex
  | balanceOverflow balance amount =>
    "balance overflow: crediting " ++ toString amount ++ " to account with balance " ++ toString balance
  | nonceOverflow id => "nonce overflow for account " ++ id.bytes.toHex
  | invalidCredential id => "invalid credential for sender " ++ id.bytes.toHex
  | accountAlreadyExists id => "account already exists: " ++ id.bytes.toHex
  | addressAlreadyBound id => "address already bound to account " ++ id.bytes.toHex
  | invalidBindingProof addressType => "invalid address binding proof for type 0x" ++ addressType.toBitVec.toHex

/-- The result of code that works on the state in place: what it wrote before an error stays. -/
abbrev Outcome (ε α : Type) := Except ε α × StateTree

section

variable (derive : Derivations) (t : StateTree)

def bumpNonce (id : AccountId) (account : Account) : Outcome EngineError StateChange :=
  match u64CheckedAdd account.nonce 1 with
  | none => (.error (.nonceOverflow id), t)
  | some nonce => (.ok (.nonceIncrement id nonce), t.modify id (fun a => { a with nonce := nonce }))

variable (sender receiver : AccountId)

/-- The part of a transfer after its checks, between accounts that exist. The amount is taken before the nonce is
counted. -/
def moveBalance (account : Account) (amount : Nat)
    (incrementNonce : Bool) : Outcome EngineError (List StateChange) :=
  if sender = receiver then
    if incrementNonce then
      match bumpNonce t sender account with
      | (.error error, t) => (.error error, t)
      | (.ok change, t) => (.ok [change], t)
    else (.ok [], t)
  else
    let received := ((t.get receiver).map (·.balance)).getD 0
    match u64CheckedAdd received amount with
    | none => (.error (.balanceOverflow received amount), t)
    | some credited =>
      let t := t.modify sender (fun a => { a with balance := account.balance - amount })
      let debit := balanceChange sender account.balance (account.balance - amount)
      let credit := balanceChange receiver received credited
      let paid (t : StateTree) := t.modify receiver (fun a => { a with balance := credited })
      if incrementNonce then
        match bumpNonce t sender account with
        | (.error error, t) => (.error error, t)
        | (.ok change, t) => (.ok [debit, change, credit], paid t)
      else (.ok [debit, credit], paid t)

/-- `Account::with_balance(to, 0)` is a new account. -/
def ensureAccount (id : AccountId) : StateTree :=
  if t.contains id then t else t.insert derive (new id)

def transferWithNoncePolicy (amount : Nat) (expectedNonce : Option Nat)
    (incrementNonce : Bool) : Outcome EngineError (List StateChange) :=
  if t.isStubbed sender then (.error (.accountExpired sender), t)
  else
    match t.get sender with
    | none => (.error (.accountNotFound sender), t)
    | some account =>
      match expectedNonce.filter (· ≠ account.nonce) with
      | some nonce => (.error (.invalidNonce account.nonce nonce), t)
      | none =>
        if account.balance < amount then (.error (.insufficientBalance account.balance amount), t)
        else if t.isStubbed receiver then (.error (.accountExpired receiver), t)
        else moveBalance (ensureAccount derive t receiver) sender receiver account amount incrementNonce

def transfer (amount : Nat) (expectedNonce : Option Nat) :
    Outcome EngineError (List StateChange) :=
  transferWithNoncePolicy derive t sender receiver amount expectedNonce true

/-- The amount is taken, and then the nonce cannot be counted. -/
def moveDebitsLate (account : Account) (amount : Nat) (incrementNonce : Bool) : Bool :=
  incrementNonce && sender ≠ receiver && amount ≠ 0 && t.balanceOf receiver + amount ≤ u64Max && u64Max ≤ account.nonce

def transferDebitsLate (amount : Nat) (expectedNonce : Option Nat) (incrementNonce : Bool) : Bool :=
  !t.isStubbed sender && !t.isStubbed receiver && (t.get sender).any (fun account =>
    expectedNonce.all (· = account.nonce) && amount ≤ account.balance &&
      moveDebitsLate t sender receiver account amount incrementNonce)

end

variable {derive : Derivations} {t t' : StateTree} {id sender receiver : AccountId}

theorem get_ensureAccount (other : AccountId) :
    (ensureAccount derive t id).get other =
      if other = id then some ((t.get id).getD (new id)) else t.get other := by
  unfold ensureAccount
  by_cases known : t.contains id = true
  · rw [if_pos known]
    by_cases same : other = id
    · obtain ⟨account, found⟩ := Option.isSome_iff_exists.mp known
      rw [if_pos same, same, found]
      rfl
    · rw [if_neg same]
  · have absent : t.get id = none := Option.not_isSome_iff_eq_none.mp known
    rw [if_neg known, get_insert, absent]
    rfl

theorem contains_ensureAccount (derive : Derivations) (t : StateTree) (id : AccountId) :
    (ensureAccount derive t id).contains id = true := by
  unfold contains
  rw [get_ensureAccount, if_pos rfl]
  rfl

theorem balanceOf_ensureAccount (other : AccountId) :
    (ensureAccount derive t id).balanceOf other = t.balanceOf other := by
  rw [balanceOf_eq, get_ensureAccount, balanceOf_eq]
  by_cases same : other = id
  · rw [if_pos same, same]
    cases t.get id <;> rfl
  · rw [if_neg same]

theorem supply_ensureAccount : (ensureAccount derive t id).supply = t.supply := by
  unfold ensureAccount
  by_cases known : t.contains id = true
  · rw [if_pos known]
  · have absent : t.get id = none := Option.not_isSome_iff_eq_none.mp known
    have inserted := supply_insert (t := t) (a := new id) derive
    rw [balanceOf_eq, show (new id).idCom = id from rfl, absent] at inserted
    rw [if_neg known]
    exact inserted

theorem ensureAccount_keeps (derive : Derivations) (t : StateTree) (id : AccountId) :
    t.KeepsBalances (ensureAccount derive t id) := by
  refine ⟨fun keyed => ?_, supply_ensureAccount, balanceOf_ensureAccount⟩
  unfold ensureAccount
  split
  · exact keyed
  · exact keyed.insert derive _

/-- What a failure leaves: the sender may have been debited, and was if it came late. -/
structure OnlyDebits (t t' : StateTree) (sender : AccountId) (late : Bool) : Prop where
  supply : t'.supply + t.balanceOf sender = t.supply + t'.balanceOf sender
  le : t'.balanceOf sender ≤ t.balanceOf sender
  debited : t'.balanceOf sender = t.balanceOf sender ↔ late = false

variable {late : Bool}

theorem OnlyDebits.of_kept (supply : t'.supply = t.supply) (balance : t'.balanceOf sender = t.balanceOf sender)
    (whole : late = false) : OnlyDebits t t' sender late where
  supply := by rw [supply, balance]
  le := Nat.le_of_eq balance
  debited := iff_of_true balance whole

theorem OnlyDebits.refl (whole : late = false) : OnlyDebits t t sender late := .of_kept rfl rfl whole

def Settles {ε α : Type} (fee : α → Nat) (t : StateTree) (sender : AccountId) (late : Bool) (outcome : Outcome ε α) : Prop :=
  match outcome with
  | (.ok done, t') => t'.supply + fee done = t.supply ∧ late = false
  | (.error _, t') => OnlyDebits t t' sender late

theorem Settles.of_kept {ε α : Type} {fee : α → Nat} {before : StateTree} {outcome : Outcome ε α}
    (settles : Settles fee t sender late outcome) (supply : t.supply = before.supply)
    (balance : t.balanceOf sender = before.balanceOf sender) : Settles fee before sender late outcome := by
  obtain ⟨result, after⟩ := outcome
  cases result with
  | ok done => exact ⟨settles.1.trans supply, settles.2⟩
  | error error =>
    obtain ⟨same, le, debited⟩ : OnlyDebits t after sender late := settles
    rw [balance] at same le debited
    exact ⟨supply ▸ same, le, debited⟩

theorem bumpNonce_cases (t : StateTree) (id : AccountId) (account : Account) :
    u64Max ≤ account.nonce ∧ bumpNonce t id account = (.error (.nonceOverflow id), t) ∨
      account.nonce < u64Max ∧ bumpNonce t id account =
        (.ok (.nonceIncrement id (account.nonce + 1)), t.modify id (fun a => { a with nonce := account.nonce + 1 })) := by
  unfold bumpNonce u64CheckedAdd
  by_cases fits : account.nonce + 1 ≤ u64Max
  · rw [if_pos fits]
    exact .inr ⟨fits, rfl⟩
  · rw [if_neg fits]
    exact .inl ⟨by omega, rfl⟩

theorem moveBalance_settles {account : Account} (amount : Nat) (incrementNonce : Bool)
    (found : t.get sender = some account) (known : t.contains receiver = true) (covered : amount ≤ account.balance) :
    Settles feeOf t sender (moveDebitsLate t sender receiver account amount incrementNonce)
      (moveBalance t sender receiver account amount incrementNonce) := by
  unfold moveBalance moveDebitsLate
  by_cases same : sender = receiver
  · have whole : ∀ b c d : Bool, (incrementNonce && decide (sender ≠ receiver) && b && c && d) = false := by simp [same]
    rw [if_pos same]
    cases incrementNonce with
    | false => exact ⟨rfl, whole _ _ _⟩
    | true =>
      rcases bumpNonce_cases t sender account with ⟨-, refused⟩ | ⟨-, counted⟩
      · rw [refused]
        exact .refl (whole _ _ _)
      · rw [counted]
        exact ⟨supply_setNonce t sender _, whole _ _ _⟩
  · rw [if_neg same]
    dsimp only
    rw [← balanceOf_eq]
    cases sum : u64CheckedAdd (t.balanceOf receiver) amount with
    | none =>
      have exceeds : ¬t.balanceOf receiver + amount ≤ u64Max := fun fits => by simp [u64CheckedAdd, fits] at sum
      exact .refl (by simp [exceeds])
    | some credited =>
      have whole := u64CheckedAdd_eq sum
      have fits : t.balanceOf receiver + amount ≤ u64Max := Nat.le_of_lt_succ (whole ▸ u64CheckedAdd_lt sum)
      have own := balanceOf_of_get found
      have contained : t.contains sender = true := Option.isSome_of_eq_some found
      have debit := supply_setBalance contained (account.balance - amount)
      have left := balanceOf_setBalance contained (account.balance - amount)
      have other := balanceOf_modify_ne (t := t) (Ne.symm same)
        (fun a => { a with balance := account.balance - amount })
      have still : (t.modify sender (fun a => { a with balance := account.balance - amount })).contains receiver =
          t.contains receiver := contains_modify _ receiver
      generalize t.modify sender (fun a => { a with balance := account.balance - amount }) = debited at *
      -- the credit completes the debit on any state that has kept the balances since
      have credit : ∀ after : StateTree, after.supply = debited.supply →
          after.balanceOf receiver = debited.balanceOf receiver → after.contains receiver = true →
          (after.modify receiver (fun a => { a with balance := credited })).supply = t.supply := by
        intro after supply balance there
        have credit := supply_setBalance there credited
        omega
      cases incrementNonce with
      | false => exact ⟨credit debited rfl rfl (still.trans known), rfl⟩
      | true =>
        rcases bumpNonce_cases debited sender account with ⟨high, refused⟩ | ⟨low, counted⟩
        · rw [refused]
          refine ⟨by omega, by omega, ?_⟩
          simp only [same, fits, high, Bool.true_and, Bool.and_true, decide_true, ne_eq, not_false_eq_true,
            decide_eq_false_iff_not, not_not]
          omega
        · rw [counted]
          refine ⟨credit _ (supply_setNonce debited sender _) (balanceOf_setNonce debited sender _ receiver) ?_, ?_⟩
          · rw [contains_modify, still]
            exact known
          · simp [Nat.not_le.mpr low]

theorem transferWithNoncePolicy_settles (derive : Derivations) (t : StateTree) (sender receiver : AccountId)
    (amount : Nat) (expectedNonce : Option Nat) (incrementNonce : Bool) :
    Settles feeOf t sender (transferDebitsLate t sender receiver amount expectedNonce incrementNonce)
      (transferWithNoncePolicy derive t sender receiver amount expectedNonce incrementNonce) := by
  unfold transferWithNoncePolicy transferDebitsLate
  split <;> rename_i sent
  · exact .refl (by simp [sent])
  cases found : t.get sender with
  | none => exact .refl (by simp)
  | some account =>
    dsimp only
    split <;> rename_i expected
    · obtain ⟨rfl, other⟩ := Option.filter_eq_some_iff.mp expected
      exact .refl (by simp [of_decide_eq_true other])
    split <;> rename_i short
    · exact .refl (by simp [Nat.not_le.mpr short])
    split <;> rename_i received
    · exact .refl (by simp [received])
    have held : (ensureAccount derive t receiver).get sender = some account := by
      rw [get_ensureAccount]
      by_cases same : sender = receiver
      · rw [if_pos same, ← same, found]
        rfl
      · rw [if_neg same, found]
    have moved := moveBalance_settles amount incrementNonce held (contains_ensureAccount derive t receiver) (by omega)
    have own : expectedNonce.all (· = account.nonce) = true := by simpa [Option.all_eq_true] using expected
    have late : moveDebitsLate (ensureAccount derive t receiver) sender receiver account amount incrementNonce =
        (!t.isStubbed sender && !t.isStubbed receiver && (some account).any (fun account =>
          expectedNonce.all (· = account.nonce) && amount ≤ account.balance &&
            moveDebitsLate t sender receiver account amount incrementNonce)) := by
      simp [sent, received, own, Nat.le_of_not_lt short, moveDebitsLate, balanceOf_ensureAccount]
    rw [late] at moved
    exact moved.of_kept supply_ensureAccount (balanceOf_ensureAccount sender)

theorem moveBalance_congr (same : t'.get receiver = t.get receiver) (account : Account) (amount : Nat)
    (incrementNonce : Bool) :
    (moveBalance t' sender receiver account amount incrementNonce).1 =
      (moveBalance t sender receiver account amount incrementNonce).1 := by
  unfold moveBalance bumpNonce
  rw [same]
  cases u64CheckedAdd account.nonce 1 <;> dsimp only <;> (repeat' split) <;> rfl

theorem transferWithNoncePolicy_congr (accounts : ∀ id, t'.get id = t.get id)
    (stubs : ∀ id, t'.isStubbed id = t.isStubbed id) (amount : Nat) (expectedNonce : Option Nat) (incrementNonce : Bool) :
    (transferWithNoncePolicy derive t' sender receiver amount expectedNonce incrementNonce).1 =
      (transferWithNoncePolicy derive t sender receiver amount expectedNonce incrementNonce).1 := by
  have there : (ensureAccount derive t' receiver).get receiver = (ensureAccount derive t receiver).get receiver := by
    rw [get_ensureAccount, get_ensureAccount, accounts]
  unfold transferWithNoncePolicy
  rw [accounts, stubs, stubs]
  repeat' split
  all_goals first | rfl | exact moveBalance_congr there _ _ _

theorem transferDebitsLate_uncounted (t : StateTree) (sender receiver : AccountId) (amount : Nat)
    (expectedNonce : Option Nat) :
    transferDebitsLate t sender receiver amount expectedNonce false = false := by
  cases found : t.get sender <;> simp [transferDebitsLate, moveDebitsLate, found]

end AceChain.Engine
