import AceChain.Engine.Transfer
import AceChain.Runtime.Payload

namespace AceChain.Engine

open AceChain.Runtime State TransactionOp OnlyDebits StateTree

structure Externals where
  derive : Derivations
  txHash : Transaction → Hash
  verifyCredential : Attestation → List UInt8 → TaggedPubkey → Bool
  verifyZkAuth : Transaction → ZkAuth → Except String Unit
  decodeOther : List UInt8 → Except PayloadError Unit
  executeOther : StateTree → Transaction → TransactionOp → Outcome EngineError (List StateChange)

def EngineError.ofPayload : PayloadError → EngineError
  | .empty => .invalidPayload "empty payload"
  | .unknownOpcode opcode => .invalidPayload ("unknown opcode: 0x" ++ opcode.toBitVec.toHex)
  | .invalid text => .invalidPayload text

namespace Externals

variable (x : Externals)

def updateKey (account : Account) (algorithm : SignatureAlgorithm) (carried : TaggedPubkey) : TaggedPubkey :=
  match (account.authKeyForAlgorithm algorithm).filter (fun key => !key.isZero) with
  | some key => key
  | none =>
    if account.hasProvisionedAuthKey then
      if !account.authPubkey.isZero then account.authPubkey
      else (account.authKeys.find? (fun key => !key.isZero)).getD carried
    else carried

variable (t : StateTree) (tx : Transaction)

def verifyPubkey (op : TransactionOp) : Except EngineError TaggedPubkey :=
  let algorithm := tx.attestation.credential.algorithm
  let known (key : Account → TaggedPubkey) : Except EngineError TaggedPubkey :=
    match t.get tx.sender with
    | some account => .ok (key account)
    | none => .error (.accountNotFound tx.sender)
  let own := known (fun account => (account.authKeyForAlgorithm algorithm).getD account.authPubkey)
  match op with
  | .createAccount idCom carried => if idCom = tx.sender then .ok carried else own
  | .setAuthPubkey _ carried => known (fun account => updateKey account algorithm carried)
  | .addAuthKey _ carried => known (fun account => updateKey account algorithm carried)
  | _ => own

def authorise (op : TransactionOp) : Except EngineError Unit :=
  match tx.zkAuth with
  | some zk =>
    match x.verifyZkAuth tx zk with
    | .ok () => .ok ()
    | .error _ => .error (.invalidCredential tx.sender)
  | none =>
    match verifyPubkey t tx op with
    | .error error => .error error
    | .ok key =>
      if x.verifyCredential tx.attestation tx.payload key then .ok () else .error (.invalidCredential tx.sender)

/-- The `Transfer` operation: a ZK authorisation consumes its replay commitment and no nonce. -/
def executeTransfer (nonce : Nat) (receiver : AccountId) (amount : Nat) :
    Outcome EngineError (List StateChange) :=
  match tx.zkAuth with
  | some zk =>
    match t.zkReplayConsume zk.rpCom tx.sender.bytes with
    | none => (.error (.invalidPayload "ZK-ACE replay commitment already consumed"), t)
    | some t =>
      match transferWithNoncePolicy x.derive t tx.sender receiver amount none false with
      | (.error error, t) => (.error error, t)
      | (.ok changes, t) => (.ok (.zkReplayConsumed zk.rpCom tx.sender :: changes), t)
  | none => transfer x.derive t tx.sender receiver amount (some nonce)

def isTransfer : TransactionOp → Bool
  | .transfer _ _ _ => true
  | _ => false

def executeTransaction : Outcome EngineError (List StateChange) :=
  match decode x.decodeOther tx.payload with
  | .error error => (.error (.ofPayload error), t)
  | .ok op =>
    if tx.isZkAuth && !isTransfer op then
      (.error (.invalidPayload "ZK-ACE authorization is only permitted for Transfer operations"), t)
    else
      match x.authorise t tx op with
      | .error error => (.error error, t)
      | .ok () =>
        match op with
        | .transfer nonce receiver amount => x.executeTransfer t tx nonce receiver amount
        | op => x.executeOther t tx op

/-- A transfer that is let in has debited its sender when it fails. -/
def debitsLate : Bool :=
  match decode x.decodeOther tx.payload with
  | .ok (.transfer nonce receiver amount) => tx.zkAuth.isNone && (x.authorise t tx (.transfer nonce receiver amount)).isOk &&
    transferDebitsLate t tx.sender receiver amount (some nonce) true
  | _ => false

theorem plain_of_allowed {tx : Transaction} {op : TransactionOp} (allowed : ¬(tx.isZkAuth && !isTransfer op) = true)
    (other : isTransfer op = false) : tx.zkAuth = none := by
  rw [other] at allowed
  cases zk : tx.zkAuth with
  | none => rfl
  | some proof => exact absurd (by rw [Transaction.isZkAuth, zk]; rfl) allowed

variable (t : StateTree)

/-- All that `execute_transaction` can do: refuse, transfer, or perform another operation without a ZK
authorisation. -/
theorem executeTransaction_cases (tx : Transaction) :
    (∃ error, x.executeTransaction t tx = (.error error, t)) ∨
      (∃ op, decode x.decodeOther tx.payload = .ok op ∧ x.authorise t tx op = .ok () ∧
        ((∃ nonce receiver amount, op = .transfer nonce receiver amount ∧
            x.executeTransaction t tx = x.executeTransfer t tx nonce receiver amount) ∨
          (isTransfer op = false ∧ tx.zkAuth = none ∧ x.executeTransaction t tx = x.executeOther t tx op))) := by
  unfold executeTransaction
  cases decoded : decode x.decodeOther tx.payload with
  | error error => exact .inl ⟨_, rfl⟩
  | ok op =>
    dsimp only
    by_cases refused : (tx.isZkAuth && !isTransfer op) = true
    · rw [if_pos refused]
      exact .inl ⟨_, rfl⟩
    rw [if_neg refused]
    cases authorised : x.authorise t tx op with
    | error error => exact .inl ⟨error, rfl⟩
    | ok done =>
      refine .inr ⟨op, rfl, authorised, ?_⟩
      have plain : isTransfer op = false → tx.zkAuth = none := plain_of_allowed refused
      cases op with
      | transfer nonce receiver amount => exact .inl ⟨nonce, receiver, amount, rfl, rfl⟩
      | createAccount id key => exact .inr ⟨rfl, plain rfl, rfl⟩
      | setAuthPubkey nonce key => exact .inr ⟨rfl, plain rfl, rfl⟩
      | addAuthKey nonce key => exact .inr ⟨rfl, plain rfl, rfl⟩
      | approveValidator nonce candidate key => exact .inr ⟨rfl, plain rfl, rfl⟩
      | other opcode => exact .inr ⟨rfl, plain rfl, rfl⟩

theorem executeTransfer_settles (tx : Transaction) (nonce : Nat) (receiver : AccountId) (amount : Nat) :
    Settles feeOf t tx.sender (tx.zkAuth.isNone && transferDebitsLate t tx.sender receiver amount (some nonce) true)
      (x.executeTransfer t tx nonce receiver amount) := by
  unfold executeTransfer
  cases tx.zkAuth with
  | none => exact transferWithNoncePolicy_settles _ _ _ _ _ _ _
  | some zk =>
    dsimp only
    cases consumed : t.zkReplayConsume zk.rpCom tx.sender.bytes with
    | none => exact refl rfl
    | some after =>
      have accounts : after.accounts = t.accounts := by
        unfold zkReplayConsume at consumed
        split at consumed
        · cases consumed
        · cases consumed
          rfl
      have settles := transferWithNoncePolicy_settles x.derive after tx.sender receiver amount none false
      rw [transferDebitsLate_uncounted] at settles
      have settled := settles.of_kept (supply_congr accounts) (balanceOf_congr accounts tx.sender)
      dsimp only
      cases done : transferWithNoncePolicy x.derive after tx.sender receiver amount none false with
      | mk result final =>
        rw [done] at settled
        cases result with
        | error error => exact settled
        | ok changes =>
          refine ⟨?_, rfl⟩
          rw [show .zkReplayConsumed zk.rpCom tx.sender :: changes = [.zkReplayConsumed zk.rpCom tx.sender] ++
            changes from rfl,
            feeOf_append]
          exact (Nat.zero_add (feeOf changes)).symm ▸ settled.1

theorem executeTransaction_settles {tx : Transaction} (isTransfer : tx.payload.head? = some opTransfer) :
    Settles feeOf t tx.sender (x.debitsLate t tx) (x.executeTransaction t tx) := by
  unfold executeTransaction debitsLate decode
  rw [isTransfer]
  simp only [if_pos]
  unfold decodeTransfer
  by_cases size : tx.payload.length ≠ 49
  · rw [if_pos size]
    exact refl rfl
  rw [if_neg size]
  dsimp only
  rw [if_neg (by simp [Externals.isTransfer])]
  cases x.authorise t tx (.transfer (u64At tx.payload 1) (accountAt tx.payload 9) (u64At tx.payload 41)) with
  | error error => exact refl (by simp [Except.isOk, Except.toBool])
  | ok done =>
    change Settles _ _ _ (tx.zkAuth.isNone && true && _) _
    rw [Bool.and_true]
    exact x.executeTransfer_settles t tx _ _ _

end Externals

end AceChain.Engine
