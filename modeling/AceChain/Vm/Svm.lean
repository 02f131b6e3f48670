import AceChain.Vm.Engine

namespace AceChain.Vm

open AceChain.Runtime Engine State OnlyDebits

def opSvmInvoke : UInt8 := 0x20

def opSvmTransfer : UInt8 := 0x21

namespace Externals

variable (x : Externals)

/-- A raw Solana transfer may leave out the nonce. -/
def parseTransferPayload (payload : List UInt8) (allowLegacy : Bool) :
    Except NVmError (Option Nat × AccountId × Nat) :=
  if 49 ≤ payload.length then .ok (some (u64At payload 1), accountAt payload 9, u64At payload 41)
  else if allowLegacy && 41 ≤ payload.length then .ok (none, accountAt payload 1, u64At payload 33)
  else .error (.svmError "transfer payload too short or missing nonce")

variable (t : StateTree) (tx : Transaction)

def svmTransfer : Outcome NVmError (List StateChange) :=
  match parseTransferPayload tx.payload (isRaw .solana tx).isSome with
  | .error error => (.error error, t)
  | .ok (expectedNonce, recipient, amount) =>
    let created := if t.contains recipient then [] else [StateChange.accountCreated recipient]
    let t := ensureAccount x.derive t recipient
    match t.get tx.sender with
    | none => (.error (.svmError "sender account not found"), t)
    | some account =>
      match transfer x.derive t tx.sender recipient amount (some (expectedNonce.getD account.nonce)) with
      | (.error error, t) => (.error (.svmError error.text), t)
      | (.ok changes, t) => (.ok (created ++ changes), t)

/-- The marker under which the signature of a raw Solana transaction is remembered. -/
def solanaReplayMarker : Except NVmError (Option (Hash × Hash)) :=
  match isRaw .solana tx with
  | none => .ok none
  | some raw =>
    match x.solanaSignature raw.rawBytes with
    | .error text => .error (.svmError text)
    | .ok signature =>
      .ok (some (x.solanaReplaySlot signature, wordOf ([1] ++ leBytes 8 tx.attestation.domain.slot)))

def svmOperation : Outcome NVmError (List StateChange) :=
  let opcode := tx.payload.headD 0
  if opcode = opSvmInvoke then
    match x.invokeProgram t tx.sender tx.payload with
    | (.error text, t) => (.error (.svmError text), t)
    | (.ok changes, t) => (.ok changes, t)
  else if opcode = opSvmTransfer then x.svmTransfer t tx
  else (.error (.svmError ("unsupported SVM opcode: 0x" ++ opcode.toBitVec.toHex)), t)

def executeSvm : Outcome NVmError VmReceipt :=
  if tx.payload.isEmpty then (.error .emptyPayload, t)
  else
    match x.solanaReplayMarker tx with
    | .error error => (.error error, t)
    | .ok marker =>
      if marker.any (fun entry => t.getStorage tx.sender entry.1 ≠ 0) then
        (.error (.svmError "solana transaction signature has already been used"), t)
      else
        match x.svmOperation t tx with
        | (.error error, t) => (.error error, t)
        | (.ok changes, t) =>
          match marker with
          | none => (.ok (x.receiptOf .svm tx changes none), t)
          | some (slot, value) =>
            (.ok (x.receiptOf .svm tx (changes ++ [.storageChange tx.sender slot 0 value]) none),
              t.setStorage tx.sender slot value)

/-- The recipient has an account by the time of the debit. -/
def svmTransferDebitsLate : Bool :=
  match parseTransferPayload tx.payload (isRaw .solana tx).isSome with
  | .error _ => false
  | .ok (expectedNonce, recipient, amount) =>
    transferDebitsLate (ensureAccount x.derive t recipient) tx.sender recipient amount expectedNonce true

def svmDebitsLate : Bool :=
  match x.solanaReplayMarker tx with
  | .error _ => false
  | .ok marker => !marker.any (fun entry => t.getStorage tx.sender entry.1 ≠ 0) && x.svmTransferDebitsLate t tx

theorem svmTransfer_settles (t : StateTree) (tx : Transaction) :
    Settles feeOf t tx.sender (x.svmTransferDebitsLate t tx) (x.svmTransfer t tx) := by
  unfold svmTransfer svmTransferDebitsLate
  cases parseTransferPayload tx.payload (isRaw .solana tx).isSome with
  | error error => exact refl rfl
  | ok parsed =>
    obtain ⟨expectedNonce, recipient, amount⟩ := parsed
    dsimp only
    cases held : (ensureAccount x.derive t recipient).get tx.sender with
    | none => exact of_kept supply_ensureAccount (balanceOf_ensureAccount tx.sender) (by simp [transferDebitsLate, held])
    | some account =>
      dsimp only
      have settles := transferWithNoncePolicy_settles x.derive (ensureAccount x.derive t recipient) tx.sender recipient
        amount (some (expectedNonce.getD account.nonce)) true
      have settled := settles.of_kept supply_ensureAccount (balanceOf_ensureAccount tx.sender)
      have filled : transferDebitsLate (ensureAccount x.derive t recipient) tx.sender recipient amount
            (some (expectedNonce.getD account.nonce)) true =
          transferDebitsLate (ensureAccount x.derive t recipient) tx.sender recipient amount expectedNonce true := by
        unfold transferDebitsLate
        rw [held]
        cases expectedNonce <;> simp
      rw [filled] at settled
      unfold transfer
      cases done : transferWithNoncePolicy x.derive (ensureAccount x.derive t recipient) tx.sender recipient amount
          (some (expectedNonce.getD account.nonce)) true with
      | mk result after =>
        rw [done] at settled
        cases result with
        | error error => exact settled
        | ok changes =>
          refine ⟨?_, settled.2⟩
          have supply := settled.1
          split <;> simpa [feeOf] using supply

theorem executeSvm_settles (t : StateTree) {tx : Transaction} (opcode : tx.payload.head? = some opSvmTransfer) :
    Settles VmReceipt.fee t tx.sender (x.svmDebitsLate t tx) (x.executeSvm t tx) := by
  have operation : x.svmOperation t tx = x.svmTransfer t tx := by
    unfold svmOperation
    rw [List.headD_eq_head?_getD, opcode]
    rfl
  have settles := x.svmTransfer_settles t tx
  unfold executeSvm svmDebitsLate
  rw [isEmpty_of_head opcode, if_neg Bool.false_ne_true, operation]
  cases x.solanaReplayMarker tx with
  | error error => exact refl rfl
  | ok marker =>
    dsimp only
    split <;> rename_i used
    · exact refl (by rw [used]; rfl)
    rw [Bool.eq_false_of_not_eq_true used, Bool.not_false, Bool.true_and]
    cases done : x.svmTransfer t tx with
    | mk result after =>
      rw [done] at settles
      cases result with
      | error error => exact settles
      | ok changes =>
        cases marker with
        | none => exact settles
        | some entry =>
          refine ⟨?_, settles.2⟩
          change after.supply + feeOf (changes ++ _) = t.supply
          rw [feeOf_append]
          exact settles.1

end Externals

end AceChain.Vm
