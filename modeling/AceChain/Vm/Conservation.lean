import AceChain.Vm.BvmSupply
import AceChain.Vm.Evm
import AceChain.Vm.Svm

namespace AceChain.Vm

open AceChain.Runtime Engine State Lib StateTree

def Externals.runEngine (x : Externals) (t : StateTree) (tx : Transaction) : Outcome NVmError VmReceipt :=
  let opcode := tx.payload.headD 0
  match VmId.fromOpcode opcode with
  | none => (.error (.unknownOpcode opcode), t)
  | some .aceNative => x.executeNative t tx
  | some .evm => x.executeEvm t tx
  | some .svm => x.executeSvm t tx
  | some .bvm => x.executeBvm t tx
  | some .tvm => x.executeTvm t tx
  | some .move => x.executeMove t tx

/-- A transfer of native value: by the native engine, the SVM or the BVM, or a UTXO spend. -/
structure ValueTx where
  tx : Transaction
  opcode : tx.payload.head? ∈ [some opTransfer, some opSvmTransfer, some opBvmTransfer, some opBvmUtxoSpend]

namespace Externals

variable (x : Externals)

def isUtxoSpend (tx : Transaction) : Bool := tx.payload.head? = some opBvmUtxoSpend

variable (t : StateTree) (v : ValueTx)

def valueStep : StateTree := (x.runEngine t v.tx).2

def rolledBackStep : StateTree :=
  match x.runEngine t v.tx with
  | (.ok _, after) => after
  | (.error _, _) => t

def valueFee : Nat :=
  match (x.runEngine t v.tx).1 with
  | .ok receipt => receipt.fee
  | .error _ => 0

def Covered : Prop :=
  isUtxoSpend v.tx = true → (x.runEngine t v.tx).1.isOk = true → x.spendCovered v.tx t = true

/-- A transfer takes its amount before it fails: the nonce of its sender is at the end of its range, or the recipient of
a BVM transfer cannot hold the value. -/
def debitsLate : Bool :=
  let opcode := v.tx.payload.head?
  if opcode = some opTransfer then x.native.debitsLate t v.tx
  else if opcode = some opSvmTransfer then x.svmDebitsLate t v.tx
  else opcode = some opBvmTransfer && bvmDebitsLate t v.tx

def FailsWhole : Prop := x.debitsLate t v = false

instance (t : StateTree) (v : ValueTx) : Decidable (x.Covered t v) := inferInstanceAs (Decidable (_ → _ → _))

instance (t : StateTree) (v : ValueTx) : Decidable (x.FailsWhole t v) := inferInstanceAs (Decidable (_ = _))

variable {x} {t : StateTree}

theorem executeBvm_transfer_settles {tx : Transaction} (opcode : tx.payload.head? = some opBvmTransfer) :
    Settles VmReceipt.fee t tx.sender (bvmDebitsLate t tx) (x.executeBvm t tx) := by
  have operation : x.bvmOperation t tx = x.bvmTransfer t tx := by
    unfold bvmOperation
    rw [List.headD_eq_head?_getD, opcode]
    rfl
  have settles := x.bvmTransfer_settles t tx
  unfold executeBvm
  rw [operation, isEmpty_of_head opcode]
  cases done : x.bvmTransfer t tx with
  | mk result after =>
    rw [done] at settles
    cases result with
    | error error => exact settles
    | ok pair => exact settles

theorem executeBvm_spend {tx : Transaction} (opcode : tx.payload.head? = some opBvmUtxoSpend) :
    match x.executeBvm t tx with
    | (.ok receipt, after) =>
      ∃ short, after.supply + receipt.fee = t.supply + short ∧ (short = 0 ↔ x.spendCovered tx t = true)
    | (.error _, after) => after = t := by
  have operation : x.bvmOperation t tx = x.utxoSpend t tx := by
    unfold bvmOperation
    rw [List.headD_eq_head?_getD, opcode]
    rfl
  unfold executeBvm utxoSpend at *
  rw [isEmpty_of_head opcode, operation]
  cases done : x.utxoSpendInner t tx with
  | error error => rfl
  | ok pair =>
    obtain ⟨short, supply, covered⟩ := utxoSpendInner_supply done
    exact ⟨short, supply, covered⟩

variable (x t) in
/-- A transaction goes through, with the shortfall of a spend as new supply, or fails with at most a debit. -/
inductive Effect (v : ValueTx) : Prop where
  | through {receipt : VmReceipt} {after : StateTree} (short : Nat) (done : x.runEngine t v.tx = (.ok receipt, after))
      (supply : after.supply + receipt.fee = t.supply + short) (exact_ : short = 0 ↔ x.Covered t v) (whole : x.FailsWhole t v)
  | failed {error : NVmError} {after : StateTree} (done : x.runEngine t v.tx = (.error error, after))
      (debits : OnlyDebits t after v.tx.sender (x.debitsLate t v)) (covered : x.Covered t v)

theorem Effect.of_settles {v : ValueTx} (noSpend : isUtxoSpend v.tx = false)
    (settles : Settles VmReceipt.fee t v.tx.sender (x.debitsLate t v) (x.runEngine t v.tx)) : x.Effect t v := by
  have covered : x.Covered t v := by
    intro spend
    rw [noSpend] at spend
    cases spend
  cases done : x.runEngine t v.tx with
  | mk result after =>
    rw [done] at settles
    cases result with
    | error error => exact .failed done settles covered
    | ok receipt => exact .through 0 done settles.1 (iff_of_true rfl covered) settles.2

theorem Effect.of_spend {v : ValueTx} (opcode : v.tx.payload.head? = some opBvmUtxoSpend)
    (engine : x.runEngine t v.tx = x.executeBvm t v.tx) : x.Effect t v := by
  have isSpend : isUtxoSpend v.tx = true := decide_eq_true opcode
  have whole : x.FailsWhole t v := by
    unfold FailsWhole debitsLate
    rw [opcode]
    rfl
  have spend := executeBvm_spend (x := x) (t := t) opcode
  rw [← engine] at spend
  cases done : x.runEngine t v.tx with
  | mk result after =>
    rw [done] at spend
    cases result with
    | error error =>
      rw [show after = t from spend] at done
      exact .failed done (.refl whole) (fun _ succeeds => by rw [done] at succeeds; cases succeeds)
    | ok receipt =>
      obtain ⟨short, supply, covered⟩ := spend
      refine .through short done supply (covered.trans ⟨fun holds _ _ => holds, fun holds => holds isSpend ?_⟩) whole
      rw [done]
      rfl

theorem runEngine_effect (t : StateTree) (v : ValueTx) : x.Effect t v := by
  have kinds := v.opcode
  simp only [List.mem_cons, List.not_mem_nil, or_false] at kinds
  have byOpcode : v.tx.payload.headD 0 = v.tx.payload.head?.getD 0 := List.headD_eq_head?_getD
  rcases kinds with opcode | opcode | opcode | opcode
  · apply Effect.of_settles (by rw [isUtxoSpend, opcode]; rfl)
    unfold runEngine debitsLate
    rw [byOpcode, opcode]
    exact x.executeNative_settles t opcode
  · apply Effect.of_settles (by rw [isUtxoSpend, opcode]; rfl)
    unfold runEngine debitsLate
    rw [byOpcode, opcode]
    exact x.executeSvm_settles t opcode
  · apply Effect.of_settles (by rw [isUtxoSpend, opcode]; rfl)
    unfold runEngine debitsLate
    rw [byOpcode, opcode]
    exact executeBvm_transfer_settles opcode
  · apply Effect.of_spend opcode
    unfold runEngine
    rw [byOpcode, opcode]
    rfl

theorem valueStep_exact_iff (v : ValueTx) :
    (x.valueStep t v).supply + x.valueFee t v = t.supply ↔ x.Covered t v ∧ x.FailsWhole t v := by
  unfold valueStep valueFee
  cases x.runEngine_effect t v with
  | through short done supply exact_ whole =>
    rw [done, ← exact_]
    simp only [whole, and_true]
    omega
  | failed done debits covered =>
    have supply := debits.supply
    rw [done, FailsWhole, ← debits.debited]
    simp only [covered, true_and]
    omega

theorem valueStep_le {v : ValueTx} (covered : x.Covered t v) :
    (x.valueStep t v).supply + x.valueFee t v ≤ t.supply := by
  unfold valueStep valueFee
  cases x.runEngine_effect t v with
  | through short done supply exact_ whole =>
    have none_ := exact_.mpr covered
    rw [done]
    dsimp only
    omega
  | failed done debits _ =>
    have supply := debits.supply
    have le := debits.le
    rw [done]
    dsimp only
    omega

theorem rolledBackStep_exact_iff (v : ValueTx) :
    (x.rolledBackStep t v).supply + x.valueFee t v = t.supply ↔ x.Covered t v := by
  unfold rolledBackStep valueFee
  cases x.runEngine_effect t v with
  | through short done supply exact_ whole =>
    rw [done, ← exact_]
    dsimp only
    omega
  | failed done debits covered =>
    rw [done]
    exact iff_of_true rfl covered

end Externals

open Externals

/-- At every point of a run of transfers and spends the supply is what it was less the fees, exactly when every spend
that goes through is covered by its owners' balances and no transfer takes its amount before it fails. Covered spends
alone keep the supply from growing, and are all it takes where failures are rolled back. -/
theorem native_value_conserved_iff (x : Externals) (t : StateTree) (txs : List ValueTx) :
    ((∀ n, (run x.valueStep t (txs.take n)).supply + outflow x.valueStep x.valueFee t (txs.take n) = t.supply) ↔
        Meets x.valueStep (fun t v => x.Covered t v ∧ x.FailsWhole t v) t txs) ∧
      (Meets x.valueStep x.Covered t txs →
        (run x.valueStep t txs).supply + outflow x.valueStep x.valueFee t txs ≤ t.supply) ∧
      ((∀ n, (run x.rolledBackStep t (txs.take n)).supply +
          outflow x.rolledBackStep x.valueFee t (txs.take n) = t.supply) ↔
        Meets x.rolledBackStep x.Covered t txs) := by
  refine ⟨?_, ?_, ?_⟩
  · rw [outflow_balanced_iff x.valueStep supply x.valueFee]
    exact meets_congr (fun t v => valueStep_exact_iff v)
  · intro covered
    apply outflow_le x.valueStep supply x.valueFee
    exact Lib.Meets.imp (fun t v holds => valueStep_le holds) covered
  · rw [outflow_balanced_iff x.rolledBackStep supply x.valueFee]
    exact meets_congr (fun t v => rolledBackStep_exact_iff v)

namespace SmallVm

def account (n : Nat) : AccountId := ⟨BitVec.ofNat 256 n⟩

def derive : Derivations := .ofWidths (fun a _ => a.idCom.bytes) beHash

def native : Engine.Externals where
  derive := derive
  txHash tx := tx.attestation.objHash
  verifyCredential _ _ _ := true
  verifyZkAuth _ _ := .error "no proof"
  decodeOther _ := .error .empty
  executeOther t _ _ := (.error (.invalidPayload "no operation"), t)

def slots : UtxoSlots where
  outpointHash txid vout := BitVec.ofNat 256 (2 ^ 100 * (txid.toNat + 1) + vout)
  scriptSlot txid vout chunk := BitVec.ofNat 256 (2 ^ 180 + 2 ^ 100 * (txid.toNat + 1) + 256 * vout + chunk)
  countSlot := 1

def tokens : TokenSlots where
  program := account 77
  mintSlot mint := mint + 1
  authoritySlot mint := mint + 2
  balanceSlot mint owner := mint + owner.bytes
  allowanceSlot mint owner spender := mint + owner.bytes + spender.bytes
  contractSlot address := BitVec.ofNat 256 address.toNat

/-- `OP_1` leaves a true value, an empty script the stack as it is; the state tells whether a true value is on top. -/
def interpreter : Interpreter where
  State := Bool
  fresh _ := false
  eval top script :=
    if script = [0x51] then .ok (true, true) else if script = [] then .ok (top, top) else .error "no signatures"
  top _ := none

def externals (revm : StateDb → TxEnv → Except String (ExecutionResult × EvmState)) : Externals where
  native := native
  slots := slots
  deriveOutputTxid txHash _ := txHash
  hash160 _ := []
  interpreter := interpreter
  verifyRawBtc _ _ := .error (.rawChainVerify "no raw transactions")
  solanaSignature _ := .error "no raw transactions"
  solanaReplaySlot _ := 0
  invokeProgram t _ _ := (.error "no programs", t)
  tokens := tokens
  deriveContractAccountId _ address := ⟨BitVec.ofNat 256 (2 ^ 202 + address.toNat)⟩
  rawEvmNonce _ := .error (.rawChainVerify "no raw transactions")
  revm := revm
  executeMove t _ := (.error (.unknownOpcode 0x50), t)

def noRevm : Externals := externals (fun _ _ => .error "no revm")

def txOf (sender : Nat) (hash : Nat) (payload : List UInt8) : Transaction where
  payload := payload
  attestation :=
    { objHash := BitVec.ofNat 256 hash
      idcom := (account sender).bytes
      domain := ⟨1, 2⟩
      contextTag := 0
      credential := ⟨.ed25519, []⟩ }
  rawChain := none
  zkAuth := none

def idBytes (n : Nat) : List UInt8 := hashBytes (account n).bytes

def transferPayload (opcode : UInt8) (nonce recipient amount : Nat) : List UInt8 :=
  opcode :: leBytes 8 nonce ++ idBytes recipient ++ leBytes 8 amount

variable (sender hash nonce recipient amount : Nat)

def nativeTransfer : ValueTx where
  tx := txOf sender hash (transferPayload opTransfer nonce recipient amount)
  opcode := List.mem_cons_self

def bvmTransfer : ValueTx where
  tx := txOf sender hash (transferPayload opBvmTransfer nonce recipient amount)
  opcode := List.mem_of_elem_eq_true rfl

/-- The UTXO `txid` goes to `recipient`, under the script `OP_1`. -/
def utxoSpend (sender hash txid recipient amount : Nat) : ValueTx where
  tx := txOf sender hash (opBvmUtxoSpend :: [1] ++ hashBytes (BitVec.ofNat 256 txid) ++ leBytes 4 0 ++ leBytes 4 0 ++
    [1] ++ idBytes recipient ++ leBytes 8 amount ++ leBytes 4 1 ++ [0x51])
  opcode := List.mem_of_elem_eq_true rfl

def genesis : StateTree :=
  (slots.addUtxo derive (new.insert derive { Account.new (account 1) with balance := 2000 }) (account 2)
    ⟨10, 0, 1000, [0x51]⟩).2

end SmallVm

open SmallVm

theorem native_value_conserved_iff_spend :
    let txs := [bvmTransfer 1 20 0 2 700, utxoSpend 2 21 10 3 900, nativeTransfer 3 22 0 1 400]
    (run noRevm.valueStep genesis txs).balanceOf (account 3) = 500 ∧
      ∀ n, (run noRevm.valueStep genesis (txs.take n)).supply +
        outflow noRevm.valueStep noRevm.valueFee genesis (txs.take n) =
          genesis.supply :=
  ⟨by decide, (native_value_conserved_iff noRevm genesis _).1.mpr (by decide)⟩

/-- The thousand units of account `2` are sent on as a balance and then spent again as a UTXO. -/
theorem utxo_spent_twice :
    let txs := [nativeTransfer 2 20 0 1 1000, utxoSpend 2 21 10 3 1000]
    genesis.supply = 3000 ∧ (run noRevm.valueStep genesis txs).supply = 4000 ∧
      (run noRevm.rolledBackStep genesis txs).supply = 4000 := by
  decide

end AceChain.Vm
