import AceChain.Lib.Folds
import AceChain.Vm.Bvm

namespace AceChain.Vm.Externals

open AceChain.Runtime Engine State StateTree OnlyDebits UtxoSlots BvmResult

variable (x : Externals)

theorem creditOutput_settles {t debited : StateTree} {tx : Transaction} {account : Account} {value : Nat}
    (supply : debited.supply + value = t.supply) (balance : debited.balanceOf tx.sender + value = t.balanceOf tx.sender)
    (some_ : value ≠ 0) (nonce : Nat) (recipient : AccountId) (u : Utxo) (same : u.value = value) :
    let bumped := debited.modify tx.sender (fun a => { a with nonce := nonce })
    Settles fee t tx.sender (decide (u64Max < debited.balanceOf recipient + value))
      (match x.slots.addUtxo x.derive bumped recipient u with
      | (.error text, t) => (.error (NVmError.bvmError text), t)
      | (.ok changes, t) =>
        (.ok (.balanceChange tx.sender account.balance (account.balance - value) ::
          .nonceIncrement tx.sender nonce :: changes, some (hashBytes u.txid)), t)) := by
  intro bumped
  have kept : bumped.supply = debited.supply := supply_setNonce debited tx.sender nonce
  have balances : ∀ id, bumped.balanceOf id = debited.balanceOf id := balanceOf_setNonce debited tx.sender nonce
  have own := balances tx.sender
  have added := addUtxo_supply x.slots x.derive bumped recipient u
  rw [← balances recipient]
  cases done : x.slots.addUtxo x.derive bumped recipient u with
  | mk result after =>
    rw [done] at added
    cases result with
    | error text =>
      have left := added.2.1 tx.sender
      have exceeds : u64Max < bumped.balanceOf recipient + value := same ▸ added.2.2
      exact ⟨by omega, by omega, iff_of_false (by omega) (by simp [exceeds])⟩
    | ok changes =>
      obtain ⟨paid, free, fits⟩ := added
      refine ⟨?_, decide_eq_false (by omega)⟩
      change after.supply + feeOf ([_, _] ++ changes) = t.supply
      rw [feeOf_append, free]
      change after.supply + 0 = t.supply
      omega

/-- The value is taken, and then the nonce cannot be counted or the recipient cannot hold the value. -/
def bvmDebitsLate (t : StateTree) (tx : Transaction) : Bool :=
  let recipient := accountAt tx.payload 9
  let value := u64At tx.payload 41
  49 ≤ tx.payload.length && value ≠ 0 && (t.get tx.sender).any (fun account =>
    account.nonce = u64At tx.payload 1 && value ≤ account.balance &&
      (u64Max ≤ account.nonce ||
        u64Max < (if recipient = tx.sender then account.balance - value else t.balanceOf recipient) + value))

theorem bvmTransfer_settles (t : StateTree) (tx : Transaction) :
    Settles fee t tx.sender (bvmDebitsLate t tx) (x.bvmTransfer t tx) := by
  unfold bvmTransfer
  split <;> rename_i size
  · exact refl (by simp [bvmDebitsLate, Nat.not_le.mpr size])
  dsimp only
  split <;> rename_i some_
  · exact refl (by simp [bvmDebitsLate, some_])
  cases found : t.get tx.sender with
  | none => exact refl (by simp [bvmDebitsLate, found])
  | some account =>
    dsimp only
    split <;> rename_i nonce
    · exact refl (by simp [bvmDebitsLate, found, nonce])
    split <;> rename_i short
    · exact refl (by simp [bvmDebitsLate, found, Nat.not_le.mpr short])
    have known : t.contains tx.sender = true := Option.isSome_of_eq_some found
    have own := balanceOf_of_get found
    have debit := supply_setBalance known (account.balance - u64At tx.payload 41)
    have left := balanceOf_setBalance known (account.balance - u64At tx.payload 41)
    have credited : (t.modify tx.sender (fun a => { a with balance := account.balance - u64At tx.payload 41 })).balanceOf
          (accountAt tx.payload 9) = if accountAt tx.payload 9 = tx.sender then account.balance - u64At tx.payload 41
        else t.balanceOf (accountAt tx.payload 9) := by
      split <;> rename_i self
      · rw [self, left]
      · exact balanceOf_modify_ne self _
    have late : bvmDebitsLate t tx = (decide (u64Max ≤ account.nonce) || decide (u64Max <
        (t.modify tx.sender (fun a => { a with balance := account.balance - u64At tx.payload 41 })).balanceOf
          (accountAt tx.payload 9) + u64At tx.payload 41)) := by
      rw [credited]
      simp [bvmDebitsLate, found, Nat.le_of_not_lt size, some_, not_not.mp nonce, Nat.le_of_not_lt short]
    rw [late]
    generalize t.modify tx.sender (fun a => { a with balance := account.balance - u64At tx.payload 41 }) = debited at *
    unfold u64CheckedAdd
    by_cases counts : account.nonce + 1 ≤ u64Max
    · rw [if_pos counts, decide_eq_false (Nat.not_le.mpr counts), Bool.false_or]
      exact x.creditOutput_settles (by omega) (by omega) some_ _ _ _ rfl
    · rw [if_neg counts, decide_eq_true (show u64Max ≤ account.nonce by omega), Bool.true_or]
      exact ⟨by omega, by omega, iff_of_false (by omega) (by simp)⟩

def inputCovered (tx : Transaction) (rawBtc : Option VerifiedBtcIngress) (p : SpendProgress) (index : Nat) : Bool :=
  match readInput tx.payload p.cursor with
  | .error _ => true
  | .ok (input, _) =>
    match x.slots.getUtxo p.state (inputOwner tx rawBtc index) input.txid input.vout with
    | none => true
    | some utxo => utxo.value ≤ p.state.balanceOf (inputOwner tx rawBtc index)

def inputsCovered (tx : Transaction) (rawBtc : Option VerifiedBtcIngress) : List Nat → SpendProgress → Bool
  | [], _ => true
  | index :: rest, p =>
    x.inputCovered tx rawBtc p index &&
      match x.spendInput tx rawBtc p index with
      | .error _ => true
      | .ok q => inputsCovered tx rawBtc rest q

structure Shortfall (p q : SpendProgress) (covered : Bool) (short : Nat) : Prop where
  supply : q.state.supply + q.total = p.state.supply + p.total + short
  covered_iff : short = 0 ↔ covered = true
  fee : feeOf q.changes = feeOf p.changes

variable {x} {tx : Transaction} {rawBtc : Option VerifiedBtcIngress} {p q : SpendProgress}

theorem spendInput_shortfall {index : Nat} (spent : x.spendInput tx rawBtc p index = .ok q) :
    ∃ short, Shortfall p q (x.inputCovered tx rawBtc p index) short := by
  obtain ⟨input, cursor, utxo, changes, after, read, taken, rfl⟩ := spendInput_ok spent
  obtain ⟨supply, free⟩ := spendUtxo_supply taken
  have live := getUtxo_of_spendUtxo taken
  refine ⟨utxo.value - p.state.balanceOf (inputOwner tx rawBtc index), ?_, ?_, ?_⟩
  · dsimp only
    omega
  · unfold inputCovered
    rw [read]
    dsimp only
    rw [live, decide_eq_true_eq]
    omega
  · rw [feeOf_append, free]
    rfl

theorem spendInputs_shortfall {indices : List Nat} (spent : indices.foldlM (x.spendInput tx rawBtc) p = .ok q) :
    ∃ short, Shortfall p q (x.inputsCovered tx rawBtc indices p) short := by
  induction indices generalizing p with
  | nil =>
    cases spent
    exact ⟨0, rfl, ⟨fun _ => rfl, fun _ => rfl⟩, rfl⟩
  | cons index rest ih =>
    rw [List.foldlM_cons] at spent
    unfold inputsCovered
    cases first : x.spendInput tx rawBtc p index with
    | error error =>
      rw [first] at spent
      cases spent
    | ok middle =>
      rw [first] at spent
      obtain ⟨short, taken⟩ := spendInput_shortfall first
      obtain ⟨later, others⟩ := ih spent
      refine ⟨short + later, ?_, ?_, others.fee.trans taken.fee⟩
      · have one := taken.supply
        have rest := others.supply
        omega
      · rw [Bool.and_eq_true, ← taken.covered_iff, ← others.covered_iff]
        omega

theorem createOutput_supply {txid : Hash} {index : Nat} (created : x.createOutput tx txid p index = .ok q) :
    q.state.supply + p.total = p.state.supply + q.total ∧ feeOf q.changes = feeOf p.changes := by
  obtain ⟨output, cursor, changes, after, -, done, rfl⟩ := createOutput_ok created
  have added := addUtxo_supply x.slots x.derive p.state output.recipient
    ⟨txid, index, output.value, output.scriptPubkey⟩
  rw [done] at added
  constructor
  · have supply := added.1
    dsimp only at supply ⊢
    omega
  · rw [feeOf_append, added.2.1]
    rfl

theorem createOutputs_supply {txid : Hash} (created : x.createOutputs tx txid p = .ok q) :
    q.state.supply = p.state.supply + q.total ∧ feeOf q.changes = feeOf p.changes := by
  obtain ⟨outputs, -, folded⟩ := createOutputs_ok created
  apply Lib.foldlM_ok_invariant (P := fun q => q.state.supply = p.state.supply + q.total ∧
    feeOf q.changes = feeOf p.changes) _ _ folded
  · intro before index _ after inv done
    obtain ⟨supply, fee⟩ := createOutput_supply done
    obtain ⟨total, fees⟩ := inv
    constructor
    · omega
    · rw [fee, fees]
  · exact ⟨rfl, rfl⟩

variable (x tx)

def spendCovered (t : StateTree) : Bool :=
  match x.verifiedRawBtc t tx, tx.payload[1]? with
  | .ok rawBtc, some inputs => x.inputsCovered tx rawBtc (List.range inputs.toNat) ⟨2, 0, [], t⟩
  | _, _ => true

variable {x tx}

theorem feeOf_feeChange (fee : Nat) : feeOf (feeChange fee) = fee := by
  unfold feeChange
  split
  · rfl
  · change 0 = fee
    omega

theorem spendInputs_start {t : StateTree} {spent : SpendProgress} (verified : x.verifiedRawBtc t tx = .ok rawBtc)
    (taken : x.spendInputs tx rawBtc t = .ok spent) :
    ∃ short, Shortfall ⟨2, 0, [], t⟩ spent (x.spendCovered tx t) short := by
  obtain ⟨inputs, count, folded⟩ := spendInputs_ok taken
  unfold spendCovered
  rw [verified, count]
  exact spendInputs_shortfall folded

theorem utxoSpendInner_supply {t after : StateTree} {result : BvmResult}
    (done : x.utxoSpendInner t tx = .ok (result, after)) :
    ∃ short, after.supply + result.fee = t.supply + short ∧ (short = 0 ↔ x.spendCovered tx t = true) := by
  obtain ⟨rawBtc, txid, spent, created, verified, taken, made, enough, ending⟩ := utxoSpendInner_ok done
  obtain ⟨short, inputs⟩ := spendInputs_start verified taken
  obtain ⟨grown, fees⟩ := createOutputs_supply made
  have supply := inputs.supply
  have free : feeOf spent.changes = 0 := inputs.fee
  dsimp only at supply
  refine ⟨short, ?_, inputs.covered_iff⟩
  unfold fee
  rcases ending with ⟨changes, rfl⟩ | ⟨nonce, changes, rfl⟩
  · rw [changes, feeOf_append, fees, free, feeOf_feeChange]
    omega
  · rw [changes, feeOf_append, feeOf_append, fees, free, feeOf_feeChange, supply_setNonce]
    change created.state.supply + (0 + (spent.total - created.total) + 0) = _
    omega

end AceChain.Vm.Externals
