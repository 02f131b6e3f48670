import AceChain.Liquid.Wire
import AceChain.Vm.Batches
import AceChain.Vm.Conservation
import AceChain.Vm.ProgramFrames

namespace AceChain.Vm

open AceChain.Runtime Engine State Node Scheduler Liquid

namespace UtxoSlots

variable {slots : UtxoSlots} {derive : Derivations} {ids : List AccountId} {t t' : StateTree} {owner : AccountId} {u : Utxo}

theorem writeSlot_frame {acc : List StateChange × StateTree} (frame : Frame ids t acc.2) (member : owner ∈ ids)
    (write : Hash × Hash) : Frame ids t (writeSlot owner acc write).2 := frame.trans (frame_setStorage _ _ member)

theorem storeUtxo_frame (member : owner ∈ ids) : Frame ids t (slots.storeUtxo t owner u).2 := by
  apply writeSlot_frame _ member
  apply List.foldlRecOn (motive := fun acc : List StateChange × StateTree => Frame ids t acc.2)
  · exact .refl ids t
  · exact fun acc frame write _ => writeSlot_frame frame member write

theorem clearUtxo_frame (member : owner ∈ ids) : Frame ids t (slots.clearUtxo t owner u).2 := by
  apply writeSlot_frame _ member
  apply List.foldlRecOn (motive := fun acc : List StateChange × StateTree => Frame ids t acc.2)
  · exact writeSlot_frame (.refl ids t) member _
  · intro acc frame chunk _
    dsimp only
    split
    · exact writeSlot_frame frame member _
    · exact frame

theorem addUtxo_frame (slots : UtxoSlots) (derive : Derivations) (t : StateTree) (u : Utxo) (member : owner ∈ ids) :
    Frame ids t (slots.addUtxo derive t owner u).2 := by
  have stored : Frame ids t (slots.storeUtxo (ensureAccount derive t owner) owner u).2 :=
    (frame_ensureAccount member).trans (storeUtxo_frame member)
  unfold addUtxo
  dsimp only
  cases u64CheckedAdd ((slots.storeUtxo (ensureAccount derive t owner) owner u).2.balanceOf owner) u.value with
  | none => exact stored
  | some credited => exact stored.trans (frame_modify _ member)

theorem spendUtxo_frame {txid : Hash} {vout : Nat} {changes : List StateChange} (member : owner ∈ ids)
    (spent : slots.spendUtxo t owner txid vout = some (u, changes, t')) : Frame ids t t' := by
  unfold spendUtxo at spent
  cases found : slots.getUtxo t owner txid vout with
  | none =>
    rw [found] at spent
    cases spent
  | some live =>
    have cleared : Frame ids t (slots.clearUtxo t owner live).2 := clearUtxo_frame member
    rw [found] at spent
    dsimp only at spent
    cases held : (slots.clearUtxo t owner live).2.get owner with
    | none =>
      rw [held] at spent
      cases spent
      exact cleared
    | some account =>
      rw [held] at spent
      cases spent
      exact cleared.trans (frame_modify _ member)

end UtxoSlots

open UtxoSlots

namespace Externals

variable {x : Externals} {ids : List AccountId} {t t' : StateTree} {tx : Transaction} {receipt : VmReceipt}

theorem executeNative_frame (opcode : tx.payload.head? = some opTransfer) (done : x.executeNative t tx = (.ok receipt, t')) :
    tx.payload.length = 49 ∧ (tx.sender ∈ ids → accountAt tx.payload 9 ∈ ids → Frame ids t t') := by
  unfold executeNative at done
  rcases x.native.executeTransaction_cases t tx with ⟨error, refused⟩ | ⟨op, decoded, -, ran⟩
  · rw [refused] at done
    cases done
  unfold TransactionOp.decode at decoded
  rw [opcode] at decoded
  unfold TransactionOp.decodeTransfer at decoded
  by_cases size : tx.payload.length ≠ 49
  · rw [if_pos size] at decoded
    cases decoded
  rw [if_neg size] at decoded
  cases decoded
  refine ⟨not_not.mp size, fun from_ to_ => ?_⟩
  rcases ran with ⟨nonce, receiver, amount, same, ran⟩ | ⟨other, -⟩
  · cases same
    have frame := (executeTransfer_performs x.native t tx (u64At tx.payload 1) _ (u64At tx.payload 41) from_ to_).writes.frame
    rw [ran] at done
    cases result : x.native.executeTransfer t tx (u64At tx.payload 1) (accountAt tx.payload 9) (u64At tx.payload 41) with
    | mk ended after =>
      rw [result] at done frame
      cases ended with
      | error error => cases done
      | ok changes =>
        cases done
        exact frame
  · cases other

theorem executeSvm_ok (done : x.executeSvm t tx = (.ok receipt, t')) :
    ∃ marker changes mid, x.solanaReplayMarker tx = .ok marker ∧
      marker.any (fun entry => t.getStorage tx.sender entry.1 ≠ 0) = false ∧ x.svmOperation t tx = (.ok changes, mid) ∧
      t' = marker.elim mid (fun entry => mid.setStorage tx.sender entry.1 entry.2) := by
  unfold executeSvm at done
  split at done <;> rename_i empty
  · cases done
  cases marked : x.solanaReplayMarker tx with
  | error error =>
    rw [marked] at done
    cases done
  | ok marker =>
    rw [marked] at done
    dsimp only at done
    split at done <;> rename_i used
    · cases done
    cases ran : x.svmOperation t tx with
    | mk result mid =>
      rw [ran] at done
      cases result with
      | error error => cases done
      | ok changes =>
        refine ⟨marker, changes, mid, rfl, Bool.eq_false_iff.mpr used, rfl, ?_⟩
        cases marker with
        | none =>
          cases done
          rfl
        | some entry =>
          cases done
          rfl

variable {marker : Option (Hash × Hash)}

theorem executeSvm_of {changes : List StateChange} (given : tx.payload.isEmpty = false)
    (marked : x.solanaReplayMarker tx = .ok marker)
    (fresh : marker.any (fun entry => t.getStorage tx.sender entry.1 ≠ 0) = false)
    (ran : x.svmOperation t tx = (.ok changes, t')) :
    ∃ receipt, x.executeSvm t tx = (.ok receipt, marker.elim t' (fun entry => t'.setStorage tx.sender entry.1 entry.2)) := by
  unfold executeSvm
  rw [given, marked]
  dsimp only
  rw [fresh, ran]
  cases marker with
  | none => exact ⟨_, rfl⟩
  | some entry => exact ⟨_, rfl⟩

theorem marker_frame (frame : Frame ids t t') (member : tx.sender ∈ ids) :
    Frame ids t (marker.elim t' (fun entry => t'.setStorage tx.sender entry.1 entry.2)) := by
  cases marker with
  | none => exact frame
  | some entry => exact frame.trans (frame_setStorage _ _ member)

theorem parseTransferPayload_ok {payload : List UInt8} {legacy : Bool} {parsed : Option Nat × AccountId × Nat}
    (read : parseTransferPayload payload legacy = .ok parsed) :
    (49 ≤ payload.length ∧ parsed.2.1 = accountAt payload 9) ∨
      (¬ 49 ≤ payload.length ∧ 41 ≤ payload.length ∧ parsed.2.1 = accountAt payload 1) := by
  unfold parseTransferPayload at read
  by_cases long : 49 ≤ payload.length
  · rw [if_pos long] at read
    cases read
    exact .inl ⟨long, rfl⟩
  · rw [if_neg long] at read
    by_cases short : (legacy && decide (41 ≤ payload.length)) = true
    · rw [if_pos short] at read
      cases read
      rw [Bool.and_eq_true, decide_eq_true_eq] at short
      exact .inr ⟨long, short.2, rfl⟩
    · rw [if_neg short] at read
      cases read

theorem svmTransfer_frame {changes : List StateChange} (done : x.svmTransfer t tx = (.ok changes, t'))
    (from_ : tx.sender ∈ ids)
    (long : 49 ≤ tx.payload.length → accountAt tx.payload 9 ∈ ids)
    (short : ¬ 49 ≤ tx.payload.length → 41 ≤ tx.payload.length → accountAt tx.payload 1 ∈ ids) : Frame ids t t' := by
  unfold svmTransfer at done
  cases read : parseTransferPayload tx.payload (isRaw .solana tx).isSome with
  | error error =>
    rw [read] at done
    cases done
  | ok parsed =>
    have to_ : parsed.2.1 ∈ ids := by
      rcases parseTransferPayload_ok read with ⟨size, same⟩ | ⟨less, size, same⟩
      · rw [same]
        exact long size
      · rw [same]
        exact short less size
    obtain ⟨expectedNonce, recipient, amount⟩ := parsed
    have ensured : Frame ids t (ensureAccount x.derive t recipient) := frame_ensureAccount to_
    rw [read] at done
    dsimp only at done
    cases found : (ensureAccount x.derive t recipient).get tx.sender with
    | none =>
      rw [found] at done
      cases done
    | some account =>
      have moved := (transferWithNoncePolicy_performs x.derive (ensureAccount x.derive t recipient) amount
        (some (expectedNonce.getD account.nonce)) true from_ to_).writes.frame
      rw [found] at done
      unfold transfer at done
      dsimp only at done
      cases ran : transferWithNoncePolicy x.derive (ensureAccount x.derive t recipient) tx.sender recipient amount
          (some (expectedNonce.getD account.nonce)) true with
      | mk result after =>
        rw [ran] at done moved
        cases result with
        | error error => cases done
        | ok changes =>
          cases done
          exact ensured.trans moved

theorem bvmTransfer_frame {result : BvmResult} (done : x.bvmTransfer t tx = (.ok result, t')) (from_ : tx.sender ∈ ids) :
    49 ≤ tx.payload.length ∧ (accountAt tx.payload 9 ∈ ids → Frame ids t t') := by
  unfold bvmTransfer at done
  by_cases short : tx.payload.length < 49
  · rw [if_pos short] at done
    cases done
  refine ⟨Nat.le_of_not_lt short, fun to_ => ?_⟩
  rw [if_neg short] at done
  by_cases zero : u64At tx.payload 41 = 0
  · rw [if_pos zero] at done
    cases done
  rw [if_neg zero] at done
  cases found : t.get tx.sender with
  | none =>
    rw [found] at done
    cases done
  | some account =>
    rw [found] at done
    dsimp only at done
    split at done <;> rename_i stale
    · cases done
    split at done <;> rename_i poor
    · cases done
    split at done
    · cases done
    rename_i nonce next
    generalize x.deriveOutputTxid (x.native.txHash tx) account.nonce = txid at done
    have debited : Frame ids t (t.modify tx.sender
        (fun a => { a with balance := account.balance - u64At tx.payload 41 })) := frame_modify _ from_
    have counted := debited.trans (frame_modify (fun a => { a with nonce := nonce }) from_)
    generalize (t.modify tx.sender (fun a => { a with balance := account.balance - u64At tx.payload 41 })).modify
      tx.sender (fun a => { a with nonce := nonce }) = before at done counted
    have added : Frame ids before (x.slots.addUtxo x.derive before (accountAt tx.payload 9)
        ⟨txid, 0, u64At tx.payload 41, x.buildP2pkhScript (accountAt tx.payload 9)⟩).2 :=
      addUtxo_frame _ _ _ _ to_
    cases ran : x.slots.addUtxo x.derive before (accountAt tx.payload 9)
        ⟨txid, 0, u64At tx.payload 41, x.buildP2pkhScript (accountAt tx.payload 9)⟩ with
    | mk ended after =>
      rw [ran] at done added
      cases ended with
      | error text => cases done
      | ok changes =>
        cases done
        exact counted.trans added

theorem executeBvm_ok (done : x.executeBvm t tx = (.ok receipt, t')) : ∃ result, x.bvmOperation t tx = (.ok result, t') := by
  unfold executeBvm at done
  split at done <;> rename_i empty
  · cases done
  cases ran : x.bvmOperation t tx with
  | mk ended after =>
    rw [ran] at done
    cases ended with
    | error error => cases done
    | ok result =>
      cases done
      exact ⟨result, rfl⟩

theorem spendInputs_frame {indices : List Nat} {p q : SpendProgress} (owner : tx.sender ∈ ids)
    (spent : indices.foldlM (x.spendInput tx none) p = .ok q) :
    skipInputs tx.payload indices.length p.cursor = some q.cursor ∧ Frame ids p.state q.state := by
  induction indices generalizing p with
  | nil =>
    cases spent
    exact ⟨rfl, .refl ids _⟩
  | cons index rest ih =>
    rw [List.foldlM_cons] at spent
    cases first : x.spendInput tx none p index with
    | error error =>
      rw [first] at spent
      cases spent
    | ok middle =>
      rw [first] at spent
      obtain ⟨skipped, frame⟩ := ih spent
      obtain ⟨input, cursor, utxo, changes, after, read, taken, rfl⟩ := spendInput_ok first
      have cleared : Frame ids p.state after := spendUtxo_frame (by exact owner) taken
      refine ⟨?_, cleared.trans frame⟩
      unfold readInput at read
      split at read <;> rename_i cut
      · cases read
      by_cases cutScript : tx.payload.length < p.cursor + 40 + leNat (slice tx.payload (p.cursor + 36) 4)
      · rw [if_pos cutScript] at read
        cases read
      · rw [if_neg cutScript] at read
        cases read
        rw [List.length_cons, skipInputs, if_neg cut]
        rw [if_neg cutScript]
        exact skipped

theorem createOutputs_frame {txid : Hash} {indices : List Nat} {p q : SpendProgress} (known : List AccountId)
    (created : indices.foldlM (x.createOutput tx txid) p = .ok q) :
    ∃ ids, outputRecipients tx.payload indices.length p.cursor known = some ids ∧ known ⊆ ids ∧
      Frame ids p.state q.state := by
  induction indices generalizing p known with
  | nil =>
    cases created
    exact ⟨known, rfl, List.Subset.refl _, .refl _ _⟩
  | cons index rest ih =>
    rw [List.foldlM_cons] at created
    cases first : x.createOutput tx txid p index with
    | error error =>
      rw [first] at created
      cases created
    | ok middle =>
      rw [first] at created
      obtain ⟨ids, collected, more, frame⟩ := ih (known.insert (accountAt tx.payload p.cursor)) created
      obtain ⟨output, cursor, changes, after, read, added, rfl⟩ := createOutput_ok first
      have before : known ⊆ ids := fun id member => more (List.mem_insert_of_mem member)
      have recipient : accountAt tx.payload p.cursor ∈ ids := more List.mem_insert_self
      unfold readOutput at read
      split at read <;> rename_i cut
      · cases read
      by_cases dust : 0 < u64At tx.payload (p.cursor + 32) ∧ u64At tx.payload (p.cursor + 32) < dustLimit
      · rw [if_pos dust] at read
        cases read
      rw [if_neg dust] at read
      split at read <;> rename_i cutScript
      · cases read
      cases read
      refine ⟨ids, ?_, before, ?_⟩
      · rw [List.length_cons, outputRecipients, if_neg (by omega)]
        rw [if_neg cut, if_neg cutScript]
        exact collected
      · have stored := addUtxo_frame x.slots x.derive p.state
          ⟨txid, index, u64At tx.payload (p.cursor + 32),
            slice tx.payload (p.cursor + 44) (leNat (slice tx.payload (p.cursor + 40) 4))⟩ recipient
        rw [added] at stored
        exact stored.trans frame

theorem utxoSpend_frame {result : BvmResult} (plain : (isRaw .btc tx).isSome = false)
    (done : x.utxoSpend t tx = (.ok result, t')) (set : spendWriteSet tx = .accounts ids) : Frame ids t t' := by
  unfold utxoSpend at done
  cases inner : x.utxoSpendInner t tx with
  | error error =>
    rw [inner] at done
    cases done
  | ok pair =>
    obtain ⟨result_, after⟩ := pair
    rw [inner] at done
    cases done
    obtain ⟨rawBtc, txid, spent, created, verified, taken, made, -, ending⟩ := utxoSpendInner_ok inner
    have none_ : rawBtc = none := by
      unfold verifiedRawBtc at verified
      cases raw : isRaw .btc tx with
      | none =>
        rw [raw] at verified
        cases verified
        rfl
      | some payload =>
        rw [raw] at plain
        cases plain
    subst none_
    obtain ⟨inputs, count, folded⟩ := spendInputs_ok taken
    obtain ⟨outputs, counted, outs⟩ := createOutputs_ok made
    obtain ⟨collected, listed, sender, frame⟩ := createOutputs_frame [tx.sender] outs
    have owner : tx.sender ∈ collected := sender (List.mem_singleton_self _)
    obtain ⟨skipped, paid⟩ := spendInputs_frame owner folded
    have same : collected = ids := by
      have long : ¬ tx.payload.length ≤ 1 := by
        have bound := (List.getElem?_eq_some_iff.mp count).1
        omega
      have behind : ¬ tx.payload.length ≤ spent.cursor := by
        have bound := (List.getElem?_eq_some_iff.mp counted).1
        omega
      have first : tx.payload.getD 1 0 = inputs := by rw [List.getD_eq_getElem?_getD, count, Option.getD_some]
      have second : tx.payload.getD spent.cursor 0 = outputs := by
        rw [List.getD_eq_getElem?_getD, counted, Option.getD_some]
      rw [List.length_range] at skipped listed
      unfold spendWriteSet at set
      rw [plain, if_neg (by decide), if_neg long, first, skipped] at set
      dsimp only at set
      rw [if_neg behind, second, listed] at set
      cases set
      rfl
    subst same
    rcases ending with ⟨-, rfl⟩ | ⟨nonce, -, rfl⟩
    · exact paid.trans frame
    · exact (paid.trans frame).trans (frame_modify _ owner)

end Externals

namespace Externals

variable {x : Externals} {spl : SplDerivations} {t t' : StateTree} {tx : Transaction} {receipt : VmReceipt}

theorem svmOperation_invoke {changes : List StateChange} (opcode : tx.payload.head? = some opSvmInvoke) :
    (x.withPrograms spl).svmOperation t tx = (.ok changes, t') ↔
      (x.programs spl).invoke tx.sender tx.payload t = (.ok changes, t') := by
  have head : tx.payload.headD 0 = opSvmInvoke := by
    rw [List.headD_eq_head?_getD, opcode]
    rfl
  have program : (x.withPrograms spl).invokeProgram t tx.sender tx.payload =
      (x.programs spl).invoke tx.sender tx.payload t := rfl
  unfold svmOperation
  rw [head, if_pos rfl, program]
  cases (x.programs spl).invoke tx.sender tx.payload t with
  | mk result after => cases result <;> simp

theorem runEngine_invoke_creates {target : AccountId} (opcode : tx.payload.head? = some opSvmInvoke)
    (done : (x.withPrograms spl).runEngine t tx = (.ok receipt, t'))
    (member : target ∈ (x.programs spl).invokeTargets tx.payload)
    (differ : target ≠ tx.sender) :
    ∃ receipt final, (x.withPrograms spl).runEngine (t.without target) tx = (.ok receipt, final) ∧
      final.contains target = true := by
  have engine : ∀ t, (x.withPrograms spl).runEngine t tx = (x.withPrograms spl).executeSvm t tx := by
    intro t
    unfold runEngine
    rw [List.headD_eq_head?_getD, opcode]
    rfl
  have given : tx.payload.isEmpty = false := by
    cases empty : tx.payload with
    | nil =>
      rw [empty] at opcode
      cases opcode
    | cons first rest => rfl
  rw [engine] at done
  obtain ⟨marker, changes, mid, marked, fresh, ran, -⟩ := executeSvm_ok done
  obtain ⟨again, final, goes, there⟩ := Programs.invoke_creates ((svmOperation_invoke opcode).mp ran) member differ
  obtain ⟨receipt, whole⟩ := executeSvm_of (t := t.without target) given marked fresh ((svmOperation_invoke opcode).mpr goes)
  refine ⟨receipt, _, (engine _).trans whole, ?_⟩
  cases marker with
  | none => exact there
  | some entry => exact there

end Externals

open Externals

def engineOpcodes : List (Option UInt8) :=
  [some opTransfer, some opSvmInvoke, some opSvmTransfer, some opBvmTransfer, some opBvmUtxoSpend]

section

variable {x : Externals} {spl : SplDerivations} {bookAccount : Hash → AccountId} {ids : List AccountId} {t t' : StateTree}
  {tx : Transaction} {receipt : VmReceipt}

theorem runEngine_frame (finite : extractWriteSet bookAccount tx = .accounts ids)
    (kind : tx.payload.head? ∈ engineOpcodes)
    (declared : tx.payload.head? = some opSvmInvoke → ∀ id ∈ (x.programs spl).invokeTargets tx.payload, id ∈ ids)
    (done : (x.withPrograms spl).runEngine t tx = (.ok receipt, t')) : Frame ids t t' := by
  have head : ∀ opcode, tx.payload.head? = some opcode → tx.payload.headD 0 = opcode := by
    intro opcode first
    rw [List.headD_eq_head?_getD, first]
    rfl
  unfold extractWriteSet at finite
  unfold runEngine at done
  simp only [engineOpcodes, List.mem_cons, List.not_mem_nil, or_false] at kind
  rcases kind with opcode | opcode | opcode | opcode | opcode
  · rw [opcode] at finite
    rw [head _ opcode] at done
    obtain ⟨sender, long, -⟩ := transferWriteSet_mem finite
    obtain ⟨size, frame⟩ := executeNative_frame opcode done
    exact frame sender (long (Nat.le_of_eq size.symm))
  · rw [opcode] at finite
    rw [head _ opcode] at done
    have sender := sender_mem_invokeWriteSet finite
    obtain ⟨marker, changes, mid, -, -, ran, rfl⟩ := executeSvm_ok done
    have frame := Programs.invoke_frame ((svmOperation_invoke opcode).mp ran)
    apply marker_frame (frame.mono _) sender
    intro id member
    rcases List.mem_cons.mp member with rfl | target
    · exact sender
    · exact declared opcode id target
  · rw [opcode] at finite
    rw [head _ opcode] at done
    obtain ⟨sender, long, short⟩ := transferWriteSet_mem finite
    obtain ⟨marker, changes, mid, -, -, ran, rfl⟩ := executeSvm_ok done
    unfold svmOperation at ran
    rw [head _ opcode] at ran
    exact marker_frame (svmTransfer_frame ran sender long short) sender
  · rw [opcode] at finite
    rw [head _ opcode] at done
    obtain ⟨sender, long, -⟩ := transferWriteSet_mem finite
    obtain ⟨result, ran⟩ := executeBvm_ok done
    unfold bvmOperation at ran
    rw [head _ opcode] at ran
    obtain ⟨size, frame⟩ := bvmTransfer_frame ran sender
    exact frame (long size)
  · rw [opcode] at finite
    rw [head _ opcode] at done
    obtain ⟨result, ran⟩ := executeBvm_ok done
    unfold bvmOperation at ran
    rw [head _ opcode] at ran
    cases plain : (isRaw .btc tx).isSome with
    | false => exact utxoSpend_frame plain ran finite
    | true =>
      have raw : spendWriteSet tx = .global := if_pos plain
      cases raw.symm.trans finite

end

/-- Every account that a transaction changes is in its write set, in every state, exactly when an SVM invocation that
goes through at all declares the accounts its program writes; all other engines and the order book keep to theirs. -/
theorem write_set_sound_iff (x : Externals) (spl : SplDerivations) (v : Venue) (tx : Transaction) (ids : List AccountId)
    (finite : extractWriteSet v.marketBookId tx = .accounts ids) :
    (tx.payload.head? ∈ engineOpcodes →
      ((∀ t receipt t', (x.withPrograms spl).runEngine t tx = (.ok receipt, t') → Frame ids t t') ↔
        (tx.payload.head? = some opSvmInvoke → (∃ t receipt t', (x.withPrograms spl).runEngine t tx = (.ok receipt, t')) →
          ∀ id ∈ (x.programs spl).invokeTargets tx.payload, id ∈ ids))) ∧
      ∀ e outcome e', v.executeLiquidTx tx.sender tx.payload e = (.ok outcome, e') → Liquid.Exchange.Frame v ids e e' := by
  refine ⟨fun kind => ⟨fun sound opcode accepted id member => ?_, fun declared t receipt t' done => ?_⟩,
    fun e outcome e' done => ?_⟩
  · -- an undeclared target is created where it was missing
    obtain ⟨t, receipt, t', done⟩ := accepted
    by_contra outside
    have set := finite
    unfold extractWriteSet at set
    rw [opcode] at set
    have sender := sender_mem_invokeWriteSet set
    have differ : id ≠ tx.sender := (ne_of_mem_of_not_mem sender outside).symm
    obtain ⟨receipt', final, goes, there⟩ := runEngine_invoke_creates opcode done member differ
    have kept := (sound _ _ _ goes).get id outside
    rw [get_without, if_pos rfl] at kept
    unfold StateTree.contains at there
    rw [kept] at there
    cases there
  · exact runEngine_frame finite kind (fun opcode => declared opcode ⟨t, receipt, t', done⟩) done
  · have order := executeLiquidTx_opcode done
    unfold extractWriteSet at finite
    rw [order] at finite
    obtain ⟨sub, sender, book⟩ := liquidWriteSet_ok finite
    exact executeLiquidTx_frame sub sender book done

namespace SmallVm

def spl : SplDerivations where
  accountMintSlot account := account + 3
  accountOwnerIdcomSlot account := account + 4
  accountOwnerSolSlot account := account + 5
  legacyIdcomSolana key := key + 6
  deriveAssociatedTokenAddress owner mint := owner + mint
  runtimeErc20AddressForMint mint := BitVec.ofNat 160 mint.toNat

def venue : Venue where
  tokens := tokens
  derive := derive
  marketBookId m := ⟨m⟩
  deriveMarketId base quote := base.bytes + quote.bytes

def invocation (program : Hash) (target : Nat) (data : List UInt8) : Transaction :=
  txOf 1 20 (opSvmInvoke :: hashBytes program ++ [1] ++ idBytes target ++ data)

def programs : Externals := noRevm.withPrograms spl

end SmallVm

open SmallVm

theorem write_set_sound_declared :
    let tx := invocation systemProgramId 9 [0x01, 0x00]
    let ids := [account 9, account 1]
    (programs.runEngine genesis tx).1.isOk = true ∧
      (programs.runEngine genesis tx).2.contains (account 9) = true ∧
      ∀ t receipt t', programs.runEngine t tx = (.ok receipt, t') → Frame ids t t' :=
  ⟨by decide +kernel, by decide +kernel,
    ((write_set_sound_iff noRevm spl venue (invocation systemProgramId 9 [0x01, 0x00])
      [account 9, account 1] (by decide +kernel)).1 (by decide +kernel)).mpr (fun _ _ => by decide +kernel)⟩

/-- The last byte of the instruction is missing from the entry the scheduler reads, so the account that is created is
not declared; and the account of the token program never is. -/
theorem invocation_leaves_write_set :
    let create := invocation systemProgramId 9 [0x01]
    let mint := invocation tokenProgramId 9 [0x00, 0x06]
    let book := venue.marketBookId
    (extractWriteSet book create = .accounts [account 1] ∧
      (programs.runEngine genesis create).1.isOk = true ∧
      genesis.contains (account 9) = false ∧
      (programs.runEngine genesis create).2.contains (account 9) = true) ∧
    extractWriteSet book mint = .accounts [account 9, account 1] ∧
      (programs.runEngine genesis mint).1.isOk = true ∧
      genesis.getStorage ⟨tokenProgramId⟩ 10 = 0 ∧
      (programs.runEngine genesis mint).2.getStorage ⟨tokenProgramId⟩ 10 ≠ 0 := by
  decide +kernel

end AceChain.Vm
