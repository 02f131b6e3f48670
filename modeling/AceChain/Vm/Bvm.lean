import AceChain.Vm.Engine

namespace AceChain.Vm

open AceChain.Runtime Engine State

def opBvmTransfer : UInt8 := 0x30

def opBvmScriptExec : UInt8 := 0x31

def opBvmUtxoSpend : UInt8 := 0x32

def dustLimit : Nat := 546

abbrev BvmResult := List StateChange × Option (List UInt8)

def BvmResult.fee (result : BvmResult) : Nat := feeOf result.1

def Externals.buildP2pkhScript (x : Externals) (id : AccountId) : List UInt8 :=
  [0x76, 0xa9, 20] ++ x.hash160 id.bytes ++ [0x88, 0xac]

structure SpendProgress where
  cursor : Nat
  total : Nat
  changes : List StateChange
  state : StateTree

structure SpendInput where
  txid : Hash
  vout : Nat
  scriptSig : List UInt8

structure SpendOutput where
  recipient : AccountId
  value : Nat
  scriptPubkey : List UInt8

def readInput (payload : List UInt8) (cursor : Nat) : Except NVmError (SpendInput × Nat) :=
  if payload.length < cursor + 40 then .error (.bvmError "utxo_spend: input data too short")
  else
    let len := leNat (slice payload (cursor + 36) 4)
    if payload.length < cursor + 40 + len then .error (.bvmError "utxo_spend: script_sig extends beyond payload")
    else
      .ok (⟨beHash (slice payload cursor 32), leNat (slice payload (cursor + 32) 4), slice payload (cursor + 40) len⟩,
        cursor + 40 + len)

/-- An output with the cursor after it; dust is refused before the script is looked at. -/
def readOutput (payload : List UInt8) (index cursor : Nat) : Except NVmError (SpendOutput × Nat) :=
  if payload.length < cursor + 44 then .error (.bvmError "utxo_spend: output data too short")
  else
    let value := u64At payload (cursor + 32)
    let len := leNat (slice payload (cursor + 40) 4)
    if 0 < value ∧ value < dustLimit then
      .error (.bvmError ("output " ++ toString index ++ " value " ++ toString value ++ " below dust limit " ++
        toString dustLimit))
    else if payload.length < cursor + 44 + len then
      .error (.bvmError "utxo_spend: script_pubkey extends beyond payload")
    else .ok (⟨accountAt payload cursor, value, slice payload (cursor + 44) len⟩, cursor + 44 + len)

namespace Externals

variable (x : Externals) (t : StateTree) (tx : Transaction)

def bvmTransfer : Outcome NVmError BvmResult :=
  if tx.payload.length < 49 then (.error (.bvmError "transfer payload too short"), t)
  else
    let expectedNonce := u64At tx.payload 1
    let recipient := accountAt tx.payload 9
    let value := u64At tx.payload 41
    if value = 0 then (.error (.bvmError "transfer value must be non-zero"), t)
    else
      match t.get tx.sender with
      | none => (.error (.bvmError "sender account not found"), t)
      | some account =>
        if account.nonce ≠ expectedNonce then
          (.error (.bvmError ("invalid nonce: expected " ++ toString account.nonce ++ ", got " ++
            toString expectedNonce)), t)
        else if account.balance < value then
          (.error (.bvmError ("insufficient balance: have " ++ toString account.balance ++ ", need " ++
            toString value)), t)
        else
          let left := account.balance - value
          let t := t.modify tx.sender (fun a => { a with balance := left })
          match u64CheckedAdd account.nonce 1 with
          | none => (.error (.bvmError "nonce overflow"), t)
          | some nonce =>
            let t := t.modify tx.sender (fun a => { a with nonce := nonce })
            let txid := x.deriveOutputTxid (x.native.txHash tx) account.nonce
            match x.slots.addUtxo x.derive t recipient ⟨txid, 0, value, x.buildP2pkhScript recipient⟩ with
            | (.error text, t) => (.error (.bvmError text), t)
            | (.ok changes, t) =>
              (.ok (.balanceChange tx.sender account.balance left :: .nonceIncrement tx.sender nonce :: changes,
                some (hashBytes txid)), t)

def bvmScript : Outcome NVmError BvmResult :=
  if tx.payload.length < 13 then (.error (.bvmError "script_exec payload too short"), t)
  else
    let expectedNonce := u64At tx.payload 1
    match t.get tx.sender with
    | none => (.error (.bvmError "sender account not found"), t)
    | some account =>
      let len := leNat (slice tx.payload 9 4)
      if account.nonce ≠ expectedNonce then
        (.error (.bvmError ("invalid nonce: expected " ++ toString account.nonce ++ ", got " ++
          toString expectedNonce)), t)
      else if tx.payload.length < 13 + len then (.error (.bvmError "script data extends beyond payload"), t)
      else
        match x.interpreter.eval (x.interpreter.fresh (x.native.txHash tx)) (slice tx.payload 13 len) with
        | .error text => (.error (.bvmError ("script execution failed: " ++ text)), t)
        | .ok (false, _) => (.error (.bvmError "script evaluated to false"), t)
        | .ok (true, final) =>
          match u64CheckedAdd account.nonce 1 with
          | none => (.error (.bvmError "nonce overflow"), t)
          | some nonce =>
            (.ok ([.nonceIncrement tx.sender nonce], x.interpreter.top final),
              t.modify tx.sender (fun a => { a with nonce := nonce }))

/-- The unlocking script runs first, and the locking script on what it leaves. -/
def verifyScripts (sigHash : Hash) (scriptSig scriptPubkey : List UInt8) : Except NVmError Unit :=
  match x.interpreter.eval (x.interpreter.fresh sigHash) scriptSig with
  | .error text => .error (.bvmError ("scriptSig evaluation failed: " ++ text))
  | .ok (_, unlocked) =>
    match x.interpreter.eval unlocked scriptPubkey with
    | .error text => .error (.bvmError ("scriptPubKey evaluation failed: " ++ text))
    | .ok (false, _) => .error (.bvmError "script verification failed for input")
    | .ok (true, _) => .ok ()

variable (rawBtc : Option VerifiedBtcIngress)

/-- The owner an input is spent from: a raw Bitcoin transaction names one per input. -/
def inputOwner (index : Nat) : AccountId :=
  (rawBtc.bind (fun verified => verified.inputOwners[index]?)).getD tx.sender

def spendInput (p : SpendProgress) (index : Nat) :
    Except NVmError SpendProgress :=
  match readInput tx.payload p.cursor with
  | .error error => .error error
  | .ok (input, cursor) =>
    match x.slots.spendUtxo p.state (inputOwner tx rawBtc index) input.txid input.vout with
    | none =>
      .error (.bvmError ("UTXO not found or already spent: " ++ input.txid.toHex ++ ":" ++ toString input.vout))
    | some (utxo, changes, t) =>
      match if rawBtc.isSome then .ok () else x.verifyScripts (x.native.txHash tx) input.scriptSig utxo.scriptPubkey with
      | .error error => .error error
      | .ok () =>
        match u64CheckedAdd p.total utxo.value with
        | none => .error (.bvmError "input value overflow")
        | some total => .ok ⟨cursor, total, p.changes ++ changes, t⟩

def createOutput (txid : Hash) (p : SpendProgress) (index : Nat) : Except NVmError SpendProgress :=
  match readOutput tx.payload index p.cursor with
  | .error error => .error error
  | .ok (output, cursor) =>
    match u64CheckedAdd p.total output.value with
    | none => .error (.bvmError "output value overflow")
    | some total =>
      match x.slots.addUtxo x.derive p.state output.recipient ⟨txid, index, output.value, output.scriptPubkey⟩ with
      | (.error text, _) => .error (.bvmError text)
      | (.ok changes, t) => .ok ⟨cursor, total, p.changes ++ changes, t⟩

/-- A raw Bitcoin transaction is verified again, against the state and the canonical payload. -/
def verifiedRawBtc : Except NVmError (Option VerifiedBtcIngress) :=
  match isRaw .btc tx with
  | none => .ok none
  | some raw =>
    match x.verifyRawBtc t raw.rawBytes with
    | .error error => .error error
    | .ok verified =>
      if tx.attestation.idcom ≠ verified.senderIdcom then .error (.invalidCredential tx.sender)
      else if tx.payload ≠ verified.payload then
        .error (.rawChainVerify "btc raw payload does not match canonical reconstruction")
      else .ok (some verified)

def spendInputs (t : StateTree) : Except NVmError SpendProgress :=
  match tx.payload[1]? with
  | none => .error (.bvmError "utxo_spend: missing num_inputs")
  | some inputs =>
    if inputs = 0 then .error (.bvmError "utxo_spend: must have at least one input")
    else (List.range inputs.toNat).foldlM (x.spendInput tx rawBtc) ⟨2, 0, [], t⟩

/-- The outputs are counted from zero again, after the inputs. -/
def createOutputs (txid : Hash) (spent : SpendProgress) : Except NVmError SpendProgress :=
  match tx.payload[spent.cursor]? with
  | none => .error (.bvmError "utxo_spend: missing num_outputs")
  | some outputs =>
    (List.range outputs.toNat).foldlM (x.createOutput tx txid) ⟨spent.cursor + 1, 0, spent.changes, spent.state⟩

def feeChange (fee : Nat) : List StateChange := if 0 < fee then [.fee fee] else []

def utxoSpendInner : Except NVmError (BvmResult × StateTree) :=
  match t.get tx.sender with
  | none => .error (.bvmError "sender account not found")
  | some sender =>
    match x.verifiedRawBtc t tx with
    | .error error => .error error
    | .ok rawBtc =>
      let txid := (rawBtc.map (·.txid)).getD (x.deriveOutputTxid (x.native.txHash tx) sender.nonce)
      match x.spendInputs tx rawBtc t with
      | .error error => .error error
      | .ok spent =>
        match x.createOutputs tx txid spent with
        | .error error => .error error
        | .ok created =>
          if spent.total < created.total then
            .error (.bvmError ("insufficient input value: inputs=" ++ toString spent.total ++ ", outputs=" ++
              toString created.total))
          else
            let changes := created.changes ++ feeChange (spent.total - created.total)
            match created.state.get tx.sender with
            | none => .ok ((changes, some (hashBytes txid)), created.state)
            | some account =>
              match u64CheckedAdd account.nonce 1 with
              | none => .error (.bvmError "nonce overflow")
              | some nonce =>
                .ok ((changes ++ [.nonceIncrement tx.sender nonce], some (hashBytes txid)),
                  created.state.modify tx.sender (fun a => { a with nonce := nonce }))

/-- A failed spend restores its snapshot. -/
def utxoSpend : Outcome NVmError BvmResult :=
  match x.utxoSpendInner t tx with
  | .error error => (.error error, t)
  | .ok (result, after) => (.ok result, after)

def bvmOperation : Outcome NVmError BvmResult :=
  let opcode := tx.payload.headD 0
  if opcode = opBvmTransfer then x.bvmTransfer t tx
  else if opcode = opBvmScriptExec then x.bvmScript t tx
  else if opcode = opBvmUtxoSpend then x.utxoSpend t tx
  else (.error (.bvmError ("unsupported BVM opcode: 0x" ++ opcode.toBitVec.toHex)), t)

def executeBvm : Outcome NVmError VmReceipt :=
  if tx.payload.isEmpty then (.error .emptyPayload, t)
  else
    match x.bvmOperation t tx with
    | (.error error, t) => (.error error, t)
    | (.ok (changes, returnData), t) => (.ok (x.receiptOf .bvm tx changes returnData), t)

variable {x} {tx : Transaction} {rawBtc : Option VerifiedBtcIngress} {p q : SpendProgress}

theorem spendInput_ok {index : Nat} (spent : x.spendInput tx rawBtc p index = .ok q) :
    ∃ input cursor utxo changes t, readInput tx.payload p.cursor = .ok (input, cursor) ∧
      x.slots.spendUtxo p.state (inputOwner tx rawBtc index) input.txid input.vout = some (utxo, changes, t) ∧
      q = ⟨cursor, p.total + utxo.value, p.changes ++ changes, t⟩ := by
  unfold spendInput at spent
  cases read : readInput tx.payload p.cursor with
  | error error =>
    rw [read] at spent
    cases spent
  | ok next =>
    obtain ⟨input, cursor⟩ := next
    rw [read] at spent
    dsimp only at spent
    cases taken : x.slots.spendUtxo p.state (inputOwner tx rawBtc index) input.txid input.vout with
    | none =>
      rw [taken] at spent
      cases spent
    | some found =>
      obtain ⟨utxo, changes, after⟩ := found
      rw [taken] at spent
      dsimp only at spent
      cases checked : (if rawBtc.isSome then .ok () else
          x.verifyScripts (x.native.txHash tx) input.scriptSig utxo.scriptPubkey : Except NVmError Unit) with
      | error error =>
        rw [checked] at spent
        cases spent
      | ok passed =>
        rw [checked] at spent
        cases sum : u64CheckedAdd p.total utxo.value with
        | none =>
          rw [sum] at spent
          cases spent
        | some total =>
          rw [sum] at spent
          cases spent
          rw [u64CheckedAdd_eq sum]
          exact ⟨input, cursor, utxo, changes, after, rfl, taken, rfl⟩

theorem createOutput_ok {txid : Hash} {index : Nat} (created : x.createOutput tx txid p index = .ok q) :
    ∃ output cursor changes t, readOutput tx.payload index p.cursor = .ok (output, cursor) ∧
      x.slots.addUtxo x.derive p.state output.recipient ⟨txid, index, output.value, output.scriptPubkey⟩ = (.ok changes, t) ∧
      q = ⟨cursor, p.total + output.value, p.changes ++ changes, t⟩ := by
  unfold createOutput at created
  cases read : readOutput tx.payload index p.cursor with
  | error error =>
    rw [read] at created
    cases created
  | ok next =>
    obtain ⟨output, cursor⟩ := next
    rw [read] at created
    dsimp only at created
    split at created
    · cases created
    rename_i total sum
    cases added : x.slots.addUtxo x.derive p.state output.recipient
        ⟨txid, index, output.value, output.scriptPubkey⟩ with
    | mk result after =>
      rw [added] at created
      cases result with
      | error text => cases created
      | ok changes =>
        cases created
        rw [u64CheckedAdd_eq sum]
        exact ⟨output, cursor, changes, after, rfl, added, rfl⟩

theorem spendInputs_ok {t : StateTree} (taken : x.spendInputs tx rawBtc t = .ok q) :
    ∃ inputs, tx.payload[1]? = some inputs ∧
      (List.range inputs.toNat).foldlM (x.spendInput tx rawBtc) ⟨2, 0, [], t⟩ = .ok q := by
  unfold spendInputs at taken
  cases count : tx.payload[1]? with
  | none =>
    rw [count] at taken
    cases taken
  | some inputs =>
    rw [count] at taken
    dsimp only at taken
    split at taken <;> rename_i none_
    · cases taken
    exact ⟨inputs, rfl, taken⟩

theorem createOutputs_ok {txid : Hash} (created : x.createOutputs tx txid p = .ok q) :
    ∃ outputs, tx.payload[p.cursor]? = some outputs ∧
      (List.range outputs.toNat).foldlM (x.createOutput tx txid) ⟨p.cursor + 1, 0, p.changes, p.state⟩ = .ok q := by
  unfold createOutputs at created
  cases count : tx.payload[p.cursor]? with
  | none =>
    rw [count] at created
    cases created
  | some outputs =>
    rw [count] at created
    exact ⟨outputs, rfl, created⟩

theorem utxoSpendInner_ok {t after : StateTree} {result : BvmResult} (done : x.utxoSpendInner t tx = .ok (result, after)) :
    ∃ rawBtc txid spent created, x.verifiedRawBtc t tx = .ok rawBtc ∧ x.spendInputs tx rawBtc t = .ok spent ∧
      x.createOutputs tx txid spent = .ok created ∧ created.total ≤ spent.total ∧
      ((result.1 = created.changes ++ feeChange (spent.total - created.total) ∧ after = created.state) ∨
        ∃ nonce, result.1 = created.changes ++ feeChange (spent.total - created.total) ++ [.nonceIncrement tx.sender nonce] ∧
          after = created.state.modify tx.sender (fun a => { a with nonce := nonce })) := by
  unfold utxoSpendInner at done
  split at done
  · cases done
  rename_i sender found
  cases verified : x.verifiedRawBtc t tx with
  | error error =>
    rw [verified] at done
    cases done
  | ok rawBtc =>
    rw [verified] at done
    dsimp only at done
    split at done
    · cases done
    rename_i spent taken
    cases made : x.createOutputs tx
        ((rawBtc.map (·.txid)).getD (x.deriveOutputTxid (x.native.txHash tx) sender.nonce)) spent with
    | error error =>
      rw [made] at done
      cases done
    | ok created =>
      rw [made] at done
      dsimp only at done
      refine ⟨rawBtc, _, spent, created, rfl, taken, made, ?_⟩
      split at done <;> rename_i more
      · cases done
      refine ⟨Nat.le_of_not_lt more, ?_⟩
      cases still : created.state.get tx.sender with
      | none =>
        rw [still] at done
        cases done
        exact .inl ⟨rfl, rfl⟩
      | some account =>
        rw [still] at done
        dsimp only at done
        split at done
        · cases done
        rename_i nonce next
        cases done
        exact .inr ⟨nonce, rfl, rfl⟩

end Externals

end AceChain.Vm
