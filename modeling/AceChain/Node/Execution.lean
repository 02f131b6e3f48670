import AceChain.Engine.Receipt
import AceChain.Governance.Runtime
import AceChain.Runtime.Payload
import AceChain.State.BlockStore

namespace AceChain.Node

open AceChain.Runtime Consensus Engine Governance State TransactionOp

inductive TxError where
  | slotOutsideRange (txSlot blockSlot : Nat)
  | invalidCredential (sender : AccountId)
  | unknownSender (sender : AccountId)
  | noProvisionedAuthKey (sender : AccountId)
  | insufficientFee (have_ need : Nat)
  | payload (error : PayloadError)
  | settleDisabled
  | evidence (text : String)
  | slash (error : BalanceError)
  | receiptMissing
  | vm (text : String)
deriving DecidableEq

/-- The VM tag, the gas and the logs of a receipt are carried along unread and are left out. -/
structure VmReceipt where
  txHash : Hash
  success : Bool
  sender : AccountId
  stateChanges : List StateChange
  error : Option TxError
  returnData : Option Hash
deriving DecidableEq

inductive WriteSet where
  | accounts (ids : List AccountId)
  | global
deriving DecidableEq

structure OmissionProof where
  blockHash : Hash
  slot : Nat
  producer : Hash
  rest : List UInt8
deriving DecidableEq

/-- What a block's execution takes from elsewhere: the verifiers, the VMs behind the n-VM dispatcher, the DeFi system
transactions and the batch scheduler. A handler that fails leaves the state alone: the node restores its snapshot. -/
structure Machine where
  derive : Derivations
  txHash : Transaction → Hash
  verifyCredential : Attestation → List UInt8 → TaggedPubkey → Bool
  verifyCertificate : Transaction → StateTree → ValidatorSet → Except String Unit
  verifyZkAuth : Transaction → ZkAuth → Except String Unit
  decodeOther : List UInt8 → Except PayloadError Unit
  buildBatches : List Transaction → List (List Nat)
  extractWriteSet : Transaction → WriteSet
  executeTransaction : StateTree → Transaction → Nat → Except String (StateTree × VmReceipt)
  executeBridgeDeposit : StateTree → Transaction → Except String (StateTree × VmReceipt)
  executeWithdrawalCompletion : StateTree → Transaction → Except String (StateTree × VmReceipt)
  executeOassetWithdraw : StateTree → Transaction → Nat → Except String (StateTree × VmReceipt)
  executeLiquid : StateTree → Transaction → Except String (StateTree × VmReceipt)
  decodeOmissionProof : List UInt8 → Except String OmissionProof
  evidenceIdcom : OmissionProof → Hash
  evidenceMarkerSlot : OmissionProof → Hash
  verifyOmissionProof : OmissionProof → Block → StateTree → ValidatorSet → Except String Unit

def slotTolerance : Nat := 100

def domainSlotWithinTolerance (txSlot blockSlot : Nat) : Bool :=
  blockSlot - slotTolerance ≤ txSlot && txSlot ≤ blockSlot + slotTolerance

def hasOpcode (opcode : UInt8) (tx : Transaction) : Bool := tx.payload.head? = some opcode

def shouldEnforceDomainSlotTolerance (tx : Transaction) : Bool :=
  if hasOpcode opMevAceOmissionEvidence tx then false
  else
    match tx.rawChain with
    | none => true
    | some raw => if raw.kind = .tron then false else raw.kind.committeeDomain.isNone

namespace Machine

variable (m : Machine)

def failureReceipt (tx : Transaction) (error : TxError) : VmReceipt :=
  ⟨m.txHash tx, false, tx.sender, [], some error, none⟩

variable (account : Account)

/-- The key a credential is checked against: `SetAuthPubkey` and `AddAuthKey` may carry the first key. -/
def credentialKey (tx : Transaction) : TaggedPubkey :=
  let algorithm := tx.attestation.credential.algorithm
  let bootstrap (carried : TaggedPubkey) : TaggedPubkey :=
    match account.authKeyForAlgorithm algorithm with
    | some key => if key.isZero then carried else key
    | none => carried
  match decode m.decodeOther tx.payload with
  | .ok (.setAuthPubkey _ carried) => bootstrap carried
  | .ok (.addAuthKey _ carried) => bootstrap carried
  | _ => (account.authKeyForAlgorithm algorithm).getD account.authPubkey

def creationKey (tx : Transaction) : Option TaggedPubkey :=
  match decode m.decodeOther tx.payload with
  | .ok (.createAccount idCom key) => if idCom = tx.sender then some key else none
  | _ => none

def checkCredential (tx : Transaction) (key : TaggedPubkey) : Except TxError Unit :=
  if m.verifyCredential tx.attestation tx.payload key then .ok () else .error (.invalidCredential tx.sender)

/-- Phases 1 and 2: the outcome of the verification made before anything executes, `none` when it is left
to the fee phase. -/
def preVerify (activeSet : ValidatorSet) (state : StateTree) (blockSlot : Nat) (tx : Transaction) :
    Option (Except TxError Unit) :=
  if shouldEnforceDomainSlotTolerance tx &&
      !domainSlotWithinTolerance tx.attestation.domain.slot blockSlot then
    some (.error (.slotOutsideRange tx.attestation.domain.slot blockSlot))
  else
    match tx.zkAuth with
    | some zk => some ((m.verifyZkAuth tx zk).mapError .vm)
    | none =>
      match tx.rawChain with
      | some raw =>
        if raw.kind.committeeDomain.isSome then some ((m.verifyCertificate tx state activeSet).mapError .vm)
        else none
      | none =>
        match state.get tx.sender with
        | some account => some (m.checkCredential tx (m.credentialKey account tx))
        | none =>
          match m.creationKey tx with
          | some key => some (m.checkCredential tx key)
          | none => none

def feeCredential (tx : Transaction) : Except TxError Unit :=
  match decode m.decodeOther tx.payload with
  | .error error => .error (.payload error)
  | .ok _ => m.checkCredential tx (m.credentialKey account tx)

def feeAuthorisation (tx : Transaction) (sigPreVerified : Bool) : Except TxError Unit :=
  if tx.rawChain.isSome then .ok ()
  else
    match if sigPreVerified then .ok () else m.feeCredential account tx with
    | .error error => .error error
    | .ok () =>
      let opcode := tx.payload.headD 0
      if !account.hasProvisionedAuthKey && opcode ≠ opSetAuthPubkey && opcode ≠ opAddAuthKey then
        .error (.noProvisionedAuthKey tx.sender)
      else .ok ()

def chargeTxFee (state : StateTree) (tx : Transaction) (sigPreVerified : Bool) :
    Except TxError (StateTree × Option StateChange) :=
  match state.get tx.sender with
  | none =>
    match m.creationKey tx with
    | none => .error (.unknownSender tx.sender)
    | some key =>
      match if sigPreVerified then .ok () else m.checkCredential tx key with
      | .error error => .error error
      | .ok () => .ok (state, none)
  | some account =>
    match m.feeAuthorisation account tx sigPreVerified with
    | .error error => .error error
    | .ok () =>
      if account.balance < txFee then .error (.insufficientFee account.balance txFee)
      else
        .ok (state.modify tx.sender (fun a => { a with balance := a.balance - txFee }),
          some (.balanceChange tx.sender account.balance (account.balance - txFee)))

def convictedProducer (store : BlockStore) (hashOf : BlockHeader → Hash) (state : StateTree)
    (validatorSet : ValidatorSet) (proof : OmissionProof) : Except TxError AccountId :=
  match store.getBlockByHash proof.blockHash with
  | none => .error (.evidence "unknown target block")
  | some block =>
    let leader : AccountId := ⟨block.header.leaderIdcom⟩
    if proof.blockHash ≠ hashOf block.header then
      .error (.evidence "MEV-ACE omission proof block_hash does not match target block")
    else if proof.slot ≠ block.header.slot then
      .error (.evidence "MEV-ACE omission proof slot does not match target block")
    else if proof.producer ≠ 0 ∧ proof.producer ≠ block.header.leaderIdcom then
      .error (.evidence "MEV-ACE omission proof producer does not match target block leader")
    else if (validatorSet.getById leader).isNone then
      .error (.evidence "target block leader is not in validator set")
    else
      match block.mevAce with
      | none => .error (.evidence "target block has no MEV material")
      -- material always converts to a proposal, and a leader in the set has a snapshot
      | some _ =>
        match m.verifyOmissionProof proof block state validatorSet with
        | .error text => .error (.evidence text)
        | .ok () => .ok leader

def slashChanges (before after : StateTree) (producer : AccountId) : List StateChange :=
  let producerChange :=
    match before.get producer, after.get producer with
    | some old, some new =>
      if new.balance ≠ old.balance then [.balanceChange producer old.balance new.balance] else []
    | _, _ => []
  let treasuryChange :=
    match before.get treasuryAccount, after.get treasuryAccount with
    | some old, some new =>
      if old.balance ≠ new.balance then [.balanceChange treasuryAccount old.balance new.balance] else []
    | none, some new =>
      .accountCreated treasuryAccount ::
        if new.balance ≠ 0 then [.balanceChange treasuryAccount 0 new.balance] else []
    | _, _ => []
  producerChange ++ treasuryChange

def consumedMarker : Hash := BitVec.ofNat 256 (2 ^ 248)

/-- Omission evidence slashes the producer and writes governance while the block executes. -/
def executeOmissionEvidence (hashOf : BlockHeader → Hash) (store : BlockStore) (validatorSet : ValidatorSet)
    (state : StateTree) (gov : RuntimeGovernance) (tx : Transaction) :
    Except TxError (StateTree × RuntimeGovernance × VmReceipt) :=
  match m.decodeOmissionProof tx.payload with
  | .error text => .error (.evidence text)
  | .ok proof =>
    let marker := m.evidenceMarkerSlot proof
    if tx.attestation.idcom ≠ m.evidenceIdcom proof then
      .error (.evidence "MEV-ACE omission evidence idcom does not match proof")
    else if state.getStorage treasuryAccount marker ≠ 0 then
      .error (.evidence "MEV-ACE omission evidence has already been consumed")
    else
      match m.convictedProducer store hashOf state validatorSet proof with
      | .error error => .error error
      | .ok producer =>
        match RuntimeGovernance.slashBuilderInTree m.derive gov producer state with
        | (.error error, _, _) => .error (.slash error)
        | (.ok _, gov, slashed) =>
          let slashed := (treeOps m.derive).ensureAccount slashed treasuryAccount
          let old := slashed.getStorage treasuryAccount marker
          let changes := slashChanges state slashed producer ++
            [.storageChange treasuryAccount marker old consumedMarker]
          .ok (slashed.setStorage treasuryAccount marker consumedMarker, gov,
            ⟨m.txHash tx, true, tx.sender, changes, none, some producer.bytes⟩)

end Machine

structure Progress where
  state : StateTree
  governance : RuntimeGovernance
  receipts : Nat → Option VmReceipt
  chargedTxCount : Nat

namespace Progress

def record (p : Progress) (index : Nat) (receipt : VmReceipt) : Progress :=
  { p with receipts := Function.update p.receipts index (some receipt) }

end Progress

namespace Machine

variable (m : Machine)

def settleUncharged (p : Progress) (index : Nat) (tx : Transaction)
    (result : Except String (StateTree × VmReceipt)) : Progress :=
  match result with
  | .ok (state, receipt) => { p with state := state }.record index receipt
  | .error text => p.record index (m.failureReceipt tx (.vm text))

def settleCharged (p : Progress) (index : Nat) (tx : Transaction) (feeChange : Option StateChange)
    (result : Except String (StateTree × VmReceipt)) : Progress :=
  match result with
  | .ok (state, receipt) =>
    { p with state := state, chargedTxCount := p.chargedTxCount + 1 }.record index
      { receipt with stateChanges := feeChange.toList ++ receipt.stateChanges }
  | .error text => p.record index (m.failureReceipt tx (.vm text))

def handle (state : StateTree) (tx : Transaction) (blockSlot : Nat) : Except String (StateTree × VmReceipt) :=
  if hasOpcode opOassetWithdraw tx then m.executeOassetWithdraw state tx blockSlot
  else if hasOpcode opLiquid tx then m.executeLiquid state tx
  else m.executeTransaction state tx blockSlot

variable (hashOf : BlockHeader → Hash)

def executeSingle (store : BlockStore) (activeSet : ValidatorSet) (blockSlot : Nat)
    (verified : Option (Except TxError Unit)) (p : Progress) (index : Nat) (tx : Transaction) : Progress :=
  match verified with
  | some (.error error) => p.record index (m.failureReceipt tx error)
  | _ =>
    if hasOpcode opBridgeDeposit tx then m.settleUncharged p index tx (m.executeBridgeDeposit p.state tx)
    else if hasOpcode opWithdrawalCompleted tx then
      m.settleUncharged p index tx (m.executeWithdrawalCompletion p.state tx)
    else if hasOpcode opMevAceOmissionEvidence tx then
      match m.executeOmissionEvidence hashOf store activeSet p.state p.governance tx with
      | .ok (state, governance, receipt) => { p with state := state, governance := governance }.record index receipt
      | .error error => p.record index (m.failureReceipt tx error)
    else
      match m.chargeTxFee p.state tx verified.isSome with
      | .error error => p.record index (m.failureReceipt tx error)
      | .ok (state, feeChange) =>
        if hasOpcode opCrossVmSettle tx then p.record index (m.failureReceipt tx .settleDisabled)
        else m.settleCharged p index tx feeChange (m.handle state tx blockSlot)

/-- The accounts of a parallel transaction's write set are copied back, with their storage. -/
def mergeAccount (source : StateTree) (state : StateTree) (id : AccountId) : StateTree :=
  match source.get id with
  | some account =>
    let state := state.insert m.derive account
    match source.contractStorage[id]? with
    | some storage => storage.toList.foldl (fun state entry => state.setStorage id entry.1 entry.2) state
    | none => state
  | none => state.remove m.derive id

def mergeWriteSet (source state : StateTree) : WriteSet → StateTree
  | .accounts ids => ids.foldl (m.mergeAccount source) state
  | .global => source

def executeParallel (blockSlot : Nat) (verified : Option (Except TxError Unit)) (start : StateTree)
    (p : Progress) (index : Nat) (tx : Transaction) : Progress :=
  match verified with
  | some (.error error) => p.record index (m.failureReceipt tx error)
  | _ =>
    match m.chargeTxFee start tx verified.isSome with
    | .error error => p.record index (m.failureReceipt tx error)
    | .ok (charged, feeChange) =>
      let result :=
        if hasOpcode opLiquid tx then m.executeLiquid charged tx else m.executeTransaction charged tx blockSlot
      m.settleCharged p index tx feeChange
        (result.map (fun done => (m.mergeWriteSet done.1 p.state (m.extractWriteSet tx), done.2)))

def executeBatch (store : BlockStore) (activeSet : ValidatorSet) (blockSlot : Nat)
    (verify : Transaction → Option (Except TxError Unit)) (txs : List Transaction) (p : Progress)
    (batch : List Nat) : Progress :=
  let start := p.state
  batch.foldl (fun p index =>
    match txs[index]? with
    | none => p
    | some tx =>
      if batch.length ≤ 1 then m.executeSingle hashOf store activeSet blockSlot (verify tx) p index tx
      else m.executeParallel blockSlot (verify tx) start p index tx) p

/-- The executor: all verification reads the state before the block. -/
def executeTransactionsWithFees (activeSet : ValidatorSet) (store : BlockStore)
    (state : StateTree) (txs : List Transaction) (blockSlot : Nat) (governance : RuntimeGovernance) :
    List VmReceipt × Nat × StateTree × RuntimeGovernance :=
  let verify := m.preVerify activeSet state blockSlot
  let done := (m.buildBatches txs).foldl (m.executeBatch hashOf store activeSet blockSlot verify txs)
    ⟨state, governance, fun _ => none, 0⟩
  let receipts := txs.mapIdx (fun i tx => (done.receipts i).getD (m.failureReceipt tx .receiptMissing))
  (receipts, done.chargedTxCount, done.state, done.governance)

end Machine

/-- Every account a successful receipt names is touched at the block's slot. -/
def updateTouchedSlots (state : StateTree) (receipts : List VmReceipt) (currentSlot : Nat) : StateTree :=
  let changes := (receipts.filter (·.success)).flatMap (·.stateChanges)
  (changes.filterMap StateChange.account?).foldl
    (fun state id => state.modify id (fun a => { a with lastTouchedSlot := currentSlot })) state

end AceChain.Node
